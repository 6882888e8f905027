import Tigerso.ProxyRecycling
import Tigerso.RequestAnswer
import Tigerso.RequestTurns

/-!
# http/HttpProxyConnection: the response to every request

A rejected request is not answered, and neither is one that is complete without a server. Where
there is no server, the notification is sent without the body that its header promises.
-/

open SystemCalls

namespace HttpProxyConnection
open HttpMessage HttpHelper GuardedRuns

/-- Every request that is over had one response, and no response was done without a byte. -/
structure EachAnswered (log : List ProxyAction) : Prop where
  once : ∀ earlier, .entered .clientRecvRequest :: earlier <:+ log →
    (turn earlier).begun = true → (turn earlier).OneResponse
  passed : ∀ earlier, .entered .clientSendResponseDone :: earlier <:+ log →
    (turn earlier).sent ≠ []

/-- A request that the parser rejects gets its notification. -/
structure AnsweredOnce (c : HttpProxyConnection) : Prop extends EachAnswered c.log where
  rejected : ∀ n, (turn c.log).notice = some n → n.statuscode = 403 →
    c.state = .clientSendResponse ∨
      c.state = .clientSendResponseDone ∧ Whole n (turn c.log).sent

/-- The parser does not reject what it is given of a request, and no read brings bytes behind a
message. No notification waits when a request goes to its server. Whenever the client is sent to
something is left for it, and a notification that it is sent promises no body. -/
structure Answerable (lib : ParserLib) (c : HttpProxyConnection) (r : Round) : Prop where
  accepted : c.state = .clientRecvRequest → c.mClient.exist = true → blocked r = true →
    arrived r ≠ [] → ∀ answer request,
      c.tunnelled.request.parse lib (arrived r) r.results = some (answer, request) →
        answer.code ≠ hpParseError
  alone : ∀ side, Receiving c side → (c.socket side).exist = true → blocked r = true →
    arrived r ≠ [] → surplus lib ((c.marked side).messageOf side) (arrived r) = 0
  served : c.state = .clientRecvRequestDone → c.mServer.exist = true →
    sameIgnoringCase c.request.message.method (literal "connect") = false →
      c.downstream.isSendDone = true
  left : Sending c .client → c.downstream.isSendDone = false
  bodiless : Sending c .client → c.downstream.msgptr = true → promised c.notification = 0

/-- No request was rejected, none came with another one, and every request that is over had its
response. A response that is complete came from the server. -/
structure Recorded (c : HttpProxyConnection) : Prop where
  heard : c.response.parser.needMoreData = false → (turn c.log).came ≠ []
  response : c.notification.role = .httpRoleResponse
  accepted : ∀ n, (turn c.log).notice = some n → n.statuscode ≠ 403
  alone : (turn c.log).crowded = false
  each : EachAnswered c.log

/-- The state says what was done for the request. -/
structure Answering (c : HttpProxyConnection) : Prop extends Recorded c where
  phase : Phase (turn c.log) c.downstream c.notification c.state

section
variable {c c' : HttpProxyConnection} {side : Side} {lib : ParserLib} {r : Round}
  {action : ProxyAction} {log : List ProxyAction}

theorem EachAnswered.cons (each : EachAnswered log)
    (ended : action = .entered .clientRecvRequest → (turn log).begun = true →
      (turn log).OneResponse)
    (done : action = .entered .clientSendResponseDone → (turn log).sent ≠ []) :
    EachAnswered (action :: log) := by
  refine ⟨fun earlier older => ?_, fun earlier older => ?_⟩
  · rcases List.suffix_cons_iff.mp older with same | earlier'
    · obtain ⟨here, rfl⟩ := List.cons.inj same
      exact ended here.symm
    · exact each.once earlier earlier'
  · rcases List.suffix_cons_iff.mp older with same | earlier'
    · obtain ⟨here, rfl⟩ := List.cons.inj same
      exact done here.symm
    · exact each.passed earlier earlier'

theorem Answering.of_same (answering : Answering c) (log : c'.log = c.log)
    (downstream : c'.downstream = c.downstream) (state : c'.state = c.state)
    (heard : c'.response.parser.needMoreData = false →
      c.response.parser.needMoreData = false)
    (response : c'.notification = c.notification) : Answering c' := by
  refine ⟨⟨fun complete => ?_, ?_, ?_, ?_, ?_⟩, ?_⟩
  · rw [log]
    exact answering.heard (heard complete)
  · rw [response]
    exact answering.response
  · rw [log]
    exact answering.accepted
  · rw [log]
    exact answering.alone
  · rw [log]
    exact answering.each
  · rw [log, downstream, response, state]
    exact answering.phase

/-- An action behind which the state says what was done. -/
theorem Recorded.noted (recorded : Recorded c) (log : c'.log = action :: c.log)
    (phase : Phase ((turn c.log).note action) c'.downstream c'.notification c'.state)
    (heard : c'.response.parser.needMoreData = false → ((turn c.log).note action).came ≠ [])
    (response : c'.notification.role = .httpRoleResponse)
    (accepted : ∀ n, ((turn c.log).note action).notice = some n → n.statuscode ≠ 403)
    (alone : ((turn c.log).note action).crowded = false)
    (ended : action = .entered .clientRecvRequest → (turn c.log).begun = true →
      (turn c.log).OneResponse)
    (done : action = .entered .clientSendResponseDone → (turn c.log).sent ≠ []) :
    Answering c' := by
  refine ⟨⟨?_, response, ?_, ?_, ?_⟩, ?_⟩
  · rw [log]
    exact heard
  · rw [log]
    exact accepted
  · rw [log]
    exact alone
  · rw [log]
    exact recorded.each.cons ended done
  · rw [log]
    exact phase

theorem note_entered (t : Turn) {state : HttpProxyState} (other : state ≠ .clientRecvRequest) :
    t.note (.entered state) = t := by
  cases state with
  | clientRecvRequest => exact absurd rfl other
  | _ => rfl

/-- A state is entered in which a request is neither begun nor over. -/
theorem Recorded.enter (recorded : Recorded c) {state : HttpProxyState}
    (other : state ≠ .clientRecvRequest)
    (done : state = .clientSendResponseDone → (turn c.log).sent ≠ []) :
    Recorded (c.enter state) := by
  have same : turn (c.enter state).log = turn c.log := note_entered _ other
  refine ⟨?_, recorded.response, ?_, ?_, ?_⟩
  · rw [same]
    exact recorded.heard
  · rw [same]
    exact recorded.accepted
  · rw [same]
    exact recorded.alone
  · refine recorded.each.cons (fun here => absurd ?_ other) fun here => done ?_
    · exact ProxyAction.entered.inj here
    · exact ProxyAction.entered.inj here

/-- A state is entered in which a request is not begun. -/
theorem Answering.enter (answering : Answering c) {state : HttpProxyState}
    (other : state ≠ .clientRecvRequest)
    (phase : Phase (turn c.log) c.downstream c.notification state) :
    Answering (c.enter state) := by
  have same : turn (c.enter state).log = turn c.log := note_entered _ other
  refine ⟨answering.toRecorded.enter other fun done => ?_, ?_⟩
  · subst done
    exact phase.1.some_
  · rw [same]
    exact phase

/-- The next request is begun when the one before it had its response. -/
theorem Answering.begin (answering : Answering c) (drained : Drained c.downstream)
    (unheard : c.response.parser.needMoreData = true)
    (ended : (turn c.log).begun = true → (turn c.log).OneResponse) :
    Answering (c.enter .clientRecvRequest) := by
  refine answering.toRecorded.noted rfl (Or.inl ⟨rfl, rfl, rfl, drained⟩) (fun complete => ?_)
    answering.response (fun _ wrong => by cases wrong) rfl (fun _ => ended)
    fun wrong => by cases wrong
  exact absurd (complete.symm.trans unheard) Bool.false_ne_true

/-- Where nothing came from the server no response was heard. -/
theorem Answering.unheard (answering : Answering c) (came : (turn c.log).came = []) :
    c.response.parser.needMoreData = true := by
  by_contra complete
  exact answering.heard (Bool.eq_false_iff.mpr complete) came

/-- An action that is no part of a response and enters no state. -/
def aside : ProxyAction → Bool
  | .handedOut => true
  | .received .client _ => true
  | .connected _ _ => true
  | .responded _ _ => true
  | .forwarded _ _ _ => true
  | _ => false

/-- An action beside the response leaves the request as it is answered. -/
theorem Answering.note (answering : Answering c) (apart : aside action = true) :
    Answering (c.note action) := by
  obtain ⟨same, unentered⟩ : (turn c.log).note action = turn c.log ∧
      ∀ state, action ≠ .entered state := by
    cases action with
    | handedOut => exact ⟨rfl, fun state wrong => by cases wrong⟩
    | recycled => cases apart
    | entered state => cases apart
    | received side data =>
      cases side with
      | client => exact ⟨rfl, fun state wrong => by cases wrong⟩
      | server => cases apart
    | connected host port => exact ⟨rfl, fun state wrong => by cases wrong⟩
    | responded request nobody => exact ⟨rfl, fun state wrong => by cases wrong⟩
    | forwarded data request peer => exact ⟨rfl, fun state wrong => by cases wrong⟩
    | notified n => cases apart
    | answered data attached => cases apart
    | behind side surplus => cases apart
  refine answering.toRecorded.noted rfl ?_ ?_ answering.response ?_ ?_
    (fun wrong => absurd wrong (unentered _)) fun wrong => absurd wrong (unentered _)
  · rw [same]
    exact answering.phase
  · rw [same]
    exact answering.heard
  · rw [same]
    exact answering.accepted
  · rw [same]
    exact answering.alone

theorem Answering.onSocket (answering : Answering c) (side : Side)
    (change : NetSocket ProxyHandler → NetSocket ProxyHandler) :
    Answering (c.onSocket side change) := by
  cases side with
  | client => exact answering.of_same rfl rfl rfl id rfl
  | server => exact answering.of_same rfl rfl rfl id rfl

theorem Answering.recycle (answering : Answering c) : Answering c.recycle := by
  refine answering.toRecorded.noted rfl ⟨rfl, rfl, rfl, rfl⟩ ?_ answering.response ?_ rfl ?_ ?_
  · exact fun wrong => by cases wrong
  · exact fun _ wrong => by cases wrong
  · exact fun wrong => by cases wrong
  · exact fun wrong => by cases wrong

/-- What a side reads is no answer. -/
theorem Answering.recvNIO (answering : Answering c) (receiving : Receiving c side)
    (read : SocketRead) : Answering ( c.recvNIO side read).2 := by
  have filled : Answering ((c.withInBuffer side ((c.inBuffer side).addData read.data)).note
      (.received side read.data)) := by
    cases side with
    | client =>
      have same : Answering (c.withInBuffer .client ((c.inBuffer .client).addData read.data)) :=
        answering.of_same rfl rfl rfl id rfl
      exact same.note rfl
    | server =>
      have phase := answering.phase
      rw [receiving] at phase
      have whole : (turn c.log).sent ++ (c.downstream.readable ++ read.data) =
          (turn c.log).came ++ read.data := by
        rw [← List.append_assoc, phase.whole]
      refine answering.toRecorded.noted rfl ?_ (fun complete nothing => ?_) answering.response
        answering.accepted answering.alone (fun wrong => by cases wrong) fun wrong => by cases wrong
      · have state : ((c.withInBuffer .server ((c.inBuffer .server).addData read.data)).note
            (.received .server read.data)).state = .serverRecvResponse := receiving
        rw [state]
        exact ⟨phase.notice, whole, phase.detached⟩
      · exact answering.heard complete (List.append_eq_nil_iff.mp nothing).1
  rw [ HttpProxyConnection.recvNIO]
  split_ifs
  · exact answering
  · cases read.ending with
    | blocked waits => exact filled.onSocket side fun sock => afterSSL sock (some waits)
    | failed kept => exact filled.onSocket side fun sock => afterSSL sock kept

/-- The client is sent a part of its response. -/
theorem Answering.sendNIO (answering : Answering c) (sending : Sending c side)
    (responds : side = .client → Responding (turn c.log) c.downstream c.notification)
    (sent : SocketSend) : Answering ( c.sendNIO side sent).2 := by
  rw [ HttpProxyConnection.sendNIO]
  split_ifs
  · exact answering
  · cases side with
    | client =>
      have phase := answering.phase
      have answered : Answering ((c.withOutBuffer .client
          (c.downstream.sendToSocket sent.taken (c.sentBody sent)).2.2).note
            (.answered (c.downstream.sendToSocket sent.taken (c.sentBody sent)).2.1
              c.downstream.msgptr)) := by
        refine answering.toRecorded.noted rfl ?_ answering.heard answering.response
          answering.accepted answering.alone (fun wrong => by cases wrong)
          fun wrong => by cases wrong
        have state : ((c.withOutBuffer .client
            (c.downstream.sendToSocket sent.taken (c.sentBody sent)).2.2).note
              (.answered (c.downstream.sendToSocket sent.taken (c.sentBody sent)).2.1
                c.downstream.msgptr)).state = c.state := rfl
        rw [state]
        rcases sending with here | here
        · rw [here] at phase ⊢
          exact phase.sendToSocket sent.taken (c.sentBody sent)
        · rw [here]
          exact Or.inr ((responds rfl).sendToSocket sent.taken (c.sentBody sent))
      exact answered.onSocket .client fun sock => afterSSL sock sent.ssl
    | server =>
      have same : Answering (c.withOutBuffer .server
          (c.upstream.sendToSocket sent.taken (c.sentBody sent)).2.2) :=
        answering.of_same rfl rfl rfl id rfl
      have forwarded := @Answering.note _ (.forwarded
        (c.upstream.sendToSocket sent.taken (c.sentBody sent)).2.1 c.request c.peer) same rfl
      exact forwarded.onSocket .server fun sock => afterSSL sock sent.ssl

/-- A state is left when nothing else is to be done in it. -/
theorem Answering.predict (answering : Answering c) (leaving : Leaving c) :
    Answering c.predictNextState := by
  have phase := answering.phase
  have state (state : HttpProxyState) (here : c.state = state) : routine state = true :=
    (congrArg routine here).symm.trans leaving.busy
  rw [predictNextState]
  cases here : c.state with
  | proxyInit =>
    rw [here] at phase
    obtain ⟨idle, came, drained⟩ := phase
    have begun := answering.begin drained (answering.unheard came)
      fun wrong => absurd (idle.symm.trans wrong) Bool.false_ne_true
    exact begun.onSocket .client _
  | clientRecvRequest =>
    rw [here] at phase
    dsimp only
    split_ifs
    · exact answering.enter (by decide) phase
    · exact answering
  | serverSendRequestDone =>
    rw [here] at phase
    exact answering.enter (by decide) phase
  | serverRecvResponse =>
    rw [here] at phase
    exact answering.enter (by decide) ⟨phase, answering.heard (leaving.complete here)⟩
  | serverRecvResponseDone =>
    rw [here] at phase
    exact answering.enter (by decide) (Or.inr (Or.inr phase))
  | serverHandshake =>
    rw [here] at phase
    exact answering.enter (by decide) phase
  | serverHandshakeDone =>
    rw [here] at phase
    exact answering.enter (by decide) phase
  | clientHandshake =>
    rw [here] at phase
    exact answering.enter (by decide) phase
  | _ => cases state _ here

/-- A response of which nothing is left was sent whole. -/
theorem Answering.sentAll (answering : Answering c) (sending : Sending c side)
    (responds : side = .client → Responding (turn c.log) c.downstream c.notification)
    (bodiless : side = .client → (turn c.log).notice ≠ none → promised c.notification = 0)
    (done : (c.outBuffer side).isSendDone = true) : Answering c.predictNextState := by
  have phase := answering.phase
  cases side with
  | client =>
    have drained := (responds rfl).drained done
    have one : (turn c.log).OneResponse := by
      rcases responds rfl with notified | ⟨passing, came⟩
      · have none_ := bodiless rfl (by rw [notified.notice]; nofun)
        exact notified.oneResponse answering.alone none_ drained
      · exact passing.oneResponse answering.alone came drained
    rcases sending with here | here
    · rw [here] at phase
      rw [predictNextState, here]
      exact answering.enter (by decide) ⟨one, phase.came, drained⟩
    · rw [predictNextState, here]
      exact answering.enter (by decide) ⟨one, drained⟩
  | server =>
    rw [Sending] at sending
    rw [sending] at phase
    rw [predictNextState, sending]
    exact answering.enter (by decide) phase

theorem answering_lasting : Lasting Answering where
  socket _ _ _ _ _ answering := answering.onSocket _ _
  respond _ unsent answering :=
    answering.enter (by decide) (Or.inr (answering.phase.responding unsent))
  recycle _ answering := answering.recycle
  predict _ leaving answering := answering.predict leaving
  recvNIO _ _ read receiving answering := answering.recvNIO receiving read
  handleCalled _ _ answering := answering.of_same rfl rfl rfl id rfl
  answered _ answering := answering.of_same rfl rfl rfl id rfl
  queue _ _ answering := answering.of_same rfl rfl rfl id rfl
  handedOut _ answering := answering.note rfl
  accept _ _ answering := answering.onSocket _ _

theorem Responding.sendNIO
    (responds : Responding (turn c.log) c.downstream c.notification) (sent : SocketSend) :
    Responding (turn ( c.sendNIO .client sent).2.log) ( c.sendNIO .client sent).2.downstream
      c.notification := by
  rw [ HttpProxyConnection.sendNIO]
  split_ifs
  · exact responds
  · exact responds.sendToSocket sent.taken (c.sentBody sent)

/-- What the client is sent leaves the notification and what is noted of it alone. -/
theorem sendNIO_turn (sent : SocketSend) :
    (turn ( c.sendNIO .client sent).2.log).notice = (turn c.log).notice ∧
      ( c.sendNIO .client sent).2.notification = c.notification := by
  rw [ HttpProxyConnection.sendNIO]
  split_ifs
  · exact ⟨rfl, rfl⟩
  · exact ⟨rfl, rfl⟩

/-- A notification of the turn is attached as long as something is left of it. -/
theorem Answering.attached (answering : Answering c) (notice : (turn c.log).notice ≠ none)
    (unsent : c.downstream.isSendDone = false) : c.downstream.msgptr = true := by
  rcases answering.phase.responding unsent with notified | ⟨passing, _⟩
  · exact notified.attached unsent
  · exact absurd passing.notice notice

/-- Sending to either side keeps the account of the answers. -/
theorem Answering.sends (answering : Answering c) (answerable : Answerable lib c r)
    (sending : Sending c side) : Sends Answering c side r := by
  rintro change mild _ rfl
  have same : Untouched c (c.onSocket side change) := onSocket_untouched fun s => (mild s).toKept
  have sending' := sending.of_state same.state
  have before := answering.onSocket side change
  cases side with
  | server =>
    have sent := before.sendNIO sending' nofun r.sent
    exact ⟨sent, fun done => sent.sentAll
      (sending'.of_state (sendNIO_untouched r.sent).state) nofun nofun done⟩
  | client =>
    have unsent := answerable.left sending
    have responds : Responding (turn c.log) c.downstream c.notification :=
      answering.phase.responding unsent
    have sent := before.sendNIO sending' (fun _ => responds) r.sent
    refine ⟨sent, fun done => ?_⟩
    have after := sending'.of_state
      (@sendNIO_untouched (c.onSocket .client change) .client r.sent).state
    obtain ⟨notice, kept⟩ := @sendNIO_turn (c.onSocket .client change) r.sent
    refine sent.sentAll after (fun _ => ?_) (fun _ noticed => ?_) done
    · rw [kept]
      exact @ Responding.sendNIO (c.onSocket .client change) responds r.sent
    · rw [kept]
      rw [notice] at noticed
      exact answerable.bodiless sending (answering.attached noticed unsent)

theorem getHeader_ne_nil {n : HttpMessage} (role : n.role = .httpRoleResponse)
    (status : n.statuscode ≠ 0) (desc : n.desc ≠ []) : n.getHeader ≠ [] := by
  rw [getHeader, role]
  dsimp only
  rw [if_neg (not_or.mpr ⟨status, desc⟩)]
  simp [headerLines, literal]

/-- A notification of this code: it has a header. -/
structure Notice (n : HttpMessage) (code : Nat) : Prop where
  role : n.role = .httpRoleResponse
  status : n.statuscode = code
  filled : n.getHeader ≠ []

theorem prepare503_notice {n n' : HttpMessage} (role : n.role = .httpRoleResponse)
    (prepared : prepare503Response n = some n') : Notice n' 503 := by
  obtain ⟨_, _, _, _, rfl⟩ := prepareResponse_some prepared
  obtain ⟨status, desc, same, _⟩ := notice_fields n 503 defaultResponse503Body.length
  have role := same.trans role
  refine ⟨role, status, getHeader_ne_nil role ?_ ?_⟩
  · exact fun zero => absurd (status.symm.trans zero) (by decide)
  · exact fun none_ => absurd (desc.symm.trans none_) (by decide)

theorem prepare200_notice {n : HttpMessage} (role : n.role = .httpRoleResponse) :
    Notice (prepare200Response n) 200 := by
  obtain ⟨status, desc, same, _⟩ := prepare200Response_fields n
  have role := same.trans role
  refine ⟨role, status, getHeader_ne_nil role ?_ ?_⟩
  · exact fun zero => absurd (status.symm.trans zero) (by decide)
  · exact fun none_ => absurd (desc.symm.trans none_) (by decide)

/-- A notification takes the place of what there was for the client. -/
theorem Recorded.notify (recorded : Recorded c) {n : HttpMessage} {code : Nat}
    (notice : Notice n code) (other : code ≠ 403) (sent : (turn c.log).sent = [])
    (came : (turn c.log).came = [])
    (waits : ∀ t left, Pending t left n → Phase t left n c.state) :
    Answering (c.attachNotification n) := by
  refine recorded.noted rfl (waits _ _ (pending_notified sent came notice.filled)) recorded.heard
    notice.role (fun n' same => ?_) recorded.alone (fun wrong => ?_) fun wrong => ?_
  · obtain rfl := Option.some.inj same
    rw [notice.status]
    exact other
  · cases wrong
  · cases wrong

/-- Nothing was done for a request that is received. -/
theorem Unanswered.unsent {t : Turn} {left : BufferQueue} {n : HttpMessage}
    (waits : Unanswered t left ∨ Pending t left n) : t.sent = [] ∧ t.came = [] := by
  rcases waits with unanswered | pending
  · exact ⟨unanswered.sent, unanswered.came⟩
  · exact ⟨pending.unsent, pending.came⟩

/-- There is no server for a request. -/
theorem Answering.notify503 (answering : Answering c)
    (here : c.state = .clientRecvRequest ∨ c.state = .clientRecvRequestDone)
    {n : HttpMessage} (prepared : prepare503Response c.notification = some n) :
    Answering (c.attachNotification n) := by
  have phase := answering.phase
  have notice := prepare503_notice answering.response prepared
  rcases here with state | state
  · rw [state] at phase
    obtain ⟨sent, came⟩ := Unanswered.unsent phase
    refine answering.toRecorded.notify notice (by decide) sent came fun _ _ pending => ?_
    rw [state]
    exact Or.inr pending
  · rw [state] at phase
    obtain ⟨sent, came⟩ := Unanswered.unsent phase
    refine answering.toRecorded.notify notice (by decide) sent came fun _ _ pending => ?_
    rw [state]
    exact Or.inr pending

/-- What is done for a request that is complete, by what the code looks at. -/
theorem Answering.preparing (answering : Answering c) (answerable : Answerable lib c r)
    (here : c.state = .clientRecvRequestDone) : Answering c.preparing := by
  have phase := answering.phase
  rw [here] at phase
  obtain ⟨sent, came⟩ := Unanswered.unsent phase
  have next : c.predictNextState = if c.mServer.exist then
      if sameIgnoringCase c.request.message.method (literal "connect") then
        c.enter .clientSend200ok
      else c.enter .serverSendRequest
      else c.enter .clientSendResponse := by
    rw [predictNextState, here]
  have plain {state : HttpProxyState} (eq : c.predictNextState = c.enter state)
      (other : state ≠ .clientSend200ok) (entered : Answering (c.enter state)) :
      Answering c.preparing := by
    have prepared : c.preparing = c.enter state := by
      rw [HttpProxyConnection.preparing, eq]
      exact if_neg other
    rw [prepared]
    exact entered
  cases exists_ : c.mServer.exist with
  | false =>
    rw [exists_, if_neg Bool.false_ne_true] at next
    refine plain next (by decide) (answering.enter (by decide) ?_)
    rcases phase with unanswered | pending
    · exact Or.inl unanswered
    · exact Or.inr (Or.inl pending.toNotified)
  | true =>
    rw [exists_, if_pos rfl] at next
    cases method : sameIgnoringCase c.request.message.method (literal "connect") with
    | false =>
      rw [method, if_neg Bool.false_ne_true] at next
      refine plain next (by decide) (answering.enter (by decide) ?_)
      rcases phase with unanswered | pending
      · exact unanswered.passing
      · have done := answerable.served here exists_ method
        exact absurd (pending.unsent_queue.symm.trans done) Bool.false_ne_true
    | true =>
      rw [method, if_pos rfl] at next
      have entered : Recorded (c.enter .clientSend200ok) :=
        answering.toRecorded.enter (by decide) fun wrong => by cases wrong
      have prepared : c.preparing = (c.enter .clientSend200ok).notify200 := by
        rw [HttpProxyConnection.preparing, next]
        exact if_pos rfl
      rw [prepared]
      exact entered.notify (prepare200_notice answering.response) (by decide) sent came
        fun _ _ pending => pending.toNotified

theorem Answering.connectServer (answering : Answering c) (host : Bytes)
    (address : Option ConnectResult) : Answering (c.connectServer host address).2 := by
  cases address with
  | none => exact answering
  | some address =>
    cases address with
    | invalid => exact answering.of_same rfl rfl rfl id rfl
    | failed fd shutdown => exact answering.of_same rfl rfl rfl id rfl
    | opened fd =>
      have told : Answering { c with
          request := c.request.getHostPort.2
          peer := some (host, c.request.getHostPort.1) } :=
        answering.of_same rfl rfl rfl id rfl
      have connected := @Answering.note _ (.connected host c.request.getHostPort.1) told rfl
      exact connected.of_same rfl rfl rfl id rfl

theorem Answering.resolve (answering : Answering c) (host : Bytes) (lookup : Lookup) :
    Answering (c.resolve host lookup) := by
  cases lookup with
  | found address =>
    exact answering_lasting.handleCalled _ _ (answering.connectServer host address)
  | failed => exact answering.of_same rfl rfl rfl id rfl
  | asked => exact answering.of_same rfl rfl rfl id rfl

/-- A request is received of a client that is there. -/
structure Awaited (c : HttpProxyConnection) : Prop extends Answering c where
  state : c.state = .clientRecvRequest
  client : c.mClient.exist = true

theorem Awaited.seekServer (awaited : Awaited c) (host port : Bytes) (lookup : Lookup) :
    Awaited (c.seekServer host port lookup) := by
  rw [HttpProxyConnection.seekServer]
  split_ifs
  · rw [forceCloseServer_eq awaited.client]
    have closed := awaited.toAnswering.onSocket .server NetSocket.tcpClose
    have asking : Answering ({ c.onSocket .server NetSocket.tcpClose with
        response := (c.onSocket .server NetSocket.tcpClose).response.clear
        host := host
        port := port
        resolver := { (c.onSocket .server NetSocket.tcpClose).resolver with
          callback := true } } : HttpProxyConnection) :=
      closed.of_same rfl rfl rfl (fun wrong => by cases wrong) rfl
    refine ⟨asking.resolve host lookup, (resolve_state ..).trans awaited.state, ?_⟩
    exact (congrArg NetSocket.exist (resolve_client ..)).trans awaited.client
  · exact awaited

theorem Awaited.labelHead (awaited : Awaited c) (method : Bytes) :
    Awaited (c.labelHead method) := by
  rw [HttpProxyConnection.labelHead]
  split_ifs
  · exact ⟨awaited.toAnswering.of_same rfl rfl rfl id rfl, awaited.state, awaited.client⟩
  · exact awaited

theorem Awaited.request (awaited : Awaited c) (request : MessageObject) :
    Awaited { c with request := request } :=
  ⟨awaited.toAnswering.of_same rfl rfl rfl id rfl, awaited.state, awaited.client⟩

theorem Awaited.requestHeaders (awaited : Awaited c) {lookup : Nat → Lookup} {k : Nat}
    {messages : List HttpMessage} (called : requestHeaders lookup k messages c = some c') :
    Awaited c' := by
  induction messages generalizing c k with
  | nil =>
    obtain rfl := Option.some.inj called
    exact awaited
  | cons message rest ih =>
    obtain ⟨next, first, called⟩ := Option.bind_eq_some_iff.mp called
    obtain ⟨⟨host, request⟩, _, rfl⟩ := Option.map_eq_some_iff.mp first
    have sought := ((awaited.request request.getHostPort.2).labelHead message.method).seekServer
      host request.getHostPort.1 (lookup k)
    exact ih (sought.request _) called

/-- A request that is not rejected goes on, or its notification is put in. -/
theorem Awaited.requestParsed (awaited : Awaited c) {code : Int} (fine : code ≠ hpParseError)
    {finish : RoundEnd} (parsed : c.requestParsed code = some finish) :
    Answering finish.connection := by
  have lasting := answering_lasting
  have leaving : Leaving c := leaving_of awaited.state rfl (by decide)
  rcases requestParsed_cases parsed with ⟨n, rejected, _⟩ | ⟨n, _, prepared, rfl⟩ | ⟨ret, _, rfl⟩ |
    ⟨ret, _, rfl⟩ | ⟨_, rfl⟩
  · exact absurd rejected fine
  · exact lasting.advance (leaving.of_same rfl rfl)
      (awaited.toAnswering.notify503 (Or.inl awaited.state) prepared)
  · exact awaited.toAnswering
  · exact lasting.quiet (lasting.predict c leaving awaited.toAnswering)
  · exact lasting.advance leaving awaited.toAnswering

/-- A response that bytes came for. -/
theorem Answering.responseParsed (answering : Answering c)
    (here : c.state = .serverRecvResponse) (came : (turn c.log).came ≠ []) (code : Int) :
    Answering (c.responseParsed code).connection := by
  have phase := answering.phase
  rw [here] at phase
  have next : c.predictNextState = c.enter .serverRecvResponseDone := by
    rw [predictNextState, here]
  have goesOn : Answering c.predictNextState := by
    rw [next]
    exact answering.enter (by decide) ⟨phase, came⟩
  rw [HttpProxyConnection.responseParsed]
  split_ifs
  · exact answering_lasting.forceCloseProxy answering
  · exact answering
  · exact answering_lasting.quiet goesOn

/-- Nothing lies behind a message. -/
theorem Answerable.beyond {c₁ : HttpProxyConnection} (answerable : Answerable lib c r)
    (receiving : Receiving c side) (same : Untouched (c.marked side) c₁)
    (there : (c₁.socket side).exist = true) (unfailed : blocked r = true)
      (filled : arrived r ≠ []) :
    beyond lib c₁ side (arrived r) = c₁ := by
  have exists_ : (c.socket side).exist = true := by
    cases side with
    | client => exact same.client.symm.trans there
    | server => exact same.server.symm.trans there
  have message : c₁.messageOf side = (c.marked side).messageOf side := by
    cases side with
    | client => exact same.request
    | server => exact same.response
  rw [HttpProxyConnection.beyond, message]
  exact if_pos (answerable.alone side receiving exists_ unfailed filled)

/-- In a round that meets the condition every action keeps the account of the answers. -/
theorem answering_rules : RoundRules lib (Answerable lib) Answering where
  toLasting := answering_lasting
  begins _ _ answering := answering.of_same rfl rfl rfl id rfl
  tunnelled _ _ answering := answering.of_same rfl rfl rfl id rfl
  prepared _ _ answerable here answering := answering.preparing answerable here
  granted c _ _ here answering := by
    have phase := answering.phase
    rw [here] at phase
    have cleared : Answering c.cleared :=
      answering.of_same rfl rfl rfl (fun wrong => by cases wrong) rfl
    rw [predict_granted (c := c.cleared) here]
    exact cleared.enter (by decide) phase
  responded c _ _ here answering := by
    have phase := answering.phase
    rw [here] at phase
    have cleared : Answering c.cleared :=
      answering.of_same rfl rfl rfl (fun wrong => by cases wrong) rfl
    rw [predict_responded (c := c.cleared) here]
    exact cleared.begin phase.2 rfl fun _ => phase.1
  shaken c _ _ here answering := by
    have phase := answering.phase
    rw [here] at phase
    rw [predict_shaken here]
    exact answering.begin phase.2.2 (answering.unheard phase.2.1) fun _ => phase.1
  refused c _ here answering notified := by
    obtain ⟨n, prepared, rfl⟩ := notify503_cases notified
    exact answering.notify503 (Or.inr here) prepared
  sends _ _ _ answerable sending answering := answering.sends answerable sending
  request c c₁ r finish answerable here same there unfailed answering filled parsed := by
    have accepted := answerable.accepted here (same.client.symm.trans there) unfailed filled
    have kept := @Answerable.beyond c .client lib r c₁ answerable here same there unfailed filled
    rw [kept] at parsed
    generalize arrived r = data at *
    obtain ⟨⟨answer, request⟩, read, rest⟩ := Option.bind_eq_some_iff.mp parsed
    obtain ⟨c₂, called, rest⟩ := Option.bind_eq_some_iff.mp rest
    rw [same.request] at read
    have awaited : Awaited c₁ := ⟨answering, same.state.trans here, there⟩
    exact ((awaited.request request).requestHeaders called).requestParsed
      (accepted answer request read) rest
  response c c₁ r finish answerable here same there unfailed noted answering filled parsed := by
    have kept := @Answerable.beyond c .server lib r c₁ answerable here same there unfailed filled
    rw [kept] at parsed
    have came : (turn c₁.log).came ≠ [] := by
      rw [noted]
      intro nothing
      refine filled ?_
      rw [arrived, (List.append_eq_nil_iff.mp nothing).2]
      rfl
    generalize arrived r = data at *
    obtain ⟨⟨answer, response⟩, read, rest⟩ := Option.bind_eq_some_iff.mp parsed
    obtain rfl := Option.some.inj rest
    have here : c₁.state = .serverRecvResponse := same.state.trans here
    have told {c₂ : HttpProxyConnection} (answering : Answering c₂)
        (came : (turn c₂.log).came ≠ []) : Answering { c₂ with response := response } :=
      ⟨⟨fun _ => came, answering.response, answering.accepted, answering.alone, answering.each⟩,
        answering.phase⟩
    have noted := @Answering.note _
      (.responded c₁.request.message c₁.response.parser.nobody) answering rfl
    split_ifs
    · exact (told noted came).responseParsed here came answer.code
    · exact (told answering came).responseParsed here came answer.code

theorem start_answering (id : IDType) (garbage : Nat → Byte) (status fd : Nat) :
    Answering (start id garbage status fd) := by
  have none_ : EachAnswered [] := by
    refine ⟨fun _ older => ?_, fun _ older => ?_⟩
    · cases List.suffix_nil.mp older
    · cases List.suffix_nil.mp older
  have each : EachAnswered [.handedOut] :=
    none_.cons (fun wrong => by cases wrong) fun wrong => by cases wrong
  refine ⟨⟨fun complete => ?_, rfl, fun _ wrong => ?_, rfl, each⟩, ⟨rfl, rfl, rfl, rfl⟩⟩
  · cases complete
  · cases wrong

end

/-- When no request is rejected, and a complete one has a server or a notification, every request
has one response. -/
theorem answered_of_answerable {lib : ParserLib} {id : IDType} {garbage : Nat → Byte}
    {status fd : Nat} {c : HttpProxyConnection} (run : Reaches (step lib)
      (Guarded lib (Answerable lib) fun _ _ => True) (start id garbage status fd) c) :
    AnsweredOnce c := by
  have answering : Answering c := by
    refine answering_rules.run (fun c address host _ _ answering => ?_) (start_answering ..) run
    exact (answering_lasting.answered c answering).connectServer host address
  exact ⟨answering.each, fun n notice rejected => absurd rejected (answering.accepted n notice)⟩

/-- The notification of a rejected request waits for more of the request. -/
def rejecting (c : HttpProxyConnection) : Bool :=
  c.state == .clientRecvRequest &&
    match (turn c.log).notice with
    | some n => n.statuscode == 403
    | none => false

theorem AnsweredOnce.not_rejecting {c : HttpProxyConnection} (answered : AnsweredOnce c) :
    rejecting c = false := by
  by_contra wrong
  rw [Bool.not_eq_false, rejecting.eq_def] at wrong
  obtain ⟨here, rejected⟩ := Bool.and_eq_true_iff.mp wrong
  have here := beq_iff_eq.mp here
  split at rejected
  · rename_i n notice
    rcases answered.rejected n notice (beq_iff_eq.mp rejected) with sending | ⟨done, _⟩
    · cases here.symm.trans sending
    · cases here.symm.trans done
  · cases rejected

def refusing : ParserLib := fun _ _ => ⟨[], 0⟩

/-- A `GET` and its response, and the wait for the next request. -/
def answeredRun : ProxyEvent :=
  .called .client .readable
    [calm, asking getRequest, calm, calm, calm, arriving okResponse, calm, calm, calm, calm]

def againRun : ProxyEvent :=
  .called .client .readable [arriving getRequest, calm, calm, calm, calm]

def unservedRun : ProxyEvent :=
  .called .client .readable
    [calm, { arriving getRequest with lookup := fun _ => .failed }, calm, calm, calm, calm, calm]

/-- Two requests that come in one read, one response, and the wait for the next request. -/
def crowdedRun : ProxyEvent :=
  .called .client .readable
    [calm, asking (getRequest ++ getRequest), calm, calm, calm, arriving okResponse, calm, calm,
     calm, calm]

def answerable (lib : ParserLib) (c : HttpProxyConnection) (r : Round) : Bool :=
  match c.state with
  | .clientRecvRequest =>
    surplus lib c.tunnelled.request (arrived r) == 0 &&
      match c.tunnelled.request.parse lib (arrived r) r.results with
      | some (answer, _) => answer.code != hpParseError
      | none => true
  | .serverRecvResponse => surplus lib (c.marked .server).response (arrived r) == 0
  | .clientRecvRequestDone => c.downstream.isSendDone
  | .clientSend200ok =>
    !c.downstream.isSendDone && (!c.downstream.msgptr || promised c.notification == 0)
  | .clientSendResponse =>
    !c.downstream.isSendDone && (!c.downstream.msgptr || promised c.notification == 0)
  | _ => true

/-- The check is enough for the condition. -/
theorem Answerable.of_answerable {lib : ParserLib} {c : HttpProxyConnection} {r : Round}
    (met : answerable lib c r = true) : Answerable lib c r := by
  refine ⟨fun here _ _ _ answer request parsed => ?_, fun side here _ _ _ => ?_,
    fun here _ _ => ?_, fun sending => ?_, fun sending attached => ?_⟩
  · rw [answerable, here] at met
    have accepted := (Bool.and_eq_true_iff.mp met).2
    rw [parsed] at accepted
    exact bne_iff_ne.mp accepted
  · cases side with
    | client =>
      rw [answerable, here] at met
      exact beq_iff_eq.mp (Bool.and_eq_true_iff.mp met).1
    | server =>
      rw [answerable, here] at met
      exact beq_iff_eq.mp met
  · rw [answerable, here] at met
    exact met
  · rcases sending with here | here <;> rw [answerable, here] at met
    · exact (Bool.not_eq_true' _).mp (Bool.and_eq_true_iff.mp met).1
    · exact (Bool.not_eq_true' _).mp (Bool.and_eq_true_iff.mp met).1
  · rcases sending with here | here <;> rw [answerable, here, attached] at met
    · exact beq_iff_eq.mp (Bool.and_eq_true_iff.mp met).2
    · exact beq_iff_eq.mp (Bool.and_eq_true_iff.mp met).2

/-- A request, its connection and its response, and the next request. -/
theorem answered_of_answerable_get :
    ∃ c, (start 1 (fun _ => 0) 0 5).step exchanges plainRun = some c ∧ AnsweredOnce c := by
  obtain ⟨c, steps⟩ : ∃ c, (start 1 (fun _ => 0) 0 5).step exchanges plainRun = some c :=
    ⟨_, rfl⟩
  have guarded : Guarded exchanges (Answerable exchanges) (fun _ _ => True)
      (start 1 (fun _ => 0) 0 5) plainRun := by
    intro channel handler there bound _
    exact EveryRound.of_everyRound (fun _ _ => Answerable.of_answerable) rfl
  exact ⟨c, steps, answered_of_answerable (Reaches.start.next guarded steps)⟩

def passedWithout : List ProxyAction → Bool
  | .entered .clientSendResponseDone :: earlier => (turn earlier).sent == []
  | _ => false

theorem EachAnswered.not_passedWithout {log earlier : List ProxyAction} (each : EachAnswered log)
    (older : earlier <:+ log) : passedWithout earlier = false := by
  cases earlier with
  | nil => rfl
  | cons action earlier =>
    cases action with
    | entered state =>
      cases state with
      | clientSendResponseDone => exact beq_eq_false_iff_ne.mpr (each.passed _ older)
      | _ => rfl
    | _ => rfl

/-- The notification promises more than the client was sent. -/
def Turn.short (t : Turn) : Bool :=
  match t.notice with
  | some n => t.sent.length < n.getHeader.length + promised n
  | none => false

/-- A request is over with several messages, or with a part of a notification. -/
def spoiled : List ProxyAction → Bool
  | .entered .clientRecvRequest :: earlier =>
    (turn earlier).begun && ((turn earlier).crowded || (turn earlier).short)
  | _ => false

theorem EachAnswered.not_spoiled {log earlier : List ProxyAction} (each : EachAnswered log)
    (older : earlier <:+ log) : spoiled earlier = false := by
  by_contra wrong
  rw [Bool.not_eq_false, spoiled.eq_def] at wrong
  split at wrong
  · rename_i earlier
    obtain ⟨begun, wrong⟩ := Bool.and_eq_true_iff.mp wrong
    have one := each.once _ older begun
    rw [one.alone, Bool.false_or, Turn.short.eq_def] at wrong
    split at wrong
    · rename_i n notice
      exact not_whole_of_short (of_decide_eq_true wrong) (one.noticed n notice).1
    · cases wrong
  · cases wrong

/-- What is no request is rejected, and its notification is not sent. The second of two requests
has no server when the server has closed, and its response is done without a byte. A notification
that the host is not found is sent without the body that it promises. Of two requests that come
together the first response is the only one. -/
theorem not_answeredOnce :
    (∃ c, Reaches (step refusing) (fun _ _ => True) (start 1 (fun _ => 0) 0 5) c ∧
      rejecting c = true ∧ ¬ AnsweredOnce c) ∧
    (∃ c, Reaches (step exchanges) (fun _ _ => True) (start 1 (fun _ => 0) 0 5) c ∧
      passedWithout (c.log.drop 2) = true ∧ ¬ AnsweredOnce c) ∧
    (∃ c, (start 1 (fun _ => 0) 0 5).step exchanges unservedRun = some c ∧
      (turn (c.log.drop 2)).short = true ∧ ¬ AnsweredOnce c) ∧
    ∃ c, (start 1 (fun _ => 0) 0 5).step exchanges crowdedRun = some c ∧
      (turn (c.log.drop 2)).crowded = true ∧ ¬ AnsweredOnce c := by
  refine ⟨?_, ?_, ?_, ?_⟩
  · have rejects : ((follow (step refusing) (fun _ _ => True) (start 1 (fun _ => 0) 0 5)
        [.called .client .readable [calm, arriving (literal "?"), calm]]).map rejecting) =
          some true := by decide +kernel
    obtain ⟨c, followed, wrong⟩ := Option.map_eq_some_iff.mp rejects
    refine ⟨c, reaches_of_follow followed, wrong, fun answered => ?_⟩
    rw [answered.not_rejecting] at wrong
    cases wrong
  · have passes : ((follow (step exchanges) (fun _ _ => True) (start 1 (fun _ => 0) 0 5)
        [answeredRun, .called .server .rdhup [], againRun]).map fun c =>
          passedWithout (c.log.drop 2)) = some true := rfl
    obtain ⟨c, followed, passed⟩ := Option.map_eq_some_iff.mp passes
    refine ⟨c, reaches_of_follow followed, passed, fun answered => ?_⟩
    rw [answered.toEachAnswered.not_passedWithout (List.drop_suffix 2 c.log)] at passed
    cases passed
  · have shortened : ((start 1 (fun _ => 0) 0 5).step exchanges unservedRun).map (fun c =>
        (spoiled (c.log.drop 1), (turn (c.log.drop 2)).short)) = some (true, true) := by
      decide +kernel
    obtain ⟨c, steps, reached⟩ := Option.map_eq_some_iff.mp shortened
    obtain ⟨wrong, short⟩ := Prod.mk.inj reached
    refine ⟨c, steps, short, fun answered => ?_⟩
    rw [answered.toEachAnswered.not_spoiled (List.drop_suffix 1 c.log)] at wrong
    cases wrong
  · have crowds : ((start 1 (fun _ => 0) 0 5).step exchanges crowdedRun).map (fun c =>
        (spoiled (c.log.drop 1), (turn (c.log.drop 2)).crowded)) = some (true, true) := rfl
    obtain ⟨c, steps, reached⟩ := Option.map_eq_some_iff.mp crowds
    obtain ⟨wrong, crowded⟩ := Prod.mk.inj reached
    refine ⟨c, steps, crowded, fun answered => ?_⟩
    rw [answered.toEachAnswered.not_spoiled (List.drop_suffix 1 c.log)] at wrong
    cases wrong

end HttpProxyConnection
