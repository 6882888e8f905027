import Tigerso.ProxyRuns

/-!
# http/HttpProxyConnection: the requests as the server gets them

The client's in-buffer is the server's out-buffer. A request leaves it when it is sent to a
server, and only then.
-/

open SystemCalls

namespace HttpProxyConnection
open HttpMessage HttpHelper GuardedRuns

/-- What was received for a request, up to the end of its message, and what the server was sent
meanwhile. -/
structure Exchange where
  came : Bytes
  sent : Bytes

def Exchange.note (e : Exchange) : ProxyAction → Exchange
  | .entered .clientRecvRequest => ⟨[], []⟩
  | .recycled => ⟨[], []⟩
  | .received .client data => { e with came := e.came ++ data }
  | .behind .client surplus => { e with came := e.came.take (e.came.length - surplus) }
  | .forwarded data _ _ => { e with sent := e.sent ++ data }
  | _ => e

/-- What was exchanged since a request was waited for. -/
def exchanged : List ProxyAction → Exchange
  | [] => ⟨[], []⟩
  | action :: earlier => (exchanged earlier).note action

/-- The server was sent a front of what came for this request, and all of it once the request
counts as sent. -/
def Faithful (log : List ProxyAction) : Prop :=
  (exchanged log).sent <+: (exchanged log).came ∧
    (log.head? = some (.entered .serverSendRequestDone) →
      (exchanged log).sent = (exchanged log).came)

/-- It was so at every moment. -/
def Intact (c : HttpProxyConnection) : Prop := ∀ log, log <:+ c.log → Faithful log

/-- Nothing is left of a request when the next one is waited for, and no read of a request brings
bytes that lie behind it. -/
structure Emptied (lib : ParserLib) (c : HttpProxyConnection) (r : Round) : Prop where
  left : c.state = .clientSendResponseDone ∨ c.state = .clientHandshakeDone →
    c.upstream.readable = []
  alone : c.state = .clientRecvRequest → c.mClient.exist = true → blocked r = true →
    arrived r ≠ [] → surplus lib c.tunnelled.request (arrived r) = 0

/-- What came for this request is what was sent and what is left. -/
structure Relayed (c : HttpProxyConnection) : Prop where
  whole : (exchanged c.log).came = (exchanged c.log).sent ++ c.upstream.readable
  detached : c.upstream.msgptr = false
  fresh : c.state = .proxyInit → c.upstream.readable = []
  intact : Intact c

def fromClient : ProxyAction → Bytes
  | .received .client data => data
  | _ => []

/-- The bytes that an action adds to what was sent. -/
def toServer : ProxyAction → Bytes
  | .forwarded data _ _ => data
  | _ => []

/-- An action behind which the request is the same one, whole. -/
def goesOn : ProxyAction → Bool
  | .entered .clientRecvRequest => false
  | .recycled => false
  | .behind .client _ => false
  | _ => true

/-- An action that neither begins nor ends a request, nor has bytes of one. -/
def silent : ProxyAction → Bool
  | .received .client _ => false
  | .behind .client _ => false
  | .forwarded _ _ _ => false
  | .recycled => false
  | .entered .clientRecvRequest => false
  | .entered .serverSendRequestDone => false
  | _ => true

section
variable {c c' : HttpProxyConnection} {side : Side} {lib : ParserLib} {action : ProxyAction}
  {log : List ProxyAction}

/-- An action inside of a request adds to what came or to what was sent. -/
theorem exchanged_goesOn (on : goesOn action = true) : exchanged (action :: log) =
    ⟨(exchanged log).came ++ fromClient action, (exchanged log).sent ++ toServer action⟩ := by
  have same : (exchanged log) =
      ⟨(exchanged log).came ++ [], (exchanged log).sent ++ []⟩ := by
    rw [List.append_nil, List.append_nil]
  cases action with
  | entered state =>
    cases state with
    | clientRecvRequest => cases on
    | _ => exact same
  | recycled => cases on
  | received side data =>
    cases side with
    | client => simp [exchanged, Exchange.note, fromClient, toServer]
    | server => exact same
  | behind side surplus =>
    cases side with
    | client => cases on
    | server => exact same
  | forwarded data request peer => simp [exchanged, Exchange.note, fromClient, toServer]
  | _ => exact same

theorem faithful_of_begins (begins : exchanged (action :: log) = ⟨[], []⟩) :
    Faithful (action :: log) := by
  rw [Faithful, begins]
  exact ⟨List.prefix_rfl, fun _ => rfl⟩

/-- What is left of a request is all that the server still gets. -/
theorem faithful_of_whole {left : Bytes}
    (whole : (exchanged log).came = (exchanged log).sent ++ left)
    (sent : log.head? = some (.entered .serverSendRequestDone) → left = []) :
    Faithful log := by
  refine ⟨⟨left, whole.symm⟩, fun done => ?_⟩
  rw [whole, sent done, List.append_nil]

theorem Intact.cons (intact : Intact c) (faithful : Faithful (action :: c.log))
    (same : c'.log = action :: c.log) : Intact c' := by
  intro log older
  rw [same] at older
  rcases List.suffix_cons_iff.mp older with rfl | earlier
  · exact faithful
  · exact intact log earlier

theorem Relayed.of_same (relayed : Relayed c) (log : c'.log = c.log)
    (upstream : c'.upstream = c.upstream) (state : c'.state = c.state) : Relayed c' := by
  refine ⟨?_, ?_, ?_, ?_⟩
  · rw [log, upstream]
    exact relayed.whole
  · rw [upstream]
    exact relayed.detached
  · rw [upstream, state]
    exact relayed.fresh
  · rw [Intact, log]
    exact relayed.intact

theorem Relayed.onSocket (relayed : Relayed c) (side : Side)
    (change : NetSocket ProxyHandler → NetSocket ProxyHandler) :
    Relayed (c.onSocket side change) := by
  cases side with
  | client => exact relayed.of_same rfl rfl rfl
  | server => exact relayed.of_same rfl rfl rfl

/-- An action whose bytes go from what is left to what was sent, or come behind what is left. -/
theorem Relayed.noted (relayed : Relayed c) (on : goesOn action = true)
    (log : c'.log = action :: c.log)
    (moved : c.upstream.readable ++ fromClient action = toServer action ++ c'.upstream.readable)
    (detached : c'.upstream.msgptr = false)
    (done : action = .entered .serverSendRequestDone → c'.upstream.readable = [])
    (fresh : c'.state = .proxyInit → c'.upstream.readable = []) : Relayed c' := by
  have whole : (exchanged c'.log).came = (exchanged c'.log).sent ++ c'.upstream.readable := by
    rw [log, exchanged_goesOn on, relayed.whole, List.append_assoc, moved, List.append_assoc]
  refine ⟨whole, detached, fresh, relayed.intact.cons ?_ log⟩
  rw [← log]
  refine faithful_of_whole whole fun last => done ?_
  rw [log] at last
  exact Option.some.inj last

/-- What is no part of an exchange changes nothing of it. -/
theorem Relayed.quietly (relayed : Relayed c) (quiet : silent action = true)
    (log : c'.log = action :: c.log) (upstream : c'.upstream = c.upstream)
    (state : c'.state = .proxyInit → c.state = .proxyInit) : Relayed c' := by
  have nothing : goesOn action = true ∧ fromClient action = [] ∧ toServer action = [] ∧
      action ≠ .entered .serverSendRequestDone := by
    cases action with
    | entered state =>
      cases state with
      | clientRecvRequest => cases quiet
      | serverSendRequestDone => cases quiet
      | _ => exact ⟨rfl, rfl, rfl, nofun⟩
    | received side data =>
      cases side with
      | client => cases quiet
      | server => exact ⟨rfl, rfl, rfl, nofun⟩
    | behind side surplus =>
      cases side with
      | client => cases quiet
      | server => exact ⟨rfl, rfl, rfl, nofun⟩
    | forwarded data request peer => cases quiet
    | recycled => cases quiet
    | _ => exact ⟨rfl, rfl, rfl, nofun⟩
  obtain ⟨on, came, went, other⟩ := nothing
  refine relayed.noted on log ?_ ?_ (fun done => absurd done other) ?_
  · rw [came, went, upstream, List.append_nil, List.nil_append]
  · rw [upstream]
    exact relayed.detached
  · rw [upstream]
    exact fun first => relayed.fresh (state first)

theorem Relayed.enter (relayed : Relayed c) {state : HttpProxyState}
    (quiet : silent (.entered state) = true) (later : state ≠ .proxyInit) :
    Relayed (c.enter state) :=
  relayed.quietly quiet rfl rfl fun first => absurd first later

/-- A request is waited for with nothing left of an earlier one. -/
theorem Relayed.begin (relayed : Relayed c) (empty : c.upstream.readable = []) :
    Relayed (c.enter .clientRecvRequest) := by
  refine ⟨?_, relayed.detached, nofun, relayed.intact.cons (faithful_of_begins rfl) rfl⟩
  exact empty.symm

theorem Relayed.sentAll (relayed : Relayed c) (sent : c.upstream.isSendDone = true) :
    Relayed (c.enter .serverSendRequestDone) := by
  have empty : c.upstream.readable = [] := by
    rw [BufferQueue.isSendDone, relayed.detached] at sent
    simpa using sent
  refine relayed.noted rfl rfl ?_ relayed.detached (fun _ => empty) nofun
  exact List.append_nil _

/-- The step to the next state is no part of it. -/
theorem Relayed.predict (relayed : Relayed c) (busy : Busy c) : Relayed c.predictNextState := by
  have state (state : HttpProxyState) (here : c.state = state) : routine state = true :=
    (congrArg routine here).symm.trans busy
  rw [predictNextState]
  cases here : c.state with
  | proxyInit =>
    have begun := relayed.begin (relayed.fresh here)
    exact begun.of_same rfl rfl rfl
  | clientRecvRequest =>
    dsimp only
    split_ifs
    · exact relayed.enter rfl (by decide)
    · exact relayed
  | serverSendRequestDone => exact relayed.enter rfl (by decide)
  | serverRecvResponse => exact relayed.enter rfl (by decide)
  | serverRecvResponseDone => exact relayed.enter rfl (by decide)
  | serverHandshake => exact relayed.enter rfl (by decide)
  | serverHandshakeDone => exact relayed.enter rfl (by decide)
  | clientHandshake => exact relayed.enter rfl (by decide)
  | _ => cases state _ here

theorem Relayed.recvNIO (relayed : Relayed c) (receiving : Receiving c side) (read : SocketRead) :
    Relayed ( c.recvNIO side read).2 := by
  have filled : Relayed ((c.withInBuffer side ((c.inBuffer side).addData read.data)).note
      (.received side read.data)) := by
    cases side with
    | client =>
      refine relayed.noted rfl rfl rfl relayed.detached nofun fun first => ?_
      exact nomatch receiving.symm.trans first
    | server => exact relayed.quietly rfl rfl rfl id
  rw [ HttpProxyConnection.recvNIO]
  split_ifs
  · exact relayed
  · cases read.ending with
    | blocked waits => exact filled.onSocket side fun sock => afterSSL sock (some waits)
    | failed kept => exact filled.onSocket side fun sock => afterSSL sock kept

theorem sendToSocket_detached {q : BufferQueue} (detached : q.msgptr = false) (taken : Nat)
    (body : Int) : (q.sendToSocket taken body).2.1 ++ (q.sendToSocket taken body).2.2.readable =
      q.readable ∧ (q.sendToSocket taken body).2.2.msgptr = false := by
  have whole := List.take_append_drop taken q.readable
  rw [BufferQueue.sendToSocket]
  dsimp only
  rw [if_neg (Bool.eq_false_iff.mp detached)]
  split_ifs with all
  · rw [all] at whole
    exact ⟨whole, rfl⟩
  · exact ⟨whole, detached⟩

/-- What the server is sent is the front of what came for it. -/
theorem Relayed.sendNIO (relayed : Relayed c) (sending : Sending c side) (sent : SocketSend) :
    Relayed ( c.sendNIO side sent).2 := by
  rw [ HttpProxyConnection.sendNIO]
  split_ifs
  · exact relayed
  · cases side with
    | client =>
      have answered : Relayed ((c.withOutBuffer .client
          (c.downstream.sendToSocket sent.taken (c.sentBody sent)).2.2).note
            (.answered (c.downstream.sendToSocket sent.taken (c.sentBody sent)).2.1
              c.downstream.msgptr)) := relayed.quietly rfl rfl rfl id
      exact answered.onSocket .client fun sock => afterSSL sock sent.ssl
    | server =>
      obtain ⟨moved, detached⟩ := sendToSocket_detached relayed.detached sent.taken
        (c.sentBody sent)
      have forwarded : Relayed ((c.withOutBuffer .server
          (c.upstream.sendToSocket sent.taken (c.sentBody sent)).2.2).note
            (.forwarded (c.upstream.sendToSocket sent.taken (c.sentBody sent)).2.1 c.request
              c.peer)) := by
        refine relayed.noted rfl rfl ?_ detached (fun wrong => by cases wrong) fun first => ?_
        · exact (List.append_nil _).trans moved.symm
        · cases sending.symm.trans first
      exact forwarded.onSocket .server fun sock => afterSSL sock sent.ssl

/-- The steps that have nothing to do with a request keep the relation. -/
theorem relayed_stable : Stable Relayed where
  socket _ _ _ _ _ relayed := relayed.onSocket _ _
  respond _ _ relayed := relayed.enter rfl (by decide)
  recycle c relayed := by
    refine ⟨rfl, rfl, fun _ => rfl, relayed.intact.cons (faithful_of_begins rfl) rfl⟩
  predict _ busy relayed := relayed.predict busy
  sentAll c side sending all relayed := by
    cases side with
    | client =>
      rcases sending with state | state
      · rw [predictNextState, state]
        exact relayed.enter rfl (by decide)
      · rw [predictNextState, state]
        exact relayed.enter rfl (by decide)
    | server =>
      rw [predictNextState, sending]
      exact relayed.sentAll all
  recvNIO _ _ read receiving relayed := relayed.recvNIO receiving read
  sendNIO _ _ sent sending relayed := relayed.sendNIO sending sent
  notify _ _ _ relayed := relayed.quietly rfl rfl rfl id
  handleCalled _ _ relayed := relayed.of_same rfl rfl rfl
  answered _ relayed := relayed.of_same rfl rfl rfl
  queue _ _ relayed := relayed.of_same rfl rfl rfl
  handedOut _ relayed := relayed.quietly rfl rfl rfl id
  accept _ _ relayed := relayed.onSocket _ _

theorem relayed_aloof : Aloof Relayed where
  told _ _ _ _ _ _ _ relayed := relayed.of_same rfl rfl rfl
  server _ _ _ relayed := relayed.onSocket _ _
  connected _ _ _ relayed := relayed.quietly rfl rfl rfl id
  responded _ _ _ relayed := relayed.quietly rfl rfl rfl id

/-- Bytes behind a response are no bytes of a request. -/
theorem Relayed.beyond {r : Round} {c₁ : HttpProxyConnection} (relayed : Relayed c₁)
    (emptied : Emptied lib c r) (receiving : Receiving c side)
    (same : Untouched (c.marked side) c₁) (there : (c₁.socket side).exist = true)
    (unfailed : blocked r = true) (filled : arrived r ≠ []) :
    Relayed (beyond lib c₁ side (arrived r)) := by
  cases side with
  | client =>
    have none_ : surplus lib (c₁.messageOf .client) (arrived r) = 0 := by
      rw [messageOf, same.request]
      exact emptied.alone receiving (same.client.symm.trans there) unfailed filled
    rw [HttpProxyConnection.beyond, if_pos none_]
    exact relayed
  | server => exact beyond_keeps (fun _ => relayed.quietly rfl rfl rfl id) relayed

theorem relayed_rounds : Rounds lib (Emptied lib) Relayed := by
  refine relayed_aloof.rounds relayed_stable ?_ ?_ ?_ ?_ ?_
  · exact fun c c₁ r side emptied receiving same there unfailed relayed filled =>
      relayed.beyond emptied receiving same there unfailed filled
  · intro c r _ state relayed
    rw [predictNextState, state]
    dsimp only
    split_ifs
    · exact relayed.enter rfl (by decide)
    · exact relayed.enter rfl (by decide)
    · exact relayed.enter rfl (by decide)
  · exact fun c r _ _ relayed => relayed.enter rfl (by decide)
  · exact fun c r emptied state relayed => relayed.begin (emptied.left (Or.inl state))
  · exact fun c r emptied state relayed => relayed.begin (emptied.left (Or.inr state))

end

/-- When nothing is left of a request as the next one is waited for, and every request comes
alone, the server gets every request as it came. -/
theorem intact_of_emptied {lib : ParserLib} {id : IDType} {garbage : Nat → Byte} {status fd : Nat}
    {c : HttpProxyConnection} (run : Reaches (step lib)
      (Guarded lib (Emptied lib) fun _ _ => True) (start id garbage status fd) c) : Intact c := by
  have relayed : Relayed c := by
    refine relayed_rounds.rules.run (fun c address host _ _ relayed => ?_) ?_ run
    · exact relayed_aloof.connectServer (relayed_stable.answered c relayed) host address
    · refine ⟨rfl, rfl, fun _ => rfl, fun log older => ?_⟩
      rcases List.suffix_cons_iff.mp older with rfl | earlier
      · exact faithful_of_whole rfl fun _ => rfl
      · rw [List.suffix_nil.mp earlier]
        exact faithful_of_whole rfl fun _ => rfl
  exact relayed.intact

def connectRequest : Bytes := literal "CONNECT a:443 HTTP/1.1\r\n\r\n"

def getRequest : Bytes := literal "GET / HTTP/1.1\r\nHost: a\r\n\r\n"

def okResponse : Bytes := literal "HTTP/1.1 200 OK\r\nContent-Length: 0\r\n\r\n"

/-- What is reported of a `CONNECT`. -/
def connectReported : List Callback :=
  [.onMessageBegin, .onUrl (literal "a:443"),
   .onHeadersComplete ⟨literal "CONNECT", 0, 1, 1, false⟩, .onMessageComplete]

/-- What is reported of a `GET`. -/
def getReported : List Callback :=
  [.onMessageBegin, .onUrl (literal "/"), .onHeaderField (literal "Host"),
   .onHeaderValue (literal "a"), .onHeadersComplete ⟨literal "GET", 0, 1, 1, false⟩,
   .onMessageComplete]

def okReported : List Callback :=
  [.onMessageBegin, .onStatus (literal "OK"), .onHeaderField (literal "Content-Length"),
   .onHeaderValue (literal "0"), .onHeadersComplete ⟨[], 200, 1, 1, false⟩,
   .onMessageComplete]

/-- What the parser makes of the requests and the response, and of two requests that come
together. -/
def exchanges : ParserLib := recorded
  [(connectRequest, connectReported), (getRequest, getReported), (okResponse, okReported),
   (getRequest ++ getRequest, getReported ++ getReported)]

def asking (request : Bytes) : Round :=
  { arriving request with lookup := fun _ => .found (some (.opened 7)) }

/-- A `GET` and its response, and the same again. -/
def plainRun : ProxyEvent :=
  .called .client .readable
    [calm, asking getRequest, calm, calm, calm, arriving okResponse, calm, calm, calm,
     arriving getRequest, calm, calm, calm, arriving okResponse, calm, calm, calm, calm]

/-- A `CONNECT` and its handshakes, and a `GET` in the tunnel. -/
def tunnelRun : ProxyEvent :=
  .called .client .readable
    [calm, asking connectRequest, calm, calm, calm, calm, calm, calm, calm, arriving getRequest,
     calm, calm, calm, calm]

def pipelinedRun : ProxyEvent :=
  .called .client .readable [calm, asking (getRequest ++ getRequest), calm, calm, calm, calm]

def emptied (lib : ParserLib) (c : HttpProxyConnection) (r : Round) : Bool :=
  match c.state with
  | .clientSendResponseDone => c.upstream.readable == []
  | .clientHandshakeDone => c.upstream.readable == []
  | .clientRecvRequest => surplus lib c.tunnelled.request (arrived r) == 0
  | _ => true

theorem Emptied.of_emptied {lib : ParserLib} {c : HttpProxyConnection} {r : Round}
    (met : emptied lib c r = true) : Emptied lib c r := by
  refine ⟨fun ends => ?_, fun here _ _ _ => ?_⟩
  · rcases ends with state | state
    · rw [emptied, state] at met
      exact beq_iff_eq.mp met
    · rw [emptied, state] at met
      exact beq_iff_eq.mp met
  · rw [emptied, here] at met
    exact beq_iff_eq.mp met

/-- A request whose bytes all reach the server. -/
theorem intact_of_emptied_get :
    ∃ c, (start 1 (fun _ => 0) 0 5).step exchanges plainRun = some c ∧ Intact c := by
  obtain ⟨c, steps⟩ : ∃ c, (start 1 (fun _ => 0) 0 5).step exchanges plainRun = some c :=
    ⟨_, rfl⟩
  have guarded : Guarded exchanges (Emptied exchanges) (fun _ _ => True)
      (start 1 (fun _ => 0) 0 5) plainRun := by
    intro channel handler there bound _
    exact EveryRound.of_everyRound (fun _ _ => Emptied.of_emptied) rfl
  exact ⟨c, steps, intact_of_emptied (Reaches.start.next guarded steps)⟩

/-- Whether the server was sent what did not come for the request. -/
def unfaithful (c : HttpProxyConnection) : Bool :=
  !(exchanged c.log).sent.isPrefixOf (exchanged c.log).came

theorem not_intact_of_unfaithful {c : HttpProxyConnection} (wrong : unfaithful c = true) :
    ¬ Intact c := by
  intro intact
  have faithful := intact c.log List.suffix_rfl
  rw [unfaithful, List.isPrefixOf_iff_prefix.mpr faithful.1] at wrong
  cases wrong

/-- In the tunnel the server gets the `CONNECT` before the `GET`; and of two requests that come
together it gets the second one with the first. -/
theorem not_intact :
    (∃ c, Reaches (step exchanges) (fun _ _ => True) (start 1 (fun _ => 0) 0 5) c ∧
      ¬ Intact c) ∧
    ∃ c, (start 1 (fun _ => 0) 0 5).step exchanges pipelinedRun = some c ∧ ¬ Intact c := by
  constructor
  · have run : ((follow (step exchanges) (fun _ _ => True) (start 1 (fun _ => 0) 0 5)
        [tunnelRun]).map unfaithful) = some true := rfl
    obtain ⟨c, followed, wrong⟩ := Option.map_eq_some_iff.mp run
    exact ⟨c, reaches_of_follow followed, not_intact_of_unfaithful wrong⟩
  · have run : ((start 1 (fun _ => 0) 0 5).step exchanges pipelinedRun).map unfaithful =
        some true := rfl
    obtain ⟨c, steps, wrong⟩ := Option.map_eq_some_iff.mp run
    exact ⟨c, steps, not_intact_of_unfaithful wrong⟩

end HttpProxyConnection
