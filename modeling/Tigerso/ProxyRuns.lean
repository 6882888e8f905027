import Tigerso.ProxyRounds

/-!
# http/HttpProxyConnection: what runs keep

A condition on every round of a run, and what has to be shown of a property for it to be true of
every state that is reached under the condition.
-/

open SystemCalls

namespace HttpProxyConnection
open HttpMessage HttpHelper GuardedRuns

/-- Every round of a loop meets the condition in the state that it finds. -/
def EveryRound (lib : ParserLib) (cond : HttpProxyConnection → Round → Prop) :
    List Round → HttpProxyConnection → Prop
  | [], _ => True
  | r :: rest, c =>
    cond c r ∧ ∀ c', c.round lib r = some (.looping c') → EveryRound lib cond rest c'

/-- Whether a handler is `RWEventHandle`. -/
def loops : ProxyHandler → Bool
  | .readHandle => true
  | .writeHandle => true
  | _ => false

/-- Every round that an event leads to meets `cond`, and an answer to a query meets `late`. -/
def Guarded (lib : ParserLib) (cond : HttpProxyConnection → Round → Prop)
    (late : HttpProxyConnection → Option ConnectResult → Prop) (c : HttpProxyConnection) :
    ProxyEvent → Prop
  | .called side kind rounds => ∀ channel handler, (c.socket side).channelptr = some channel →
      channel.callback kind = some handler → loops handler = true → EveryRound lib cond rounds c
  | .recalled k kind rounds => ∀ side channel handler, c.forgotten[k]? = some (side, channel) →
      channel.callback kind = some handler → loops handler = true → EveryRound lib cond rounds c
  | .resolved address rounds => late c address ∧ ∀ host, c.resolver.query = some host →
      EveryRound lib cond rounds
        ({ c with resolver := { c.resolver with query := none } }.connectServer host address).2
  | _ => True

/-- What every round keeps the loop keeps. -/
theorem EveryRound.keeps {lib : ParserLib} {cond : HttpProxyConnection → Round → Prop}
    (Inv : HttpProxyConnection → Prop)
    (keeps : ∀ c r finish, Inv c → cond c r → c.round lib r = some finish → Inv finish.connection)
    {rounds : List Round} {c c' : HttpProxyConnection} {ret : Int}
    (every : EveryRound lib cond rounds c) (inv : Inv c)
    (done : rwEventHandle lib rounds c = some (ret, c')) : Inv c' := by
  induction rounds generalizing c with
  | nil => cases done
  | cons r rest ih =>
    rw [rwEventHandle] at done
    cases ran : c.round lib r with
    | none =>
      rw [ran] at done
      cases done
    | some finish =>
      rw [ran] at done
      have kept := keeps c r finish inv every.1 ran
      cases finish with
      | returned ret c =>
        obtain ⟨rfl, rfl⟩ := Prod.mk.inj (Option.some.inj done)
        exact kept
      | looping c => exact ih (every.2 c ran) kept done

def everyRound (lib : ParserLib) (met : HttpProxyConnection → Round → Bool) :
    List Round → HttpProxyConnection → Bool
  | [], _ => true
  | r :: rest, c =>
    met c r && match c.round lib r with
      | some (.looping c) => everyRound lib met rest c
      | _ => true

theorem EveryRound.of_everyRound {lib : ParserLib} {cond : HttpProxyConnection → Round → Prop}
    {met : HttpProxyConnection → Round → Bool} (sound : ∀ c r, met c r = true → cond c r)
    {rounds : List Round} {c : HttpProxyConnection} (all : everyRound lib met rounds c = true) :
    EveryRound lib cond rounds c := by
  induction rounds generalizing c with
  | nil => trivial
  | cons r rest ih =>
    obtain ⟨first, later⟩ := Bool.and_eq_true_iff.mp all
    refine ⟨sound c r first, fun c' ran => ih ?_⟩
    rw [ran] at later
    exact later

/-- A condition that every round meets. -/
theorem EveryRound.of_all {lib : ParserLib} {cond : HttpProxyConnection → Round → Prop}
    (all : ∀ c r, cond c r) (rounds : List Round) (c : HttpProxyConnection) :
    EveryRound lib cond rounds c := by
  induction rounds generalizing c with
  | nil => trivial
  | cons r rest ih => exact ⟨all c r, fun c' _ => ih c'⟩

def arrived (r : Round) : Bytes :=
  r.received.data.drop (r.received.data.length - (HttpBodyFile.toInt r.received.data.length).toNat)

/-- The reads of a round end without an error. -/
def blocked (r : Round) : Bool :=
  match r.received.ending with
  | .blocked _ => true
  | .failed _ => false

def tunnelled (c : HttpProxyConnection) : HttpProxyConnection :=
  { c with request := tunnelBody c.request, response := tunnelBody c.response }

def marked (c : HttpProxyConnection) : Side → HttpProxyConnection
  | .client => c.tunnelled
  | .server => c

def cleared (c : HttpProxyConnection) : HttpProxyConnection :=
  { c with request := c.request.clear, response := c.response.clear }

def withHandle (c : HttpProxyConnection) : HttpProxyConnection :=
  { c with request := { c.request with
    parser := { c.request.parser with headerCompletedHandle := true } } }

/-- A property that is kept by every round that meets the condition. -/
structure Rounds (lib : ParserLib) (cond : HttpProxyConnection → Round → Prop)
    (Inv : HttpProxyConnection → Prop) : Prop extends Stable Inv where
  begins : ∀ c, c.state = .proxyInit → Inv c → Inv c.withHandle
  tunnelled : ∀ c, c.state = .clientRecvRequest → Inv c → Inv c.tunnelled
  prepared : ∀ c r, cond c r → c.state = .clientRecvRequestDone → Inv c →
    Inv c.predictNextState
  granted : ∀ c r, cond c r → c.state = .clientSend200okDone → Inv c →
    Inv c.cleared.predictNextState
  responded : ∀ c r, cond c r → c.state = .clientSendResponseDone → Inv c →
    Inv c.cleared.predictNextState
  shaken : ∀ c r, cond c r → c.state = .clientHandshakeDone → Inv c → Inv c.predictNextState
  behind : ∀ c c₁ r side, cond c r → Receiving c side → Untouched (c.marked side) c₁ →
    (c₁.socket side).exist = true → blocked r = true → Inv c₁ → arrived r ≠ [] →
      Inv (beyond lib c₁ side (arrived r))
  request : ∀ c c₁ r finish, cond c r → c.state = .clientRecvRequest →
    Untouched c.tunnelled c₁ → c₁.mClient.exist = true → Inv c₁ → arrived r ≠ [] →
      c₁.parse lib .client r (arrived r) = some finish → Inv finish.connection
  response : ∀ c c₁ r finish, cond c r → c.state = .serverRecvResponse →
    Untouched c c₁ → c₁.mServer.exist = true → Inv c₁ → arrived r ≠ [] →
      c₁.parse lib .server r (arrived r) = some finish → Inv finish.connection

/-- The next state behind a message, and the answer to a `CONNECT`. -/
def preparing (c : HttpProxyConnection) : HttpProxyConnection :=
  if c.predictNextState.state = .clientSend200ok then c.predictNextState.notify200
  else c.predictNextState

/-- A property that is kept by every round that meets the condition, when a notification is put in
where the code does it and nowhere else. -/
structure RoundRules (lib : ParserLib) (cond : HttpProxyConnection → Round → Prop)
    (Inv : HttpProxyConnection → Prop) : Prop extends Lasting Inv where
  begins : ∀ c, c.state = .proxyInit → Inv c → Inv c.withHandle
  tunnelled : ∀ c, c.state = .clientRecvRequest → Inv c → Inv c.tunnelled
  prepared : ∀ c r, cond c r → c.state = .clientRecvRequestDone → Inv c → Inv c.preparing
  granted : ∀ c r, cond c r → c.state = .clientSend200okDone → Inv c →
    Inv c.cleared.predictNextState
  responded : ∀ c r, cond c r → c.state = .clientSendResponseDone → Inv c →
    Inv c.cleared.predictNextState
  shaken : ∀ c r, cond c r → c.state = .clientHandshakeDone → Inv c → Inv c.predictNextState
  refused : ∀ c c', c.state = .clientRecvRequestDone → Inv c → c.notify503 = some c' → Inv c'
  sends : ∀ c r side, cond c r → Sending c side → Inv c → Sends Inv c side r
  request : ∀ c c₁ r finish, cond c r → c.state = .clientRecvRequest →
    Untouched c.tunnelled c₁ → c₁.mClient.exist = true → blocked r = true → Inv c₁ →
      arrived r ≠ [] → (beyond lib c₁ .client (arrived r)).parse lib .client r (arrived r) =
        some finish → Inv finish.connection
  response : ∀ c c₁ r finish, cond c r → c.state = .serverRecvResponse →
    Untouched c c₁ → c₁.mServer.exist = true → blocked r = true →
      c₁.log = .received .server r.received.data :: c.log → Inv c₁ → arrived r ≠ [] →
        (beyond lib c₁ .server (arrived r)).parse lib .server r (arrived r) = some finish →
          Inv finish.connection

section
variable {lib : ParserLib} {cond : HttpProxyConnection → Round → Prop}
  {Inv : HttpProxyConnection → Prop} {c c' : HttpProxyConnection} {side : Side} {r : Round}

/-- Bytes that were received are those of the round. -/
theorem recvNIO_arrived (there : ¬( c.recvNIO side r.received).1 < 0) :
    r.received.data.drop (r.received.data.length - ( c.recvNIO side r.received).1.toNat) =
      arrived r := by
  rw [ recvNIO] at there ⊢
  split_ifs at there ⊢
  · exact absurd (by decide : (-1 : Int) < 0) there
  · cases ends : r.received.ending with
    | blocked waits => rw [arrived]
    | failed kept =>
      rw [ends] at there
      exact absurd (by decide : tigersoIoError < 0) there

/-- When something was received something is parsed. -/
theorem arrived_ne_nil (there : ¬( c.recvNIO side r.received).1 < 0)
    (some_ : ( c.recvNIO side r.received).1 ≠ 0) : arrived r ≠ [] := by
  rw [← recvNIO_arrived there, ← List.length_pos_iff, List.length_drop]
  have filled : r.received.data.length ≠ 0 := by
    intro empty
    refine some_ ?_
    rw [ recvNIO] at there ⊢
    split_ifs at there ⊢
    · exact absurd (by decide : (-1 : Int) < 0) there
    · cases ends : r.received.ending with
      | blocked waits =>
        dsimp only
        rw [empty]
        rfl
      | failed kept =>
        rw [ends] at there
        exact absurd (by decide : tigersoIoError < 0) there
  omega

/-- When something was received there was no error. -/
theorem recvNIO_blocked (there : ¬( c.recvNIO side r.received).1 < 0) : blocked r = true := by
  rw [blocked]
  rw [ recvNIO] at there
  split_ifs at there
  · exact absurd (by decide : (-1 : Int) < 0) there
  · cases ends : r.received.ending with
    | blocked waits => rfl
    | failed kept =>
      rw [ends] at there
      exact absurd (by decide : tigersoIoError < 0) there

/-- Bytes that were received are noted. -/
theorem recvNIO_noted (there : ¬( c.recvNIO side r.received).1 < 0) :
    ( c.recvNIO side r.received).2.log = .received side r.received.data :: c.log := by
  rcases @recvNIO_log c side r.received with same | noted
  · rw [ recvNIO] at there same ⊢
    split_ifs at there same ⊢
    · exact absurd (by decide : (-1 : Int) < 0) there
    · cases ends : r.received.ending with
      | blocked waits => cases side <;> rfl
      | failed kept =>
        rw [ends] at there
        exact absurd (by decide : tigersoIoError < 0) there
  · exact noted

theorem onSocket_log (change : NetSocket ProxyHandler → NetSocket ProxyHandler) :
    (c.onSocket side change).log = c.log := by
  cases side with
  | client => rfl
  | server => rfl

theorem Receiving.leaving (receiving : Receiving c side) (complete : c.needMoreData side = false) :
    Leaving c := by
  refine ⟨receiving.busy, fun state => ?_⟩
  cases side with
  | client => exact nomatch receiving.symm.trans state
  | server => exact complete

theorem Lasting.received (lasting : Lasting Inv) (receiving : Receiving c side) (inv : Inv c)
    {recvn : Int} {finish : RoundEnd} (done : c.received lib side r recvn = some finish)
    (parses : ∀ data finish, recvn ≠ 0 →
      data = r.received.data.drop (r.received.data.length - recvn.toNat) →
        (beyond lib c side data).parse lib side r data = some finish → Inv finish.connection) :
    Inv finish.connection := by
  rw [HttpProxyConnection.received] at done
  split_ifs at done with nothing complete
  · obtain rfl := Option.some.inj done
    exact lasting.advance (receiving.leaving (by simpa using complete)) inv
  · obtain rfl := Option.some.inj done
    exact inv
  · exact parses _ finish nothing rfl done

/-- Bytes are received of a socket that exists. -/
theorem recvNIO_exist (there : ¬( c.recvNIO side r.received).1 < 0) :
    (c.socket side).exist = true := by
  by_contra closed
  rw [ recvNIO, if_pos (by simpa using closed)] at there
  exact there (show (-1 : Int) < 0 by decide)

theorem Untouched.exist (same : Untouched c c') :
    (c'.socket side).exist = (c.socket side).exist := by
  cases side with
  | client => exact same.client
  | server => exact same.server

/-- A case that receives, when the property is kept by the parsing. -/
theorem Lasting.recvMessage (lasting : Lasting Inv) (receiving : Receiving c side) (inv : Inv c)
    (parses : ∀ c₁ finish, Untouched c c₁ → (c₁.socket side).exist = true → blocked r = true →
      c₁.log = .received side r.received.data :: c.log → Inv c₁ → arrived r ≠ [] →
        (beyond lib c₁ side (arrived r)).parse lib side r (arrived r) = some finish →
          Inv finish.connection)
    {finish : RoundEnd} (done : c.recvMessage lib side r = some finish) :
    Inv finish.connection := by
  have reading : Untouched c (c.onSocket side fun sock =>
      sock.enableReadEvent.disableWriteEvent) := onSocket_untouched fun _ => NetSocket.reading_kept
  have unlogged := @onSocket_log c side fun sock => sock.enableReadEvent.disableWriteEvent
  have inv : Inv (c.onSocket side fun sock => sock.enableReadEvent.disableWriteEvent) :=
    lasting.mild (fun _ => reading_mild) inv
  rw [HttpProxyConnection.recvMessage] at done
  dsimp only at done
  generalize (c.onSocket side fun sock => sock.enableReadEvent.disableWriteEvent) = c₁ at *
  have same : Untouched c ( c₁.recvNIO side r.received).2 :=
    reading.trans (recvNIO_untouched r.received)
  have inv := lasting.recvNIO c₁ side r.received (receiving.of_state reading.state) inv
  have all := @recvNIO_arrived c₁ side r
  have filled := @arrived_ne_nil c₁ side r
  have noted := @recvNIO_noted c₁ side r
  have unfailed := @recvNIO_blocked c₁ side r
  have there : ¬( c₁.recvNIO side r.received).1 < 0 → (c.socket side).exist = true :=
    fun fine => reading.exist.symm.trans (recvNIO_exist fine)
  generalize c₁.recvNIO side r.received = answer at *
  obtain ⟨recvn, c₂⟩ := answer
  dsimp only at same inv all filled noted unfailed there done
  split_ifs at done with failed
  · obtain rfl := Option.some.inj done
    exact lasting.closeHandle r.shutdown side inv
  · have all := all failed
    have there := there failed
    have noted := (noted failed).trans (congrArg (.received side r.received.data :: ·) unlogged)
    have receives (c₃ : HttpProxyConnection) (same : Untouched c c₃) (log : c₃.log = c₂.log)
        (inv : Inv c₃) (done : c₃.received lib side r recvn = some finish) :
        Inv finish.connection := by
      refine lasting.received (receiving.of_state same.state) inv done
        fun data finish some_ here parsed => ?_
      rw [here.trans all] at parsed
      exact parses c₃ finish same (same.exist.trans there) (unfailed failed)
        (log.trans noted) inv (filled failed some_) parsed
    have waiting (event : SocketEvent) : Untouched c
        ((c₂.quiet side).onSocket side fun sock => sock.enableEvent event) :=
      (same.trans (onSocket_untouched fun _ => NetSocket.quiet_kept)).trans
        (onSocket_untouched fun _ => NetSocket.enableEvent_kept event)
    have silent (event : SocketEvent) :
        ((c₂.quiet side).onSocket side fun sock => sock.enableEvent event).log = c₂.log :=
      (onSocket_log _).trans (onSocket_log _)
    cases wanted : (c₂.socket side).wanted with
    | socketEventNone =>
      rw [wanted] at done
      exact receives c₂ same rfl inv done
    | socketEventRead =>
      have other : ¬(recvn = 0 ∧ SocketEvent.socketEventRead = .socketEventWrite) :=
        fun both => nomatch both.2
      rw [wanted] at done
      exact receives _ (waiting _) (silent _) (lasting.waitFor _ inv)
        ((if_neg other).symm.trans done)
    | socketEventWrite =>
      rw [wanted] at done
      dsimp only at done
      split_ifs at done
      · obtain rfl := Option.some.inj done
        exact lasting.waitFor _ inv
      · exact receives _ (waiting _) (silent _) (lasting.waitFor _ inv) done

/-- What lies behind a message is only noted. -/
theorem beyond_untouched {lib : ParserLib} {c : HttpProxyConnection} {side : Side} (data : Bytes) :
    Untouched c (beyond lib c side data) := by
  rw [beyond]
  split_ifs
  · exact .refl
  · exact ⟨rfl, rfl, rfl, rfl, rfl, rfl, rfl, rfl, rfl⟩

theorem beyond_keeps {data : Bytes} (noted : ∀ n, Inv (c.note (.behind side n))) (inv : Inv c) :
    Inv (beyond lib c side data) := by
  rw [beyond]
  split_ifs
  · exact inv
  · exact noted _

theorem Stable.preparing (stable : Stable Inv) (inv : Inv c.predictNextState) :
    Inv c.preparing := stable.prepareNext inv

/-- A property that every notification keeps. -/
theorem Rounds.rules (rounds : Rounds lib cond Inv) : RoundRules lib cond Inv where
  toLasting := rounds.toStable.lasting
  begins := rounds.begins
  tunnelled := rounds.tunnelled
  prepared c r met state inv := rounds.toStable.preparing (rounds.prepared c r met state inv)
  granted := rounds.granted
  responded := rounds.responded
  shaken := rounds.shaken
  refused _ _ _ inv notified := rounds.toStable.notify503 inv notified
  sends _ _ _ _ sending inv := rounds.toStable.sends sending inv
  request c c₁ r finish met state same there unfailed inv filled := by
    have noted := rounds.behind c c₁ r .client met state same there unfailed inv filled
    have untouched := same.trans (@beyond_untouched lib c₁ .client (arrived r))
    exact rounds.request c _ r finish met state untouched (untouched.client.trans
      (same.client.symm.trans there)) noted filled
  response c c₁ r finish met state same there unfailed _ inv filled := by
    have noted := rounds.behind c c₁ r .server met state same there unfailed inv filled
    have untouched := same.trans (@beyond_untouched lib c₁ .server (arrived r))
    exact rounds.response c _ r finish met state untouched (untouched.server.trans
      (same.server.symm.trans there)) noted filled

/-- The cases of the switch, each by its rule. -/
theorem RoundRules.round (rules : RoundRules lib cond Inv) (met : cond c r)
    (untunnelled : c.state ≠ .tcpTunnel) (inv : Inv c) {finish : RoundEnd}
    (done : c.round lib r = some finish) : Inv finish.connection := by
  have lasting := rules.toLasting
  rw [HttpProxyConnection.round] at done
  split at done
  case h_1 state =>
    obtain rfl := Option.some.inj done
    have leaving : Leaving c.withHandle := leaving_of state rfl (by decide)
    exact lasting.predict _ leaving (rules.begins c state inv)
  case h_2 state =>
    have receiving : Receiving c.tunnelled .client := state
    have done : c.tunnelled.recvMessage lib .client r = some finish := done
    refine lasting.recvMessage receiving (rules.tunnelled c state inv) ?_ done
    exact fun c₁ finish same there unfailed _ inv filled parsed =>
      rules.request c c₁ r finish met state same there unfailed inv filled parsed
  case h_3 state =>
    have receiving : Receiving c .server := state
    refine lasting.recvMessage receiving inv ?_ done
    exact fun c₁ finish same there unfailed noted inv filled parsed =>
      rules.response c c₁ r finish met state same there unfailed noted inv filled parsed
  case h_4 state =>
    obtain rfl := Option.some.inj done
    exact rules.prepared c r met state inv
  case h_5 state =>
    obtain rfl := Option.some.inj done
    have next : c.predictNextState.state ≠ .clientSend200ok := by
      rw [predictNextState, state]
      exact (by decide : HttpProxyState.clientSendResponse ≠ .clientSend200ok)
    dsimp only [RoundEnd.connection]
    rw [if_neg next]
    exact lasting.predict c (leaving_of state rfl (by decide)) inv
  case h_6 state =>
    obtain rfl := Option.some.inj done
    have sending : Sending c .client := Or.inl state
    exact lasting.sendMessage (rules.sends c r _ met sending inv)
  case h_7 state =>
    obtain rfl := Option.some.inj done
    have sending : Sending c .client := Or.inr state
    exact lasting.sendMessage (rules.sends c r _ met sending inv)
  case h_8 state =>
    obtain rfl := Option.some.inj done
    have sending : Sending c .server := state
    exact lasting.sendMessage (rules.sends c r _ met sending inv)
  case h_9 state =>
    obtain rfl := Option.some.inj done
    exact lasting.sendDone (rules.granted c r met state inv)
  case h_10 state =>
    obtain rfl := Option.some.inj done
    exact lasting.sendDone (rules.responded c r met state inv)
  case h_11 state =>
    obtain rfl := Option.some.inj done
    exact lasting.sendDone (lasting.predict c (leaving_of state rfl (by decide)) inv)
  case h_12 state => exact absurd state untunnelled
  case h_13 state =>
    obtain rfl := Option.some.inj done
    exact lasting.serverHandshake (leaving_of state rfl (by decide)) inv
  case h_14 state =>
    have inv := lasting.predict c (leaving_of state rfl (by decide)) inv
    dsimp only at done
    split_ifs at done
    · obtain rfl := Option.some.inj done
      exact lasting.forceCloseProxy inv
    · obtain rfl := Option.some.inj done
      exact inv
  case h_15 state =>
    obtain rfl := Option.some.inj done
    exact lasting.clientHandshake (leaving_of state rfl (by decide)) inv
  case h_16 state =>
    obtain rfl := Option.some.inj done
    exact rules.shaken c r met state inv
  all_goals
    obtain rfl := Option.some.inj done
    exact lasting.forceCloseProxy inv

/-- A property for which the messages and the looking for a server do not matter. -/
structure Aloof (Inv : HttpProxyConnection → Prop) : Prop where
  told : ∀ c request response host port resolver peer, Inv c → Inv { c with
    request := request
    response := response
    host := host
    port := port
    resolver := resolver
    peer := peer }
  server : ∀ c change, (Plain c.mServer → Plain (change c.mServer)) → Inv c →
    Inv (c.onSocket .server change)
  connected : ∀ c host port, Inv c → Inv (c.note (.connected host port))
  responded : ∀ c request nobody, Inv c → Inv (c.note (.responded request nobody))

/-- A connection is made to the server, or the server socket is closed. -/
theorem Aloof.connectServer (aloof : Aloof Inv) (inv : Inv c) (host : Bytes)
    (address : Option ConnectResult) : Inv (c.connectServer host address).2 := by
  have asked (peer : Option (Bytes × Bytes)) :
      Inv { c with request := c.request.getHostPort.2, peer := peer } :=
    aloof.told c _ _ _ _ _ _ inv
  cases address with
  | none => exact inv
  | some address =>
    cases address with
    | invalid => exact asked c.peer
    | failed fd shutdown =>
      exact aloof.server { c with request := c.request.getHostPort.2 }
        (fun sock => ({ sock with sockfd := fd.map c.descriptor }.close shutdown).2)
        (fun plain => refused_plain plain _ shutdown) (asked c.peer)
    | opened fd =>
      have known := aloof.connected _ host c.request.getHostPort.1
        (asked (some (host, c.request.getHostPort.1)))
      exact aloof.server _ (fun sock => ({ sock with
        sockfd := some (c.descriptor fd) }.registerChannel.setEventHandle .writeHandle
          .socketEventWrite).setHandles .readHandle .errorHandle .rdhupHandle .timeoutHandle)
        (fun plain => connected_plain plain _) known

theorem Aloof.resolve (aloof : Aloof Inv) (inv : Inv c) (host : Bytes) (lookup : Lookup) :
    Inv (c.resolve host lookup) := by
  cases lookup with
  | found address => exact aloof.told _ _ _ _ _ _ _ (aloof.connectServer inv host address)
  | failed => exact aloof.told c _ _ _ _ _ _ inv
  | asked => exact aloof.told c _ _ _ _ _ _ inv

theorem Aloof.seekServer (aloof : Aloof Inv) (stable : Stable Inv) (inv : Inv c)
    (host port : Bytes) (lookup : Lookup) : Inv (c.seekServer host port lookup) := by
  rw [HttpProxyConnection.seekServer]
  split_ifs
  · exact aloof.resolve (aloof.told _ _ _ _ _ _ _ (stable.lasting.forceCloseServer inv)) host lookup
  · exact inv

theorem Aloof.labelHead (aloof : Aloof Inv) (inv : Inv c) (method : Bytes) :
    Inv (c.labelHead method) := by
  rw [HttpProxyConnection.labelHead]
  split_ifs
  · exact aloof.told c _ _ _ _ _ _ inv
  · exact inv

theorem Aloof.requestHeaders (aloof : Aloof Inv) (stable : Stable Inv) (busy : Busy c)
    (inv : Inv c) {lookup : Nat → Lookup} {k : Nat} {messages : List HttpMessage}
    (called : requestHeaders lookup k messages c = some c') : Busy c' ∧ Inv c' := by
  induction messages generalizing c k with
  | nil =>
    obtain rfl := Option.some.inj called
    exact ⟨busy, inv⟩
  | cons message rest ih =>
    obtain ⟨next, first, called⟩ := Option.bind_eq_some_iff.mp called
    have busy := requestHeaderCompleteHandle_busy busy first
    obtain ⟨⟨host, request⟩, _, rfl⟩ := Option.map_eq_some_iff.mp first
    have asked : Inv { c with request := request.getHostPort.2 } :=
      aloof.told c _ _ _ _ _ _ inv
    have sought := aloof.seekServer stable (aloof.labelHead asked message.method) host
      request.getHostPort.1 (lookup k)
    exact ih busy (aloof.told _ _ _ _ _ _ _ sought) called

/-- What is left to be shown of a property for which the messages do not matter. -/
theorem Aloof.rounds (aloof : Aloof Inv) (stable : Stable Inv)
    (behind : ∀ c c₁ r side, cond c r → Receiving c side → Untouched (c.marked side) c₁ →
      (c₁.socket side).exist = true → blocked r = true → Inv c₁ → arrived r ≠ [] →
        Inv (beyond lib c₁ side (arrived r)))
    (prepared : ∀ c r, cond c r → c.state = .clientRecvRequestDone → Inv c →
      Inv c.predictNextState)
    (granted : ∀ c r, cond c r → c.state = .clientSend200okDone → Inv c →
      Inv (c.enter .serverHandshake))
    (responded : ∀ c r, cond c r → c.state = .clientSendResponseDone → Inv c →
      Inv (c.enter .clientRecvRequest))
    (shaken : ∀ c r, cond c r → c.state = .clientHandshakeDone → Inv c →
      Inv (c.enter .clientRecvRequest)) : Rounds lib cond Inv where
  toStable := stable
  begins c _ inv := aloof.told c _ _ _ _ _ _ inv
  tunnelled c _ inv := aloof.told c _ _ _ _ _ _ inv
  behind := behind
  prepared := prepared
  granted c r met state inv := by
    rw [predict_granted (c := c.cleared) state]
    exact aloof.told (c.enter .serverHandshake) _ _ _ _ _ _ (granted c r met state inv)
  responded c r met state inv := by
    rw [predict_responded (c := c.cleared) state]
    exact aloof.told (c.enter .clientRecvRequest) _ _ _ _ _ _ (responded c r met state inv)
  shaken c r met state inv := by
    rw [predict_shaken state]
    exact shaken c r met state inv
  request c c₁ r finish met state same _ inv filled parsed := by
    generalize arrived r = data at *
    obtain ⟨⟨answer, request⟩, read, rest⟩ := Option.bind_eq_some_iff.mp parsed
    obtain ⟨c₂, called, rest⟩ := Option.bind_eq_some_iff.mp rest
    have receiving : Receiving c₁ .client := same.state.trans state
    have before : Inv { c₁ with request := request } := aloof.told c₁ _ _ _ _ _ _ inv
    have busy : Busy { c₁ with request := request } := receiving.busy.of_state rfl
    obtain ⟨busy, after⟩ := aloof.requestHeaders stable busy before called
    exact stable.requestParsed busy after rest
  response c c₁ r finish met state same _ inv filled parsed := by
    generalize arrived r = data at *
    obtain ⟨⟨answer, response⟩, read, rest⟩ := Option.bind_eq_some_iff.mp parsed
    obtain rfl := Option.some.inj rest
    have receiving : Receiving c₁ .server := same.state.trans state
    have noted : Inv (c₁.note (.responded c₁.request.message c₁.response.parser.nobody)) :=
      aloof.responded c₁ _ _ inv
    split_ifs at read ⊢
    · have after : Inv { c₁.note
          (.responded c₁.request.message c₁.response.parser.nobody) with
          response := response } := aloof.told _ _ _ _ _ _ _ noted
      refine stable.responseParsed ?_ after answer.code
      exact receiving.busy.of_state rfl
    · have after : Inv { c₁ with response := response } := aloof.told _ _ _ _ _ _ _ inv
      refine stable.responseParsed ?_ after answer.code
      exact receiving.busy.of_state rfl

/-- No state and no callback of a tunnel. -/
structure NoTunnel (c : HttpProxyConnection) : Prop where
  state : c.state ≠ .tcpTunnel
  client : Plain c.mClient
  server : Plain c.mServer
  forgotten : ∀ side channel kind handler, (side, channel) ∈ c.forgotten →
    channel.callback kind = some handler →
      handler ≠ .sslTunnelReadHandle ∧ handler ≠ .sslTunnelWriteHandle

theorem NoTunnel.socket (quiet : NoTunnel c) (side : Side) : Plain (c.socket side) := by
  cases side with
  | client => exact quiet.client
  | server => exact quiet.server

theorem NoTunnel.enter (quiet : NoTunnel c) {state : HttpProxyState} (other : state ≠ .tcpTunnel) :
    NoTunnel (c.enter state) :=
  ⟨other, quiet.client, quiet.server, quiet.forgotten⟩

theorem NoTunnel.note (quiet : NoTunnel c) {action : ProxyAction} : NoTunnel (c.note action) :=
  ⟨quiet.state, quiet.client, quiet.server, quiet.forgotten⟩

theorem NoTunnel.onSocket (quiet : NoTunnel c) (side : Side)
    {change : NetSocket ProxyHandler → NetSocket ProxyHandler}
    (plain : Plain (c.socket side) → Plain (change (c.socket side))) :
    NoTunnel (c.onSocket side change) := by
  cases side with
  | client => exact ⟨quiet.state, plain quiet.client, quiet.server, quiet.forgotten⟩
  | server => exact ⟨quiet.state, quiet.client, plain quiet.server, quiet.forgotten⟩

theorem NoTunnel.mild (quiet : NoTunnel c)
    {change : NetSocket ProxyHandler → NetSocket ProxyHandler}
    (mild : ∀ s, Mild s (change s)) : NoTunnel (c.onSocket side change) :=
  quiet.onSocket side (mild _).plain

/-- The next state is a tunnel only behind a `CONNECT`. -/
theorem NoTunnel.predict (quiet : NoTunnel c) : NoTunnel c.predictNextState := by
  rw [predictNextState]
  cases state : c.state with
  | proxyInit =>
    have entered : NoTunnel (c.enter .clientRecvRequest) := quiet.enter (by decide)
    exact entered.onSocket .client (enableEvent_mild _).plain
  | clientRecvRequest =>
    dsimp only
    split_ifs
    · exact quiet.enter (by decide)
    · exact quiet
  | clientRecvRequestDone =>
    dsimp only
    split_ifs
    · exact quiet.enter (by decide)
    · exact quiet.enter (by decide)
    · exact quiet.enter (by decide)
  | tcpTunnel => exact absurd state quiet.state
  | clientCloseDone =>
    dsimp only
    split_ifs
    · exact quiet.enter (by decide)
    · exact quiet.enter (by decide)
  | serverCloseDone =>
    dsimp only
    split_ifs
    · exact quiet.enter (by decide)
    · exact quiet.enter (by decide)
  | _ => exact quiet.enter (by decide)

/-- No other step leads into a tunnel. -/
theorem noTunnel_stable : Stable NoTunnel where
  socket c side change _ plain quiet := quiet.onSocket side plain
  respond c _ quiet := quiet.enter nofun
  recycle c quiet := by
    refine ⟨nofun, plain_of_none rfl, plain_of_none rfl, ?_⟩
    intro side channel kind handler there
    rcases List.mem_append.mp there with earlier | fromServer
    · rcases List.mem_append.mp earlier with earlier | fromClient
      · exact quiet.forgotten side channel kind handler earlier
      · obtain ⟨channel', here, eq⟩ := List.mem_map.mp fromClient
        obtain ⟨rfl, rfl⟩ := Prod.mk.inj eq
        exact quiet.client channel' kind handler (Option.mem_toList.mp here)
    · obtain ⟨channel', here, eq⟩ := List.mem_map.mp fromServer
      obtain ⟨rfl, rfl⟩ := Prod.mk.inj eq
      exact quiet.server channel' kind handler (Option.mem_toList.mp here)
  predict c _ quiet := quiet.predict
  sentAll c side _ _ quiet := quiet.predict
  recvNIO c side read _ quiet := by
    have filled : NoTunnel ((c.withInBuffer side ((c.inBuffer side).addData read.data)).note
        (.received side read.data)) := by
      cases side with
      | client => exact ⟨quiet.state, quiet.client, quiet.server, quiet.forgotten⟩
      | server => exact ⟨quiet.state, quiet.client, quiet.server, quiet.forgotten⟩
    rw [ HttpProxyConnection.recvNIO]
    split_ifs
    · exact quiet
    · cases read.ending with
      | blocked waits => exact filled.mild (afterSSL_mild _)
      | failed kept => exact filled.mild (afterSSL_mild _)
  sendNIO c side sent _ quiet := by
    have filled (q : BufferQueue) (action : ProxyAction) :
        NoTunnel ((c.withOutBuffer side q).note action) := by
      cases side with
      | client => exact ⟨quiet.state, quiet.client, quiet.server, quiet.forgotten⟩
      | server => exact ⟨quiet.state, quiet.client, quiet.server, quiet.forgotten⟩
    rw [ HttpProxyConnection.sendNIO]
    split_ifs
    · exact quiet
    · exact (filled _ _).mild (afterSSL_mild _)
  notify c n _ quiet :=
    ⟨quiet.state, quiet.client, quiet.server, quiet.forgotten⟩
  handleCalled c ret quiet := ⟨quiet.state, quiet.client, quiet.server, quiet.forgotten⟩
  answered c quiet := ⟨quiet.state, quiet.client, quiet.server, quiet.forgotten⟩
  queue c gc quiet := ⟨quiet.state, quiet.client, quiet.server, quiet.forgotten⟩
  handedOut c quiet := ⟨quiet.state, quiet.client, quiet.server, quiet.forgotten⟩
  accept c fd quiet := by
    have accepted : Plain { c.mClient with sockfd := some fd } := quiet.client.of_channel rfl
    exact quiet.onSocket .client fun _ =>
      (enableEvent_mild _).plain (setHandles_plain (registerChannel_plain accepted))

theorem noTunnel_aloof : Aloof NoTunnel where
  told _ _ _ _ _ _ _ quiet := ⟨quiet.state, quiet.client, quiet.server, quiet.forgotten⟩
  server _ _ plain quiet := quiet.onSocket .server plain
  connected _ _ _ quiet := ⟨quiet.state, quiet.client, quiet.server, quiet.forgotten⟩
  responded _ _ _ quiet := ⟨quiet.state, quiet.client, quiet.server, quiet.forgotten⟩

theorem noTunnel_rounds : Rounds lib cond NoTunnel :=
  noTunnel_aloof.rounds noTunnel_stable
    (fun _ _ _ _ _ _ _ _ _ quiet _ => beyond_keeps (fun _ => quiet.note) quiet)
    (fun _ _ _ _ quiet => quiet.predict)
    (fun _ _ _ _ quiet => quiet.enter nofun) (fun _ _ _ _ quiet => quiet.enter nofun)
    (fun _ _ _ _ quiet => quiet.enter nofun)

theorem start_noTunnel (id : IDType) (garbage : Nat → Byte) (status fd : Nat) :
    NoTunnel (start id garbage status fd) := by
  have constructed : NoTunnel ((construct id garbage status).note .handedOut) :=
    ⟨nofun, plain_of_none rfl, plain_of_none rfl, fun _ _ _ _ there => nomatch there⟩
  exact noTunnel_stable.accept _ fd constructed

theorem RoundRules.loop (rules : RoundRules lib cond Inv) {rounds : List Round} {ret : Int}
    (every : EveryRound lib cond rounds c) (inv : Inv c) (quiet : NoTunnel c)
    (done : rwEventHandle lib rounds c = some (ret, c')) : Inv c' ∧ NoTunnel c' := by
  refine every.keeps (fun c => Inv c ∧ NoTunnel c) ?_ ⟨inv, quiet⟩ done
  intro c r finish both met done
  exact ⟨rules.round met both.2.state both.1 done,
    noTunnel_rounds.rules.round met both.2.state both.2 done⟩

/-- What the rounds keep is kept by every handler that runs the loop or does not. -/
theorem RoundRules.handle (rules : RoundRules lib cond Inv) (inv : Inv c) (quiet : NoTunnel c)
    {rounds : List Round} {handler : ProxyHandler}
    (other : handler ≠ .sslTunnelReadHandle ∧ handler ≠ .sslTunnelWriteHandle)
    (every : loops handler = true → EveryRound lib cond rounds c)
    (done : c.handle lib side rounds handler = some c') : Inv c' ∧ NoTunnel c' := by
  have lasting := rules.toLasting
  have loop (here : loops handler = true)
      (done : (rwEventHandle lib rounds c).map Prod.snd = some c') : Inv c' ∧ NoTunnel c' := by
    obtain ⟨⟨ret, c₁⟩, ran, rfl⟩ := Option.map_eq_some_iff.mp done
    exact rules.loop (every here) inv quiet ran
  have closes (done : some (c.forceClose side) = some c') : Inv c' ∧ NoTunnel c' := by
    obtain rfl := Option.some.inj done
    exact ⟨lasting.forceClose inv, noTunnel_stable.lasting.forceClose quiet⟩
  cases handler with
  | readHandle => exact loop rfl done
  | writeHandle => exact loop rfl done
  | errorHandle => exact closes done
  | rdhupHandle => exact closes done
  | timeoutHandle => exact closes done
  | closeHandle =>
    obtain ⟨r, _, rfl⟩ := Option.map_eq_some_iff.mp done
    exact ⟨lasting.closeHandle r.shutdown side inv,
      noTunnel_stable.lasting.closeHandle r.shutdown side quiet⟩
  | sslTunnelReadHandle => exact absurd rfl other.1
  | sslTunnelWriteHandle => exact absurd rfl other.2

/-- The connecting behind an answer is what is left to be shown. -/
theorem RoundRules.resolved (rules : RoundRules lib cond Inv) {late}
    {address : Option ConnectResult}
    {rounds : List Round} (guarded : Guarded lib cond late c (.resolved address rounds))
    (connects : ∀ host, c.resolver.query = some host → Inv
      ({ c with resolver := { c.resolver with query := none } }.connectServer host address).2)
    (inv : Inv c) (quiet : NoTunnel c) (done : c.resolved lib address rounds = some c') :
    Inv c' ∧ NoTunnel c' := by
  have lasting := rules.toLasting
  obtain ⟨host, asked, done⟩ := Option.bind_eq_some_iff.mp done
  have every := guarded.2 host asked
  have connected := connects host asked
  have plain := noTunnel_aloof.connectServer (noTunnel_stable.answered c quiet) host address
  dsimp only at done
  split_ifs at done
  · obtain ⟨⟨ret, c₂⟩, ran, done⟩ := Option.bind_eq_some_iff.mp done
    obtain rfl := Option.some.inj done
    suffices both : Inv c₂ ∧ NoTunnel c₂ from
      ⟨lasting.handleCalled c₂ ret both.1, noTunnel_stable.handleCalled c₂ ret both.2⟩
    rw [serverConnectHandle] at ran
    generalize ({ c with
      resolver := { c.resolver with query := none } }.connectServer host address) = answer at *
    obtain ⟨code, c₁⟩ := answer
    dsimp only at connected plain every ran
    split_ifs at ran with waiting _
    · obtain ⟨⟨_, c₃⟩, looped, eq⟩ := Option.map_eq_some_iff.mp ran
      obtain ⟨rfl, rfl⟩ := Prod.mk.inj eq
      exact rules.loop every connected plain looped
    · obtain ⟨c₂, notified, eq⟩ := Option.map_eq_some_iff.mp ran
      obtain ⟨rfl, rfl⟩ := Prod.mk.inj eq
      exact ⟨lasting.wakeWrite (rules.refused c₁ c₂ waiting connected notified),
        noTunnel_stable.lasting.wakeWrite (noTunnel_stable.notify503 plain notified)⟩
    · obtain ⟨rfl, rfl⟩ := Prod.mk.inj (Option.some.inj ran)
      exact ⟨connected, plain⟩
  · obtain rfl := Option.some.inj done
    exact ⟨lasting.answered c inv, noTunnel_stable.answered c quiet⟩

theorem Lasting.handOut (lasting : Lasting Inv) (inv : Inv c) (taken : c.handOut = some c') :
    Inv c' := by
  rw [HttpProxyConnection.handOut] at taken
  split at taken
  · cases taken
  · split_ifs at taken
    obtain rfl := Option.some.inj taken
    exact lasting.handedOut _ (lasting.queue c _ inv)

/-- What is kept by the events that call no handler. -/
theorem Lasting.queueing (lasting : Lasting Inv) {event : ProxyEvent} (inv : Inv c)
    (other : match event with
      | .called _ _ _ | .recalled _ _ _ | .resolved _ _ => False
      | _ => True)
    (steps : c.step lib event = some c') : Inv c' := by
  cases event with
  | accepted fd =>
    obtain ⟨c₁, taken, rfl⟩ := Option.map_eq_some_iff.mp steps
    exact lasting.accept c₁ fd (lasting.handOut inv taken)
  | refused =>
    obtain ⟨c₁, taken, rfl⟩ := Option.map_eq_some_iff.mp steps
    exact lasting.recycle c₁ (lasting.handOut inv taken)
  | queued id =>
    rw [HttpProxyConnection.step] at steps
    split_ifs at steps
    obtain rfl := Option.some.inj steps
    exact lasting.queue c _ inv
  | taken =>
    rw [HttpProxyConnection.step] at steps
    split at steps
    · cases steps
    · split_ifs at steps
      obtain rfl := Option.some.inj steps
      exact lasting.queue c _ inv
  | called side kind rounds => exact other.elim
  | recalled k kind rounds => exact other.elim
  | resolved address rounds => exact other.elim

/-- What the rounds and the late connecting keep, every event keeps. -/
theorem RoundRules.step (rules : RoundRules lib cond Inv) {late}
    (connects : ∀ c address host, late c address → c.resolver.query = some host → Inv c → Inv
      ({ c with resolver := { c.resolver with query := none } }.connectServer host address).2)
    {event : ProxyEvent} (inv : Inv c) (quiet : NoTunnel c)
      (guarded : Guarded lib cond late c event)
    (steps : c.step lib event = some c') : Inv c' ∧ NoTunnel c' := by
  have lasting := rules.toLasting
  have plain := noTunnel_stable.lasting
  cases event with
  | called side kind rounds =>
    obtain ⟨channel, there, steps⟩ := Option.bind_eq_some_iff.mp steps
    obtain ⟨handler, bound, done⟩ := Option.bind_eq_some_iff.mp steps
    exact rules.handle inv quiet (quiet.socket side channel kind handler there bound)
      (guarded channel handler there bound) done
  | recalled k kind rounds =>
    obtain ⟨⟨side, channel⟩, there, steps⟩ := Option.bind_eq_some_iff.mp steps
    obtain ⟨handler, bound, done⟩ := Option.bind_eq_some_iff.mp steps
    have known := quiet.forgotten side channel kind handler (List.mem_of_getElem? there) bound
    exact rules.handle inv quiet known (guarded side channel handler there bound) done
  | resolved address rounds =>
    refine rules.resolved guarded (fun host asked => ?_) inv quiet steps
    exact connects c address host guarded.1 asked inv
  | accepted fd => exact ⟨lasting.queueing inv trivial steps, plain.queueing quiet trivial steps⟩
  | refused => exact ⟨lasting.queueing inv trivial steps, plain.queueing quiet trivial steps⟩
  | queued id => exact ⟨lasting.queueing inv trivial steps, plain.queueing quiet trivial steps⟩
  | taken => exact ⟨lasting.queueing inv trivial steps, plain.queueing quiet trivial steps⟩

/-- What the rounds and the late connecting keep is true of every state that is reached. -/
theorem RoundRules.run (rules : RoundRules lib cond Inv) {late}
    (connects : ∀ c address host, late c address → c.resolver.query = some host → Inv c → Inv
      ({ c with resolver := { c.resolver with query := none } }.connectServer host address).2)
    {id : IDType} {garbage : Nat → Byte} {status fd : Nat}
    (begins : Inv (start id garbage status fd))
    (run : Reaches (HttpProxyConnection.step lib) (Guarded lib cond late)
      (start id garbage status fd) c) : Inv c := by
  have both : Inv c ∧ NoTunnel c := by
    refine run.invariant (fun c => Inv c ∧ NoTunnel c) ⟨begins, start_noTunnel ..⟩ ?_
    intro c event c' both guarded steps
    exact rules.step connects both.1 both.2 guarded steps
  exact both.1

end

end HttpProxyConnection
