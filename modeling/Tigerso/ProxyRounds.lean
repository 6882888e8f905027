import Tigerso.ProxyMachine

/-!
# http/HttpProxyConnection: what a case of the loop keeps

What has to be shown of a property for it to be kept by the closing, the sending, the handshakes,
and by what follows the parsing.
-/

open SystemCalls

namespace HttpProxyConnection
open HttpMessage HttpHelper

def RoundEnd.connection : RoundEnd → HttpProxyConnection
  | .returned _ c => c
  | .looping c => c

/-- The states that are left without a look at anything else. -/
def routine : HttpProxyState → Bool
  | .proxyInit => true
  | .clientRecvRequest => true
  | .serverSendRequestDone => true
  | .serverRecvResponse => true
  | .serverRecvResponseDone => true
  | .serverHandshake => true
  | .serverHandshakeDone => true
  | .clientHandshake => true
  | _ => false

/-- The machine is not where a message is begun or sent. -/
def Busy (c : HttpProxyConnection) : Prop := routine c.state = true

/-- The message of this side is being received. -/
def Receiving (c : HttpProxyConnection) : Side → Prop
  | .client => c.state = .clientRecvRequest
  | .server => c.state = .serverRecvResponse

/-- This side is being sent to. -/
def Sending (c : HttpProxyConnection) : Side → Prop
  | .client => c.state = .clientSend200ok ∨ c.state = .clientSendResponse
  | .server => c.state = .serverSendRequest

/-- No callback of a socket is one of a tunnel. -/
def Plain (s : NetSocket ProxyHandler) : Prop :=
  ∀ channel kind handler, s.channelptr = some channel → channel.callback kind = some handler →
    handler ≠ .sslTunnelReadHandle ∧ handler ≠ .sslTunnelWriteHandle

/-- The descriptor and the registration stay, and there is no callback of a tunnel that was
not there before. -/
structure Mild (s s' : NetSocket ProxyHandler) : Prop extends NetSocket.Kept s s' where
  plain : Plain s → Plain s'

section
variable {s s' s'' : NetSocket ProxyHandler}

theorem Plain.of_channel (plain : Plain s) (same : s'.channelptr = s.channelptr) : Plain s' := by
  intro channel kind handler there bound
  exact plain channel kind handler (same.symm.trans there) bound

theorem plain_of_none (none_ : s.channelptr = none) : Plain s := by
  intro channel kind handler there
  rw [none_] at there
  cases there

theorem Mild.refl : Mild s s := ⟨.refl, id⟩

theorem Mild.trans (first : Mild s s') (second : Mild s' s'') : Mild s s'' :=
  ⟨first.toKept.trans second.toKept, second.plain ∘ first.plain⟩

theorem Mild.of_same (fd : s'.sockfd = s.sockfd) (channel : s'.channelptr = s.channelptr) :
    Mild s s' :=
  ⟨⟨fd, congrArg Option.isSome channel⟩, fun plain => plain.of_channel channel⟩

/-- A channel whose callbacks are plain takes the place of another one. -/
theorem Plain.map (plain : Plain s)
    {change : SocketChannel ProxyHandler → SocketChannel ProxyHandler}
    (callbacks : ∀ channel kind, (change channel).callback kind = channel.callback kind ∨
      ∀ handler, (change channel).callback kind = some handler →
        handler ≠ .sslTunnelReadHandle ∧ handler ≠ .sslTunnelWriteHandle)
    (changed : s'.channelptr = s.channelptr.map change) : Plain s' := by
  intro channel kind handler there bound
  rw [changed] at there
  obtain ⟨before, here, rfl⟩ := Option.map_eq_some_iff.mp there
  rcases callbacks before kind with same | fine
  · exact plain before kind handler here (same.symm.trans bound)
  · exact fine handler bound

theorem switchEvent_mild (event : SocketEvent) (on : Bool) : Mild s (s.switchEvent event on) := by
  refine ⟨NetSocket.switchEvent_kept event on, fun plain => ?_⟩
  rw [NetSocket.switchEvent]
  split_ifs
  · refine plain.map (fun channel kind => Or.inl ?_) rfl
    cases event with
    | socketEventNone => rfl
    | socketEventRead => cases kind <;> rfl
    | socketEventWrite => cases kind <;> rfl
  · exact plain

theorem enableEvent_mild (event : SocketEvent) : Mild s (s.enableEvent event) :=
  switchEvent_mild event true

theorem disableEvent_mild (event : SocketEvent) : Mild s (s.disableEvent event) :=
  switchEvent_mild event false

theorem reading_mild : Mild s s.enableReadEvent.disableWriteEvent :=
  (enableEvent_mild .socketEventRead).trans (disableEvent_mild .socketEventWrite)

theorem writing_mild : Mild s s.enableWriteEvent.disableReadEvent :=
  (enableEvent_mild .socketEventWrite).trans (disableEvent_mild .socketEventRead)

theorem quiet_mild : Mild s s.disableReadEvent.disableWriteEvent :=
  (disableEvent_mild .socketEventRead).trans (disableEvent_mild .socketEventWrite)

theorem setEventHandle_plain (plain : Plain s) {handler : ProxyHandler} (event : SocketEvent)
    (fine : handler ≠ .sslTunnelReadHandle ∧ handler ≠ .sslTunnelWriteHandle) :
    Plain (s.setEventHandle handler event) := by
  refine plain.map (fun channel kind => ?_) rfl
  cases event with
  | socketEventNone => exact Or.inl rfl
  | socketEventRead =>
    cases kind with
    | readable => exact Or.inr fun _ bound => Option.some.inj bound ▸ fine
    | _ => exact Or.inl rfl
  | socketEventWrite =>
    cases kind with
    | writeable => exact Or.inr fun _ bound => Option.some.inj bound ▸ fine
    | _ => exact Or.inl rfl

/-- The callbacks of a connection are plain. -/
theorem setHandles_plain (plain : Plain s) :
    Plain (s.setHandles .readHandle .errorHandle .rdhupHandle .timeoutHandle) := by
  refine plain.map (fun channel kind => ?_) rfl
  cases kind with
  | writeable => exact Or.inl rfl
  | _ => exact Or.inr fun _ bound => by cases bound; exact ⟨nofun, nofun⟩

theorem registerChannel_plain (plain : Plain s) : Plain s.registerChannel := by
  rw [NetSocket.registerChannel]
  split_ifs
  · intro channel kind handler there bound
    obtain rfl := Option.some.inj there
    cases channels : s.channelptr with
    | none =>
      rw [channels] at bound
      cases kind <;> cases bound
    | some before =>
      rw [channels] at bound
      exact plain before kind handler channels bound
  · exact plain

theorem close_plain (plain : Plain s) (shutdown : Option SocketEvent) :
    Plain (s.close shutdown).2 := by
  rcases NetSocket.close_cases s shutdown with ⟨event, _, _, eq⟩ | ⟨_, eq⟩
  · rw [eq]
    exact plain.of_channel rfl
  · rw [eq]
    exact plain_of_none rfl

theorem refused_plain (plain : Plain s) (fd : Option Nat) (shutdown : Option SocketEvent) :
    Plain ({ s with sockfd := fd }.close shutdown).2 := by
  have other : Plain { s with sockfd := fd } := plain.of_channel rfl
  exact close_plain other shutdown

theorem connected_plain (plain : Plain s) (fd : Nat) :
    Plain (({ s with sockfd := some fd }.registerChannel.setEventHandle .writeHandle
      .socketEventWrite).setHandles .readHandle .errorHandle .rdhupHandle .timeoutHandle) := by
  have other : Plain { s with sockfd := some fd } := plain.of_channel rfl
  exact setHandles_plain (setEventHandle_plain (registerChannel_plain other) _ ⟨nofun, nofun⟩)

theorem closeSocket_plain (plain : Plain s) (shutdown : Option SocketEvent) :
    Plain (closeSocket s shutdown).2 := by
  rw [closeSocket]
  rcases NetSocket.close_cases s shutdown with ⟨event, _, _, eq⟩ | ⟨_, eq⟩
  · rw [eq]
    dsimp only
    split_ifs
    · have quiet : Plain ({ s with serrno := event }.disableReadEvent.disableWriteEvent) :=
        quiet_mild.plain (plain.of_channel rfl)
      split
      · exact plain_of_none rfl
      · exact (enableEvent_mild _).plain (setEventHandle_plain quiet _ ⟨by decide, by decide⟩)
    · exact plain.of_channel rfl
  · rw [eq]
    exact plain_of_none rfl

end

/-- The state, the messages, and what is known of the server are as they were. -/
structure Untouched (c c' : HttpProxyConnection) : Prop where
  state : c'.state = c.state
  request : c'.request = c.request
  response : c'.response = c.response
  host : c'.host = c.host
  port : c'.port = c.port
  resolver : c'.resolver = c.resolver
  peer : c'.peer = c.peer
  client : c'.mClient.exist = c.mClient.exist
  server : c'.mServer.exist = c.mServer.exist

section
variable {c c' c'' : HttpProxyConnection} {side : Side}

theorem Untouched.refl : Untouched c c := ⟨rfl, rfl, rfl, rfl, rfl, rfl, rfl, rfl, rfl⟩

theorem Untouched.trans (first : Untouched c c') (second : Untouched c' c'') : Untouched c c'' where
  state := second.state.trans first.state
  request := second.request.trans first.request
  response := second.response.trans first.response
  host := second.host.trans first.host
  port := second.port.trans first.port
  resolver := second.resolver.trans first.resolver
  peer := second.peer.trans first.peer
  client := second.client.trans first.client
  server := second.server.trans first.server

theorem Busy.of_state (busy : Busy c) (same : c'.state = c.state) : Busy c' := by
  rw [Busy, same]
  exact busy

theorem Receiving.of_state (receiving : Receiving c side) (same : c'.state = c.state) :
    Receiving c' side := by
  cases side with
  | client => exact same.trans receiving
  | server => exact same.trans receiving

theorem Receiving.busy (receiving : Receiving c side) : Busy c := by
  cases side with
  | client => exact congrArg routine receiving
  | server => exact congrArg routine receiving

theorem Sending.of_state (sending : Sending c side) (same : c'.state = c.state) :
    Sending c' side := by
  cases side with
  | client => exact sending.imp same.trans same.trans
  | server => exact same.trans sending

theorem onSocket_untouched {change : NetSocket ProxyHandler → NetSocket ProxyHandler}
    (kept : ∀ s, NetSocket.Kept s (change s)) : Untouched c (c.onSocket side change) := by
  cases side with
  | client => exact ⟨rfl, rfl, rfl, rfl, rfl, rfl, rfl, (kept _).exist, rfl⟩
  | server => exact ⟨rfl, rfl, rfl, rfl, rfl, rfl, rfl, rfl, (kept _).exist⟩

theorem afterSSL_mild (event : Option SocketEvent) (s : NetSocket ProxyHandler) :
    Mild s (afterSSL s event) := by
  cases event with
  | none =>
    rw [afterSSL]
    split_ifs
    · exact .of_same rfl rfl
    · exact .refl
  | some event =>
    rw [afterSSL]
    split_ifs
    · exact .of_same rfl rfl
    · exact .refl

theorem afterSSL_kept (event : Option SocketEvent) (s : NetSocket ProxyHandler) :
    NetSocket.Kept s (afterSSL s event) := (afterSSL_mild event s).toKept

theorem recvNIO_untouched (read : SocketRead) : Untouched c ( c.recvNIO side read).2 := by
  rw [ recvNIO]
  have filled : Untouched c ((c.withInBuffer side ((c.inBuffer side).addData read.data)).note
      (.received side read.data)) := by
    cases side with
    | client => exact ⟨rfl, rfl, rfl, rfl, rfl, rfl, rfl, rfl, rfl⟩
    | server => exact ⟨rfl, rfl, rfl, rfl, rfl, rfl, rfl, rfl, rfl⟩
  split_ifs
  · exact .refl
  · cases read.ending with
    | blocked waits => exact filled.trans (onSocket_untouched (afterSSL_kept _))
    | failed kept => exact filled.trans (onSocket_untouched (afterSSL_kept _))

theorem sendNIO_untouched (sent : SocketSend) : Untouched c ( c.sendNIO side sent).2 := by
  rw [ sendNIO]
  have filled (q : BufferQueue) (action : ProxyAction) :
      Untouched c ((c.withOutBuffer side q).note action) := by
    cases side with
    | client => exact ⟨rfl, rfl, rfl, rfl, rfl, rfl, rfl, rfl, rfl⟩
    | server => exact ⟨rfl, rfl, rfl, rfl, rfl, rfl, rfl, rfl, rfl⟩
  split_ifs
  · exact .refl
  · exact (filled _ _).trans (onSocket_untouched (afterSSL_kept _))

theorem recvNIO_log (read : SocketRead) : ( c.recvNIO side read).2.log = c.log ∨
    ( c.recvNIO side read).2.log = .received side read.data :: c.log := by
  rw [ recvNIO]
  split_ifs
  · exact Or.inl rfl
  · cases read.ending with
    | blocked waits =>
      cases side with
      | client => exact Or.inr rfl
      | server => exact Or.inr rfl
    | failed kept =>
      cases side with
      | client => exact Or.inr rfl
      | server => exact Or.inr rfl

def sending (c : HttpProxyConnection) (side : Side) (data : Bytes) : ProxyAction :=
  match side with
  | .client => .answered data c.downstream.msgptr
  | .server => .forwarded data c.request c.peer

theorem sendNIO_log (sent : SocketSend) : ( c.sendNIO side sent).2.log = c.log ∨
    ∃ data, ( c.sendNIO side sent).2.log = c.sending side data :: c.log := by
  rw [ sendNIO]
  split_ifs
  · exact Or.inl rfl
  · cases side with
    | client => exact Or.inr ⟨_, rfl⟩
    | server => exact Or.inr ⟨_, rfl⟩

/-- A handshake only changes the socket. -/
theorem sslHandShake_mild (handshake : Handshake) :
    ∃ change : NetSocket ProxyHandler → NetSocket ProxyHandler,
      (∀ s, Mild s (change s)) ∧ (c.sslHandShake side handshake).2 = c.onSocket side change := by
  cases handshake with
  | sctxIoOk =>
    exact ⟨fun sock => { sock with serrno := .socketEventNone }, fun _ => .of_same rfl rfl, rfl⟩
  | sctxIoRecall waits =>
    refine ⟨fun sock =>
      let sock := { sock with serrno := waits }.disableReadEvent.disableWriteEvent
      sock.enableEvent sock.wanted, fun s => ?_, rfl⟩
    have waiting : Mild s { s with serrno := waits } := .of_same rfl rfl
    exact (waiting.trans quiet_mild).trans (enableEvent_mild _)
  | sctxIoError => exact ⟨NetSocket.destory, fun _ => .of_same rfl rfl, rfl⟩

end

section
variable {c : HttpProxyConnection}

theorem predict_granted (state : c.state = .clientSend200okDone) :
    c.predictNextState = c.enter .serverHandshake := by
  rw [predictNextState, state]

theorem predict_responded (state : c.state = .clientSendResponseDone) :
    c.predictNextState = c.enter .clientRecvRequest := by
  rw [predictNextState, state]

theorem predict_shaken (state : c.state = .clientHandshakeDone) :
    c.predictNextState = c.enter .clientRecvRequest := by
  rw [predictNextState, state]

end

/-- A property that no state and no event of the client matters for. -/
theorem predict_of_enter {Inv : HttpProxyConnection → Prop} {c : HttpProxyConnection}
    (enter : ∀ state, Inv (c.enter state))
    (wake : ∀ c : HttpProxyConnection, Inv c → Inv (c.onSocket .client NetSocket.enableReadEvent))
    (inv : Inv c) : Inv c.predictNextState := by
  rw [predictNextState]
  cases c.state with
  | proxyInit => exact wake _ (enter _)
  | clientRecvRequest =>
    dsimp only
    split_ifs
    · exact enter _
    · exact inv
  | clientRecvRequestDone =>
    dsimp only
    split_ifs
    · exact enter _
    · exact enter _
    · exact enter _
  | tcpTunnel => exact inv
  | _ => exact enter _

/-- The machine may leave its state: when a response is received, it is complete. -/
structure Leaving (c : HttpProxyConnection) : Prop where
  busy : Busy c
  complete : c.state = .serverRecvResponse → c.response.parser.needMoreData = false

theorem Leaving.of_same {c c' : HttpProxyConnection} (leaving : Leaving c)
    (state : c'.state = c.state) (response : c'.response = c.response) : Leaving c' := by
  refine ⟨leaving.busy.of_state state, ?_⟩
  rw [state, response]
  exact leaving.complete

theorem leaving_of {c : HttpProxyConnection} {state : HttpProxyState} (here : c.state = state)
    (left : routine state = true) (other : state ≠ .serverRecvResponse) : Leaving c :=
  ⟨(congrArg routine here).trans left, fun receiving => absurd (here.symm.trans receiving) other⟩

/-- What `notification_` can become. -/
inductive Prepared (n : HttpMessage) : HttpMessage → Prop
  | granted : Prepared n (prepare200Response n)
  | refused {code : Nat} {body : Bytes} {n' : HttpMessage}
      (prepared : prepareResponse code body n = some n') : Prepared n n'

theorem notify503_cases {c c' : HttpProxyConnection} (notified : c.notify503 = some c') :
    ∃ n, prepare503Response c.notification = some n ∧ c' = c.attachNotification n := by
  obtain ⟨n, prepared, rfl⟩ := Option.map_eq_some_iff.mp notified
  exact ⟨n, prepared, rfl⟩

/-- What a request that was parsed leads to. -/
theorem requestParsed_cases {c : HttpProxyConnection} {code : Int} {finish : RoundEnd}
    (parsed : c.requestParsed code = some finish) :
    (∃ n, code = hpParseError ∧ Prepared c.notification n ∧
      finish = (c.attachNotification n).forceCloseServer.advance .client) ∨
    (∃ n, code ≠ hpParseError ∧ prepare503Response c.notification = some n ∧
      finish = (c.attachNotification n).advance .client) ∨
    (∃ ret, code ≠ hpParseError ∧ finish = .returned ret c) ∨
    (∃ ret, code ≠ hpParseError ∧ finish = .returned ret (c.predictNextState.quiet .client)) ∨
    code ≠ hpParseError ∧ finish = c.advance .client := by
  have failed (fine : code ≠ hpParseError)
      (notified : c.notify503.map (fun c => c.advance .client) = some finish) :
      ∃ n, code ≠ hpParseError ∧ prepare503Response c.notification = some n ∧
        finish = (c.attachNotification n).advance .client := by
    obtain ⟨c', attached, rfl⟩ := Option.map_eq_some_iff.mp notified
    obtain ⟨n, prepared, rfl⟩ := notify503_cases attached
    exact ⟨n, fine, prepared, rfl⟩
  rw [requestParsed] at parsed
  split_ifs at parsed with rejected partly
  · obtain ⟨c', attached, rfl⟩ := Option.map_eq_some_iff.mp parsed
    obtain ⟨n, prepared, rfl⟩ := Option.map_eq_some_iff.mp attached
    exact Or.inl ⟨n, rejected, .refused prepared, rfl⟩
  · cases server : c.getServerConnectState with
    | serverConnectError =>
      rw [server] at parsed
      exact Or.inr (Or.inl (failed rejected parsed))
    | serverConnectUinit =>
      rw [server] at parsed
      exact Or.inr (Or.inr (Or.inl ⟨_, rejected, (Option.some.inj parsed).symm⟩))
    | serverConnectIng =>
      rw [server] at parsed
      exact Or.inr (Or.inr (Or.inl ⟨_, rejected, (Option.some.inj parsed).symm⟩))
    | serverConnectDone =>
      rw [server] at parsed
      exact Or.inr (Or.inr (Or.inl ⟨_, rejected, (Option.some.inj parsed).symm⟩))
  · cases server : c.getServerConnectState with
    | serverConnectError =>
      rw [server] at parsed
      exact Or.inr (Or.inl (failed rejected parsed))
    | serverConnectUinit =>
      rw [server] at parsed
      exact Or.inr (Or.inr (Or.inr (Or.inr ⟨rejected, (Option.some.inj parsed).symm⟩)))
    | serverConnectIng =>
      rw [server] at parsed
      exact Or.inr (Or.inr (Or.inr (Or.inl ⟨_, rejected, (Option.some.inj parsed).symm⟩)))
    | serverConnectDone =>
      rw [server] at parsed
      exact Or.inr (Or.inr (Or.inr (Or.inr ⟨rejected, (Option.some.inj parsed).symm⟩)))

/-- A property that is kept by everything but the connecting, the parsing, the sending, the
notifications, the tunnels, and the beginning of a message. -/
structure Lasting (Inv : HttpProxyConnection → Prop) : Prop where
  socket : ∀ c side change,
    ((change (c.socket side)).exist = true → (c.socket side).exist = true) →
      (Plain (c.socket side) → Plain (change (c.socket side))) →
        Inv c → Inv (c.onSocket side change)
  respond : ∀ c, c.downstream.isSendDone = false → Inv c → Inv (c.enter .clientSendResponse)
  recycle : ∀ c, Inv c → Inv c.recycle
  predict : ∀ c, Leaving c → Inv c → Inv c.predictNextState
  recvNIO : ∀ c side read, Receiving c side → Inv c → Inv ( c.recvNIO side read).2
  handleCalled : ∀ c ret, Inv c → Inv (c.handleCalled ret)
  answered : ∀ c, Inv c → Inv { c with resolver := { c.resolver with query := none } }
  queue : ∀ c gc, Inv c → Inv { c with gc := gc }
  handedOut : ∀ c, Inv c → Inv (c.note .handedOut)
  accept : ∀ c fd, Inv c → Inv (c.acceptClient fd)

/-- A property that is kept by everything but the connecting, the parsing, the tunnels, and the
beginning of a message. -/
structure Stable (Inv : HttpProxyConnection → Prop) : Prop where
  socket : ∀ c side change,
    ((change (c.socket side)).exist = true → (c.socket side).exist = true) →
      (Plain (c.socket side) → Plain (change (c.socket side))) →
        Inv c → Inv (c.onSocket side change)
  respond : ∀ c, c.downstream.isSendDone = false → Inv c → Inv (c.enter .clientSendResponse)
  recycle : ∀ c, Inv c → Inv c.recycle
  predict : ∀ c, Busy c → Inv c → Inv c.predictNextState
  sentAll : ∀ c side, Sending c side → (c.outBuffer side).isSendDone = true → Inv c →
    Inv c.predictNextState
  recvNIO : ∀ c side read, Receiving c side → Inv c → Inv ( c.recvNIO side read).2
  sendNIO : ∀ c side sent, Sending c side → Inv c → Inv ( c.sendNIO side sent).2
  notify : ∀ c n, Prepared c.notification n → Inv c → Inv (c.attachNotification n)
  handleCalled : ∀ c ret, Inv c → Inv (c.handleCalled ret)
  answered : ∀ c, Inv c → Inv { c with resolver := { c.resolver with query := none } }
  queue : ∀ c gc, Inv c → Inv { c with gc := gc }
  handedOut : ∀ c, Inv c → Inv (c.note .handedOut)
  accept : ∀ c fd, Inv c → Inv (c.acceptClient fd)

theorem Stable.lasting {Inv : HttpProxyConnection → Prop} (stable : Stable Inv) : Lasting Inv where
  socket := stable.socket
  respond := stable.respond
  recycle := stable.recycle
  predict c leaving := stable.predict c leaving.busy
  recvNIO := stable.recvNIO
  handleCalled := stable.handleCalled
  answered := stable.answered
  queue := stable.queue
  handedOut := stable.handedOut
  accept := stable.accept

section
variable {Inv : HttpProxyConnection → Prop} {c : HttpProxyConnection} {side : Side} {r : Round}

theorem Lasting.mild (lasting : Lasting Inv)
    {change : NetSocket ProxyHandler → NetSocket ProxyHandler}
    (mild : ∀ s, Mild s (change s)) (inv : Inv c) : Inv (c.onSocket side change) :=
  lasting.socket c side change (fun there => (mild _).exist.symm.trans there) (mild _).plain inv

theorem Lasting.wake (lasting : Lasting Inv) (event : SocketEvent) (inv : Inv c) :
    Inv (c.onSocket side fun sock => sock.enableEvent event) :=
  lasting.mild (fun _ => enableEvent_mild event) inv

theorem Lasting.wakeRead (lasting : Lasting Inv) (inv : Inv c) :
    Inv (c.onSocket side NetSocket.enableReadEvent) :=
  lasting.mild (fun _ => enableEvent_mild _) inv

theorem Lasting.wakeWrite (lasting : Lasting Inv) (inv : Inv c) :
    Inv (c.onSocket side NetSocket.enableWriteEvent) :=
  lasting.mild (fun _ => enableEvent_mild _) inv

theorem Lasting.quiet (lasting : Lasting Inv) (inv : Inv c) : Inv (c.quiet side) :=
  lasting.mild (fun _ => quiet_mild) inv

theorem Lasting.tcpClose (lasting : Lasting Inv) (inv : Inv c) :
    Inv (c.onSocket side NetSocket.tcpClose) :=
  lasting.socket c side NetSocket.tcpClose nofun (fun _ => plain_of_none rfl) inv

theorem Lasting.forceCloseServer (lasting : Lasting Inv) (inv : Inv c) :
    Inv c.forceCloseServer := by
  have closed : Inv (c.onSocket .server NetSocket.tcpClose) := lasting.tcpClose inv
  rw [HttpProxyConnection.forceCloseServer]
  split_ifs
  · exact lasting.recycle _ closed
  · exact closed

theorem Lasting.forceCloseProxy (lasting : Lasting Inv) (inv : Inv c) : Inv c.forceCloseProxy :=
  lasting.forceCloseServer (lasting.tcpClose inv)

theorem Lasting.forceClose (lasting : Lasting Inv) (inv : Inv c) : Inv (c.forceClose side) := by
  rw [HttpProxyConnection.forceClose]
  split_ifs
  · exact lasting.forceCloseProxy inv
  · exact lasting.forceCloseServer inv

theorem Lasting.serverClosed (lasting : Lasting Inv) (inv : Inv c) : Inv c.serverClosed.2 := by
  rw [HttpProxyConnection.serverClosed]
  split_ifs
  · exact lasting.recycle c inv
  · rename_i unsent
    dsimp only
    exact lasting.wakeWrite (lasting.respond c (by simpa using unsent) inv)
  · dsimp only
    exact lasting.wakeRead inv

theorem Lasting.closeServer (lasting : Lasting Inv) (shutdown : Side → Option SocketEvent)
    (inv : Inv c) : Inv (c.closeServer shutdown).2 := by
  rw [HttpProxyConnection.closeServer]
  rcases closeSocket_cases c.mServer (shutdown .server) with ⟨s, eq, kept⟩ | eq
  · have plain := @closeSocket_plain c.mServer
    rw [eq]
    refine lasting.socket c .server (fun _ => s) (fun there => kept.exist.symm.trans there)
      (fun before => ?_) inv
    have after := plain before (shutdown .server)
    rwa [eq] at after
  · rw [eq]
    have closed : Inv (c.onSocket .server NetSocket.tcpClose) := lasting.tcpClose inv
    exact lasting.serverClosed closed

theorem Lasting.clientClosed (lasting : Lasting Inv) (shutdown : Side → Option SocketEvent)
    (inv : Inv c) : Inv (c.clientClosed shutdown).2 := by
  rw [HttpProxyConnection.clientClosed]
  split_ifs
  · exact lasting.recycle c inv
  · exact lasting.closeServer shutdown inv

theorem Lasting.closeHandle (lasting : Lasting Inv) (shutdown : Side → Option SocketEvent)
    (side : Side) (inv : Inv c) : Inv (c.closeHandle shutdown side).2 := by
  cases side with
  | server => exact lasting.closeServer shutdown inv
  | client =>
    rw [HttpProxyConnection.closeHandle]
    rcases closeSocket_cases c.mClient (shutdown .client) with ⟨s, eq, kept⟩ | eq
    · have plain := @closeSocket_plain c.mClient
      rw [eq]
      refine lasting.socket c .client (fun _ => s) (fun there => kept.exist.symm.trans there)
        (fun before => ?_) inv
      have after := plain before (shutdown .client)
      rwa [eq] at after
    · rw [eq]
      have closed : Inv (c.onSocket .client NetSocket.tcpClose) := lasting.tcpClose inv
      exact lasting.clientClosed shutdown closed

theorem forceCloseServer_busy (busy : Busy c) : Busy c.forceCloseServer := by
  rw [HttpProxyConnection.forceCloseServer]
  split_ifs
  · rfl
  · exact busy

theorem connectServer_state (host : Bytes) (address : Option ConnectResult) :
    (c.connectServer host address).2.state = c.state := by
  cases address with
  | none => rfl
  | some address =>
    cases address with
    | invalid => rfl
    | failed fd shutdown => rfl
    | opened fd => rfl

theorem resolve_state (host : Bytes) (lookup : Lookup) :
    (c.resolve host lookup).state = c.state := by
  cases lookup with
  | found address => exact connectServer_state host address
  | failed => rfl
  | asked => rfl

theorem labelHead_state (method : Bytes) : (c.labelHead method).state = c.state := by
  rw [labelHead]
  split_ifs
  · rfl
  · rfl

theorem seekServer_busy (busy : Busy c) (host port : Bytes) (lookup : Lookup) :
    Busy (c.seekServer host port lookup) := by
  rw [seekServer]
  split_ifs
  · exact (forceCloseServer_busy busy).of_state (resolve_state ..)
  · exact busy

theorem requestHeaderCompleteHandle_busy {c' : HttpProxyConnection} (busy : Busy c)
    {lookup : Lookup} {message : HttpMessage}
    (called : c.requestHeaderCompleteHandle lookup message = some c') : Busy c' := by
  obtain ⟨⟨host, request⟩, _, rfl⟩ := Option.map_eq_some_iff.mp called
  have busy : Busy ({ c with request := request.getHostPort.2 }.labelHead message.method) :=
    busy.of_state (labelHead_state _)
  exact (seekServer_busy busy host request.getHostPort.1 lookup).of_state rfl

theorem Lasting.advance (lasting : Lasting Inv) (leaving : Leaving c) (inv : Inv c) :
    Inv (c.advance side).connection :=
  lasting.quiet (lasting.predict c leaving inv)

theorem Stable.advance (stable : Stable Inv) (busy : Busy c) (inv : Inv c) :
    Inv (c.advance side).connection :=
  stable.lasting.quiet (stable.predict c busy inv)

theorem Stable.notify503 (stable : Stable Inv) (inv : Inv c) {c' : HttpProxyConnection}
    (notified : c.notify503 = some c') : Inv c' := by
  obtain ⟨n, prepared, rfl⟩ := notify503_cases notified
  exact stable.notify c n (.refused prepared) inv

theorem Stable.requestParsed (stable : Stable Inv) (busy : Busy c) (inv : Inv c) {code : Int}
    {finish : RoundEnd} (parsed : c.requestParsed code = some finish) :
    Inv finish.connection := by
  rcases requestParsed_cases parsed with ⟨n, _, prepared, rfl⟩ | ⟨n, _, prepared, rfl⟩ |
    ⟨ret, _, rfl⟩ | ⟨ret, _, rfl⟩ | ⟨_, rfl⟩
  · have notified := stable.lasting.forceCloseServer (stable.notify c n prepared inv)
    exact stable.advance (forceCloseServer_busy busy) notified
  · exact stable.advance busy (stable.notify c n (.refused prepared) inv)
  · exact inv
  · exact stable.lasting.quiet (stable.predict c busy inv)
  · exact stable.advance busy inv

theorem Stable.responseParsed (stable : Stable Inv) (busy : Busy c) (inv : Inv c) (code : Int) :
    Inv (c.responseParsed code).connection := by
  rw [HttpProxyConnection.responseParsed]
  split_ifs
  · exact stable.lasting.forceCloseProxy inv
  · exact inv
  · exact stable.advance busy inv

/-- An event of a socket that is waited for. -/
theorem Lasting.waitFor (lasting : Lasting Inv) (event : SocketEvent) (inv : Inv c) :
    Inv ((c.quiet side).onSocket side fun sock => sock.enableEvent event) :=
  lasting.wake event (lasting.quiet inv)

/-- What a case that sends does keeps the property. -/
def Sends (Inv : HttpProxyConnection → Prop) (c : HttpProxyConnection) (side : Side) (r : Round) :
    Prop :=
  ∀ change, (∀ s, Mild s (change s)) → ∀ c₁, c₁ = c.onSocket side change →
    Inv ( c₁.sendNIO side r.sent).2 ∧
      ((( c₁.sendNIO side r.sent).2.outBuffer side).isSendDone = true →
        Inv ( c₁.sendNIO side r.sent).2.predictNextState)

theorem Stable.sends (stable : Stable Inv) (sending : Sending c side) (inv : Inv c) :
    Sends Inv c side r := by
  rintro change mild _ rfl
  have same : Untouched c (c.onSocket side change) := onSocket_untouched fun s => (mild s).toKept
  have sending := sending.of_state same.state
  have sent := stable.sendNIO _ side r.sent sending (stable.lasting.mild mild inv)
  exact ⟨sent, fun done => stable.sentAll _ side
    (sending.of_state (sendNIO_untouched r.sent).state) done sent⟩

theorem Lasting.sendMessage (lasting : Lasting Inv) (sends : Sends Inv c side r) :
    Inv (c.sendMessage side r).connection := by
  obtain ⟨inv, all⟩ := sends (fun sock => sock.enableWriteEvent.disableReadEvent)
    (fun _ => writing_mild) _ rfl
  rw [HttpProxyConnection.sendMessage]
  dsimp only
  generalize HttpProxyConnection.sendNIO (c.onSocket side fun sock =>
    sock.enableWriteEvent.disableReadEvent) side r.sent = answer at *
  obtain ⟨sendn, c₂⟩ := answer
  dsimp only at inv all
  split_ifs with failed unsent
  · exact lasting.closeHandle r.shutdown side inv
  · cases (c₂.socket side).wanted with
    | socketEventNone => exact inv
    | socketEventRead => exact lasting.waitFor _ inv
    | socketEventWrite => exact lasting.waitFor _ inv
  · exact lasting.quiet (all (by simpa using unsent))

theorem Lasting.prepare (lasting : Lasting Inv) (prepared : Bool) (inv : Inv c) :
    Inv (c.onSocket side fun sock => sock.prepareSSLContext prepared) :=
  lasting.mild (fun _ => .of_same rfl rfl) inv

/-- `predictNextState` is the first thing. -/
theorem Lasting.sendDone (lasting : Lasting Inv) (inv : Inv c.predictNextState) :
    Inv (c.sendDone r).connection := by
  rw [HttpProxyConnection.sendDone]
  dsimp only
  split_ifs
  · exact lasting.forceCloseProxy (lasting.prepare _ inv)
  · exact lasting.forceCloseProxy (lasting.prepare _ (lasting.prepare _ inv))
  · dsimp only [RoundEnd.connection]
    exact lasting.prepare _ (lasting.prepare _ inv)
  · exact inv

/-- A handshake behind a change of the events. -/
theorem Lasting.handshake (lasting : Lasting Inv)
    {change : NetSocket ProxyHandler → NetSocket ProxyHandler}
    (mild : ∀ s, Mild s (change s)) (handshake : Handshake) (leaving : Leaving c)
    (inv : Inv c) : Leaving ((c.onSocket side change).sslHandShake side handshake).2 ∧
      Inv ((c.onSocket side change).sslHandShake side handshake).2 := by
  obtain ⟨shaken, keeps, eq⟩ := @sslHandShake_mild (c.onSocket side change) side handshake
  have same : Untouched c ((c.onSocket side change).onSocket side shaken) :=
    (onSocket_untouched fun s => (mild s).toKept).trans
      (onSocket_untouched fun s => (keeps s).toKept)
  rw [eq]
  exact ⟨leaving.of_same same.state same.response, lasting.mild keeps (lasting.mild mild inv)⟩

theorem Lasting.serverHandshake (lasting : Lasting Inv) (leaving : Leaving c) (inv : Inv c) :
    Inv (c.serverHandshake r).connection := by
  obtain ⟨leaving, inv⟩ := @Lasting.handshake Inv c .server lasting
    (fun sock => sock.enableWriteEvent.disableReadEvent) (fun _ => writing_mild)
    r.handshake leaving inv
  rw [HttpProxyConnection.serverHandshake]
  dsimp only
  split_ifs
  · exact inv
  · exact lasting.forceCloseProxy inv
  · exact lasting.forceCloseProxy inv
  · exact lasting.advance leaving inv

theorem Lasting.clientHandshake (lasting : Lasting Inv) (leaving : Leaving c) (inv : Inv c) :
    Inv (c.clientHandshake r).connection := by
  obtain ⟨leaving, inv⟩ := @Lasting.handshake Inv c .client lasting
    (fun sock => sock.enableReadEvent.disableWriteEvent) (fun _ => reading_mild)
    r.handshake leaving inv
  rw [HttpProxyConnection.clientHandshake]
  dsimp only
  split_ifs
  · exact lasting.forceCloseProxy inv
  · exact inv
  · exact lasting.advance leaving inv

/-- The cases that prepare the next answer. -/
theorem Stable.prepareNext (stable : Stable Inv) (inv : Inv c.predictNextState) :
    Inv (if c.predictNextState.state = .clientSend200ok then c.predictNextState.notify200
      else c.predictNextState) := by
  split_ifs
  · exact stable.notify _ _ .granted inv
  · exact inv

end

end HttpProxyConnection
