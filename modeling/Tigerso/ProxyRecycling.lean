import Tigerso.ProxyRounds

/-!
# http/HttpProxyConnection: recycling

A connection whose sockets are both closed is in the queue of the factory, once. Only an answer
to a query that was overtaken can take the server socket away behind the back of the other
closing functions.
-/

open SystemCalls

namespace HttpProxyConnection
open NetSocket GuardedRuns

/-- How often `recycle` was executed since the connection was handed out. -/
def recycles : List ProxyAction → Nat
  | [] => 0
  | .handedOut :: _ => 0
  | .recycled :: log => recycles log + 1
  | _ :: log => recycles log

/-- What was promised of the queue. -/
structure RecycledOnce (c : HttpProxyConnection) : Prop where
  queued : c.id_ ∈ c.gc ↔ c.closed = true
  once : c.gc.count c.id_ ≤ 1
  recycles : recycles c.log ≤ 1

/-- A server socket that is there is not lost to an attempt to connect it again: when the client
is gone, or there is no descriptor for the attempt, the closing has to wait or not to wait. -/
def Met (c : HttpProxyConnection) : ProxyEvent → Prop
  | .resolved (some (.failed fd shutdown)) _ =>
    c.mServer.exist = true →
      if c.mServer.active && shutdown.isSome then fd.isSome = true else c.mClient.exist = true
  | _ => True

/-- The sockets are where they were, and so is the queue. -/
structure Steady (c c' : HttpProxyConnection) : Prop where
  id_ : c'.id_ = c.id_
  gc : c'.gc = c.gc
  forgotten : c'.forgotten = c.forgotten
  client : Kept c.mClient c'.mClient
  server : Kept c.mServer c'.mServer
  log : recycles c'.log = recycles c.log

/-- A connection that is handed out and not recycled. -/
structure Held (c : HttpProxyConnection) : Prop where
  unqueued : c.id_ ∉ c.gc
  forgotten : c.forgotten = []
  client : Registered c.mClient
  server : Registered c.mServer
  log : recycles c.log = 0

/-- It has a socket. -/
structure Serving (c : HttpProxyConnection) : Prop extends Held c where
  opened : c.closed = false

/-- A connection that waits for the next client. -/
structure Recycled (c : HttpProxyConnection) : Prop where
  client : c.mClient.sockfd = none ∧ c.mClient.channelptr = none
  server : c.mServer.sockfd = none ∧ c.mServer.channelptr = none
  forgotten : c.forgotten = []
  query : c.resolver.query = none
  queued : c.gc.count c.id_ = 1
  log : recycles c.log = 1

/-- Where a call leaves a connection that it was made for. -/
def Settled (c : HttpProxyConnection) : Prop := Serving c ∨ Recycled c

section
variable {c c' c'' : HttpProxyConnection} {side : Side} {lib : ParserLib} {r : Round}

theorem Steady.refl : Steady c c := ⟨rfl, rfl, rfl, .refl, .refl, rfl⟩

theorem Steady.trans (first : Steady c c') (second : Steady c' c'') : Steady c c'' where
  id_ := second.id_.trans first.id_
  gc := second.gc.trans first.gc
  forgotten := second.forgotten.trans first.forgotten
  client := first.client.trans second.client
  server := first.server.trans second.server
  log := second.log.trans first.log

theorem Steady.socket (steady : Steady c c') : Kept (c.socket side) (c'.socket side) := by
  cases side with
  | client => exact steady.client
  | server => exact steady.server

theorem Steady.held (steady : Steady c c') (held : Held c) : Held c' where
  unqueued := by
    rw [steady.id_, steady.gc]
    exact held.unqueued
  forgotten := steady.forgotten.trans held.forgotten
  client := steady.client.registered held.client
  server := steady.server.registered held.server
  log := steady.log.trans held.log

theorem Steady.closed (steady : Steady c c') : c'.closed = c.closed := by
  rw [HttpProxyConnection.closed, HttpProxyConnection.closed, steady.client.exist,
    steady.server.exist]

theorem Serving.client_exist (serving : Serving c) (gone : c.mServer.exist = false) :
    c.mClient.exist = true := by
  have opened := serving.opened
  rw [HttpProxyConnection.closed, gone, Bool.not_false, Bool.and_true] at opened
  rwa [Bool.not_eq_false'] at opened

theorem Held.serving_of_client (held : Held c) (there : c.mClient.exist = true) : Serving c := by
  refine ⟨held, ?_⟩
  rw [HttpProxyConnection.closed, there]
  rfl

theorem Held.serving_of_server (held : Held c) (there : c.mServer.exist = true) : Serving c := by
  refine ⟨held, ?_⟩
  rw [HttpProxyConnection.closed, there]
  exact Bool.and_false _

theorem Steady.serving (steady : Steady c c') (serving : Serving c) : Serving c' :=
  ⟨steady.held serving.toHeld, steady.closed.trans serving.opened⟩

/-- An entry that is none of the two. -/
theorem note_steady {action : ProxyAction}
    (other : recycles (action :: c.log) = recycles c.log) : Steady c (c.note action) :=
  ⟨rfl, rfl, rfl, .refl, .refl, other⟩

theorem enter_steady (state : HttpProxyState) : Steady c (c.enter state) :=
  ⟨rfl, rfl, rfl, .refl, .refl, rfl⟩

theorem onSocket_steady {change : NetSocket ProxyHandler → NetSocket ProxyHandler}
    (kept : ∀ s, Kept s (change s)) : Steady c (c.onSocket side change) := by
  cases side with
  | client => exact ⟨rfl, rfl, rfl, kept _, .refl, rfl⟩
  | server => exact ⟨rfl, rfl, rfl, .refl, kept _, rfl⟩

theorem wakeRead_steady : Steady c (c.onSocket side NetSocket.enableReadEvent) :=
  onSocket_steady fun _ => enableEvent_kept _

theorem wakeWrite_steady : Steady c (c.onSocket side NetSocket.enableWriteEvent) :=
  onSocket_steady fun _ => enableEvent_kept _

theorem quiet_steady : Steady c (c.quiet side) :=
  onSocket_steady fun _ => quiet_kept

theorem predictNextState_steady : Steady c c.predictNextState := by
  rw [predictNextState]
  cases c.state with
  | proxyInit =>
    exact (enter_steady _).trans wakeRead_steady
  | clientRecvRequest =>
    dsimp only
    split_ifs
    · exact enter_steady _
    · exact .refl
  | clientRecvRequestDone =>
    dsimp only
    split_ifs
    · exact enter_steady _
    · exact enter_steady _
    · exact enter_steady _
  | tcpTunnel => exact .refl
  | _ => exact enter_steady _

/-- Bytes were received on a socket that is there, or nothing was. -/
theorem recvNIO_steady (read : SocketRead) :
    Steady c ( c.recvNIO side read).2 ∧
      ((c.socket side).exist = false → ( c.recvNIO side read).1 < 0) := by
  rw [ recvNIO]
  have filled : Steady c ((c.withInBuffer side ((c.inBuffer side).addData read.data)).note
      (.received side read.data)) := by
    cases side with
    | client => exact ⟨rfl, rfl, rfl, .refl, .refl, rfl⟩
    | server => exact ⟨rfl, rfl, rfl, .refl, .refl, rfl⟩
  cases there : (c.socket side).exist with
  | false => exact ⟨.refl, fun _ => (by decide : (-1 : Int) < 0)⟩
  | true =>
    refine ⟨?_, fun wrong => by cases wrong⟩
    cases read.ending with
    | blocked waits => exact filled.trans (onSocket_steady (afterSSL_kept _))
    | failed kept => exact filled.trans (onSocket_steady (afterSSL_kept _))

theorem sendNIO_steady (sent : SocketSend) : Steady c ( c.sendNIO side sent).2 := by
  rw [ sendNIO]
  split_ifs
  · exact .refl
  · have filled (q : BufferQueue) {action : ProxyAction}
        (other : ∀ log, recycles (action :: log) = recycles log) :
        Steady c ((c.withOutBuffer side q).note action) := by
      cases side with
      | client => exact ⟨rfl, rfl, rfl, .refl, .refl, other _⟩
      | server => exact ⟨rfl, rfl, rfl, .refl, .refl, other _⟩
    refine (filled _ ?_).trans (onSocket_steady (afterSSL_kept _))
    cases side with
    | client => exact fun _ => rfl
    | server => exact fun _ => rfl

theorem attachNotification_steady (n : HttpMessage) : Steady c (c.attachNotification n) :=
  ⟨rfl, rfl, rfl, .refl, .refl, rfl⟩

theorem beyond_steady (data : Bytes) : Steady c (beyond lib c side data) := by
  rw [beyond]
  split_ifs
  · exact .refl
  · exact ⟨rfl, rfl, rfl, .refl, .refl, rfl⟩

theorem sslHandShake_steady (handshake : Handshake) :
    Steady c (c.sslHandShake side handshake).2 := by
  cases handshake with
  | sctxIoOk =>
    dsimp only [sslHandShake]
    exact onSocket_steady fun _ => ⟨rfl, rfl⟩
  | sctxIoRecall waits =>
    dsimp only [sslHandShake]
    refine onSocket_steady fun s => ?_
    have waiting : Kept s { s with serrno := waits } := ⟨rfl, rfl⟩
    exact (waiting.trans quiet_kept).trans (enableEvent_kept _)
  | sctxIoError =>
    dsimp only [sslHandShake]
    exact onSocket_steady fun _ => ⟨rfl, rfl⟩

theorem tunnelEvents_steady : Steady c (c.tunnelEvents side) :=
  onSocket_steady fun _ => (((enableEvent_kept _).trans (switchEvent_kept _ _)).trans
    (setEventHandle_kept _ _)).trans (setEventHandle_kept _ _)

theorem onSocket_server_held {change : NetSocket ProxyHandler → NetSocket ProxyHandler}
    (held : Held c) (registered : Registered (change c.mServer)) :
    Held (c.onSocket .server change) :=
  ⟨held.unqueued, held.forgotten, held.client, registered, held.log⟩

theorem onSocket_client_held {change : NetSocket ProxyHandler → NetSocket ProxyHandler}
    (held : Held c) (registered : Registered (change c.mClient)) :
    Held (c.onSocket .client change) :=
  ⟨held.unqueued, held.forgotten, registered, held.server, held.log⟩

/-- When both sockets are closed `reset` forgets no channel. -/
theorem Held.recycle (held : Held c) (closed : c.closed = true) : Recycled c.recycle := by
  rw [HttpProxyConnection.closed, Bool.and_eq_true, Bool.not_eq_true', Bool.not_eq_true'] at closed
  refine ⟨⟨rfl, rfl⟩, ⟨rfl, rfl⟩, ?_, rfl, ?_, congrArg (· + 1) held.log⟩
  · dsimp only [HttpProxyConnection.recycle, note]
    rw [held.client.unregistered closed.1, held.server.unregistered closed.2, held.forgotten]
    rfl
  · dsimp only [HttpProxyConnection.recycle, note]
    rw [List.count_append, List.count_eq_zero.mpr held.unqueued, List.count_singleton_self]

theorem Held.forceCloseServer (held : Held c) : Settled c.forceCloseServer := by
  have closed := onSocket_server_held held (tcpClose_registered c.mServer)
  rw [HttpProxyConnection.forceCloseServer]
  split_ifs with gone
  · refine Or.inr (closed.recycle ?_)
    rw [HttpProxyConnection.closed, gone]
    rfl
  · refine Or.inl ⟨closed, ?_⟩
    rw [HttpProxyConnection.closed, Bool.eq_false_iff.mpr gone]
    rfl

/-- As long as the client is there the connection is not recycled. -/
theorem forceCloseServer_eq (there : c.mClient.exist = true) :
    c.forceCloseServer = c.onSocket .server NetSocket.tcpClose := by
  rw [HttpProxyConnection.forceCloseServer]
  refine if_neg ?_
  rw [Bool.not_eq_true']
  exact fun gone => Bool.false_ne_true (gone.symm.trans there)

theorem Held.forceCloseProxy (held : Held c) : Settled c.forceCloseProxy :=
  (onSocket_client_held held (tcpClose_registered c.mClient)).forceCloseServer

theorem Held.forceClose (held : Held c) : Settled (c.forceClose side) := by
  rw [HttpProxyConnection.forceClose]
  split_ifs
  · exact held.forceCloseProxy
  · exact held.forceCloseServer

theorem Held.serverClosed (held : Held c) : Settled c.serverClosed.2 := by
  rw [HttpProxyConnection.serverClosed]
  split_ifs with closed
  · exact Or.inr (held.recycle closed)
  · have serving : Serving c := ⟨held, Bool.eq_false_iff.mpr closed⟩
    have steady : Steady c ((c.enter .clientSendResponse).onSocket .client
        NetSocket.enableWriteEvent) := (enter_steady _).trans wakeWrite_steady
    exact Or.inl (steady.serving serving)
  · have serving : Serving c := ⟨held, Bool.eq_false_iff.mpr closed⟩
    have steady : Steady c (c.onSocket .client NetSocket.enableReadEvent) := wakeRead_steady
    exact Or.inl (steady.serving serving)

theorem Serving.closeServer (serving : Serving c) (shutdown : Side → Option SocketEvent) :
    Settled (c.closeServer shutdown).2 := by
  rw [HttpProxyConnection.closeServer]
  rcases closeSocket_cases c.mServer (shutdown .server) with ⟨s, eq, kept⟩ | eq
  · have steady : Steady c { c with mServer := s } := ⟨rfl, rfl, rfl, .refl, kept, rfl⟩
    rw [eq]
    exact Or.inl (steady.serving serving)
  · rw [eq]
    exact (onSocket_server_held serving.toHeld (tcpClose_registered c.mServer)).serverClosed

theorem Held.clientClosed (held : Held c) (shutdown : Side → Option SocketEvent) :
    Settled (c.clientClosed shutdown).2 := by
  rw [HttpProxyConnection.clientClosed]
  split_ifs with closed
  · exact Or.inr (held.recycle closed)
  · have serving : Serving c := ⟨held, Bool.eq_false_iff.mpr closed⟩
    exact serving.closeServer shutdown

theorem Serving.closeHandle (serving : Serving c) (shutdown : Side → Option SocketEvent)
    (side : Side) : Settled (c.closeHandle shutdown side).2 := by
  cases side with
  | server => exact serving.closeServer shutdown
  | client =>
    rw [HttpProxyConnection.closeHandle]
    rcases closeSocket_cases c.mClient (shutdown .client) with ⟨s, eq, kept⟩ | eq
    · have steady : Steady c { c with mClient := s } := ⟨rfl, rfl, rfl, kept, .refl, rfl⟩
      rw [eq]
      exact Or.inl (steady.serving serving)
    · rw [eq]
      exact (onSocket_client_held serving.toHeld
        (tcpClose_registered c.mClient)).clientClosed shutdown

/-- The state of the resolver plays no part. -/
theorem resolver_steady (resolver : ProxyResolver) :
    Steady c { c with resolver := resolver } := ⟨rfl, rfl, rfl, .refl, .refl, rfl⟩

theorem handleCalled_steady (ret : Int) : Steady c (c.handleCalled ret) := resolver_steady _

theorem getHostPort_steady : Steady c { c with request := c.request.getHostPort.2 } :=
  ⟨rfl, rfl, rfl, .refl, .refl, rfl⟩

/-- An attempt to connect the server, when no server socket is lost to it. -/
theorem Serving.connectServer (serving : Serving c) (host : Bytes)
    (address : Option ConnectResult)
    (kept : ∀ fd shutdown, address = some (.failed fd shutdown) → c.mServer.exist = true →
      if c.mServer.active && shutdown.isSome then fd.isSome = true
      else c.mClient.exist = true) :
    Serving (c.connectServer host address).2 := by
  cases address with
  | none => exact serving
  | some address =>
    cases address with
    | invalid => exact getHostPort_steady.serving serving
    | opened fd =>
      have there : (c.connectServer host (some (.opened fd))).2.mServer.exist = true :=
        congrArg Option.isSome registerChannel_fd
      have held : Held (c.connectServer host (some (.opened fd))).2 :=
        ⟨serving.unqueued, serving.forgotten, serving.client, registered_of_exist there,
          serving.log⟩
      exact held.serving_of_server there
    | failed fd shutdown =>
      have settled := kept fd shutdown rfl
      have held (s : NetSocket ProxyHandler) (registered : Registered s) :
          Held { c with request := c.request.getHostPort.2, mServer := s } :=
        ⟨serving.unqueued, serving.forgotten, serving.client, registered, serving.log⟩
      suffices left : Serving { c with
          request := c.request.getHostPort.2
          mServer := ({ c.mServer with sockfd := fd.map c.descriptor }.close shutdown).2 } from
        left
      rcases close_cases { c.mServer with sockfd := fd.map c.descriptor } shutdown with
        ⟨event, active, asks, eq⟩ | ⟨ends, eq⟩
      · -- the new descriptor stays open
        have found : c.mServer.exist = true → fd.isSome = true := by
          intro there
          have settled := settled there
          rwa [active, asks, if_pos (by rfl)] at settled
        rw [eq]
        cases there : c.mServer.exist with
        | true =>
          have open_ : ({ c.mServer with
              sockfd := fd.map c.descriptor
              serrno := event } : NetSocket ProxyHandler).exist = true :=
            Option.isSome_map.trans (found there)
          exact (held _ (registered_of_exist open_)).serving_of_server open_
        | false =>
          refine (held _ fun channel => ?_).serving_of_client (serving.client_exist there)
          have none := serving.server.unregistered there
          rw [none] at channel
          cases channel
      · rw [eq]
        refine (held _ (tcpClose_registered _)).serving_of_client ?_
        cases there : c.mServer.exist with
        | false => exact serving.client_exist there
        | true =>
          have settled := settled there
          have ends : (c.mServer.active && shutdown.isSome) = false := by
            rcases ends with plain | done
            · rw [plain]
              rfl
            · rw [done]
              exact Bool.and_false _
          rwa [ends, if_neg Bool.false_ne_true] at settled

theorem Serving.resolve (serving : Serving c) (host : Bytes) (lookup : Lookup)
    (gone : c.mServer.exist = false) : Serving (c.resolve host lookup) := by
  cases lookup with
  | found address =>
    have connected := serving.connectServer host address fun _ _ _ open_ =>
      absurd (gone.symm.trans open_) Bool.false_ne_true
    exact (handleCalled_steady _).serving connected
  | failed =>
    rw [HttpProxyConnection.resolve]
    exact (resolver_steady _).serving serving
  | asked =>
    rw [HttpProxyConnection.resolve]
    exact (resolver_steady _).serving serving

theorem connectServer_client (host : Bytes) (address : Option ConnectResult) :
    (c.connectServer host address).2.mClient = c.mClient := by
  cases address with
  | none => rfl
  | some address =>
    cases address with
    | invalid => rfl
    | failed fd shutdown => rfl
    | opened fd => rfl

theorem resolve_client (host : Bytes) (lookup : Lookup) :
    (c.resolve host lookup).mClient = c.mClient := by
  cases lookup with
  | found address => exact connectServer_client host address
  | failed => rfl
  | asked => rfl

/-- A connection that is served has its client. -/
structure Attended (c : HttpProxyConnection) : Prop extends Serving c where
  client_exist : c.mClient.exist = true

theorem Steady.attended (steady : Steady c c') (attended : Attended c) : Attended c' :=
  ⟨steady.serving attended.toServing, steady.client.exist.trans attended.client_exist⟩

theorem request_steady (request : MessageObject) : Steady c { c with request := request } :=
  ⟨rfl, rfl, rfl, .refl, .refl, rfl⟩

theorem response_steady (response : MessageObject) :
    Steady c { c with response := response } := ⟨rfl, rfl, rfl, .refl, .refl, rfl⟩

theorem labelHead_steady (method : Bytes) : Steady c (c.labelHead method) := by
  rw [labelHead]
  split_ifs
  · exact ⟨rfl, rfl, rfl, .refl, .refl, rfl⟩
  · exact .refl

theorem Attended.forceCloseServer (attended : Attended c) : Attended c.forceCloseServer := by
  have held := onSocket_server_held attended.toHeld (tcpClose_registered c.mServer)
  rw [forceCloseServer_eq attended.client_exist]
  exact ⟨held.serving_of_client attended.client_exist, attended.client_exist⟩

/-- The server socket is closed before a host is looked up. -/
theorem Attended.seekServer (attended : Attended c) (host port : Bytes) (lookup : Lookup) :
    Attended (c.seekServer host port lookup) := by
  rw [HttpProxyConnection.seekServer]
  split_ifs
  · have seeking : Steady c.forceCloseServer { c.forceCloseServer with
        response := c.forceCloseServer.response.clear
        host := host
        port := port
        resolver := { c.forceCloseServer.resolver with callback := true } } :=
      ⟨rfl, rfl, rfl, .refl, .refl, rfl⟩
    have gone : c.forceCloseServer.mServer.exist = false := by
      rw [forceCloseServer_eq attended.client_exist]
      rfl
    obtain ⟨serving, there⟩ := seeking.attended attended.forceCloseServer
    exact ⟨serving.resolve host lookup gone, (congrArg exist (resolve_client ..)).trans there⟩
  · exact attended

theorem Attended.requestHeaderCompleteHandle (attended : Attended c) {lookup : Lookup}
    {message : HttpMessage}
    (called : c.requestHeaderCompleteHandle lookup message = some c') : Attended c' := by
  obtain ⟨⟨host, request⟩, _, rfl⟩ := Option.map_eq_some_iff.mp called
  have labelled := ((request_steady request.getHostPort.2).trans
    (labelHead_steady message.method)).attended attended
  exact (request_steady _).attended (labelled.seekServer host request.getHostPort.1 lookup)

theorem Attended.requestHeaders (attended : Attended c) {lookup : Nat → Lookup} {k : Nat}
    {messages : List HttpMessage} (called : requestHeaders lookup k messages c = some c') :
    Attended c' := by
  induction messages generalizing c k with
  | nil =>
    obtain rfl := Option.some.inj called
    exact attended
  | cons message rest ih =>
    obtain ⟨next, first, called⟩ := Option.bind_eq_some_iff.mp called
    exact ih (attended.requestHeaderCompleteHandle first) called

/-- Where a round leaves the connection. -/
def RoundEnd.Fine : RoundEnd → Prop
  | .returned _ c => Settled c
  | .looping c => Serving c

theorem Serving.advance (serving : Serving c) : (c.advance side).Fine :=
  (predictNextState_steady.trans quiet_steady).serving serving

theorem Attended.requestParsed (attended : Attended c) {code : Int} {finish : RoundEnd}
    (parsed : c.requestParsed code = some finish) : finish.Fine := by
  rcases requestParsed_cases parsed with ⟨n, _, _, rfl⟩ | ⟨n, _, _, rfl⟩ | ⟨ret, _, rfl⟩ |
    ⟨ret, _, rfl⟩ | ⟨_, rfl⟩
  · exact ((attachNotification_steady n).attended attended).forceCloseServer.toServing.advance
  · exact ((attachNotification_steady n).serving attended.toServing).advance
  · exact Or.inl attended.toServing
  · exact Or.inl ((predictNextState_steady.trans quiet_steady).serving attended.toServing)
  · exact attended.toServing.advance

theorem Serving.responseParsed (serving : Serving c) (code : Int) :
    (c.responseParsed code).Fine := by
  rw [HttpProxyConnection.responseParsed]
  split_ifs
  · exact serving.forceCloseProxy
  · exact Or.inl serving
  · exact serving.advance

theorem Serving.parse (serving : Serving c) (there : (c.socket side).exist = true) {data : Bytes}
    {finish : RoundEnd} (parsed : c.parse lib side r data = some finish) : finish.Fine := by
  cases side with
  | client =>
    obtain ⟨⟨answer, request⟩, _, rest⟩ := Option.bind_eq_some_iff.mp parsed
    obtain ⟨c', called, rest⟩ := Option.bind_eq_some_iff.mp rest
    have attended : Attended { c with request := request } :=
      (request_steady request).attended ⟨serving, there⟩
    exact (attended.requestHeaders called).requestParsed rest
  | server =>
    obtain ⟨⟨answer, response⟩, _, rest⟩ := Option.bind_eq_some_iff.mp parsed
    obtain rfl := Option.some.inj rest
    refine Serving.responseParsed ?_ answer.code
    refine (response_steady response).serving ?_
    split_ifs
    · exact (note_steady rfl).serving serving
    · exact serving

theorem Serving.received (serving : Serving c) (there : (c.socket side).exist = true)
    {recvn : Int} {finish : RoundEnd} (done : c.received lib side r recvn = some finish) :
    finish.Fine := by
  rw [HttpProxyConnection.received] at done
  split_ifs at done
  · obtain rfl := Option.some.inj done
    exact serving.advance
  · obtain rfl := Option.some.inj done
    exact Or.inl serving
  · have noted := @beyond_steady c side lib
      (r.received.data.drop (r.received.data.length - recvn.toNat))
    exact (noted.serving serving).parse (noted.socket.exist.trans there) done

/-- An event of a socket that is waited for. -/
theorem waitFor_steady (event : SocketEvent) :
    Steady c ((c.quiet side).onSocket side fun sock => sock.enableEvent event) :=
  quiet_steady.trans (onSocket_steady fun _ => enableEvent_kept _)

/-- A message that is read whole, or in part, leaves the connection as it should be. -/
theorem Serving.recvMessage (serving : Serving c) {finish : RoundEnd}
    (done : c.recvMessage lib side r = some finish) : finish.Fine := by
  have reading : Steady c (c.onSocket side fun sock => sock.enableReadEvent.disableWriteEvent) :=
    onSocket_steady fun _ => reading_kept
  rw [HttpProxyConnection.recvMessage] at done
  dsimp only at done
  generalize (c.onSocket side fun sock => sock.enableReadEvent.disableWriteEvent) = c₁ at *
  have serving := reading.serving serving
  obtain ⟨steady, nothing⟩ : Steady c₁ ( c₁.recvNIO side r.received).2 ∧
      ((c₁.socket side).exist = false → ( c₁.recvNIO side r.received).1 < 0) :=
    recvNIO_steady r.received
  generalize c₁.recvNIO side r.received = answer at *
  obtain ⟨recvn, c₂⟩ := answer
  dsimp only at steady nothing done
  have serving := steady.serving serving
  split_ifs at done with failed
  · obtain rfl := Option.some.inj done
    exact serving.closeHandle r.shutdown side
  · have there : (c₂.socket side).exist = true := by
      rw [steady.socket.exist]
      cases exists_ : (c₁.socket side).exist with
      | true => rfl
      | false => exact absurd (nothing exists_) failed
    have waits (event : SocketEvent) {finish : RoundEnd}
        (done : HttpProxyConnection.received lib
          ((c₂.quiet side).onSocket side fun sock => sock.enableEvent event) side r recvn =
            some finish) : finish.Fine :=
      ((waitFor_steady event).serving serving).received
        ((waitFor_steady event).socket.exist.trans there) done
    cases wanted : (c₂.socket side).wanted with
    | socketEventNone =>
      rw [wanted] at done
      exact serving.received there done
    | socketEventRead =>
      rw [wanted] at done
      have other : ¬(recvn = 0 ∧ SocketEvent.socketEventRead = .socketEventWrite) :=
        fun both => nomatch both.2
      exact waits _ ((if_neg other).symm.trans done)
    | socketEventWrite =>
      rw [wanted] at done
      dsimp only at done
      split_ifs at done
      · obtain rfl := Option.some.inj done
        exact Or.inl ((waitFor_steady _).serving serving)
      · exact waits _ done

theorem Serving.sendMessage (serving : Serving c) : (c.sendMessage side r).Fine := by
  have writing : Steady c (c.onSocket side fun sock => sock.enableWriteEvent.disableReadEvent) :=
    onSocket_steady fun _ => writing_kept
  rw [HttpProxyConnection.sendMessage]
  dsimp only
  generalize (c.onSocket side fun sock => sock.enableWriteEvent.disableReadEvent) = c₁ at *
  have steady : Steady c₁ ( c₁.sendNIO side r.sent).2 := sendNIO_steady r.sent
  generalize c₁.sendNIO side r.sent = answer at *
  obtain ⟨sendn, c₂⟩ := answer
  have serving := steady.serving (writing.serving serving)
  split_ifs
  · exact serving.closeHandle r.shutdown side
  · cases (c₂.socket side).wanted with
    | socketEventNone => exact Or.inl serving
    | socketEventRead => exact Or.inl ((waitFor_steady _).serving serving)
    | socketEventWrite => exact Or.inl ((waitFor_steady _).serving serving)
  · exact serving.advance

theorem prepare_steady (prepared : Bool) :
    Steady c (c.onSocket side fun sock => sock.prepareSSLContext prepared) :=
  onSocket_steady fun _ => ⟨rfl, rfl⟩

theorem Serving.sendDone (serving : Serving c) : (c.sendDone r).Fine := by
  have serving := predictNextState_steady.serving serving
  rw [HttpProxyConnection.sendDone]
  dsimp only
  generalize c.predictNextState = c₁ at *
  have server : Steady c₁ (c₁.onSocket .server fun sock =>
      sock.prepareSSLContext (r.prepared .server)) := prepare_steady _
  have client : Steady c₁ ((c₁.onSocket .server fun sock =>
      sock.prepareSSLContext (r.prepared .server)).onSocket .client fun sock =>
        sock.prepareSSLContext (r.prepared .client)) := server.trans (prepare_steady _)
  split_ifs
  · exact (server.serving serving).forceCloseProxy
  · exact (client.serving serving).forceCloseProxy
  · exact client.serving serving
  · exact serving

theorem Serving.serverHandshake (serving : Serving c) : (c.serverHandshake r).Fine := by
  have writing : Steady c (c.onSocket .server fun sock =>
      sock.enableWriteEvent.disableReadEvent) := onSocket_steady fun _ => writing_kept
  rw [HttpProxyConnection.serverHandshake]
  dsimp only
  generalize (c.onSocket .server fun sock => sock.enableWriteEvent.disableReadEvent) = c₁ at *
  have steady : Steady c₁ (c₁.sslHandShake .server r.handshake).2 := sslHandShake_steady _
  have serving := (writing.trans steady).serving serving
  split_ifs
  · exact Or.inl serving
  · exact serving.forceCloseProxy
  · exact serving.forceCloseProxy
  · exact serving.advance

theorem Serving.clientHandshake (serving : Serving c) : (c.clientHandshake r).Fine := by
  have reading : Steady c (c.onSocket .client fun sock =>
      sock.enableReadEvent.disableWriteEvent) := onSocket_steady fun _ => reading_kept
  rw [HttpProxyConnection.clientHandshake]
  dsimp only
  generalize (c.onSocket .client fun sock => sock.enableReadEvent.disableWriteEvent) = c₁ at *
  have steady : Steady c₁ (c₁.sslHandShake .client r.handshake).2 := sslHandShake_steady _
  have serving := (reading.trans steady).serving serving
  split_ifs
  · exact serving.forceCloseProxy
  · exact Or.inl serving
  · exact serving.advance

/-- The state and the messages play no part. -/
theorem messages_steady (state : HttpProxyState) (request response : MessageObject) :
    Steady c { c with state := state, request := request, response := response } :=
  ⟨rfl, rfl, rfl, .refl, .refl, rfl⟩

/-- The cases that prepare the next answer. -/
theorem Serving.prepareNext (serving : Serving c) :
    Serving (if c.predictNextState.state = .clientSend200ok then c.predictNextState.notify200
      else c.predictNextState) := by
  split_ifs
  · exact (predictNextState_steady.trans (attachNotification_steady _)).serving serving
  · exact predictNextState_steady.serving serving

/-- So does every case of the switch. -/
theorem Serving.round (serving : Serving c) {finish : RoundEnd}
    (done : c.round lib r = some finish) : finish.Fine := by
  rw [HttpProxyConnection.round] at done
  cases state : c.state with
  | proxyInit =>
    rw [state] at done
    obtain rfl := Option.some.inj done
    exact ((messages_steady _ _ _).trans predictNextState_steady).serving serving
  | clientRecvRequest =>
    rw [state] at done
    exact ((messages_steady _ _ _).serving serving).recvMessage done
  | serverRecvResponse =>
    rw [state] at done
    exact serving.recvMessage done
  | clientRecvRequestDone =>
    rw [state] at done
    obtain rfl := Option.some.inj done
    exact serving.prepareNext
  | serverRecvResponseDone =>
    rw [state] at done
    obtain rfl := Option.some.inj done
    exact serving.prepareNext
  | clientSend200ok =>
    rw [state] at done
    obtain rfl := Option.some.inj done
    exact serving.sendMessage
  | clientSendResponse =>
    rw [state] at done
    obtain rfl := Option.some.inj done
    exact serving.sendMessage
  | serverSendRequest =>
    rw [state] at done
    obtain rfl := Option.some.inj done
    exact serving.sendMessage
  | clientSend200okDone =>
    rw [state] at done
    obtain rfl := Option.some.inj done
    exact ((messages_steady _ _ _).serving serving).sendDone
  | clientSendResponseDone =>
    rw [state] at done
    obtain rfl := Option.some.inj done
    exact ((messages_steady _ _ _).serving serving).sendDone
  | serverSendRequestDone =>
    rw [state] at done
    obtain rfl := Option.some.inj done
    exact serving.sendDone
  | tcpTunnel =>
    rw [state] at done
    obtain rfl := Option.some.inj done
    exact (tunnelEvents_steady.trans tunnelEvents_steady).serving serving
  | serverHandshake =>
    rw [state] at done
    obtain rfl := Option.some.inj done
    exact serving.serverHandshake
  | serverHandshakeDone =>
    rw [state] at done
    have serving := predictNextState_steady.serving serving
    dsimp only at done
    split_ifs at done
    · obtain rfl := Option.some.inj done
      exact serving.forceCloseProxy
    · obtain rfl := Option.some.inj done
      exact serving
  | clientHandshake =>
    rw [state] at done
    obtain rfl := Option.some.inj done
    exact serving.clientHandshake
  | clientHandshakeDone =>
    rw [state] at done
    obtain rfl := Option.some.inj done
    exact predictNextState_steady.serving serving
  | _ =>
    rw [state] at done
    obtain rfl := Option.some.inj done
    exact serving.forceCloseProxy

theorem Serving.rwEventHandle (serving : Serving c) {rounds : List Round} {ret : Int}
    (done : rwEventHandle lib rounds c = some (ret, c')) : Settled c' := by
  induction rounds generalizing c with
  | nil => cases done
  | cons r rest ih =>
    rw [HttpProxyConnection.rwEventHandle] at done
    cases ran : c.round lib r with
    | none =>
      rw [ran] at done
      cases done
    | some finish =>
      rw [ran] at done
      have fine := serving.round ran
      cases finish with
      | returned ret c =>
        obtain ⟨rfl, rfl⟩ := Prod.mk.inj (Option.some.inj done)
        exact fine
      | looping c => exact ih fine done

theorem handleCalled_settled (settled : Settled c) (ret : Int) : Settled (c.handleCalled ret) := by
  rcases settled with serving | recycled
  · exact Or.inl ((handleCalled_steady ret).serving serving)
  · exact Or.inr ⟨recycled.client, recycled.server, recycled.forgotten, recycled.query,
      recycled.queued, recycled.log⟩

/-- The answer of the resolver finds the client there. -/
theorem Serving.serverConnectHandle (serving : Serving c) {host : Bytes}
    {address : Option ConnectResult} {rounds : List Round} {ret : Int}
    (kept : ∀ fd shutdown, address = some (.failed fd shutdown) → c.mServer.exist = true →
      if c.mServer.active && shutdown.isSome then fd.isSome = true
      else c.mClient.exist = true)
    (done : c.serverConnectHandle lib host address rounds = some (ret, c')) : Settled c' := by
  have connected := serving.connectServer host address kept
  rw [HttpProxyConnection.serverConnectHandle] at done
  generalize c.connectServer host address = answer at *
  obtain ⟨ret, c₁⟩ := answer
  dsimp only at connected done
  split_ifs at done
  · obtain ⟨⟨_, c₂⟩, ran, eq⟩ := Option.map_eq_some_iff.mp done
    obtain ⟨rfl, rfl⟩ := Prod.mk.inj eq
    exact connected.rwEventHandle ran
  · obtain ⟨c₂, notified, eq⟩ := Option.map_eq_some_iff.mp done
    obtain ⟨rfl, rfl⟩ := Prod.mk.inj eq
    obtain ⟨n, _, rfl⟩ := notify503_cases notified
    exact Or.inl (((attachNotification_steady n).trans wakeWrite_steady).serving connected)
  · obtain ⟨rfl, rfl⟩ := Prod.mk.inj (Option.some.inj done)
    exact Or.inl connected

theorem Serving.resolved (serving : Serving c) {address : Option ConnectResult}
    {rounds : List Round} (met : Met c (.resolved address rounds))
    (done : c.resolved lib address rounds = some c') : Settled c' := by
  obtain ⟨host, _, done⟩ := Option.bind_eq_some_iff.mp done
  have answered : Serving { c with resolver := { c.resolver with query := none } } :=
    (resolver_steady _).serving serving
  have kept : ∀ fd shutdown, address = some (.failed fd shutdown) → c.mServer.exist = true →
      if c.mServer.active && shutdown.isSome then fd.isSome = true
      else c.mClient.exist = true := by
    rintro fd shutdown rfl
    exact met
  dsimp only at done
  split_ifs at done
  · obtain ⟨⟨ret, c₁⟩, ran, done⟩ := Option.bind_eq_some_iff.mp done
    obtain rfl := Option.some.inj done
    exact handleCalled_settled (answered.serverConnectHandle kept ran) ret
  · obtain rfl := Option.some.inj done
    exact Or.inl answered

theorem Serving.sslTunnelReadHandle (serving : Serving c) :
    Settled (c.sslTunnelReadHandle side r) := by
  have steady : Steady c ( c.recvNIO side r.received).2 := (recvNIO_steady r.received).1
  have serving := steady.serving serving
  rw [HttpProxyConnection.sslTunnelReadHandle]
  dsimp only
  split_ifs
  · exact serving.closeHandle r.shutdown side
  · exact Or.inl (wakeWrite_steady.serving serving)
  · exact Or.inl (wakeWrite_steady.serving serving)

theorem Serving.sslTunnelWriteHandle (serving : Serving c) :
    Settled (c.sslTunnelWriteHandle side r) := by
  have steady : Steady c ( c.sendNIO side r.sent).2 := sendNIO_steady r.sent
  have sent := steady.serving serving
  have reading (c : HttpProxyConnection) : Steady c (c.onSocket side fun sock =>
      sock.disableWriteEvent.enableReadEvent) :=
    onSocket_steady fun _ => (disableEvent_kept _).trans (enableEvent_kept _)
  rw [HttpProxyConnection.sslTunnelWriteHandle]
  dsimp only
  split_ifs
  · exact Or.inl serving
  · exact sent.closeHandle r.shutdown side
  · exact Or.inl sent
  · exact Or.inl ((reading _).serving sent)

/-- Every handler leaves the connection queued exactly when both sockets are closed. -/
theorem Serving.handle (serving : Serving c) {rounds : List Round} {handler : ProxyHandler}
    (done : c.handle lib side rounds handler = some c') : Settled c' := by
  cases handler with
  | readHandle =>
    obtain ⟨⟨_, c₁⟩, ran, rfl⟩ := Option.map_eq_some_iff.mp done
    exact serving.rwEventHandle ran
  | writeHandle =>
    obtain ⟨⟨_, c₁⟩, ran, rfl⟩ := Option.map_eq_some_iff.mp done
    exact serving.rwEventHandle ran
  | errorHandle =>
    obtain rfl := Option.some.inj done
    exact serving.forceClose
  | rdhupHandle =>
    obtain rfl := Option.some.inj done
    exact serving.forceClose
  | timeoutHandle =>
    obtain rfl := Option.some.inj done
    exact serving.forceClose
  | closeHandle =>
    obtain ⟨r, _, rfl⟩ := Option.map_eq_some_iff.mp done
    exact serving.closeHandle r.shutdown side
  | sslTunnelReadHandle =>
    obtain ⟨r, _, rfl⟩ := Option.map_eq_some_iff.mp done
    exact serving.sslTunnelReadHandle
  | sslTunnelWriteHandle =>
    obtain ⟨r, _, rfl⟩ := Option.map_eq_some_iff.mp done
    exact serving.sslTunnelWriteHandle

theorem acceptClient_serving {fd : Nat} (unqueued : c.id_ ∉ c.gc) (forgotten : c.forgotten = [])
    (server : Registered c.mServer) (log : recycles c.log = 0) :
    Serving (c.acceptClient fd) := by
  have there : (c.acceptClient fd).mClient.exist = true :=
    congrArg Option.isSome ((enableEvent_kept _).fd.trans
      ((setHandles_kept _ _ _ _).fd.trans registerChannel_fd))
  have held : Held (c.acceptClient fd) :=
    ⟨unqueued, forgotten, registered_of_exist there, server, log⟩
  exact held.serving_of_client there

/-- Only a connection that was recycled is handed out. -/
theorem Settled.handOut (settled : Settled c) (taken : c.handOut = some c') :
    Recycled c ∧ c'.id_ ∉ c'.gc ∧ c'.forgotten = [] ∧ c'.mClient = c.mClient ∧
      c'.mServer = c.mServer ∧ HttpProxyConnection.recycles c'.log = 0 := by
  rw [HttpProxyConnection.handOut] at taken
  cases queue : c.gc with
  | nil =>
    rw [queue] at taken
    cases taken
  | cons id rest =>
    rw [queue] at taken
    dsimp only at taken
    split_ifs at taken with same
    obtain rfl := Option.some.inj taken
    subst same
    rcases settled with serving | recycled
    · refine absurd ?_ serving.unqueued
      rw [queue]
      exact List.mem_cons_self
    · refine ⟨recycled, ?_, recycled.forgotten, rfl, rfl, rfl⟩
      have once := recycled.queued
      rw [queue, List.count_cons_self] at once
      exact List.count_eq_zero.mp (Nat.succ.inj once)

/-- Another connection is put into the queue or taken from it. -/
theorem Settled.requeue (settled : Settled c) {gc : List IDType}
    (same : gc.count c.id_ = c.gc.count c.id_) : Settled { c with gc := gc } := by
  rcases settled with serving | recycled
  · have unqueued : c.id_ ∉ gc :=
      List.count_eq_zero.mp (same.trans (List.count_eq_zero.mpr serving.unqueued))
    exact Or.inl ⟨⟨unqueued, serving.forgotten, serving.client, serving.server, serving.log⟩,
      serving.opened⟩
  · exact Or.inr ⟨recycled.client, recycled.server, recycled.forgotten, recycled.query,
      same.trans recycled.queued, recycled.log⟩

/-- A connection that waits for a client has no channel. -/
theorem Recycled.silent (recycled : Recycled c) (side : Side) :
    (c.socket side).channelptr = none := by
  cases side with
  | client => exact recycled.client.2
  | server => exact recycled.server.2

/-- A step of the machine that meets the condition. -/
theorem Settled.step (settled : Settled c) {event : ProxyEvent} (met : Met c event)
    (steps : c.step lib event = some c') : Settled c' := by
  cases event with
  | accepted fd =>
    obtain ⟨c₁, taken, rfl⟩ := Option.map_eq_some_iff.mp steps
    obtain ⟨recycled, unqueued, forgotten, _, server, log⟩ := settled.handOut taken
    have unregistered : Registered c₁.mServer := by
      intro there
      rw [server, recycled.server.2] at there
      cases there
    exact Or.inl (acceptClient_serving unqueued forgotten unregistered log)
  | refused =>
    obtain ⟨c₁, taken, rfl⟩ := Option.map_eq_some_iff.mp steps
    obtain ⟨recycled, unqueued, forgotten, client, server, log⟩ := settled.handOut taken
    refine Or.inr ⟨⟨rfl, rfl⟩, ⟨rfl, rfl⟩, ?_, rfl, ?_, congrArg (· + 1) log⟩
    · dsimp only [HttpProxyConnection.recycle, note]
      rw [forgotten, client, server, recycled.client.2, recycled.server.2]
      rfl
    · dsimp only [HttpProxyConnection.recycle, note]
      rw [List.count_append, List.count_eq_zero.mpr unqueued, List.count_singleton_self]
  | queued id =>
    rw [HttpProxyConnection.step] at steps
    split_ifs at steps with same
    obtain rfl := Option.some.inj steps
    refine settled.requeue ?_
    rw [List.count_append, List.count_singleton, if_neg (by simpa using same)]
    rfl
  | taken =>
    rw [HttpProxyConnection.step] at steps
    cases queue : c.gc with
    | nil =>
      rw [queue] at steps
      cases steps
    | cons id rest =>
      rw [queue] at steps
      dsimp only at steps
      split_ifs at steps with same
      obtain rfl := Option.some.inj steps
      refine settled.requeue ?_
      rw [queue, List.count_cons_of_ne same]
  | called side kind rounds =>
    obtain ⟨channel, there, steps⟩ := Option.bind_eq_some_iff.mp steps
    obtain ⟨handler, _, done⟩ := Option.bind_eq_some_iff.mp steps
    rcases settled with serving | recycled
    · exact serving.handle done
    · rw [recycled.silent] at there
      cases there
  | recalled k kind rounds =>
    obtain ⟨⟨side, channel⟩, found, _⟩ := Option.bind_eq_some_iff.mp steps
    have none : c.forgotten = [] := settled.elim (·.forgotten) (·.forgotten)
    rw [none] at found
    cases found
  | resolved address rounds =>
    rcases settled with serving | recycled
    · exact serving.resolved met steps
    · obtain ⟨host, asked, _⟩ := Option.bind_eq_some_iff.mp steps
      rw [recycled.query] at asked
      cases asked

theorem Settled.recycledOnce (settled : Settled c) : RecycledOnce c := by
  rcases settled with serving | recycled
  · have none : c.gc.count c.id_ = 0 := List.count_eq_zero.mpr serving.unqueued
    refine ⟨⟨fun queued => absurd queued serving.unqueued, fun closed => ?_⟩, ?_, ?_⟩
    · exact absurd (serving.opened.symm.trans closed) Bool.false_ne_true
    · exact none.le.trans (Nat.zero_le 1)
    · exact serving.log.le.trans (Nat.zero_le 1)
  · have queued : c.id_ ∈ c.gc := List.count_pos_iff.mp (recycled.queued.symm ▸ Nat.one_pos)
    refine ⟨⟨fun _ => ?_, fun _ => queued⟩, recycled.queued.le, recycled.log.le⟩
    rw [HttpProxyConnection.closed, exist, exist, recycled.client.1, recycled.server.1]
    rfl

theorem start_serving (id : IDType) (garbage : Nat → Byte) (status fd : Nat) :
    Serving (start id garbage status fd) :=
  acceptClient_serving List.not_mem_nil rfl nofun rfl

end

/-- Between the events of a run the connection is in the queue when both sockets are closed, and
once; it is not recycled twice. -/
theorem recycled_once {lib : ParserLib} {id : IDType} {garbage : Nat → Byte} {status fd : Nat}
    {c : HttpProxyConnection}
    (run : Reaches (step lib) Met (start id garbage status fd) c) : RecycledOnce c := by
  have settled : Settled c :=
    run.invariant Settled (Or.inl (start_serving id garbage status fd))
      fun _ _ _ settled met steps => settled.step met steps
  exact settled.recycledOnce

/-- The client hangs up. -/
theorem recycled_once_rdhup :
    ∃ c, (start 1 (fun _ => 0) 0 5).step (recorded []) (.called .client .rdhup []) = some c ∧
      RecycledOnce c := by
  obtain ⟨c, steps⟩ : ∃ c, (start 1 (fun _ => 0) 0 5).step (recorded [])
      (.called .client .rdhup []) = some c := ⟨_, rfl⟩
  have met : Met (start 1 (fun _ => 0) 0 5) (.called .client .rdhup []) := trivial
  exact ⟨c, steps, recycled_once (Reaches.start.next met steps)⟩

def postHeader : Bytes := literal "POST / HTTP/1.1\r\nHost: a\r\nContent-Length: 1\r\n\r\n"

def connectHeader : Bytes := literal "xCONNECT a:443 HTTP/1.1\r\nHost: a:443\r\n\r\n"

def overtaken : ParserLib := recorded
  [(postHeader,
    [.onMessageBegin, .onUrl (literal "/"), .onHeaderField (literal "Host"),
     .onHeaderValue (literal "a"), .onHeaderField (literal "Content-Length"),
     .onHeaderValue (literal "1"), .onHeadersComplete ⟨literal "POST", 0, 1, 1, false⟩]),
   (connectHeader,
    [.onBody (literal "x"), .onMessageComplete, .onMessageBegin, .onUrl (literal "a:443"),
     .onHeaderField (literal "Host"), .onHeaderValue (literal "a:443"),
     .onHeadersComplete ⟨literal "CONNECT", 0, 1, 1, false⟩, .onMessageComplete])]

/-- The address of the host is asked for, then found in the cache for the next request; the
client closes the tunnel; then the query is answered, and that address cannot be reached. -/
def overtakenRun : List ProxyEvent :=
  [.called .client .readable [calm, arriving postHeader],
   .called .client .readable
    [{ arriving connectHeader with lookup := fun _ => .found (some (.opened 7)) },
     calm, calm, calm, calm, calm, calm, calm,
     { calm with
       received := ⟨[], .failed none⟩
       shutdown := fun
         | .client => none
         | .server => some .socketEventRead }],
   .resolved (some (.failed (some 9) none)) []]

/-- Both sockets are closed, and the connection is not in the queue. -/
theorem not_recycled_overtaken :
    ∃ c, Reaches (step overtaken) (fun _ _ => True) (start 1 (fun _ => 0) 0 5) c ∧
      ¬ RecycledOnce c := by
  have run : ((follow (step overtaken) (fun _ _ => True) (start 1 (fun _ => 0) 0 5)
      overtakenRun).map fun c => (c.closed, c.gc)) = some (true, []) := rfl
  obtain ⟨c, followed, ends⟩ := Option.map_eq_some_iff.mp run
  obtain ⟨closed, queue⟩ := Prod.mk.inj ends
  refine ⟨c, reaches_of_follow followed, fun once => ?_⟩
  have queued := once.queued.mpr closed
  rw [queue] at queued
  exact List.not_mem_nil queued

end HttpProxyConnection
