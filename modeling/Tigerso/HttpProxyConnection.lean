import Tigerso.BufferQueue
import Tigerso.ConnectionFactory
import Tigerso.HttpMessageObject

/-!
# http/HttpProxyConnection: a client and its server

The client's in-buffer is the server's out-buffer, and the other way round. What the kernel,
OpenSSL, the name servers and `http_parser` answer is the input of a call.
-/

open SystemCalls

inductive HttpProxyState where
  | proxyInit
  | clientRecvRequest
  | clientRecvRequestDone
  | clientSend200ok
  | clientSend200okDone
  | serverHandshake
  | serverHandshakeDone
  | clientHandshake
  | clientHandshakeDone
  | tcpTunnel
  | serverSendRequest
  | serverSendRequestDone
  | serverRecvResponse
  | serverRecvResponseDone
  | clientSendResponse
  | clientSendResponseDone
  | clientClose
  | clientCloseDone
  | serverClose
  | serverCloseDone
  deriving DecidableEq, Repr

inductive ServerConnectState where
  | serverConnectUinit
  | serverConnectError
  | serverConnectIng
  | serverConnectDone
  deriving DecidableEq, Repr

inductive ProxyHandler where
  | readHandle
  | writeHandle
  | errorHandle
  | rdhupHandle
  | timeoutHandle
  | closeHandle
  | sslTunnelReadHandle
  | sslTunnelWriteHandle
  deriving DecidableEq, Repr

/-- `*m_client` or `*m_server`. -/
inductive Side where
  | client
  | server
  deriving DecidableEq, Repr

/-- What ends the reads of `recvNIO`. -/
inductive ReadEnd where
  /-- There is nothing more now; an SSL context waits for something. -/
  | blocked (waits : SocketEvent)
  /-- The peer has closed, or an error; `kept` is what an SSL context that is kept waits for. -/
  | failed (kept : Option SocketEvent)

structure SocketRead where
  data : Bytes
  ending : ReadEnd

/-- `ssl` is what an SSL context waits for after the call, if it is kept. -/
structure SocketSend where
  taken : Nat
  body : Int
  ssl : Option SocketEvent

/-- `SocketUtil::Connect`. -/
inductive ConnectResult where
  /-- The address or the port is not one. -/
  | invalid
  /-- `socket` or `connect` failed; `shutdown` is what `SSL_shutdown` waits for. -/
  | failed (fd : Option Nat) (shutdown : Option SocketEvent)
  | opened (fd : Nat)

/-- `DNSResolver::resolve`. -/
inductive Lookup where
  /-- The host is an address, or the cache has one. -/
  | found (address : Option ConnectResult)
  /-- No query could be sent. -/
  | failed
  | asked

/-- What one round of the loop of `RWEventHandle` is answered; of the results only those are
looked at that the round asks for. -/
structure Round where
  received : SocketRead
  results : List WriteResult
  lookup : Nat → Lookup
  sent : SocketSend
  prepared : Side → Bool
  handshake : Handshake
  resigned : Bool
  resetup : Bool
  shutdown : Side → Option SocketEvent

inductive ResolveState where
  | dnsUinit
  | dnsOnProcess
  | dnsErr
  deriving DecidableEq, Repr

/-- `query` is the host that the open query on `sock_` is about. -/
structure ProxyResolver where
  resolveState : ResolveState
  callback : Bool
  query : Option Bytes

/-- What is written down of a run. -/
inductive ProxyAction where
  | handedOut
  | recycled
  | entered (state : HttpProxyState)
  | received (side : Side) (data : Bytes)
  | connected (host port : Bytes)
  /-- The header of a response is complete: the request it belongs to, and `nobody_`. -/
  | responded (request : HttpMessage) (nobody : Bool)
  /-- Bytes for the server, with the request and with what the socket was connected for. -/
  | forwarded (data : Bytes) (request : MessageObject) (peer : Option (Bytes × Bytes))
  /-- The notification that takes the place of what there was for the client. -/
  | notified (notification : HttpMessage)
  /-- Bytes for the client, and whether a notification is attached. -/
  | answered (data : Bytes) (attached : Bool)
  /-- So many of the bytes that were last received lie behind the end of the message. -/
  | behind (side : Side) (surplus : Nat)

/-- `upstream` is the client's in-buffer, `downstream` the server's. `gc_` are the identifiers
that the factory keeps for connections of this type, and `forgotten` are channels that were
registered when `reset` dropped the pointers to them. `peer` is the host and the port that the
server socket was last connected for, and `log` what happened, newest first; nothing reads
them. -/
structure HttpProxyConnection where
  id_ : IDType
  mClient : NetSocket ProxyHandler
  mServer : NetSocket ProxyHandler
  upstream : BufferQueue
  downstream : BufferQueue
  resolver : ProxyResolver
  state : HttpProxyState
  request : MessageObject
  response : MessageObject
  notification : HttpMessage
  host : Bytes
  port : Bytes
  gc : List IDType
  forgotten : List (Side × SocketChannel ProxyHandler)
  peer : Option (Bytes × Bytes)
  log : List ProxyAction

namespace HttpProxyConnection
open HttpMessage HttpHelper

def construct (id : IDType) (garbage : Nat → Byte) (status : Nat) : HttpProxyConnection where
  id_ := id
  mClient := .construct
  mServer := .construct
  upstream := .construct
  downstream := .construct
  resolver := ⟨.dnsUinit, false, none⟩
  state := .proxyInit
  request := .construct .httpRoleRequest garbage status
  response := .construct .httpRoleResponse garbage status
  notification := .construct .httpRoleResponse garbage
  host := []
  port := []
  gc := []
  forgotten := []
  peer := none
  log := []

def socket (c : HttpProxyConnection) : Side → NetSocket ProxyHandler
  | .client => c.mClient
  | .server => c.mServer

def onSocket (c : HttpProxyConnection) (side : Side)
    (change : NetSocket ProxyHandler → NetSocket ProxyHandler) : HttpProxyConnection :=
  match side with
  | .client => { c with mClient := change c.mClient }
  | .server => { c with mServer := change c.mServer }

def outBuffer (c : HttpProxyConnection) : Side → BufferQueue
  | .client => c.downstream
  | .server => c.upstream

def inBuffer (c : HttpProxyConnection) : Side → BufferQueue
  | .client => c.upstream
  | .server => c.downstream

def withInBuffer (c : HttpProxyConnection) (side : Side) (q : BufferQueue) : HttpProxyConnection :=
  match side with
  | .client => { c with upstream := q }
  | .server => { c with downstream := q }

def withOutBuffer (c : HttpProxyConnection) (side : Side) (q : BufferQueue) :
    HttpProxyConnection :=
  match side with
  | .client => { c with downstream := q }
  | .server => { c with upstream := q }

def note (c : HttpProxyConnection) (action : ProxyAction) : HttpProxyConnection :=
  { c with log := action :: c.log }

def enter (c : HttpProxyConnection) (state : HttpProxyState) : HttpProxyConnection :=
  { c with state := state }.note (.entered state)

/-- `IS_CLIENT_SOCKET`, which compares descriptors. -/
def isClientSocket (c : HttpProxyConnection) (side : Side) : Bool :=
  (c.socket side).sockfd == c.mClient.sockfd

def getServerConnectState (c : HttpProxyConnection) : ServerConnectState :=
  if c.mServer.exist then .serverConnectDone
  else if c.request.parser.headerCompleted then
    match c.resolver.resolveState with
    | .dnsErr => .serverConnectError
    | .dnsOnProcess => .serverConnectIng
    | .dnsUinit => .serverConnectUinit
  else .serverConnectUinit

/-- `recycle`; the notification is left as it is. -/
def recycle (c : HttpProxyConnection) : HttpProxyConnection :=
  { c with
    host := []
    port := []
    request := c.request.clear
    response := c.response.clear
    mClient := c.mClient.reset
    mServer := c.mServer.reset
    upstream := c.upstream.clear
    downstream := c.downstream.clear
    resolver := ⟨.dnsUinit, false, none⟩
    state := .proxyInit
    forgotten := c.forgotten ++ c.mClient.channelptr.toList.map (Side.client, ·) ++
      c.mServer.channelptr.toList.map (Side.server, ·)
    gc := c.gc ++ [c.id_] }.note .recycled

def forceCloseServer (c : HttpProxyConnection) : HttpProxyConnection :=
  let c := c.onSocket .server NetSocket.tcpClose
  if !c.mClient.exist then c.recycle else c

def forceCloseProxy (c : HttpProxyConnection) : HttpProxyConnection :=
  (c.onSocket .client NetSocket.tcpClose).forceCloseServer

def forceCloseClient (c : HttpProxyConnection) : HttpProxyConnection := c.forceCloseProxy

/-- `errorHandle`, `rdhupHandle` and `timeoutHandle`. -/
def forceClose (c : HttpProxyConnection) (side : Side) : HttpProxyConnection :=
  if c.isClientSocket side then c.forceCloseClient else c.forceCloseServer

/-- The start of `closeHandle`; `false` when the closing has to wait for an event. -/
def closeSocket (sock : NetSocket ProxyHandler) (shutdown : Option SocketEvent) :
    Bool × NetSocket ProxyHandler :=
  let (ret, sock) := sock.close shutdown
  if ret ≠ 0 then
    let sock := sock.disableReadEvent.disableWriteEvent
    match sock.wanted with
    | .socketEventNone => (true, sock.tcpClose)
    | event => (false, (sock.setEventHandle .closeHandle event).enableEvent event)
  else (true, sock)

/-- The closing has to wait, or the socket is closed. -/
theorem closeSocket_cases (s : NetSocket ProxyHandler) (shutdown : Option SocketEvent) :
    (∃ s', closeSocket s shutdown = (false, s') ∧ NetSocket.Kept s s') ∨
      closeSocket s shutdown = (true, s.tcpClose) := by
  rw [closeSocket]
  rcases NetSocket.close_cases s shutdown with ⟨event, active, _, eq⟩ | ⟨_, eq⟩
  · obtain ⟨w, first, waits, eq⟩ : ∃ w, NetSocket.Kept s w ∧ w.wanted = event ∧
        s.close shutdown = (tigersoIoError, w) :=
      ⟨{ s with serrno := event }, ⟨rfl, rfl⟩, if_pos active, eq⟩
    have quiet : NetSocket.Kept s w.disableReadEvent.disableWriteEvent :=
      first.trans NetSocket.quiet_kept
    rw [eq]
    dsimp only
    rw [if_pos (by decide), NetSocket.quiet_wanted, waits]
    cases event with
    | socketEventNone => exact Or.inr rfl
    | socketEventRead =>
      exact Or.inl ⟨_, rfl, (quiet.trans (NetSocket.setEventHandle_kept _ _)).trans
        (NetSocket.enableEvent_kept _)⟩
    | socketEventWrite =>
      exact Or.inl ⟨_, rfl, (quiet.trans (NetSocket.setEventHandle_kept _ _)).trans
        (NetSocket.enableEvent_kept _)⟩
  · rw [eq]
    exact Or.inr rfl

def closed (c : HttpProxyConnection) : Bool := !c.mClient.exist && !c.mServer.exist

/-- `closeHandle(*m_server)` when it is closed. Behind the first test the client is there, so that
`*m_server` is not taken for it. -/
def serverClosed (c : HttpProxyConnection) : Int × HttpProxyConnection :=
  if c.closed then (eventCallbackBreak, c.recycle)
  else if !c.downstream.isSendDone then
    (eventCallbackContinue,
      (c.enter .clientSendResponse).onSocket .client NetSocket.enableWriteEvent)
  else (eventCallbackContinue, c.onSocket .client NetSocket.enableReadEvent)

def closeServer (c : HttpProxyConnection) (shutdown : Side → Option SocketEvent) :
    Int × HttpProxyConnection :=
  match closeSocket c.mServer (shutdown .server) with
  | (false, sock) => (eventCallbackContinue, { c with mServer := sock })
  | (true, sock) => { c with mServer := sock }.serverClosed

/-- `closeHandle(*m_client)` when it is closed. -/
def clientClosed (c : HttpProxyConnection) (shutdown : Side → Option SocketEvent) :
    Int × HttpProxyConnection :=
  if c.closed then (eventCallbackBreak, c.recycle) else c.closeServer shutdown

def closeHandle (c : HttpProxyConnection) (shutdown : Side → Option SocketEvent) :
    Side → Int × HttpProxyConnection
  | .server => c.closeServer shutdown
  | .client =>
    match closeSocket c.mClient (shutdown .client) with
    | (false, sock) => (eventCallbackContinue, { c with mClient := sock })
    | (true, sock) => { c with mClient := sock }.clientClosed shutdown

/-- A descriptor that the kernel hands out; the client's is in use. -/
def descriptor (c : HttpProxyConnection) (fd : Nat) : Nat :=
  if c.mClient.sockfd = some fd then fd + 1 else fd

/-- The first half of `serverConnectHandle`, for an address of `host`. -/
def connectServer (c : HttpProxyConnection) (host : Bytes) :
    Option ConnectResult → Int × HttpProxyConnection
  | none => (-1, c)
  | some address =>
    let (port, request) := c.request.getHostPort
    let c := { c with request := request }
    match address with
    | .invalid => (-1, c)
    | .failed fd shutdown =>
      (-1, c.onSocket .server fun sock =>
        ({ sock with sockfd := fd.map c.descriptor }.close shutdown).2)
    | .opened fd =>
      let c := { c with peer := some (host, port) }.note (.connected host port)
      (0, c.onSocket .server fun sock =>
        ({ sock with sockfd := some (c.descriptor fd) }.registerChannel.setEventHandle .writeHandle
          .socketEventWrite).setHandles .readHandle .errorHandle .rdhupHandle .timeoutHandle)

/-- `callHandle` has called `callback_`, which returned `ret`. -/
def handleCalled (c : HttpProxyConnection) (ret : Int) : HttpProxyConnection :=
  { c with resolver := { c.resolver with
    resolveState := if ret ≠ 0 then .dnsErr else .dnsUinit } }

/-- `resolver_.resolve(host)` while a request is parsed. `state_` is `CLIENT_RECV_REQUEST` then,
so that `serverConnectHandle` does nothing behind the connecting. -/
def resolve (c : HttpProxyConnection) (host : Bytes) : Lookup → HttpProxyConnection
  | .found address =>
    let (ret, c) := c.connectServer host address
    c.handleCalled ret
  | .failed => { c with resolver := ⟨.dnsErr, c.resolver.callback, none⟩ }
  | .asked => { c with resolver := ⟨.dnsOnProcess, c.resolver.callback, some host⟩ }

/-- `response_.shouldNoBody()` when the method is HEAD. -/
def labelHead (c : HttpProxyConnection) (method : Bytes) : HttpProxyConnection :=
  if sameIgnoringCase method (literal "head") then
    { c with response := { c.response with
      parser := { c.response.parser with nobody := true } } }
  else c

/-- The server is looked up when the host or the port is another one, or there is no server. -/
def seekServer (c : HttpProxyConnection) (host port : Bytes) (lookup : Lookup) :
    HttpProxyConnection :=
  if c.host ≠ host ∨ c.port ≠ port ∨ c.mServer.exist = false then
    let c := c.forceCloseServer
    { c with
      response := c.response.clear
      host := host
      port := port
      resolver := { c.resolver with callback := true } }.resolve host lookup
  else c

/-- `requestHeaderCompleteHandle` of a request that has come as far as `message`. -/
def requestHeaderCompleteHandle (c : HttpProxyConnection) (lookup : Lookup)
    (message : HttpMessage) : Option HttpProxyConnection :=
  (c.request.withMessage message).getHost.map fun (host, request) =>
    let (port, request) := request.getHostPort
    let c' := ({ c with request := request }.labelHead message.method).seekServer host port lookup
    { c' with request := c'.request.withMessage c.request.message }

/-- The callbacks that were made during one `parse`, in their order. -/
def requestHeaders (lookup : Nat → Lookup) : Nat → List HttpMessage → HttpProxyConnection →
    Option HttpProxyConnection
  | _, [], c => some c
  | k, message :: rest, c =>
    (c.requestHeaderCompleteHandle (lookup k) message).bind (requestHeaders lookup (k + 1) rest)

end HttpProxyConnection
