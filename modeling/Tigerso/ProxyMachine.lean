import Tigerso.GuardedRuns
import Tigerso.HttpProxyConnection

/-!
# http/HttpProxyConnection: the state machine

`RWEventHandle`, the other callbacks, and the runs of one connection between the acceptor and
the queue of the factory.
-/

open SystemCalls

namespace HttpProxyConnection
open HttpMessage HttpHelper

/-- `predictNextState`. `isNeedTunnelSSL` is false for every host. -/
def predictNextState (c : HttpProxyConnection) : HttpProxyConnection :=
  match c.state with
  | .proxyInit => (c.enter .clientRecvRequest).onSocket .client NetSocket.enableReadEvent
  | .clientRecvRequest =>
    if !c.request.parser.needMoreData then c.enter .clientRecvRequestDone else c
  | .clientRecvRequestDone =>
    if c.mServer.exist then
      if sameIgnoringCase c.request.message.method (literal "connect") then
        c.enter .clientSend200ok
      else c.enter .serverSendRequest
    else c.enter .clientSendResponse
  | .clientSend200ok => c.enter .clientSend200okDone
  | .clientSend200okDone => c.enter .serverHandshake
  | .serverHandshake => c.enter .serverHandshakeDone
  | .serverHandshakeDone => c.enter .clientHandshake
  | .clientHandshake => c.enter .clientHandshakeDone
  | .clientHandshakeDone => c.enter .clientRecvRequest
  | .tcpTunnel => c
  | .serverSendRequest => c.enter .serverSendRequestDone
  | .serverSendRequestDone => c.enter .serverRecvResponse
  | .serverRecvResponse => c.enter .serverRecvResponseDone
  | .serverRecvResponseDone => c.enter .clientSendResponse
  | .clientSendResponse => c.enter .clientSendResponseDone
  | .clientSendResponseDone => c.enter .clientRecvRequest
  | .clientClose => c.enter .clientCloseDone
  | .clientCloseDone => c.enter (if c.mServer.exist then .serverClose else .proxyInit)
  | .serverClose => c.enter .serverCloseDone
  | .serverCloseDone =>
    c.enter (if c.mClient.exist then .clientSendResponse else .proxyInit)

/-- How a case of the loop ends: `return ret`, or back to its head. -/
inductive RoundEnd where
  | returned (ret : Int) (c : HttpProxyConnection)
  | looping (c : HttpProxyConnection)

/-- The socket with both events off. -/
def quiet (c : HttpProxyConnection) (side : Side) : HttpProxyConnection :=
  c.onSocket side fun sock => sock.disableReadEvent.disableWriteEvent

/-- `predictNextState()` and both events off. -/
def advance (c : HttpProxyConnection) (side : Side) : RoundEnd :=
  .looping (c.predictNextState.quiet side)

/-- An SSL context after a call; without an `event` it is gone. -/
def afterSSL (sock : NetSocket ProxyHandler) (event : Option SocketEvent) :
    NetSocket ProxyHandler :=
  if sock.isSSL then
    match event with
    | some event => { sock with serrno := event }
    | none => sock.destory
  else sock

def recvNIO (c : HttpProxyConnection) (side : Side) (r : SocketRead) : Int × HttpProxyConnection :=
  if !(c.socket side).exist then (-1, c)
  else
    let c := (c.withInBuffer side ((c.inBuffer side).addData r.data)).note (.received side r.data)
    match r.ending with
    | .blocked waits =>
      (HttpBodyFile.toInt r.data.length, c.onSocket side fun sock => afterSSL sock (some waits))
    | .failed kept => (tigersoIoError, c.onSocket side fun sock => afterSSL sock kept)

/-- `attachHttpMessage(&notification_)`: it takes the place of what the client was to get. -/
def attachNotification (c : HttpProxyConnection) (notification : HttpMessage) :
    HttpProxyConnection :=
  { c with
    notification := notification
    downstream := .attachHttpMessage notification.getHeader }.note (.notified notification)

def notify400 (c : HttpProxyConnection) : Option HttpProxyConnection :=
  (prepare400Response c.notification).map c.attachNotification

def notify503 (c : HttpProxyConnection) : Option HttpProxyConnection :=
  (prepare503Response c.notification).map c.attachNotification

def notify200 (c : HttpProxyConnection) : HttpProxyConnection :=
  c.attachNotification (prepare200Response c.notification)

def requestParsed (c : HttpProxyConnection) (code : Int) : Option RoundEnd :=
  if code = hpParseError then
    c.notify400.map fun c => c.forceCloseServer.advance .client
  else if code = hpParseNeedMoredata then
    match c.getServerConnectState with
    | .serverConnectError => c.notify503.map fun c => c.advance .client
    | .serverConnectUinit => some (.returned eventCallbackContinue c)
    | .serverConnectIng => some (.returned eventCallbackContinue c)
    | .serverConnectDone => some (.returned eventCallbackContinue c)
  else
    match c.getServerConnectState with
    | .serverConnectError => c.notify503.map fun c => c.advance .client
    | .serverConnectIng =>
      some (.returned eventCallbackBreak (c.predictNextState.quiet .client))
    | .serverConnectUinit => some (c.advance .client)
    | .serverConnectDone => some (c.advance .client)

def responseParsed (c : HttpProxyConnection) (code : Int) : RoundEnd :=
  if code = hpParseError then .returned eventCallbackBreak c.forceCloseProxy
  else if code = hpParseNeedMoredata then .returned eventCallbackContinue c
  else c.advance .server

def completesHeader (callbacks : List Callback) : Bool :=
  callbacks.any fun
    | .onHeadersComplete _ => true
    | _ => false

/-- `message->parse` of what was received, and what follows it. -/
def parse (lib : ParserLib) (c : HttpProxyConnection) (side : Side) (r : Round) (data : Bytes) :
    Option RoundEnd :=
  match side with
  | .client => do
    let (answer, request) ← c.request.parse lib data r.results
    let c ← requestHeaders r.lookup 0 request.parser.completed { c with request := request }
    c.requestParsed answer.code
  | .server => do
    let reported := (lib c.response.message.role (c.response.feed data)).callbacks
    let c :=
      if completesHeader reported then
        c.note (.responded c.request.message c.response.parser.nobody)
      else c
    let (answer, response) ← c.response.parse lib data r.results
    some ({ c with response := response }.responseParsed answer.code)

def completesMessage (callbacks : List Callback) : Bool :=
  callbacks.any fun
    | .onMessageComplete => true
    | _ => false

/-- How many of these bytes `http_parser` takes for the next messages: those behind the shortest
front that completes the message, or all when it was complete. -/
def surplus (lib : ParserLib) (o : MessageObject) (data : Bytes) : Nat :=
  if !o.parser.needMoreData then data.length
  else
    let whole := (List.range (data.length - 1)).find? fun n =>
      completesMessage (lib o.message.role (o.feed (data.take (n + 1)))).callbacks
    match whole with
    | none => 0
    | some n => data.length - (n + 1)

def messageOf (c : HttpProxyConnection) : Side → MessageObject
  | .client => c.request
  | .server => c.response

/-- What lies behind the message is noted. -/
def beyond (lib : ParserLib) (c : HttpProxyConnection) (side : Side) (data : Bytes) :
    HttpProxyConnection :=
  let n := surplus lib (c.messageOf side) data
  if n = 0 then c else c.note (.behind side n)

def needMoreData (c : HttpProxyConnection) (side : Side) : Bool :=
  (c.messageOf side).parser.needMoreData

/-- `recvn` bytes were received, and nothing is in the way of reading on. -/
def received (lib : ParserLib) (c : HttpProxyConnection) (side : Side) (r : Round) (recvn : Int) :
    Option RoundEnd :=
  if recvn = 0 then
    if !c.needMoreData side then some (c.advance side)
    else some (.returned eventCallbackContinue c)
  else
    let data := r.received.data.drop (r.received.data.length - recvn.toNat)
    (c.beyond lib side data).parse lib side r data

/-- `case CLIENT_RECV_REQUEST` and `case SERVER_RECV_RESPONSE`, behind the tunnel marks. -/
def recvMessage (lib : ParserLib) (c : HttpProxyConnection) (side : Side) (r : Round) :
    Option RoundEnd :=
  let c := c.onSocket side fun sock => sock.enableReadEvent.disableWriteEvent
  let (recvn, c) := c.recvNIO side r.received
  if recvn < 0 then
    let (ret, c) := c.closeHandle r.shutdown side
    some (.returned ret c)
  else
    match (c.socket side).wanted with
    | .socketEventNone => c.received lib side r recvn
    | event =>
      let c := (c.quiet side).onSocket side fun sock => sock.enableEvent event
      if recvn = 0 ∧ event = .socketEventWrite then some (.returned eventCallbackContinue c)
      else c.received lib side r recvn

def tunnelBody (o : MessageObject) : MessageObject :=
  { o with parser := o.parser.labelTunnelBody }

/-- What `send2Socket` of the notification's body returns: a body without a file is done. -/
def sentBody (c : HttpProxyConnection) (r : SocketSend) : Int :=
  if c.notification.body.file.testExist then r.body else DiskFile.fileSendfileDone

def sendNIO (c : HttpProxyConnection) (side : Side) (r : SocketSend) : Int × HttpProxyConnection :=
  if !(c.socket side).exist then (-1, c)
  else
    let q := c.outBuffer side
    let (ret, sent, after) := q.sendToSocket r.taken (c.sentBody r)
    let action := match side with
      | .client => .answered sent q.msgptr
      | .server => .forwarded sent c.request c.peer
    (ret, ((c.withOutBuffer side after).note action).onSocket side fun sock => afterSSL sock r.ssl)

/-- `case CLIENT_SEND_200OK`, `case CLIENT_SEND_RESPONSE` and `case SERVER_SEND_REQUEST`. -/
def sendMessage (c : HttpProxyConnection) (side : Side) (r : Round) : RoundEnd :=
  let c := c.onSocket side fun sock => sock.enableWriteEvent.disableReadEvent
  let (sendn, c) := c.sendNIO side r.sent
  if sendn < 0 then
    let (ret, c) := c.closeHandle r.shutdown side
    .returned ret c
  else if !(c.outBuffer side).isSendDone then
    match (c.socket side).wanted with
    | .socketEventNone => .returned eventCallbackContinue c
    | event => .returned eventCallbackContinue
      ((c.quiet side).onSocket side fun sock => sock.enableEvent event)
  else c.advance side

/-- `case SERVER_SEND_REQUEST_DONE`, where the cases that clear the messages end. -/
def sendDone (c : HttpProxyConnection) (r : Round) : RoundEnd :=
  let c := c.predictNextState
  if c.state = .serverHandshake then
    let c := c.onSocket .server fun sock => sock.prepareSSLContext (r.prepared .server)
    if !r.prepared .server then .returned eventCallbackBreak c.forceCloseProxy
    else
      let c := c.onSocket .client fun sock => sock.prepareSSLContext (r.prepared .client)
      if !r.prepared .client then .returned eventCallbackBreak c.forceCloseProxy
      else .looping c
  else .looping c

/-- `serverSSLHandShake` and `clientSSLHandShake`. -/
def sslHandShake (c : HttpProxyConnection) (side : Side) : Handshake → Int × HttpProxyConnection
  | .sctxIoOk =>
    (tigersoIoOk, c.onSocket side fun sock => { sock with serrno := .socketEventNone })
  | .sctxIoRecall waits =>
    (tigersoIoRecall, c.onSocket side fun sock =>
      let sock := { sock with serrno := waits }.disableReadEvent.disableWriteEvent
      sock.enableEvent sock.wanted)
  | .sctxIoError => (tigersoIoError, c.onSocket side NetSocket.destory)

/-- `case SERVER_HANDSHAKE`. -/
def serverHandshake (c : HttpProxyConnection) (r : Round) : RoundEnd :=
  let c := c.onSocket .server fun sock => sock.enableWriteEvent.disableReadEvent
  let (ret, c) := c.sslHandShake .server r.handshake
  if ret = tigersoIoRecall then .returned eventCallbackContinue c
  else if ret = tigersoIoError then .returned 0 c.forceCloseProxy
  else if !r.resigned then .returned 0 c.forceCloseProxy
  else c.advance .server

/-- `case CLIENT_HANDSHAKE`. -/
def clientHandshake (c : HttpProxyConnection) (r : Round) : RoundEnd :=
  let c := c.onSocket .client fun sock => sock.enableReadEvent.disableWriteEvent
  let (ret, c) := c.sslHandShake .client r.handshake
  if ret = tigersoIoError then .returned eventCallbackBreak c.forceCloseProxy
  else if ret = tigersoIoRecall then .returned eventCallbackContinue c
  else c.advance .client

def tunnelEvents (c : HttpProxyConnection) (side : Side) : HttpProxyConnection :=
  let waiting := decide ((c.outBuffer side).readable ≠ [])
  c.onSocket side fun sock =>
    ((sock.enableReadEvent.switchEvent .socketEventWrite waiting).setEventHandle
      .sslTunnelReadHandle .socketEventRead).setEventHandle .sslTunnelWriteHandle
        .socketEventWrite

def sslTunnelInit (c : HttpProxyConnection) : HttpProxyConnection :=
  (c.tunnelEvents .client).tunnelEvents .server

/-- One round of the loop of `RWEventHandle`; the socket that it is called with plays no part. -/
def round (lib : ParserLib) (r : Round) (c : HttpProxyConnection) : Option RoundEnd :=
  match c.state with
  | .proxyInit =>
    let request := { c.request with
      parser := { c.request.parser with headerCompletedHandle := true } }
    some (.looping { c with request := request }.predictNextState)
  | .clientRecvRequest =>
    { c with request := tunnelBody c.request, response := tunnelBody c.response }.recvMessage
      lib .client r
  | .serverRecvResponse => c.recvMessage lib .server r
  | .clientRecvRequestDone =>
    let c := c.predictNextState
    some (.looping (if c.state = .clientSend200ok then c.notify200 else c))
  | .serverRecvResponseDone =>
    let c := c.predictNextState
    some (.looping (if c.state = .clientSend200ok then c.notify200 else c))
  | .clientSend200ok => some (c.sendMessage .client r)
  | .clientSendResponse => some (c.sendMessage .client r)
  | .serverSendRequest => some (c.sendMessage .server r)
  | .clientSend200okDone =>
    some ({ c with request := c.request.clear, response := c.response.clear }.sendDone r)
  | .clientSendResponseDone =>
    some ({ c with request := c.request.clear, response := c.response.clear }.sendDone r)
  | .serverSendRequestDone => some (c.sendDone r)
  | .tcpTunnel => some (.looping c.sslTunnelInit)
  | .serverHandshake => some (c.serverHandshake r)
  | .serverHandshakeDone =>
    let c := c.predictNextState
    if !r.resetup then some (.returned eventCallbackBreak c.forceCloseProxy)
    else some (.looping c)
  | .clientHandshake => some (c.clientHandshake r)
  | .clientHandshakeDone => some (.looping c.predictNextState)
  | .clientClose => some (.returned eventCallbackBreak c.forceCloseProxy)
  | .clientCloseDone => some (.returned eventCallbackBreak c.forceCloseProxy)
  | .serverClose => some (.returned eventCallbackBreak c.forceCloseProxy)
  | .serverCloseDone => some (.returned eventCallbackBreak c.forceCloseProxy)

/-- `RWEventHandle`; no result when it has not returned behind the rounds. -/
def rwEventHandle (lib : ParserLib) : List Round → HttpProxyConnection →
    Option (Int × HttpProxyConnection)
  | [], _ => none
  | r :: rest, c =>
    match c.round lib r with
    | none => none
    | some (.returned ret c) => some (ret, c)
    | some (.looping c) => rwEventHandle lib rest c

/-- `serverConnectHandle` for an address of `host`. -/
def serverConnectHandle (lib : ParserLib) (c : HttpProxyConnection) (host : Bytes)
    (address : Option ConnectResult) (rounds : List Round) :
    Option (Int × HttpProxyConnection) :=
  let (ret, c) := c.connectServer host address
  if c.state = .clientRecvRequestDone then
    if ret = 0 then (rwEventHandle lib rounds c).map fun (_, c) => (ret, c)
    else c.notify503.map fun c => (ret, c.onSocket .client NetSocket.enableWriteEvent)
  else some (ret, c)

/-- The answer to a query, or that there is none. The socket of the resolver is closed. -/
def resolved (lib : ParserLib) (c : HttpProxyConnection) (address : Option ConnectResult)
    (rounds : List Round) : Option HttpProxyConnection := do
  let host ← c.resolver.query
  let c := { c with resolver := { c.resolver with query := none } }
  if c.resolver.callback then
    let (ret, c) ← c.serverConnectHandle lib host address rounds
    some (c.handleCalled ret)
  else some c

def sslTunnelReadHandle (c : HttpProxyConnection) (side : Side) (r : Round) :
    HttpProxyConnection :=
  let (recvn, c) := c.recvNIO side r.received
  if recvn < 0 then (c.closeHandle r.shutdown side).2
  else c.onSocket (if c.isClientSocket side then .client else .server) NetSocket.enableWriteEvent

def sslTunnelWriteHandle (c : HttpProxyConnection) (side : Side) (r : Round) :
    HttpProxyConnection :=
  if (c.outBuffer side).readable = [] then c
  else
    let (sendn, c) := c.sendNIO side r.sent
    if sendn < 0 then (c.closeHandle r.shutdown side).2
    else if (c.outBuffer side).readable ≠ [] then c
    else c.onSocket side fun sock => sock.disableWriteEvent.enableReadEvent

/-- The call of a handler; one that is not `RWEventHandle` looks at the first round only. -/
def handle (lib : ParserLib) (c : HttpProxyConnection) (side : Side) (rounds : List Round) :
    ProxyHandler → Option HttpProxyConnection
  | .readHandle => (rwEventHandle lib rounds c).map Prod.snd
  | .writeHandle => (rwEventHandle lib rounds c).map Prod.snd
  | .errorHandle => some (c.forceClose side)
  | .rdhupHandle => some (c.forceClose side)
  | .timeoutHandle => some (c.forceClose side)
  | .closeHandle => rounds.head?.map fun r => (c.closeHandle r.shutdown side).2
  | .sslTunnelReadHandle => rounds.head?.map (c.sslTunnelReadHandle side)
  | .sslTunnelWriteHandle => rounds.head?.map (c.sslTunnelWriteHandle side)

/-- The client socket after `Accept`, registered and with its callbacks. -/
def acceptClient (c : HttpProxyConnection) (fd : Nat) : HttpProxyConnection :=
  c.onSocket .client fun sock =>
    ({ sock with sockfd := some fd }.registerChannel.setHandles .readHandle .errorHandle
      .rdhupHandle .timeoutHandle).enableReadEvent

end HttpProxyConnection

/-- A callback may be called with an event that was switched off within the same batch. -/
inductive ProxyEvent where
  /-- The acceptor takes the connection from the queue, and `accept` returns `fd`. -/
  | accepted (fd : Nat)
  /-- The acceptor takes the connection from the queue, and `accept` returns none. -/
  | refused
  /-- Another connection is put behind the queue. -/
  | queued (id : IDType)
  /-- Another connection is taken from the queue. -/
  | taken
  | called (side : Side) (kind : CallbackKind) (rounds : List Round)
  /-- A callback of the `k`-th channel that was forgotten. -/
  | recalled (k : Nat) (kind : CallbackKind) (rounds : List Round)
  | resolved (address : Option ConnectResult) (rounds : List Round)

namespace HttpProxyConnection

def start (id : IDType) (garbage : Nat → Byte) (status fd : Nat) : HttpProxyConnection :=
  ((construct id garbage status).note .handedOut).acceptClient fd

/-- `createConnection` takes this connection from the queue. -/
def handOut (c : HttpProxyConnection) : Option HttpProxyConnection :=
  match c.gc with
  | [] => none
  | id :: rest => if id = c.id_ then some ({ c with gc := rest }.note .handedOut) else none

def step (lib : ParserLib) (c : HttpProxyConnection) : ProxyEvent → Option HttpProxyConnection
  | .accepted fd => c.handOut.map fun c => c.acceptClient fd
  | .refused => c.handOut.map recycle
  | .queued id => if id = c.id_ then none else some { c with gc := c.gc ++ [id] }
  | .taken =>
    match c.gc with
    | [] => none
    | id :: rest => if id = c.id_ then none else some { c with gc := rest }
  | .called side kind rounds => do
    let channel ← (c.socket side).channelptr
    let handler ← channel.callback kind
    c.handle lib side rounds handler
  | .recalled k kind rounds => do
    let (side, channel) ← c.forgotten[k]?
    let handler ← channel.callback kind
    c.handle lib side rounds handler
  | .resolved address rounds => c.resolved lib address rounds

def calm : Round where
  received := ⟨[], .blocked .socketEventNone⟩
  results := []
  lookup _ := .asked
  sent := ⟨1000, DiskFile.fileSendfileDone, some .socketEventNone⟩
  prepared _ := true
  handshake := .sctxIoOk
  resigned := true
  resetup := true
  shutdown _ := none

def arriving (data : Bytes) : Round :=
  { calm with received := ⟨data, .blocked .socketEventNone⟩ }

/-- `http_parser` as far as its callbacks for these buffers are written down. -/
def recorded (script : List (Bytes × List Callback)) : ParserLib := fun _ fed =>
  match fed.getLast? with
  | none => ⟨[], 0⟩
  | some (buffer, _) => ⟨(script.lookup buffer).getD [], buffer.length⟩

/-- No other callbacks are made than those that are written down. -/
theorem recorded_mem {script : List (Bytes × List Callback)} {role : HttpRole}
    {fed : List (Bytes × Bool)} {callback : Callback}
    (there : callback ∈ (recorded script role fed).callbacks) :
    ∃ entry ∈ script, callback ∈ entry.2 := by
  rw [recorded] at there
  split at there
  · cases there
  · rename_i buffer _ _
    cases found : script.lookup buffer with
    | none =>
      rw [found] at there
      cases there
    | some callbacks =>
      rw [found] at there
      obtain ⟨front, back, rfl, _⟩ := List.lookup_eq_some_iff.mp found
      exact ⟨(buffer, callbacks), List.mem_append_right _ List.mem_cons_self, there⟩

end HttpProxyConnection
