import Tigerso.EventsLoop
import Tigerso.HttpParser
import Tigerso.SocketChannel

/-!
# http/HttpConnection: the handlers of one client of the HTTP server

What the kernel, OpenSSL and the disk answer to a call of a handler is its input. A handler
that pushes the connection's identifier changes the queues `gc_` of the factory.
-/

open SystemCalls

abbrev IDType := Nat
abbrev ConnectionType := Nat

def httpConnection : ConnectionType := 0
def httpProxyConnection : ConnectionType := 1

structure Acceptor where
  type : ConnectionType
  sslEnabled : Bool
  rootDir : Bytes

inductive HttpState where
  | tcpInit
  | httpsHandshake
  | httpsHandshakeDone
  | recvRequest
  | recvRequestDone
  | sendResponse
  | sendResponseDone
  deriving DecidableEq, Repr

inductive HttpHandler where
  | readHandle
  | writeHandle
  | errorHandle
  | rdhupHandle
  | timeoutHandle
  | closeHandle
  deriving DecidableEq, Repr

/-- `SSL_accept`. -/
inductive Handshake where
  | sctxIoOk
  | sctxIoRecall (waits : SocketEvent)
  | sctxIoError

/-- `recvNIO` on a socket that is there; when it fails, `kept` is what an SSL context that
is kept waits for. -/
inductive Received where
  | bytes (data : Bytes)
  | failed (kept : Option SocketEvent)

/-- `sendNIO` on a socket that is there. -/
inductive Sent where
  | partly
  | done
  | failed (kept : Option SocketEvent)

/-- The disk as `doGet` sees it. -/
structure Disk where
  contents : Bytes → Option Bytes
  readable : Bytes → Bool
  mimetype : Bytes → Option Bytes

/-- What one call of a handler is answered; of the results only those are looked at that
the call asks for. -/
structure Answers where
  prepared : Bool
  accepted : Handshake
  received : Received
  execution : Execution
  sent : Sent
  shutdown : Option SocketEvent
  disk : Disk

/-- `attached` are the responses that were handed to the out-buffer. -/
structure HttpConnection where
  id_ : IDType
  acptptr : Acceptor
  sock : NetSocket HttpHandler
  state : HttpState
  request : HttpMessage
  response : HttpMessage
  parser : HttpParser
  attached : List HttpMessage

abbrev Gc := ConnectionType → List IDType

namespace HttpConnection

def construct (id : IDType) (acptptr : Acceptor) (garbage : Nat → Byte) : HttpConnection where
  id_ := id
  acptptr := acptptr
  sock := .construct
  state := .tcpInit
  request := .construct .httpRoleRequest garbage
  response := .construct .httpRoleResponse garbage
  parser := .construct
  attached := []

def getType (c : HttpConnection) : ConnectionType := c.acptptr.type

def resetResources (c : HttpConnection) : HttpConnection :=
  { c with
    request := c.request.clear
    response := c.response.clear
    parser := c.parser.reset
    state := .recvRequest }

/-- `HttpConnection::recycle` of the connection itself. -/
def restart (c : HttpConnection) : HttpConnection :=
  { { c with sock := c.sock.reset }.resetResources with state := .tcpInit }

/-- `ConnectionFactory::recycle`. -/
def push (c : HttpConnection) (gc : Gc) : Gc :=
  Function.update gc c.getType (gc c.getType ++ [c.id_])

/-- What a handler leaves: its result, the connection and the queues. -/
structure Outcome where
  ret : Int
  conn : HttpConnection
  gc : Gc

def recycle (c : HttpConnection) (gc : Gc) : HttpConnection × Gc := (c.restart, c.push gc)

/-- Both events off, and `handler` on the one that the context waits for. -/
def waitFor (c : HttpConnection) (handler : HttpHandler) (event : SocketEvent) : HttpConnection :=
  { c with sock := (c.sock.disableReadEvent.disableWriteEvent.setEventHandle handler
      event).enableEvent event }

def closeHandle (a : Answers) (c : HttpConnection) (gc : Gc) : Outcome :=
  let (ret, sock) := c.sock.close a.shutdown
  let c := { c with sock := sock }
  if ret ≠ 0 ∧ c.sock.isSSL then
    ⟨eventCallbackContinue, c.waitFor .closeHandle c.sock.wanted, gc⟩
  else
    let (c, gc) := c.recycle gc
    ⟨eventCallbackBreak, c, gc⟩

def errorHandle (a : Answers) (c : HttpConnection) (gc : Gc) : Outcome := closeHandle a c gc

def rdhupHandle (a : Answers) (c : HttpConnection) (gc : Gc) : Outcome := closeHandle a c gc

def timeoutHandle (_ : Answers) (c : HttpConnection) (gc : Gc) : Outcome :=
  ⟨0, { c with sock := c.sock.tcpClose }, gc⟩

/-- The context after a call that failed; without one there is none afterwards. -/
def afterFailure (sock : NetSocket HttpHandler) (kept : Option SocketEvent) :
    NetSocket HttpHandler :=
  match if sock.isSSL then kept else none with
  | some event => { sock with serrno := event }
  | none => sock.destory

/-- `EVENT_CALLBACK_BREAK` and `TIGERSO_IO_OK` are the same number. -/
def sslHandShake (a : Answers) (c : HttpConnection) (gc : Gc) : Outcome :=
  if !c.sock.isSSL then closeHandle a c gc
  else
    match a.accepted with
    | .sctxIoOk =>
      let sock := (c.sock.disableWriteEvent.setEventHandle .readHandle
        .socketEventRead).enableReadEvent
      ⟨tigersoIoOk, { c with state := .httpsHandshakeDone, sock := sock }, gc⟩
    | .sctxIoRecall waits =>
      let c := { c with sock := { c.sock with serrno := waits } }
      ⟨tigersoIoRecall, c.waitFor .readHandle c.sock.wanted, gc⟩
    | .sctxIoError =>
      { closeHandle a { c with sock := c.sock.destory } gc with ret := tigersoIoError }

def filepath (root url : Bytes) : Bytes :=
  let path := url.dropWhile (· != 47)
  if 1 < path.length then root ++ path else root ++ literal "/" ++ literal "index.html"

/-- `switchRequest`; all methods are answered like GET. -/
def doGet (root : Bytes) (disk : Disk) (request response : HttpMessage) : Option HttpMessage :=
  let path := filepath root request.url
  match disk.contents path with
  | none => HttpHelper.prepare403Response response
  | some data =>
    let response := response.setStatuscode 200
    let response := response.setKeepAlive request.isKeepAlive
    let response := response.setBodyFileName (some data) (disk.readable path) (disk.mimetype path)
    let response := response.setValueByHeader (literal "Server") (literal "tigerso")
    some (response.setChunkedTransfer true)

/-- `attachHttpMessage(&response_)`, and the write handler is waited for. -/
def attachResponse (c : HttpConnection) : HttpConnection :=
  { c with
    attached := c.attached ++ [c.response]
    sock := (c.sock.disableReadEvent.setEventHandle .writeHandle
      .socketEventWrite).enableWriteEvent }

/-- `case RECV_REQUEST_DONE`. -/
def recvRequestDone (a : Answers) (c : HttpConnection) (gc : Gc) : Option Outcome := do
  let response ← doGet c.acptptr.rootDir a.disk c.request c.response
  let c := { c with response := response }.attachResponse
  some ⟨eventCallbackContinue, { c with state := .sendResponse }, gc⟩

/-- A request that the parser did not take whole; the state is not changed. -/
def badRequest (c : HttpConnection) (gc : Gc) : Option Outcome := do
  let response ← HttpHelper.prepare400Response c.response
  some ⟨eventCallbackBreak, { c with response := response }.attachResponse, gc⟩

def parseRequest (a : Answers) (data : Bytes) (c : HttpConnection) (gc : Gc) : Option Outcome := do
  let (parsedn, parser, request) ← c.parser.parse c.request a.execution
  let c := { c with parser := parser, request := request }
  if parsedn ≠ data.length then badRequest c gc
  else if c.parser.needMoreData then some ⟨eventCallbackContinue, c, gc⟩
  else recvRequestDone a { c with state := .recvRequestDone } gc

/-- `recvNIO` failed. -/
def recvFailed (a : Answers) (c : HttpConnection) (gc : Gc) : Outcome :=
  if c.sock.isSSL then
    match c.sock.wanted with
    | .socketEventNone =>
      closeHandle a { c with sock := c.sock.disableReadEvent.disableWriteEvent } gc
    | event =>
      ⟨eventCallbackContinue, { c with sock :=
        ((c.sock.disableReadEvent.disableWriteEvent.setEventHandle .readHandle event).disableEvent
          .socketEventRead).enableEvent event }, gc⟩
  else closeHandle a c gc

/-- `case RECV_REQUEST`. -/
def recvRequest (a : Answers) (c : HttpConnection) (gc : Gc) : Option Outcome :=
  if !c.sock.exist then some (recvFailed a c gc)
  else
    match a.received with
    | .failed kept => some (recvFailed a { c with sock := afterFailure c.sock kept } gc)
    | .bytes [] =>
      if !c.parser.needMoreData then some (closeHandle a c gc)
      else some ⟨eventCallbackContinue, { c with sock :=
        ((c.sock.setEventHandle .readHandle .socketEventRead).disableWriteEvent).enableReadEvent },
        gc⟩
    | .bytes data => parseRequest a data c gc

/-- `case HTTPS_HANDSHAKE` and the case behind it. -/
def httpsHandshake (a : Answers) (c : HttpConnection) (gc : Gc) : Option Outcome :=
  let o := sslHandShake a c gc
  if o.ret ≠ tigersoIoOk then some { o with ret := eventCallbackContinue }
  else recvRequest a { o.conn with state := .recvRequest } o.gc

/-- `case TCP_INIT`. -/
def tcpInit (a : Answers) (c : HttpConnection) (gc : Gc) : Option Outcome :=
  if c.acptptr.sslEnabled then
    httpsHandshake a
      { c with sock := c.sock.prepareSSLContext a.prepared, state := .httpsHandshake } gc
  else recvRequest a { c with state := .recvRequest } gc

/-- `readHandle`: `none` for the states in which its loop has no case. -/
def readHandle (a : Answers) (c : HttpConnection) (gc : Gc) : Option Outcome :=
  match c.state with
  | .tcpInit => tcpInit a c gc
  | .httpsHandshake => httpsHandshake a c gc
  | .httpsHandshakeDone => recvRequest a { c with state := .recvRequest } gc
  | .recvRequest => recvRequest a c gc
  | .recvRequestDone => recvRequestDone a c gc
  | .sendResponse => none
  | .sendResponseDone => none

/-- `sendNIO` failed. -/
def sendFailed (a : Answers) (c : HttpConnection) (gc : Gc) : Outcome :=
  if c.sock.isSSL then
    match c.sock.wanted with
    | .socketEventNone =>
      closeHandle a { c with sock := c.sock.disableReadEvent.disableWriteEvent } gc
    | event => ⟨eventCallbackContinue, c.waitFor .writeHandle event, gc⟩
  else closeHandle a c gc

def sendDone (a : Answers) (c : HttpConnection) (gc : Gc) : Outcome :=
  let c := { c with state := .sendResponseDone }
  if c.response.isKeepAlive then
    let c := c.resetResources
    ⟨eventCallbackContinue, { c with sock := (c.sock.disableWriteEvent.setEventHandle .readHandle
      .socketEventRead).enableReadEvent }, gc⟩
  else closeHandle a c gc

def writeHandle (a : Answers) (c : HttpConnection) (gc : Gc) : Outcome :=
  if !c.sock.exist then sendFailed a c gc
  else
    match a.sent with
    | .failed kept => sendFailed a { c with sock := afterFailure c.sock kept } gc
    | .partly => ⟨eventCallbackContinue, c, gc⟩
    | .done => sendDone a c gc

def handle (handler : HttpHandler) (a : Answers) (c : HttpConnection) (gc : Gc) : Option Outcome :=
  match handler with
  | .readHandle => readHandle a c gc
  | .writeHandle => some (writeHandle a c gc)
  | .errorHandle => some (errorHandle a c gc)
  | .rdhupHandle => some (rdhupHandle a c gc)
  | .timeoutHandle => some (timeoutHandle a c gc)
  | .closeHandle => some (closeHandle a c gc)

end HttpConnection
