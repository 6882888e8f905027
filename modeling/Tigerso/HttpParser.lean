import Tigerso.HttpHelper

/-!
# http/HttpParser: what the callbacks of http_parser do to a message

`http_parser_execute` is what it reports: the callbacks it makes, in their order, and the
number of bytes it takes.
-/

open SystemCalls

inductive ParseState where
  | parseUninit
  | parseErr
  | parseInit
  | parseHeaderNeedMoreData
  | parseHeaderComplete
  | parseBodyNeedMoreData
  | parseComplete
  deriving DecidableEq, Repr

def fileBigContent : Nat := 256 * 1024

/-- What `http_parser` knows of the start line, and whether the body is chunked. -/
structure StartLine where
  method : Bytes
  statusCode : Nat
  httpMajor : Nat
  httpMinor : Nat
  chunked : Bool

inductive Callback where
  | onMessageBegin
  | onUrl (at_ : Bytes)
  | onStatus (at_ : Bytes)
  | onHeaderField (at_ : Bytes)
  | onHeaderValue (at_ : Bytes)
  | onHeadersComplete (start : StartLine)
  | onBody (at_ : Bytes)
  | onMessageComplete

/-- What `http_parser_execute` returns. -/
structure Execution where
  callbacks : List Callback
  parsedn : Nat

/-- `completed` are the messages that `headerCompletedHandle_` was called with during the last
`parse`. -/
structure HttpParser where
  state : ParseState
  nobody : Bool
  tunnelbody : Bool
  headerCompletedHandle : Bool
  completed : List HttpMessage

namespace HttpParser
open HttpMessage

def construct : HttpParser := ⟨.parseUninit, false, false, false, []⟩

def needMoreData (p : HttpParser) : Bool := decide (p.state ≠ .parseComplete)

/-- `state_ >= PARSE_HEADER_COMPLETE`. -/
def headerCompleted (p : HttpParser) : Bool :=
  match p.state with
  | .parseHeaderComplete => true
  | .parseBodyNeedMoreData => true
  | .parseComplete => true
  | _ => false

def reset (p : HttpParser) : HttpParser :=
  { p with
    state := .parseUninit
    nobody := false
    tunnelbody := false
    headerCompletedHandle := false }

def setParseState (p : HttpParser) (state : ParseState) : HttpParser := { p with state := state }

def labelTunnelBody (p : HttpParser) : HttpParser := { p with tunnelbody := true }

def onUrl (m : HttpMessage) (at_ : Bytes) : HttpMessage :=
  match m.role with
  | .httpRoleRequest => m.setUrl at_
  | .httpRoleResponse => m

def onStatus (m : HttpMessage) (at_ : Bytes) : HttpMessage :=
  match m.role with
  | .httpRoleRequest => m
  | .httpRoleResponse => m.setDesc at_

def onHeaderField (m : HttpMessage) (at_ : Bytes) : HttpMessage := { m with headerField := at_ }

def onHeaderValue (m : HttpMessage) (at_ : Bytes) : HttpMessage :=
  m.setValueByHeader m.headerField at_

/-- The message that `headerCompletedHandle_` is called with. -/
def headersCompleted (m : HttpMessage) (start : StartLine) : HttpMessage :=
  let m := match m.role with
    | .httpRoleRequest => m.setMethod start.method
    | .httpRoleResponse => m.setStatuscode start.statusCode
  if ¬ (start.httpMajor > 0 ∧ start.httpMinor > 0) then m.setVersion (literal "HTTP/1.0") else m

/-- `mime_type` when it is compared. -/
def mimeType (m : HttpMessage) : Bytes :=
  let mime_type := m.getValueByHeader (literal "content-type")
  if mime_type = [] then
    let mime_type := m.getValueByHeader (literal "mime-type")
    let found := mime_type.findIdx (· == 47)
    -- `found - 1` wraps around when the slash is the first byte
    if found < mime_type.length ∧ found ≠ 0 then mime_type.take (found - 1) else mime_type
  else mime_type

/-- The end of `on_headers_complete`. -/
def lookAtBody (p : HttpParser) (m : HttpMessage) (start : StartLine) : HttpParser × HttpMessage :=
  if p.nobody then (p, m)
  else
    let cntlen := m.getValueByHeader (literal "content-length")
    if cntlen ≠ [] then
      if atoi cntlen ≥ fileBigContent ∨ m.role = .httpRoleRequest then (p.labelTunnelBody, m)
      else (p, m)
    else if !sameIgnoringCase (mimeType m) (literal "text") ∨
        !sameIgnoringCase (mimeType m) (literal "image") then (p.labelTunnelBody, m)
    else if start.chunked then (p, { m with body := { m.body with chunked := true } })
    else (p, m)

def onHeadersComplete (p : HttpParser) (m : HttpMessage) (start : StartLine) :
    HttpParser × HttpMessage :=
  let m := headersCompleted m start
  let p := p.setParseState .parseHeaderComplete
  let p := if p.headerCompletedHandle then { p with completed := p.completed ++ [m] } else p
  lookAtBody p m start

def onBody (p : HttpParser) (m : HttpMessage) (at_ : Bytes) :
    Option (HttpParser × HttpMessage) := do
  let p := if !p.tunnelbody ∧ fileBigContent ≤ m.body.size then p.labelTunnelBody else p
  let m ← if p.tunnelbody then some m else m.appendBody at_ []
  some (p.setParseState .parseBodyNeedMoreData, m)

def onMessageComplete (p : HttpParser) (m : HttpMessage) : Option (HttpParser × HttpMessage) := do
  let body ← m.body.closeFile []
  some (p.setParseState .parseComplete, { m with body := body })

/-- One callback; `none` when it does not return. -/
def fire (p : HttpParser) (m : HttpMessage) : Callback → Option (HttpParser × HttpMessage)
  | .onMessageBegin => some (p.setParseState .parseHeaderNeedMoreData, m)
  | .onUrl at_ => some (p, HttpParser.onUrl m at_)
  | .onStatus at_ => some (p, HttpParser.onStatus m at_)
  | .onHeaderField at_ => some (p, HttpParser.onHeaderField m at_)
  | .onHeaderValue at_ => some (p, HttpParser.onHeaderValue m at_)
  | .onHeadersComplete start => some (p.onHeadersComplete m start)
  | .onBody at_ => p.onBody m at_
  | .onMessageComplete => p.onMessageComplete m

def fireAll (p : HttpParser) (m : HttpMessage) : List Callback → Option (HttpParser × HttpMessage)
  | [] => some (p, m)
  | callback :: rest => do
    let (p, m) ← p.fire m callback
    fireAll p m rest

/-- `initParser`; nothing of it depends on the buffer when this one is not empty. -/
def initParser (p : HttpParser) : HttpParser :=
  if p.state = .parseUninit then { p with state := .parseInit } else p

/-- `HttpParser::parse` of a buffer that is not empty. -/
def parse (p : HttpParser) (m : HttpMessage) (e : Execution) :
    Option (Nat × HttpParser × HttpMessage) := do
  let (p, m) ← fireAll { p.initParser with completed := [] } m e.callbacks
  some (e.parsedn, p, m)

end HttpParser
