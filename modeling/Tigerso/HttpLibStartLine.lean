import Tigerso.HttpLib

/-!
# http/lib/http_parser: the start line

The settings are the ones of `initParser`: `on_chunk_header` and `on_chunk_complete` are NULL,
and of the callbacks only `on_headers_complete` returns anything but 0; `answer` is what it
returns. So `http_errno` is `HPE_OK` whenever a callback is made. `parser->state` and
`CURRENT_STATE()` are one field, since nobody reads the former in between.
-/

open SystemCalls

namespace HttpLib

/-- The pointers into the buffer. -/
inductive Mark where
  | headerField
  | headerValue
  | url
  | body
  | status
  deriving DecidableEq, Repr

/-- In the order in which they are reported at the end. -/
def Mark.all : List Mark := [.headerField, .headerValue, .url, .body, .status]

def Mark.callback : Mark → Bytes → Callback
  | .headerField => .onHeaderField
  | .headerValue => .onHeaderValue
  | .url => .onUrl
  | .body => .onBody
  | .status => .onStatus

/-- A mark that is set is the bytes from it to `p`. -/
structure Run where
  parser : Parser
  marks : Mark → Option Bytes
  callbacks : List Callback

/-- What one turn of the loop does: `passed` counts the bytes by which `p` was moved on inside
of the turn. -/
inductive Step where
  /-- `break`. -/
  | next (r : Run) (passed : Nat)
  /-- `SET_ERRNO` and `goto error`. -/
  | error (e : Errno) (r : Run) (passed : Nat)
  /-- `RETURN((p - data) + 1)`. -/
  | leave (r : Run) (passed : Nat)
  /-- An assertion that fails, or a read behind the end of a string. -/
  | abort

/-- A turn that goes on at `p` after it was moved. -/
def Step.behind (passed : Nat) : Step → Step
  | .next r more => .next r (passed + more)
  | .error e r more => .error e r (passed + more)
  | .leave r more => .leave r (passed + more)
  | .abort => .abort

def Parser.setErrno (q : Parser) (e : Errno) : Parser := { q with httpErrno := e }

namespace Run

def updateState (r : Run) (s : State) : Run := { r with parser := { r.parser with state := s } }

def callbackNotify (r : Run) (callback : Callback) : Run :=
  { r with callbacks := r.callbacks ++ [callback] }

def mark (r : Run) (m : Mark) : Run :=
  match r.marks m with
  | some _ => r
  | none => { r with marks := Function.update r.marks m (some []) }

/-- `CALLBACK_DATA_`, when `more` bytes behind `p` belong to the data. -/
def callbackData_ (r : Run) (m : Mark) (more : Bytes) : Run :=
  match r.marks m with
  | some at_ =>
    { r with
      marks := Function.update r.marks m none
      callbacks := r.callbacks ++ [m.callback (at_ ++ more)] }
  | none => r

def callbackData (r : Run) (m : Mark) : Run := r.callbackData_ m []

/-- `p` goes behind these bytes. -/
def advance (r : Run) (bytes : Bytes) : Run :=
  { r with marks := fun m => (r.marks m).map (· ++ bytes) }

def setHeaderState (r : Run) (h : HeaderState) : Run :=
  { r with parser := { r.parser with headerState := h } }

def setIndex (r : Run) (index : Nat) : Run := { r with parser := { r.parser with index := index } }

def setFlags (r : Run) (flags : Flags) : Run :=
    { r with parser := { r.parser with flags := flags } }

def setContentLength (r : Run) (n : Nat) : Run :=
  { r with parser := { r.parser with contentLength := n } }

def setNread (r : Run) (n : Nat) : Run := { r with parser := { r.parser with nread := n } }

/-- The `nread` of `COUNT_HEADER_SIZE`. -/
def count (r : Run) (v : Nat) : Run := r.setNread ((r.parser.nread + v) % 2 ^ 32)

/-- `COUNT_HEADER_SIZE`: where it does not fail, `k` follows. -/
def countHeaderSize (r : Run) (v passed : Nat) (k : Run → Step) : Step :=
  if (r.count v).parser.nread > httpMaxHeaderSize then
    .error .hpeHeaderOverflow (r.count v) passed
  else k (r.count v)

end Run

def httpMessageNeedsEof (q : Parser) : Bool :=
  if q.type = .httpRequest then false
  else if q.statusCode / 100 = 1 ∨ q.statusCode = 204 ∨ q.statusCode = 304 ∨
      q.flags.fSkipbody then false
  else if q.flags.fChunked ∨ q.contentLength ≠ ullongMax then false
  else true

def httpShouldKeepAlive (q : Parser) : Bool :=
  if q.httpMajor > 0 ∧ q.httpMinor > 0 then
    if q.flags.fConnectionClose then false else !httpMessageNeedsEof q
  else if !q.flags.fConnectionKeepAlive then false
  else !httpMessageNeedsEof q

def startState (q : Parser) : State :=
  match q.type with
  | .httpRequest => .sStartReq
  | _ => .sStartRes

def newMessage (strict : Bool) (q : Parser) : State :=
  if strict then (if httpShouldKeepAlive q then startState q else .sDead) else startState q

/-- What `on_headers_complete` reads. -/
def Parser.startLine (q : Parser) : StartLine where
  method := methodStrings q.method
  statusCode := q.statusCode
  httpMajor := q.httpMajor
  httpMinor := q.httpMinor
  chunked := q.flags.fChunked

section
variable (strict : Bool) (r : Run) (ch : Byte)

/-- `STRICT_CHECK(ch != expected)` and the state after it. -/
def expect (expected : Byte) (s : State) : Step :=
  if strict ∧ ch ≠ expected then .error .hpeStrict r 0
  else .next (r.updateState s) 0

def sDead : Step :=
  if ch = cr ∨ ch = lf then .next r 0 else .error .hpeClosedConnection r 0

/-- `flags = 0` and `content_length = ULLONG_MAX`. -/
def freshMessage (r : Run) : Run := (r.setFlags .zero).setContentLength ullongMax

def firstMethod (ch : Byte) : Option Method :=
  if ch = ascii 'A' then some .httpAcl
  else if ch = ascii 'B' then some .httpBind
  else if ch = ascii 'C' then some .httpConnect
  else if ch = ascii 'D' then some .httpDelete
  else if ch = ascii 'G' then some .httpGet
  else if ch = ascii 'H' then some .httpHead
  else if ch = ascii 'L' then some .httpLock
  else if ch = ascii 'M' then some .httpMkcol
  else if ch = ascii 'N' then some .httpNotify
  else if ch = ascii 'O' then some .httpOptions
  else if ch = ascii 'P' then some .httpPost
  else if ch = ascii 'R' then some .httpReport
  else if ch = ascii 'S' then some .httpSubscribe
  else if ch = ascii 'T' then some .httpTrace
  else if ch = ascii 'U' then some .httpUnlock
  else none

def Run.setMethod (r : Run) (m : Method) : Run := { r with parser := { r.parser with method := m } }

def sStartReq : Step :=
  if ch = cr ∨ ch = lf then .next r 0
  else
    let r := freshMessage r
    if !isAlpha ch then .error .hpeInvalidMethod r 0
    else
      let r := (r.setMethod .httpDelete).setIndex 1
      match firstMethod ch with
      | none => .error .hpeInvalidMethod r 0
      | some m =>
        .next (((r.setMethod m).updateState .sReqMethod).callbackNotify .onMessageBegin) 0

def Run.setType (r : Run) (t : ParserType) : Run := { r with parser := { r.parser with type := t } }

def sStartReqOrRes : Step :=
  if ch = cr ∨ ch = lf then .next r 0
  else if ch = ascii 'H' then
    .next (((freshMessage r).updateState .sResOrRespH).callbackNotify .onMessageBegin) 0
  else sStartReq (((freshMessage r).setType .httpRequest).updateState .sStartReq) ch

def sResOrRespH : Step :=
  if ch = ascii 'T' then .next ((r.setType .httpResponse).updateState .sResHT) 0
  else if ch ≠ ascii 'E' then .error .hpeInvalidConstant r 0
  else
    .next ((((r.setType .httpRequest).setMethod .httpHead).setIndex 2).updateState
      .sReqMethod) 0

/-- Also an empty line ahead of the response begins a message. -/
def sStartRes : Step :=
  let r := freshMessage r
  if ch = ascii 'H' then .next ((r.updateState .sResH).callbackNotify .onMessageBegin) 0
  else if ch = cr ∨ ch = lf then .next (r.callbackNotify .onMessageBegin) 0
  else .error .hpeInvalidConstant r 0

/-- The methods that share their first letters: the position, the letter there and the method
that this one turns into. -/
def otherMethod : Method → Nat → Byte → Option Method
  | .httpPost, 1, ch =>
    if ch = ascii 'U' then some .httpPut
    else if ch = ascii 'A' then some .httpPatch
    else if ch = ascii 'R' then some .httpPropfind
    else none
  | .httpConnect, 1, ch => if ch = ascii 'H' then some .httpCheckout else none
  | .httpConnect, 2, ch => if ch = ascii 'P' then some .httpCopy else none
  | .httpMkcol, 1, ch =>
    if ch = ascii 'O' then some .httpMove
    else if ch = ascii 'E' then some .httpMerge
    else none
  | .httpMkcol, 2, ch => if ch = ascii 'A' then some .httpMkactivity else none
  | .httpMkcol, 3, ch => if ch = ascii 'A' then some .httpMkcalendar else none
  | .httpSubscribe, 1, ch => if ch = ascii 'E' then some .httpSearch else none
  | .httpReport, 2, ch => if ch = ascii 'B' then some .httpRebind else none
  | .httpPropfind, 4, ch => if ch = ascii 'P' then some .httpProppatch else none
  | .httpPut, 2, ch => if ch = ascii 'R' then some .httpPurge else none
  | .httpLock, 1, ch => if ch = ascii 'I' then some .httpLink else none
  | .httpUnlock, 2, ch =>
    if ch = ascii 'S' then some .httpUnsubscribe
    else if ch = ascii 'B' then some .httpUnbind
    else none
  | .httpUnlock, 3, ch => if ch = ascii 'I' then some .httpUnlink else none
  | _, _, _ => none

/-- `++parser->index`, in 7 bits. -/
def Run.nextIndex (r : Run) : Run := r.setIndex ((r.parser.index + 1) % 2 ^ 7)

def sReqMethod : Step :=
  if ch = 0 then .error .hpeInvalidMethod r 0
  else
    match (methodStrings r.parser.method ++ [0])[r.parser.index]? with
    | none => .abort
    | some expected =>
      if ch = sp ∧ expected = 0 then .next (r.updateState .sReqSpacesBeforeUrl).nextIndex 0
      else if ch = expected then .next r.nextIndex 0
      else if isAlpha ch then
        match otherMethod r.parser.method r.parser.index ch with
        | some m => .next (r.setMethod m).nextIndex 0
        | none => .error .hpeInvalidMethod r 0
      else if ch = ascii '-' ∧ r.parser.index = 1 ∧ r.parser.method = .httpMkcol then
        .next (r.setMethod .httpMsearch).nextIndex 0
      else .error .hpeInvalidMethod r 0

/-- `parse_url_char` in the states of a URL. -/
def urlChar : Step :=
  let r := r.updateState (parseUrlChar strict r.parser.state ch)
  if r.parser.state = .sDead then .error .hpeInvalidUrl r 0 else .next r 0

def sReqSpacesBeforeUrl : Step :=
  if ch = sp then .next r 0
  else
    let r := r.mark .url
    urlChar strict
      (if r.parser.method = .httpConnect then r.updateState .sReqServerStart else r) ch

/-- `s_req_schema` to `s_req_server_start`. -/
def sReqSchema : Step :=
  if ch = sp ∨ ch = cr ∨ ch = lf then .error .hpeInvalidUrl r 0 else urlChar strict r ch

def Run.setVersion (r : Run) (major minor : Nat) : Run :=
  { r with parser := { r.parser with httpMajor := major, httpMinor := minor } }

/-- `s_req_server` to `s_req_fragment`. -/
def sReqPath : Step :=
  if ch = sp then .next ((r.updateState .sReqHttpStart).callbackData .url) 0
  else if ch = cr ∨ ch = lf then
    .next (((r.setVersion 0 9).updateState
      (if ch = cr then .sReqLineAlmostDone else .sHeaderFieldStart)).callbackData .url) 0
  else urlChar strict r ch

def sReqHttpStart : Step :=
  if ch = ascii 'H' then .next (r.updateState .sReqHttpH) 0
  else if ch = sp then .next r 0
  else .error .hpeInvalidConstant r 0

/-- The first digit of `http_major`, which is at least `least`. -/
def firstMajor (least : Byte) (s : State) : Step :=
  if ch < least ∨ 57 < ch then .error .hpeInvalidVersion r 0
  else .next ((r.setVersion (ch.toNat - 48) r.parser.httpMinor).updateState s) 0

/-- `s_res_http_major` and `s_req_http_major`; `s` comes after the dot. -/
def httpMajor (s : State) : Step :=
  if ch = ascii '.' then .next (r.updateState s) 0
  else if !isNum ch then .error .hpeInvalidVersion r 0
  else
    let r := r.setVersion ((r.parser.httpMajor * 10 + (ch.toNat - 48)) % 2 ^ 16) r.parser.httpMinor
    if r.parser.httpMajor > 999 then .error .hpeInvalidVersion r 0 else .next r 0

def firstMinor (s : State) : Step :=
  if !isNum ch then .error .hpeInvalidVersion r 0
  else .next ((r.setVersion r.parser.httpMajor (ch.toNat - 48)).updateState s) 0

/-- One more digit of `http_minor`. -/
def httpMinor : Step :=
  if !isNum ch then .error .hpeInvalidVersion r 0
  else
    let r := r.setVersion r.parser.httpMajor ((r.parser.httpMinor * 10 + (ch.toNat - 48)) % 2 ^ 16)
    if r.parser.httpMinor > 999 then .error .hpeInvalidVersion r 0 else .next r 0

def sResHttpMinor : Step :=
  if ch = sp then .next (r.updateState .sResFirstStatusCode) 0 else httpMinor r ch

def sReqHttpMinor : Step :=
  if ch = cr then .next (r.updateState .sReqLineAlmostDone) 0
  else if ch = lf then .next (r.updateState .sHeaderFieldStart) 0
  else httpMinor r ch

def Run.setStatus (r : Run) (code : Nat) : Run :=
  { r with parser := { r.parser with statusCode := code } }

def sResFirstStatusCode : Step :=
  if !isNum ch then
    if ch = sp then .next r 0 else .error .hpeInvalidStatus r 0
  else .next ((r.setStatus (ch.toNat - 48)).updateState .sResStatusCode) 0

def sResStatusCode : Step :=
  if !isNum ch then
    if ch = sp then .next (r.updateState .sResStatusStart) 0
    else if ch = cr then .next (r.updateState .sResLineAlmostDone) 0
    else if ch = lf then .next (r.updateState .sHeaderFieldStart) 0
    else .error .hpeInvalidStatus r 0
  else
    let r := r.setStatus ((r.parser.statusCode * 10 + (ch.toNat - 48)) % 2 ^ 16)
    if r.parser.statusCode > 999 then .error .hpeInvalidStatus r 0 else .next r 0

def sResStatusStart : Step :=
  if ch = cr then .next (r.updateState .sResLineAlmostDone) 0
  else if ch = lf then .next (r.updateState .sHeaderFieldStart) 0
  else .next (((r.mark .status).updateState .sResStatus).setIndex 0) 0

def sResStatus : Step :=
  if ch = cr then .next ((r.updateState .sResLineAlmostDone).callbackData .status) 0
  else if ch = lf then .next ((r.updateState .sHeaderFieldStart).callbackData .status) 0
  else .next r 0

def sReqLineAlmostDone : Step :=
  if ch ≠ lf then .error .hpeLfExpected r 0
  else .next (r.updateState .sHeaderFieldStart) 0

end

end HttpLib
