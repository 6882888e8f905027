import Tigerso.HttpParser

/-!
# http/HttpMessage, http/HttpRequest, http/HttpResponse: an object with its parser

`HttpMessage` are the strings and the body of a message; here stand the other members of an
object and everything that can be called on it.
-/

open SystemCalls

def hpParseError : Int := -1
def hpParseComplete : Int := 0
def hpParseNeedMoredata : Int := 1
def hpParsePipeline : Int := 2

/-- `http_parser`: what `http_parser_execute` reports of the last one of the buffers that it was
given since `http_parser_init`. With a buffer goes what `on_headers_complete` returns then. -/
abbrev ParserLib := HttpRole → List (Bytes × Bool) → Execution

def ParserLib.callbacks (lib : ParserLib) (role : HttpRole) (fed : List (Bytes × Bool)) :
    List Callback :=
  (List.range fed.length).flatMap fun k => (lib role (fed.take (k + 1))).callbacks

/-- No value of a header is reported ahead of the first name. -/
def NameFirst : List Callback → Prop
  | [] => True
  | .onHeaderField _ :: _ => True
  | .onHeaderValue _ :: _ => False
  | _ :: rest => NameFirst rest

/-- What `http_parser` does in this respect. -/
def ParserLib.NamesFirst (lib : ParserLib) : Prop :=
  ∀ role fed, NameFirst (lib.callbacks role fed)

namespace HttpMessage

/-- The setters that edit the list of headers. -/
inductive HeaderEdit where
  | setValueByHeader (header value : Bytes)
  | appendHeader (header value : Bytes)
  | removeHeader (header : Bytes)
  | setContentLength (length : Nat)
  | setContentType (type : Bytes)
  | setCookie (cookie : Bytes)
  | setKeepAlive (bin : Bool)
  | markTrade

/-- The loop of `appendHeader`. -/
def appendValue (header value : Bytes) : List (Bytes × Bytes) → List (Bytes × Bytes)
  | [] => [(header, value)]
  | (name, old) :: rest =>
    if sameIgnoringCase header name then
      (name, (if old ≠ [] then old ++ literal ", " else old) ++ value) :: rest
    else (name, old) :: appendValue header value rest

def appendHeader (m : HttpMessage) (header value : Bytes) : HttpMessage :=
  { m with headers := appendValue header value m.headers }

/-- The loop of `setCookie`. -/
def addCookie (cookie : Bytes) : List (Bytes × Bytes) → List (Bytes × Bytes)
  | [] => [(literal "Set-Cookie", cookie)]
  | (name, old) :: rest =>
    if sameIgnoringCase (literal "Set-Cookie") name then
      (name, old ++ literal ";" ++ cookie) :: rest
    else (name, old) :: addCookie cookie rest

def setCookie (m : HttpMessage) (cookie : Bytes) : HttpMessage :=
  { m with headers := addCookie cookie m.headers }

def edit (m : HttpMessage) : HeaderEdit → HttpMessage
  | .setValueByHeader header value => m.setValueByHeader header value
  | .appendHeader header value => m.appendHeader header value
  | .removeHeader header => m.removeHeader header
  | .setContentLength length => m.setContentLength length
  | .setContentType type => m.setContentType type
  | .setCookie cookie => m.setCookie cookie
  | .setKeepAlive bin => m.setKeepAlive bin
  | .markTrade => m.markTrade

end HttpMessage

/-- `s.find(text)`; `none` is `npos`. -/
def findText (s text : Bytes) : Option Nat :=
  (List.range (s.length + 1)).find? fun pos => text.isPrefixOf (s.drop pos)

/-- `s.substr(pos)` throws when `pos` is behind the end. -/
def substr (s : Bytes) (pos : Nat) : Option Bytes :=
  if pos ≤ s.length then some (s.drop pos) else none

/-- `statusSet` says whether `statuscode_` was set, which the constructor leaves open; `fed` is
what the `http_parser` inside was given since it was initialised. -/
structure MessageObject where
  message : HttpMessage
  statusSet : Bool
  parser : HttpParser
  bodyCompletedHandle : Bool
  fed : List (Bytes × Bool)
  host : Bytes
  port : Bytes

namespace MessageObject
open HttpMessage

/-- A new object; `garbage` is what `malloc` left in the ring, and `status` what stands in
`statuscode_`. -/
def construct (role : HttpRole) (garbage : Nat → Byte) (status : Nat) : MessageObject where
  message := { HttpMessage.construct role garbage with statuscode := status }
  statusSet := false
  parser := .construct
  bodyCompletedHandle := false
  fed := []
  host := []
  port := []

/-- `HttpRequest::clear` and `HttpResponse::clear`. -/
def clear (o : MessageObject) : MessageObject :=
  { o with
    message := o.message.clear
    statusSet := true
    parser := o.parser.reset
    bodyCompletedHandle := false
    host := []
    port := [] }

/-- The host in a URL; after the scheme is cut off, `beg` is counted once more. -/
def hostOfUrl (url : Bytes) : Option Bytes := do
  let beg := if findText url (literal "http://") = some 0 then 8
    else if findText url (literal "https://") = some 0 then 9 else 0
  let url ← substr url beg
  let tp := (findText url (literal "/")).getD url.length
  let rest ← substr url beg
  match findText (rest.take tp) (literal ":") with
  | none => some rest
  | some ap => some (rest.take ap)

/-- `none` when a `substr` throws. -/
def getHost (o : MessageObject) : Option (Bytes × MessageObject) :=
  match o.message.role with
  | .httpRoleResponse => some ([], o)
  | .httpRoleRequest =>
    if o.host ≠ [] then some (o.host, o)
    else do
      let value := o.message.getValueByHeader (literal "host")
      let host := match findText value (literal ":") with
        | none => value
        | some pos => value.take pos
      let host ← if host = [] then hostOfUrl o.message.url else some host
      some (host, { o with host := host })

def portOfUrl (url : Bytes) : Option Bytes := do
  let url := match findText url (literal "http://") with
    | some pos => url.drop (pos + 7)
    | none =>
      match findText url (literal "https://") with
      | some pos => url.drop (pos + 8)
      | none => url
  let pos ← findText url (literal "/")
  let label ← findText (url.take pos) (literal ":")
  some ((url.take pos).drop (label + 1))

def getHostPort (o : MessageObject) : Bytes × MessageObject :=
  match o.message.role with
  | .httpRoleResponse => ([], o)
  | .httpRoleRequest =>
    if o.port ≠ [] then (o.port, o)
    else
      let host := o.message.getValueByHeader (literal "host")
      let port := match portOfUrl o.message.url with
        | some port => port
        | none =>
          match findText host (literal ":") with
          | some pos => host.drop (pos + 1)
          | none => literal "80"
      (port, { o with port := port })

theorem getHost_message {o o' : MessageObject} {host : Bytes}
    (got : o.getHost = some (host, o')) : o'.message = o.message := by
  rw [getHost] at got
  cases role : o.message.role with
  | httpRoleResponse =>
    rw [role] at got
    obtain ⟨_, rfl⟩ := Prod.mk.inj (Option.some.inj got)
    rfl
  | httpRoleRequest =>
    rw [role] at got
    dsimp only at got
    split_ifs at got
    · obtain ⟨_, rfl⟩ := Prod.mk.inj (Option.some.inj got)
      rfl
    · obtain ⟨_, _, got⟩ := Option.bind_eq_some_iff.mp got
      obtain ⟨_, rfl⟩ := Prod.mk.inj (Option.some.inj got)
      rfl
    · obtain ⟨_, rfl⟩ := Prod.mk.inj (Option.some.inj got)
      rfl

theorem getHostPort_message (o : MessageObject) : o.getHostPort.2.message = o.message := by
  rw [getHostPort]
  cases o.message.role with
  | httpRoleResponse => rfl
  | httpRoleRequest =>
    dsimp only
    split_ifs
    · rfl
    · rfl

/-- A message while the callbacks of one call are made; `bodies` counts the calls of
`bodyCompletedHandle_`. -/
structure Parsing where
  parser : HttpParser
  message : HttpMessage
  statusSet : Bool
  results : List WriteResult
  bodies : Nat

/-- One callback; `none` when it does not return. -/
def Parsing.deliver (bodyHandle : Bool) (d : Parsing) : Callback → Option Parsing
  | .onBody at_ =>
    let parser := if !d.parser.tunnelbody ∧ fileBigContent ≤ d.message.body.size then
      d.parser.labelTunnelBody else d.parser
    if parser.tunnelbody then
      some { d with parser := parser.setParseState .parseBodyNeedMoreData }
    else do
      let (_, body, results) ← d.message.body.writeIn at_ d.results
      some { d with
        parser := parser.setParseState .parseBodyNeedMoreData
        message := { d.message with body := body }
        results := results }
  | .onMessageComplete => do
    let (body, results) ← d.message.body.flushFile d.results
    some { d with
      parser := d.parser.setParseState .parseComplete
      message := { d.message with body := { body with file := body.file.close } }
      results := results
      bodies := if bodyHandle then d.bodies + 1 else d.bodies }
  | .onHeadersComplete start =>
    let (parser, message) := d.parser.onHeadersComplete d.message start
    some { d with
      parser := parser
      message := message
      statusSet := d.statusSet || message.role == .httpRoleResponse }
  | callback => do
    let (parser, message) ← d.parser.fire d.message callback
    some { d with parser := parser, message := message }

def Parsing.deliverAll (bodyHandle : Bool) (d : Parsing) : List Callback → Option Parsing
  | [] => some d
  | callback :: rest => do
    let d ← d.deliver bodyHandle callback
    d.deliverAll bodyHandle rest

/-- What every callback keeps, all of them keep. -/
theorem Parsing.deliverAll_keeps (P : Parsing → Prop) {bodyHandle : Bool}
    {callbacks : List Callback} (keeps : ∀ d d' callback, callback ∈ callbacks → P d →
      d.deliver bodyHandle callback = some d' → P d')
    {d d' : Parsing} (begins : P d) (done : d.deliverAll bodyHandle callbacks = some d') :
    P d' := by
  induction callbacks generalizing d with
  | nil =>
    obtain rfl := Option.some.inj done
    exact begins
  | cons callback rest ih =>
    obtain ⟨next, first, done⟩ := Option.bind_eq_some_iff.mp done
    have there : callback ∈ callback :: rest := List.mem_cons_self
    refine ih (fun d d' callback inside => ?_) (keeps d next callback there begins first) done
    exact keeps d d' callback (List.mem_cons_of_mem _ inside)

/-- The buffers that `http_parser` has been given when the callbacks for `buffer` are made; a
parser that was reset is initialised first. -/
def feed (o : MessageObject) (buffer : Bytes) : List (Bytes × Bool) :=
  (if o.parser.state = .parseUninit then [] else o.fed) ++ [(buffer, o.parser.nobody)]

/-- The code that `parse` returns for a buffer of `len` bytes. -/
def parseCode (role : HttpRole) (needMoreData : Bool) (ret : Int) (len : Nat) : Int :=
  if sizeT ret ≠ len then
    if !needMoreData ∧ role = .httpRoleRequest then hpParsePipeline else hpParseError
  else if needMoreData then hpParseNeedMoredata
  else hpParseComplete

/-- What a call of `parse` answers: its code, `parsedn` when it is set, the header strings that
`headerCompletedHandle_` was called with, and how often `bodyCompletedHandle_` was called. -/
structure ParseAnswer where
  code : Int
  parsedn : Option Int
  completed : List Bytes
  bodies : Nat
  deriving DecidableEq

/-- `HttpMessage::parse`; `results` are those of the writes to the file of the body. -/
def parse (lib : ParserLib) (o : MessageObject) (buffer : Bytes) (results : List WriteResult) :
    Option (ParseAnswer × MessageObject) :=
  if buffer.length = 0 then some (⟨hpParseNeedMoredata, none, [], 0⟩, o)
  else do
    let fed := o.feed buffer
    let e := lib o.message.role fed
    let parser := { o.parser.initParser with completed := [] }
    let d ← Parsing.deliverAll o.bodyCompletedHandle
      ⟨parser, o.message, o.statusSet, results, 0⟩ e.callbacks
    let ret := HttpBodyFile.toInt e.parsedn
    some (⟨parseCode o.message.role d.parser.needMoreData ret buffer.length,
        if 0 < ret then some ret else none, d.parser.completed.map HttpMessage.getHeader, d.bodies⟩,
      { o with message := d.message, statusSet := d.statusSet, parser := d.parser, fed := fed })

/-- Calls by the code that owns the object, with what the system answers to them. -/
inductive Op where
  | setMethod (method : Bytes)
  | setUrl (url : Bytes)
  | setStatuscode (code : Nat)
  | setDesc (desc : Bytes)
  | setVersion (version : Bytes)
  | edit (edit : HeaderEdit)
  | setChunkedTransfer (bin : Bool)
  | setBodyFileName (fn : Bytes) (disk : Option Bytes) (readable : Bool) (mimetype : Option Bytes)
  | appendBody (body : Bytes) (results : List WriteResult)
  | tunnelBody
  | shouldNoBody
  | setHeaderCompletedHandle
  | setBodyCompletedHandle
  | getHeader
  | getHost
  | getHostPort
  | getBodySize
  | parse (buffer : Bytes) (results : List WriteResult)
  | send2Socket (sendfile : Bool) (mcsock : Socket) (results : List WriteResult)
  | clear

/-- What a call shows. A header with a status code that was never set shows nothing. -/
inductive Observation where
  | silent
  | header (text : Option Bytes)
  | text (bytes : Bytes)
  | size (n : Nat)
  | wrote (ret : Int)
  | parsed (answer : ParseAnswer)
  | sent (ret : Int) (bytes : Bytes)
  /-- The call has not returned. -/
  | pending (bytes : Bytes)
  deriving DecidableEq

/-- `getHeader` and `toString`. -/
def headerString (o : MessageObject) : Option Bytes :=
  if o.message.role = .httpRoleResponse ∧ o.statusSet = false then none
  else some o.message.getHeader

/-- A member function of the class of one role; on the other class it does nothing. -/
def onRole (o : MessageObject) (role : HttpRole) (change : MessageObject → MessageObject) :
    MessageObject :=
  if o.message.role = role then change o else o

def withMessage (o : MessageObject) (m : HttpMessage) : MessageObject := { o with message := m }

/-- A call that shows something; `.error` with the bytes that were sent when it does not
return. -/
def apply (lib : ParserLib) (o : MessageObject) : Op → Except Bytes (Observation × MessageObject)
  | .setMethod method => .ok (.silent,
      o.onRole .httpRoleRequest fun o => o.withMessage (o.message.setMethod method))
  | .setUrl url => .ok (.silent,
      o.onRole .httpRoleRequest fun o => o.withMessage (o.message.setUrl url))
  | .setStatuscode code => .ok (.silent, o.onRole .httpRoleResponse fun o =>
      { o.withMessage (o.message.setStatuscode code) with statusSet := true })
  | .setDesc desc => .ok (.silent,
      o.onRole .httpRoleResponse fun o => o.withMessage (o.message.setDesc desc))
  | .setVersion version => .ok (.silent, o.withMessage (o.message.setVersion version))
  | .edit edit => .ok (.silent, o.withMessage (o.message.edit edit))
  | .setChunkedTransfer bin => .ok (.silent, o.withMessage (o.message.setChunkedTransfer bin))
  | .setBodyFileName fn disk readable mimetype =>
    if fn = [] then .ok (.wrote (-1), o)
    else .ok (.wrote 0, o.withMessage (o.message.setBodyFileName disk readable mimetype))
  | .appendBody body results =>
    match o.message.body.writeIn body results with
    | none => .error []
    | some (ret, b, _) => .ok (.wrote ret, o.withMessage { o.message with body := b })
  | .tunnelBody => .ok (.silent, { o with parser := o.parser.labelTunnelBody })
  | .shouldNoBody => .ok (.silent, o.onRole .httpRoleResponse fun o =>
      { o with parser := { o.parser with nobody := true } })
  | .setHeaderCompletedHandle => .ok (.silent,
      { o with parser := { o.parser with headerCompletedHandle := true } })
  | .setBodyCompletedHandle => .ok (.silent, { o with bodyCompletedHandle := true })
  | .getHeader => .ok (.header o.headerString, o)
  | .getHost =>
    match o.getHost with
    | none => .error []
    | some (host, o) => .ok (.text host, o)
  | .getHostPort => .ok (.text o.getHostPort.1, o.getHostPort.2)
  | .getBodySize => .ok (.size o.message.body.size, o)
  | .parse buffer results =>
    match o.parse lib buffer results with
    | none => .error []
    | some (answer, o) => .ok (.parsed answer, o)
  | .send2Socket sendfile mcsock results =>
    match Transfer.send2Socket sendfile mcsock ⟨o.message.body, [], results, []⟩ with
    | .error t => .error t.sent
    | .ok (ret, t) => .ok (.sent ret t.sent, o.withMessage { o.message with body := t.body })
  | .clear => .ok (.silent, o.clear)

def trace (lib : ParserLib) (o : MessageObject) : List Op → List Observation
  | [] => []
  | op :: rest =>
    match o.apply lib op with
    | .error bytes => [.pending bytes]
    | .ok (shown, o) => shown :: trace lib o rest

def after (lib : ParserLib) (o : MessageObject) : List Op → Option MessageObject
  | [] => some o
  | op :: rest =>
    match o.apply lib op with
    | .error _ => none
    | .ok (_, o) => after lib o rest

end MessageObject
