import Tigerso.HttpMessageObject

/-!
# http/lib/http_parser: the parser object, its character classes and parse_url_char

`strict` is `HTTP_PARSER_STRICT`, which some of the makefiles set to 0.
-/

open SystemCalls

namespace HttpLib

inductive State where
  | sDead
  | sStartReqOrRes
  | sResOrRespH
  | sStartRes
  | sResH
  | sResHT
  | sResHTT
  | sResHTTP
  | sResFirstHttpMajor
  | sResHttpMajor
  | sResFirstHttpMinor
  | sResHttpMinor
  | sResFirstStatusCode
  | sResStatusCode
  | sResStatusStart
  | sResStatus
  | sResLineAlmostDone
  | sStartReq
  | sReqMethod
  | sReqSpacesBeforeUrl
  | sReqSchema
  | sReqSchemaSlash
  | sReqSchemaSlashSlash
  | sReqServerStart
  | sReqServer
  | sReqServerWithAt
  | sReqPath
  | sReqQueryStringStart
  | sReqQueryString
  | sReqFragmentStart
  | sReqFragment
  | sReqHttpStart
  | sReqHttpH
  | sReqHttpHT
  | sReqHttpHTT
  | sReqHttpHTTP
  | sReqFirstHttpMajor
  | sReqHttpMajor
  | sReqFirstHttpMinor
  | sReqHttpMinor
  | sReqLineAlmostDone
  | sHeaderFieldStart
  | sHeaderField
  | sHeaderValueDiscardWs
  | sHeaderValueDiscardWsAlmostDone
  | sHeaderValueDiscardLws
  | sHeaderValueStart
  | sHeaderValue
  | sHeaderValueLws
  | sHeaderAlmostDone
  | sChunkSizeStart
  | sChunkSize
  | sChunkParameters
  | sChunkSizeAlmostDone
  | sHeadersAlmostDone
  | sHeadersDone
  | sChunkData
  | sChunkDataAlmostDone
  | sChunkDataDone
  | sBodyIdentity
  | sBodyIdentityEof
  | sMessageDone
  deriving DecidableEq, Repr

/-- `state <= s_headers_done`. -/
def parsingHeader : State → Bool
  | .sChunkData => false
  | .sChunkDataAlmostDone => false
  | .sChunkDataDone => false
  | .sBodyIdentity => false
  | .sBodyIdentityEof => false
  | .sMessageDone => false
  | _ => true

inductive HeaderState where
  | hGeneral
  | hC
  | hCO
  | hCON
  | hMatchingConnection
  | hMatchingProxyConnection
  | hMatchingContentLength
  | hMatchingTransferEncoding
  | hMatchingUpgrade
  | hConnection
  | hContentLength
  | hTransferEncoding
  | hUpgrade
  | hMatchingTransferEncodingChunked
  | hMatchingConnectionTokenStart
  | hMatchingConnectionKeepAlive
  | hMatchingConnectionClose
  | hMatchingConnectionUpgrade
  | hMatchingConnectionToken
  | hTransferEncodingChunked
  | hConnectionKeepAlive
  | hConnectionClose
  | hConnectionUpgrade
  deriving DecidableEq, Repr

inductive ParserType where
  | httpRequest
  | httpResponse
  | httpBoth
  deriving DecidableEq, Repr

inductive Method where
  | httpDelete | httpGet | httpHead | httpPost | httpPut
  | httpConnect | httpOptions | httpTrace
  | httpCopy | httpLock | httpMkcol | httpMove | httpPropfind | httpProppatch
  | httpSearch | httpUnlock | httpBind | httpRebind | httpUnbind | httpAcl
  | httpReport | httpMkactivity | httpCheckout | httpMerge
  | httpMsearch | httpNotify | httpSubscribe | httpUnsubscribe
  | httpPatch | httpPurge | httpMkcalendar | httpLink | httpUnlink
  deriving DecidableEq, Repr

def methodStrings : Method → Bytes
  | .httpDelete => literal "DELETE"
  | .httpGet => literal "GET"
  | .httpHead => literal "HEAD"
  | .httpPost => literal "POST"
  | .httpPut => literal "PUT"
  | .httpConnect => literal "CONNECT"
  | .httpOptions => literal "OPTIONS"
  | .httpTrace => literal "TRACE"
  | .httpCopy => literal "COPY"
  | .httpLock => literal "LOCK"
  | .httpMkcol => literal "MKCOL"
  | .httpMove => literal "MOVE"
  | .httpPropfind => literal "PROPFIND"
  | .httpProppatch => literal "PROPPATCH"
  | .httpSearch => literal "SEARCH"
  | .httpUnlock => literal "UNLOCK"
  | .httpBind => literal "BIND"
  | .httpRebind => literal "REBIND"
  | .httpUnbind => literal "UNBIND"
  | .httpAcl => literal "ACL"
  | .httpReport => literal "REPORT"
  | .httpMkactivity => literal "MKACTIVITY"
  | .httpCheckout => literal "CHECKOUT"
  | .httpMerge => literal "MERGE"
  | .httpMsearch => literal "M-SEARCH"
  | .httpNotify => literal "NOTIFY"
  | .httpSubscribe => literal "SUBSCRIBE"
  | .httpUnsubscribe => literal "UNSUBSCRIBE"
  | .httpPatch => literal "PATCH"
  | .httpPurge => literal "PURGE"
  | .httpMkcalendar => literal "MKCALENDAR"
  | .httpLink => literal "LINK"
  | .httpUnlink => literal "UNLINK"

/-- The members of `enum http_errno` that are set somewhere. -/
inductive Errno where
  | hpeOk
  | hpeCbHeadersComplete
  | hpeInvalidEofState
  | hpeHeaderOverflow
  | hpeClosedConnection
  | hpeInvalidVersion
  | hpeInvalidStatus
  | hpeInvalidMethod
  | hpeInvalidUrl
  | hpeLfExpected
  | hpeInvalidHeaderToken
  | hpeInvalidContentLength
  | hpeUnexpectedContentLength
  | hpeInvalidChunkSize
  | hpeInvalidConstant
  | hpeStrict
  deriving DecidableEq, Repr

structure Flags where
  fChunked : Bool
  fConnectionKeepAlive : Bool
  fConnectionClose : Bool
  fConnectionUpgrade : Bool
  fTrailing : Bool
  fUpgrade : Bool
  fSkipbody : Bool
  fContentlength : Bool
  deriving DecidableEq, Repr

/-- `flags = 0`. -/
def Flags.zero : Flags := ⟨false, false, false, false, false, false, false, false⟩

structure Parser where
  type : ParserType
  flags : Flags
  state : State
  headerState : HeaderState
  index : Nat
  lenientHttpHeaders : Bool
  nread : Nat
  contentLength : Nat
  httpMajor : Nat
  httpMinor : Nat
  statusCode : Nat
  method : Method
  httpErrno : Errno
  upgrade : Bool
  deriving DecidableEq, Repr

def httpMaxHeaderSize : Nat := 80 * 1024

def ullongMax : Nat := 2 ^ 64 - 1

def httpParserInit (t : ParserType) : Parser where
  type := t
  flags := .zero
  state := match t with
    | .httpRequest => .sStartReq
    | .httpResponse => .sStartRes
    | .httpBoth => .sStartReqOrRes
  headerState := .hGeneral
  index := 0
  lenientHttpHeaders := false
  nread := 0
  contentLength := 0
  httpMajor := 0
  httpMinor := 0
  statusCode := 0
  method := .httpDelete
  httpErrno := .hpeOk
  upgrade := false

def ascii (c : Char) : Byte := UInt8.ofNat c.toNat

def cr : Byte := 13
def lf : Byte := 10
def sp : Byte := 32
def ht : Byte := 9

def lower (c : Byte) : Byte := c ||| 0x20
def isAlpha (c : Byte) : Bool := decide (97 ≤ lower c) && decide (lower c ≤ 122)
def isNum (c : Byte) : Bool := decide (48 ≤ c) && decide (c ≤ 57)
def isAlphanum (c : Byte) : Bool := isAlpha c || isNum c
def isMark (c : Byte) : Bool := (literal "-_.!~*'()").contains c
def isUserinfoChar (c : Byte) : Bool :=
  isAlphanum c || isMark c || (literal "%;:&=+$,").contains c

/-- `tokens`: what a byte of a header name is in lower case, 0 when it may not stand in one. -/
def tokens (c : Byte) : Byte :=
  if 65 ≤ c ∧ c ≤ 90 then c + 32
  else if isAlphanum c || (literal "!#$%&'*+-.^_`|~").contains c then c
  else 0

def token (strict : Bool) (c : Byte) : Byte :=
  if !strict ∧ c = sp then sp else tokens c

/-- `unhex`, where `none` is -1. The initialiser names 128 of the 256 entries; the others are
0. -/
def unhex (c : Byte) : Option Nat :=
  if isNum c then some (c.toNat - 48)
  else if 65 ≤ c ∧ c ≤ 70 then some (c.toNat - 55)
  else if 97 ≤ c ∧ c ≤ 102 then some (c.toNat - 87)
  else if 128 ≤ c then some 0
  else none

/-- The bits of `normal_url_char`. -/
def normalUrlChar (strict : Bool) (c : Byte) : Bool :=
  (decide (33 ≤ c) && decide (c ≤ 126) && c != ascii '#' && c != ascii '?') ||
    (!strict && (c == 9 || c == 12))

def isUrlChar (strict : Bool) (c : Byte) : Bool :=
  normalUrlChar strict c || (!strict && decide (128 ≤ c))

def isHeaderChar (c : Byte) : Bool :=
  c == cr || c == lf || c == 9 || (decide (31 < c) && c != 127)

def parseUrlChar (strict : Bool) (s : State) (ch : Byte) : State :=
  if ch = sp ∨ ch = cr ∨ ch = lf then .sDead
  else if strict ∧ (ch = 9 ∨ ch = 12) then .sDead
  else match s with
  | .sReqSpacesBeforeUrl =>
    if ch = ascii '/' ∨ ch = ascii '*' then .sReqPath
    else if isAlpha ch then .sReqSchema
    else .sDead
  | .sReqSchema =>
    if isAlpha ch then .sReqSchema
    else if ch = ascii ':' then .sReqSchemaSlash
    else .sDead
  | .sReqSchemaSlash => if ch = ascii '/' then .sReqSchemaSlashSlash else .sDead
  | .sReqSchemaSlashSlash => if ch = ascii '/' then .sReqServerStart else .sDead
  | .sReqServerWithAt => if ch = ascii '@' then .sDead else server ch
  | .sReqServerStart => server ch
  | .sReqServer => server ch
  | .sReqPath =>
    if isUrlChar strict ch then .sReqPath
    else if ch = ascii '?' then .sReqQueryStringStart
    else if ch = ascii '#' then .sReqFragmentStart
    else .sDead
  | .sReqQueryStringStart => query ch
  | .sReqQueryString => query ch
  | .sReqFragmentStart =>
    if isUrlChar strict ch then .sReqFragment
    else if ch = ascii '?' then .sReqFragment
    else if ch = ascii '#' then .sReqFragmentStart
    else .sDead
  | .sReqFragment =>
    if isUrlChar strict ch then .sReqFragment
    else if ch = ascii '?' ∨ ch = ascii '#' then .sReqFragment
    else .sDead
  | _ => .sDead
where
  /-- `s_req_server_start` and `s_req_server`. -/
  server (ch : Byte) : State :=
    if ch = ascii '/' then .sReqPath
    else if ch = ascii '?' then .sReqQueryStringStart
    else if ch = ascii '@' then .sReqServerWithAt
    else if isUserinfoChar ch ∨ ch = ascii '[' ∨ ch = ascii ']' then .sReqServer
    else .sDead
  /-- `s_req_query_string_start` and `s_req_query_string`. -/
  query (ch : Byte) : State :=
    if isUrlChar strict ch then .sReqQueryString
    else if ch = ascii '?' then .sReqQueryString
    else if ch = ascii '#' then .sReqFragmentStart
    else .sDead

end HttpLib
