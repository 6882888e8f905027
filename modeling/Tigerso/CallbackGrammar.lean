import Tigerso.HttpLibExecute
import Tigerso.LabelledPaths

/-!
# The order of the callbacks of http_parser

What stands in front of what, over all the messages of a connection, and in which states of the
parser which callback may be next.
-/

open SystemCalls LabelledPaths

/-- The numbers of a start line have at most three digits. -/
def StartLine.Small (start : StartLine) : Prop :=
  start.httpMajor ≤ 999 ∧ start.httpMinor ≤ 999 ∧ start.statusCode ≤ 999

namespace HttpLib

/-- Where a message stands by what was reported of it; `trailer` says that the headers are those
behind the last chunk. -/
inductive Phase where
  | idle
  | begun
  | url
  | status
  | field (trailer : Bool)
  | value (trailer : Bool)
  | complete
  | ended
  deriving DecidableEq, Repr

/-- The phases in which a header, or the end of the headers, may come. -/
def Phase.opens : Bool → List Phase
  | false => [.begun, .url, .status, .value false]
  | true => [.complete, .value true]

/-- What may be reported next. Only when the end of the stream was reported (`eof`) a message is
complete before its body is over. -/
inductive Phase.Next (eof : Prop) : Phase → Callback → Phase → Prop
  | begin_ : Next eof .idle .onMessageBegin .begun
  /-- An empty line ahead of a response. -/
  | again : Next eof .begun .onMessageBegin .begun
  | url {at_ : Bytes} : Next eof .begun (.onUrl at_) .url
  | moreUrl {at_ : Bytes} : Next eof .url (.onUrl at_) .url
  | status {at_ : Bytes} : Next eof .begun (.onStatus at_) .status
  | moreStatus {at_ : Bytes} : Next eof .status (.onStatus at_) .status
  | field {ph : Phase} {trailer : Bool} {at_ : Bytes} (here : ph ∈ opens trailer) :
      Next eof ph (.onHeaderField at_) (.field trailer)
  | moreField {trailer : Bool} {at_ : Bytes} :
      Next eof (.field trailer) (.onHeaderField at_) (.field trailer)
  | value {trailer : Bool} {at_ : Bytes} :
      Next eof (.field trailer) (.onHeaderValue at_) (.value trailer)
  | moreValue {trailer : Bool} {at_ : Bytes} :
      Next eof (.value trailer) (.onHeaderValue at_) (.value trailer)
  | headers {ph : Phase} {start : StartLine} (here : ph ∈ opens false) (small : start.Small) :
      Next eof ph (.onHeadersComplete start) .complete
  | body {at_ : Bytes} : Next eof .complete (.onBody at_) .complete
  | done {ph : Phase} (here : ph ∈ opens true) : Next eof ph .onMessageComplete .idle
  | ended (here : eof) : Next eof .complete .onMessageComplete .ended
  | endedBody {at_ : Bytes} : Next eof .ended (.onBody at_) .ended
  | endedAgain : Next eof .ended .onMessageComplete .ended

/-- The phases that go with a state and with `F_TRAILING`. -/
def allowed : State → Bool → List Phase
  | .sDead, _ => [.idle]
  | .sStartReqOrRes, _ => [.idle]
  | .sStartReq, _ => [.idle]
  | .sStartRes, false => [.idle, .begun]
  | .sStartRes, true => [.idle]
  | .sResStatus, false => [.begun, .status]
  | .sResLineAlmostDone, false => [.begun, .status]
  | .sReqSchema, false => [.begun, .url]
  | .sReqSchemaSlash, false => [.begun, .url]
  | .sReqSchemaSlashSlash, false => [.begun, .url]
  | .sReqServerStart, false => [.begun, .url]
  | .sReqServer, false => [.begun, .url]
  | .sReqServerWithAt, false => [.begun, .url]
  | .sReqPath, false => [.begun, .url]
  | .sReqQueryStringStart, false => [.begun, .url]
  | .sReqQueryString, false => [.begun, .url]
  | .sReqFragmentStart, false => [.begun, .url]
  | .sReqFragment, false => [.begun, .url]
  | .sReqHttpStart, false => [.url]
  | .sReqHttpH, false => [.url]
  | .sReqHttpHT, false => [.url]
  | .sReqHttpHTT, false => [.url]
  | .sReqHttpHTTP, false => [.url]
  | .sReqFirstHttpMajor, false => [.url]
  | .sReqHttpMajor, false => [.url]
  | .sReqFirstHttpMinor, false => [.url]
  | .sReqHttpMinor, false => [.url]
  | .sReqLineAlmostDone, false => [.url]
  | .sHeaderFieldStart, trailer => Phase.opens trailer
  | .sHeaderField, trailer => .field trailer :: Phase.opens trailer
  | .sHeaderValueDiscardWs, trailer => [.field trailer]
  | .sHeaderValueDiscardWsAlmostDone, trailer => [.field trailer]
  | .sHeaderValueDiscardLws, trailer => [.field trailer]
  | .sHeaderValueStart, trailer => [.field trailer, .value trailer]
  | .sHeaderValue, trailer => [.field trailer, .value trailer]
  | .sHeaderAlmostDone, trailer => [.value trailer]
  | .sHeaderValueLws, trailer => [.value trailer]
  | .sHeadersAlmostDone, trailer => Phase.opens trailer
  | .sHeadersDone, false => [.complete]
  | .sChunkSizeStart, false => [.complete]
  | .sChunkSize, false => [.complete]
  | .sChunkParameters, false => [.complete]
  | .sChunkSizeAlmostDone, false => [.complete]
  | .sChunkData, false => [.complete]
  | .sChunkDataAlmostDone, false => [.complete]
  | .sChunkDataDone, false => [.complete]
  | .sBodyIdentity, false => [.complete]
  | .sBodyIdentityEof, false => [.complete, .ended]
  | .sMessageDone, false => [.complete]
  | .sMessageDone, true => [.complete, .value true]
  | .sResOrRespH, false => [.begun]
  | .sResH, false => [.begun]
  | .sResHT, false => [.begun]
  | .sResHTT, false => [.begun]
  | .sResHTTP, false => [.begun]
  | .sResFirstHttpMajor, false => [.begun]
  | .sResHttpMajor, false => [.begun]
  | .sResFirstHttpMinor, false => [.begun]
  | .sResHttpMinor, false => [.begun]
  | .sResFirstStatusCode, false => [.begun]
  | .sResStatusCode, false => [.begun]
  | .sResStatusStart, false => [.begun]
  | .sReqMethod, false => [.begun]
  | .sReqSpacesBeforeUrl, false => [.begun]
  | _, true => []

/-- The mark that may be set in a state. -/
def openMark : State → Option Mark
  | .sBodyIdentity => some .body
  | .sBodyIdentityEof => some .body
  | .sChunkData => some .body
  | .sChunkDataAlmostDone => some .body
  | s => resumed s

end HttpLib
