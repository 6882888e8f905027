import Tigerso.HttpMessage

/-!
# http/HttpMessage: status texts, notifications and the fields that steer a connection
-/

namespace HttpHelper

/-- `response_status_array`. -/
def responseStatusMap : List (Nat × String) := [
  (100, "Continue"), (101, "Switching Protocols"), (200, "OK"), (201, "Created"),
  (202, "Accepted"), (203, "Non-Authoritative Information"), (204, "No Content"),
  (205, "Reset Content"), (206, "Partial Content"), (207, "Multi-Status"),
  (300, "Multiple Choices"), (301, "Moved Permanently"), (302, "Found"), (303, "See Other"),
  (304, "Not Modified"), (305, "Use Proxy"), (306, "Switch Proxy"),
  (307, "Temporary Redirect"), (400, "Bad Request"), (401, "Unauthorized"),
  (402, "Payment Required"), (403, "Forbidden"), (404, "Not Found "),
  (405, "Method Not Allowed"), (406, "Not Acceptable"),
  (407, "Proxy Authentication Required"), (408, "Request Timeout"), (409, "Conflict"),
  (410, "Gone"), (411, "Length Required"), (412, "Precondition Failed"),
  (413, "Request Entity Too Large"), (414, "Request-URI Too Long"),
  (415, "Unsupported Media Type"), (416, "Requested Range Not Satisfiable"),
  (417, "Expectation Failed"), (422, "Unprocessable Entity"), (423, "Locked"),
  (424, "Failed Dependency"), (425, "Unorder Collection"), (426, "Upgrade Required"),
  (428, "Precondition Required"), (429, "Too Many Requests"),
  (431, "Request Header Fields Too Large"), (449, "Retry With"),
  (451, "Unavailable For Legal Reasons"), (500, "Internal Server Error"),
  (501, "Not Implemented"), (502, "Bad Gateway"), (503, "Service Unavailable"),
  (504, "Gateway Timeout"), (505, "HTTP Version Not Supported"),
  (506, "Variant Also Negotiates"), (507, "Insufficient Storage"),
  (509, "Bandwidth Limit Exceeded"), (510, "Not Extend"),
  (511, "Network Authentication Required"), (600, "Unparseable Response Headers")]

def getResponseStatusDesc (code : Nat) : Bytes :=
  match responseStatusMap.lookup code with
  | none => []
  | some desc => literal desc

end HttpHelper

namespace HttpMessage
open HttpHelper

def setDesc (m : HttpMessage) (desc : Bytes) : HttpMessage := { m with desc := desc }

/-- `HttpResponse::setStatuscode`; the text of a known code replaces the one that is there. -/
def setStatuscode (m : HttpMessage) (code : Nat) : HttpMessage :=
  let m := { m with statuscode := code }
  let desc := getResponseStatusDesc code
  if desc ≠ [] then m.setDesc desc else m

/-- `setStatuscode` changes the code and the text. -/
theorem setStatuscode_eq (m : HttpMessage) (code : Nat) :
    ∃ desc, m.setStatuscode code = { m with statuscode := code, desc := desc } := by
  simp only [setStatuscode]
  split_ifs
  · exact ⟨_, rfl⟩
  · exact ⟨_, rfl⟩

def setVersion (m : HttpMessage) (version : Bytes) : HttpMessage := { m with version := version }

def setUrl (m : HttpMessage) (url : Bytes) : HttpMessage := { m with url := url }

def setMethod (m : HttpMessage) (method : Bytes) : HttpMessage := { m with method := method }

def setKeepAlive (m : HttpMessage) (bin : Bool) : HttpMessage :=
  m.setValueByHeader (literal "Connection") (if bin then literal "keep-alive" else literal "close")

def isKeepAlive (m : HttpMessage) : Bool :=
  let value := m.getValueByHeader (literal "connection")
  if value = [] then sameIgnoringCase m.version (literal "HTTP/1.1")
  else sameIgnoringCase value (literal "keep-alive")

/-- The loop of `removeHeader`: the pair behind a removed one is stepped over. -/
def removeFrom (header : Bytes) : List (Bytes × Bytes) → List (Bytes × Bytes)
  | [] => []
  | (name, value) :: rest =>
    if sameIgnoringCase header name then
      match rest with
      | [] => []
      | next :: rest => next :: removeFrom header rest
    else (name, value) :: removeFrom header rest

def removeHeader (m : HttpMessage) (header : Bytes) : HttpMessage :=
  { m with headers := removeFrom header m.headers }

def setChunkedTransfer (m : HttpMessage) (bin : Bool) : HttpMessage :=
  if bin then
    let m := m.removeHeader (literal "Content-Length")
    let m := m.setValueByHeader (literal "Transfer-Encoding") (literal "chunked")
    { m with body := { m.body with chunked := true } }
  else m.removeHeader (literal "Transfer-Encoding")

/-- `core::VERSION`. -/
def coreVersion : Bytes := literal "1.0.0"

def markTrade (m : HttpMessage) : HttpMessage :=
  let val := m.getValueByHeader (literal "Via")
  let val := if val ≠ [] then val ++ literal ", " else val
  m.setValueByHeader (literal "Via") (val ++ literal "tigerso/" ++ coreVersion)

/-- `HttpRequest::clear` and `HttpResponse::clear`; `header_field` survives them. -/
def clear (m : HttpMessage) : HttpMessage :=
  { m with
    method := []
    url := []
    statuscode := 0
    desc := []
    version := literal "HTTP/1.1"
    headers := []
    body := m.body.reset }

end HttpMessage

namespace HttpHelper
open HttpMessage

def defaultResponse403Body : Bytes :=
  literal "<html><head><title>TIGERSO NOTIFICATION</title></head>" ++
    literal "<body><p>You Are Forbidden To Access This Website!</p></body></html>"

def defaultResponse503Body : Bytes :=
  literal "<html><head><title>TIGERSO NOTIFICATION</title></head>" ++
    literal "<body><p> Service Unavailable!</p></body></html>"

/-- A notification of `length` bytes that closes the connection, as far as its header goes. -/
def notice (code length : Nat) (response : HttpMessage) : HttpMessage :=
  let response := response.setStatuscode code
  let response := response.setDesc (getResponseStatusDesc code)
  let response := response.setVersion (literal "HTTP/1.1")
  let response := response.setValueByHeader (literal "Connection") (literal "close")
  let response := response.markTrade
  response.setValueByHeader (literal "Content-length") (decimal length)

theorem notice_fields (response : HttpMessage) (code length : Nat) :
    (notice code length response).statuscode = code ∧
      (notice code length response).desc = getResponseStatusDesc code ∧
      (notice code length response).role = response.role ∧
      (notice code length response).body = response.body := by
  obtain ⟨desc, coded⟩ := setStatuscode_eq response code
  rw [notice, coded]
  exact ⟨rfl, rfl, rfl, rfl⟩

/-- `none` when `setBody` does not return. The body has no file, and the writes that a full ring
asks of it fail. -/
def prepareResponse (code : Nat) (body : Bytes) (response : HttpMessage) : Option HttpMessage :=
  (notice code body.length response).appendBody body [.failed, .failed]

/-- A notification that is prepared got its body behind what was in the ring. -/
theorem prepareResponse_some {code : Nat} {body : Bytes} {response prepared : HttpMessage}
    (done : prepareResponse code body response = some prepared) :
    ∃ ret b rest, response.body.writeIn body [.failed, .failed] = some (ret, b, rest) ∧
      prepared = { notice code body.length response with body := b } := by
  obtain ⟨_, _, _, same⟩ := notice_fields response code body.length
  rw [prepareResponse, appendBody, same] at done
  obtain ⟨⟨ret, b, rest⟩, wrote, done⟩ := Option.bind_eq_some_iff.mp done
  exact ⟨ret, b, rest, wrote, (Option.some.inj done).symm⟩

def prepare403Response : HttpMessage → Option HttpMessage :=
  prepareResponse 403 defaultResponse403Body

def prepare400Response : HttpMessage → Option HttpMessage := prepare403Response

def prepare503Response : HttpMessage → Option HttpMessage :=
  prepareResponse 503 defaultResponse503Body

/-- `prepare200Response`, which has no body. -/
def prepare200Response (response : HttpMessage) : HttpMessage :=
  let response := response.setStatuscode 200
  let response := response.setDesc (getResponseStatusDesc 200)
  let response := response.setVersion (literal "HTTP/1.1")
  let response := response.setValueByHeader (literal "Connection") (literal "keep-alive")
  response.markTrade

theorem prepare200Response_fields (response : HttpMessage) :
    (prepare200Response response).statuscode = 200 ∧
      (prepare200Response response).desc = getResponseStatusDesc 200 ∧
      (prepare200Response response).role = response.role ∧
      (prepare200Response response).body = response.body := by
  obtain ⟨desc, coded⟩ := setStatuscode_eq response 200
  rw [prepare200Response, coded]
  exact ⟨rfl, rfl, rfl, rfl⟩

end HttpHelper
