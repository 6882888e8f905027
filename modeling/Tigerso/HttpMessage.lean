import Tigerso.HttpBodyFile

/-!
# http/HttpMessage: start line, header list and body

Requests and responses are one record; `role_` says which of the fields of the
two classes are in use. Strings are byte lists, and the C functions on them stop
at a NUL.
-/

open SystemCalls

def literal (s : String) : Bytes := s.toList.map fun c => c.toNat.toUInt8

/-- `c_str()` as a C function sees it. -/
def cString (s : Bytes) : Bytes := s.takeWhile (· != 0)

def tolower (c : Byte) : Byte := if 65 ≤ c ∧ c ≤ 90 then c + 32 else c

/-- `strcasecmp(s, t) == 0`. -/
def sameIgnoringCase (s t : Bytes) : Bool :=
  (cString s).map tolower == (cString t).map tolower

/-- `%u`. -/
def decimal (n : Nat) : Bytes := (Nat.toDigits 10 n).map fun c => c.toNat.toUInt8

def isspace (c : Byte) : Bool := c == 32 || (9 ≤ c && c ≤ 13)

def digits (s : Bytes) : Nat :=
  (s.takeWhile fun c => 48 ≤ c && c ≤ 57).foldl (fun n c => 10 * n + (c.toNat - 48)) 0

/-- The number that a text begins with, of any size. -/
def leadingNumber (s : Bytes) : Int :=
  match (cString s).dropWhile isspace with
  | 45 :: rest => -(digits rest : Int)
  | 43 :: rest => digits rest
  | rest => digits rest

/-- `::strtol`, which stops at the ends of a `long`. -/
def strtol (s : Bytes) : Int := max (-2 ^ 63) (min (2 ^ 63 - 1) (leadingNumber s))

/-- `::atoi` is `(int) strtol`. -/
def atoi (s : Bytes) : Int := HttpBodyFile.toInt (strtol s)

inductive HttpRole where
  | httpRoleRequest
  | httpRoleResponse
  deriving DecidableEq, Repr

structure HttpMessage where
  role : HttpRole
  method : Bytes
  url : Bytes
  statuscode : Nat
  desc : Bytes
  version : Bytes
  headers : List (Bytes × Bytes)
  /-- The name that the parser saw last. -/
  headerField : Bytes
  body : HttpBodyFile

namespace HttpMessage

def construct (role : HttpRole) (garbage : Nat → Byte) : HttpMessage :=
  ⟨role, [], [], 0, [], literal "HTTP/1.1", [], [],
    .construct httpFileCacheSize.toNat garbage⟩

def getValueByHeader (m : HttpMessage) (header : Bytes) : Bytes :=
  ((m.headers.find? fun p => sameIgnoringCase header p.1).map Prod.snd).getD []

/-- The loop of `setValueByHeader`. -/
def setValue (header value : Bytes) : List (Bytes × Bytes) → List (Bytes × Bytes)
  | [] => [(header, value)]
  | (name, old) :: rest =>
    if sameIgnoringCase header name then (name, value) :: rest
    else (name, old) :: setValue header value rest

def setValueByHeader (m : HttpMessage) (header value : Bytes) : HttpMessage :=
  { m with headers := setValue header value m.headers }

def setContentLength (m : HttpMessage) (length : Nat) : HttpMessage :=
  m.setValueByHeader (literal "Content-Length") (decimal (length % 2 ^ 32))

def getContentLength (m : HttpMessage) : Int :=
  let contentLength := m.getValueByHeader (literal "content-length")
  if contentLength = [] then -1 else atoi contentLength

def headerLines (headers : List (Bytes × Bytes)) : Bytes :=
  headers.flatMap (fun p => p.1 ++ literal ": " ++ p.2 ++ literal "\r\n") ++ literal "\r\n"

/-- `HttpRequest::getHeader` and `HttpResponse::getHeader`. -/
def getHeader (m : HttpMessage) : Bytes :=
  match m.role with
  | .httpRoleRequest =>
    if m.method = [] ∨ m.url = [] then []
    else m.method ++ literal " " ++ m.url ++ literal " " ++ m.version ++ literal "\r\n" ++
      headerLines m.headers
  | .httpRoleResponse =>
    if m.statuscode = 0 ∨ m.desc = [] then []
    else m.version ++ literal " " ++ decimal m.statuscode ++ literal " " ++ m.desc ++
      literal "\r\n" ++ headerLines m.headers

/-- `setBody` and `appendBody`; `results` are those of the writes to the file. -/
def appendBody (m : HttpMessage) (body : Bytes) (results : List WriteResult) :
    Option HttpMessage := do
  let (_, b, _) ← m.body.writeIn body results
  some { m with body := b }

def setContentType (m : HttpMessage) (type : Bytes) : HttpMessage :=
  m.setValueByHeader (literal "Content-Type") type

/-- `setBodyFileName` for a name under which the disk holds `disk`; `mimetype` is what
`detectMIMEType` says of the file. -/
def setBodyFileName (m : HttpMessage) (disk : Option Bytes) (readable : Bool)
    (mimetype : Option Bytes) : HttpMessage :=
  let m := { m with body := m.body.setFile disk readable }
  match disk with
  | none => m
  | some data =>
    let m := m.setContentLength data.length
    match mimetype with
    | none => m
    | some type => m.setContentType type

end HttpMessage
