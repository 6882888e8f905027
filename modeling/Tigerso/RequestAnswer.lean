import Tigerso.BodyAccumulation
import Tigerso.HttpConnection

/-!
# http/HttpConnection: the response to one request

A URL leads to a file; the response carries that file, or says that there is none and that the
connection closes.
-/

open SystemCalls BodyAccumulation

namespace HttpMessage

/-- The header list begins with `Connection: value`. -/
def LeadsWith (m : HttpMessage) (value : Bytes) : Prop :=
  ∃ rest, m.headers = (literal "Connection", value) :: rest

section
variable {m : HttpMessage} {value : Bytes}

theorem LeadsWith.setValueByHeader (leads : m.LeadsWith value) (header new : Bytes)
    (other : sameIgnoringCase header (literal "Connection") = false) :
    (m.setValueByHeader header new).LeadsWith value := by
  obtain ⟨rest, eq⟩ := leads
  refine ⟨setValue header new rest, ?_⟩
  rw [HttpMessage.setValueByHeader, eq, setValue, other]
  rfl

theorem LeadsWith.removeHeader (leads : m.LeadsWith value) (header : Bytes)
    (other : sameIgnoringCase header (literal "Connection") = false) :
    (m.removeHeader header).LeadsWith value := by
  obtain ⟨rest, eq⟩ := leads
  refine ⟨removeFrom header rest, ?_⟩
  simp [HttpMessage.removeHeader, eq, removeFrom.eq_def header (_ :: _), other]

theorem LeadsWith.markTrade (leads : m.LeadsWith value) : m.markTrade.LeadsWith value :=
  leads.setValueByHeader (literal "Via") _ (by decide)

theorem LeadsWith.isKeepAlive (leads : m.LeadsWith value) (said : value ≠ []) :
    m.isKeepAlive = sameIgnoringCase value (literal "keep-alive") := by
  obtain ⟨rest, eq⟩ := leads
  have found : sameIgnoringCase (literal "connection") (literal "Connection") = true := by decide
  have looked : m.getValueByHeader (literal "connection") = value := by
    simp [getValueByHeader, eq, found]
  simp only [HttpMessage.isKeepAlive, looked]
  rw [if_neg said]

end

/-- A message that nothing was stored in since it was cleared. -/
structure Blank (m : HttpMessage) : Prop where
  url : m.url = []
  version : m.version = literal "HTTP/1.1"
  headers : m.headers = []
  sane : Sane m.body
  empty : m.body.ringbuf.content = []

section
variable {m : HttpMessage}

theorem clear_blank (ring : m.body.ringbuf.Valid) : Blank m.clear where
  url := rfl
  version := rfl
  headers := rfl
  sane := ⟨RingBuffer.clear_valid ring, Nat.lt_of_le_of_lt (Nat.zero_le _) ring.room⟩
  empty := RingBuffer.clear_content _

theorem construct_blank (role : HttpRole) (garbage : Nat → Byte) :
    Blank (construct role garbage) where
  url := rfl
  version := rfl
  headers := rfl
  sane := ⟨RingBuffer.construct_valid _ _, by
    have ring := RingBuffer.construct_valid httpFileCacheSize.toNat garbage
    exact Nat.lt_of_le_of_lt (Nat.zero_le _) ring.room⟩
  empty := RingBuffer.clear_content _

theorem setBodyFileName_leads {value : Bytes} (leads : m.LeadsWith value) (data : Bytes)
    (readable : Bool) (mimetype : Option Bytes) :
    (m.setBodyFileName (some data) readable mimetype).LeadsWith value := by
  have named : ({ m with body := m.body.setFile (some data) readable } : HttpMessage).LeadsWith
      value := leads
  have length := named.setValueByHeader (literal "Content-Length")
    (decimal (data.length % 2 ^ 32)) (by decide)
  cases mimetype with
  | none => exact length
  | some type => exact length.setValueByHeader (literal "Content-Type") type (by decide)

end

/-- The room for a notification. -/
theorem Blank.room {m : HttpMessage} (blank : Blank m) : 1022 < m.body.ringbuf.space := by
  have space := RingBuffer.space_eq blank.sane.valid
  have room := blank.sane.valid.room
  rw [blank.empty, List.length_nil] at space
  simp only [ringbufferMinLength] at room
  omega

end HttpMessage

namespace HttpHelper
open HttpMessage

theorem notice_leads {response : HttpMessage} (blank : Blank response) (code length : Nat) :
    (notice code length response).LeadsWith (literal "close") := by
  obtain ⟨desc, coded⟩ := setStatuscode_eq response code
  have leads : ((((response.setStatuscode code).setDesc (getResponseStatusDesc code)).setVersion
      (literal "HTTP/1.1")).setValueByHeader (literal "Connection")
        (literal "close")).LeadsWith (literal "close") := by
    refine ⟨[], ?_⟩
    simp only [coded, setDesc, setVersion, setValueByHeader, blank.headers]
    rfl
  exact leads.markTrade.setValueByHeader (literal "Content-length") (decimal length) (by decide)

/-- A notification is prepared, and closes the connection. -/
theorem prepareResponse_closes {response : HttpMessage} (blank : Blank response) (code : Nat)
    {body : Bytes} (short : body.length < 1022) :
    ∃ r, prepareResponse code body response = some r ∧ r.statuscode = code ∧
      r.LeadsWith (literal "close") ∧ r.body.ringbuf.Valid := by
  obtain ⟨status, _, _, body_⟩ := notice_fields response code body.length
  obtain ⟨_, ring, wrote, kept⟩ :=
    writeIn_fits [.failed, .failed] blank.sane
      (Nat.lt_trans short blank.room : body.length < _)
  refine ⟨{ notice code body.length response with
    body := { response.body with ringbuf := ring } }, ?_, status,
    notice_leads blank code body.length, kept.sane.valid⟩
  rw [prepareResponse, appendBody, body_, wrote]
  rfl

end HttpHelper

namespace HttpConnection
open HttpMessage

/-- The response carries the file that the disk holds under `path`, or says that there is none. -/
def IsFor (disk : Disk) (path : Bytes) (response : HttpMessage) : Prop :=
  match disk.contents path with
  | none => response.statuscode = 403
  | some data => response.statuscode = 200 ∧ response.body.file.contents = data

/-- A response is for two paths only when the disk holds the same under both. -/
theorem IsFor.same {disk : Disk} {path path' : Bytes} {response : HttpMessage}
    (first : IsFor disk path response) (second : IsFor disk path' response) :
    disk.contents path = disk.contents path' := by
  rw [IsFor] at first second
  cases found : disk.contents path with
  | none =>
    rw [found] at first
    cases found' : disk.contents path' with
    | none => rfl
    | some data =>
      rw [found'] at second
      exact absurd (first.symm.trans second.1) (by decide)
  | some data =>
    rw [found] at first
    cases found' : disk.contents path' with
    | none =>
      rw [found'] at second
      exact absurd (second.symm.trans first.1) (by decide)
    | some data' =>
      rw [found'] at second
      rw [← first.2, ← second.2]

section
variable {root : Bytes} {disk : Disk} {request response : HttpMessage}

/-- Without a file the connection closes. -/
theorem doGet_missing (blank : Blank response)
    (missing : disk.contents (filepath root request.url) = none) :
    ∃ r, doGet root disk request response = some r ∧
      IsFor disk (filepath root request.url) r ∧ r.isKeepAlive = false ∧
      r.body.ringbuf.Valid := by
  obtain ⟨r, prepared, status, leads, ring⟩ :=
    HttpHelper.prepareResponse_closes blank 403
      (by decide +kernel : HttpHelper.defaultResponse403Body.length < 1022)
  refine ⟨r, ?_, ?_, ?_, ring⟩
  · rw [doGet, missing]
    exact prepared
  · rw [IsFor, missing]
    exact status
  · rw [leads.isKeepAlive (by decide)]
    decide

/-- A file is sent, and the connection stays open if the request says so. -/
theorem doGet_found (blank : Blank response) {data : Bytes}
    (found : disk.contents (filepath root request.url) = some data) :
    ∃ r, doGet root disk request response = some r ∧
      IsFor disk (filepath root request.url) r ∧ r.isKeepAlive = request.isKeepAlive ∧
      r.body.ringbuf.Valid := by
  obtain ⟨desc, coded⟩ := setStatuscode_eq response 200
  have leads : ((response.setStatuscode 200).setKeepAlive request.isKeepAlive).LeadsWith
      (if request.isKeepAlive then literal "keep-alive" else literal "close") := by
    refine ⟨[], ?_⟩
    simp only [coded, setKeepAlive, setValueByHeader, blank.headers]
    rfl
  have last := (((setBodyFileName_leads leads data (disk.readable (filepath root request.url))
    (disk.mimetype (filepath root request.url))).setValueByHeader (literal "Server")
      (literal "tigerso") (by decide)).removeHeader (literal "Content-Length")
        (by decide)).setValueByHeader (literal "Transfer-Encoding") (literal "chunked") (by decide)
  have sent : doGet root disk request response =
      some ((((response.setStatuscode 200).setKeepAlive request.isKeepAlive).setBodyFileName
        (some data) (disk.readable (filepath root request.url))
        (disk.mimetype (filepath root request.url))).setValueByHeader (literal "Server")
          (literal "tigerso") |>.setChunkedTransfer true) := by
    simp only [doGet, found]
  refine ⟨_, sent, ?_, ?_, ?_⟩
  · rw [IsFor, found, coded]
    cases disk.mimetype (filepath root request.url) <;> exact ⟨rfl, rfl⟩
  · refine (LeadsWith.isKeepAlive last ?_).trans ?_
    · cases request.isKeepAlive <;> decide
    · cases request.isKeepAlive <;> decide
  · rw [coded]
    cases disk.mimetype (filepath root request.url) <;>
      exact RingBuffer.clear_valid blank.sane.valid

end

end HttpConnection
