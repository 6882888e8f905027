import Tigerso.HeaderFragments
import Tigerso.MessageMemory

/-!
# http/HttpParser: which bodies of responses are stored

Small bodies are, and texts and images of unknown length; the others are tunnelled.
-/

open SystemCalls HttpMessage

namespace BodyClassification
open HttpParser

def contentLength (m : HttpMessage) : Bytes := m.getValueByHeader (literal "content-length")

/-- The type of the body, as one of two headers names it. -/
def mediaType (m : HttpMessage) : Bytes :=
  let type := m.getValueByHeader (literal "content-type")
  if type = [] then m.getValueByHeader (literal "mime-type") else type

def mainType (type : Bytes) : Bytes := type.takeWhile (· ≠ 47)

def OfInterest (m : HttpMessage) : Prop :=
  sameIgnoringCase (mainType (mediaType m)) (literal "text") = true ∨
    sameIgnoringCase (mainType (mediaType m)) (literal "image") = true

instance (m : HttpMessage) : Decidable (OfInterest m) := inferInstanceAs (Decidable (_ ∨ _))

/-- The body is not one to store. -/
def Unwanted (m : HttpMessage) : Prop :=
  if contentLength m ≠ [] then (fileBigContent : Int) ≤ leadingNumber (contentLength m)
  else ¬ OfInterest m

/-- What the end of a header does is what its fields ask for. -/
def Classified (p : HttpParser) (m : HttpMessage) (start : StartLine) : Prop :=
  ((p.onHeadersComplete m start).1.tunnelbody = true ↔
      p.tunnelbody = true ∨ Unwanted m) ∧
    ((p.onHeadersComplete m start).1.tunnelbody = false → start.chunked = true →
      (p.onHeadersComplete m start).2.body.chunked = true)

/-- A body with a length that `atoi` reads right, and not chunked as well if it is short. -/
def Measured (m : HttpMessage) (start : StartLine) : Prop :=
  (fileBigContent ≤ atoi (contentLength m) ↔ fileBigContent ≤ leadingNumber (contentLength m)) ∧
    (atoi (contentLength m) < fileBigContent → start.chunked = true → m.body.chunked = true)

section
variable {p : HttpParser} {m : HttpMessage} {start : StartLine}

/-- Who is told that a header has ended does not matter to what happens to the body. -/
theorem onHeadersComplete_eq (p : HttpParser) (m : HttpMessage) (start : StartLine) :
    ∃ told : HttpParser, told.nobody = p.nobody ∧ told.tunnelbody = p.tunnelbody ∧
      p.onHeadersComplete m start =
        (if Tunnels told (headersCompleted m start) then told.labelTunnelBody else told,
          headersCompleted m start) := by
  let parser := p.setParseState .parseHeaderComplete
  by_cases handle : parser.headerCompletedHandle = true
  · refine ⟨{ parser with completed := parser.completed ++ [headersCompleted m start] },
      rfl, rfl, ?_⟩
    rw [onHeadersComplete, lookAtBody_eq, if_pos handle]
  · refine ⟨parser, rfl, rfl, ?_⟩
    rw [onHeadersComplete, lookAtBody_eq, if_neg handle]

/-- The end of a header labels every body without a length, and does not touch it. -/
theorem onHeadersComplete_labels (answers : m.role = .httpRoleResponse)
    (bodied : p.nobody = false) :
    ((p.onHeadersComplete m start).1.tunnelbody = true ↔
      p.tunnelbody = true ∨ contentLength m = [] ∨ fileBigContent ≤ atoi (contentLength m)) ∧
    (p.onHeadersComplete m start).2.body = m.body := by
  obtain ⟨told, nobody, tunnelbody, eq⟩ := onHeadersComplete_eq p m start
  have role := (headersCompleted_frame m start).2.trans answers
  have length : (headersCompleted m start).getValueByHeader (literal "content-length") =
      contentLength m := by
    rw [getValueByHeader, headersCompleted_headers]
    rfl
  have tunnels : Tunnels told (headersCompleted m start) ↔
      contentLength m = [] ∨ fileBigContent ≤ atoi (contentLength m) := by
    rw [Tunnels, nobody, length, role]
    simp [bodied]
  rw [eq]
  refine ⟨?_, (headersCompleted_frame m start).1⟩
  rw [← tunnels, ← tunnelbody]
  by_cases labelled : Tunnels told (headersCompleted m start)
  · simp [labelled, labelTunnelBody]
  · simp [labelled]

/-- The label is right when the length says enough, or when there is none and the body is neither
a text nor an image. -/
theorem classified_iff (answers : m.role = .httpRoleResponse) (bodied : p.nobody = false) :
    Classified p m start ↔ p.tunnelbody = true ∨
      if contentLength m ≠ [] then Measured m start else ¬ OfInterest m := by
  obtain ⟨labels, body⟩ := @onHeadersComplete_labels p m start answers bodied
  rw [Classified, labels, ← Bool.not_eq_true, labels, body, Unwanted]
  by_cases before : p.tunnelbody = true
  · simp [before]
  · by_cases absent : contentLength m = []
    · simp [before, absent]
    · simp only [before, absent, Measured, Bool.false_eq_true, false_or, ne_eq,
        not_false_eq_true, if_true, not_le]

end

def answer (headers : List (Bytes × Bytes)) : HttpMessage :=
  { HttpMessage.construct .httpRoleResponse fun _ => 0 with headers := headers }

def chunkedLine : StartLine := ⟨[], 200, 1, 1, true⟩

/-- A video is not stored. -/
theorem classified_video : Classified .construct
    (answer [(literal "Content-Type", literal "video/mp4")]) chunkedLine :=
  (classified_iff rfl rfl).mpr (Or.inr (by rw [if_neg (by decide)]; decide))

/-- A chunked HTML page is tunnelled. -/
theorem not_classified : ¬ Classified .construct
    (answer [(literal "Content-Type", literal "text/html")]) chunkedLine := by
  intro classified
  have unwanted := classified.1.mp rfl
  rcases unwanted with label | unwanted
  · cases label
  · exact unwanted (by decide)

end BodyClassification
