import Tigerso.HttpParser
import Tigerso.KeyedList

/-!
# http/lib/http_parser: what is reported of a byte stream that is cut into buffers

A string that a buffer ends in is reported in fragments, one after the other; the other
callbacks are made at one byte of the stream.
-/

open SystemCalls

/-- The strings of a header that are reported. -/
inductive Datum where
  | url
  | status
  | headerField
  | headerValue
  deriving DecidableEq, Repr

/-- Bytes that are not reported, a fragment of a string that is, or a byte at which callbacks
are made. -/
inductive Span where
  | text (bytes : Bytes)
  | word (datum : Datum) (bytes : Bytes)
  | signal (byte : Byte) (callbacks : List Callback)

/-- A string in the fragments that are reported of it. -/
structure Fragments where
  front : List Bytes
  last : Bytes

/-- A header field; `W` are the strings that are reported, and `T` the bytes between them. -/
structure HeaderField (W T : Type) where
  name : W
  sep : T
  value : W
  eol : T

/-- The header of a message, with the bytes at which it is begun and completed. -/
structure Head (W T : Type) where
  role : HttpRole
  first : Byte
  before : T
  /-- The URL, or the text behind the status code if there is one. -/
  phrase : Option W
  between : T
  fields : List (HeaderField W T)
  closing : T
  last : Byte
  start : StartLine

/-- A header as a byte stream has it, and one that is cut. -/
abbrev Header := Head Bytes Bytes
abbrev CutHeader := Head Fragments (List Bytes)

def Datum.report : Datum → Bytes → Callback
  | .url => .onUrl
  | .status => .onStatus
  | .headerField => .onHeaderField
  | .headerValue => .onHeaderValue

namespace Span

def bytes : Span → Bytes
  | .text bytes => bytes
  | .word _ bytes => bytes
  | .signal byte _ => [byte]

def reported : Span → List Callback
  | .text _ => []
  | .word datum bytes => [datum.report bytes]
  | .signal _ callbacks => callbacks

end Span

/-- What `http_parser_execute` makes of a buffer that it takes whole. -/
def execution (buffer : List Span) : Execution :=
  ⟨buffer.flatMap Span.reported, (buffer.flatMap Span.bytes).length⟩

namespace Fragments

def whole (w : Fragments) : Bytes := w.front.flatten ++ w.last

def spans (datum : Datum) (w : Fragments) : List Span :=
  w.front.map (.word datum) ++ [.word datum w.last]

end Fragments

def HeaderField.map {W W' T T' : Type} (word : W → W') (text : T → T') (f : HeaderField W T) :
    HeaderField W' T' :=
  ⟨word f.name, text f.sep, word f.value, text f.eol⟩

def HeaderField.spans (f : HeaderField Fragments (List Bytes)) : List Span :=
  f.name.spans .headerField ++ f.sep.map .text ++ f.value.spans .headerValue ++ f.eol.map .text

namespace Head

def map {W W' T T' : Type} (word : W → W') (text : T → T') (h : Head W T) : Head W' T' where
  role := h.role
  first := h.first
  before := text h.before
  phrase := h.phrase.map word
  between := text h.between
  fields := h.fields.map (HeaderField.map word text)
  closing := text h.closing
  last := h.last
  start := h.start

/-- The header that was cut. -/
def whole (h : CutHeader) : Header := h.map Fragments.whole List.flatten

/-- The header with the last fragments only. -/
def lasts (h : CutHeader) : Header := h.map Fragments.last List.flatten

def datum {W T : Type} (h : Head W T) : Datum :=
  match h.role with
  | .httpRoleRequest => .url
  | .httpRoleResponse => .status

def opening (h : CutHeader) : List Span :=
  .signal h.first [.onMessageBegin] :: (h.before.map .text ++
    (h.phrase.elim [] (Fragments.spans h.datum) ++ h.between.map .text ++
      h.fields.flatMap HeaderField.spans ++ h.closing.map .text))

/-- `ending` are the callbacks that are made at the last byte behind `on_headers_complete`. -/
def spans (h : CutHeader) (ending : List Callback) : List Span :=
  h.opening ++ [.signal h.last (.onHeadersComplete h.start :: ending)]

def pairs (h : Header) : List (Bytes × Bytes) := h.fields.map fun f => (f.name, f.value)

end Head

namespace HttpParser
open HttpMessage

/-- What a callback stores of a header. -/
def hear (m : HttpMessage) : Callback → HttpMessage
  | .onUrl at_ => HttpParser.onUrl m at_
  | .onStatus at_ => HttpParser.onStatus m at_
  | .onHeaderField at_ => HttpParser.onHeaderField m at_
  | .onHeaderValue at_ => HttpParser.onHeaderValue m at_
  | .onHeadersComplete start => headersCompleted m start
  | _ => m

def fieldKey (name : Bytes) : Bytes := (cString name).map tolower

theorem setValue_eq (header value : Bytes) (held : List (Bytes × Bytes)) :
    setValue header value held = KeyedList.put fieldKey (header, value) held := by
  induction held with
  | nil => rfl
  | cons q rest ih =>
    obtain ⟨name, old⟩ := q
    have known : sameIgnoringCase header name = true ↔ fieldKey header = fieldKey name := beq_iff_eq
    rw [setValue, KeyedList.put, ih]
    by_cases same : fieldKey header = fieldKey name
    · rw [if_pos same, if_pos (known.mpr same)]
    · rw [if_neg same, if_neg (mt known.mp same)]

theorem onUrl_request {m : HttpMessage} (asks : m.role = .httpRoleRequest) (w : Bytes) :
    HttpParser.onUrl m w = m.setUrl w := by
  rw [HttpParser.onUrl, asks]

theorem onStatus_response {m : HttpMessage} (answers : m.role = .httpRoleResponse) (w : Bytes) :
    HttpParser.onStatus m w = m.setDesc w := by
  rw [HttpParser.onStatus, answers]

/-- Only the last fragment of a string counts. -/
theorem hear_again (m : HttpMessage) (datum : Datum) (front last : Bytes) :
    hear (hear m (datum.report front)) (datum.report last) = hear m (datum.report last) := by
  cases datum with
  | url =>
    simp only [Datum.report, hear, HttpParser.onUrl]
    cases role : m.role <;> simp [setUrl, role]
  | status =>
    simp only [Datum.report, hear, HttpParser.onStatus]
    cases role : m.role <;> simp [setDesc, role]
  | headerField => rfl
  | headerValue =>
    simp only [Datum.report, hear, HttpParser.onHeaderValue, setValueByHeader, setValue_eq,
      KeyedList.put_put]

theorem hear_fragments (m : HttpMessage) (datum : Datum) (w : Fragments) :
    ((w.spans datum).flatMap Span.reported).foldl hear m = hear m (datum.report w.last) := by
  obtain ⟨front, last⟩ := w
  induction front generalizing m with
  | nil => rfl
  | cons fragment rest ih =>
    exact (ih (hear m (datum.report fragment))).trans (hear_again m datum fragment last)

theorem hear_text (m : HttpMessage) (text : List Bytes) :
    ((text.map Span.text).flatMap Span.reported).foldl hear m = m := by
  induction text with
  | nil => rfl
  | cons bytes rest ih => exact ih

def hearField (m : HttpMessage) (f : HeaderField Bytes Bytes) : HttpMessage :=
  hear (hear m (.onHeaderField f.name)) (.onHeaderValue f.value)

def hearPhrase (m : HttpMessage) (h : Header) : HttpMessage :=
  h.phrase.elim m fun w => hear m (h.datum.report w)

/-- What a header leaves in front of `on_headers_complete`. -/
def hearHeader (m : HttpMessage) (h : Header) : HttpMessage :=
  h.fields.foldl hearField (hearPhrase m h)

theorem hear_fields (m : HttpMessage) (fields : List (HeaderField Fragments (List Bytes))) :
    ((fields.flatMap HeaderField.spans).flatMap Span.reported).foldl hear m =
      (fields.map (HeaderField.map Fragments.last List.flatten)).foldl hearField m := by
  induction fields generalizing m with
  | nil => rfl
  | cons f rest ih =>
    have field : (f.spans.flatMap Span.reported).foldl hear m =
        hearField m (f.map Fragments.last List.flatten) := by
      simp only [HeaderField.spans, List.flatMap_append, List.foldl_append, hear_text,
        hear_fragments]
      rfl
    rw [List.flatMap_cons, List.flatMap_append, List.foldl_append, field, ih]
    rfl

/-- A header that is cut leaves what its last fragments leave. -/
theorem hear_opening (m : HttpMessage) (h : CutHeader) :
    (h.opening.flatMap Span.reported).foldl hear m = hearHeader m h.lasts := by
  have phrase : ((h.phrase.elim [] (Fragments.spans h.datum)).flatMap Span.reported).foldl hear m =
      hearPhrase m h.lasts := by
    rw [hearPhrase, Head.lasts, Head.map]
    cases h.phrase with
    | none => rfl
    | some w => exact hear_fragments m h.datum w
  have begun : ((Span.signal h.first [.onMessageBegin]).reported).foldl hear m = m := rfl
  rw [Head.opening, List.flatMap_cons, List.foldl_append, begun]
  simp only [List.flatMap_append, List.foldl_append, hear_text, phrase, hear_fields]
  rfl

section
variable {m : HttpMessage} {h : Header}

theorem hearPhrase_request (asks : m.role = .httpRoleRequest)
    (request : h.role = .httpRoleRequest) :
    hearPhrase m h = { m with url := h.phrase.getD m.url } := by
  rw [hearPhrase, Head.datum, request]
  cases h.phrase with
  | none => rfl
  | some w => exact HttpParser.onUrl_request asks w

theorem hearPhrase_response (answers : m.role = .httpRoleResponse)
    (response : h.role = .httpRoleResponse) :
    hearPhrase m h = { m with desc := h.phrase.getD m.desc } := by
  rw [hearPhrase, Head.datum, response]
  cases h.phrase with
  | none => rfl
  | some w => exact HttpParser.onStatus_response answers w

theorem hearFields_eq (fields : List (HeaderField Bytes Bytes)) (m : HttpMessage) :
    ∃ field, fields.foldl hearField m =
      { m with
        headerField := field
        headers := (fields.map fun f => (f.name, f.value)).foldl
          (fun held p => KeyedList.put fieldKey p held) m.headers } := by
  induction fields generalizing m with
  | nil => exact ⟨m.headerField, rfl⟩
  | cons f rest ih =>
    obtain ⟨field, eq⟩ := ih (hearField m f)
    refine ⟨field, eq.trans ?_⟩
    simp only [hearField, hear, HttpParser.onHeaderField, HttpParser.onHeaderValue,
      setValueByHeader, setValue_eq, List.map_cons, List.foldl_cons]

/-- The header list is collected from the names and values, the other fields are those that the
start line leaves. -/
theorem hearHeader_eq (m : HttpMessage) (h : Header) :
    ∃ field, hearHeader m h =
      { hearPhrase m h with
        headerField := field
        headers := h.pairs.foldl (fun held p => KeyedList.put fieldKey p held)
          (hearPhrase m h).headers } :=
  hearFields_eq h.fields (hearPhrase m h)

end

end HttpParser
