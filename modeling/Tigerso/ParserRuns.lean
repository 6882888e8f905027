import Tigerso.HttpStream

/-!
# http/HttpParser: runs of callbacks

What a list of callbacks leaves in the parser and in the message.
-/

open SystemCalls

namespace HttpParser
open HttpMessage

/-- The callbacks that are made in front of `on_headers_complete`. -/
inductive Opens : Callback → Prop
  | begun : Opens .onMessageBegin
  | reported (datum : Datum) (bytes : Bytes) : Opens (datum.report bytes)

theorem fire_opens (p : HttpParser) (m : HttpMessage) {callback : Callback}
    (opens : Opens callback) : ∃ p', p.fire m callback = some (p', hear m callback) := by
  cases opens with
  | begun => exact ⟨_, rfl⟩
  | reported datum bytes => cases datum <;> exact ⟨_, rfl⟩

/-- In front of `on_headers_complete` the callbacks return, and only store. -/
theorem fireAll_opens (p : HttpParser) (m : HttpMessage) {front : List Callback}
    (opens : ∀ callback ∈ front, Opens callback) :
    ∃ p', fireAll p m front = some (p', front.foldl hear m) := by
  induction front generalizing p m with
  | nil => exact ⟨p, rfl⟩
  | cons callback front ih =>
    obtain ⟨p₁, fired⟩ := fire_opens p m (opens callback List.mem_cons_self)
    obtain ⟨p', all⟩ := ih p₁ (hear m callback) fun c there =>
      opens c (List.mem_cons_of_mem _ there)
    refine ⟨p', ?_⟩
    rw [fireAll, fired]
    exact all

theorem spans_opens (datum : Datum) (w : Fragments) :
    ∀ callback ∈ (w.spans datum).flatMap Span.reported, Opens callback := by
  intro callback there
  obtain ⟨span, inside, reported⟩ := List.mem_flatMap.mp there
  obtain ⟨bytes, rfl⟩ : ∃ bytes, span = .word datum bytes := by
    rcases List.mem_append.mp inside with front | last
    · obtain ⟨bytes, _, rfl⟩ := List.mem_map.mp front
      exact ⟨bytes, rfl⟩
    · exact ⟨w.last, List.mem_singleton.mp last⟩
  obtain rfl := List.mem_singleton.mp reported
  exact .reported datum bytes

theorem text_silent (text : List Bytes) : (text.map Span.text).flatMap Span.reported = [] := by
  induction text with
  | nil => rfl
  | cons bytes rest ih => exact ih

/-- What is reported of a header opens a message. -/
theorem opening_opens (c : CutHeader) :
    ∀ callback ∈ c.opening.flatMap Span.reported, Opens callback := by
  intro callback there
  rw [Head.opening, List.flatMap_cons] at there
  simp only [List.flatMap_append, text_silent, List.append_nil, List.nil_append,
    List.mem_append] at there
  rcases there with begun | phrase | fields
  · obtain rfl := List.mem_singleton.mp begun
    exact .begun
  · cases eq : c.phrase with
    | none =>
      rw [eq] at phrase
      cases phrase
    | some w =>
      rw [eq] at phrase
      exact spans_opens _ w callback phrase
  · obtain ⟨span, inside, reported⟩ := List.mem_flatMap.mp fields
    obtain ⟨f, _, inside⟩ := List.mem_flatMap.mp inside
    have both : callback ∈ f.spans.flatMap Span.reported :=
      List.mem_flatMap.mpr ⟨span, inside, reported⟩
    simp only [HeaderField.spans, List.flatMap_append, text_silent, List.append_nil,
      List.mem_append] at both
    rcases both with name | value
    · exact spans_opens _ f.name callback name
    · exact spans_opens _ f.value callback value

/-- The state that a callback leaves. -/
def settle (state : ParseState) : Callback → ParseState
  | .onMessageBegin => .parseHeaderNeedMoreData
  | .onHeadersComplete _ => .parseHeaderComplete
  | .onBody _ => .parseBodyNeedMoreData
  | .onMessageComplete => .parseComplete
  | _ => state

section
variable {p p' : HttpParser} {m m' : HttpMessage}

theorem lookAtBody_state (p : HttpParser) (m : HttpMessage) (start : StartLine) :
    (p.lookAtBody m start).1.state = p.state := by
  simp only [lookAtBody, labelTunnelBody]
  split_ifs <;> rfl

theorem lookAtBody_message (p : HttpParser) (m : HttpMessage) (start : StartLine) :
    ∃ chunked, (p.lookAtBody m start).2 =
      { m with body := { m.body with chunked := chunked } } := by
  simp only [lookAtBody]
  split_ifs
  all_goals first | exact ⟨m.body.chunked, rfl⟩ | exact ⟨true, rfl⟩

/-- Every callback sets the state that its name says, or leaves it. -/
theorem fire_state {callback : Callback} (fired : p.fire m callback = some (p', m')) :
    p'.state = settle p.state callback := by
  cases callback with
  | onMessageBegin => cases fired; rfl
  | onUrl => cases fired; rfl
  | onStatus => cases fired; rfl
  | onHeaderField => cases fired; rfl
  | onHeaderValue => cases fired; rfl
  | onHeadersComplete start =>
    have eq : p' = (p.onHeadersComplete m start).1 :=
      congrArg Prod.fst (Option.some.inj fired).symm
    rw [eq, onHeadersComplete, lookAtBody_state]
    split_ifs <;> rfl
  | onBody at_ =>
    rw [fire, HttpParser.onBody] at fired
    split_ifs at fired
    all_goals
      obtain ⟨_, _, fired⟩ := Option.bind_eq_some_iff.mp fired
      cases fired
      rfl
  | onMessageComplete =>
    rw [fire, HttpParser.onMessageComplete] at fired
    obtain ⟨_, _, fired⟩ := Option.bind_eq_some_iff.mp fired
    cases fired
    rfl

theorem fireAll_state {callbacks : List Callback} (fired : fireAll p m callbacks = some (p', m')) :
    p'.state = callbacks.foldl settle p.state := by
  induction callbacks generalizing p m with
  | nil =>
    cases fired
    rfl
  | cons callback rest ih =>
    rw [fireAll] at fired
    obtain ⟨⟨p₁, m₁⟩, first, fired⟩ := Option.bind_eq_some_iff.mp fired
    rw [ih fired, fire_state first]
    rfl

theorem fireAll_append (p : HttpParser) (m : HttpMessage) (front back : List Callback) :
    fireAll p m (front ++ back) = (fireAll p m front).bind fun (p, m) => fireAll p m back := by
  induction front generalizing p m with
  | nil => rfl
  | cons callback rest ih =>
    rw [List.cons_append, fireAll, fireAll]
    cases p.fire m callback with
    | none => rfl
    | some next => exact ih next.1 next.2

theorem parse_eq {e : Execution}
    (fired : fireAll { p.initParser with completed := [] } m e.callbacks = some (p', m')) :
    p.parse m e = some (e.parsedn, p', m') := by
  rw [parse, fired]
  exact rfl

theorem initParser_unfinished (unfinished : p.state ≠ .parseComplete) :
    { p.initParser with completed := [] }.state ≠ .parseComplete := by
  rw [initParser]
  split_ifs
  · exact ParseState.noConfusion
  · exact unfinished

/-- In front of `on_headers_complete` a message does not get complete. -/
theorem opens_unfinished {front : List Callback} (opens : ∀ callback ∈ front, Opens callback)
    {state : ParseState} (unfinished : state ≠ .parseComplete) :
    front.foldl settle state ≠ .parseComplete := by
  induction front generalizing state with
  | nil => exact unfinished
  | cons callback rest ih =>
    refine ih (fun c there => opens c (List.mem_cons_of_mem _ there)) ?_
    cases opens callback List.mem_cons_self with
    | begun => exact ParseState.noConfusion
    | reported datum bytes => cases datum <;> exact unfinished

theorem headersCompleted_frame (m : HttpMessage) (start : StartLine) :
    (headersCompleted m start).body = m.body ∧ (headersCompleted m start).role = m.role := by
  simp only [headersCompleted]
  cases role : m.role with
  | httpRoleRequest => split_ifs <;> exact ⟨rfl, role⟩
  | httpRoleResponse =>
    simp only [setStatuscode]
    split_ifs <;> exact ⟨rfl, role⟩

/-- A callback of the header leaves the body and the role. -/
theorem hear_frame (m : HttpMessage) (callback : Callback) :
    (hear m callback).body = m.body ∧ (hear m callback).role = m.role := by
  cases callback with
  | onUrl at_ =>
    cases role : m.role with
    | httpRoleRequest =>
      rw [hear, onUrl_request role]
      exact ⟨rfl, role⟩
    | httpRoleResponse =>
      rw [hear, HttpParser.onUrl, role]
      exact ⟨rfl, role⟩
  | onStatus at_ =>
    cases role : m.role with
    | httpRoleRequest =>
      rw [hear, HttpParser.onStatus, role]
      exact ⟨rfl, role⟩
    | httpRoleResponse =>
      rw [hear, onStatus_response role]
      exact ⟨rfl, role⟩
  | onHeadersComplete start => exact headersCompleted_frame m start
  | onMessageBegin => exact ⟨rfl, rfl⟩
  | onHeaderField at_ => exact ⟨rfl, rfl⟩
  | onHeaderValue at_ => exact ⟨rfl, rfl⟩
  | onBody at_ => exact ⟨rfl, rfl⟩
  | onMessageComplete => exact ⟨rfl, rfl⟩

theorem hearAll_frame (m : HttpMessage) (callbacks : List Callback) :
    (callbacks.foldl hear m).body = m.body ∧ (callbacks.foldl hear m).role = m.role := by
  induction callbacks generalizing m with
  | nil => exact ⟨rfl, rfl⟩
  | cons callback rest ih =>
    rw [List.foldl_cons, (ih _).1, (ih _).2]
    exact hear_frame m callback

theorem onHeadersComplete_message (p : HttpParser) (m : HttpMessage) (start : StartLine) :
    ∃ p' chunked, p.onHeadersComplete m start = (p', { headersCompleted m start with
      body := { m.body with chunked := chunked } }) := by
  have body_ := (headersCompleted_frame m start).1
  rw [onHeadersComplete]
  obtain ⟨chunked, looked⟩ := lookAtBody_message
    (if (p.setParseState .parseHeaderComplete).headerCompletedHandle then
      { p.setParseState .parseHeaderComplete with
        completed := (p.setParseState .parseHeaderComplete).completed ++
          [headersCompleted m start] }
      else p.setParseState .parseHeaderComplete) (headersCompleted m start) start
  rw [body_] at looked
  exact ⟨_, chunked, Prod.ext rfl looked⟩

theorem onMessageComplete_message (p : HttpParser) (empty : m.body.ringbuf.size = 0) :
    p.onMessageComplete m = some (p.setParseState .parseComplete,
      { m with body := { m.body with file := m.body.file.close } }) := by
  rw [HttpParser.onMessageComplete, HttpBodyFile.closeFile, HttpBodyFile.flushFile, if_pos empty]
  rfl

/-- A request gets complete at the byte that completes its header. -/
theorem fireAll_completes (p : HttpParser) {front : List Callback}
    (opens : ∀ callback ∈ front, Opens callback) (start : StartLine)
    (empty : m.body.ringbuf.size = 0) :
    ∃ p' body, fireAll p m (front ++ [.onHeadersComplete start, .onMessageComplete]) =
        some (p', { headersCompleted (front.foldl hear m) start with body := body }) ∧
      p'.state = .parseComplete ∧ body.ringbuf = m.body.ringbuf := by
  obtain ⟨p₁, fired⟩ := fireAll_opens p m opens
  obtain ⟨p₂, chunked, complete⟩ := onHeadersComplete_message p₁ (front.foldl hear m) start
  rw [(hearAll_frame m front).1] at complete
  refine ⟨p₂.setParseState .parseComplete,
    { m.body with chunked := chunked, file := m.body.file.close }, ?_, rfl, rfl⟩
  rw [fireAll_append, fired, Option.bind_some]
  simp only [fireAll, fire, complete, Option.bind_eq_bind, Option.bind_some]
  rw [onMessageComplete_message p₂]
  · rfl
  · exact empty

end

end HttpParser
