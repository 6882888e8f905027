import Tigerso.ParserRuns

/-!
# http/HttpParser: what is stored of a header, over every way of cutting it into buffers
-/

open HttpMessage

namespace HttpParser

/-- The message as the first `on_headers_complete` leaves it. -/
def firstHeader (p : HttpParser) (m : HttpMessage) : List Callback → Option HttpMessage
  | [] => none
  | .onHeadersComplete start :: _ => some (headersCompleted m start)
  | callback :: rest => do
    let (p, m) ← p.fire m callback
    firstHeader p m rest

/-- The same when the buffers are passed to `parse` one after the other. -/
def parseHeader (p : HttpParser) (m : HttpMessage) : List (List Span) → Option HttpMessage
  | [] => none
  | buffer :: rest =>
    match firstHeader p.initParser m (execution buffer).callbacks with
    | some m => some m
    | none => do
      let (_, p, m) ← p.parse m (execution buffer)
      parseHeader p m rest

theorem firstHeader_opens (p : HttpParser) (m : HttpMessage) {callback : Callback}
    (opens : Opens callback) (rest : List Callback) :
    ∃ p', firstHeader p m (callback :: rest) = firstHeader p' (hear m callback) rest := by
  cases opens with
  | begun => exact ⟨_, rfl⟩
  | reported datum bytes => cases datum <;> exact ⟨_, rfl⟩

theorem firstHeader_front (p : HttpParser) (m : HttpMessage) {front : List Callback}
    (opens : ∀ callback ∈ front, Opens callback) (rest : List Callback) :
    ∃ p', firstHeader p m (front ++ rest) = firstHeader p' (front.foldl hear m) rest := by
  induction front generalizing p m with
  | nil => exact ⟨p, rfl⟩
  | cons callback front ih =>
    obtain ⟨p₁, step⟩ := firstHeader_opens p m (opens callback List.mem_cons_self) (front ++ rest)
    obtain ⟨p₂, others⟩ := ih p₁ (hear m callback) fun c there =>
      opens c (List.mem_cons_of_mem _ there)
    exact ⟨p₂, step.trans others⟩

/-- A buffer that ends in front of `on_headers_complete`. -/
theorem parseHeader_behind (p : HttpParser) (m : HttpMessage) {buffer : List Span}
    (opens : ∀ callback ∈ buffer.flatMap Span.reported, Opens callback)
    (buffers : List (List Span)) :
    ∃ p', parseHeader p m (buffer :: buffers) =
      parseHeader p' ((buffer.flatMap Span.reported).foldl hear m) buffers := by
  obtain ⟨p', all⟩ := fireAll_opens { p.initParser with completed := [] } m opens
  obtain ⟨p'', nothing⟩ := firstHeader_front p.initParser m opens []
  rw [List.append_nil] at nothing
  have silent : firstHeader p.initParser m (execution buffer).callbacks = none := nothing
  have parsed : p.parse m (execution buffer) =
      some ((execution buffer).parsedn, p', (buffer.flatMap Span.reported).foldl hear m) := by
    rw [parse, execution, all]
    exact rfl
  refine ⟨p', ?_⟩
  rw [parseHeader, silent]
  simp only [parsed]
  rfl

/-- The buffers may end anywhere. -/
theorem parseHeader_opens {buffers : List (List Span)} {front rest : List Callback}
    {start : StartLine} (p : HttpParser) (m : HttpMessage)
    (opens : ∀ callback ∈ front, Opens callback)
    (reported : buffers.flatten.flatMap Span.reported =
      front ++ .onHeadersComplete start :: rest) :
    parseHeader p m buffers = some (headersCompleted (front.foldl hear m) start) := by
  induction buffers generalizing p m front with
  | nil => simp at reported
  | cons buffer buffers ih =>
    rw [List.flatten_cons, List.flatMap_append] at reported
    have later (left : List Callback) (split : front = buffer.flatMap Span.reported ++ left)
        (tail : buffers.flatten.flatMap Span.reported =
          left ++ .onHeadersComplete start :: rest) :
        parseHeader p m (buffer :: buffers) =
          some (headersCompleted (front.foldl hear m) start) := by
      rw [split] at opens
      obtain ⟨p', behind⟩ := parseHeader_behind p m
        (fun c there => opens c (List.mem_append_left _ there)) buffers
      rw [behind, split, List.foldl_append]
      exact ih p' _ (fun c there => opens c (List.mem_append_right _ there)) tail
    rcases List.append_eq_append_iff.mp reported with ⟨left, split, tail⟩ | ⟨more, here, tail⟩
    · exact later left split tail
    · cases more with
      | nil =>
        rw [List.append_nil] at here
        exact later [] (by rw [here, List.append_nil]) tail.symm
      | cons callback more =>
        obtain ⟨rfl, _⟩ := List.cons.inj tail
        obtain ⟨p', complete⟩ :=
          firstHeader_front p.initParser m opens (.onHeadersComplete start :: more)
        rw [parseHeader, execution, here, complete]
        rfl

/-- What is stored of a header that is cut. -/
theorem parseHeader_cut {c : CutHeader} {ending : List Callback} {buffers : List (List Span)}
    {rest : List Span} (p : HttpParser) (m : HttpMessage)
    (cut : buffers.flatten = c.spans ending ++ rest) :
    parseHeader p m buffers = some (headersCompleted (hearHeader m c.lasts) c.start) := by
  rw [← hear_opening]
  refine @parseHeader_opens buffers _ (ending ++ rest.flatMap Span.reported) _ p m
    (opening_opens c) ?_
  simp only [cut, Head.spans, List.flatMap_append, List.flatMap_cons,
    Span.reported, List.append_assoc, List.cons_append, List.nil_append]

/-- The url, the reason phrase and the header list are the same. -/
def SameStored (first second : Option HttpMessage) : Prop :=
  ∃ m₁ m₂, first = some m₁ ∧ second = some m₂ ∧
    m₁.url = m₂.url ∧ m₁.desc = m₂.desc ∧ m₁.headers = m₂.headers

/-- The last fragments of the URL are equally long; those of a status text need be only when
the code has no text of its own. -/
def SamePhrase (c₁ c₂ : CutHeader) : Prop :=
  (c₁.phrase.map fun w => w.last.length) = (c₂.phrase.map fun w => w.last.length) ∨
    (c₁.role = .httpRoleResponse ∧ HttpHelper.getResponseStatusDesc c₁.start.statusCode ≠ [])

/-- Behind the fields `before` that are there already: the last fragments of the names are,
each name taken once, the same in the same order, and the last value under each name has the
same last fragment. -/
def SameFields (before : List (Bytes × Bytes)) (c₁ c₂ : CutHeader) : Prop :=
  KeyedList.names fieldKey (before ++ c₁.lasts.pairs) =
    KeyedList.names fieldKey (before ++ c₂.lasts.pairs) ∧
  ∀ name ∈ KeyedList.names fieldKey (before ++ c₁.lasts.pairs),
    KeyedList.last fieldKey (fieldKey name) (before ++ c₁.lasts.pairs) =
      KeyedList.last fieldKey (fieldKey name) (before ++ c₂.lasts.pairs)

section
variable {c₁ c₂ : CutHeader} {m : HttpMessage}

theorem same_last {w₁ w₂ : Fragments} (same : w₁.whole = w₂.whole) :
    w₁.last = w₂.last ↔ w₁.last.length = w₂.last.length := by
  constructor
  · intro eq
    rw [eq]
  · intro lengths
    exact (List.append_inj' same lengths).2

theorem same_phrase (same : c₁.whole = c₂.whole) (old : Bytes) :
    (c₁.phrase.map Fragments.last).getD old = (c₂.phrase.map Fragments.last).getD old ↔
      (c₁.phrase.map fun w => w.last.length) = c₂.phrase.map fun w => w.last.length := by
  have phrase : c₁.phrase.map Fragments.whole = c₂.phrase.map Fragments.whole :=
    congrArg Head.phrase same
  cases eq₁ : c₁.phrase with
  | none =>
    rw [eq₁] at phrase
    rw [Option.map_eq_none_iff.mp phrase.symm]
    exact iff_of_true rfl rfl
  | some w₁ =>
    rw [eq₁] at phrase
    obtain ⟨w₂, eq₂, whole⟩ := Option.map_eq_some_iff.mp phrase.symm
    rw [eq₂]
    simp [same_last whole.symm]

theorem headersCompleted_headers (m : HttpMessage) (start : StartLine) :
    (headersCompleted m start).headers = m.headers := by
  simp only [headersCompleted]
  cases m.role with
  | httpRoleRequest => split_ifs <;> rfl
  | httpRoleResponse =>
    simp only [setStatuscode]
    split_ifs <;> rfl

theorem headersCompleted_request (start : StartLine) (asks : m.role = .httpRoleRequest) :
    (headersCompleted m start).url = m.url ∧ (headersCompleted m start).desc = m.desc := by
  simp only [headersCompleted, asks]
  split_ifs <;> exact ⟨rfl, rfl⟩

theorem headersCompleted_response (start : StartLine) (answers : m.role = .httpRoleResponse) :
    (headersCompleted m start).url = m.url ∧ (headersCompleted m start).desc =
      if HttpHelper.getResponseStatusDesc start.statusCode ≠ [] then
        HttpHelper.getResponseStatusDesc start.statusCode else m.desc := by
  simp only [headersCompleted, answers, setStatuscode]
  split_ifs <;> exact ⟨rfl, rfl⟩

/-- The message that a header leaves, when the header list was collected before. -/
theorem completed_headers {before : List (Bytes × Bytes)} {h : Header}
    (held : m.headers = KeyedList.collect fieldKey before)
    (phrase : (hearPhrase m h).headers = m.headers) (start : StartLine) :
    (headersCompleted (hearHeader m h) start).headers =
      KeyedList.collect fieldKey (before ++ h.pairs) := by
  obtain ⟨_, eq⟩ := hearHeader_eq m h
  rw [headersCompleted_headers, eq, KeyedList.collect_append, ← held, ← phrase]

theorem stored_request {h : Header} (asks : m.role = .httpRoleRequest)
    (request : h.role = .httpRoleRequest) (start : StartLine) :
    (hearPhrase m h).headers = m.headers ∧
    (headersCompleted (hearHeader m h) start).url = h.phrase.getD m.url ∧
    (headersCompleted (hearHeader m h) start).desc = m.desc := by
  obtain ⟨field, eq⟩ := hearHeader_eq m h
  rw [hearPhrase_request asks request] at eq ⊢
  rw [eq]
  obtain ⟨url, desc⟩ := headersCompleted_request (m := { m with
    url := h.phrase.getD m.url
    headerField := field
    headers := h.pairs.foldl (fun held p => KeyedList.put fieldKey p held) m.headers }) start asks
  exact ⟨rfl, url, desc⟩

theorem stored_response {h : Header} (answers : m.role = .httpRoleResponse)
    (response : h.role = .httpRoleResponse) (start : StartLine) :
    (hearPhrase m h).headers = m.headers ∧
    (headersCompleted (hearHeader m h) start).url = m.url ∧
    (headersCompleted (hearHeader m h) start).desc =
      if HttpHelper.getResponseStatusDesc start.statusCode ≠ [] then
        HttpHelper.getResponseStatusDesc start.statusCode else h.phrase.getD m.desc := by
  obtain ⟨field, eq⟩ := hearHeader_eq m h
  rw [hearPhrase_response answers response] at eq ⊢
  rw [eq]
  obtain ⟨url, desc⟩ := headersCompleted_response (m := { m with
    desc := h.phrase.getD m.desc
    headerField := field
    headers := h.pairs.foldl (fun held p => KeyedList.put fieldKey p held) m.headers }) start
      answers
  exact ⟨rfl, url, desc⟩

/-- The two strings of the start line that are stored are the same. -/
theorem phrase_stored_iff (same : c₁.whole = c₂.whole) (role : c₁.role = m.role) :
    ((headersCompleted (hearHeader m c₁.lasts) c₁.start).url =
        (headersCompleted (hearHeader m c₂.lasts) c₂.start).url ∧
      (headersCompleted (hearHeader m c₁.lasts) c₁.start).desc =
        (headersCompleted (hearHeader m c₂.lasts) c₂.start).desc) ↔ SamePhrase c₁ c₂ := by
  have starts : c₁.start = c₂.start := congrArg (fun h : Header => h.start) same
  have roles : c₁.role = c₂.role := congrArg (fun h : Header => h.role) same
  have lengths := same_phrase same
  rw [SamePhrase]
  cases kind : m.role with
  | httpRoleRequest =>
    obtain ⟨_, url₁, desc₁⟩ := stored_request kind (h := c₁.lasts) (role.trans kind) c₁.start
    obtain ⟨_, url₂, desc₂⟩ :=
      stored_request kind (h := c₂.lasts) (roles.symm.trans (role.trans kind)) c₂.start
    rw [url₁, url₂, desc₁, desc₂]
    simp [← lengths m.url, role.trans kind, Head.lasts, Head.map]
  | httpRoleResponse =>
    obtain ⟨_, url₁, desc₁⟩ := stored_response kind (h := c₁.lasts) (role.trans kind) c₁.start
    obtain ⟨_, url₂, desc₂⟩ :=
      stored_response kind (h := c₂.lasts) (roles.symm.trans (role.trans kind)) c₂.start
    rw [url₁, url₂, desc₁, desc₂, ← starts]
    by_cases known : HttpHelper.getResponseStatusDesc c₁.start.statusCode ≠ []
    · simp [known, role.trans kind]
    · simp [known, ← lengths m.desc, Head.lasts, Head.map]

/-- Two runs over one header store the same exactly when the last fragments agree: those of the
URL or of the status text, and those of the names and values as far as the header list keeps
them. -/
theorem stored_same_iff {before : List (Bytes × Bytes)} {ending : List Callback}
    {rest₁ rest₂ : List Span} {buffers₁ buffers₂ : List (List Span)} (p : HttpParser)
    (held : m.headers = KeyedList.collect fieldKey before) (role : c₁.role = m.role)
    (same : c₁.whole = c₂.whole) (cut₁ : buffers₁.flatten = c₁.spans ending ++ rest₁)
    (cut₂ : buffers₂.flatten = c₂.spans ending ++ rest₂) :
    SameStored (parseHeader p m buffers₁) (parseHeader p m buffers₂) ↔
      SamePhrase c₁ c₂ ∧ SameFields before c₁ c₂ := by
  have roles : c₁.role = c₂.role := congrArg (fun h : Header => h.role) same
  have phrase {c : CutHeader} (role : c.role = m.role) :
      (hearPhrase m c.lasts).headers = m.headers := by
    cases kind : m.role with
    | httpRoleRequest => exact (stored_request kind (role.trans kind) c.start).1
    | httpRoleResponse => exact (stored_response kind (role.trans kind) c.start).1
  have headers₁ := completed_headers held (phrase role) c₁.start
  have headers₂ := completed_headers held (phrase (roles.symm.trans role)) c₂.start
  rw [parseHeader_cut p m cut₁, parseHeader_cut p m cut₂, ← phrase_stored_iff same role, SameFields,
    ← KeyedList.collect_eq_iff, ← headers₁, ← headers₂]
  constructor
  · rintro ⟨m₁, m₂, eq₁, eq₂, url, desc, headers⟩
    cases eq₁
    cases eq₂
    exact ⟨⟨url, desc⟩, headers⟩
  · rintro ⟨⟨url, desc⟩, headers⟩
    exact ⟨_, _, rfl, rfl, url, desc, headers⟩

end

/-- `GET`, a URL and the field `Host: tig`. -/
def requestFor (url host : Fragments) : CutHeader where
  role := .httpRoleRequest
  first := 71
  before := [[69, 84, 32]]
  phrase := some url
  between := [[32, 72, 84, 84, 80, 47, 49, 46, 49, 13, 10]]
  fields := [⟨⟨[], [72, 111, 115, 116]⟩, [[58, 32]], host, [[13, 10]]⟩]
  closing := [[13]]
  last := 10
  start := ⟨[71, 69, 84], 0, 1, 1, false⟩

def newRequest : HttpMessage := .construct .httpRoleRequest fun _ => 0

/-- The host `tig` cut behind its first letter, and also in front of it. -/
theorem same_host_stored :
    SameStored
      (parseHeader .construct newRequest
        [(requestFor ⟨[], [47]⟩ ⟨[[116]], [105, 103]⟩).spans []])
      (parseHeader .construct newRequest
        [(requestFor ⟨[], [47]⟩ ⟨[[], [116]], [105, 103]⟩).spans []]) :=
  (@stored_same_iff (requestFor ⟨[], [47]⟩ ⟨[[116]], [105, 103]⟩)
    (requestFor ⟨[], [47]⟩ ⟨[[], [116]], [105, 103]⟩) newRequest [] [] [] [] _ _ .construct rfl rfl
    rfl (by simp) (by simp)).mpr ⟨Or.inl rfl, rfl, fun _ _ => rfl⟩

/-- Of the URL `/ab` that a buffer cuts behind the `a`, only `b` is stored. -/
theorem cut_url_differs :
    (requestFor ⟨[], [47, 97, 98]⟩ ⟨[], [116]⟩).whole =
        (requestFor ⟨[[47, 97]], [98]⟩ ⟨[], [116]⟩).whole ∧
      ¬ SameStored
        (parseHeader .construct newRequest
          [(requestFor ⟨[], [47, 97, 98]⟩ ⟨[], [116]⟩).spans []])
        (parseHeader .construct newRequest
          [((requestFor ⟨[[47, 97]], [98]⟩ ⟨[], [116]⟩).spans []).take 3,
            ((requestFor ⟨[[47, 97]], [98]⟩ ⟨[], [116]⟩).spans []).drop 3]) := by
  refine ⟨rfl, ?_⟩
  rintro ⟨m₁, m₂, first, second, url, _⟩
  rw [@parseHeader_cut (requestFor ⟨[], [47, 97, 98]⟩ ⟨[], [116]⟩) [] _ [] .construct newRequest
    (by simp)] at first
  rw [@parseHeader_cut (requestFor ⟨[[47, 97]], [98]⟩ ⟨[], [116]⟩) [] _ [] .construct newRequest
    (by simp)] at second
  cases first
  cases second
  exact absurd url (by decide)

end HttpParser
