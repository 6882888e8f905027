import Tigerso.RequestReads

/-!
# http/HttpConnection: one response to each request of a stream

The stream is a list of requests that the reads cut anywhere. Each response stands for a read
that ends with the end of a request, so that requests are passed over when one read holds more.
-/

open SystemCalls

def Callback.completes : Callback → Bool
  | .onMessageComplete => true
  | _ => false

def Span.ends : Span → Bool
  | .signal _ callbacks => callbacks.any Callback.completes
  | _ => false

def Head.requestSpans (c : CutHeader) : List Span := c.spans [.onMessageComplete]

def Head.url (h : Header) : Bytes := h.phrase.getD []

namespace HttpConnection
open HttpParser HttpMessage

def keepsAlive (h : Header) : Bool :=
  let value := (KeyedList.last fieldKey (fieldKey (literal "connection")) h.pairs).getD []
  if value = [] then decide (h.start.httpMajor > 0 ∧ h.start.httpMinor > 0)
  else sameIgnoringCase value (literal "keep-alive")

/-- Whether a request leaves its connection open: there is a file, and the fields say so. -/
def keepsOpen (root : Bytes) (disk : Disk) (h : Header) : Bool :=
  (disk.contents (filepath root h.url)).isSome && keepsAlive h

/-- The requests that are answered: up to the first that closes the connection. -/
def answeredOf (root : Bytes) (disk : Disk) : List CutHeader → List CutHeader
  | [] => []
  | c :: rest => c :: if keepsOpen root disk c.lasts then answeredOf root disk rest else []

/-- Of the spans of a read only the last can end a request. -/
def EndsRequests (reads : List (List Span)) : Prop :=
  ∀ read ∈ reads, ∀ span ∈ read.dropLast, span.ends = false

instance (reads : List (List Span)) : Decidable (EndsRequests reads) :=
  inferInstanceAs (Decidable (∀ read ∈ reads, ∀ span ∈ read.dropLast, span.ends = false))

section
variable {a b d : List Span} {x y : Span} {c : CutHeader} {cuts : List CutHeader}

theorem front_of_end (front : ∀ span ∈ a, span.ends = false) (ends : y.ends = true)
    (eq : a ++ b = c.opening ++ y :: d) : ∃ more, c.opening = a ++ more ∧ b = more ++ y :: d := by
  rcases List.append_eq_append_iff.mp eq with ⟨more, left, right⟩ | ⟨more, left, right⟩
  · exact ⟨more, left, right⟩
  · cases more with
    | nil =>
      rw [List.append_nil] at left
      exact ⟨[], by rw [left, List.append_nil], right.symm⟩
    | cons z more =>
      obtain ⟨rfl, _⟩ := List.cons.inj right
      have inside := front y (left ▸ List.mem_append_right _ List.mem_cons_self)
      rw [inside] at ends
      cases ends

theorem opens_completes {callback : Callback} (opens : Opens callback) :
    callback.completes = false := by
  cases opens with
  | begun => rfl
  | reported datum bytes => cases datum <;> rfl

/-- Nothing in front of the last byte of a header ends a request. -/
theorem opening_ends (c : CutHeader) : ∀ span ∈ c.opening, span.ends = false := by
  intro span there
  have opens := opening_opens c
  cases span with
  | text => rfl
  | word => rfl
  | signal byte callbacks =>
    rw [Span.ends, List.any_eq_false]
    intro callback inside
    rw [opens_completes (opens callback (List.mem_flatMap.mpr ⟨_, there, inside⟩))]
    exact Bool.false_ne_true

theorem requestSpans_eq (c : CutHeader) : c.requestSpans = c.opening ++
    [.signal c.last [.onHeadersComplete c.start, .onMessageComplete]] := rfl

/-- The part of a stream that the first request is cut into. -/
theorem front_of_request (front : ∀ span ∈ a, span.ends = false)
    (eq : a ++ b = (c :: cuts).flatMap Head.requestSpans) :
    ∃ more, c.opening = a ++ more ∧ b = more ++
      .signal c.last [.onHeadersComplete c.start, .onMessageComplete] ::
        cuts.flatMap Head.requestSpans := by
  rw [List.flatMap_cons, requestSpans_eq, List.append_assoc] at eq
  exact front_of_end front rfl eq

/-- The first end in a stream is that of the first request. -/
theorem first_end (front : ∀ span ∈ a, span.ends = false) (ends : x.ends = true)
    (eq : a ++ x :: b = (c :: cuts).flatMap Head.requestSpans) :
    a = c.opening ∧ x = .signal c.last [.onHeadersComplete c.start, .onMessageComplete] ∧
      b = cuts.flatMap Head.requestSpans := by
  obtain ⟨more, opening, rest⟩ := front_of_request front eq
  cases more with
  | nil =>
    obtain ⟨rfl, rfl⟩ := List.cons.inj rest
    exact ⟨by rw [opening, List.append_nil], rfl, rfl⟩
  | cons z more =>
    obtain ⟨rfl, _⟩ := List.cons.inj rest
    have inside := opening_ends c x (opening ▸ List.mem_append_right _ List.mem_cons_self)
    rw [inside] at ends
    cases ends

/-- Behind an end in a stream come whole requests. -/
theorem behind_end (ends : x.ends = true) (eq : a ++ x :: b = cuts.flatMap Head.requestSpans) :
    ∃ rest : List CutHeader, b = rest.flatMap Head.requestSpans := by
  induction cuts generalizing a with
  | nil =>
    rw [List.flatMap_nil] at eq
    exact absurd eq (by simp)
  | cons c cuts ih =>
    rw [List.flatMap_cons] at eq
    rcases List.append_eq_append_iff.mp eq with ⟨more, inside, rest⟩ | ⟨more, _, later⟩
    · cases more with
      | nil => exact ih (a := []) rest
      | cons z more =>
        obtain ⟨rfl, rfl⟩ := List.cons.inj rest
        rcases List.eq_nil_or_concat more with rfl | ⟨front, last, rfl⟩
        · exact ⟨cuts, rfl⟩
        · have split : c.opening ++
              [.signal c.last [.onHeadersComplete c.start, .onMessageComplete]] =
                (a ++ x :: front) ++ [last] := by
            rw [← requestSpans_eq, inside]
            simp
          have there : x ∈ c.opening := by
            rw [(List.append_inj' split rfl).1]
            exact List.mem_append_right _ List.mem_cons_self
          rw [opening_ends c x there] at ends
          cases ends
    · exact ih later.symm

/-- The last end in a list of spans. -/
theorem last_end (spans : List Span) : (∀ span ∈ spans, span.ends = false) ∨
    ∃ front x back, spans = front ++ x :: back ∧ x.ends = true ∧
      ∀ span ∈ back, span.ends = false := by
  induction spans with
  | nil => exact Or.inl nofun
  | cons span rest ih =>
    rcases ih with none | ⟨front, x, back, eq, ends, behind⟩
    · cases here : span.ends with
      | true => exact Or.inr ⟨[], span, rest, rfl, here, none⟩
      | false =>
        refine Or.inl fun other there => ?_
        rcases List.mem_cons.mp there with rfl | later
        · exact here
        · exact none other later
    · exact Or.inr ⟨span :: front, x, back, by rw [eq]; rfl, ends, behind⟩

/-- When nothing in front of the last span is an end, that span is one or none is. -/
theorem end_of_inside {spans : List Span} (inside : ∀ span ∈ spans.dropLast, span.ends = false) :
    (∀ span ∈ spans, span.ends = false) ∨
      ∃ front x, spans = front ++ [x] ∧ x.ends = true ∧ ∀ span ∈ front, span.ends = false := by
  rcases List.eq_nil_or_concat spans with rfl | ⟨front, x, eq⟩
  · exact Or.inl fun span there => absurd there List.not_mem_nil
  rw [List.concat_eq_append] at eq
  rw [eq, List.dropLast_concat] at inside
  cases ends : x.ends with
  | true => exact Or.inr ⟨front, x, eq, ends, inside⟩
  | false =>
    refine Or.inl fun span there => ?_
    rcases List.mem_append.mp (eq ▸ there) with earlier | last
    · exact inside span earlier
    · rw [List.mem_singleton.mp last]
      exact ends

theorem silent_of_opening {spans : List Span} (within : ∀ span ∈ spans, span ∈ c.opening) :
    ∀ callback ∈ spans.flatMap Span.reported, Opens callback := by
  intro callback there
  obtain ⟨span, inside, reported⟩ := List.mem_flatMap.mp there
  exact opening_opens c callback (List.mem_flatMap.mpr ⟨span, within span inside, reported⟩)

/-- Without an end a stream only tells of headers that are not complete. -/
theorem silent_of_stream {spans : List Span}
    (within : ∀ span ∈ spans, span ∈ cuts.flatMap Head.requestSpans)
    (none : ∀ span ∈ spans, span.ends = false) :
    ∀ callback ∈ spans.flatMap Span.reported, Opens callback := by
  intro callback there
  obtain ⟨span, inside, reported⟩ := List.mem_flatMap.mp there
  obtain ⟨c, _, ofRequest⟩ := List.mem_flatMap.mp (within span inside)
  rcases List.mem_append.mp ofRequest with opening | last
  · exact opening_opens c callback (List.mem_flatMap.mpr ⟨span, opening, reported⟩)
  · rw [List.mem_singleton.mp last] at inside
    exact Bool.noConfusion (none _ inside)

theorem ends_count (cuts : List CutHeader) :
    (cuts.flatMap Head.requestSpans).countP Span.ends = cuts.length := by
  induction cuts with
  | nil => rfl
  | cons c cuts ih =>
    have front : c.opening.countP Span.ends = 0 :=
      List.countP_eq_zero.mpr fun span there => by
        rw [opening_ends c span there]
        exact Bool.false_ne_true
    rw [List.flatMap_cons, List.countP_append, ih, requestSpans_eq, List.countP_append, front]
    exact Nat.add_comm 1 cuts.length

end

def endsRead (read : List Span) : Bool := read.getLast?.any Span.ends

theorem ends_of_read (read : List Span) :
    (if endsRead read then 1 else 0) + read.dropLast.countP Span.ends = read.countP Span.ends := by
  rcases List.eq_nil_or_concat read with rfl | ⟨front, last, rfl⟩
  · rfl
  · rw [List.concat_eq_append, List.dropLast_concat, List.countP_append, List.countP_singleton,
      endsRead, List.getLast?_concat]
    exact Nat.add_comm _ _

/-- The reads that end a request are as many as the requests only when no request ends inside
a read. -/
theorem ends_of_reads (reads : List (List Span)) :
    reads.countP endsRead ≤ reads.flatten.countP Span.ends ∧
      (reads.countP endsRead = reads.flatten.countP Span.ends ↔ EndsRequests reads) := by
  induction reads with
  | nil => exact ⟨Nat.le_refl _, iff_of_true rfl nofun⟩
  | cons read rest ih =>
    have one := ends_of_read read
    have inside :
        read.dropLast.countP Span.ends = 0 ↔ ∀ span ∈ read.dropLast, span.ends = false := by
      simp [List.countP_eq_zero]
    rw [List.flatten_cons, List.countP_append, List.countP_cons, EndsRequests,
      List.forall_mem_cons, ← inside, ← EndsRequests, ← ih.2]
    omega

section
variable {c : HttpConnection} {disk : Disk} {shutdown : Option SocketEvent} {gc : Gc}

theorem midway_of_kept {r : HttpMessage} {c' : HttpConnection} (answered : Answered c r c')
    (alive : r.isKeepAlive = true) : Midway c' c' [] := by
  obtain ⟨reads, state, parser, _⟩ := answered.kept alive
  refine ⟨Or.inr state, reads, ?_, rfl, rfl, rfl, rfl⟩
  rw [parser]
  exact ParseState.noConfusion

theorem serve_unread (unread : c.readDue = false) (reads : List (List Span)) :
    serve disk shutdown c gc reads = some c := by
  cases reads with
  | nil => rfl
  | cons read rest =>
    rw [serve, unread]
    rfl

/-- A read that does not end a request leaves the message incomplete. -/
theorem read_unfinished {read rest : List Span} {front : List Span} {cuts : List CutHeader}
    (stream : front ++ (read ++ rest) = cuts.flatMap Head.requestSpans)
    (short : endsRead read = false) {state : ParseState} (unfinished : state ≠ .parseComplete) :
    (read.flatMap Span.reported).foldl settle state ≠ .parseComplete := by
  have within : ∀ span ∈ read, span ∈ cuts.flatMap Head.requestSpans := fun span there =>
    stream ▸ List.mem_append_right _ (List.mem_append_left _ there)
  rcases last_end read with none | ⟨before, x, back, eq, ends, behind⟩
  · exact opens_unfinished (silent_of_stream within none) unfinished
  · obtain ⟨later, tail⟩ := behind_end (a := front ++ before) (b := back ++ rest) ends (by
      rw [← stream, eq]
      simp)
    cases back with
    | nil =>
      rw [eq, endsRead, List.getLast?_concat, Option.any_some, ends] at short
      cases short
    | cons y back =>
      cases later with
      | nil => cases tail
      | cons c later =>
        obtain ⟨rfl, _⟩ := List.cons.inj tail
        have silent := @silent_of_stream cuts back (fun span there =>
          within span (eq ▸ by simp [there])) fun span there =>
            behind span (List.mem_cons_of_mem _ there)
        have begun : ((Span.signal c.first [.onMessageBegin]).reported).foldl settle
            ((Span.reported x).foldl settle ((before.flatMap Span.reported).foldl settle state)) =
            .parseHeaderNeedMoreData := rfl
        rw [eq, List.flatMap_append, List.flatMap_cons, List.flatMap_cons, List.foldl_append,
          List.foldl_append, List.foldl_append, begun]
        exact opens_unfinished silent ParseState.noConfusion

theorem parse_none {p : HttpParser} {m : HttpMessage} {e : Execution}
    (failed : fireAll { p.initParser with completed := [] } m e.callbacks = none) :
    p.parse m e = none := by
  rw [parse, failed]
  rfl

/-- What one read leads to: more of the request is waited for, or it was completed and is
answered. -/
theorem serve_read {read : List Span} {rest : List (List Span)} {c' : HttpConnection}
    (midway : Midway c c []) (full : read.flatMap Span.bytes ≠ [])
    (served : serve disk shutdown c gc (read :: rest) = some c') :
    (∃ c₂, serve disk shutdown c₂ gc rest = some c' ∧ Midway c₂ c₂ [] ∧
      c₂.attached = c.attached) ∨
    ((∃ state, state ≠ .parseComplete ∧
        (read.flatMap Span.reported).foldl settle state = .parseComplete) ∧
      ∃ c₂ gc₂ r, serve disk shutdown c₂ gc₂ rest = some c' ∧ c₂.attached = c.attached ++ [r] ∧
        (Midway c₂ c₂ [] ∨ c₂.readDue = false)) := by
  obtain ⟨c₁, parses, midway₁⟩ := readHandle_parses disk shutdown gc midway full
  rw [serve, if_pos midway.reads.readDue, parses] at served
  cases fired : fireAll { c₁.parser.initParser with completed := [] } c₁.request
      (read.flatMap Span.reported) with
  | none =>
    rw [parseRequest, answers, parse_none (e := execution read) fired] at served
    cases served
  | some next =>
    obtain ⟨p, m⟩ := next
    have state := fireAll_state fired
    rw [parseRequest_parsed disk shutdown gc (parse_eq (e := execution read) fired)] at served
    cases waiting : p.needMoreData with
    | true =>
      rw [waiting, if_pos rfl, Option.bind_eq_bind, Option.bind_some] at served
      have silent : ({ c₁ with parser := p, request := m } : HttpConnection).writeDue = false :=
        Reads.writeDue midway₁.reads
      rw [send, if_neg (by simp [silent])] at served
      exact Or.inl ⟨_, served, ⟨midway₁.state, midway₁.reads, of_decide_eq_true waiting, rfl, rfl,
        rfl, rfl⟩, midway₁.attached⟩
    | false =>
      have complete : p.state = .parseComplete := by simpa [needMoreData] using waiting
      rw [waiting, if_neg Bool.false_ne_true] at served
      cases got : doGet c₁.acptptr.rootDir disk m c₁.response with
      | none =>
        rw [recvRequestDone, answers, got] at served
        cases served
      | some r =>
        obtain ⟨o, finished, answered⟩ := recvRequestDone_answered shutdown read gc (c := { c₁ with
            parser := p
            request := m
            state := .recvRequestDone }) midway₁.reads got
        rw [finished, Option.bind_eq_bind, Option.bind_some] at served
        refine Or.inr ⟨⟨_, initParser_unfinished midway₁.unfinished, state.symm.trans complete⟩,
          _, _, r, served, ?_, ?_⟩
        · rw [answered.attached]
          exact congrArg (fun held => held ++ [r]) midway₁.attached
        · cases alive : r.isKeepAlive with
          | true => exact Or.inl (midway_of_kept answered alive)
          | false => exact Or.inr (answered.closed alive)

/-- There are at most as many responses as reads that end a request. -/
theorem serve_responses {reads : List (List Span)} {front : List Span} {cuts : List CutHeader}
    {c' : HttpConnection} (midway : Midway c c [])
    (stream : front ++ reads.flatten = cuts.flatMap Head.requestSpans)
    (full : ∀ read ∈ reads, read.flatMap Span.bytes ≠ [])
    (served : serve disk shutdown c gc reads = some c') :
    ∃ responses, c'.attached = c.attached ++ responses ∧
      responses.length ≤ reads.countP endsRead := by
  induction reads generalizing c gc front with
  | nil =>
    cases served
    exact ⟨[], (List.append_nil _).symm, Nat.le_refl _⟩
  | cons read rest ih =>
    have nonempty := full read List.mem_cons_self
    have others : ∀ read ∈ rest, read.flatMap Span.bytes ≠ [] := fun read there =>
      full read (List.mem_cons_of_mem _ there)
    rw [List.flatten_cons] at stream
    have later : (front ++ read) ++ rest.flatten = cuts.flatMap Head.requestSpans := by
      rw [List.append_assoc]
      exact stream
    rw [List.countP_cons]
    rcases serve_read midway nonempty served with
      ⟨c₂, serves, midway₂, attached⟩ |
        ⟨⟨state, unfinished, complete⟩, c₂, gc₂, r, serves, attached, left⟩
    · obtain ⟨responses, eq, few⟩ := ih midway₂ later others serves
      exact ⟨responses, by rw [eq, attached], Nat.le_add_right_of_le few⟩
    · have ends : endsRead read = true := by
        by_contra short
        exact read_unfinished stream (Bool.eq_false_iff.mpr short) unfinished complete
      rw [if_pos ends]
      rcases left with midway₂ | unread
      · obtain ⟨responses, eq, few⟩ := ih midway₂ later others serves
        refine ⟨r :: responses, ?_, Nat.succ_le_succ few⟩
        rw [eq, attached, List.append_assoc]
        rfl
      · rw [serve_unread unread] at serves
        cases serves
        exact ⟨[r], attached, Nat.succ_le_succ (Nat.zero_le _)⟩

end

section
variable {c₀ c : HttpConnection} {disk : Disk} {shutdown : Option SocketEvent} {gc : Gc}

theorem headersCompleted_version (m : HttpMessage) (start : StartLine) :
    (headersCompleted m start).version =
      if start.httpMajor > 0 ∧ start.httpMinor > 0 then m.version else literal "HTTP/1.0" := by
  simp only [headersCompleted]
  cases m.role with
  | httpRoleRequest => split_ifs <;> rfl
  | httpRoleResponse =>
    simp only [setStatuscode]
    split_ifs <;> rfl

/-- The fields of a request and its version decide whether it is to be kept alive. -/
theorem keepsAlive_eq {m : HttpMessage} {h : Header} (blank : Blank m)
    (asks : m.role = .httpRoleRequest) (request : h.role = .httpRoleRequest) :
    (headersCompleted (hearHeader m h) h.start).isKeepAlive = keepsAlive h := by
  obtain ⟨field, eq⟩ := hearHeader_eq m h
  have phrase : (hearPhrase m h).headers = m.headers := (stored_request asks request h.start).1
  have headers := @completed_headers m [] h blank.headers phrase h.start
  have looked :
      (headersCompleted (hearHeader m h) h.start).getValueByHeader (literal "connection") =
      (KeyedList.last fieldKey (fieldKey (literal "connection")) h.pairs).getD [] := by
    have known : (fun p : Bytes × Bytes => sameIgnoringCase (literal "connection") p.1) =
        fun p => decide (fieldKey (literal "connection") = fieldKey p.1) :=
      funext fun p => Bool.eq_iff_iff.mpr (by
        rw [sameIgnoringCase, beq_iff_eq, decide_eq_true_iff, fieldKey, fieldKey])
    rw [getValueByHeader, headers, List.nil_append, ← KeyedList.find_collect, known]
  have version : (headersCompleted (hearHeader m h) h.start).version =
      if h.start.httpMajor > 0 ∧ h.start.httpMinor > 0 then literal "HTTP/1.1"
      else literal "HTTP/1.0" := by
    rw [headersCompleted_version, eq, hearPhrase_request asks request, blank.version]
  have old : sameIgnoringCase (literal "HTTP/1.0") (literal "HTTP/1.1") = false := by decide
  have new : sameIgnoringCase (literal "HTTP/1.1") (literal "HTTP/1.1") = true := by decide
  simp only [HttpMessage.isKeepAlive, keepsAlive, looked, version]
  split_ifs with said http
  · simp [new, http]
  · simp [old, http]
  · rfl

/-- The header of a request decides what it is answered and whether the connection stays open. -/
theorem heard_request (disk : Disk) {m : HttpMessage} {h : Header} (blank : Blank m)
    (asks : m.role = .httpRoleRequest) (request : h.role = .httpRoleRequest) (root : Bytes) :
    (headersCompleted (hearHeader m h) h.start).url = h.url ∧
      staysOpen root disk (headersCompleted (hearHeader m h) h.start) = keepsOpen root disk h := by
  have url : (headersCompleted (hearHeader m h) h.start).url = h.url := by
    rw [(stored_request asks request h.start).2.1, Head.url, blank.url]
  refine ⟨url, ?_⟩
  rw [staysOpen, keepsOpen, url, keepsAlive_eq blank asks request]

variable (disk shutdown gc) in
/-- The requests are answered in order, when only the ends of reads end them. -/
theorem serve_requests {heard : List Span} {reads : List (List Span)} {cuts : List CutHeader}
    (fresh : Fresh c₀) (midway : Midway c₀ c (heard.flatMap Span.reported))
    (begun : ∀ span ∈ heard, span.ends = false)
    (stream : heard ++ reads.flatten = cuts.flatMap Head.requestSpans)
    (full : ∀ read ∈ reads, read.flatMap Span.bytes ≠ []) (aligned : EndsRequests reads)
    (requests : ∀ cut ∈ cuts, cut.role = .httpRoleRequest) :
    ∃ c' responses, serve disk shutdown c gc reads = some c' ∧
      c'.attached = c₀.attached ++ responses ∧
      List.Forall₂ (fun cut r => IsFor disk (filepath c₀.acptptr.rootDir cut.lasts.url) r)
        (answeredOf c₀.acptptr.rootDir disk cuts) responses := by
  induction reads generalizing c₀ c gc heard cuts with
  | nil =>
    have none : cuts.length = 0 := by
      rw [← ends_count, ← stream, List.flatten_nil, List.append_nil, List.countP_eq_zero]
      exact fun span there => by simp [begun span there]
    rw [List.length_eq_zero_iff.mp none]
    exact ⟨c, [], rfl, by rw [midway.attached, List.append_nil], .nil⟩
  | cons read rest ih =>
    have nonempty := full read List.mem_cons_self
    have others : ∀ read ∈ rest, read.flatMap Span.bytes ≠ [] := fun read there =>
      full read (List.mem_cons_of_mem _ there)
    have later : EndsRequests rest := fun read there => aligned read (List.mem_cons_of_mem _ there)
    have inside := aligned read List.mem_cons_self
    rw [List.flatten_cons] at stream
    rcases end_of_inside inside with none | ⟨front, x, eq, ends, before⟩
    · have opens := @silent_of_stream cuts read (fun span there =>
        stream ▸ List.mem_append_right _ (List.mem_append_left _ there)) none
      obtain ⟨c₂, serves, midway₂⟩ := serve_more disk shutdown gc midway nonempty opens rest
      rw [serves]
      rw [← List.flatMap_append] at midway₂
      refine ih gc fresh midway₂ ?_ ?_ others later requests
      · exact fun span there => (List.mem_append.mp there).elim (begun span) (none span)
      · rw [List.append_assoc]
        exact stream
    · have silent : ∀ span ∈ heard ++ front, span.ends = false := fun span there =>
        (List.mem_append.mp there).elim (begun span) (before span)
      cases cuts with
      | nil =>
        rw [eq, List.flatMap_nil] at stream
        exact absurd stream (by simp)
      | cons cut cuts =>
        have split : (heard ++ front) ++ x :: rest.flatten =
            (cut :: cuts).flatMap Head.requestSpans := by
          rw [← stream, eq]
          simp
        obtain ⟨opening, rfl, behind⟩ := first_end silent ends split
        have opens : ∀ callback ∈ front.flatMap Span.reported, Opens callback :=
          silent_of_opening fun span there => opening ▸ List.mem_append_right _ there
        have reported : read.flatMap Span.reported = front.flatMap Span.reported ++
            [.onHeadersComplete cut.start, .onMessageComplete] := by
          rw [eq, List.flatMap_append]
          rfl
        obtain ⟨c', gc', r, serves, attached, isFor, kept, closed⟩ := serve_answer disk shutdown gc
          fresh midway nonempty opens reported rest
        rw [← List.flatMap_append, opening, hear_opening] at isFor kept closed
        obtain ⟨url, stays⟩ := heard_request disk (h := cut.lasts) fresh.request fresh.role
          (requests cut List.mem_cons_self) c₀.acptptr.rootDir
        have started : cut.lasts.start = cut.start := rfl
        rw [started] at url stays
        rw [url] at isFor
        rw [stays] at kept closed
        rw [serves]
        cases keeps : keepsOpen c₀.acptptr.rootDir disk cut.lasts with
        | true =>
          obtain ⟨fresh', acceptor⟩ := kept keeps
          obtain ⟨c₂, responses, served, more, each⟩ :=
            @ih c' c' gc' [] cuts fresh' fresh'.midway nofun
            behind others later fun cut there => requests cut (List.mem_cons_of_mem _ there)
          rw [acceptor] at each
          refine ⟨c₂, r :: responses, served, ?_, ?_⟩
          · rw [more, attached, List.append_assoc]
            rfl
          · rw [answeredOf, keeps]
            exact .cons isFor each
        | false =>
          refine ⟨c', [r], serve_unread (closed keeps) rest, attached, ?_⟩
          rw [answeredOf, keeps]
          exact .cons isFor .nil

theorem answeredOf_take (root : Bytes) (disk : Disk) (cuts : List CutHeader) :
    answeredOf root disk cuts <+: cuts := by
  induction cuts with
  | nil => exact List.prefix_rfl
  | cons cut rest ih =>
    rw [answeredOf]
    refine List.cons_prefix_cons.mpr ⟨rfl, ?_⟩
    cases keepsOpen root disk cut.lasts with
    | true => exact ih
    | false => exact List.nil_prefix

/-- All requests are answered when those in front of the last leave the connection open. -/
theorem answeredOf_eq_iff (root : Bytes) (disk : Disk) (cuts : List CutHeader) :
    answeredOf root disk cuts = cuts ↔
      ∀ cut ∈ cuts.dropLast, keepsOpen root disk cut.lasts = true := by
  induction cuts with
  | nil => exact iff_of_true rfl nofun
  | cons cut rest ih =>
    rw [answeredOf]
    cases rest with
    | nil =>
      refine iff_of_true ?_ nofun
      rw [answeredOf, ite_self]
    | cons next rest =>
      rw [List.dropLast_cons_cons, List.forall_mem_cons, ← ih, List.cons_eq_cons]
      cases keepsOpen root disk cut.lasts with
      | true => simp
      | false => simp

end

/-- The stream leads to one response to each request, in order, for the URL of the request. -/
def OnePerRequest (disk : Disk) (shutdown : Option SocketEvent) (gc : Gc) (c : HttpConnection)
    (reads : List (List Span)) (cuts : List CutHeader) : Prop :=
  ∃ c' responses, serve disk shutdown c gc reads = some c' ∧
    c'.attached = c.attached ++ responses ∧
    List.Forall₂ (fun cut r => IsFor disk (filepath c.acptptr.rootDir cut.whole.url) r)
      cuts responses

theorem isFor_iff {disk : Disk} {path path' : Bytes} {response : HttpMessage}
    (same : disk.contents path = disk.contents path') :
    IsFor disk path response ↔ IsFor disk path' response := by
  rw [IsFor, IsFor, same]

/-- There is one response to each request exactly when requests end only where reads end, the
last fragment of each URL leads to what the URL leads to, and the requests in front of the last
leave the connection open. -/
theorem one_response_iff {disk : Disk} {shutdown : Option SocketEvent} {gc : Gc}
    {c : HttpConnection} {reads : List (List Span)} {cuts : List CutHeader} (fresh : Fresh c)
    (stream : reads.flatten = cuts.flatMap Head.requestSpans)
    (full : ∀ read ∈ reads, read.flatMap Span.bytes ≠ [])
    (requests : ∀ cut ∈ cuts, cut.role = .httpRoleRequest) :
    OnePerRequest disk shutdown gc c reads cuts ↔
      EndsRequests reads ∧
      (∀ cut ∈ cuts, disk.contents (filepath c.acptptr.rootDir cut.whole.url) =
        disk.contents (filepath c.acptptr.rootDir cut.lasts.url)) ∧
      ∀ cut ∈ cuts.dropLast, keepsOpen c.acptptr.rootDir disk cut.lasts = true := by
  have begun : [] ++ reads.flatten = cuts.flatMap Head.requestSpans := stream
  rw [← answeredOf_eq_iff]
  constructor
  · rintro ⟨c', responses, served, attached, each⟩
    obtain ⟨responses', attached', few⟩ := serve_responses fresh.midway begun full served
    obtain rfl := List.append_cancel_left (attached.symm.trans attached')
    obtain ⟨most, all⟩ := ends_of_reads reads
    rw [stream, ends_count] at most all
    have aligned : EndsRequests reads :=
      all.mp (Nat.le_antisymm most (each.length_eq ▸ few))
    obtain ⟨c₂, responses₂, served₂, attached₂, each₂⟩ :=
      serve_requests disk shutdown gc fresh fresh.midway
      (fun _ there => absurd there List.not_mem_nil) begun full aligned requests
    obtain rfl : c' = c₂ := Option.some.inj (served.symm.trans served₂)
    obtain rfl := List.append_cancel_left (attached.symm.trans attached₂)
    have answered : answeredOf c.acptptr.rootDir disk cuts = cuts :=
      (answeredOf_take _ _ _).eq_of_length (each₂.length_eq.trans each.length_eq.symm)
    rw [answered] at each₂
    refine ⟨aligned, fun cut there => ?_, answered⟩
    obtain ⟨i, bound, rfl⟩ := List.mem_iff_getElem.mp there
    have responded : i < responses.length := each.length_eq ▸ bound
    exact (each.get bound responded).same (each₂.get bound responded)
  · rintro ⟨aligned, same, answered⟩
    obtain ⟨c', responses, served, attached, each⟩ :=
      serve_requests disk shutdown gc fresh fresh.midway
      (fun _ there => absurd there List.not_mem_nil) begun full aligned requests
    rw [answered, List.forall₂_iff_get] at each
    refine ⟨c', responses, served, attached, List.forall₂_iff_get.mpr ⟨each.1, ?_⟩⟩
    intro i bound responded
    rw [isFor_iff (same _ (List.get_mem cuts ⟨i, bound⟩))]
    exact each.2 i bound responded

/-- A connection is fresh when it was accepted. -/
theorem accepted_fresh (id : IDType) (acptptr : Acceptor) (garbage : Nat → Byte) (fd : Nat) :
    Fresh (ConnectionFactory.acceptClient fd (construct id acptptr garbage)) where
  midway := ⟨Or.inl rfl, ⟨rfl, _, rfl, rfl, rfl, rfl⟩, ParseState.noConfusion, rfl, rfl, rfl, rfl⟩
  role := rfl
  request := construct_blank _ _
  response := construct_blank _ _

def onePage : Disk where
  contents := fun _ => some [104, 105]
  readable := fun _ => true
  mimetype := fun _ => none

def newClient : HttpConnection :=
  ConnectionFactory.acceptClient 5 (construct 0 ⟨httpConnection, false, []⟩ fun _ => 0)

/-- A request for `/a`. -/
def getPage : CutHeader := requestFor ⟨[], [47, 97]⟩ ⟨[], [116]⟩

def twoFiles : Disk where
  contents := fun path =>
    if path = [47, 97] then some [104, 105] else if path = [47, 98] then some [] else none
  readable := fun _ => true
  mimetype := fun _ => none

/-- A request for `/b`, cut in front of its URL. -/
def getOther : CutHeader := requestFor ⟨[[]], [47, 98]⟩ ⟨[], [116]⟩

/-- A request for `/c`. -/
def getNone : CutHeader := requestFor ⟨[], [47, 99]⟩ ⟨[], [116]⟩

/-- A request for each file and one for no file, in a read each. -/
theorem one_response_each : OnePerRequest twoFiles none (fun _ => []) newClient
    [getPage.requestSpans, getOther.requestSpans, getNone.requestSpans]
    [getPage, getOther, getNone] :=
  (one_response_iff (accepted_fresh _ _ _ _) (by simp)
    (by simp [getPage, getOther, getNone, requestFor, Head.requestSpans, Head.spans, Head.opening,
      Span.bytes])
    (by simp [getPage, getOther, getNone, requestFor])).mpr
    ⟨by decide, by decide, by decide⟩

/-- Two requests in one read. -/
theorem one_response_missed : ¬ OnePerRequest onePage none (fun _ => []) newClient
    [getPage.requestSpans ++ getPage.requestSpans] [getPage, getPage] := by
  rintro ⟨c', responses, served, attached, each⟩
  obtain ⟨responses', attached', few⟩ := @serve_responses newClient onePage none (fun _ => [])
    [getPage.requestSpans ++ getPage.requestSpans] [] [getPage, getPage] c'
    (accepted_fresh 0 ⟨httpConnection, false, []⟩ (fun _ => 0) 5).midway (by simp)
    (by simp [getPage, requestFor, Head.requestSpans, Head.spans, Head.opening, Span.bytes]) served
  obtain rfl := List.append_cancel_left (attached.symm.trans attached')
  have one : [getPage.requestSpans ++ getPage.requestSpans].countP endsRead = 1 := by decide
  rw [one, ← each.length_eq] at few
  exact absurd few (by decide)

end HttpConnection
