import Tigerso.CallbackGrammar

/-!
# What every turn of http_parser_execute keeps

The invariant says in which phase a state is, which mark is set in it, and what the assertions of
the state ask for. One lemma for every case of the switch shows that it keeps the invariant and
reports what may come next.
-/

open SystemCalls LabelledPaths

namespace HttpLib

/-- The header states that `s_header_field` knows. -/
def HeaderState.ofField : HeaderState → Bool
  | .hGeneral => true
  | .hC => true
  | .hCO => true
  | .hCON => true
  | .hMatchingConnection => true
  | .hMatchingProxyConnection => true
  | .hMatchingContentLength => true
  | .hMatchingTransferEncoding => true
  | .hMatchingUpgrade => true
  | .hConnection => true
  | .hContentLength => true
  | .hTransferEncoding => true
  | .hUpgrade => true
  | _ => false

/-- The header states that `s_header_value` knows. -/
def HeaderState.ofValue : HeaderState → Bool
  | .hConnection => false
  | .hTransferEncoding => false
  | _ => true

/-- What a state asks for; where chunk sizes start, `n` bytes have been counted. -/
def Parser.Data (n : Nat) (q : Parser) : Prop :=
  match q.state with
  | .sReqMethod => q.index ≤ (methodStrings q.method).length
  | .sHeaderField => q.headerState.ofField
  | .sHeaderValue => q.headerState.ofValue
  | .sChunkSizeStart => q.flags.fChunked ∧ q.nread = n
  | .sChunkSize => q.flags.fChunked ∧ q.contentLength < ullongMax
  | .sChunkParameters => q.flags.fChunked ∧ q.contentLength < ullongMax
  | .sChunkSizeAlmostDone => q.flags.fChunked ∧ q.contentLength < ullongMax
  | .sChunkData => q.flags.fChunked ∧ q.contentLength ≠ 0 ∧ q.contentLength ≠ ullongMax
  | .sChunkDataAlmostDone => q.flags.fChunked ∧ q.contentLength = 0
  | .sChunkDataDone => q.flags.fChunked
  | .sBodyIdentity => q.contentLength ≠ 0 ∧ q.contentLength ≠ ullongMax
  | _ => True

/-- The numbers are those that were written, and no error was found so far. -/
structure Parser.Bounded (q : Parser) : Prop where
  major : q.httpMajor ≤ 999
  minor : q.httpMinor ≤ 999
  status : q.statusCode ≤ 999
  length : q.contentLength ≤ ullongMax
  ok : q.httpErrno = .hpeOk

/-- The marks that are set in a state. -/
structure Marked (s : State) (marks : Mark → Option Bytes) : Prop where
  only : ∀ m, marks m ≠ none → openMark s = some m
  set : ∀ m, resumed s = some m → marks m ≠ none

structure Run.Fits (eof : Prop) (start : Phase) (n : Nat) (r : Run) : Prop where
  path : ∃ ph ∈ allowed r.parser.state r.parser.flags.fTrailing,
    Path (Phase.Next eof) start r.callbacks ph
  marked : Marked r.parser.state r.marks
  data : r.parser.Data n
  bounded : r.parser.Bounded

/-- The bytes behind the message are of another protocol. -/
def Parser.Switched (q : Parser) : Prop :=
  q.upgrade = true ∧ (q.state = .sDead ∨ q.state = .sStartReq ∨ q.state = .sStartRes)

/-- What a turn makes of a run that fits. -/
def Step.Fits (eof : Prop) (start : Phase) : Step → Prop
  | .next r _ => r.Fits eof start 0
  | .error e r _ => e ≠ .hpeOk ∧ ∃ ph, Path (Phase.Next eof) start r.callbacks ph
  | .leave r _ => r.Fits eof start 0 ∧ r.parser.Switched
  | .abort => False

theorem openMark_of_resumed {s : State} {m : Mark} (resumes : resumed s = some m) :
    openMark s = some m := by
  revert resumes
  cases s <;> first | exact id | (intro none; cases none)

namespace Marked

variable {s s' : State} {marks : Mark → Option Bytes} {m : Mark}

theorem none_set (marked : Marked s marks) (closed : openMark s = none) (m : Mark) :
    marks m = none := by
  by_contra set
  have same := marked.only m set
  rw [closed] at same
  exact Option.some_ne_none m same.symm

theorem move (marked : Marked s marks) (closed : openMark s = none) (fresh : resumed s' = none) :
    Marked s' marks := by
  constructor
  · intro m set
    exact absurd (marked.none_set closed m) set
  · intro m resumes
    exact absurd (resumes.symm.trans fresh) (Option.some_ne_none m)

theorem stay (marked : Marked s marks) (same : openMark s' = openMark s)
    (kept : resumed s' = none ∨ resumed s' = resumed s) : Marked s' marks := by
  constructor
  · intro m set
    exact same.trans (marked.only m set)
  · intro m resumes
    rcases kept with fresh | kept
    · exact absurd (resumes.symm.trans fresh) (Option.some_ne_none m)
    · exact marked.set m (kept.symm.trans resumes)

theorem other_none (marked : Marked s marks) (here : openMark s = none ∨ openMark s = some m)
    {k : Mark} (other : k ≠ m) : marks k = none := by
  by_contra set
  have same := marked.only k set
  rcases here with here | here
  · exact Option.some_ne_none k (same.symm.trans here)
  · exact other (Option.some.inj (same.symm.trans here))

end Marked

namespace Run

variable {r : Run} {s s' : State} {m : Mark}

theorem mark_keeps (r : Run) (m : Mark) : (r.mark m).parser = r.parser := by
  unfold mark
  cases r.marks m <;> rfl

theorem mark_callbacks (r : Run) (m : Mark) : (r.mark m).callbacks = r.callbacks := by
  unfold mark
  cases r.marks m <;> rfl

theorem mark_eq (r : Run) (m : Mark) : ∃ marks, r.mark m = { r with marks := marks } := by
  unfold mark
  cases r.marks m <;> exact ⟨_, rfl⟩

theorem CALLBACK_keeps (r : Run) (m : Mark) (more : Bytes) :
    (r.callbackData_ m more).parser = r.parser := by
  unfold callbackData_
  cases r.marks m <;> rfl

/-- At most the mark of the state is set. -/
theorem marked_mark (marked : Marked s r.marks) (here : openMark s = none ∨ openMark s = some m)
    (opens : openMark s' = some m) (kept : resumed s' = none ∨ resumed s' = some m) :
    Marked s' (r.mark m).marks := by
  have others : ∀ k, k ≠ m → (r.mark m).marks k = none := by
    intro k other
    unfold mark
    cases r.marks m with
    | none => simpa [other] using marked.other_none here other
    | some at_ => exact marked.other_none here other
  have this : (r.mark m).marks m ≠ none := by
    unfold mark
    cases set : r.marks m with
    | none => simp
    | some at_ => simp [set]
  constructor
  · intro k set
    by_cases same : k = m
    · exact same ▸ opens
    · exact absurd (others k same) set
  · intro k resumes
    rcases kept with fresh | kept
    · exact absurd (resumes.symm.trans fresh) (Option.some_ne_none k)
    · exact Option.some.inj (resumes.symm.trans kept) ▸ this

theorem marked_CALLBACK (marked : Marked s r.marks) (here : openMark s = some m)
    (fresh : resumed s' = none) (more : Bytes) : Marked s' (r.callbackData_ m more).marks := by
  have cleared : ∀ k, (r.callbackData_ m more).marks k = none := by
    intro k
    unfold callbackData_
    by_cases same : k = m
    · subst same
      cases set : r.marks k with
      | none => exact set
      | some at_ => simp
    · have others := marked.other_none (.inr here) same
      cases set : r.marks m with
      | none => exact others
      | some at_ => simpa [same] using others
  constructor
  · intro k set
    exact absurd (cleared k) set
  · intro k resumes
    exact absurd (resumes.symm.trans fresh) (Option.some_ne_none k)

theorem marked_advance (marked : Marked s r.marks) (bytes : Bytes) :
    Marked s (r.advance bytes).marks := by
  constructor
  · intro k set
    refine marked.only k fun unset => set ?_
    simp [advance, unset]
  · intro k resumes
    have set := marked.set k resumes
    simpa [advance] using set

end Run

namespace Run.Fits

variable {eof : Prop} {start : Phase} {n : Nat} {r r' : Run} {s : State}

theorem advance (fits : r.Fits eof start n) (bytes : Bytes) :
    (r.advance bytes).Fits eof start n where
  path := fits.path
  marked := marked_advance fits.marked bytes
  data := fits.data
  bounded := fits.bounded

/-- A turn that reports nothing. -/
theorem goes (fits : r.Fits eof start n) (callbacks : r'.callbacks = r.callbacks)
    (sub : allowed r.parser.state r.parser.flags.fTrailing ⊆
      allowed r'.parser.state r'.parser.flags.fTrailing)
    (marked : Marked r'.parser.state r'.marks) (data : r'.parser.Data 0)
    (bounded : r'.parser.Bounded) : r'.Fits eof start 0 := by
  obtain ⟨ph, here, path⟩ := fits.path
  exact ⟨⟨ph, sub here, callbacks ▸ path⟩, marked, data, bounded⟩

/-- The same, when the flags are the same and no mark is touched. -/
theorem moves (fits : r.Fits eof start n) (s' : State) (at_ : r.parser.state = s)
    (to_ : r'.parser.state = s')
    (callbacks : r'.callbacks = r.callbacks) (marks : r'.marks = r.marks)
    (trailing : r'.parser.flags.fTrailing = r.parser.flags.fTrailing)
    (sub : ∀ b, allowed s b ⊆ allowed s' b)
    (closed : openMark s = none ∧ resumed s' = none ∨ s' = s)
    (data : r'.parser.Data 0) (bounded : r'.parser.Bounded) : r'.Fits eof start 0 := by
  refine fits.goes callbacks ?_ ?_ data bounded
  · rw [at_, to_, trailing]
    exact sub _
  · have marked := fits.marked
    rw [at_] at marked
    rw [to_, marks]
    rcases closed with ⟨closed, fresh⟩ | rfl
    · exact marked.move closed fresh
    · exact marked

/-- A turn that reports one thing. -/
theorem reports (fits : r.Fits eof start n) {c : Callback}
    (callbacks : r'.callbacks = r.callbacks ++ [c])
    (next : ∀ ph ∈ allowed r.parser.state r.parser.flags.fTrailing,
      ∃ ph' ∈ allowed r'.parser.state r'.parser.flags.fTrailing, Phase.Next eof ph c ph')
    (marked : Marked r'.parser.state r'.marks) (data : r'.parser.Data 0)
    (bounded : r'.parser.Bounded) : r'.Fits eof start 0 := by
  obtain ⟨ph, here, path⟩ := fits.path
  obtain ⟨ph', there, next⟩ := next ph here
  exact ⟨⟨ph', there, callbacks ▸ path.snoc next⟩, marked, data, bounded⟩

/-- A turn that sets a mark. -/
theorem marks (fits : r.Fits eof start n) {m : Mark} (s' : State) (at_ : r.parser.state = s)
    (here : openMark s = none ∨ openMark s = some m) (to_ : r'.parser.state = s')
    (opens : openMark s' = some m) (kept : resumed s' = none ∨ resumed s' = some m)
    (marks : r'.marks = (r.mark m).marks) (callbacks : r'.callbacks = r.callbacks)
    (sub : allowed s r.parser.flags.fTrailing ⊆ allowed s' r'.parser.flags.fTrailing)
    (data : r'.parser.Data 0) (bounded : r'.parser.Bounded) : r'.Fits eof start 0 := by
  refine fits.goes callbacks ?_ ?_ data bounded
  · rw [at_, to_]
    exact sub
  · have marked := fits.marked
    rw [at_] at marked
    rw [to_, marks]
    exact marked_mark marked here opens kept

/-- A turn that reports what is marked. -/
theorem flushes (fits : r.Fits eof start n) {m : Mark} (r' : Run) (s' : State)
    (at_ : r.parser.state = s) (resumes : resumed s = some m) (to_ : r'.parser.state = s')
    (fresh : resumed s' = none)
    (marks : r'.marks = r.marks) (callbacks : r'.callbacks = r.callbacks) (more : Bytes)
    (next : ∀ ph ∈ allowed s r.parser.flags.fTrailing, ∀ at_,
      ∃ ph' ∈ allowed s' r'.parser.flags.fTrailing, Phase.Next eof ph (m.callback at_) ph')
    (data : r'.parser.Data 0) (bounded : r'.parser.Bounded) :
    (r'.callbackData_ m more).Fits eof start 0 := by
  have set : r.marks m ≠ none := fits.marked.set m (by rw [at_]; exact resumes)
  obtain ⟨marked, set⟩ := Option.ne_none_iff_exists'.mp set
  have reported : (r'.callbackData_ m more).callbacks =
    r.callbacks ++ [m.callback (marked ++ more)] := by
    simp only [callbackData_, marks, set, callbacks]
  have same := r'.CALLBACK_keeps m more
  refine fits.reports reported ?_ ?_ ?_ ?_
  · rw [same, at_, to_]
    intro ph here
    exact next ph here (marked ++ more)
  · rw [same, to_]
    have marked := fits.marked
    rw [at_, ← marks] at marked
    exact marked_CALLBACK marked (openMark_of_resumed resumes) fresh more
  · rw [same]
    exact data
  · rw [same]
    exact bounded

theorem failed (fits : r.Fits eof start n) (e : Errno) (bad : e ≠ .hpeOk)
    (callbacks : r'.callbacks = r.callbacks) (passed : Nat) :
    (Step.error e r' passed).Fits eof start := by
  obtain ⟨ph, -, path⟩ := fits.path
  exact ⟨bad, ph, callbacks ▸ path⟩

end Run.Fits

end HttpLib
