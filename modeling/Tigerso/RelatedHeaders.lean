import Tigerso.RelatedTurns

/-!
# Two runs over the same bytes, in headers and bodies
-/

open SystemCalls LabelledPaths JoinedPieces

namespace HttpLib

def Parser.setNread (q : Parser) (n : Nat) : Parser := { q with nread := n }

section
variable (n : Nat) (q : Parser)

theorem matchName_nread (text : Bytes) (found : HeaderState) (c : Byte) :
    matchName text found (q.setNread n) c = (matchName text found q c).setNread n := by
  unfold matchName
  dsimp only [Parser.setNread, Parser.nextIndex]
  split_ifs <;> rfl

theorem fieldChar_nread (ch c : Byte) :
    fieldChar (q.setNread n) ch c = (fieldChar q ch c).map (·.setNread n) := by
  have space : (if ch ≠ sp then (q.setNread n).setHeaderState .hGeneral else q.setNread n) =
      (if ch ≠ sp then q.setHeaderState .hGeneral else q).setNread n := by
    split_ifs <;> rfl
  have same : (q.setNread n).headerState = q.headerState := rfl
  unfold fieldChar
  rw [same]
  cases q.headerState with
  | hMatchingConnection => exact congrArg some (matchName_nread n q _ _ c)
  | hMatchingProxyConnection => exact congrArg some (matchName_nread n q _ _ c)
  | hMatchingContentLength => exact congrArg some (matchName_nread n q _ _ c)
  | hMatchingTransferEncoding => exact congrArg some (matchName_nread n q _ _ c)
  | hMatchingUpgrade => exact congrArg some (matchName_nread n q _ _ c)
  | hConnection => exact congrArg some space
  | hContentLength => exact congrArg some space
  | hTransferEncoding => exact congrArg some space
  | hUpgrade => exact congrArg some space
  | _ => rfl

theorem fieldLoop_nread (strict : Bool) (p : Bytes) :
    fieldLoop strict (q.setNread n) p =
      (fieldLoop strict q p).map fun (q, passed) => (q.setNread n, passed) := by
  induction p generalizing q with
  | nil => rfl
  | cons ch rest ih =>
    rw [fieldLoop, fieldLoop, fieldChar_nread]
    split_ifs
    · rfl
    · cases fieldChar q ch (token strict ch) with
      | none => rfl
      | some q =>
        simp only [Option.map_some, Option.bind_eq_bind, Option.bind_some, ih]
        cases fieldLoop strict q rest <;> rfl

theorem fieldLoop_keeps (strict : Bool) (p : Bytes) {q q' : Parser} {n : Nat}
    (looped : fieldLoop strict q p = some (q', n)) : q'.nread = q.nread := by
  have same := fieldLoop_nread q.nread q strict p
  rw [show q.setNread q.nread = q from rfl, looped] at same
  have same : q' = q'.setNread q.nread := (Prod.mk.inj (Option.some.inj same)).1
  rw [same]
  rfl

end

/-- A change that the loop over a value neither sees nor undoes. -/
structure Parser.Apart (f : Parser → Parser) : Prop where
  flags : ∀ q, (f q).flags = q.flags
  index : ∀ q, (f q).index = q.index
  length : ∀ q, (f q).contentLength = q.contentLength
  lenient : ∀ q, (f q).lenientHttpHeaders = q.lenientHttpHeaders
  put : ∀ q flags index length,
    f { q with flags := flags, index := index, contentLength := length } =
      { f q with flags := flags, index := index, contentLength := length }

theorem Parser.Apart.nread (n : Nat) : Parser.Apart (·.setNread n) :=
  ⟨fun _ => rfl, fun _ => rfl, fun _ => rfl, fun _ => rfl, fun _ _ _ _ => rfl⟩

/-- The second loop went the same way, with the parser changed. -/
inductive ValueEnd.Under (f : Parser → Parser) : ValueEnd → ValueEnd → Prop
  | cr (q : Parser) (h : HeaderState) (n : Nat) : Under f (.cr q h n) (.cr (f q) h n)
  | lf (q : Parser) (h : HeaderState) (n : Nat) : Under f (.lf q h n) (.lf (f q) h n)
  | finished (q : Parser) (h : HeaderState) (n : Nat) : Under f (.finished q h n)
    (.finished (f q) h n)
  | bad (e : Errno) (q q' : Parser) (n : Nat) : Under f (.bad e q n) (.bad e q' n)
  | abort : Under f .abort .abort

theorem ValueEnd.Under.behind {f : Parser → Parser} {e e' : ValueEnd} (under : e.Under f e') :
    e.behind.Under f e'.behind := by
  cases under with
  | cr q h n => exact .cr q h (n + 1)
  | lf q h n => exact .lf q h (n + 1)
  | finished q h n => exact .finished q h (n + 1)
  | bad e q q' n => exact .bad e q q' (n + 1)
  | abort => exact .abort

section
variable {f : Parser → Parser} (apart : Parser.Apart f) (q : Parser)
include apart

theorem nextIndex_apart : (f q).nextIndex = f q.nextIndex := by
  have put := apart.put q q.flags ((q.index + 1) % 2 ^ 7) q.contentLength
  rw [← apart.flags q, ← apart.index q, ← apart.length q] at put
  rw [apart.flags q, apart.index q, apart.length q] at put
  calc (f q).nextIndex
      = { f q with flags := (f q).flags, index := (q.index + 1) % 2 ^ 7
                   contentLength := (f q).contentLength } := by
        rw [Parser.nextIndex, apart.index]
    _ = f q.nextIndex := by
        rw [apart.flags, apart.length]
        exact put.symm

theorem index_apart (flags : Flags) (index : Nat) :
    f { q with flags := flags, index := index } = { f q with flags := flags, index := index } := by
  have put := apart.put q flags index q.contentLength
  rw [← apart.length q] at put
  exact (congrArg f (by rw [apart.length])).trans put

theorem matchValue_apart (text : Bytes) (other found h : HeaderState) (c : Byte) :
    matchValue text other found (f q) h c =
      (f (matchValue text other found q h c).1, (matchValue text other found q h c).2) := by
  unfold matchValue
  rw [nextIndex_apart apart]
  dsimp only
  rw [apart.index]
  split_ifs <;> rfl

theorem tokenFound_apart (h : HeaderState) (ch : Byte) :
    tokenFound (f q) h ch = (f (tokenFound q h ch).1, (tokenFound q h ch).2) := by
  unfold tokenFound
  rw [apart.flags, ← index_apart apart]
  split_ifs <;> rfl

theorem lengthDigit_apart (ch : Byte) :
    lengthDigit (f q) ch = (lengthDigit q ch).map fun (q, h) => (f q, h) := by
  have put := apart.put q q.flags q.index ((q.contentLength * 10 + (ch.toNat - 48)) % 2 ^ 64)
  have same : { f q with contentLength := (q.contentLength * 10 + (ch.toNat - 48)) % 2 ^ 64 } =
      f { q with contentLength := (q.contentLength * 10 + (ch.toNat - 48)) % 2 ^ 64 } := by
    rw [← apart.flags q, ← apart.index q] at put
    exact put.symm.trans (congrArg f (by rw [apart.flags, apart.index]))
  unfold lengthDigit
  rw [apart.length, same]
  split_ifs <;> rfl

/-- A byte of a value does not look at the count. -/
theorem valueChar_apart (h : HeaderState) (ch : Byte) :
    valueChar (f q) h ch = (valueChar q h ch).map fun (q, h) => (f q, h) := by
  unfold valueChar
  cases h with
  | hContentLength => exact lengthDigit_apart apart q ch
  | hMatchingTransferEncodingChunked =>
    exact congrArg Except.ok (matchValue_apart apart q _ _ _ _ _)
  | hMatchingConnectionKeepAlive =>
    exact congrArg Except.ok (matchValue_apart apart q _ _ _ _ _)
  | hMatchingConnectionClose => exact congrArg Except.ok (matchValue_apart apart q _ _ _ _ _)
  | hMatchingConnectionUpgrade => exact congrArg Except.ok (matchValue_apart apart q _ _ _ _ _)
  | hMatchingConnectionToken =>
    have start := index_apart apart q q.flags 0
    rw [← apart.flags] at start
    dsimp only
    split_ifs
    · refine congrArg (fun q => Except.ok (q, HeaderState.hMatchingConnectionTokenStart)) ?_
      exact start.symm.trans (congrArg f (by rw [apart.flags]))
    · rfl
  | hConnectionKeepAlive => exact congrArg Except.ok (tokenFound_apart apart q _ ch)
  | hConnectionClose => exact congrArg Except.ok (tokenFound_apart apart q _ ch)
  | hConnectionUpgrade => exact congrArg Except.ok (tokenFound_apart apart q _ ch)
  | _ => rfl

/-- Nor does the loop over it. -/
theorem valueLoop_apart (h : HeaderState) (skipped : Nat) (p : Bytes) :
    (valueLoop q h skipped p).Under f (valueLoop (f q) h skipped p) := by
  induction p generalizing q h skipped with
  | nil => cases skipped <;> exact .finished q h 0
  | cons ch rest ih =>
    cases skipped with
    | succ skipped => exact (ih q h skipped).behind
    | zero =>
      rw [valueLoop, valueLoop, valueChar_apart apart, apart.lenient]
      split_ifs
      · exact .cr q h 0
      · exact .lf q h 0
      · exact .bad _ _ _ 0
      · exact (ih q h _).behind
      · cases valueChar q h ch with
        | ok turned => exact (ih turned.1 turned.2 0).behind
        | error e =>
          cases e with
          | none => exact .abort
          | some e => exact .bad e _ _ 0

end

/-- The `nread` of the parser at the end. -/
def ValueEnd.Counted (n : Nat) : ValueEnd → Prop
  | .cr q _ _ => q.nread = n
  | .lf q _ _ => q.nread = n
  | .finished q _ _ => q.nread = n
  | .bad _ _ _ => True
  | .abort => True

theorem valueLoop_counted (q : Parser) (h : HeaderState) (skipped : Nat) (p : Bytes) :
    (valueLoop q h skipped p).Counted q.nread := by
  have under := valueLoop_apart (.nread q.nread) q h skipped p
  rw [show q.setNread q.nread = q from rfl] at under
  have all : ∀ e e' : ValueEnd, e.Under (·.setNread q.nread) e' → e'.Counted q.nread := by
    intro e e' under
    cases under <;> first | rfl | trivial
  exact all _ _ under

theorem fieldLoop_le (strict : Bool) (p : Bytes) {q q' : Parser} {n : Nat}
    (looped : fieldLoop strict q p = some (q', n)) : n ≤ p.length := by
  induction p generalizing q q' n with
  | nil =>
    obtain ⟨-, rfl⟩ := Prod.mk.inj (Option.some.inj looped)
    exact Nat.le_refl _
  | cons ch rest ih =>
    rw [fieldLoop] at looped
    split_ifs at looped
    · obtain ⟨-, rfl⟩ := Prod.mk.inj (Option.some.inj looped)
      exact Nat.zero_le _
    · obtain ⟨q₁, -, looped⟩ := Option.bind_eq_some_iff.mp looped
      obtain ⟨⟨q₂, n₂⟩, more, looped⟩ := Option.bind_eq_some_iff.mp looped
      obtain ⟨-, rfl⟩ := Prod.mk.inj (Option.some.inj looped)
      exact Nat.succ_le_succ (ih more)

/-- How far the loop over a value goes in a buffer of some length. -/
def ValueEnd.Within (length : Nat) : ValueEnd → Prop
  | .cr _ _ n => n < length
  | .lf _ _ n => n < length
  | .finished _ _ n => n = length
  | .bad _ _ n => n < length
  | .abort => True

/-- The loop stops inside of the buffer. -/
theorem valueLoop_within (q : Parser) (h : HeaderState) (skipped : Nat) (p : Bytes) :
    (valueLoop q h skipped p).Within p.length := by
  have behind : ∀ (e : ValueEnd) (n : Nat), e.Within n → e.behind.Within (n + 1) := by
    intro e n within
    cases e with
    | finished => exact congrArg Nat.succ within
    | abort => trivial
    | _ => exact Nat.succ_lt_succ within
  induction p generalizing q h skipped with
  | nil => cases skipped <;> exact rfl
  | cons ch rest ih =>
    cases skipped with
    | succ skipped => exact behind _ _ (ih q h skipped)
    | zero =>
      rw [valueLoop]
      split_ifs
      · exact Nat.succ_pos _
      · exact Nat.succ_pos _
      · exact Nat.succ_pos _
      · exact behind _ _ (ih q h _)
      · cases valueChar q h ch with
        | ok next => exact behind _ _ (ih next.1 next.2 0)
        | error e => cases e <;> first | trivial | exact Nat.succ_pos _

variable {past : List Callback} {r r' : Run}

theorem Alike.setNread (alike : Alike past r r') :
    r'.parser = r.parser.setNread r'.parser.nread := alike.parser

theorem Alike.setHeaderState (alike : Alike past r r') (h : HeaderState) :
    Alike past (r.setHeaderState h) (r'.setHeaderState h) := by
  obtain ⟨n, marks, callbacks, rfl⟩ := alike.shape
  exact alike.changed rfl alike.nread alike.small

theorem Alike.count (alike : Alike past r r') {v : Nat}
    (le : r'.parser.nread + v ≤ httpMaxHeaderSize) : Alike past (r.count v) (r'.count v) := by
  have top : httpMaxHeaderSize = 81920 := rfl
  have less := alike.nread
  have counted : (r.count v).parser.nread = r.parser.nread + v := Nat.mod_eq_of_lt (by omega)
  have counted' : (r'.count v).parser.nread = r'.parser.nread + v := Nat.mod_eq_of_lt (by omega)
  refine ⟨?_, alike.marks, alike.report, ?_, ?_⟩
  · have parser := congrArg (Parser.setNread · ((r'.parser.nread + v) % 2 ^ 32)) alike.parser
    exact parser
  · rw [counted, counted']
    exact Nat.add_le_add_right less v
  · rw [counted']
    exact le

/-- What is counted is compared with the limit. -/
theorem Run.count_long {r : Run} {v : Nat} (small : r.parser.nread ≤ httpMaxHeaderSize)
    (short : v < 2 ^ 31) :
    (r.count v).parser.nread > httpMaxHeaderSize ↔
      r.parser.nread + v > httpMaxHeaderSize := by
  have top : httpMaxHeaderSize = 81920 := rfl
  have counted : (r.count v).parser.nread = r.parser.nread + v := Nat.mod_eq_of_lt (by omega)
  rw [counted]

theorem Alike.counted (alike : Alike past r r') {v passed : Nat} (short : v < 2 ^ 31)
    {k k' : Run → Step}
    (follows : Alike past (r.count v) (r'.count v) →
      TurnsAlike past (k (r.count v)) (k' (r'.count v))) :
    TurnsAlike past (r.countHeaderSize v passed k) (r'.countHeaderSize v passed k') := by
  have long := Run.count_long (alike.nread.trans alike.small) short
  have long' := Run.count_long alike.small short
  have less := alike.nread
  unfold Run.countHeaderSize
  by_cases finished : r'.parser.nread + v > httpMaxHeaderSize
  · rw [if_pos (long'.mpr finished)]
    exact .tooLong _ _ _
  · rw [if_neg fun counted => finished (long'.mp counted),
      if_neg fun counted => finished (Nat.lt_of_lt_of_le (long.mp counted) (by omega))]
    exact follows (alike.count (Nat.not_lt.mp finished))

section
variable (alike : Alike past r r')

include alike in
/-- A name is taken alike. -/
theorem sHeaderField_alike (field : Single r.marks .headerField) (strict : Bool) (p : Bytes)
    (short : p.length < 2 ^ 31) :
    TurnsAlike past (sHeaderField strict r p) (sHeaderField strict r' p) := by
  unfold sHeaderField
  rw [alike.setNread, fieldLoop_nread]
  cases looped : fieldLoop strict r.parser p with
  | none => exact .abort
  | some turned =>
    obtain ⟨q, passed⟩ := turned
    have le := fieldLoop_le strict p looped
    have same := fieldLoop_keeps strict p looped
    have changed : Alike past { r with parser := q }
        { r' with parser := q.setNread r'.parser.nread } :=
      alike.changed rfl (same ▸ alike.nread) alike.small
    refine changed.counted (Nat.lt_of_le_of_lt le short) ?_
    intro counted
    cases p.drop passed with
    | nil => exact .next _ counted
    | cons ch rest =>
      dsimp only
      split_ifs
      · refine .next _ (Alike.flush ?_ ?_ _)
        · exact counted.changed rfl counted.nread counted.small
        · exact field
      · exact .error _ _

include alike in
theorem sHeaderAlmostDone_alike (ch : Byte) :
    TurnsAlike past (sHeaderAlmostDone r ch) (sHeaderAlmostDone r' ch) := by
  obtain ⟨n, marks, callbacks, rfl⟩ := alike.shape
  unfold sHeaderAlmostDone
  split_ifs
  · exact .error _ 0
  · exact .next 0 (alike.changed rfl alike.nread alike.small)

theorem TurnsAlike.behind {step step' : Step} (alike : TurnsAlike past step step')
    (passed : Nat) : TurnsAlike past (step.behind passed) (step'.behind passed) := by
  cases alike with
  | next k alike => exact .next (passed + k) alike
  | leave k alike => exact .leave (passed + k) alike
  | error e k => exact .error e (passed + k)
  | tooLong step r' more => exact .tooLong _ _ _
  | badToken step r' more => exact .badToken _ _ _
  | abort => exact .abort

include alike in
/-- So is a value, unless a count passes the limit. -/
theorem sHeaderValue_alike (value : Single r.marks .headerValue) (p : Bytes)
    (short : p.length < 2 ^ 31) :
    TurnsAlike past (sHeaderValue r p) (sHeaderValue r' p) := by
  have within := valueLoop_within r.parser r.parser.headerState 0 p
  have under := valueLoop_apart (.nread r'.parser.nread) r.parser r.parser.headerState 0 p
  have kept := valueLoop_counted r.parser r.parser.headerState 0 p
  have state : r'.parser.headerState = r.parser.headerState := by rw [alike.parser]
  unfold sHeaderValue
  rw [state, alike.setNread]
  generalize valueLoop (r.parser.setNread r'.parser.nread) r.parser.headerState 0 p =
    other at under ⊢
  generalize valueLoop r.parser r.parser.headerState 0 p = looped at within under kept ⊢
  cases under with
  | cr q h passed =>
    have same : q.nread = r.parser.nread := kept
    have changed : Alike past
        ({ r with parser := q.setHeaderState h }.updateState .sHeaderAlmostDone)
        ({ r' with parser := (q.setNread r'.parser.nread).setHeaderState h }.updateState
          .sHeaderAlmostDone) :=
      alike.changed rfl (same ▸ alike.nread) alike.small
    have flushed := changed.flush value (p.take passed)
    exact flushed.counted (Nat.lt_trans within short) fun counted => .next _ counted
  | lf q h passed =>
    have same : q.nread = r.parser.nread := kept
    have changed : Alike past
        ({ r with parser := q }.updateState .sHeaderAlmostDone)
        ({ r' with parser := q.setNread r'.parser.nread }.updateState .sHeaderAlmostDone) :=
      alike.changed rfl (same ▸ alike.nread) alike.small
    refine changed.counted (Nat.lt_trans within short) fun counted => ?_
    have reported := (counted.setHeaderState h).flush value (p.take passed)
    exact (sHeaderAlmostDone_alike reported lf).behind passed
  | finished q h passed =>
    have same : q.nread = r.parser.nread := kept
    have changed : Alike past { r with parser := q.setHeaderState h }
        { r' with parser := (q.setNread r'.parser.nread).setHeaderState h } :=
      alike.changed rfl (same ▸ alike.nread) alike.small
    have all : passed = p.length := within
    exact changed.counted (all ▸ short) fun counted => .next _ counted
  | bad e q q' passed => exact .error e passed
  | abort => exact .abort

end

end HttpLib
