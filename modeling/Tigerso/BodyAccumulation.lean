import Tigerso.GuardedRuns
import Tigerso.HttpBodyFile

/-!
# Accumulating a body

Blocks go to the ring, through the ring to the file, or straight to the file behind a
flush. The stored body is the file followed by the ring. Two things go wrong on the
way: a flush never ends when the write pointer rests on the end of the ring, and a
block that does not fit waits forever for a flush that fails.
-/

open SystemCalls DiskFile RingBuffer HttpBodyFile GuardedRuns

namespace BodyAccumulation

/-- What is stored: full rings were flushed behind the file. -/
def stored (b : HttpBodyFile) : Bytes := b.file.contents ++ b.ringbuf.content

/-- A ring that `writeIn` and the flushes can leave behind. -/
structure Sane (b : HttpBodyFile) : Prop where
  valid : b.ringbuf.Valid
  before : b.ringbuf.readptr < b.ringbuf.capacity

/-- A flush of the ring ends: its write pointer does not rest on the end, or there is no
file and the first write is refused. -/
def Flushable (b : HttpBodyFile) : Prop :=
  b.file.named = true → b.ringbuf.writeptr ≠ b.ringbuf.capacity

/-- What a flush that ends has done. -/
structure Flushed (b : HttpBodyFile) (results : List WriteResult) (b' : HttpBodyFile)
    (rest : List WriteResult) : Prop where
  sane : Sane b'
  capacity : b'.ringbuf.capacity = b.ringbuf.capacity
  named : b'.file.named = b.file.named
  suffix : rest <:+ results
  stored : b.file.named = true → stored b' = stored b
  emptied : b.file.named = true → (∀ r ∈ results, r.IsTook) → b'.ringbuf.content = [] ∧
    b'.ringbuf.readptr = b.ringbuf.writeptr ∧ b'.ringbuf.writeptr = b.ringbuf.writeptr
  refused : b.file.named = false → b'.ringbuf = b.ringbuf

section
variable {b b' : HttpBodyFile} {results rest : List WriteResult}

theorem same_of_empty (sane : Sane b) (empty : b.ringbuf.content = []) :
    b.ringbuf.readptr = b.ringbuf.writeptr := by
  have length := content_length b.ringbuf
  have before := sane.before
  rw [empty, List.length_nil] at length
  split_ifs at length <;> omega

theorem size_zero (sane : Sane b) : b.ringbuf.size = 0 ↔ b.ringbuf.content = [] := by
  rw [size_eq sane.valid, List.length_eq_zero_iff]

theorem isEmpty_false (occupied : b.ringbuf.content ≠ []) : ¬ b.ringbuf.isEmpty = true := by
  intro empty
  have same := isEmpty_iff.mp empty
  have length := content_length b.ringbuf
  rw [if_pos (Nat.le_of_eq same), same, Nat.sub_self] at length
  exact occupied (List.length_eq_zero_iff.mp length)

theorem flushFile_empty (sane : Sane b) (empty : b.ringbuf.content = [])
    (results : List WriteResult) : b.flushFile results = some (b, results) := by
  rw [flushFile, if_pos ((size_zero sane).mpr empty)]

/-- A file without a name refuses the first write. -/
theorem flushFile_unnamed (sane : Sane b) (unnamed : b.file.named = false)
    (occupied : b.ringbuf.content ≠ []) (r : WriteResult) (results : List WriteResult) :
    b.flushFile (r :: results) = some (b, results) := by
  have pending : ¬ b.ringbuf.size = 0 := mt (size_zero sane).mp occupied
  have write : ∀ bytes, writeFile b.file bytes r = (.stop tigersoIoError, b.file) := by
    intro bytes
    simp [writeFile, File.appendWriteIn, unnamed, fileArgsInvalid]
  rw [flushFile, if_neg pending, RingBuffer.readOut2File, if_neg (isEmpty_false occupied),
    drainLoop, if_neg pending, copyOut_request sane.valid (occupied_of_size sane.valid pending)]
  simp only [Option.bind_eq_bind, Option.bind_some, write]

/-- A flush to a file is the drain of the ring; with a result for each byte it ends. -/
theorem flushFile_named (sane : Sane b) (named : b.file.named = true)
    (off : b.ringbuf.writeptr ≠ b.ringbuf.capacity) (occupied : b.ringbuf.content ≠ [])
    (results : List WriteResult) :
    ∃ d file, drainLoop writeFile id b.ringbuf.size results b.ringbuf b.file = some (d, file) ∧
      b.flushFile results =
        (d.ret.map fun _ => ({ b with ringbuf := d.ring, file := file }, d.rest)) ∧
      Drained b.ringbuf results d ∧ file.named = true ∧
      file.contents = b.file.contents ++ d.sent ∧ d.rest <:+ results ∧
      d.ring.writeptr = b.ringbuf.writeptr ∧
      (d.ret ≠ none → d.ring.capacity = b.ringbuf.capacity ∧ d.ring.readptr < d.ring.capacity) ∧
      (b.ringbuf.content.length ≤ results.length → d.ret ≠ none) := by
  have pending : ¬ b.ringbuf.size = 0 := mt (size_zero sane).mp occupied
  have behind := sane.valid.write_le
  obtain ⟨d, file, drains, drained, paced, ends⟩ :=
    drainLoop_spec writeFile_takes id_finishes (False.elim : False → Patient writeFile)
      b.ringbuf.size results sane.valid (by omega) (Or.inl sane.before) b.file named
  have loop : b.ringbuf.readOut2File b.file results = some (d, file) := by
    rw [RingBuffer.readOut2File, if_neg (isEmpty_false occupied), drains]
  refine ⟨d, file, drains, ?_, drained, ?_, readOut2File_contents named loop, drainLoop_rest drains,
    (drainLoop_writeptr drains).1, fun returned => ?_, fun enough => ends ?_⟩
  · rw [flushFile, if_neg pending, loop]
    cases code : d.ret <;> simp [code]
  · exact drainLoop_named named drains
  · obtain ⟨capacity, before, _⟩ := (paced sane.before).rested returned
    exact ⟨capacity, before⟩
  · rw [if_pos sane.before]
    exact enough

/-- Every flush that comes back has left the stored body as it was. -/
theorem flushFile_flushed (sane : Sane b) (flushable : Flushable b)
    (result : b.flushFile results = some (b', rest)) : Flushed b results b' rest := by
  by_cases empty : b.ringbuf.content = []
  · rw [flushFile_empty sane empty] at result
    cases result
    exact ⟨sane, rfl, rfl, List.suffix_rfl, fun _ => rfl,
      fun _ _ => ⟨empty, same_of_empty sane empty, rfl⟩, fun _ => rfl⟩
  cases named : b.file.named with
  | false =>
    cases results with
    | nil =>
      have pending : ¬ b.ringbuf.size = 0 := mt (size_zero sane).mp empty
      rw [flushFile, if_neg pending, RingBuffer.readOut2File, if_neg (isEmpty_false empty),
        drainLoop, if_neg pending] at result
      cases result
    | cons r results =>
      rw [flushFile_unnamed sane named empty] at result
      cases result
      exact ⟨sane, rfl, rfl, List.suffix_cons _ _, fun e => absurd (e.symm.trans named) (by decide),
        fun e => absurd (e.symm.trans named) (by decide), fun _ => rfl⟩
  | true =>
    obtain ⟨d, file, _, flushed, drained, named', grows, suffix, write, rested, _⟩ :=
      flushFile_named sane named (flushable named) empty results
    rw [flushed] at result
    cases returned : d.ret with
    | none =>
      rw [returned] at result
      cases result
    | some ret =>
      have ends : d.ret ≠ none := returned ▸ Option.some_ne_none ret
      rw [returned] at result
      cases result
      obtain ⟨valid, rest_content, isEmpty⟩ := drained.kept ends
      obtain ⟨capacity, before⟩ := rested ends
      refine ⟨⟨valid, before⟩, capacity, named'.trans named.symm, suffix, fun _ => ?_,
        fun _ all => ?_, fun e => absurd (named.symm.trans e) (by decide)⟩
      · have whole := List.prefix_iff_eq_append.mp drained.order
        rw [stored, grows, rest_content, List.append_assoc, whole, stored]
      · have sent := drained.complete all ends
        have nothing : d.ring.content = [] := by
          rw [rest_content, sent, List.drop_length]
        exact ⟨nothing, (isEmpty_iff.mp (isEmpty nothing)).trans write, write⟩

/-- With a result for each byte of the ring a flush ends, and the other results are left. -/
theorem flushFile_ends (results : List WriteResult) (sane : Sane b) (flushable : Flushable b)
    (enough : b.ringbuf.content.length ≤ results.length) :
    ∃ b' rest, b.flushFile results = some (b', rest) ∧
      results.length ≤ rest.length + b.ringbuf.content.length := by
  by_cases empty : b.ringbuf.content = []
  · exact ⟨b, results, flushFile_empty sane empty results, Nat.le_add_right _ _⟩
  have positive := List.length_pos_iff.mpr empty
  cases named : b.file.named with
  | false =>
    obtain ⟨r, results, rfl⟩ : ∃ r more, results = r :: more := by
      cases results with
      | nil => exact absurd enough (by rw [List.length_nil]; omega)
      | cons r more => exact ⟨r, more, rfl⟩
    refine ⟨b, results, flushFile_unnamed sane named empty r results, ?_⟩
    rw [List.length_cons]
    omega
  | true =>
    -- the results behind the first ones, one for each byte, are not used
    let few := results.take b.ringbuf.content.length
    obtain ⟨d, file, drains, _, _, _, _, _, _, _, ends⟩ :=
      flushFile_named sane named (flushable named) empty few
    have length : few.length = b.ringbuf.content.length := List.length_take_of_le enough
    have returned := ends (Nat.le_of_eq length.symm)
    have more := drainLoop_more (results.drop b.ringbuf.content.length) drains returned
    rw [List.take_append_drop] at more
    obtain ⟨d', file', drains', flushed, _⟩ :=
      flushFile_named sane named (flushable named) empty results
    rw [more] at drains'
    cases drains'
    cases code : d.ret with
    | none => exact absurd code returned
    | some ret =>
      rw [code] at flushed
      refine ⟨_, _, flushed, ?_⟩
      rw [List.length_append, List.length_drop]
      omega

/-- How often a block of `len` bytes fills the ring. -/
def fills (rb : RingBuffer) (len : Nat) : Nat := (rb.size + len) / (rb.capacity - 1)

/-- The read pointer is not so close to the start that the write pointer comes to rest
on the end in one of these fills. -/
def Clear (rb : RingBuffer) (len : Nat) : Prop := ¬ (1 ≤ rb.readptr ∧ rb.readptr ≤ fills rb len)

theorem full_iff (valid : b.ringbuf.Valid) :
    b.ringbuf.isFull = true ↔ b.ringbuf.content.length = b.ringbuf.capacity - 1 := by
  have space := space_eq valid
  have less := contentLength_lt valid
  rw [isFull_iff, space]
  omega

/-- Where the write pointer is when the ring is full. -/
theorem full_writeptr (sane : Sane b) (full : b.ringbuf.isFull = true)
    (apart : b.ringbuf.readptr ≠ 1) :
    b.ringbuf.writeptr =
      if b.ringbuf.readptr = 0 then b.ringbuf.capacity - 1 else b.ringbuf.readptr - 1 := by
  have length := content_length b.ringbuf
  have before := sane.before
  have behind := sane.valid.write_le
  rw [(full_iff sane.valid).mp full] at length
  split_ifs at length ⊢ <;> omega

/-- One pass of the loop, up to the flush. -/
theorem spill_pass (sane : Sane b) {left : Bytes} (some_left : left ≠ [] ∨ b.ringbuf.space = 0)
    (fuel len : Nat) (results : List WriteResult) :
    ∃ rb, Appended b.ringbuf rb (left.take b.ringbuf.space) ∧
      spill (fuel + 1) b left len results =
        ((if rb.isFull then flushFile { b with ringbuf := rb } results
          else some ({ b with ringbuf := rb }, results)).bind fun p =>
            if (left.drop b.ringbuf.space).length = 0 then some ((len : Int), p.1, p.2)
            else spill fuel p.1 (left.drop b.ringbuf.space) len p.2) := by
  by_cases full : b.ringbuf.space = 0
  · refine ⟨b.ringbuf, ?_⟩
    have isFull : b.ringbuf.isFull = true := isFull_iff.mpr full
    rw [full, List.take_zero, List.drop_zero, spill, writeIn_full full, if_pos isFull]
    refine ⟨⟨sane.valid, (List.append_nil _).symm, rfl, rfl⟩, ?_⟩
    simp only [Option.bind_eq_bind, Option.bind_some, ringbufferNoData, isFull, if_true]
    rw [if_neg (by decide), if_neg (by decide)]
  · have data := some_left.resolve_right full
    obtain ⟨rb, wrote, appended, _⟩ := writeIn_spec sane.valid full data
    have positive := List.length_pos_iff.mpr data
    refine ⟨rb, appended, ?_⟩
    have same : left.drop (min left.length b.ringbuf.space) = left.drop b.ringbuf.space := by
      rcases Nat.le_total left.length b.ringbuf.space with few | many
      · rw [Nat.min_eq_left few, List.drop_length, List.drop_of_length_le few]
      · rw [Nat.min_eq_right many]
    rw [spill, wrote]
    simp only [Option.bind_eq_bind, Option.bind_some, ringbufferNoData]
    rw [if_neg (show ¬ ((min left.length b.ringbuf.space : Nat) : Int) = -2 by omega),
      if_pos (show 0 < ((min left.length b.ringbuf.space : Nat) : Int) by omega),
      Int.toNat_natCast, same]
    cases rb.isFull <;> rfl

end

/-- What a call that ends has done. -/
structure Kept (b : HttpBodyFile) (buf : Bytes) (results : List WriteResult) (b' : HttpBodyFile)
    (rest : List WriteResult) : Prop where
  sane : Sane b'
  capacity : b'.ringbuf.capacity = b.ringbuf.capacity
  named : b'.file.named = b.file.named
  suffix : rest <:+ results
  stored : b.file.named = true → stored b' = stored b ++ buf

section
variable {b b' : HttpBodyFile} {results rest : List WriteResult} {buf : Bytes}

/-- The block is in the ring, which may have been flushed. -/
theorem Flushed.kept {rb : RingBuffer} (appended : Appended b.ringbuf rb buf)
    (flushed : Flushed { b with ringbuf := rb } results b' rest) : Kept b buf results b' rest := by
  refine ⟨flushed.sane, flushed.capacity.trans appended.capacity, flushed.named, flushed.suffix,
    fun named => ?_⟩
  rw [flushed.stored named, BodyAccumulation.stored, appended.content, ← List.append_assoc]
  rfl

theorem appended_sane (sane : Sane b) {rb : RingBuffer} (appended : Appended b.ringbuf rb buf) :
    Sane { b with ringbuf := rb } := by
  refine ⟨appended.valid, ?_⟩
  show rb.readptr < rb.capacity
  rw [appended.readptr, appended.capacity]
  exact sane.before

/-- A block that takes all of the free space: one fill, one flush. -/
theorem spill_once (sane : Sane b) (fits : buf.length = b.ringbuf.space)
    (clear : b.file.named = true → Clear b.ringbuf buf.length) (fuel : Nat)
    (results : List WriteResult) :
    (∀ ret b' rest, spill (fuel + 1) b buf buf.length results = some (ret, b', rest) →
      Kept b buf results b' rest) ∧
    (b.ringbuf.capacity ≤ results.length →
      (spill (fuel + 1) b buf buf.length results).isSome) := by
  have some_left : buf ≠ [] ∨ b.ringbuf.space = 0 := by
    by_cases empty : buf = []
    · rw [empty] at fits
      exact Or.inr fits.symm
    · exact Or.inl empty
  have space := space_eq sane.valid
  have less := contentLength_lt sane.valid
  obtain ⟨rb, appended, pass⟩ := spill_pass sane some_left fuel buf.length results
  rw [← fits, List.take_length] at appended
  rw [← fits, List.drop_length, List.length_nil] at pass
  have sane' := appended_sane sane appended
  have length := congrArg List.length appended.content
  rw [List.length_append] at length
  have full : rb.isFull = true := by
    rw [show rb = ({ b with ringbuf := rb } : HttpBodyFile).ringbuf from rfl, full_iff sane'.valid]
    simp only [appended.capacity]
    omega
  have flushable : Flushable { b with ringbuf := rb } := by
    intro named atEnd
    have start := appended.readptr
    have one : rb.readptr = 1 := by
      by_contra apart
      have write := full_writeptr sane' full apart
      have before := sane'.before
      simp only at atEnd write before
      split_ifs at write <;> omega
    refine clear named ⟨by omega, ?_⟩
    have whole : b.ringbuf.size + buf.length = b.ringbuf.capacity - 1 := by
      rw [size_eq sane.valid]
      omega
    have room := sane.valid.room
    simp only [ringbufferMinLength] at room
    rw [fills, whole, Nat.div_self (by omega)]
    omega
  rw [if_pos full] at pass
  constructor
  · intro ret b' rest result
    rw [pass] at result
    obtain ⟨⟨b₁, rest₁⟩, flushed, result⟩ := Option.bind_eq_some_iff.mp result
    cases result
    exact (flushFile_flushed sane' flushable flushed).kept appended
  · intro enough
    have fewer : rb.content.length < rb.capacity := contentLength_lt sane'.valid
    have capacity : rb.capacity = b.ringbuf.capacity := appended.capacity
    have each : rb.content.length ≤ results.length := by
      rw [capacity] at fewer
      exact Nat.le_of_lt (Nat.lt_of_lt_of_le fewer enough)
    obtain ⟨b₁, rest₁, flushed, _⟩ := flushFile_ends results sane' flushable each
    rw [pass, flushed]
    exact rfl

theorem Kept.trans {b₁ : HttpBodyFile} {rest₁ : List WriteResult} {more : Bytes}
    (first : Kept b buf results b₁ rest₁) (second : Kept b₁ more rest₁ b' rest) :
    Kept b (buf ++ more) results b' rest := by
  refine ⟨second.sane, second.capacity.trans first.capacity, second.named.trans first.named,
    second.suffix.trans first.suffix, fun named => ?_⟩
  rw [second.stored (first.named.trans named), first.stored named, List.append_assoc]

/-- A fill, and those that are still to come. -/
theorem fills_full (valid : b.ringbuf.Valid) {len : Nat} (many : b.ringbuf.space ≤ len) :
    fills b.ringbuf len = (len - b.ringbuf.space) / (b.ringbuf.capacity - 1) + 1 := by
  have space := space_eq valid
  have less := contentLength_lt valid
  have room := valid.room
  simp only [ringbufferMinLength] at room
  have total : b.ringbuf.size + len =
      (len - b.ringbuf.space) + (b.ringbuf.capacity - 1) := by
    rw [size_eq valid]
    omega
  rw [fills, total, Nat.add_div_right _ (by omega)]

theorem fills_short (valid : b.ringbuf.Valid) {len : Nat}
    (short : len < ringbufferDefaultLength) : fills b.ringbuf len ≤ 9 := by
  have less := contentLength_lt valid
  have room := valid.room
  simp only [ringbufferMinLength] at room
  simp only [ringbufferDefaultLength] at short
  rw [fills, size_eq valid]
  refine Nat.lt_succ_iff.mp ((Nat.div_lt_iff_lt_mul (by omega)).mpr ?_)
  omega

/-- The flushed ring starts where the full one ended, one fill closer to its start. -/
theorem clear_next {read write capacity count : Nat} (big : 1024 < capacity)
    (few : count + 1 ≤ 9) (clear : ¬ (1 ≤ read ∧ read ≤ count + 1))
    (at_end : write = if read = 0 then capacity - 1 else read - 1) :
    ¬ (1 ≤ write ∧ write ≤ count) := by
  split_ifs at at_end <;> omega

/-- What one fill and its flush leave of the loop. -/
structure Passed (b : HttpBodyFile) (left : Bytes) (results : List WriteResult)
    (b' : HttpBodyFile) (rest : List WriteResult) : Prop where
  kept : Kept b (left.take b.ringbuf.space) results b' rest
  empty : b'.ringbuf.content = []
  clear : Clear b'.ringbuf (left.drop b.ringbuf.space).length
  fills : fills b'.ringbuf (left.drop b.ringbuf.space).length + 1 = fills b.ringbuf left.length

/-- A full ring that the block leaves behind does not end on the end of the allocation. -/
theorem full_flushable (sane : Sane b) {rb : RingBuffer} {left : Bytes}
    (appended : Appended b.ringbuf rb (left.take b.ringbuf.space)) (full : rb.isFull = true)
    (many : b.ringbuf.space ≤ left.length) (clear : Clear b.ringbuf left.length) :
    rb.writeptr = (if b.ringbuf.readptr = 0 then b.ringbuf.capacity - 1
      else b.ringbuf.readptr - 1) ∧ rb.writeptr ≠ rb.capacity := by
  have sane' := appended_sane sane appended
  have count := fills_full sane.valid many
  have apart : rb.readptr ≠ 1 := by
    intro one
    rw [appended.readptr] at one
    refine clear ⟨Nat.le_of_eq one.symm, ?_⟩
    rw [one, count]
    exact Nat.le_add_left 1 _
  have write : rb.writeptr = if rb.readptr = 0 then rb.capacity - 1 else rb.readptr - 1 :=
    full_writeptr sane' full apart
  have before := sane.before
  rw [appended.readptr, appended.capacity] at write
  refine ⟨write, ?_⟩
  rw [appended.capacity]
  split_ifs at write <;> omega

/-- The flush of a full ring leaves the rest of the block and room for it. -/
theorem passed_of_flush (sane : Sane b) (named : b.file.named = true)
    (took : ∀ r ∈ results, r.IsTook) {rb : RingBuffer} {left : Bytes}
    (short : left.length < ringbufferDefaultLength)
    (appended : Appended b.ringbuf rb (left.take b.ringbuf.space)) (full : rb.isFull = true)
    (many : b.ringbuf.space ≤ left.length) (clear : Clear b.ringbuf left.length)
    (flushed : ({ b with ringbuf := rb } : HttpBodyFile).flushFile results = some (b', rest)) :
    Passed b left results b' rest := by
  obtain ⟨write, off⟩ := full_flushable sane appended full many clear
  have spec := flushFile_flushed (appended_sane sane appended) (fun _ => off) flushed
  obtain ⟨empty, read, _⟩ := spec.emptied named took
  have capacity : b'.ringbuf.capacity = b.ringbuf.capacity :=
    spec.capacity.trans appended.capacity
  have nothing : b'.ringbuf.size = 0 := by
    rw [size_eq spec.sane.valid, empty, List.length_nil]
  have count : fills b'.ringbuf (left.drop b.ringbuf.space).length + 1 =
      fills b.ringbuf left.length := by
    rw [fills_full sane.valid many, fills, nothing, List.length_drop, capacity, Nat.zero_add]
  refine ⟨spec.kept appended, empty, ?_, count⟩
  have few := fills_short sane.valid short
  have room := sane.valid.room
  rw [← count] at few
  rw [Clear, ← count] at clear
  exact clear_next room few clear (read.trans write)

/-- A block that leaves room in the ring is stored there. -/
theorem kept_of_room (sane : Sane b) {rb : RingBuffer} {left : Bytes}
    (appended : Appended b.ringbuf rb (left.take b.ringbuf.space)) (partly : ¬ rb.isFull = true)
    (results : List WriteResult) :
    left.length ≤ b.ringbuf.space ∧ Kept b left results { b with ringbuf := rb } results := by
  have sane' := appended_sane sane appended
  have length := congrArg List.length appended.content
  have space := space_eq sane.valid
  have less := contentLength_lt sane.valid
  rw [List.length_append, List.length_take] at length
  have fewer : rb.content.length ≠ rb.capacity - 1 := mt (full_iff sane'.valid).mpr partly
  rw [appended.capacity] at fewer
  have fits : left.length ≤ b.ringbuf.space := by omega
  rw [List.take_of_length_le fits] at appended
  refine ⟨fits, sane', appended.capacity, rfl, List.suffix_rfl, fun _ => ?_⟩
  rw [BodyAccumulation.stored, appended.content, ← List.append_assoc]
  rfl

theorem many_of_full (sane : Sane b) {rb : RingBuffer} {left : Bytes}
    (appended : Appended b.ringbuf rb (left.take b.ringbuf.space)) (full : rb.isFull = true) :
    b.ringbuf.space ≤ left.length := by
  have sane' := appended_sane sane appended
  have length := congrArg List.length appended.content
  have space := space_eq sane.valid
  have less := contentLength_lt sane.valid
  have whole : rb.content.length = rb.capacity - 1 := (full_iff sane'.valid).mp full
  rw [List.length_append, List.length_take, whole, appended.capacity] at length
  omega

/-- Any block shorter than 8192 bytes, when no write fails. -/
theorem spill_took_keeps (len fuel : Nat) {left : Bytes} (sane : Sane b)
    (named : b.file.named = true) (took : ∀ r ∈ results, r.IsTook)
    (some_left : left ≠ [] ∨ b.ringbuf.space = 0)
    (short : left.length < ringbufferDefaultLength) (clear : Clear b.ringbuf left.length)
    {ret : Int} (result : spill fuel b left len results = some (ret, b', rest)) :
    Kept b left results b' rest := by
  induction fuel generalizing b left results with
  | zero =>
    rw [spill] at result
    exact nomatch result
  | succ fuel ih =>
    obtain ⟨rb, appended, pass⟩ := spill_pass sane some_left fuel len results
    rw [pass] at result
    by_cases full : rb.isFull = true
    · rw [if_pos full] at result
      obtain ⟨⟨b₁, rest₁⟩, flushed, result⟩ := Option.bind_eq_some_iff.mp result
      have passed := passed_of_flush sane named took short appended full
        (many_of_full sane appended full) clear flushed
      have whole := List.take_append_drop b.ringbuf.space left
      by_cases done : (left.drop b.ringbuf.space).length = 0
      · rw [if_pos done] at result
        cases result
        rw [List.length_eq_zero_iff.mp done, List.append_nil] at whole
        exact whole ▸ passed.kept
      · rw [if_neg done] at result
        have later := ih passed.kept.sane (passed.kept.named.trans named)
          (fun r hr => took r (passed.kept.suffix.subset hr))
          (Or.inl (mt List.length_eq_zero_iff.mpr done))
          (by rw [List.length_drop]; omega) passed.clear result
        exact whole ▸ passed.kept.trans later
    · obtain ⟨fits, kept⟩ := kept_of_room sane appended full results
      rw [if_neg full, List.drop_of_length_le fits, Option.bind_some, List.length_nil,
        if_pos rfl] at result
      cases result
      exact kept

/-- With a file that takes every write the spill loop ends: each pass but the last fills the ring.
-/
theorem spill_took_ends (len fuel : Nat) {left : Bytes} (sane : Sane b)
    (named : b.file.named = true) (took : ∀ r ∈ results, r.IsTook)
    (some_left : left ≠ [] ∨ b.ringbuf.space = 0)
    (short : left.length < ringbufferDefaultLength) (clear : Clear b.ringbuf left.length)
    (enough : b.ringbuf.size + left.length ≤ results.length)
    (fuelled : fills b.ringbuf left.length < fuel) :
    (spill fuel b left len results).isSome = true := by
  induction fuel generalizing b left results with
  | zero => exact absurd fuelled (Nat.not_lt_zero _)
  | succ fuel ih =>
    obtain ⟨rb, appended, pass⟩ := spill_pass sane some_left fuel len results
    rw [pass]
    by_cases full : rb.isFull = true
    · have many := many_of_full sane appended full
      have length := congrArg List.length appended.content
      rw [List.length_append, List.length_take, ← size_eq sane.valid] at length
      obtain ⟨b₁, rest₁, flushed, used⟩ := flushFile_ends results
        (appended_sane sane appended)
        (fun _ => (full_flushable sane appended full many clear).2)
        (show rb.content.length ≤ results.length by omega)
      have passed := passed_of_flush sane named took short appended full many clear flushed
      rw [if_pos full, flushed, Option.bind_some]
      by_cases done : (left.drop b.ringbuf.space).length = 0
      · rw [if_pos done]
        exact rfl
      · rw [if_neg done]
        have unused : results.length ≤ rest₁.length + rb.content.length := used
        have count := passed.fills
        show (spill fuel b₁ (left.drop b.ringbuf.space) len rest₁).isSome = true
        refine ih passed.kept.sane (passed.kept.named.trans named)
          (fun r hr => took r (passed.kept.suffix.subset hr))
          (Or.inl (mt List.length_eq_zero_iff.mpr done))
          (by rw [List.length_drop]; omega) passed.clear ?_ (by omega)
        rw [size_eq passed.kept.sane.valid, passed.empty, List.length_nil, List.length_drop]
        omega
    · obtain ⟨fits, _⟩ := kept_of_room sane appended full results
      rw [if_neg full, List.drop_of_length_le fits, Option.bind_some, List.length_nil, if_pos rfl]
      exact rfl

/-- A block that waits for a flush that no file takes. -/
theorem spill_unnamed (sane : Sane b) (unnamed : b.file.named = false)
    (full : b.ringbuf.isFull = true) {left : Bytes} (waits : left ≠ []) (len fuel : Nat)
    (results : List WriteResult) : spill fuel b left len results = none := by
  have full_space : b.ringbuf.space = 0 := isFull_iff.mp full
  have occupied : b.ringbuf.content ≠ [] := by
    intro empty
    have whole := (full_iff sane.valid).mp full
    have room := sane.valid.room
    simp only [ringbufferMinLength] at room
    rw [empty, List.length_nil] at whole
    omega
  induction fuel generalizing results with
  | zero => rfl
  | succ fuel ih =>
    rw [spill, writeIn_full full_space]
    simp only [Option.bind_eq_bind, Option.bind_some, ringbufferNoData, lt_irrefl, if_false]
    rw [if_neg (by decide), if_pos full]
    cases results with
    | nil =>
      have pending : ¬ b.ringbuf.size = 0 := mt (size_zero sane).mp occupied
      rw [flushFile, if_neg pending, RingBuffer.readOut2File, if_neg (isEmpty_false occupied),
        drainLoop, if_neg pending]
      exact rfl
    | cons r results =>
      have here : ({ b with ringbuf := b.ringbuf } : HttpBodyFile) = b := rfl
      rw [here, flushFile_unnamed sane unnamed occupied, Option.bind_some,
        if_neg (mt List.length_eq_zero_iff.mp waits)]
      exact ih results

end

/-- The block goes straight to the file, behind a flush. -/
def Direct (b : HttpBodyFile) (buf : Bytes) : Prop :=
  b.ringbuf.space ≤ buf.length ∧ ringbufferDefaultLength ≤ buf.length

/-- The block goes through the spill loop. -/
def Spills (b : HttpBodyFile) (buf : Bytes) : Prop :=
  b.ringbuf.space ≤ buf.length ∧ buf.length < ringbufferDefaultLength

/-- The call comes back: the flush before a direct write ends; a block that spills fits,
or a file takes every write; and no full ring ends on the end of the allocation. -/
structure Settles (b : HttpBodyFile) (buf : Bytes) (results : List WriteResult) : Prop where
  flushable : Direct b buf → Flushable b
  taken : Spills b buf → b.ringbuf.space < buf.length →
    b.file.named = true ∧ ∀ r ∈ results, r.IsTook
  clear : Spills b buf → b.file.named = true → Clear b.ringbuf buf.length

/-- The write of a block that goes straight to the file takes the whole block. -/
def Whole (b : HttpBodyFile) (buf : Bytes) (results : List WriteResult) : Prop :=
  Direct b buf → ∀ r, results.getLast? = some r → ∃ n, r = .took n ∧ buf.length ≤ n + 1

section
variable {b b' : HttpBodyFile} {results rest : List WriteResult} {buf : Bytes}

theorem regimes (b : HttpBodyFile) (buf : Bytes) :
    buf.length < b.ringbuf.space ∨ Direct b buf ∨ Spills b buf := by
  rcases Nat.lt_or_ge buf.length b.ringbuf.space with fits | full
  · exact Or.inl fits
  · rcases Nat.lt_or_ge buf.length ringbufferDefaultLength with short | long
    · exact Or.inr (Or.inr ⟨full, short⟩)
    · exact Or.inr (Or.inl ⟨full, long⟩)

theorem writeIn_direct (direct : Direct b buf) :
    b.writeIn buf results = (b.flushFile results).bind fun p =>
      match p.2 with
      | [] => none
      | r :: rest => some ((p.1.file.appendWriteIn buf r).1,
          { p.1 with file := (p.1.file.appendWriteIn buf r).2 }, rest) := by
  rw [HttpBodyFile.writeIn, if_neg (Nat.not_lt.mpr direct.1), if_pos direct.2]
  rfl

theorem writeIn_spills (spills : Spills b buf) :
    b.writeIn buf results = spill (results.length + 2) b buf buf.length results := by
  rw [HttpBodyFile.writeIn, if_neg (Nat.not_lt.mpr spills.1), if_neg (Nat.not_le.mpr spills.2)]

/-- A block shorter than the free space. -/
theorem writeIn_fits (results : List WriteResult) (sane : Sane b)
    (fits : buf.length < b.ringbuf.space) :
    ∃ ret rb, b.writeIn buf results = some (ret, { b with ringbuf := rb }, results) ∧
      Kept b buf results { b with ringbuf := rb } results := by
  have free : b.ringbuf.space ≠ 0 := by omega
  rw [HttpBodyFile.writeIn, if_pos fits]
  by_cases data : buf = []
  · subst data
    rw [writeIn_noData free]
    exact ⟨_, _, rfl, sane, rfl, rfl, List.suffix_rfl, fun _ => (List.append_nil _).symm⟩
  · obtain ⟨rb, wrote, appended, _⟩ := writeIn_spec sane.valid free data
    rw [wrote]
    rw [List.take_of_length_le (Nat.le_of_lt fits)] at appended
    refine ⟨_, rb, rfl, appended_sane sane appended, appended.capacity, rfl, List.suffix_rfl,
      fun _ => ?_⟩
    rw [BodyAccumulation.stored, appended.content, ← List.append_assoc]
    rfl

theorem writeIn_spills_cases (settles : Settles b buf results)
    (spills : Spills b buf) :
    buf.length = b.ringbuf.space ∨
      b.file.named = true ∧ (∀ r ∈ results, r.IsTook) ∧ buf ≠ [] ∧
        Clear b.ringbuf buf.length := by
  rcases Nat.eq_or_lt_of_le spills.1 with fits | longer
  · exact Or.inl fits.symm
  · obtain ⟨named, took⟩ := settles.taken spills longer
    exact Or.inr ⟨named, took, List.length_pos_iff.mp (by omega), settles.clear spills named⟩

/-- All that a call can do: keep the block, or flush and write it straight. -/
theorem writeIn_cases (sane : Sane b) (settles : Settles b buf results) {ret : Int}
    (result : b.writeIn buf results = some (ret, b', rest)) :
    Kept b buf results b' rest ∨
      (Direct b buf ∧ ∃ b₁ r, Flushed b results b₁ (r :: rest) ∧
        b' = { b₁ with file := (b₁.file.appendWriteIn buf r).2 }) := by
  rcases regimes b buf with fits | direct | spills
  · obtain ⟨_, rb, wrote, kept⟩ := writeIn_fits results sane fits
    rw [wrote] at result
    cases result
    exact Or.inl kept
  · rw [writeIn_direct direct] at result
    obtain ⟨⟨b₁, more⟩, flushed, result⟩ := Option.bind_eq_some_iff.mp result
    cases more with
    | nil => exact nomatch result
    | cons r more =>
      cases result
      exact Or.inr ⟨direct, b₁, r,
        flushFile_flushed sane (settles.flushable direct) flushed, rfl⟩
  · rw [writeIn_spills spills] at result
    rcases writeIn_spills_cases settles spills with fits | ⟨named, took, data, clear⟩
    · exact Or.inl ((spill_once sane fits (settles.clear spills) _ results).1 ret b' rest result)
    · exact Or.inl (spill_took_keeps _ _ sane named took (Or.inl data) spills.2 clear result)

theorem appendWriteIn_named (file : File) (buf : Bytes) (r : WriteResult) :
    (file.appendWriteIn buf r).2.named = file.named := by
  cases r with
  | took n =>
    rw [File.appendWriteIn]
    split_ifs <;> rfl
  | wouldBlock =>
    simp only [File.appendWriteIn]
    split_ifs <;> rfl
  | failed =>
    simp only [File.appendWriteIn]
    split_ifs <;> rfl

theorem appendWriteIn_took {file : File} (named : file.named = true) (data : buf ≠ []) (n : Nat) :
    (file.appendWriteIn buf (.took n)).2.contents =
      file.contents ++ buf.take (accepted n buf.length) := by
  have size : ¬ (decide (buf.length = 0) || !file.named) = true := by
    simp [named, data]
  rw [File.appendWriteIn, if_neg size]
  simp [File.contents, named]

theorem appendWriteIn_whole {file : File} (named : file.named = true) {n : Nat}
    (data : buf ≠ []) (all : buf.length ≤ n + 1) :
    (file.appendWriteIn buf (.took n)).2.contents = file.contents ++ buf := by
  have taken : accepted n buf.length = buf.length := Nat.min_eq_right all
  rw [appendWriteIn_took named data, taken, List.take_length]

/-- The ring is as `writeIn` needs it, and the file keeps its name. -/
structure Held (b b' : HttpBodyFile) : Prop where
  sane : Sane b'
  capacity : b'.ringbuf.capacity = b.ringbuf.capacity
  named : b'.file.named = b.file.named

theorem writeIn_held (sane : Sane b) (settles : Settles b buf results) {ret : Int}
    (result : b.writeIn buf results = some (ret, b', rest)) : Held b b' := by
  rcases writeIn_cases sane settles result with kept | ⟨_, b₁, r, flushed, rfl⟩
  · exact ⟨kept.sane, kept.capacity, kept.named⟩
  · exact ⟨⟨flushed.sane.valid, flushed.sane.before⟩, flushed.capacity,
      (appendWriteIn_named _ _ _).trans flushed.named⟩

/-- A call that has used these results has stored its block behind the others. -/
theorem writeIn_stored (sane : Sane b) (settles : Settles b buf results)
    (named : b.file.named = true) (took : ∀ r ∈ results, r.IsTook)
    (whole : Whole b buf results) {ret : Int}
    (result : b.writeIn buf results = some (ret, b', [])) : stored b' = stored b ++ buf := by
  rcases writeIn_cases sane settles result with kept | ⟨direct, b₁, r, flushed, rfl⟩
  · exact kept.stored named
  · obtain ⟨used, rfl⟩ := flushed.suffix
    obtain ⟨n, rfl, all⟩ := whole direct r (by rw [List.getLast?_append]; rfl)
    have data : buf ≠ [] := List.length_pos_iff.mp (Nat.lt_of_lt_of_le (by decide) direct.2)
    have emptied := (flushed.emptied named took).1
    have before := flushed.stored named
    rw [stored, emptied, List.append_nil] at before
    show (b₁.file.appendWriteIn buf (.took n)).2.contents ++ b₁.ringbuf.content = _
    rw [emptied, List.append_nil, appendWriteIn_whole (flushed.named.trans named) data all, before]

/-- With enough results a call that settles comes back. -/
theorem writeIn_ends (sane : Sane b) (settles : Settles b buf results)
    (enough : b.ringbuf.capacity + buf.length < results.length) :
    (b.writeIn buf results).isSome = true := by
  have less := contentLength_lt sane.valid
  rcases regimes b buf with fits | direct | spills
  · obtain ⟨_, rb, wrote, _⟩ := writeIn_fits results sane fits
    rw [wrote]
    rfl
  · obtain ⟨b₁, more, flushed, used⟩ := flushFile_ends results sane
      (settles.flushable direct) (by omega)
    rw [writeIn_direct direct, flushed, Option.bind_some]
    cases more with
    | nil =>
      rw [List.length_nil] at used
      omega
    | cons r more => rfl
  · rw [writeIn_spills spills]
    rcases writeIn_spills_cases settles spills with fits | ⟨named, took, data, clear⟩
    · exact (spill_once sane fits (settles.clear spills) _ results).2 (by omega)
    · have short := fills_short sane.valid spills.2
      have room := sane.valid.room
      simp only [ringbufferMinLength] at room
      have size := size_eq sane.valid
      exact spill_took_ends _ _ sane named took (Or.inl data) spills.2 clear (by omega) (by omega)

/-- Without a file a block that neither fits nor goes straight never comes back. -/
theorem writeIn_unnamed (sane : Sane b) (unnamed : b.file.named = false) (spills : Spills b buf)
    (longer : b.ringbuf.space < buf.length) (results : List WriteResult) :
    b.writeIn buf results = none := by
  have data : buf ≠ [] := List.length_pos_iff.mp (Nat.zero_lt_of_lt longer)
  obtain ⟨rb, appended, pass⟩ :=
    spill_pass sane (Or.inl data) (results.length + 1) buf.length results
  have sane' := appended_sane sane appended
  have full : rb.isFull = true := by
    by_contra partly
    exact Nat.not_le.mpr longer (kept_of_room sane appended partly results).1
  have waits : buf.drop b.ringbuf.space ≠ [] := by
    rw [← List.length_pos_iff, List.length_drop]
    omega
  have stuck := spill_unnamed sane' unnamed full waits buf.length (results.length + 1)
  rw [writeIn_spills spills, pass, if_pos full]
  by_cases empty : rb.content = []
  · rw [flushFile_empty sane' empty, Option.bind_some, if_neg (mt List.length_eq_zero_iff.mp waits)]
    exact stuck results
  · cases results with
    | nil =>
      have flush : ({ b with ringbuf := rb } : HttpBodyFile).flushFile [] = none := by
        have pending : ¬ rb.size = 0 := mt (size_zero sane').mp empty
        rw [flushFile, if_neg pending, RingBuffer.readOut2File, if_neg (isEmpty_false empty),
          drainLoop, if_neg pending]
        exact rfl
      rw [flush, Option.bind_none]
    | cons r results =>
      rw [flushFile_unnamed sane' unnamed empty, Option.bind_some,
        if_neg (mt List.length_eq_zero_iff.mp waits)]
      exact stuck results

theorem closeFile_ends (sane : Sane b) (flushable : Flushable b)
    (enough : b.ringbuf.capacity ≤ results.length) : (b.closeFile results).isSome = true := by
  have less := contentLength_lt sane.valid
  obtain ⟨b₁, more, flushed, _⟩ := flushFile_ends results sane flushable (by omega)
  rw [closeFile, flushed]
  rfl

theorem closeFile_contents (sane : Sane b) (flushable : Flushable b)
    (named : b.file.named = true) (took : ∀ r ∈ results, r.IsTook)
    (result : b.closeFile results = some b') : b'.file.contents = stored b := by
  rw [closeFile] at result
  obtain ⟨⟨b₁, more⟩, flushed, result⟩ := Option.bind_eq_some_iff.mp result
  cases result
  have spec := flushFile_flushed sane flushable flushed
  have before := spec.stored named
  rw [stored, (spec.emptied named took).1, List.append_nil] at before
  exact before

end

/-- One `writeIn` with the results of the writes that it makes. -/
structure Call where
  buf : Bytes
  results : List WriteResult

/-- Calls that came back one after another, each begun in a state that meets `ok`. -/
inductive Run (ok : HttpBodyFile → Call → Prop) : HttpBodyFile → List Call → HttpBodyFile → Prop
  | nil (b : HttpBodyFile) : Run ok b [] b
  | cons {b b₁ b₂ : HttpBodyFile} {c : Call} {calls : List Call} {ret : Int} (met : ok b c)
      (call : b.writeIn c.buf c.results = some (ret, b₁, [])) (later : Run ok b₁ calls b₂) :
      Run ok b (c :: calls) b₂

/-- The call comes back. -/
def Call.Settled (b : HttpBodyFile) (c : Call) : Prop := Settles b c.buf c.results

/-- The call comes back, all its writes succeed, and none cuts a direct block. -/
def Call.Succeeds (b : HttpBodyFile) (c : Call) : Prop :=
  Settles b c.buf c.results ∧ (∀ r ∈ c.results, r.IsTook) ∧ Whole b c.buf c.results

/-- A reset body whose file is `file`: the one without a name, or one from `setFile`. -/
def resetBody (b : HttpBodyFile) (file : File) : HttpBodyFile := { b.reset with file := file }

section
variable {b b' : HttpBodyFile} {calls : List Call}

theorem Run.held {ok : HttpBodyFile → Call → Prop} (settled : ∀ b c, ok b c → c.Settled b)
    (sane : Sane b) (run : Run ok b calls b') : Held b b' := by
  induction run with
  | nil b => exact ⟨sane, rfl, rfl⟩
  | cons met call _ ih =>
    have first := writeIn_held sane (settled _ _ met) call
    have later := ih first.sane
    exact ⟨later.sane, later.capacity.trans first.capacity, later.named.trans first.named⟩

theorem Run.stored (sane : Sane b) (named : b.file.named = true)
    (run : Run (fun b c => c.Succeeds b) b calls b') :
    stored b' = stored b ++ (calls.map Call.buf).flatten := by
  induction run with
  | nil b => exact (List.append_nil _).symm
  | cons met call _ ih =>
    obtain ⟨settles, took, whole⟩ := met
    have held := writeIn_held sane settles call
    rw [ih held.sane (held.named.trans named), writeIn_stored sane settles named took whole call,
      List.map_cons, List.flatten_cons, List.append_assoc]

theorem reset_sane (ring : b.ringbuf.Valid) (file : File) :
    Sane (resetBody b file) := by
  have room := ring.room
  exact ⟨clear_valid ring, Nat.lt_of_le_of_lt (Nat.zero_le _) room⟩

/-- From a reset body, with any file: as long as every call meets its condition each
further one comes back, and so does closing; and when the writes succeed the file ends
up with the blocks in order. -/
theorem accumulates (ring : b.ringbuf.Valid) (file : File) :
    (∀ calls b', Run (fun b c => c.Settled b) (resetBody b file) calls b' →
      (∀ buf results, Settles b' buf results →
        b'.ringbuf.capacity + buf.length < results.length →
          (b'.writeIn buf results).isSome = true) ∧
      (∀ results, Flushable b' → b'.ringbuf.capacity ≤ results.length →
        (b'.closeFile results).isSome = true)) ∧
    (file.named = true → ∀ calls b' results c,
      Run (fun b c => c.Succeeds b) (resetBody b file) calls b' → Flushable b' →
      (∀ r ∈ results, r.IsTook) → b'.closeFile results = some c →
        c.file.contents = file.contents ++ (calls.map Call.buf).flatten) := by
  have sane := reset_sane ring file
  constructor
  · intro calls b' run
    have held := run.held (fun _ _ settled => settled) sane
    exact ⟨fun _ _ settles => writeIn_ends held.sane settles,
      fun _ flushable => closeFile_ends held.sane flushable⟩
  · intro named calls b' results c run flushable took result
    have held := run.held (fun _ _ met => met.1) sane
    rw [closeFile_contents held.sane flushable (held.named.trans named) took result,
      run.stored sane named, BodyAccumulation.stored,
      show (resetBody b file).ringbuf.content = [] from (clear_cleared ring).content,
      List.append_nil]
    rfl

end

def ringOf8192 : HttpBodyFile := HttpBodyFile.construct 8192 fun _ => 0

def newFile : File := File.fresh.setFilename none true

theorem ringOf8192_valid : ringOf8192.ringbuf.Valid := construct_valid 8192 fun _ => 0

theorem ringOf8192_space (file : File) : (resetBody ringOf8192 file).ringbuf.space = 8192 :=
  show ringOf8192.ringbuf.space = 8192 by decide

/-- A block of less than 8192 bytes goes to the reset ring. -/
theorem first_fits (file : File) {buf : Bytes} (data : buf ≠ []) (short : buf.length < 8192) :
    ∃ ret b', (resetBody ringOf8192 file).writeIn buf [] = some (ret, b', []) ∧
      Call.Succeeds (resetBody ringOf8192 file) ⟨buf, []⟩ ∧
      Sane b' ∧ b'.file = file ∧ b'.ringbuf.content.length = buf.length ∧
      b'.ringbuf.capacity = 8193 ∧ Flushable b' := by
  have space := ringOf8192_space file
  have fits : buf.length < (resetBody ringOf8192 file).ringbuf.space := space.symm ▸ short
  have sane := reset_sane ringOf8192_valid file
  have empty : (resetBody ringOf8192 file).ringbuf.content = [] :=
    (clear_cleared ringOf8192_valid).content
  obtain ⟨rb, stores, appended, _⟩ := writeIn_spec sane.valid (by omega) data
  rw [List.take_of_length_le (Nat.le_of_lt fits)] at appended
  have wrote : (resetBody ringOf8192 file).writeIn buf [] =
      some (((min buf.length (resetBody ringOf8192 file).ringbuf.space : Nat) : Int),
        { resetBody ringOf8192 file with ringbuf := rb }, []) := by
    rw [HttpBodyFile.writeIn, if_pos fits, stores]
    rfl
  have content : rb.content = buf := by rw [appended.content, empty, List.nil_append]
  have start : rb.readptr = 0 := appended.readptr
  have capacity : rb.capacity = 8193 := appended.capacity
  have refused : ¬ (resetBody ringOf8192 file).ringbuf.space ≤ buf.length := Nat.not_le.mpr fits
  refine ⟨_, _, wrote, ⟨⟨fun direct => absurd direct.1 refused,
      fun spills => absurd spills.1 refused, fun spills => absurd spills.1 refused⟩,
      nofun, fun direct => absurd direct.1 refused⟩,
    appended_sane sane appended, rfl, congrArg List.length content, capacity, fun _ atEnd => ?_⟩
  have behind : rb.writeptr = rb.capacity := atEnd
  have length := content_length rb
  rw [content, if_pos (by omega)] at length
  omega

/-- What a call leaves that has used its results. -/
def Call.after (b : HttpBodyFile) (c : Call) : Option HttpBodyFile :=
  (b.writeIn c.buf c.results).bind fun (_, b', rest) => if rest = [] then some b' else none

/-- The file takes whatever it is given, and no write pointer comes to rest on the end. -/
def Call.Taken (b : HttpBodyFile) (c : Call) : Prop :=
  b.file.named = true ∧ b.ringbuf.writeptr ≠ b.ringbuf.capacity ∧ Clear b.ringbuf c.buf.length ∧
    (∀ r ∈ c.results, r.IsTook) ∧ ∀ r ∈ c.results.getLast?, r = .took c.buf.length

instance (b : HttpBodyFile) (c : Call) : Decidable (c.Taken b) := by
  unfold Call.Taken Clear
  infer_instance

theorem Call.Taken.succeeds {b : HttpBodyFile} {c : Call} (taken : c.Taken b) : c.Succeeds b := by
  obtain ⟨named, off, clear, took, last⟩ := taken
  exact ⟨⟨fun _ _ => off, fun _ _ => ⟨named, took⟩, fun _ _ => clear⟩, took,
    fun _ r found => ⟨_, last r found, Nat.le_succ _⟩⟩

theorem run_of_follow {calls : List Call} {b b' : HttpBodyFile}
    (followed : follow Call.after (fun b c => c.Taken b) b calls = some b') :
    Run (fun b c => c.Succeeds b) b calls b' := by
  induction calls generalizing b with
  | nil =>
    obtain rfl := Option.some.inj followed
    exact .nil b
  | cons c calls ih =>
    rw [follow] at followed
    split_ifs at followed with taken
    obtain ⟨next, steps, followed⟩ := Option.bind_eq_some_iff.mp followed
    obtain ⟨⟨ret, b₁, rest⟩, wrote, used⟩ := Option.bind_eq_some_iff.mp steps
    dsimp only at used
    split_ifs at used with all
    cases used
    obtain rfl := all
    exact .cons taken.succeeds wrote (ih followed)

def threeWays : List Call :=
  [⟨List.replicate 1000 1, []⟩, ⟨List.replicate 1000 2, [.took 899, .took 1000]⟩,
    ⟨List.replicate 8192 3, [.took 0, .took 1000, .took 8192]⟩, ⟨[4], []⟩]

/-- One block stays in the ring, one spills over it, one goes straight to the file. -/
theorem accumulates_three_ways : ∃ b c,
    Run (fun b c => c.Succeeds b) (resetBody (HttpBodyFile.construct 1024 fun _ => 0) newFile)
      threeWays b ∧
      b.closeFile [.took 0] = some c ∧ c.file.contents = (threeWays.map Call.buf).flatten := by
  obtain ⟨c, ended⟩ := Option.isSome_iff_exists.mp (by decide +kernel :
    ((follow Call.after (fun b c => c.Taken b)
      (resetBody (HttpBodyFile.construct 1024 fun _ => 0) newFile) threeWays).bind fun b =>
        if b.ringbuf.writeptr ≠ b.ringbuf.capacity then b.closeFile [.took 0] else none).isSome =
          true)
  obtain ⟨b, followed, ended⟩ := Option.bind_eq_some_iff.mp ended
  split_ifs at ended with off
  have run := run_of_follow followed
  exact ⟨b, c, run, ended, (accumulates (construct_valid 1024 fun _ => 0) newFile).2 rfl _ b _ c run
    (fun _ => off) (by decide) ended⟩

/-- Without a file 5000 bytes and another 5000 never come back. A direct write that takes
one byte drops the others. -/
theorem second_block_never_returns :
    (∃ b, (∃ ret, (resetBody ringOf8192 .fresh).writeIn (List.replicate 5000 1) [] =
        some (ret, b, [])) ∧
      ∀ results, b.writeIn (List.replicate 5000 2) results = none) ∧
    (∃ b c, (∃ ret, (resetBody ringOf8192 newFile).writeIn (List.replicate 8192 1) [.took 0] =
        some (ret, b, [])) ∧
      b.closeFile [] = some c ∧ c.file.contents ≠ List.replicate 8192 1) := by
  constructor
  · obtain ⟨ret, b, wrote, _, sane, same, length, capacity, _⟩ :=
      first_fits .fresh (show List.replicate 5000 (1 : Byte) ≠ [] from List.cons_ne_nil _ _)
        (by rw [List.length_replicate]; decide)
    have space := space_eq sane.valid
    rw [length, capacity, List.length_replicate] at space
    have unnamed : b.file.named = false := by rw [same]; rfl
    refine ⟨b, ⟨ret, wrote⟩, writeIn_unnamed sane unnamed ⟨?_, ?_⟩ ?_⟩
    · rw [space, List.length_replicate]
      decide
    · rw [List.length_replicate]
      decide
    · rw [space, List.length_replicate]
      decide
  · obtain ⟨block, same, length⟩ : ∃ block, block = List.replicate 8192 (1 : Byte) ∧
        block.length = 8192 := ⟨_, rfl, List.length_replicate⟩
    rw [← same]
    have space := ringOf8192_space newFile
    have sane := reset_sane ringOf8192_valid newFile
    have empty : (resetBody ringOf8192 newFile).ringbuf.content = [] :=
      (clear_cleared ringOf8192_valid).content
    have data : block ≠ [] := List.length_pos_iff.mp (length ▸ by decide)
    have direct : Direct (resetBody ringOf8192 newFile) block := by
      rw [Direct, space, length]
      decide
    have closed (file : File) : ({ resetBody ringOf8192 newFile with file := file }
        : HttpBodyFile).closeFile [] =
          some { resetBody ringOf8192 newFile with file := file.close } := by
      have sane' : Sane { resetBody ringOf8192 newFile with file := file } :=
        ⟨sane.valid, sane.before⟩
      rw [closeFile, flushFile_empty sane' empty]
      rfl
    refine ⟨_, _, ⟨(newFile.appendWriteIn block (.took 0)).1, ?_⟩,
      closed (newFile.appendWriteIn block (.took 0)).2, ?_⟩
    · rw [writeIn_direct direct, flushFile_empty sane empty]
      rfl
    · intro whole
      have taken : (newFile.appendWriteIn block (.took 0)).2.close.contents =
          newFile.contents ++ block.take (accepted 0 block.length) :=
        appendWriteIn_took rfl data 0
      have short := congrArg List.length (taken.symm.trans whole)
      rw [List.length_append, List.length_take, length] at short
      exact absurd short (by decide)

end BodyAccumulation
