import Tigerso.RingBuffer

/-!
# Filling the ring from a file

`writeInFromFile` asks for the free space in two blocks. A right block of no bytes, when the
write pointer rests on the end of the allocation, is an error of `continuousReadOut`.
-/

open SystemCalls DiskFile RingBuffer

namespace RingFill

inductive Reached : RingBuffer → Prop
  | construct (len : Nat) (garbage : Nat → Byte) : Reached (.construct len garbage)
  | writeIn {rb rb' : RingBuffer} {buf : Bytes} {ret : Int} (before : Reached rb)
      (result : rb.writeIn buf = some (ret, rb')) : Reached rb'
  | writeInFromFile {rb rb' : RingBuffer} {file file' : File} {rd₁ rd₂ : ReadResult} {ret : Int}
      (before : Reached rb) (result : rb.writeInFromFile file rd₁ rd₂ = some (ret, rb', file')) :
      Reached rb'
  | readOut {rb rb' : RingBuffer} {len : Nat} {bytes : Bytes} {ret : Int} (before : Reached rb)
      (result : rb.readOut len = some (ret, bytes, rb')) : Reached rb'

/-- The file is there, may be read, and is not read through a descriptor that was closed. -/
structure Readable (file : File) : Prop where
  there : file.testExist = true
  allowed : file.testRead = true
  usable : file.fd ≠ .dangling

def remaining (file : File) : Bytes :=
  match file.fd with
  | .opened pos => file.contents.drop pos
  | _ => file.contents

/-- The ring takes from the file what `writeIn` takes of the same bytes, and says how much. -/
def Fills (rb : RingBuffer) (file : File) : Prop :=
  ∃ ret rb' file' ret' rb'',
    rb.writeInFromFile file .full .full = some (ret, rb', file') ∧
      ret = (min rb.space (remaining file).length : Nat) ∧
      rb.writeIn ((remaining file).take rb.space) = some (ret', rb'') ∧
      rb'.content = rb''.content

section
variable {rb : RingBuffer} {file : File}

theorem Reached.valid (reached : Reached rb) : rb.Valid := by
  induction reached with
  | construct len garbage => exact construct_valid len garbage
  | writeIn _ result valid => exact writeIn_valid valid result
  | writeInFromFile _ result valid =>
    obtain ⟨_, _, _, _, result', appended, _⟩ := writeInFromFile_spec valid _ _ _
    rw [result'] at result
    cases result
    exact appended.valid
  | readOut _ result valid => exact readOut_valid valid result

theorem readFd_full {pos : Nat} (opened : file.fd = .opened pos) (len : Nat) :
    ∃ file', file.readFd len .full = ((((file.contents.drop pos).take len).length : Int),
        (file.contents.drop pos).take len, file') ∧
      (len ≤ (file.contents.drop pos).length →
        file' = { file with fd := .opened (pos + len) }) := by
  rw [File.readFd, opened]
  dsimp only [File.readAt]
  split_ifs with short
  · refine ⟨_, rfl, fun enough => ?_⟩
    rw [List.length_take, Nat.min_eq_left enough] at short
    exact absurd short (Nat.lt_irrefl len)
  · refine ⟨_, rfl, fun enough => ?_⟩
    rw [List.length_take, Nat.min_eq_left enough]

/-- A read delivers what is asked for as far as the file goes, and the next one goes on there. -/
theorem continuousReadOut_full (readable : Readable file) {len : Nat} (asked : len ≠ 0) :
    ∃ file', file.continuousReadOut len .full =
        ((((remaining file).take len).length : Int), (remaining file).take len, file') ∧
      (len ≤ (remaining file).length →
        Readable file' ∧ remaining file' = (remaining file).drop len) := by
  have onward {f : File} {pos : Nat} (there : f.testExist = true) (allowed : f.testRead = true)
      (opened : f.fd = .opened pos) : ∃ file', f.readFd len .full =
        ((((f.contents.drop pos).take len).length : Int), (f.contents.drop pos).take len, file') ∧
      (len ≤ (f.contents.drop pos).length →
        Readable file' ∧ remaining file' = (f.contents.drop pos).drop len) := by
    obtain ⟨file', read, onward⟩ := readFd_full opened len
    refine ⟨file', read, fun enough => ?_⟩
    obtain rfl := onward enough
    exact ⟨⟨there, allowed, nofun⟩, (List.drop_drop ..).symm⟩
  rw [File.continuousReadOut, if_neg asked, readable.there, readable.allowed, if_neg (by decide)]
  cases fd : file.fd with
  | closed =>
    have invalid : file.validFd = false := by rw [File.validFd, fd]
    have all : remaining file = file.contents := by rw [remaining, fd]
    rw [invalid, if_pos (by decide), all]
    obtain ⟨file', read, later⟩ :=
      @onward { file with readdone := false, fd := .opened 0 } 0 readable.there readable.allowed rfl
    exact ⟨file', read, later⟩
  | opened pos =>
    have valid : file.validFd = true := by rw [File.validFd, fd]
    have all : remaining file = file.contents.drop pos := by rw [remaining, fd]
    rw [valid, if_neg (by decide), all]
    exact onward readable.there readable.allowed fd
  | dangling => exact absurd fd readable.usable

theorem fillAt_full (rb : RingBuffer) (off : Nat) (readable : Readable file) {len : Nat}
    (asked : len ≠ 0)
    (block : ∀ bytes : Bytes, bytes.length ≤ len → ∃ rb', rb.copyIn off bytes = some rb' ∧
      Appended rb { rb' with writeptr := off + bytes.length } bytes) :
    ∃ rb' file', rb.fillAt file off len .full =
        some ((((remaining file).take len).length : Int), rb', file') ∧
      Appended rb rb' ((remaining file).take len) ∧
      rb'.writeptr = off + ((remaining file).take len).length ∧
      (len ≤ (remaining file).length →
        Readable file' ∧ remaining file' = (remaining file).drop len) := by
  obtain ⟨file', read, later⟩ := continuousReadOut_full readable asked
  obtain ⟨rb', copied, appended⟩ := block _ (List.length_take_le len (remaining file))
  rw [fillAt, read]
  refine ⟨{ rb' with writeptr := off + ((remaining file).take len).length }, file', ?_, appended,
    rfl, later⟩
  dsimp only
  rw [if_neg (by omega), copied]
  rfl

theorem writeIn_take (h : rb.Valid) (free : rb.space ≠ 0) (bytes : Bytes) :
    ∃ ret rb', rb.writeIn (bytes.take rb.space) = some (ret, rb') ∧
      rb'.content = rb.content ++ bytes.take rb.space := by
  by_cases nothing : bytes.take rb.space = []
  · rw [nothing, List.append_nil]
    exact ⟨_, rb, writeIn_noData free, rfl⟩
  · obtain ⟨rb', written, appended, _⟩ := writeIn_spec h free nothing
    refine ⟨_, rb', written, ?_⟩
    rw [appended.content, List.take_take, Nat.min_self]

/-- The write pointer is off the end, so that every read is one of some bytes. -/
theorem filled (h : rb.Valid) (readable : Readable file) (free : rb.space ≠ 0)
    (off : rb.writeptr ≠ rb.capacity) :
    ∃ rb' file', rb.writeInFromFile file .full .full =
        some (((min rb.space (remaining file).length : Nat) : Int), rb', file') ∧
      Appended rb rb' ((remaining file).take rb.space) := by
  have hspace := space_eq h
  have hlen := content_length rb
  have notFull : rb.isFull = false := by simp [isFull, free]
  rw [writeInFromFile, notFull, if_neg (by decide)]
  by_cases order : rb.readptr ≤ rb.writeptr
  · rw [if_pos order] at hlen ⊢
    have hwrite := h.write_le
    have hlimit := h.limit
    simp only [ringbufferMaxLength] at hlimit
    obtain ⟨right, left, rightIs, leftIs, total, wraps, inside, nonzero⟩ := fill_blocks h order
    have asked : right ≠ 0 := fun none_ => (nonzero none_).elim free off
    dsimp only
    rw [rightIs, leftIs, sizeT_natCast (by omega), sizeT_natCast (by omega)]
    obtain ⟨rb₁, file₁, first, appended₁, behind, later⟩ :=
      fillAt_full rb rb.writeptr readable asked (by
        intro bytes short
        obtain ⟨rb', copied, _, spec⟩ := append_right h order bytes (by omega) (by omega)
        exact ⟨rb', copied, spec⟩)
    rw [first]
    simp only [Option.bind_eq_bind, Option.bind_some, List.length_take] at behind ⊢
    split_ifs with error short wrap
    · omega
    · have all : (remaining file).take right = (remaining file).take rb.space := by
        rw [List.take_of_length_le (by omega), List.take_of_length_le (by omega)]
      rw [all] at appended₁
      refine ⟨rb₁, file₁, ?_, appended₁⟩
      rw [Nat.min_eq_right (by omega), Nat.min_eq_right (by omega)]
    · obtain ⟨readable₁, next⟩ := later (by omega)
      have atEnd : rb₁.writeptr = rb₁.capacity := by
        rw [behind, appended₁.capacity]
        omega
      have used := congrArg List.length appended₁.content
      rw [List.length_append, List.length_take] at used
      obtain ⟨rb₂, file₂, second, appended₂, _, _⟩ :=
        fillAt_full rb₁ 0 readable₁ (show left ≠ 0 by omega) (by
          intro bytes short
          have := appended₁.capacity
          obtain ⟨rb', copied, spec⟩ := append_start appended₁.valid atEnd bytes (by omega)
          exact ⟨rb', copied, by simpa using spec⟩)
      have both := appended₁.trans appended₂
      rw [next, ← List.take_add, total] at both
      rw [second]
      simp only [Option.bind_some, next, List.length_take, List.length_drop]
      split_ifs with error₂ short₂
      · omega
      · refine ⟨rb₂, file₂, ?_, both⟩
        congr 2
        omega
      · refine ⟨rb₂, file₂, ?_, both⟩
        congr 2
        omega
    · have all : right = rb.space := by omega
      rw [all] at appended₁
      refine ⟨rb₁, file₁, ?_, appended₁⟩
      rw [Nat.min_eq_left (by omega)]
  · rw [if_neg order] at hlen ⊢
    obtain ⟨rb₁, file₁, first, appended₁, _, _⟩ :=
      fillAt_full rb rb.writeptr readable free (by
        intro bytes short
        obtain ⟨rb', copied, _, spec, _⟩ := append_wrapped h (by omega) bytes (by omega)
        exact ⟨rb', copied, spec⟩)
    rw [first]
    simp only [Option.bind_eq_bind, Option.bind_some, List.length_take]
    split_ifs with error short
    · omega
    · exact ⟨rb₁, file₁, rfl, appended₁⟩
    · refine ⟨rb₁, file₁, ?_, appended₁⟩
      rw [Nat.min_eq_left (by omega)]

/-- A right block of no bytes is asked for. -/
theorem refused (h : rb.Valid) (file : File) (rd₁ rd₂ : ReadResult) (free : rb.space ≠ 0)
    (resting : rb.writeptr = rb.capacity) :
    rb.writeInFromFile file rd₁ rd₂ = some (tigersoIoError, rb, file) := by
  have hgap := h.gap
  have hread := h.read_le
  have room := h.room
  have order : rb.readptr ≤ rb.writeptr := by omega
  have notFull : rb.isFull = false := by simp [isFull, free]
  obtain ⟨right, left, rightIs, leftIs, total, wraps, inside, _⟩ := fill_blocks h order
  have none_ : right = 0 := by omega
  have first : rb.fillAt file rb.writeptr 0 rd₁ = some (fileArgsInvalid, rb, file) := rfl
  rw [writeInFromFile, notFull, if_neg (by decide), if_pos order]
  dsimp only
  rw [rightIs, none_, sizeT_natCast (by decide), first]
  rfl

theorem not_fills_of_resting (h : rb.Valid) (free : rb.space ≠ 0)
    (resting : rb.writeptr = rb.capacity) : ¬ Fills rb file := by
  rintro ⟨ret, rb', file', ret', rb'', fill, count, _, _⟩
  rw [refused h file .full .full free resting] at fill
  obtain ⟨rfl, _⟩ := Prod.mk.inj (Option.some.inj fill)
  have nonneg : (0 : Int) ≤ tigersoIoError := by
    rw [count]
    exact Int.natCast_nonneg _
  exact absurd nonneg (by decide)

end

/-- On every reachable ring that is not full a fill from a file is one from the file's bytes
exactly when the write pointer is off the end of the allocation. -/
theorem fills_iff {rb : RingBuffer} (reached : Reached rb) {file : File} (readable : Readable file)
    (free : rb.isFull = false) : Fills rb file ↔ rb.writeptr ≠ rb.capacity := by
  have h := reached.valid
  have free : rb.space ≠ 0 := by simpa [isFull] using free
  constructor
  · exact fun fills resting => not_fills_of_resting h free resting fills
  · intro off
    obtain ⟨rb', file', fill, appended⟩ := filled h readable free off
    obtain ⟨ret', rb'', written, content⟩ := writeIn_take h free (remaining file)
    exact ⟨_, rb', file', ret', rb'', fill, rfl, written, appended.content.trans content.symm⟩

def threeBytes : File := { File.fresh with named := true, disk := some [1, 2, 3], readable := true }

theorem threeBytes_readable : Readable threeBytes := ⟨rfl, rfl, nofun⟩

/-- A ring that is new. -/
theorem fills_three_bytes : Fills (.construct 1024 fun _ => 0) threeBytes :=
  (fills_iff (.construct 1024 fun _ => 0) threeBytes_readable (by decide)).mpr (by decide)

/-- The ring has a free byte, and the fill is an error. -/
theorem resting_not_filled : ∃ rb, Reached rb ∧ rb.isFull = false ∧ Readable threeBytes ∧
    ¬ Fills rb threeBytes := by
  obtain ⟨rb₁, rb₂, rb₃, ⟨_, _, written₁⟩, ⟨_, _, read₂⟩, ⟨_, written₃⟩, _, resting, free⟩ :=
    exists_resting
  have reached := Reached.writeIn (.readOut (.writeIn (.construct 1024 fun _ => 0) written₁) read₂)
    written₃
  refine ⟨rb₃, reached, free, threeBytes_readable, ?_⟩
  exact not_fills_of_resting reached.valid (by simpa [isFull] using free) resting

end RingFill
