import Tigerso.RelatedResults
import Tigerso.FileSend
import Tigerso.RingDrain

/-!
# What a ring buffer reads of its allocation

A ring that was cleared differs from a new one in the bytes of its allocation. The ring reads
no byte that it has not written since, even in a drain that overruns the stored bytes.
-/

open SystemCalls ByteMemory DiskFile RelatedResults

/-- A file without a name is read nowhere; that it is `readable` says nothing then. -/
inductive DiskFile.File.Alike : File → File → Prop
  | same (f : File) : Alike f f
  | unnamed {f : File} (nameless : f.named = false) (readable : Bool) :
      Alike f { f with readable := readable }

namespace DiskFile.File

theorem Alike.continuousReadOut {f f' : File} (alike : Alike f f') (len : Nat) (rd : ReadResult) :
    ∃ ret bytes g g', f.continuousReadOut len rd = (ret, bytes, g) ∧
      f'.continuousReadOut len rd = (ret, bytes, g') ∧ Alike g g' := by
  cases alike with
  | same => exact ⟨_, _, _, _, rfl, rfl, .same _⟩
  | unnamed nameless readable =>
    by_cases none_asked : len = 0
    · exact ⟨fileArgsInvalid, [], f, _, by rw [File.continuousReadOut, if_pos none_asked],
        by rw [File.continuousReadOut, if_pos none_asked], .unnamed nameless readable⟩
    · refine ⟨fileReadAccessDeny, [], f, _, ?_, ?_, .unnamed nameless readable⟩
      · simp [File.continuousReadOut, none_asked, testExist, nameless]
      · simp [File.continuousReadOut, none_asked, testExist, nameless]

theorem Alike.appendWriteIn {f f' : File} (alike : Alike f f') (buf : Bytes) (r : WriteResult) :
    ∃ ret g g', f.appendWriteIn buf r = (ret, g) ∧ f'.appendWriteIn buf r = (ret, g') ∧
      Alike g g' := by
  cases alike with
  | same => exact ⟨_, _, _, rfl, rfl, .same _⟩
  | unnamed nameless readable =>
    refine ⟨fileArgsInvalid, f, _, ?_, ?_, .unnamed nameless readable⟩
    · simp [File.appendWriteIn, nameless]
    · simp [File.appendWriteIn, nameless]

theorem appendWriteIn_most (f : File) (buf : Bytes) (r : WriteResult) :
    (f.appendWriteIn buf r).1 ≤ buf.length := by
  unfold File.appendWriteIn
  by_cases refused : (buf.length = 0 || !f.named) = true
  · rw [if_pos refused]
    simp only [fileArgsInvalid]
    omega
  · rw [if_neg refused]
    have taken (n : Nat) := accepted_le n buf.length
    cases r with
    | took n => exact Int.ofNat_le.mpr (taken n)
    | wouldBlock =>
      simp only
      omega
    | failed =>
      simp only
      omega

/-- `File::send2Socket` of files that are alike. -/
structure SendAlike (s s' : FileSend) : Prop where
  ret : s.ret = s'.ret
  file : Alike s.file s'.file
  sendn : s.sendn = s'.sendn
  offset : s.offset = s'.offset
  sent : s.sent = s'.sent
  rest : s.rest = s'.rest

theorem SendAlike.refl (s : FileSend) : SendAlike s s := ⟨rfl, .same _, rfl, rfl, rfl, rfl⟩

theorem Alike.send2Socket {f f' : File} (alike : Alike f f') (sockfd : Fd)
    (results : List WriteResult) :
    SendAlike (f.send2Socket sockfd results) (f'.send2Socket sockfd results) := by
  cases alike with
  | same => exact .refl _
  | unnamed nameless readable =>
    have missing : (!f.testExist || !f.testRead) = true := by simp [testExist, nameless]
    have missing' : (!({ f with readable := readable } : File).testExist ||
        !({ f with readable := readable } : File).testRead) = true := by
      simp [testExist, nameless]
    rw [File.send2Socket, File.send2Socket, if_pos missing, if_pos missing']
    split_ifs
    · exact ⟨rfl, .unnamed nameless readable, rfl, rfl, rfl, rfl⟩
    · exact ⟨rfl, .unnamed nameless readable, rfl, rfl, rfl, rfl⟩

theorem Alike.send2SocketRange {f f' : File} (alike : Alike f f') (sockfd : Fd) (offset : Int)
    (count : Nat) (results : List WriteResult) :
    SendAlike (f.send2SocketRange sockfd offset count results)
      (f'.send2SocketRange sockfd offset count results) := by
  cases alike with
  | same => exact .refl _
  | unnamed nameless readable =>
    have missing : (!f.testExist || !f.testRead) = true := by simp [testExist, nameless]
    have missing' : (!({ f with readable := readable } : File).testExist ||
        !({ f with readable := readable } : File).testRead) = true := by
      simp [testExist, nameless]
    have size : ({ f with readable := readable } : File).getFileSize = f.getFileSize := rfl
    rw [File.send2SocketRange, File.send2SocketRange, if_pos missing, if_pos missing', size]
    split_ifs
    · exact ⟨rfl, .unnamed nameless readable, rfl, rfl, rfl, rfl⟩
    · exact ⟨rfl, .unnamed (f := f.reset) nameless readable, rfl, rfl, rfl, rfl⟩
    · exact ⟨rfl, .unnamed nameless readable, rfl, rfl, rfl, rfl⟩

theorem Alike.close {f f' : File} (alike : Alike f f') : Alike f.close f'.close := by
  cases alike with
  | same => exact .same _
  | unnamed nameless readable => exact .unnamed (f := f.close) nameless readable

theorem Alike.clear {f f' : File} (alike : Alike f f') : Alike f.clear f'.clear := by
  cases alike with
  | same => exact .same _
  | unnamed nameless readable => exact .unnamed (f := f.clear) rfl readable

theorem Alike.setFilename {f f' : File} (alike : Alike f f') (disk : Option Bytes)
    (readable : Bool) : f'.setFilename disk readable = f.setFilename disk readable := by
  cases alike with
  | same => rfl
  | unnamed => rfl

theorem Alike.testExist {f f' : File} (alike : Alike f f') : f'.testExist = f.testExist := by
  cases alike with
  | same => rfl
  | unnamed => rfl

theorem Alike.getFileSize {f f' : File} (alike : Alike f f') :
    f'.getFileSize = f.getFileSize := by
  cases alike with
  | same => rfl
  | unnamed => rfl

theorem Alike.isReadDone {f f' : File} (alike : Alike f f') : f'.isReadDone = f.isReadDone := by
  cases alike with
  | same => rfl
  | unnamed => rfl

end DiskFile.File

namespace RingBuffer

/-- `rb` over another allocation. -/
def withBuffer (rb : RingBuffer) (buffer : Nat → Byte) : RingBuffer := { rb with buffer := buffer }

section
variable (rb : RingBuffer) (m : Nat → Byte)

@[simp] theorem withBuffer_readptr : (rb.withBuffer m).readptr = rb.readptr := rfl

@[simp] theorem withBuffer_writeptr : (rb.withBuffer m).writeptr = rb.writeptr := rfl

@[simp] theorem withBuffer_capacity : (rb.withBuffer m).capacity = rb.capacity := rfl

@[simp] theorem withBuffer_buffer : (rb.withBuffer m).buffer = m := rfl

@[simp] theorem withBuffer_space : (rb.withBuffer m).space = rb.space := rfl

@[simp] theorem withBuffer_size : (rb.withBuffer m).size = rb.size := rfl

@[simp] theorem withBuffer_isFull : (rb.withBuffer m).isFull = rb.isFull := rfl

@[simp] theorem withBuffer_isEmpty : (rb.withBuffer m).isEmpty = rb.isEmpty := rfl

@[simp] theorem withBuffer_request : (rb.withBuffer m).request = rb.request := rfl

end

/-- The first `top` cells of the two allocations hold the same. -/
def Agree (top : Nat) (m m' : Nat → Byte) : Prop := ∀ i, i < top → m' i = m i

theorem agree_paste {top : Nat} {m m' : Nat → Byte} (agree : Agree top m m') {off : Nat}
    (reached : off ≤ top) (bytes : Bytes) :
    Agree (max top (off + bytes.length)) (paste m off bytes) (paste m' off bytes) := by
  intro i below
  by_cases inside : off ≤ i ∧ i < off + bytes.length
  · simp only [paste, dif_pos inside]
  · have untouched : i < top := by omega
    simp only [paste, dif_neg inside, agree i untouched]

/-- All that is stored lies in the first `top` cells of a ring that has the default length. -/
structure Below (rb : RingBuffer) (top : Nat) : Prop where
  limit : rb.capacity = ringbufferDefaultLength + 1
  read_le : rb.readptr ≤ min top rb.capacity
  write_le : rb.writeptr ≤ min top rb.capacity
  wrapped : rb.writeptr < rb.readptr → rb.capacity ≤ top

/-- The two rings differ only in cells that were not written since they were cleared. -/
inductive Alike (rb : RingBuffer) : RingBuffer → Prop
  | written {top : Nat} {m : Nat → Byte} (below : rb.Below top) (agree : Agree top rb.buffer m) :
      Alike rb (rb.withBuffer m)

theorem clear_alike {rb : RingBuffer} (limit : rb.capacity = ringbufferDefaultLength + 1)
    (m : Nat → Byte) : Alike rb.clear (rb.clear.withBuffer m) :=
  .written ⟨limit, Nat.zero_le _, Nat.zero_le _, fun wrapped => absurd wrapped (Nat.lt_irrefl _)⟩
    fun i below => absurd below (Nat.not_lt_zero i)

theorem Alike.limit {rb rb' : RingBuffer} (alike : Alike rb rb') :
    rb.capacity = ringbufferDefaultLength + 1 := by
  obtain ⟨below, _⟩ := alike
  exact below.limit

theorem Alike.clear {rb rb' : RingBuffer} (alike : Alike rb rb') :
    Alike rb.clear rb'.clear := by
  obtain ⟨below, _⟩ := alike
  exact clear_alike below.limit _

theorem Alike.size {rb rb' : RingBuffer} (alike : Alike rb rb') : rb'.size = rb.size := by
  obtain ⟨_, _⟩ := alike
  rfl

theorem Alike.space {rb rb' : RingBuffer} (alike : Alike rb rb') : rb'.space = rb.space := by
  obtain ⟨_, _⟩ := alike
  rfl

theorem Alike.isEmpty {rb rb' : RingBuffer} (alike : Alike rb rb') :
    rb'.isEmpty = rb.isEmpty := by
  obtain ⟨_, _⟩ := alike
  rfl

theorem Alike.isFull {rb rb' : RingBuffer} (alike : Alike rb rb') : rb'.isFull = rb.isFull := by
  obtain ⟨_, _⟩ := alike
  rfl

/-- A block is copied over both allocations. -/
structure Pasted (rb : RingBuffer) (top : Nat) (r r' : RingBuffer) : Prop where
  left : r = rb.withBuffer r.buffer
  right : r' = rb.withBuffer r'.buffer
  agree : Agree top r.buffer r'.buffer

theorem copyIn_pasted {rb r r' : RingBuffer} {top : Nat} (pasted : Pasted rb top r r') {off : Nat}
    (reached : off ≤ top) (bytes : Bytes) :
    Option.Rel (fun s s' => off + bytes.length ≤ rb.capacity ∧
      Pasted rb (max top (off + bytes.length)) s s')
        (r.copyIn off bytes) (r'.copyIn off bytes) := by
  obtain ⟨left, right, agree⟩ := pasted
  rw [left, right, copyIn, copyIn, withBuffer_capacity, withBuffer_capacity]
  split_ifs with fits
  · exact .some ⟨fits, rfl, rfl, agree_paste agree reached bytes⟩
  · exact .none

theorem Pasted.writeptr {rb r r' : RingBuffer} {top : Nat} (pasted : Pasted rb top r r') :
    r.writeptr = rb.writeptr ∧ r'.writeptr = rb.writeptr :=
  ⟨(congrArg RingBuffer.writeptr pasted.left).trans (withBuffer_writeptr _ _),
    (congrArg RingBuffer.writeptr pasted.right).trans (withBuffer_writeptr _ _)⟩

/-- The write pointer is put behind the block. -/
theorem Pasted.alike {rb r r' : RingBuffer} {top : Nat} (pasted : Pasted rb top r r')
    (limit : rb.capacity = ringbufferDefaultLength + 1)
    (read_le : rb.readptr ≤ min top rb.capacity)
    {write : Nat} (write_le : write ≤ min top rb.capacity)
    (wrapped : write < rb.readptr → rb.capacity ≤ top) :
    Alike { r with writeptr := write } { r' with writeptr := write } := by
  obtain ⟨left, right, agree⟩ := pasted
  rw [left, right]
  have below : Below { rb.withBuffer r.buffer with writeptr := write } top :=
    ⟨limit, read_le, write_le, wrapped⟩
  exact .written below agree

/-- A write does not look at what lies outside of the content. -/
theorem writeIn_alike {rb rb' : RingBuffer} (alike : Alike rb rb') (buf : Bytes) :
    Option.Rel (Same Alike) (rb.writeIn buf) (rb'.writeIn buf) := by
  cases alike with
  | @written top m below agree =>
  have ⟨limit, read_le, write_le, wrapped⟩ := below
  have first : Pasted rb top rb (rb.withBuffer m) := ⟨rfl, rfl, agree⟩
  have right_eq : sizeT (rb.capacity - rb.writeptr : Int) = rb.capacity - rb.writeptr := by
    simp only [ringbufferDefaultLength] at limit
    apply sizeT_eq <;> omega
  rw [writeIn, writeIn, withBuffer_isFull]
  by_cases full : rb.isFull = true
  · rw [if_pos full, if_pos full]
    exact .some ⟨rfl, .written below agree⟩
  rw [if_neg full, if_neg full]
  by_cases empty : buf.length = 0
  · rw [if_pos empty, if_pos empty]
    exact .some ⟨rfl, .written below agree⟩
  rw [if_neg empty, if_neg empty]
  obtain ⟨len, is, short⟩ : ∃ len, (if rb.space < buf.length then rb.space else buf.length) = len ∧
      len ≤ buf.length := ⟨_, rfl, by split_ifs <;> omega⟩
  have is' : (if (rb.withBuffer m).space < buf.length then (rb.withBuffer m).space
      else buf.length) = len := is
  have block : (buf.take len).length = len := by
    rw [List.length_take, Nat.min_eq_left short]
  dsimp only
  rw [is, is']
  simp only [withBuffer_readptr, withBuffer_writeptr, withBuffer_capacity, right_eq]
  by_cases order : rb.readptr ≤ rb.writeptr
  · rw [if_pos order, if_pos order]
    by_cases straight : len ≤ rb.capacity - rb.writeptr
    · rw [if_pos straight, if_pos straight]
      refine optionBind (copyIn_pasted first (by omega) _) fun s s' both => ?_
      obtain ⟨fits, pasted⟩ := both
      rw [block] at fits pasted
      rw [pasted.writeptr.1, pasted.writeptr.2]
      exact .some ⟨rfl, pasted.alike limit (by omega) (by omega) (by omega)⟩
    · rw [if_neg straight, if_neg straight]
      have tail : (buf.take (rb.capacity - rb.writeptr)).length = rb.capacity - rb.writeptr := by
        rw [List.length_take]
        omega
      have head : ((buf.drop (rb.capacity - rb.writeptr)).take
          (len - (rb.capacity - rb.writeptr))).length = len - (rb.capacity - rb.writeptr) := by
        rw [List.length_take, List.length_drop]
        omega
      refine optionBind (copyIn_pasted first (by omega) _) fun s s' both => ?_
      obtain ⟨fits, pasted⟩ := both
      rw [tail] at fits pasted
      refine optionBind (copyIn_pasted pasted (Nat.zero_le _) _) fun t t' both => ?_
      obtain ⟨fits₂, pasted₂⟩ := both
      rw [head] at fits₂ pasted₂
      exact .some ⟨rfl, pasted₂.alike limit (by omega) (by omega) (by omega)⟩
  · rw [if_neg order, if_neg order]
    refine optionBind (copyIn_pasted first (by omega) _) fun s s' both => ?_
    obtain ⟨fits, pasted⟩ := both
    rw [block] at fits pasted
    rw [pasted.writeptr.1, pasted.writeptr.2]
    exact .some ⟨rfl, pasted.alike limit (by omega) (by omega) (by omega)⟩

/-- One `file.continuousReadOut`; where the block may end is said by `order`. -/
theorem fillAt_alike {rb : RingBuffer} {top : Nat} {m : Nat → Byte} (below : rb.Below top)
    (agree : Agree top rb.buffer m) {file file' : File} (files : File.Alike file file')
    {off len : Nat} (reached : off ≤ top) (rd : ReadResult)
    (order : ∀ k ≤ len, off + k < rb.readptr → rb.capacity ≤ max top (off + k)) :
    Option.Rel (fun (x y : Int × RingBuffer × File) => Same (Both Alike File.Alike) x y ∧
        x.1 ≤ len ∧ x.2.1.capacity = rb.capacity ∧ x.2.1.readptr = rb.readptr ∧
        (0 ≤ x.1 → (x.2.1.writeptr : Int) = off + x.1))
      (rb.fillAt file off len rd) ((rb.withBuffer m).fillAt file' off len rd) := by
  obtain ⟨ret, bytes, next, next', read, read', kept⟩ := files.continuousReadOut len rd
  obtain ⟨short, counts⟩ := File.continuousReadOut_counts read
  rw [fillAt, fillAt, read, read']
  dsimp only
  by_cases error : ret < 0
  · rw [if_pos error, if_pos error]
    exact .some ⟨⟨rfl, .written below agree, kept⟩, by simp only; omega, rfl, rfl,
      fun nonneg => absurd error (by simp only at nonneg; omega)⟩
  · rw [if_neg error, if_neg error]
    have first : Pasted rb top rb (rb.withBuffer m) := ⟨rfl, rfl, agree⟩
    obtain ⟨limit, read_le, write_le, wrapped⟩ := below
    have count := counts (by omega)
    refine optionBind (copyIn_pasted first reached bytes) fun s s' both => ?_
    obtain ⟨fits, pasted⟩ := both
    have same := pasted.left
    refine .some ⟨⟨rfl, pasted.alike limit (by omega) (by omega) fun wrap => ?_, kept⟩, ?_, ?_, ?_,
      ?_⟩
    · exact order _ short wrap
    · simp only
      omega
    · exact (congrArg RingBuffer.capacity same).trans (withBuffer_capacity _ _)
    · exact (congrArg RingBuffer.readptr same).trans (withBuffer_readptr _ _)
    · intro _
      simp only
      omega

/-- Nor does a write from a file. -/
theorem writeInFromFile_alike {rb rb' : RingBuffer} (alike : Alike rb rb') {file file' : File}
    (files : File.Alike file file') (rd₁ rd₂ : ReadResult) :
    Option.Rel (Same (Both Alike File.Alike)) (rb.writeInFromFile file rd₁ rd₂)
      (rb'.writeInFromFile file' rd₁ rd₂) := by
  cases alike with
  | @written top m below agree =>
  have ⟨limit, read_le, write_le, wrapped⟩ := below
  simp only [ringbufferDefaultLength] at limit
  rw [writeInFromFile, writeInFromFile, withBuffer_isFull]
  by_cases full : rb.isFull = true
  · rw [if_pos full, if_pos full]
    exact .some ⟨rfl, .written below agree, files⟩
  rw [if_neg full, if_neg full]
  by_cases order : rb.readptr ≤ rb.writeptr
  · have order' : (rb.withBuffer m).readptr ≤ (rb.withBuffer m).writeptr := order
    rw [if_pos order, if_pos order']
    obtain ⟨right, left, rightIs, leftIs, ends⟩ : ∃ right left : Int,
        (if 0 ≤ (rb.readptr - 1 : Int) then (rb.capacity - rb.writeptr : Int)
          else rb.capacity - rb.writeptr - 1) = right ∧
        (if 0 ≤ (rb.readptr - 1 : Int) then (rb.readptr - 1 : Int) else 0) = left ∧
        (0 < left → right = rb.capacity - rb.writeptr) := by
      refine ⟨_, _, rfl, rfl, ?_⟩
      split_ifs <;> omega
    have rightIs' : (if 0 ≤ ((rb.withBuffer m).readptr - 1 : Int) then
        ((rb.withBuffer m).capacity - (rb.withBuffer m).writeptr : Int)
          else (rb.withBuffer m).capacity - (rb.withBuffer m).writeptr - 1) = right := rightIs
    have leftIs' : (if 0 ≤ ((rb.withBuffer m).readptr - 1 : Int) then
        ((rb.withBuffer m).readptr - 1 : Int) else 0) = left := leftIs
    dsimp only
    rw [rightIs, leftIs, rightIs', leftIs']
    refine optionBind (fillAt_alike below agree files (by omega) rd₁ (by omega))
      fun x y both => ?_
    obtain ⟨⟨same, ⟨rings, kept⟩⟩, most, cap, read, behind⟩ := both
    obtain ⟨ret, ring, next⟩ := x
    obtain ⟨ret', ring', next'⟩ := y
    dsimp only at same rings kept most cap read behind ⊢
    rw [← same, withBuffer_space]
    split_ifs with error short wrap
    · exact .some ⟨rfl, rings, kept⟩
    · exact .some ⟨rfl, rings, kept⟩
    · have behind := behind (by omega)
      have full_right : rb.capacity ≤ ring.writeptr := by
        have := ends wrap
        omega
      cases rings with
      | @written top₁ m₁ below₁ agree₁ =>
      have all : rb.capacity ≤ top₁ :=
        full_right.trans (below₁.write_le.trans (Nat.min_le_left _ _))
      refine optionBind (fillAt_alike below₁ agree₁ kept (Nat.zero_le _) rd₂
        fun _ _ _ => by omega) fun x y both => ?_
      obtain ⟨⟨same, ⟨rings, kept⟩⟩, _⟩ := both
      obtain ⟨ret₂, ring₂, next₂⟩ := x
      obtain ⟨ret₂', ring₂', next₂'⟩ := y
      dsimp only at same rings kept ⊢
      rw [← same]
      split_ifs
      · exact .some ⟨rfl, rings, kept⟩
      · exact .some ⟨rfl, rings, kept⟩
      · exact .some ⟨rfl, rings, kept⟩
    · exact .some ⟨rfl, rings, kept⟩
  · have order' : ¬ (rb.withBuffer m).readptr ≤ (rb.withBuffer m).writeptr := order
    rw [if_neg order, if_neg order']
    refine optionBind (fillAt_alike below agree files (by omega) rd₁ (by omega))
      fun x y both => ?_
    obtain ⟨⟨same, ⟨rings, kept⟩⟩, _⟩ := both
    obtain ⟨ret, ring, next⟩ := x
    obtain ⟨ret', ring', next'⟩ := y
    dsimp only at same rings kept ⊢
    rw [← same, withBuffer_space]
    split_ifs
    · exact .some ⟨rfl, rings, kept⟩
    · exact .some ⟨rfl, rings, kept⟩
    · exact .some ⟨rfl, rings, kept⟩

/-- A drain of two rings that differ in unwritten cells. -/
structure Drain.Alike (d d' : Drain) : Prop where
  ret : d.ret = d'.ret
  ring : RingBuffer.Alike d.ring d'.ring
  sent : d.sent = d'.sent
  rest : d.rest = d'.rest

theorem Below.size_ordered {rb : RingBuffer} {top : Nat} (below : rb.Below top)
    (order : rb.readptr ≤ rb.writeptr) : rb.size = rb.writeptr - rb.readptr := by
  obtain ⟨limit, read_le, write_le, _⟩ := below
  simp only [ringbufferDefaultLength] at limit
  rw [size, space, if_pos order]
  simp only [sizeT]
  omega

/-- The next `n` bytes are ones that the loop may hand over. -/
structure Ahead (rb : RingBuffer) (n : Nat) : Prop where
  inside : rb.readptr + n ≤ rb.capacity
  stored : rb.readptr ≤ rb.writeptr → rb.readptr + n ≤ rb.writeptr

theorem Ahead.below {rb : RingBuffer} {n top : Nat} (ahead : rb.Ahead n) (below : rb.Below top) :
    rb.readptr + n ≤ top := by
  obtain ⟨_, _, write_le, wrapped⟩ := below
  by_cases order : rb.readptr ≤ rb.writeptr
  · have := ahead.stored order
    omega
  · have := wrapped (by omega)
    have := ahead.inside
    omega

/-- The loop body reads written cells. -/
theorem copyOut_alike {rb : RingBuffer} {top : Nat} {m : Nat → Byte} (below : rb.Below top)
    (agree : Agree top rb.buffer m) (pending : rb.size ≠ 0) :
    Option.Rel (fun bytes bytes' => bytes' = bytes ∧ rb.Ahead bytes.length)
      (rb.copyOut rb.readptr rb.request)
      ((rb.withBuffer m).copyOut (rb.withBuffer m).readptr (rb.withBuffer m).request) := by
  rw [copyOut, copyOut, withBuffer_capacity, withBuffer_readptr, withBuffer_request]
  split_ifs with fits
  · have ahead : rb.Ahead rb.request := by
      refine ⟨fits, fun order => ?_⟩
      have size := below.size_ordered order
      rw [request, if_pos (by omega)]
      omega
    have reached := ahead.below below
    refine .some ⟨window_congr fun i _ short => agree i (by omega), ?_⟩
    rw [window_length]
    exact ahead
  · exact .none

theorem consume_alike {rb : RingBuffer} {top : Nat} {m : Nat → Byte} (below : rb.Below top)
    (agree : Agree top rb.buffer m) {len n : Nat} (ahead : rb.Ahead len) (most : n ≤ len) :
    Alike (rb.consume n) ((rb.withBuffer m).consume n) := by
  have reached := ahead.below below
  obtain ⟨inside, stored⟩ := ahead
  obtain ⟨limit, read_le, write_le, wrapped⟩ := below
  have turned : (rb.readptr + n) % rb.capacity ≤ rb.readptr + n := Nat.mod_le _ _
  suffices below : (rb.consume n).Below top from .written below agree
  refine ⟨limit, ?_, write_le, ?_⟩
  · simp only [consume]
    omega
  · simp only [consume]
    intro wrap
    by_cases order : rb.readptr ≤ rb.writeptr
    · have := stored order
      omega
    · exact wrapped (by omega)

section
variable {σ : Type} {write : σ → Bytes → WriteResult → Settled × σ} {S : σ → σ → Prop}

/-- What the sink does to a block does not tell related states apart. -/
structure SinkAlike (write : σ → Bytes → WriteResult → Settled × σ) (S : σ → σ → Prop) : Prop where
  same : ∀ s s' bytes r, S s s' → Same S (write s bytes r) (write s' bytes r)
  most : ∀ s bytes r n, (write s bytes r).1 = .moved n → n ≤ bytes.length

/-- Nor does a drain, into sinks that are alike. -/
theorem drainLoop_alike (sink : SinkAlike write S) {finish : RingBuffer → RingBuffer}
    (ends : ∀ rb rb', Alike rb rb' → Alike (finish rb) (finish rb')) (datasize : Nat)
    (results : List WriteResult) {rb rb' : RingBuffer} (alike : Alike rb rb') {s s' : σ}
    (states : S s s') :
    Option.Rel (Both Drain.Alike S) (drainLoop write finish datasize results rb s)
      (drainLoop write finish datasize results rb' s') := by
  induction results generalizing rb rb' s s' with
  | nil =>
    rw [drainLoop, drainLoop, alike.size]
    split_ifs
    · exact .some ⟨⟨rfl, ends _ _ alike, rfl, rfl⟩, states⟩
    · exact .some ⟨⟨rfl, alike, rfl, rfl⟩, states⟩
  | cons r results ih =>
    rw [drainLoop, drainLoop, alike.size]
    split_ifs with done
    · exact .some ⟨⟨rfl, ends _ _ alike, rfl, rfl⟩, states⟩
    cases alike with
    | @written top m below agree =>
    refine optionBind (copyOut_alike below agree done) fun bytes bytes' both => ?_
    obtain ⟨read, ahead⟩ := both
    subst read
    obtain ⟨settled, after⟩ := sink.same s s' bytes' r states
    have most := sink.most s bytes' r
    cases wrote : write s bytes' r with
    | mk w next =>
    cases wrote' : write s' bytes' r with
    | mk w' next' =>
    rw [wrote, wrote'] at settled after
    rw [wrote] at most
    obtain rfl : w = w' := settled
    cases w with
    | stop ret => exact .some ⟨⟨rfl, .written below agree, rfl, rfl⟩, after⟩
    | again => exact .some ⟨⟨rfl, .written below agree, rfl, rfl⟩, after⟩
    | moved n =>
      have consumed := consume_alike below agree ahead (most n rfl)
      refine optionBind (ih consumed after) fun x y both => ?_
      obtain ⟨drained, states⟩ := both
      obtain ⟨ret, ring, sent, rest⟩ := drained
      exact .some ⟨⟨ret, ring, congrArg (bytes'.take n ++ ·) sent, rest⟩, states⟩

end

theorem writeFd_sink : SinkAlike writeFd Eq := by
  constructor
  · rintro s _ bytes r rfl
    exact ⟨rfl, rfl⟩
  · intro s bytes r n moved
    cases r with
    | took k =>
      cases moved
      exact accepted_le _ _
    | wouldBlock => cases moved
    | failed => cases moved

theorem writeSocketFd_sink : SinkAlike writeSocketFd Eq := by
  constructor
  · rintro s _ bytes r rfl
    exact ⟨rfl, rfl⟩
  · intro s bytes r n moved
    cases r with
    | took k =>
      cases moved
      exact accepted_le _ _
    | wouldBlock => cases moved
    | failed => cases moved

theorem writeSocket_sink (isSSL : Bool) : SinkAlike (writeSocket isSSL) Eq := by
  constructor
  · rintro s _ bytes r rfl
    exact ⟨rfl, rfl⟩
  · intro s bytes r n moved
    cases r with
    | took k =>
      rw [writeSocket] at moved
      split_ifs at moved
      cases moved
      exact accepted_le _ _
    | wouldBlock => cases moved
    | failed => cases isSSL <;> cases moved

theorem writeFile_sink : SinkAlike writeFile File.Alike := by
  constructor
  · intro f f' bytes r alike
    obtain ⟨ret, g, g', wrote, wrote', kept⟩ := alike.appendWriteIn bytes r
    rw [writeFile, writeFile, wrote, wrote']
    dsimp only
    split_ifs
    · exact ⟨rfl, kept⟩
    · exact ⟨rfl, kept⟩
  · intro f bytes r n moved
    have most := File.appendWriteIn_most f bytes r
    cases wrote : f.appendWriteIn bytes r with
    | mk ret g =>
    rw [writeFile, wrote] at moved
    rw [wrote] at most
    dsimp only at moved most
    split_ifs at moved
    cases moved
    omega

theorem readOut2File_alike {rb rb' : RingBuffer} (alike : Alike rb rb') {file file' : File}
    (files : File.Alike file file') (results : List WriteResult) :
    Option.Rel (Both Drain.Alike File.Alike) (rb.readOut2File file results)
      (rb'.readOut2File file' results) := by
  rw [readOut2File, readOut2File, alike.isEmpty, alike.size]
  split_ifs
  · exact .some ⟨⟨rfl, alike, rfl, rfl⟩, files⟩
  · exact drainLoop_alike writeFile_sink (fun _ _ kept => kept) _ results alike files

/-- `send` takes what it sends from written cells. -/
def SendAlike (send : RingBuffer → List WriteResult → Option (Drain × Unit)) : Prop :=
  ∀ rb rb' results, Alike rb rb' →
    Option.Rel (Both Drain.Alike Eq) (send rb results) (send rb' results)

theorem readOutFd_alike (fd : Fd) : SendAlike (readOutFd · fd) := by
  intro rb rb' results alike
  dsimp only
  rw [readOutFd, readOutFd, alike.isEmpty, alike.size]
  split_ifs
  · exact .some ⟨⟨rfl, alike, rfl, rfl⟩, rfl⟩
  · exact .some ⟨⟨rfl, alike, rfl, rfl⟩, rfl⟩
  · exact drainLoop_alike writeFd_sink (fun _ _ kept => kept) _ results alike rfl

theorem send2SocketFd_alike (fd : Fd) : SendAlike (send2SocketFd · fd) := by
  intro rb rb' results alike
  dsimp only
  rw [send2SocketFd, send2SocketFd, alike.isEmpty, alike.size]
  split_ifs
  · exact .some ⟨⟨rfl, alike, rfl, rfl⟩, rfl⟩
  · exact .some ⟨⟨rfl, alike, rfl, rfl⟩, rfl⟩
  · exact readOutFd_alike fd rb rb' results alike
  · exact drainLoop_alike writeSocketFd_sink (fun _ _ kept => kept.clear) _ results alike rfl

theorem send2Socket_alike (isSSL : Bool) : SendAlike (send2Socket · isSSL) := by
  intro rb rb' results alike
  dsimp only
  rw [send2Socket, send2Socket, alike.isEmpty, alike.size]
  split_ifs
  · exact .some ⟨⟨rfl, alike, rfl, rfl⟩, rfl⟩
  · exact drainLoop_alike (writeSocket_sink isSSL) (fun _ _ kept => kept.clear) _ results alike rfl

end RingBuffer
