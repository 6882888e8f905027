import Tigerso.ByteMemory
import Tigerso.DiskFile

/-!
# net/RingBuffer: a byte ring with one reserved slot

Pointers are offsets from `_buffer`. A pointer may rest on the end of the
allocation (offset `capacity`): `writeIn` and `readOut` leave it there, only the
drain loops wrap. Copies are checked against the allocation; a copy that leaves
it is undefined behaviour and the operation has no result.
-/

open SystemCalls ByteMemory DiskFile

def ringbufferNoSpace : Int := -3
def ringbufferNoData : Int := -2
def ringbufferMaxLength : Nat := 65536
def ringbufferMinLength : Nat := 1024
def ringbufferDefaultLength : Nat := 8192

structure RingBuffer where
  buffer : Nat → Byte
  readptr : Nat
  writeptr : Nat
  /-- Size of the allocation, one more than what can be stored. -/
  capacity : Nat

namespace RingBuffer

/-- The number of bytes a ring constructed with `len` can store. -/
def clampLength (len : Nat) : Nat :=
  if ringbufferMaxLength < len then ringbufferMaxLength
  else if len < ringbufferMinLength then ringbufferMinLength
  else len

def clear (rb : RingBuffer) : RingBuffer := { rb with readptr := 0, writeptr := 0 }

/-- The constructor; `garbage` is what `malloc` left in the allocation. -/
def construct (len : Nat) (garbage : Nat → Byte) : RingBuffer :=
  clear ⟨garbage, 0, 0, clampLength len + 1⟩

def space (rb : RingBuffer) : Nat :=
  if rb.readptr ≤ rb.writeptr then
    sizeT (rb.capacity - (rb.writeptr - rb.readptr) - 1 : Int)
  else sizeT (rb.readptr - rb.writeptr - 1 : Int)

def size (rb : RingBuffer) : Nat := sizeT (rb.capacity - rb.space - 1 : Int)

def isFull (rb : RingBuffer) : Bool := rb.space == 0

def isEmpty (rb : RingBuffer) : Bool := rb.readptr == rb.writeptr

/-- `memcpy` into the allocation at offset `off`. -/
def copyIn (rb : RingBuffer) (off : Nat) (bytes : Bytes) : Option RingBuffer :=
  if off + bytes.length ≤ rb.capacity then
    some { rb with buffer := paste rb.buffer off bytes }
  else none

/-- `memcpy` of `len` bytes out of the allocation. -/
def copyOut (rb : RingBuffer) (off len : Nat) : Option Bytes :=
  if off + len ≤ rb.capacity then some (window rb.buffer off len) else none

/-- `RingBuffer::writeIn`. A null `buf` takes the branch of an empty one. -/
def writeIn (rb : RingBuffer) (buf : Bytes) : Option (Int × RingBuffer) :=
  if rb.isFull then some (0, rb)
  else if buf.length = 0 then some (ringbufferNoData, rb)
  else
    let len := if rb.space < buf.length then rb.space else buf.length
    if rb.readptr ≤ rb.writeptr then
      let right := sizeT (rb.capacity - rb.writeptr : Int)
      if len ≤ right then do
        let rb ← rb.copyIn rb.writeptr (buf.take len)
        some (len, { rb with writeptr := rb.writeptr + len })
      else do
        let rb ← rb.copyIn rb.writeptr (buf.take right)
        let rb ← rb.copyIn 0 ((buf.drop right).take (len - right))
        some (len, { rb with writeptr := len - right })
    else do
      let rb ← rb.copyIn rb.writeptr (buf.take len)
      some (len, { rb with writeptr := rb.writeptr + len })

/-- `RingBuffer::readOut(char*, size_t)`: the return value, the bytes copied to
`buf` and the ring afterwards. A null `buf` takes the branch of `len = 0`. -/
def readOut (rb : RingBuffer) (len : Nat) : Option (Int × Bytes × RingBuffer) :=
  if rb.isEmpty then some (0, [], rb)
  else if len = 0 then some (ringbufferNoSpace, [], rb)
  else
    let readn := if rb.size < len then rb.size else len
    if rb.readptr < rb.writeptr then do
      let bytes ← rb.copyOut rb.readptr readn
      some (readn, bytes, { rb with readptr := rb.readptr + readn })
    else
      let right := sizeT (rb.capacity - rb.readptr : Int)
      if readn ≤ right then do
        let bytes ← rb.copyOut rb.readptr readn
        some (readn, bytes, { rb with readptr := rb.readptr + readn })
      else do
        let tail ← rb.copyOut rb.readptr right
        let head ← rb.copyOut 0 (readn - right)
        some (readn, tail ++ head, { rb with readptr := readn - right })

/-- One `file.continuousReadOut(_buffer + off, len)` of `writeInFromFile`, with
the write pointer put behind the bytes read. -/
def fillAt (rb : RingBuffer) (file : File) (off len : Nat) (rd : ReadResult) :
    Option (Int × RingBuffer × File) :=
  match file.continuousReadOut len rd with
  | (readn, bytes, file) =>
    if readn < 0 then some (readn, rb, file)
    else do
      let rb ← rb.copyIn off bytes
      some (readn, { rb with writeptr := off + bytes.length }, file)

/-- `RingBuffer::writeInFromFile`; `rd₁` and `rd₂` settle its two reads. -/
def writeInFromFile (rb : RingBuffer) (file : File) (rd₁ rd₂ : ReadResult) :
    Option (Int × RingBuffer × File) :=
  if rb.isFull then some (0, rb, file)
  else if rb.readptr ≤ rb.writeptr then do
    let left₀ : Int := rb.readptr - 1
    let right : Int := if 0 ≤ left₀ then rb.capacity - rb.writeptr
      else rb.capacity - rb.writeptr - 1
    let left : Int := if 0 ≤ left₀ then left₀ else 0
    let (readn, rb₁, file) ← rb.fillAt file rb.writeptr (sizeT right) rd₁
    if readn < 0 then some (tigersoIoError, rb₁, file)
    else if readn < right then some (readn, rb₁, file)
    else if 0 < left then do
      let (readn, rb₂, file) ← rb₁.fillAt file 0 (sizeT left) rd₂
      if readn < 0 then some (tigersoIoError, rb₂, file)
      else if readn < left then some (right + readn, rb₂, file)
      else some (rb.space, rb₂, file)
    else some (rb.space, rb₁, file)
  else do
    let (readn, rb₁, file) ← rb.fillAt file rb.writeptr rb.space rd₁
    if readn < 0 then some (tigersoIoError, rb₁, file)
    else if readn < rb.space then some (readn, rb₁, file)
    else some (rb.space, rb₁, file)

/-- The queued bytes in arrival order. -/
def content (rb : RingBuffer) : Bytes :=
  if rb.readptr ≤ rb.writeptr then
    window rb.buffer rb.readptr (rb.writeptr - rb.readptr)
  else window rb.buffer rb.readptr (rb.capacity - rb.readptr) ++ window rb.buffer 0 rb.writeptr

theorem content_ordered {rb : RingBuffer} (order : rb.readptr ≤ rb.writeptr) :
    rb.content = window rb.buffer rb.readptr (rb.writeptr - rb.readptr) := if_pos order

theorem content_wrapped {rb : RingBuffer} (order : rb.writeptr < rb.readptr) :
    rb.content = window rb.buffer rb.readptr (rb.capacity - rb.readptr) ++
      window rb.buffer 0 rb.writeptr := if_neg (by omega)

/-- Both pointers may rest on the end; one slot always stays free. -/
structure Valid (rb : RingBuffer) : Prop where
  room : ringbufferMinLength < rb.capacity
  limit : rb.capacity ≤ ringbufferMaxLength + 1
  read_le : rb.readptr ≤ rb.capacity
  write_le : rb.writeptr ≤ rb.capacity
  gap : rb.readptr ≤ rb.writeptr → rb.writeptr - rb.readptr < rb.capacity

theorem clampLength_bounds (len : Nat) :
    ringbufferMinLength ≤ clampLength len ∧ clampLength len ≤ ringbufferMaxLength := by
  unfold clampLength
  split
  · exact ⟨by decide, Nat.le_refl _⟩
  · split <;> constructor <;> simp only [ringbufferMinLength, ringbufferMaxLength] at * <;>
      omega

theorem construct_valid (len : Nat) (garbage : Nat → Byte) : (construct len garbage).Valid := by
  obtain ⟨lo, hi⟩ := clampLength_bounds len
  refine ⟨?_, ?_, ?_, ?_, ?_⟩ <;> simp only [construct, clear] <;> omega

theorem clear_valid {rb : RingBuffer} (h : rb.Valid) : rb.clear.Valid := by
  obtain ⟨room, limit, _, _, _⟩ := h
  refine ⟨room, limit, ?_, ?_, ?_⟩ <;> simp only [clear, ringbufferMinLength] at * <;> omega

@[simp] theorem clear_content (rb : RingBuffer) : rb.clear.content = [] := by
  simp [clear, content]

@[simp] theorem clear_capacity (rb : RingBuffer) : rb.clear.capacity = rb.capacity := rfl

theorem content_length (rb : RingBuffer) :
    rb.content.length = if rb.readptr ≤ rb.writeptr then rb.writeptr - rb.readptr
      else rb.capacity - rb.readptr + rb.writeptr := by
  split_ifs with order
  · simp [content_ordered order]
  · simp [content_wrapped (Nat.lt_of_not_le order)]

theorem contentLength_lt {rb : RingBuffer} (h : rb.Valid) : rb.content.length < rb.capacity := by
  obtain ⟨room, _, _, _, gap⟩ := h
  rw [content_length]
  split_ifs <;> omega

theorem space_eq {rb : RingBuffer} (h : rb.Valid) :
    rb.space = rb.capacity - 1 - rb.content.length := by
  have hlt := contentLength_lt h
  rw [content_length] at *
  obtain ⟨room, limit, read_le, write_le, gap⟩ := h
  simp only [ringbufferMaxLength, ringbufferMinLength] at *
  simp only [space]
  split_ifs at * <;> apply sizeT_eq <;> omega

theorem size_eq {rb : RingBuffer} (h : rb.Valid) : rb.size = rb.content.length := by
  have hlt := contentLength_lt h
  have hs := space_eq h
  obtain ⟨_, limit, _, _, _⟩ := h
  simp only [ringbufferMaxLength] at *
  rw [size, hs]
  apply sizeT_eq <;> omega

theorem isFull_iff {rb : RingBuffer} : rb.isFull = true ↔ rb.space = 0 := by
  simp [isFull]

theorem isEmpty_iff {rb : RingBuffer} : rb.isEmpty = true ↔ rb.readptr = rb.writeptr := by
  simp [isEmpty]

theorem offset_eq {rb : RingBuffer} (h : rb.Valid) {p : Nat} (hp : p ≤ rb.capacity) :
    sizeT (rb.capacity - p : Int) = rb.capacity - p := by
  obtain ⟨_, limit, _, _, _⟩ := h
  simp only [ringbufferMaxLength] at limit
  apply sizeT_eq <;> omega

/-- `rb'` stores `bytes` behind what `rb` stores, in the same allocation. -/
structure Appended (rb rb' : RingBuffer) (bytes : Bytes) : Prop where
  valid : rb'.Valid
  content : rb'.content = rb.content ++ bytes
  capacity : rb'.capacity = rb.capacity
  readptr : rb'.readptr = rb.readptr

/-- A block that fits right of the write pointer. -/
theorem append_right {rb : RingBuffer} (h : rb.Valid) (order : rb.readptr ≤ rb.writeptr)
    (bytes : Bytes) (fits : bytes.length ≤ rb.capacity - rb.writeptr)
    (free : bytes.length ≤ rb.capacity - 1 - rb.content.length) :
    ∃ rb', rb.copyIn rb.writeptr bytes = some rb' ∧ rb'.writeptr = rb.writeptr ∧
      Appended rb { rb' with writeptr := rb.writeptr + bytes.length } bytes := by
  have hlen := content_length rb
  rw [if_pos order] at hlen
  obtain ⟨room, limit, read_le, write_le, gap⟩ := h
  refine ⟨{ rb with buffer := paste rb.buffer rb.writeptr bytes }, ?_, rfl, ?_, ?_, rfl, rfl⟩
  · simp only [copyIn]
    rw [if_pos (by omega)]
  · exact ⟨room, limit, read_le, by simp only; omega, by simp only; omega⟩
  · have after : rb.readptr ≤ rb.writeptr + bytes.length := by omega
    rw [content_ordered after, content_ordered order]
    have split : rb.writeptr + bytes.length - rb.readptr =
        rb.writeptr - rb.readptr + bytes.length := by omega
    rw [split]
    exact window_paste_append _ order _

/-- A block that fills the right end of the allocation and continues at its start. -/
theorem append_split {rb : RingBuffer} (h : rb.Valid) (order : rb.readptr ≤ rb.writeptr)
    (tail head : Bytes) (fills : tail.length = rb.capacity - rb.writeptr)
    (free : tail.length + head.length ≤ rb.capacity - 1 - rb.content.length) :
    ∃ rb₁ rb₂, rb.copyIn rb.writeptr tail = some rb₁ ∧ rb₁.copyIn 0 head = some rb₂ ∧
      Appended rb { rb₂ with writeptr := head.length } (tail ++ head) ∧
      head.length < rb.readptr := by
  have hlen := content_length rb
  rw [if_pos order] at hlen
  obtain ⟨room, limit, read_le, write_le, gap⟩ := h
  have below : head.length < rb.readptr := by have := gap order; omega
  refine ⟨{ rb with buffer := paste rb.buffer rb.writeptr tail },
    { rb with buffer := paste (paste rb.buffer rb.writeptr tail) 0 head }, ?_, ?_,
    ⟨?_, ?_, rfl, rfl⟩, below⟩
  · simp only [copyIn]
    rw [if_pos (by omega)]
  · simp only [copyIn]
    rw [if_pos (by omega)]
  · exact ⟨room, limit, read_le, by simp only; omega, by simp only; omega⟩
  · rw [content_wrapped below, content_ordered order]
    have split : rb.capacity - rb.readptr = rb.writeptr - rb.readptr + tail.length := by omega
    have front : window (paste (paste rb.buffer rb.writeptr tail) 0 head) 0 head.length = head :=
      window_paste_same _ _ _
    have apart : rb.readptr + (rb.capacity - rb.readptr) ≤ 0 ∨ 0 + head.length ≤ rb.readptr :=
      Or.inr (by omega)
    rw [front, window_paste_disjoint _ _ _ _ _ apart, split]
    rw [window_paste_append _ order, List.append_assoc]

/-- A block at the start of the allocation when the write pointer rests on its end. -/
theorem append_start {rb : RingBuffer} (h : rb.Valid) (atEnd : rb.writeptr = rb.capacity)
    (bytes : Bytes) (free : bytes.length ≤ rb.capacity - 1 - rb.content.length) :
    ∃ rb', rb.copyIn 0 bytes = some rb' ∧
      Appended rb { rb' with writeptr := bytes.length } bytes := by
  have order : rb.readptr ≤ rb.writeptr := atEnd ▸ h.read_le
  have nothing : rb.copyIn rb.writeptr [] = some rb := by
    simp [copyIn, h.write_le]
  obtain ⟨rb₁, rb₂, copied₁, copied₂, spec, _⟩ := append_split h order
    [] bytes (by simp [atEnd]) (by simpa using free)
  obtain rfl : rb = rb₁ := Option.some.inj (nothing.symm.trans copied₁)
  exact ⟨rb₂, copied₂, by simpa using spec⟩

/-- A block behind a wrapped write pointer. -/
theorem append_wrapped {rb : RingBuffer} (h : rb.Valid) (order : rb.writeptr < rb.readptr)
    (bytes : Bytes) (free : bytes.length ≤ rb.capacity - 1 - rb.content.length) :
    ∃ rb', rb.copyIn rb.writeptr bytes = some rb' ∧ rb'.writeptr = rb.writeptr ∧
      Appended rb { rb' with writeptr := rb.writeptr + bytes.length } bytes ∧
      rb.writeptr + bytes.length < rb.readptr := by
  have hlen := content_length rb
  rw [if_neg (by omega)] at hlen
  obtain ⟨room, limit, read_le, write_le, gap⟩ := h
  have below : rb.writeptr + bytes.length < rb.readptr := by omega
  refine ⟨{ rb with buffer := paste rb.buffer rb.writeptr bytes }, ?_, rfl,
    ⟨?_, ?_, rfl, rfl⟩, below⟩
  · simp only [copyIn]
    rw [if_pos (by omega)]
  · exact ⟨room, limit, read_le, by simp only; omega, by simp only; omega⟩
  · have apart : rb.readptr + (rb.capacity - rb.readptr) ≤ rb.writeptr ∨
        rb.writeptr + bytes.length ≤ rb.readptr := Or.inr (by omega)
    rw [content_wrapped below, content_wrapped order, window_paste_disjoint _ _ _ _ _ apart,
      List.append_assoc]
    congr 1
    simpa using window_paste_append rb.buffer (Nat.zero_le rb.writeptr) bytes

/-- Stored bytes that lie at consecutive addresses from the read pointer on. -/
def straight (rb : RingBuffer) : Nat :=
  if rb.readptr < rb.writeptr then rb.writeptr - rb.readptr else rb.capacity - rb.readptr

/-- The ring with the read pointer moved `k` addresses on, not wrapped. -/
def advance (rb : RingBuffer) (k : Nat) : RingBuffer := { rb with readptr := rb.readptr + k }

theorem straight_take {rb : RingBuffer} (occupied : rb.readptr ≠ rb.writeptr) {k : Nat}
    (hk : k ≤ rb.straight) : window rb.buffer rb.readptr k = rb.content.take k := by
  simp only [straight] at hk
  split_ifs at hk with order
  · rw [content_ordered (Nat.le_of_lt order), window_take, Nat.min_eq_left hk]
  · rw [content_wrapped (by omega), List.take_append_of_le_length (by simpa using hk),
      window_take, Nat.min_eq_left hk]

theorem advance_valid {rb : RingBuffer} (h : rb.Valid) {k : Nat}
    (hk : k ≤ rb.straight) : (rb.advance k).Valid := by
  obtain ⟨room, limit, read_le, write_le, gap⟩ := h
  simp only [straight] at hk
  refine ⟨room, limit, ?_, write_le, ?_⟩ <;> simp only [advance] <;> split_ifs at hk <;> omega

theorem advance_content {rb : RingBuffer} (occupied : rb.readptr ≠ rb.writeptr)
    {k : Nat} (hk : k ≤ rb.straight) : (rb.advance k).content = rb.content.drop k := by
  simp only [straight] at hk
  split_ifs at hk with order
  · have after : (rb.advance k).readptr ≤ (rb.advance k).writeptr := by
      simp only [advance]
      omega
    rw [content_ordered after, content_ordered (Nat.le_of_lt order), window_drop]
    simp only [advance, Nat.sub_sub]
  · have after : (rb.advance k).writeptr < (rb.advance k).readptr := by
      simp only [advance]
      omega
    rw [content_wrapped after, content_wrapped (by omega),
      List.drop_append_of_le_length (by simpa using hk), window_drop]
    simp only [advance, Nat.sub_sub]

/-- The ring with the read pointer taken from the end of the allocation to its start. -/
def rewind (rb : RingBuffer) : RingBuffer := { rb with readptr := 0 }

theorem rewind_valid {rb : RingBuffer} (h : rb.Valid) (inside : rb.writeptr < rb.capacity) :
    rb.rewind.Valid := by
  obtain ⟨room, limit, _, write_le, _⟩ := h
  refine ⟨room, limit, ?_, write_le, ?_⟩ <;> simp only [rewind] <;> omega

/-- Wrapping keeps the stored bytes unless the write pointer rests on the end, too. -/
theorem rewind_content {rb : RingBuffer} (atEnd : rb.readptr = rb.capacity)
    (inside : rb.writeptr < rb.capacity) : rb.rewind.content = rb.content := by
  rw [content_ordered (Nat.zero_le _), content_wrapped (by omega), atEnd]
  simp [rewind]

theorem writeIn_full {rb : RingBuffer} (full : rb.space = 0) (buf : Bytes) :
    rb.writeIn buf = some (0, rb) := by
  simp [writeIn, isFull, full]

theorem writeIn_noData {rb : RingBuffer} (free : rb.space ≠ 0) :
    rb.writeIn [] = some (ringbufferNoData, rb) := by
  simp [writeIn, isFull, free]

/-- A nonempty write appends what fits, and nothing leaves the allocation. -/
theorem writeIn_spec {rb : RingBuffer} (h : rb.Valid) {buf : Bytes} (free : rb.space ≠ 0)
    (data : buf ≠ []) :
    ∃ rb', rb.writeIn buf = some (((min buf.length rb.space : Nat) : Int), rb') ∧
      Appended rb rb' (buf.take rb.space) ∧ 0 < rb'.writeptr := by
  have hspace := space_eq h
  have hright := offset_eq h h.write_le
  have hlen : (if rb.space < buf.length then rb.space else buf.length) =
      min buf.length rb.space := by
    split_ifs <;> omega
  have htake : buf.take (min buf.length rb.space) = buf.take rb.space := by
    rw [Nat.min_comm, ← List.take_take, List.take_length]
  have hdata : buf.length ≠ 0 := by simpa using data
  have hfull : rb.isFull = false := by simp [isFull, free]
  have blockLen : (buf.take rb.space).length = min buf.length rb.space := by
    rw [List.length_take, Nat.min_comm]
  simp only [writeIn, hfull, hlen, hdata, hright, htake, Bool.false_eq_true, if_false]
  by_cases order : rb.readptr ≤ rb.writeptr
  · rw [if_pos order]
    by_cases fits : min buf.length rb.space ≤ rb.capacity - rb.writeptr
    · obtain ⟨rb', copied, same, spec⟩ := append_right h order
        (buf.take rb.space) (by omega) (by omega)
      rw [if_pos fits, copied]
      refine ⟨_, rfl, ?_, by simp only; omega⟩
      rw [same, ← blockLen]
      exact spec
    · have tailLen : (buf.take (rb.capacity - rb.writeptr)).length = rb.capacity - rb.writeptr := by
        rw [List.length_take]
        omega
      have headLen : ((buf.drop (rb.capacity - rb.writeptr)).take
          (min buf.length rb.space - (rb.capacity - rb.writeptr))).length =
          min buf.length rb.space - (rb.capacity - rb.writeptr) := by
        rw [List.length_take, List.length_drop]
        omega
      obtain ⟨rb₁, rb₂, copied₁, copied₂, spec, _⟩ :=
        append_split h order _ _ tailLen (by rw [headLen, tailLen]; omega)
      rw [if_neg fits, copied₁]
      simp only [Option.bind_eq_bind, Option.bind_some, copied₂]
      refine ⟨_, rfl, ?_, by simp only; omega⟩
      have joined : buf.take (rb.capacity - rb.writeptr) ++
          (buf.drop (rb.capacity - rb.writeptr)).take
            (min buf.length rb.space - (rb.capacity - rb.writeptr)) = buf.take rb.space := by
        rw [← List.take_add, show rb.capacity - rb.writeptr +
          (min buf.length rb.space - (rb.capacity - rb.writeptr)) =
          min buf.length rb.space by omega, htake]
      rw [headLen, joined] at spec
      exact spec
  · obtain ⟨rb', copied, same, spec, _⟩ := append_wrapped h (by omega)
      (buf.take rb.space) (by omega)
    rw [if_neg order, copied]
    refine ⟨_, rfl, ?_, by simp only; omega⟩
    rw [same, ← blockLen]
    exact spec

/-- One read into the ring, at an address where blocks up to `len` can be appended. -/
theorem fillAt_spec {rb : RingBuffer} (h : rb.Valid) (file : File) (off len : Nat)
    (rd : ReadResult)
    (block : ∀ bytes : Bytes, bytes.length ≤ len → ∃ rb', rb.copyIn off bytes = some rb' ∧
      Appended rb { rb' with writeptr := off + bytes.length } bytes) :
    ∃ ret rb' file' bytes, rb.fillAt file off len rd = some (ret, rb', file') ∧
      Appended rb rb' bytes ∧ bytes.length ≤ len ∧
      (0 ≤ ret → ret = bytes.length ∧ rb'.writeptr = off + bytes.length ∧
        file.continuousReadOut len rd = (ret, bytes, file')) := by
  obtain ⟨ret, bytes, file', read⟩ : ∃ ret bytes file',
    file.continuousReadOut len rd = (ret, bytes, file') := ⟨_, _, _, rfl⟩
  obtain ⟨short, counts⟩ := File.continuousReadOut_counts read
  rw [fillAt, read]
  by_cases error : ret < 0
  · refine ⟨ret, rb, file', [], by simp [error], ?_, Nat.zero_le _,
      fun nonneg => absurd error (by omega)⟩
    exact ⟨h, (List.append_nil _).symm, rfl, rfl⟩
  · obtain ⟨rb', copied, appended⟩ := block bytes short
    refine ⟨ret, { rb' with writeptr := off + bytes.length }, file', bytes, ?_, appended,
      short, fun nonneg => ⟨counts nonneg, rfl, rfl⟩⟩
    simp [error, copied]

theorem Appended.trans {rb rb₁ rb₂ : RingBuffer} {xs ys : Bytes} (first : Appended rb rb₁ xs)
    (second : Appended rb₁ rb₂ ys) : Appended rb rb₂ (xs ++ ys) :=
  ⟨second.valid, by rw [second.content, first.content, List.append_assoc],
    second.capacity.trans first.capacity, second.readptr.trans first.readptr⟩

/-- The right block and, when the read pointer is off the start, the left one. -/
theorem fill_blocks {rb : RingBuffer} (h : rb.Valid) (order : rb.readptr ≤ rb.writeptr) :
    ∃ right left : Nat,
      (if 0 ≤ (rb.readptr - 1 : Int) then (rb.capacity - rb.writeptr : Int)
        else rb.capacity - rb.writeptr - 1) = right ∧
      (if 0 ≤ (rb.readptr - 1 : Int) then (rb.readptr - 1 : Int) else 0) = left ∧
      right + left = rb.space ∧ (0 < left → right = rb.capacity - rb.writeptr) ∧
      right ≤ rb.capacity - rb.writeptr ∧ (right = 0 → rb.space = 0 ∨
        rb.writeptr = rb.capacity) := by
  have hspace := space_eq h
  have hlen := content_length rb
  have hgap := h.gap order
  have hwrite := h.write_le
  rw [if_pos order] at hlen
  by_cases start : rb.readptr = 0
  · exact ⟨rb.capacity - rb.writeptr - 1, 0, by split_ifs <;> omega,
      by split_ifs <;> omega, by omega, by omega, by omega, by omega⟩
  · exact ⟨rb.capacity - rb.writeptr, rb.readptr - 1, by split_ifs <;> omega,
      by split_ifs <;> omega, by omega, by omega, by omega, by omega⟩

/-- Whatever the two reads return, the ring appends the bytes they delivered. -/
theorem writeInFromFile_spec {rb : RingBuffer} (h : rb.Valid) (file : File)
    (rd₁ rd₂ : ReadResult) :
    ∃ ret rb' file' bytes, rb.writeInFromFile file rd₁ rd₂ = some (ret, rb', file') ∧
      Appended rb rb' bytes ∧
      (0 ≤ ret → File.ReadsOut (fun r => r = rd₁ ∨ r = rd₂) file bytes file') := by
  have hspace := space_eq h
  have hlen := content_length rb
  by_cases full : rb.isFull = true
  · exact ⟨0, rb, file, [], by rw [writeInFromFile, if_pos full],
      ⟨h, (List.append_nil _).symm, rfl, rfl⟩, fun _ => .nothing file⟩
  rw [writeInFromFile, if_neg full]
  by_cases order : rb.readptr ≤ rb.writeptr
  · rw [if_pos order] at hlen ⊢
    have hgap := h.gap order
    have hwrite := h.write_le
    have hlimit := h.limit
    simp only [ringbufferMaxLength] at hlimit
    obtain ⟨right, left, rightIs, leftIs, fits⟩ := fill_blocks h order
    dsimp only
    rw [rightIs, leftIs, sizeT_natCast (by omega), sizeT_natCast (by omega)]
    obtain ⟨ret, rb₁, file₁, bytes₁, first, appended₁, most, count₁⟩ :=
      fillAt_spec h file rb.writeptr right rd₁ (by
        intro bytes short
        obtain ⟨rb', copied, _, spec⟩ := append_right h order bytes (by omega) (by omega)
        exact ⟨rb', copied, spec⟩)
    rw [first]
    simp only [Option.bind_eq_bind, Option.bind_some]
    split_ifs with error short wrap
    · exact ⟨_, _, _, bytes₁, rfl, appended₁, fun nonneg => absurd nonneg (by decide)⟩
    · obtain ⟨_, _, read⟩ := count₁ (by omega)
      exact ⟨_, _, _, bytes₁, rfl, appended₁, fun nonneg => .once (Or.inl rfl) read nonneg⟩
    · obtain ⟨all, behind, read⟩ := count₁ (by omega)
      have atEnd : rb₁.writeptr = rb₁.capacity := by
        rw [behind, appended₁.capacity]
        omega
      have used := congrArg List.length appended₁.content
      rw [List.length_append] at used
      obtain ⟨ret₂, rb₂, file₂, bytes₂, second, appended₂, _, count₂⟩ :=
        fillAt_spec appended₁.valid file₁ 0 left rd₂ (by
          intro bytes short
          have := appended₁.capacity
          obtain ⟨rb', copied, spec⟩ := append_start appended₁.valid atEnd bytes (by omega)
          exact ⟨rb', copied, by simpa using spec⟩)
      rw [second]
      simp only [Option.bind_some]
      split_ifs with error₂ short₂
      · exact ⟨_, _, _, bytes₁ ++ bytes₂, rfl, appended₁.trans appended₂,
          fun nonneg => absurd nonneg (by decide)⟩
      all_goals
        obtain ⟨_, _, read₂⟩ := count₂ (by omega)
        exact ⟨_, _, _, bytes₁ ++ bytes₂, rfl, appended₁.trans appended₂, fun _ =>
          .further (Or.inl rfl) read (by omega) (.once (Or.inr rfl) read₂ (by omega))⟩
    · obtain ⟨_, _, read⟩ := count₁ (by omega)
      exact ⟨_, _, _, bytes₁, rfl, appended₁, fun _ => .once (Or.inl rfl) read (by omega)⟩
  · rw [if_neg order] at hlen ⊢
    obtain ⟨ret, rb₁, file₁, bytes₁, first, appended₁, _, count₁⟩ :=
      fillAt_spec h file rb.writeptr rb.space rd₁ (by
        intro bytes short
        obtain ⟨rb', copied, _, spec, _⟩ := append_wrapped h (by omega) bytes (by omega)
        exact ⟨rb', copied, spec⟩)
    rw [first]
    simp only [Option.bind_eq_bind, Option.bind_some]
    split_ifs with error short
    · exact ⟨_, _, _, bytes₁, rfl, appended₁, fun nonneg => absurd nonneg (by decide)⟩
    all_goals
      obtain ⟨_, _, read⟩ := count₁ (by omega)
      exact ⟨_, _, _, bytes₁, rfl, appended₁, fun _ => .once (Or.inl rfl) read (by omega)⟩

theorem writeIn_valid {rb rb' : RingBuffer} (h : rb.Valid) {buf : Bytes} {ret : Int}
    (result : rb.writeIn buf = some (ret, rb')) : rb'.Valid := by
  by_cases full : rb.space = 0
  · rw [writeIn_full full] at result
    cases result
    exact h
  by_cases data : buf = []
  · subst data
    rw [writeIn_noData full] at result
    cases result
    exact h
  · obtain ⟨rb'', written, appended, _⟩ := writeIn_spec h full data
    rw [written] at result
    cases result
    exact appended.valid

/-- `rb'` stores what `rb` stores except its first `n` bytes. -/
structure Removed (rb rb' : RingBuffer) (n : Nat) : Prop where
  valid : rb'.Valid
  content : rb'.content = rb.content.drop n
  capacity : rb'.capacity = rb.capacity
  writeptr : rb'.writeptr = rb.writeptr

theorem advance_removed {rb : RingBuffer} (h : rb.Valid) (occupied : rb.readptr ≠ rb.writeptr)
    {k : Nat} (hk : k ≤ rb.straight) : Removed rb (rb.advance k) k :=
  ⟨advance_valid h hk, advance_content occupied hk, rfl, rfl⟩

/-- Data that continues at the start of the allocation is read in two pieces. -/
theorem removed_split {rb : RingBuffer} (h : rb.Valid) (order : rb.writeptr < rb.readptr)
    {k : Nat} (hk : k ≤ rb.writeptr) :
    Removed rb { rb with readptr := k } (rb.capacity - rb.readptr + k) ∧
      window rb.buffer rb.readptr (rb.capacity - rb.readptr) ++ window rb.buffer 0 k =
        rb.content.take (rb.capacity - rb.readptr + k) := by
  have tailLen : (window rb.buffer rb.readptr (rb.capacity - rb.readptr)).length =
      rb.capacity - rb.readptr := window_length _ _ _
  have joined := content_wrapped order
  obtain ⟨room, limit, read_le, write_le, gap⟩ := h
  refine ⟨⟨⟨room, limit, ?_, write_le, ?_⟩, ?_, rfl, rfl⟩, ?_⟩
  · simp only
    omega
  · simp only
    omega
  · rw [joined, ← List.drop_drop, List.drop_left' tailLen, window_drop,
      content_ordered hk, Nat.zero_add]
  · rw [joined, List.take_append, tailLen, List.take_of_length_le (by omega), window_take]
    congr 2
    omega

/-- A nonempty request removes and hands out the first stored bytes. -/
theorem readOut_spec {rb : RingBuffer} (h : rb.Valid) (occupied : rb.readptr ≠ rb.writeptr)
    {len : Nat} (some_asked : len ≠ 0) :
    ∃ rb', rb.readOut len = some (((min len rb.content.length : Nat) : Int),
      rb.content.take len, rb') ∧ Removed rb rb' (min len rb.content.length) := by
  have hempty : rb.isEmpty = false := by simp [isEmpty, occupied]
  have hreadn : (if rb.size < len then rb.size else len) = min len rb.content.length := by
    rw [size_eq h]
    split_ifs <;> omega
  have htake : rb.content.take (min len rb.content.length) = rb.content.take len := by
    rw [← List.take_take, List.take_length]
  have hlen := content_length rb
  have hright := offset_eq h h.read_le
  simp only [readOut, hempty, hreadn, some_asked, hright, Bool.false_eq_true, if_false]
  by_cases order : rb.readptr < rb.writeptr
  · rw [if_pos (Nat.le_of_lt order)] at hlen
    have hk : min len rb.content.length ≤ rb.straight := by
      rw [straight, if_pos order]
      omega
    have inside := (advance_valid h hk).read_le
    simp only [advance] at inside
    rw [if_pos order, copyOut, if_pos inside, straight_take occupied hk, htake]
    exact ⟨_, rfl, advance_removed h occupied hk⟩
  · rw [if_neg (by omega)] at hlen
    rw [if_neg order]
    by_cases fits : min len rb.content.length ≤ rb.capacity - rb.readptr
    · have hk : min len rb.content.length ≤ rb.straight := by rwa [straight, if_neg order]
      have inside := (advance_valid h hk).read_le
      simp only [advance] at inside
      rw [if_pos fits, copyOut, if_pos inside, straight_take occupied hk, htake]
      exact ⟨_, rfl, advance_removed h occupied hk⟩
    · have hread := h.read_le
      have hwrite := h.write_le
      obtain ⟨removed, joined⟩ := removed_split h (show rb.writeptr < rb.readptr by omega)
        (k := min len rb.content.length - (rb.capacity - rb.readptr)) (by omega)
      have total : rb.capacity - rb.readptr +
          (min len rb.content.length - (rb.capacity - rb.readptr)) =
          min len rb.content.length := by omega
      rw [total] at removed joined
      rw [htake] at joined
      rw [if_neg fits, copyOut, if_pos (by omega), copyOut, if_pos (by omega)]
      refine ⟨_, ?_, removed⟩
      simp only [Option.bind_eq_bind, Option.bind_some, joined]

theorem readOut_empty {rb : RingBuffer} (same : rb.readptr = rb.writeptr) (len : Nat) :
    rb.readOut len = some (0, [], rb) := by
  simp [readOut, isEmpty, same]

theorem readOut_noSpace {rb : RingBuffer} (occupied : rb.readptr ≠ rb.writeptr) :
    rb.readOut 0 = some (ringbufferNoSpace, [], rb) := by
  simp [readOut, isEmpty, occupied]

theorem readOut_valid {rb rb' : RingBuffer} (h : rb.Valid) {len : Nat} {ret : Int}
    {bytes : Bytes} (result : rb.readOut len = some (ret, bytes, rb')) : rb'.Valid := by
  by_cases same : rb.readptr = rb.writeptr
  · rw [readOut_empty same] at result
    cases result
    exact h
  by_cases asked : len = 0
  · subst asked
    rw [readOut_noSpace same] at result
    cases result
    exact h
  · obtain ⟨rb'', taken, removed⟩ := readOut_spec h same asked
    rw [taken] at result
    cases result
    exact removed.valid

/-- After 1024 bytes written, two read and one written, the write pointer rests on the end. -/
theorem exists_resting : ∃ rb₁ rb₂ rb₃ : RingBuffer,
    (∃ block ret, (construct 1024 fun _ => 0).writeIn block = some (ret, rb₁)) ∧
      (∃ ret bytes, rb₁.readOut 2 = some (ret, bytes, rb₂)) ∧
      (∃ ret, rb₂.writeIn [0] = some (ret, rb₃)) ∧
      rb₃.readptr = 2 ∧ rb₃.writeptr = rb₃.capacity ∧ rb₃.isFull = false := by
  obtain ⟨block, filled⟩ : ∃ block : Bytes, block.length = 1024 :=
    ⟨List.replicate 1024 0, List.length_replicate⟩
  have nonempty : block ≠ [] := fun e => by
    rw [e] at filled
    exact absurd filled (by decide)
  have valid₀ := construct_valid 1024 fun _ => 0
  obtain ⟨rb₁, written₁, appended₁, _⟩ := writeIn_spec valid₀ (by decide) nonempty
  have len₁ : rb₁.content.length = 1024 := by
    rw [appended₁.content, show (construct 1024 fun _ => 0).space = 1024 from by decide,
      List.length_append, List.length_take, filled]
    rfl
  have at₁ : rb₁.readptr = 0 ∧ rb₁.writeptr = 1024 ∧ rb₁.capacity = 1025 := by
    have start : rb₁.readptr = 0 := appended₁.readptr
    have same := content_length rb₁
    rw [if_pos (by omega)] at same
    exact ⟨start, by omega, appended₁.capacity⟩
  obtain ⟨rb₂, read₂, removed₂⟩ := readOut_spec appended₁.valid (by omega) (Nat.succ_ne_zero 1)
  have len₂ : rb₂.content.length = 1022 := by
    rw [removed₂.content, List.length_drop, len₁]
    rfl
  have at₂ : rb₂.readptr = 2 ∧ rb₂.writeptr = 1024 ∧ rb₂.capacity = 1025 := by
    have cap := removed₂.capacity
    have write := removed₂.writeptr
    have inside := removed₂.valid.read_le
    have same := content_length rb₂
    split_ifs at same <;> omega
  have space₂ := space_eq removed₂.valid
  obtain ⟨rb₃, written₃, appended₃, behind⟩ := writeIn_spec removed₂.valid
    (show rb₂.space ≠ 0 by omega) (show ([0] : Bytes) ≠ [] by simp)
  have len₃ : rb₃.content.length = 1023 := by
    rw [appended₃.content, List.length_append, List.length_take, len₂, space₂, len₂, at₂.2.2]
    rfl
  have at₃ : rb₃.readptr = 2 ∧ rb₃.writeptr = rb₃.capacity := by
    have cap := appended₃.capacity
    have read := appended₃.readptr
    have same := content_length rb₃
    split_ifs at same <;> omega
  refine ⟨rb₁, rb₂, rb₃, ⟨_, _, written₁⟩, ⟨_, _, read₂⟩, ⟨_, written₃⟩, at₃.1, at₃.2, ?_⟩
  have space₃ := space_eq appended₃.valid
  have cap : rb₃.capacity = 1025 := appended₃.capacity.trans at₂.2.2
  rw [isFull, beq_eq_false_iff_ne]
  omega

end RingBuffer
