import Tigerso.FifoQueue
import Tigerso.RingBuffer

/-!
# The ring buffer refines a bounded queue

Every sequence of `writeIn`, `readOut` and `clear` on a newly constructed ring
gives the replies of a bounded queue, and no copy leaves the allocation. The
queue's replies include the two codes that the source returns for an empty
request: those are replies of the interface, not counts of bytes.
-/

open SystemCalls

namespace RingFifo

inductive Op where
  | writeIn (buf : Bytes)
  | readOut (len : Nat)
  | clear

/-- The return value and the bytes handed to the caller. -/
structure Reply where
  ret : Int
  bytes : Bytes
  deriving DecidableEq

def exec (rb : RingBuffer) : Op → Option (Reply × RingBuffer)
  | .writeIn buf => (rb.writeIn buf).map fun (ret, rb) => (⟨ret, []⟩, rb)
  | .readOut len => (rb.readOut len).map fun (ret, bytes, rb) => (⟨ret, bytes⟩, rb)
  | .clear => some (⟨0, []⟩, rb.clear)

def execAll (rb : RingBuffer) : List Op → Option (List Reply × RingBuffer)
  | [] => some ([], rb)
  | op :: ops => do
    let (reply, rb) ← exec rb op
    let (replies, rb) ← execAll rb ops
    some (reply :: replies, rb)

def answer (q : FifoQueue Byte) : Op → Reply
  | .writeIn buf =>
    if q.room = 0 then ⟨0, []⟩
    else if buf = [] then ⟨ringbufferNoData, []⟩
    else ⟨(min buf.length q.room : Nat), []⟩
  | .readOut len =>
    if q.items = [] then ⟨0, []⟩
    else if len = 0 then ⟨ringbufferNoSpace, []⟩
    else ⟨(min len q.items.length : Nat), q.front len⟩
  | .clear => ⟨0, []⟩

def next (q : FifoQueue Byte) : Op → FifoQueue Byte
  | .writeIn buf => q.push buf
  | .readOut len => q.pop len
  | .clear => .empty q.limit

def answers (q : FifoQueue Byte) : List Op → List Reply
  | [] => []
  | op :: ops => answer q op :: answers (next q op) ops

/-- The ring holds the queue's items. A write pointer at offset 0 means that
nothing was written since the last clear. -/
structure Represents (rb : RingBuffer) (q : FifoQueue Byte) : Prop where
  valid : rb.Valid
  fresh : rb.writeptr = 0 → rb.readptr = 0
  items : rb.content = q.items
  limit : rb.capacity = q.limit + 1

section
variable {rb : RingBuffer} {q : FifoQueue Byte}

theorem Represents.space (h : Represents rb q) : rb.space = q.room := by
  rw [RingBuffer.space_eq h.valid, h.items, h.limit]
  simp [FifoQueue.room]

theorem Represents.size (h : Represents rb q) : rb.size = q.items.length := by
  rw [RingBuffer.size_eq h.valid, h.items]

/-- Equal pointers are the only representation of the empty queue. -/
theorem Represents.empty_iff (h : Represents rb q) :
    rb.readptr = rb.writeptr ↔ q.items = [] := by
  have hlen := RingBuffer.content_length rb
  rw [h.items] at hlen
  have hfresh := h.fresh
  have hread := h.valid.read_le
  constructor
  · intro same
    rw [if_pos (Nat.le_of_eq same)] at hlen
    exact List.length_eq_zero_iff.mp (by omega)
  · intro none_left
    rw [none_left, List.length_nil] at hlen
    split_ifs at hlen with order <;> omega

theorem construct_represents (len : Nat) (garbage : Nat → Byte) :
    Represents (.construct len garbage) (.empty (RingBuffer.clampLength len)) :=
  ⟨RingBuffer.construct_valid len garbage, fun _ => rfl, RingBuffer.clear_content _, rfl⟩

/-- A write appends what finds room. -/
theorem exec_writeIn (h : Represents rb q) (buf : Bytes) :
    ∃ rb', exec rb (.writeIn buf) = some (answer q (.writeIn buf), rb') ∧
      Represents rb' (next q (.writeIn buf)) := by
  have hspace := h.space
  by_cases full : q.room = 0
  · have same : q.push buf = q := by ext1 <;> simp [FifoQueue.push, full]
    refine ⟨rb, ?_, by simpa only [next, same] using h⟩
    simp [exec, answer, full, RingBuffer.writeIn_full (hspace.trans full)]
  · by_cases data : buf = []
    · subst data
      have same : q.push [] = q := by ext1 <;> simp [FifoQueue.push]
      refine ⟨rb, ?_, by simpa only [next, same] using h⟩
      simp [exec, answer, full, RingBuffer.writeIn_noData (hspace.trans_ne full)]
    · obtain ⟨rb', result, appended, behind⟩ :=
        RingBuffer.writeIn_spec h.valid (hspace.trans_ne full) data
      refine ⟨rb', by simp [exec, answer, full, data, result, hspace], appended.valid, ?_, ?_, ?_⟩
      · intro atStart
        omega
      · rw [appended.content, h.items, hspace]
        rfl
      · rw [appended.capacity, h.limit]
        rfl

/-- A read takes from the front. -/
theorem exec_readOut (h : Represents rb q) (len : Nat) :
    ∃ rb', exec rb (.readOut len) = some (answer q (.readOut len), rb') ∧
      Represents rb' (next q (.readOut len)) := by
  by_cases drained : q.items = []
  · have same : q.pop len = q := by ext1 <;> simp [FifoQueue.pop, drained]
    refine ⟨rb, ?_, by simpa only [next, same] using h⟩
    simp [exec, answer, drained, RingBuffer.readOut_empty (h.empty_iff.mpr drained)]
  · have occupied : rb.readptr ≠ rb.writeptr := fun e => drained (h.empty_iff.mp e)
    by_cases asked : len = 0
    · subst asked
      have same : q.pop 0 = q := by ext1 <;> simp [FifoQueue.pop]
      refine ⟨rb, ?_, by simpa only [next, same] using h⟩
      simp [exec, answer, drained, RingBuffer.readOut_noSpace occupied]
    · obtain ⟨rb', result, removed⟩ := RingBuffer.readOut_spec h.valid occupied asked
      refine ⟨rb', by simp [exec, answer, drained, asked, result, h.items, FifoQueue.front],
        removed.valid, ?_, ?_, ?_⟩
      · intro atStart
        rw [removed.writeptr] at atStart
        exact absurd ((h.fresh atStart).trans atStart.symm) occupied
      · rw [removed.content, h.items]
        simp [next, FifoQueue.pop, List.drop_eq_drop_min]
      · rw [removed.capacity, h.limit]
        rfl

/-- One operation: the queue's reply, and the queue's next state. -/
theorem exec_step (h : Represents rb q) (op : Op) :
    ∃ rb', exec rb op = some (answer q op, rb') ∧ Represents rb' (next q op) := by
  cases op with
  | writeIn buf => exact exec_writeIn h buf
  | readOut len => exact exec_readOut h len
  | clear =>
    exact ⟨rb.clear, rfl, RingBuffer.clear_valid h.valid, fun _ => rfl,
      RingBuffer.clear_content rb, h.limit⟩

/-- Every sequence of operations, from any represented queue. -/
theorem execAll_answers (ops : List Op) (h : Represents rb q) :
    ∃ rb', execAll rb ops = some (answers q ops, rb') ∧
      Represents rb' (ops.foldl next q) := by
  induction ops generalizing rb q with
  | nil => exact ⟨rb, rfl, h⟩
  | cons op ops ih =>
    obtain ⟨rb₁, first, h₁⟩ := exec_step h op
    obtain ⟨rb₂, later, h₂⟩ := ih h₁
    exact ⟨rb₂, by simp [execAll, answers, first, later], h₂⟩

theorem foldl_next_limit (ops : List Op) (q : FifoQueue Byte) :
    (ops.foldl next q).limit = q.limit := by
  induction ops generalizing q with
  | nil => rfl
  | cons op ops ih =>
    rw [List.foldl_cons, ih]
    cases op <;> rfl

end

/-- A constructed ring and a bounded queue of the clamped length give the same
replies to every sequence of operations, all copies stay inside the allocation,
and `size`, `space`, `isEmpty` and `isFull` report the queue's state. -/
theorem ring_refines_queue (len : Nat) (garbage : Nat → Byte) (ops : List Op) :
    ∃ rb q, q = ops.foldl next (.empty (RingBuffer.clampLength len)) ∧
      execAll (.construct len garbage) ops =
        some (answers (.empty (RingBuffer.clampLength len)) ops, rb) ∧
      rb.content = q.items ∧ rb.size = q.items.length ∧
      rb.size + rb.space = RingBuffer.clampLength len ∧
      (rb.isEmpty = true ↔ rb.size = 0) ∧ (rb.isFull = true ↔ rb.space = 0) := by
  obtain ⟨rb, result, h⟩ := execAll_answers ops (construct_represents len garbage)
  have limit := foldl_next_limit ops (.empty (RingBuffer.clampLength len))
  refine ⟨rb, _, rfl, result, h.items, h.size, ?_, ?_, RingBuffer.isFull_iff⟩
  · rw [h.size, h.space, FifoQueue.length_add_room, limit]
    rfl
  · rw [RingBuffer.isEmpty_iff, h.empty_iff, h.size, List.length_eq_zero_iff]

/-- An empty write to a ring with free space does not return the number of
bytes it appended. -/
theorem empty_write_not_counted :
    (execAll (.construct 1024 fun _ => 0) [.writeIn []]).map Prod.fst ≠
      some [⟨(min ([] : Bytes).length 1024 : Nat), []⟩] := by
  decide

end RingFifo
