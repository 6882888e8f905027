import Tigerso.BufferBounds

/-!
# net/Buffer: first in, first out

What was appended and what was delivered is written down beside the buffer.
-/

open SystemCalls SocketUtil GuardedRuns

/-- A buffer without a message, and what went through it. -/
structure BufferFlow where
  buf : Buffer
  appended : Bytes
  delivered : Bytes
  /-- What each `removeData` returned, and what it appended to its string. -/
  removed : List (Nat × Bytes)

inductive FlowCall where
  | addData (data : Bytes) (realloc : Realloc)
  | recvFromSocket (isSSL : Bool) (realloc : Realloc) (errno : Nat) (chunks : List Bytes)
      (ending : RecvEnd)
  | removeData (len : Nat)
  | sendToSocket (isSSL : Bool) (counts : List Nat) (errno : Nat)

namespace BufferFlow
open Buffer

def start (size : Nat) (garbage : Nat → Byte) : BufferFlow := ⟨.construct size garbage, [], [], []⟩

def call (f : BufferFlow) : FlowCall → Option BufferFlow
  | .addData data realloc =>
    (f.buf.addData data (f.buf.asked realloc data.length)).map fun buf =>
      { f with buf := buf, appended := f.appended ++ data }
  | .recvFromSocket isSSL realloc errno chunks ending =>
    (f.buf.recvFromSocket isSSL realloc errno chunks ending).map fun (_, data, buf) =>
      { f with buf := buf, appended := f.appended ++ data }
  | .removeData len =>
    (f.buf.removeData len).map fun (ret, data, buf) =>
      { f with
        buf := buf
        delivered := f.delivered ++ data
        removed := f.removed ++ [(ret, data)] }
  | .sendToSocket isSSL counts errno =>
    (f.buf.sendToSocket isSSL counts errno 0).map fun (_, sent, buf) =>
      { f with buf := buf, delivered := f.delivered ++ sent }

/-- Every append gets its space, and no zero is among the bytes that are removed. -/
def Met (f : BufferFlow) : FlowCall → Prop
  | .addData data realloc => f.buf.suppliedFor realloc data = true
  | .recvFromSocket isSSL realloc errno chunks _ =>
    recvSupplied isSSL realloc errno chunks gainGap f.buf = true
  | .removeData len => 0 ∉ f.buf.content.take len
  | .sendToSocket _ _ _ => True

instance (f : BufferFlow) : ∀ c, Decidable (f.Met c)
  | .addData data realloc => inferInstanceAs (Decidable (f.buf.suppliedFor realloc data = true))
  | .recvFromSocket isSSL realloc errno chunks _ =>
    inferInstanceAs (Decidable (recvSupplied isSSL realloc errno chunks gainGap f.buf = true))
  | .removeData len => inferInstanceAs (Decidable (0 ∉ f.buf.content.take len))
  | .sendToSocket _ _ _ => inferInstanceAs (Decidable True)

/-- What was delivered and what can be read is what was appended, and each `removeData`
returned the number of bytes that it delivered. -/
structure Fifo (f : BufferFlow) : Prop where
  order : f.delivered ++ f.buf.content = f.appended
  counted : ∀ one ∈ f.removed, one.1 = one.2.length

/-- The invariant of a run. -/
structure Steady (f : BufferFlow) : Prop extends Fifo f where
  ordered : f.buf.Ordered
  detached : f.buf.msgptr = false

section
variable {f f' : BufferFlow}

theorem start_steady {size : Nat} (other : size ≠ prefix_) (small : size < 2 ^ 63)
    (garbage : Nat → Byte) : Steady (start size garbage) where
  order := by
    have none : (construct size garbage).content = [] := by
      rw [content, construct, Nat.sub_self, ByteMemory.window_zero]
    rw [start, none]
    rfl
  counted := nofun
  ordered := (construct_ordered_iff small garbage).mpr other
  detached := rfl

/-- Bytes that are appended to the content. -/
theorem Steady.append (steady : Steady f) {buf : Buffer} {data : Bytes} (ordered : buf.Ordered)
    (content : buf.content = f.buf.content ++ data) (attached : buf.msgptr = f.buf.msgptr) :
    Steady { f with buf := buf, appended := f.appended ++ data } where
  order := by rw [content, ← List.append_assoc, steady.order]
  counted := steady.counted
  ordered := ordered
  detached := attached.trans steady.detached

/-- Bytes that leave the content. -/
theorem Steady.deliver (steady : Steady f) {buf : Buffer} {data : Bytes}
    (more : List (Nat × Bytes)) (ordered : buf.Ordered)
    (content : f.buf.content = data ++ buf.content)
    (detached : buf.msgptr = false) (counted : ∀ one ∈ more, one.1 = one.2.length) :
    Steady { f with
      buf := buf
      delivered := f.delivered ++ data
      removed := f.removed ++ more } where
  order := by rw [List.append_assoc, ← content, steady.order]
  counted := fun one there => (List.mem_append.mp there).elim (steady.counted one) (counted one)
  ordered := ordered
  detached := detached

/-- A call that meets the condition has a result and keeps the account of the bytes. -/
theorem Steady.call {c : FlowCall} (steady : Steady f) (met : f.Met c) :
    ∃ f', f.call c = some f' ∧ Steady f' := by
  have ordered := steady.ordered
  cases c with
  | addData data realloc =>
    obtain ⟨buf, added, ordered', content, attached⟩ := ordered.addSupplied met
    exact ⟨_, by rw [BufferFlow.call, added]; rfl, steady.append ordered' content attached⟩
  | recvFromSocket isSSL realloc errno chunks ending =>
    obtain ⟨ret, data, buf, received, ordered', content, attached⟩ :=
      ordered.recvFromSocket ending met
    exact ⟨_, by rw [BufferFlow.call, received]; rfl, steady.append ordered' content attached⟩
  | removeData len =>
    obtain ⟨buf, removed, ordered', content, attached⟩ := ordered.removeData len
    have clean : 0 ∉ f.buf.content.take (min len f.buf.content.length) := by
      rw [← List.take_take, List.take_length]
      exact met
    rw [CText.cString_clean clean] at removed
    refine ⟨_, by rw [BufferFlow.call, removed]; rfl, steady.deliver _ ordered' ?_
      (attached.trans steady.detached) ?_⟩
    · rw [content, List.take_append_drop]
    · intro one there
      rw [List.mem_singleton.mp there, List.length_take]
      exact (Nat.min_eq_left (Nat.min_le_right _ _)).symm
  | sendToSocket isSSL counts errno =>
    obtain ⟨ret, sent, buf, done, ordered', content, detached⟩ :=
      ordered.sendToSocket isSSL counts errno 0
    refine ⟨{ f with buf := buf, delivered := f.delivered ++ sent }, ?_, ?_⟩
    · rw [BufferFlow.call, done]
      rfl
    have delivered := steady.deliver [] ordered' content (detached steady.detached).1 nofun
    rw [List.append_nil] at delivered
    exact delivered

/-- In a run in which appends get their space and no zero byte is removed, the bytes come out
in order, and every call that meets this has a result. -/
theorem fifo_of_run {size : Nat} {garbage : Nat → Byte} (other : size ≠ prefix_)
    (small : size < 2 ^ 63) (run : Reaches call Met (start size garbage) f) :
    f.Fifo ∧ ∀ c, f.Met c → (f.call c).isSome = true := by
  have steady : Steady f := run.invariant Steady (start_steady other small garbage)
    fun f c f' steady met steps => by
      obtain ⟨next, called, steady'⟩ := steady.call met
      obtain rfl := Option.some.inj (called.symm.trans steps)
      exact steady'
  refine ⟨steady.toFifo, fun c met => ?_⟩
  obtain ⟨next, called, _⟩ := steady.call met
  rw [called]
  rfl

end

/-- Three bytes, of which two are removed. -/
theorem fifo_of_text : ∃ f, follow call Met (start 16 fun _ => 0)
    [.addData [1, 2, 3] refusing, .removeData 2, .sendToSocket false [0] 0] = some f ∧ f.Fifo := by
  obtain ⟨f, followed⟩ := Option.isSome_iff_exists.mp
    (by decide +kernel : (follow call Met (start 16 fun _ => 0)
      [.addData [1, 2, 3] refusing, .removeData 2, .sendToSocket false [0] 0]).isSome = true)
  exact ⟨f, followed, (fifo_of_run (by decide) (by decide) (reaches_of_follow followed)).1⟩

/-- Of a zero and a one that are removed nothing is delivered. -/
theorem zero_lost : ∃ f, Reaches call (fun _ _ => True) (start 16 fun _ => 0) f ∧ ¬ f.Fifo := by
  have lost : (follow call (fun _ _ => True) (start 16 fun _ => 0)
      [.addData [0, 1] refusing, .removeData 2]).map BufferFlow.removed = some [(2, [])] := by
    decide +kernel
  obtain ⟨f, followed, removed⟩ := Option.map_eq_some_iff.mp lost
  refine ⟨f, reaches_of_follow followed, fun fifo => ?_⟩
  exact absurd (fifo.counted (2, []) (removed ▸ List.mem_singleton_self _)) (by decide)

end BufferFlow
