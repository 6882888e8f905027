import Mathlib.Data.List.TakeWhile
import Tigerso.SystemCalls

/-!
# Texts that end at a byte

A text that does not contain its terminator is read back from any buffer that it starts.
-/

namespace CText

/-- The bytes before the first `stop`. -/
def untilByte (stop : Byte) (buffer : Bytes) : Bytes := buffer.takeWhile (· ≠ stop)

def cString (buffer : Bytes) : Bytes := untilByte 0 buffer

/-- The first `n` bytes at a string that is followed by `behind`. -/
def memoryAt (s : Bytes) (behind : Nat → Byte) (n : Nat) : Bytes :=
  (s ++ 0 :: (List.range n).map behind).take n

section
variable {stop : Byte} {s t : Bytes}

theorem untilByte_append (clean : stop ∉ s) (rest : Bytes) :
    untilByte stop (s ++ stop :: rest) = s := by
  have all : ∀ b ∈ s, (b ≠ stop : Bool) = true := by
    intro b there
    exact decide_eq_true fun same => clean (same ▸ there)
  rw [untilByte, List.takeWhile_append_of_pos all]
  simp

/-- Two texts with the same bytes up to the end and behind it are the same. -/
theorem split_inj (clean : stop ∉ s) (clean' : stop ∉ t) {rest rest' : Bytes}
    (same : s ++ stop :: rest = t ++ stop :: rest') : s = t ∧ rest = rest' := by
  have texts : s = t := by
    rw [← untilByte_append clean rest, same, untilByte_append clean' rest']
  subst texts
  exact ⟨rfl, (List.cons.inj (List.append_cancel_left same)).2⟩

/-- A text that is cut is still an initial segment. -/
theorem cString_begins (buffer : Bytes) : cString buffer <+: buffer := List.takeWhile_prefix _

/-- A terminator behind the bytes changes nothing. -/
theorem cString_terminated (s : Bytes) : cString (s ++ [0]) = cString s := by
  induction s with
  | nil => rfl
  | cons b rest ih =>
    rw [cString, untilByte, List.cons_append, List.takeWhile_cons, cString, untilByte,
      List.takeWhile_cons]
    split_ifs
    · exact congrArg (b :: ·) ih
    · rfl

theorem cString_clean (clean : 0 ∉ s) : cString s = s := by
  rw [← cString_terminated]
  exact untilByte_append clean []

theorem zero_notMem_cString (buffer : Bytes) : 0 ∉ cString buffer := by
  intro there
  have kept := List.mem_takeWhile_imp there
  simp at kept

theorem memoryAt_eq_take {n : Nat} {behind : Nat → Byte} (long : n ≤ s.length) :
    memoryAt s behind n = s.take n := by
  rw [memoryAt, List.take_append_of_le_length long]

theorem cString_memoryAt (terminated : 0 ∉ s) {n : Nat} (short : s.length < n)
    (behind : Nat → Byte) : cString (memoryAt s behind n) = s := by
  obtain ⟨k, size⟩ : ∃ k, n = s.length + (k + 1) := ⟨n - s.length - 1, by omega⟩
  have shape : memoryAt s behind n = s ++ 0 :: ((List.range n).map behind).take k := by
    rw [memoryAt]
    nth_rewrite 1 [size]
    rw [List.take_length_add_append, List.take_succ_cons]
  rw [shape, cString, untilByte_append terminated]

/-- Of a text that is copied, as much is read back as there was room for. -/
theorem cString_memoryAt_eq_take (terminated : 0 ∉ s) {n : Nat} {behind : Nat → Byte} :
    cString (memoryAt s behind n) = s.take n := by
  by_cases short : s.length < n
  · rw [cString_memoryAt terminated short, List.take_of_length_le short.le]
  · rw [memoryAt_eq_take (Nat.le_of_not_lt short)]
    exact cString_clean fun there => terminated (List.mem_of_mem_take there)

end

end CText
