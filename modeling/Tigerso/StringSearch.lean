import Tigerso.CText
import Tigerso.HttpMessageObject

/-!
# What a search in a string finds
-/

open SystemCalls CText

namespace StringSearch

variable {s text : Bytes} {pos : Nat} {b : Byte}

theorem findText_eq_some_iff : findText s text = some pos ↔
    pos ≤ s.length ∧ text <+: s.drop pos ∧ ∀ before < pos, ¬ text <+: s.drop before := by
  rw [findText, List.find?_range_eq_some]
  simp only [List.isPrefixOf_iff_prefix, List.mem_range, Bool.not_eq_true', ← Bool.not_eq_true]
  constructor
  · rintro ⟨here, inside, first⟩
    exact ⟨Nat.lt_succ_iff.mp inside, here, first⟩
  · rintro ⟨inside, here, first⟩
    exact ⟨here, Nat.lt_succ_iff.mpr inside, first⟩

theorem findText_eq_none_iff : findText s text = none ↔
    ∀ pos ≤ s.length, ¬ text <+: s.drop pos := by
  rw [findText, List.find?_range_eq_none]
  simp only [List.isPrefixOf_iff_prefix, Bool.not_eq_true', ← Bool.not_eq_true, Nat.lt_succ_iff]

theorem findText_none_iff_infix : findText s text = none ↔ ¬ text <:+: s := by
  rw [findText_eq_none_iff]
  constructor
  · rintro nowhere ⟨front, rest, rfl⟩
    refine nowhere front.length (by simp) ?_
    rw [List.append_assoc, List.drop_left]
    exact List.prefix_append _ _
  · intro nowhere pos _ here
    exact nowhere (here.isInfix.trans (List.drop_suffix pos s).isInfix)

theorem findText_zero_iff : findText s text = some 0 ↔ text <+: s := by
  rw [findText_eq_some_iff, List.drop_zero]
  exact ⟨fun found => found.2.1, fun here => ⟨Nat.zero_le _, here, nofun⟩⟩

/-- Where a byte is found first. -/
theorem findText_byte (clean : b ∉ s) (rest : Bytes) :
    findText (s ++ b :: rest) [b] = some s.length := by
  rw [findText_eq_some_iff]
  refine ⟨by simp, ?_, fun before early begins => ?_⟩
  · rw [List.drop_left]
    exact ⟨rest, rfl⟩
  · obtain ⟨more, here⟩ := begins
    rw [List.drop_append_of_le_length (Nat.le_of_lt early)] at here
    cases left : s.drop before with
    | nil =>
      have short := congrArg List.length left
      rw [List.length_drop, List.length_nil] at short
      omega
    | cons c after =>
      rw [left] at here
      obtain ⟨rfl, _⟩ := List.cons.inj here
      exact clean (List.mem_of_mem_drop (left ▸ List.mem_cons_self))

theorem findText_byte_none (clean : b ∉ s) : findText s [b] = none := by
  rw [findText_eq_none_iff]
  intro pos _ begins
  exact clean (List.mem_of_mem_drop (begins.subset (List.mem_singleton_self b)))

theorem notMem_untilByte (b : Byte) (s : Bytes) : b ∉ untilByte b s := by
  intro there
  have kept := List.mem_takeWhile_imp there
  simp at kept

theorem untilByte_clean (clean : b ∉ s) : untilByte b s = s :=
  List.takeWhile_eq_self_iff.mpr fun _ there => decide_eq_true fun same => clean (same ▸ there)

/-- A string with a byte is cut there. -/
theorem untilByte_split (there : b ∈ s) : ∃ rest, s = untilByte b s ++ b :: rest := by
  have whole : untilByte b s ++ s.dropWhile (· ≠ b) = s := List.takeWhile_append_dropWhile
  cases left : s.dropWhile (· ≠ b) with
  | nil =>
    rw [left, List.append_nil] at whole
    have here : b ∈ untilByte b s := by
      rw [whole]
      exact there
    exact absurd here (notMem_untilByte b s)
  | cons c rest =>
    have stops := @List.head_dropWhile_not _ (· ≠ b) s (by rw [left]; exact nofun)
    simp only [left, List.head_cons] at stops
    have same : c = b := by simpa using stops
    rw [left, same] at whole
    exact ⟨rest, whole.symm⟩

theorem findText_byte_eq (s : Bytes) (b : Byte) :
    findText s [b] = if b ∈ s then some (untilByte b s).length else none := by
  split_ifs with there
  · obtain ⟨rest, split⟩ := untilByte_split there
    nth_rewrite 1 [split]
    exact findText_byte (notMem_untilByte b s) rest
  · exact findText_byte_none there

theorem take_untilByte (b : Byte) (s : Bytes) :
    s.take (untilByte b s).length = untilByte b s :=
  List.prefix_iff_eq_take.mp (List.takeWhile_prefix _) |>.symm

theorem drop_untilByte {rest : Bytes} (split : s = untilByte b s ++ b :: rest) :
    s.drop ((untilByte b s).length + 1) = rest := by
  nth_rewrite 2 [split]
  rw [List.drop_length_add_append]
  rfl

/-- The front of a string that is cut behind the byte is cut there, too. -/
theorem untilByte_take {n : Nat} (there : b ∈ s.take n) :
    untilByte b (s.take n) = untilByte b s := by
  obtain ⟨rest, split⟩ := untilByte_split there
  have whole := List.take_append_drop n s
  rw [split, List.append_assoc, List.cons_append] at whole
  have cut := untilByte_append (notMem_untilByte b (s.take n)) (rest ++ s.drop n)
  rw [whole] at cut
  exact cut.symm

end StringSearch
