import Mathlib.Data.List.Basic

/-!
# Flat memory, block copies and windows

A block of memory is the function from its addresses to its cells. A window
reads consecutive cells in address order; a paste is the block copy of a list
to consecutive addresses. Bounds of an allocation are not part of the block:
whoever owns the allocation checks a copy before pasting it.
-/

namespace ByteMemory

universe u
variable {α : Type u}

/-- The cells of `[off, off + len)` in address order. -/
def window (m : Nat → α) (off len : Nat) : List α :=
  (List.range len).map (fun i => m (off + i))

/-- The block after copying `xs` to the addresses from `off` on. -/
def paste (m : Nat → α) (off : Nat) (xs : List α) : Nat → α :=
  fun i => if h : off ≤ i ∧ i < off + xs.length then xs[i - off] else m i

@[simp] theorem window_length (m : Nat → α) (off len : Nat) :
    (window m off len).length = len := by
  simp [window]

@[simp] theorem window_zero (m : Nat → α) (off : Nat) : window m off 0 = [] := rfl

theorem window_congr {m n : Nat → α} {off len : Nat}
    (same : ∀ i, off ≤ i → i < off + len → m i = n i) :
    window m off len = window n off len := by
  apply List.map_congr_left
  intro i hi
  have hlt := List.mem_range.mp hi
  exact same (off + i) (by omega) (by omega)

/-- Adjacent windows concatenate. -/
theorem window_add (m : Nat → α) (off a b : Nat) :
    window m off (a + b) = window m off a ++ window m (off + a) b := by
  simp [window, List.range_add, Nat.add_assoc]

theorem window_take (m : Nat → α) (off len k : Nat) :
    (window m off len).take k = window m off (min k len) := by
  apply List.ext_getElem
  · simp
  · intro i hi _
    simp [window]

theorem window_drop (m : Nat → α) (off len k : Nat) :
    (window m off len).drop k = window m (off + k) (len - k) := by
  apply List.ext_getElem
  · simp
  · intro i hi _
    simp [window, Nat.add_assoc]

@[simp] theorem paste_nil (m : Nat → α) (off : Nat) : paste m off [] = m := by
  funext i
  have outside : ¬ (off ≤ i ∧ i < off + ([] : List α).length) := by simp
  exact dif_neg outside

theorem window_paste_same (m : Nat → α) (off : Nat) (xs : List α) :
    window (paste m off xs) off xs.length = xs := by
  apply List.ext_getElem
  · simp
  · intro i hi hx
    simp [window, paste, hx]

/-- A window that misses the copied block is unchanged. -/
theorem window_paste_disjoint (m : Nat → α) (off : Nat) (xs : List α) (o len : Nat)
    (apart : o + len ≤ off ∨ off + xs.length ≤ o) :
    window (paste m off xs) o len = window m o len := by
  apply window_congr
  intro i ho hi
  have outside : ¬ (off ≤ i ∧ i < off + xs.length) := by omega
  simp [paste, outside]

/-- A block copied to where a window stops extends the window. -/
theorem window_paste_append (m : Nat → α) {off stop : Nat} (order : off ≤ stop) (xs : List α) :
    window (paste m stop xs) off (stop - off + xs.length) = window m off (stop - off) ++ xs := by
  have start : off + (stop - off) = stop := by omega
  rw [window_add, start, window_paste_same, window_paste_disjoint]
  exact Or.inl (by omega)

/-- A cell that is overwritten and put back. -/
theorem paste_restore (m : Nat → α) (off : Nat) (x : α) :
    paste (paste m off [x]) off [m off] = m := by
  funext i
  by_cases here : i = off
  · subst here
    simp [paste]
  · have outside (y : α) : ¬ (off ≤ i ∧ i < off + [y].length) := by
      simp only [List.length_singleton]
      omega
    have untouched (m : Nat → α) (y : α) : paste m off [y] i = m i := by
      unfold paste
      exact dif_neg (outside y)
    exact (untouched _ _).trans (untouched _ _)

end ByteMemory
