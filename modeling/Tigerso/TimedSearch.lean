import Mathlib.Data.List.MinMax
import Mathlib.Data.List.TakeWhile

/-!
# Searching a list while time goes by

Each element is tested at the next instant, until one of them stops the search.
-/

namespace TimedSearch

variable {α : Type} {stop : Nat → α → Bool}

/-- The element that stops the search from an instant on, and the instant behind it. -/
def search (stop : Nat → α → Bool) : Nat → List α → Option α × Nat
  | t, [] => (none, t)
  | t, a :: rest => if stop t a then (some a, t + 1) else search stop (t + 1) rest

/-- No element stops the search. -/
def Passes (stop : Nat → α → Bool) (t : Nat) (l : List α) : Prop :=
  ∀ k a, l[k]? = some a → stop (t + k) a = false

theorem passes_cons {t : Nat} {a : α} {l : List α} (first : stop t a = false)
    (rest : Passes stop (t + 1) l) : Passes stop t (a :: l) := by
  intro k b there
  cases k with
  | zero =>
    obtain rfl := Option.some.inj there
    exact first
  | succ k =>
    have later := rest k b there
    rwa [Nat.add_right_comm, Nat.add_assoc] at later

/-- The elements ahead of the one that is found are passed. -/
theorem search_some {t t' : Nat} {l : List α} {a : α} (found : search stop t l = (some a, t')) :
    ∃ passed rest, l = passed ++ a :: rest ∧ Passes stop t passed ∧
      stop (t + passed.length) a = true ∧ t' = t + passed.length + 1 := by
  induction l generalizing t with
  | nil => cases found
  | cons b l ih =>
    rw [search] at found
    split_ifs at found with here
    · cases found
      exact ⟨[], l, rfl, nofun, here, rfl⟩
    · obtain ⟨passed, rest, rfl, passes, stops, rfl⟩ := ih found
      refine ⟨b :: passed, rest, rfl, passes_cons (Bool.eq_false_iff.mpr here) passes, ?_, ?_⟩
      · rw [List.length_cons, ← stops]
        congr 1
        omega
      · rw [List.length_cons]
        omega

theorem search_none {t t' : Nat} {l : List α} (found : search stop t l = (none, t')) :
    Passes stop t l ∧ t' = t + l.length := by
  induction l generalizing t with
  | nil =>
    obtain ⟨_, rfl⟩ := Prod.mk.inj found
    exact ⟨nofun, rfl⟩
  | cons b l ih =>
    rw [search] at found
    split_ifs at found with here
    · cases found
    · obtain ⟨passes, rfl⟩ := ih found
      refine ⟨passes_cons (Bool.eq_false_iff.mpr here) passes, ?_⟩
      rw [List.length_cons]
      omega

/-- What is passed is left behind. -/
theorem search_append {t : Nat} {passed : List α} (passes : Passes stop t passed)
    (rest : List α) : search stop t (passed ++ rest) = search stop (t + passed.length) rest := by
  induction passed generalizing t with
  | nil => rfl
  | cons a passed ih =>
    have first : stop t a = false := passes 0 a rfl
    have later : Passes stop (t + 1) passed := by
      intro k b there
      have at_ := passes (k + 1) b there
      rwa [← Nat.add_assoc, Nat.add_right_comm] at at_
    rw [List.cons_append, search, first, if_neg Bool.false_ne_true, ih later, List.length_cons]
    congr 1
    omega

theorem search_of_stops {t : Nat} {passed rest : List α} {a : α} (passes : Passes stop t passed)
    (here : stop (t + passed.length) a = true) :
    search stop t (passed ++ a :: rest) = (some a, t + passed.length + 1) := by
  rw [search_append passes, search, if_pos here]

theorem search_of_passes {t : Nat} {l : List α} (passes : Passes stop t l) :
    search stop t l = (none, t + l.length) := by
  have all := search_append passes []
  rwa [List.append_nil] at all

/-- The first of the least elements, when the search for it begins with the first one. -/
theorem argmin_cons_eq_foldl {β : Type} [Preorder β] [DecidableLT β] (f : α → β) (a : α)
    (l : List α) :
    (a :: l).argmin f = some (l.foldl (fun least b => if f b < f least then b else least) a) := by
  rw [List.argmin, List.foldl_cons]
  have begins : List.argAux (fun b c => f b < f c) none a = some a := rfl
  rw [begins]
  induction l generalizing a with
  | nil => rfl
  | cons b l ih =>
    rw [List.foldl_cons, List.foldl_cons]
    have next : List.argAux (fun b c => f b < f c) (some a) b =
        some (if f b < f a then b else a) := (apply_ite some _ _ _).symm
    rw [next]
    exact ih _ rfl

theorem argmin_congr {β : Type} [LinearOrder β] {f g : α → β} {l : List α}
    (same : ∀ a ∈ l, g a = f a) : l.argmin g = l.argmin f := by
  classical
  ext a
  simp only [List.argmin_eq_some_iff]
  constructor
  · rintro ⟨there, least, first⟩
    refine ⟨there, fun b among => ?_, fun b among le => first b among ?_⟩
    · rw [← same a there, ← same b among]
      exact least b among
    · rw [same a there, same b among]
      exact le
  · rintro ⟨there, least, first⟩
    refine ⟨there, fun b among => ?_, fun b among le => first b among ?_⟩
    · rw [same a there, same b among]
      exact least b among
    · rw [← same a there, ← same b among]
      exact le

end TimedSearch
