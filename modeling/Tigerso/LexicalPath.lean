import Mathlib.Data.List.Induction

/-!
# Where a path leads by its text alone

A path is a list of segments that stay, go up, or go down by a name. Going up from the top of the
tree stays there; going up from anywhere else is remembered.
-/

namespace LexicalPath

universe u

inductive Segment (α : Type u) where
  | stay
  | up
  | down (name : α)
  deriving DecidableEq

/-- `climbs` levels up from where the path begins and then down by `names`. A `rooted` place is
below the top. -/
@[ext]
structure Place (α : Type u) where
  rooted : Bool
  climbs : Nat
  names : List α
  deriving DecidableEq

namespace Place
variable {α : Type u}

def top : Place α := ⟨true, 0, []⟩

def here : Place α := ⟨false, 0, []⟩

def step (p : Place α) : Segment α → Place α
  | .stay => p
  | .up =>
    match p.names with
    | [] => if p.rooted then p else { p with climbs := p.climbs + 1 }
    | _ :: _ => { p with names := p.names.dropLast }
  | .down name => { p with names := p.names ++ [name] }

def walk (p : Place α) (segments : List (Segment α)) : Place α := segments.foldl step p

def climb (p : Place α) (k : Nat) : Place α where
  rooted := p.rooted
  climbs := if p.rooted then p.climbs else p.climbs + (k - p.names.length)
  names := p.names.take (p.names.length - k)

/-- Where a place that is not rooted lies when its path begins at `p`. -/
def follow (p q : Place α) : Place α :=
  { p.climb q.climbs with names := (p.climb q.climbs).names ++ q.names }

/-- `p` is `r` or lies below it. -/
def Below (r p : Place α) : Prop :=
  p.rooted = r.rooted ∧ p.climbs = r.climbs ∧ r.names <+: p.names

instance [DecidableEq α] (r p : Place α) : Decidable (Below r p) :=
  inferInstanceAs (Decidable (_ ∧ _))

/-- The levels that `q` leaves on its way up from `r` it comes down again by the same names. -/
def Returns (r q : Place α) : Prop :=
  (r.rooted = true ∨ q.climbs ≤ r.names.length) ∧
    r.names.drop (r.names.length - q.climbs) <+: q.names

instance [DecidableEq α] (r q : Place α) : Decidable (Returns r q) :=
  inferInstanceAs (Decidable (_ ∧ _))

section
variable {p q r : Place α}

theorem step_rooted (p : Place α) (s : Segment α) : (p.step s).rooted = p.rooted := by
  cases s with
  | stay => rfl
  | up =>
    rw [step]
    split
    · split_ifs
      · rfl
      · rfl
    · rfl
  | down name => rfl

theorem walk_rooted (p : Place α) (segments : List (Segment α)) :
    (p.walk segments).rooted = p.rooted := by
  induction segments generalizing p with
  | nil => rfl
  | cons s rest ih => exact (ih _).trans (step_rooted p s)

theorem climb_zero (p : Place α) : p.climb 0 = p := by
  ext1
  · rfl
  · rw [climb]
    dsimp only
    split_ifs
    · rfl
    · omega
  · rw [climb, Nat.sub_zero, List.take_length]

theorem step_up_of_nil (none_ : p.names = []) :
    p.step .up = if p.rooted then p else { p with climbs := p.climbs + 1 } := by
  simp only [step, none_]

theorem step_up_of_ne_nil (some_ : p.names ≠ []) :
    p.step .up = { p with names := p.names.dropLast } := by
  rw [step]
  split
  · rename_i none_
    exact absurd none_ some_
  · rfl

/-- One level at a time. -/
theorem climb_succ (p : Place α) (k : Nat) : p.climb (k + 1) = (p.climb k).step .up := by
  by_cases left : p.names.length ≤ k
  · have all : p.names.take (p.names.length - (k + 1)) = p.names.take (p.names.length - k) := by
      congr 1
      omega
    have none_ : (p.climb k).names = [] := by
      rw [climb, Nat.sub_eq_zero_of_le left]
      rfl
    rw [step_up_of_nil none_, climb, climb, all]
    dsimp only
    split_ifs
    · rfl
    · congr 1
      omega
  · have some_ : (p.climb k).names ≠ [] := by
      intro none_
      have short := congrArg List.length none_
      rw [climb, List.length_take, List.length_nil] at short
      omega
    rw [step_up_of_ne_nil some_]
    ext1
    · rfl
    · rw [climb, climb]
      dsimp only
      split_ifs
      · rfl
      · omega
    · rw [climb, climb]
      dsimp only
      rw [List.dropLast_eq_take, List.take_take, List.length_take]
      congr 1
      omega

theorem follow_of_nil (p : Place α) (none_ : q.names = []) : p.follow q = p.climb q.climbs := by
  rw [follow, none_, List.append_nil]

/-- A step behind a path is a step in it. -/
theorem follow_step (free : q.rooted = false) (s : Segment α) :
    (p.follow q).step s = p.follow (q.step s) := by
  cases s with
  | stay => rfl
  | up =>
    by_cases none_ : q.names = []
    · have later : q.step .up = { q with climbs := q.climbs + 1 } := by
        rw [step_up_of_nil none_, free]
        rfl
      rw [later, follow_of_nil p none_, ← climb_succ]
      exact (follow_of_nil (q := { q with climbs := q.climbs + 1 }) p none_).symm
    · have some_ : (p.follow q).names ≠ [] := fun empty => none_ (List.append_eq_nil_iff.mp empty).2
      rw [step_up_of_ne_nil some_, step_up_of_ne_nil none_]
      ext1
      · rfl
      · rfl
      · exact List.dropLast_append_of_ne_nil none_
  | down name =>
    ext1
    · rfl
    · rfl
    · exact List.append_assoc ..

/-- A path that begins at `p` leads where the path by itself leads from `p`. -/
theorem walk_eq_follow (p : Place α) (segments : List (Segment α)) :
    p.walk segments = p.follow (here.walk segments) := by
  induction segments using List.reverseRecOn with
  | nil => exact ((follow_of_nil p rfl).trans (climb_zero p)).symm
  | append_singleton front s ih =>
    have last (p : Place α) : p.walk (front ++ [s]) = (p.walk front).step s := by
      rw [walk, List.foldl_append]
      rfl
    rw [last, last, ih]
    exact follow_step (walk_rooted here front) s

theorem below_follow_iff : Below r (r.follow q) ↔ Returns r q := by
  have level : (r.follow q).climbs = r.climbs ↔ r.rooted = true ∨ q.climbs ≤ r.names.length := by
    rw [follow, climb]
    dsimp only
    split_ifs with rooted
    · exact iff_of_true rfl (Or.inl rooted)
    · constructor
      · intro same
        exact Or.inr (by omega)
      · rintro (wrong | few)
        · exact absurd wrong rooted
        · omega
  have names : r.names <+: (r.follow q).names ↔
      r.names.drop (r.names.length - q.climbs) <+: q.names := by
    have whole := List.take_append_drop (r.names.length - q.climbs) r.names
    nth_rewrite 1 [← whole]
    exact List.prefix_append_right_inj _
  rw [Below, Returns, level, names]
  exact ⟨And.right, fun returns => ⟨rfl, returns⟩⟩

end

end Place

end LexicalPath
