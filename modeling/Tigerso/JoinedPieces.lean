import Mathlib.Data.List.Basic

/-!
# Lists in which neighbouring pieces of one kind are joined

Some elements of a list carry data of a kind, which may have been cut in pieces. Two lists are the
same up to the cuts when they are equal after neighbouring pieces of one kind are joined.
-/

namespace JoinedPieces

/-- How data is read off an element, and put into one. -/
structure Pieces (α κ β : Type) where
  data : α → Option (κ × List β)
  make : κ → List β → α
  data_make : ∀ k x, data (make k x) = some (k, x)
  make_data : ∀ a k x, data a = some (k, x) → a = make k x

variable {α κ β : Type} [DecidableEq κ] (P : Pieces α κ β)

/-- An element in front of a list, joined with the first one of it when that is of its kind. -/
def push (a : α) : List α → List α
  | [] => [a]
  | b :: rest =>
    match P.data a, P.data b with
    | some (k, x), some (k', y) => if k = k' then P.make k (x ++ y) :: rest else a :: b :: rest
    | _, _ => a :: b :: rest

def joined (l : List α) : List α := l.foldr (push P) []

variable {P}

theorem push_push (k : κ) (x y : List β) (l : List α) :
    push P (P.make k x) (push P (P.make k y) l) = push P (P.make k (x ++ y)) l := by
  cases l with
  | nil => simp [push, P.data_make]
  | cons b rest =>
    cases data : P.data b with
    | none => simp [push, P.data_make, data]
    | some piece =>
      obtain ⟨k', z⟩ := piece
      by_cases same : k = k'
      · simp [push, P.data_make, data, same]
      · simp [push, P.data_make, data, same]

/-- Pushing a piece in front of pieces that are pushed one by one. -/
theorem push_foldr (a : α) (l m : List α) :
    push P a (l.foldr (push P) m) = (push P a l).foldr (push P) m := by
  cases l with
  | nil => rfl
  | cons b rest =>
    cases data : P.data a with
    | none => simp [push, data]
    | some piece =>
      obtain ⟨k, x⟩ := piece
      cases data' : P.data b with
      | none => simp [push, data, data']
      | some piece' =>
        obtain ⟨k', y⟩ := piece'
        by_cases same : k = k'
        · subst same
          obtain rfl := P.make_data a k x data
          obtain rfl := P.make_data b k y data'
          rw [List.foldr_cons, push_push]
          simp [push, P.data_make]
        · simp [push, data, data', same]

theorem foldr_joined (l m : List α) :
    l.foldr (push P) m = (joined P l).foldr (push P) m := by
  induction l with
  | nil => rfl
  | cons a rest ih =>
    calc push P a (rest.foldr (push P) m)
        = push P a ((joined P rest).foldr (push P) m) := by rw [ih]
      _ = (joined P (a :: rest)).foldr (push P) m := push_foldr a _ _

theorem joined_append (l m : List α) :
    joined P (l ++ m) = (joined P l).foldr (push P) (joined P m) := by
  rw [joined, List.foldr_append]
  exact foldr_joined l _

theorem joined_append_congr {l l' m m' : List α} (left : joined P l = joined P l')
    (right : joined P m = joined P m') : joined P (l ++ m) = joined P (l' ++ m') := by
  rw [joined_append, joined_append, left, right]

/-- A piece that is cut in two. -/
theorem joined_cut (l : List α) (k : κ) (x y : List β) :
    joined P (l ++ [P.make k x, P.make k y]) = joined P (l ++ [P.make k (x ++ y)]) := by
  refine joined_append_congr rfl ?_
  exact push_push k x y []

end JoinedPieces
