import Mathlib.Tactic.SplitIfs

/-!
# Two runs of one program

The results of two runs are related when both fail, or when both succeed with related values.
A run that also answers has to give the same answer.
-/

namespace RelatedResults

section
variable {α α' β β' ε ε' ι : Type}

/-- The same answer, and related states. -/
def Same (R : α → α' → Prop) (x : ι × α) (y : ι × α') : Prop := x.1 = y.1 ∧ R x.2 y.2

/-- Pairs of related components. -/
def Both (R : α → α' → Prop) (S : β → β' → Prop) (x : α × β) (y : α' × β') : Prop :=
  R x.1 y.1 ∧ S x.2 y.2

theorem optionBind {R : α → α' → Prop} {S : β → β' → Prop} {x : Option α} {x' : Option α'}
    {f : α → Option β} {f' : α' → Option β'} (first : Option.Rel R x x')
    (next : ∀ a a', R a a' → Option.Rel S (f a) (f' a')) :
    Option.Rel S (x.bind f) (x'.bind f') := by
  cases first with
  | some related => exact next _ _ related
  | none => exact .none

/-- Both runs stop with an error, or none of them. -/
inductive ExceptRel (E : ε → ε' → Prop) (R : α → α' → Prop) : Except ε α → Except ε' α' → Prop
  | error {e : ε} {e' : ε'} (related : E e e') : ExceptRel E R (.error e) (.error e')
  | ok {a : α} {a' : α'} (related : R a a') : ExceptRel E R (.ok a) (.ok a')

theorem ExceptRel.bind {E : ε → ε' → Prop} {R : α → α' → Prop} {S : β → β' → Prop}
    {x : Except ε α} {x' : Except ε' α'} {f : α → Except ε β} {f' : α' → Except ε' β'}
    (first : ExceptRel E R x x') (next : ∀ a a', R a a' → ExceptRel E S (f a) (f' a')) :
    ExceptRel E S (x.bind f) (x'.bind f') := by
  cases first with
  | error related => exact .error related
  | ok related => exact next _ _ related

end

end RelatedResults
