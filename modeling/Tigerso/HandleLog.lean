import Mathlib.Data.List.Basic

/-!
# Who opened what is closed

The log of one owner's openings and closings of handles, the latest first. A handle is the
owner's from its opening to its next closing; the numbers are handed out again after that,
so a closing of anything else hits a stranger's handle, or none.
-/

namespace HandleLog

inductive Event (α : Type*) where
  | opened (a : α)
  | closed (a : α)

variable {α : Type*}

/-- `a` was opened and has not been closed since. -/
def Holds (a : α) : List (Event α) → Prop
  | [] => False
  | .opened b :: log => a = b ∨ Holds a log
  | .closed b :: log => a ≠ b ∧ Holds a log

/-- Every closing was one of a handle that was held. -/
def OwnCloses : List (Event α) → Prop
  | [] => True
  | .opened _ :: log => OwnCloses log
  | .closed a :: log => Holds a log ∧ OwnCloses log

instance holdsDecidable [DecidableEq α] (a : α) : (log : List (Event α)) → Decidable (Holds a log)
  | [] => isFalse id
  | .opened b :: log =>
    let _ := holdsDecidable a log
    inferInstanceAs (Decidable (a = b ∨ Holds a log))
  | .closed b :: log =>
    let _ := holdsDecidable a log
    inferInstanceAs (Decidable (a ≠ b ∧ Holds a log))

instance ownClosesDecidable [DecidableEq α] : (log : List (Event α)) → Decidable (OwnCloses log)
  | [] => isTrue trivial
  | .opened _ :: log => ownClosesDecidable log
  | .closed a :: log =>
    let _ := ownClosesDecidable log
    inferInstanceAs (Decidable (Holds a log ∧ OwnCloses log))

@[simp] theorem holds_nil (a : α) : Holds a [] ↔ False := Iff.rfl

@[simp] theorem holds_opened {a b : α} {log : List (Event α)} :
    Holds a (.opened b :: log) ↔ a = b ∨ Holds a log := Iff.rfl

@[simp] theorem holds_closed {a b : α} {log : List (Event α)} :
    Holds a (.closed b :: log) ↔ a ≠ b ∧ Holds a log := Iff.rfl

@[simp] theorem ownCloses_nil : OwnCloses ([] : List (Event α)) ↔ True := Iff.rfl

@[simp] theorem ownCloses_opened {a : α} {log : List (Event α)} :
    OwnCloses (.opened a :: log) ↔ OwnCloses log := Iff.rfl

@[simp] theorem ownCloses_closed {a : α} {log : List (Event α)} :
    OwnCloses (.closed a :: log) ↔ Holds a log ∧ OwnCloses log := Iff.rfl

theorem OwnCloses.tail {e : Event α} {log : List (Event α)} (h : OwnCloses (e :: log)) :
    OwnCloses log := by
  cases e with
  | opened a => exact h
  | closed a => exact h.2

/-- A closing that was wrong stays wrong. -/
theorem OwnCloses.suffix {log later : List (Event α)} (h : OwnCloses later)
    (grown : log <:+ later) : OwnCloses log := by
  obtain ⟨news, rfl⟩ := grown
  induction news with
  | nil => exact h
  | cons e news ih => exact ih h.tail

end HandleLog
