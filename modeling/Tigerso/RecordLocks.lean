import Mathlib.Data.List.Basic

/-!
# Advisory locks on whole files

A table has an entry for each lock that a process holds. A process holds at most one lock on a
file, and a request is granted at once or not at all: when no other process holds a lock that
conflicts.
-/

namespace RecordLocks

inductive Mode where
  | shared
  | exclusive
  deriving DecidableEq, Repr

structure Entry (P F : Type) where
  file : F
  holder : P
  mode : Mode
  deriving DecidableEq

abbrev Table (P F : Type) := List (Entry P F)

def compatible : Mode → Mode → Bool
  | .shared, .shared => true
  | _, _ => false

variable {P F : Type} [DecidableEq P] [DecidableEq F]

def grants (t : Table P F) (f : F) (p : P) (mode : Mode) : Bool :=
  t.all fun e => decide (e.file ≠ f) || decide (e.holder = p) || compatible e.mode mode

def release (t : Table P F) (f : F) (p : P) : Table P F :=
  t.filter fun e => !(decide (e.file = f) && decide (e.holder = p))

/-- A lock that is granted takes the place of the one that the process held. -/
def place (t : Table P F) (f : F) (p : P) (mode : Mode) : Table P F :=
  ⟨f, p, mode⟩ :: release t f p

def releaseAll (t : Table P F) (p : P) : Table P F := t.filter fun e => decide (e.holder ≠ p)

/-- Locks of different processes on one file do not conflict. -/
def Coherent (t : Table P F) : Prop :=
  ∀ a ∈ t, ∀ b ∈ t, a.file = b.file → a.holder ≠ b.holder → compatible a.mode b.mode = true

/-- The table was changed on behalf of one process. -/
structure ChangedFor (p : P) (t t' : Table P F) : Prop where
  coherent : Coherent t → Coherent t'
  kept : ∀ e ∈ t, e.holder ≠ p → e ∈ t'

section
variable {t t' : Table P F} {f : F} {p q : P} {mode : Mode}

omit [DecidableEq F] in
theorem compatible_comm (a b : Mode) : compatible a b = compatible b a := by
  cases a <;> cases b <;> rfl

omit [DecidableEq P] [DecidableEq F] in
theorem coherent_nil : Coherent ([] : Table P F) := fun a there => absurd there List.not_mem_nil

omit [DecidableEq P] [DecidableEq F] in
theorem Coherent.sublist (coherent : Coherent t) (fewer : ∀ e ∈ t', e ∈ t) : Coherent t' :=
  fun a first b second => coherent a (fewer a first) b (fewer b second)

omit [DecidableEq P] [DecidableEq F] in
theorem ChangedFor.refl (p : P) (t : Table P F) : ChangedFor p t t := ⟨id, fun _ there _ => there⟩

theorem release_changed (t : Table P F) (f : F) (p : P) : ChangedFor p t (release t f p) where
  coherent := fun coherent => coherent.sublist fun _ there => (List.mem_filter.mp there).1
  kept := fun e there other => List.mem_filter.mpr ⟨there, by simp [other]⟩

omit [DecidableEq F] in
theorem releaseAll_changed (t : Table P F) (p : P) : ChangedFor p t (releaseAll t p) where
  coherent := fun coherent => coherent.sublist fun _ there => (List.mem_filter.mp there).1
  kept := fun e there other => List.mem_filter.mpr ⟨there, decide_eq_true other⟩

/-- A lock that is granted conflicts with no other. -/
theorem place_changed (granted : grants t f p mode = true) :
    ChangedFor p t (place t f p mode) where
  coherent := by
    intro coherent
    have agree : ∀ e ∈ release t f p, f = e.file → p ≠ e.holder →
        compatible mode e.mode = true := by
      intro e there same other
      have held := List.all_eq_true.mp granted e (List.mem_filter.mp there).1
      rw [compatible_comm]
      simpa [same.symm, other.symm] using held
    intro a first b second same other
    rcases List.mem_cons.mp first with rfl | first
    · rcases List.mem_cons.mp second with rfl | second
      · exact absurd rfl other
      · exact agree b second same other
    · rcases List.mem_cons.mp second with rfl | second
      · rw [compatible_comm]
        exact agree a first same.symm other.symm
      · exact (release_changed t f p).coherent coherent a first b second same other
  kept := fun e there other =>
    List.mem_cons_of_mem _ ((release_changed t f p).kept e there other)

omit [DecidableEq P] [DecidableEq F] in
/-- Who holds an exclusive lock on a file is the only one. -/
theorem Coherent.exclusive (coherent : Coherent t) (first : ⟨f, p, .exclusive⟩ ∈ t)
    (second : ⟨f, q, mode⟩ ∈ t) : p = q := by
  by_contra other
  exact Bool.false_ne_true (coherent _ first _ second rfl other)

end

end RecordLocks
