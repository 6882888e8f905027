import Mathlib.Algebra.Group.Int.Defs
import Mathlib.Data.Finset.Card
import Mathlib.Tactic.SplitIfs
import Tigerso.GuardedRuns

/-!
# core/DaemonBase: the workers that the parent knows of

The parent forks workers up to `childMaxNum_` and stores their process numbers; the handler of
`SIGCHLD` erases them. A signal that is pending takes in the ones that come before it is handled.
-/

open GuardedRuns

namespace DaemonBase

/-- Where the parent is in `parentStart`. -/
inductive Place where
  | loop
  /-- `fork` has returned `pid`, which is not stored. -/
  | forked (pid : Nat)
  deriving DecidableEq, Repr

structure Parent where
  childMaxNum : Int
  __childrens : Finset Nat
  place : Place
  /-- The children that run. -/
  alive : Finset Nat
  /-- The children that have exited and that nobody has waited for. -/
  exited : Finset Nat
  pending : Bool
  deriving DecidableEq

inductive Event where
  | fork (pid : Nat)
  | store
  | exit (pid : Nat)
  /-- `SIGCHLD` is handled; what `waitpid` returns, and none for 0 and -1. -/
  | __signalHandle (childpid : Option Nat)

namespace Parent

def init (childMaxNum : Int) : Parent := ⟨childMaxNum, ∅, .loop, ∅, ∅, false⟩

def storeChildPid (s : Parent) (pid : Nat) : Parent :=
  { s with __childrens := insert pid s.__childrens }

def eraseChildPid (s : Parent) (pid : Nat) : Parent :=
  { s with __childrens := s.__childrens.erase pid }

/-- `__childrens.size() < childMaxNum_`, where the signed number is converted. -/
def missing (s : Parent) : Bool := decide ((s.__childrens.card : Int) < s.childMaxNum % 2 ^ 64)

/-- What `waitpid` can return: a child that has exited, and nothing when there is none. -/
def waits (s : Parent) : Option Nat → Bool
  | none => decide (s.exited = ∅)
  | some pid => decide (pid ∈ s.exited)

/-- `case SIGCHLD`; one call of `waitpid` for each signal that is handled. -/
def handle (s : Parent) : Option Nat → Parent
  | none => { s with pending := false }
  | some childpid => { s with pending := false, exited := s.exited.erase childpid }.eraseChildPid
      childpid

def step (s : Parent) : Event → Option Parent
  | .fork pid =>
    if s.place = .loop ∧ s.missing = true ∧ pid ∉ s.alive ∧ pid ∉ s.exited then
      some { s with place := .forked pid, alive := insert pid s.alive }
    else none
  | .store =>
    match s.place with
    | .loop => none
    | .forked pid => some { s.storeChildPid pid with place := .loop }
  | .exit pid =>
    if pid ∈ s.alive then
      some { s with
        alive := s.alive.erase pid
        exited := insert pid s.exited
        pending := true }
    else none
  | .__signalHandle childpid =>
    if s.pending = true ∧ s.waits childpid = true then some (s.handle childpid) else none

/-- Without a signal to handle the stored children are those that run, so that the parent forks
as long as there are fewer. -/
def Booked (s : Parent) : Prop :=
  s.pending = false → s.place = .loop → s.__childrens = s.alive ∧
    (s.missing = true ↔ (s.alive.card : Int) < s.childMaxNum % 2 ^ 64)

/-- When a signal is handled, no other child has exited than the one that is waited for, and
that one is stored. -/
def Met (s : Parent) : Event → Prop
  | .__signalHandle childpid =>
    ∀ pid ∈ s.exited, childpid = some pid ∧ s.place ≠ .forked pid
  | _ => True

instance (s : Parent) : ∀ e, Decidable (s.Met e)
  | .__signalHandle childpid => inferInstanceAs (Decidable
      (∀ pid ∈ s.exited, childpid = some pid ∧ s.place ≠ .forked pid))
  | .fork _ | .store | .exit _ => inferInstanceAs (Decidable True)

/-- The stored children are those that run or have exited, but for one that was just forked. -/
structure Kept (s : Parent) : Prop where
  disjoint : ∀ pid ∈ s.alive, pid ∉ s.exited
  settled : s.pending = false → s.exited = ∅
  fresh : ∀ pid, s.place = .forked pid → pid ∉ s.__childrens ∧ (pid ∈ s.alive ∨ pid ∈ s.exited)
  stored : ∀ pid, s.place ≠ .forked pid →
    (pid ∈ s.__childrens ↔ pid ∈ s.alive ∨ pid ∈ s.exited)

section
variable {s s' : Parent}

theorem init_kept (childMaxNum : Int) : Kept (init childMaxNum) where
  disjoint := fun _ there => absurd there (Finset.notMem_empty _)
  settled := fun _ => rfl
  fresh := nofun
  stored := fun pid _ => by simp [init]

theorem Kept.booked (kept : Kept s) : s.Booked := by
  intro quiet inLoop
  have same : s.__childrens = s.alive := by
    ext pid
    have outside : s.place ≠ .forked pid := by
      rw [inLoop]
      exact nofun
    rw [kept.stored pid outside, kept.settled quiet]
    simp
  refine ⟨same, ?_⟩
  rw [missing, same, decide_eq_true_iff]

/-- The child is not booked before the parent stores it. -/
theorem Kept.fork (kept : Kept s) {pid : Nat} (inLoop : s.place = .loop) (dead : pid ∉ s.alive)
    (reaped : pid ∉ s.exited) :
    Kept { s with place := .forked pid, alive := insert pid s.alive } where
  disjoint := by
    intro other there
    rcases Finset.mem_insert.mp there with rfl | old
    · exact reaped
    · exact kept.disjoint other old
  settled := kept.settled
  fresh := by
    rintro _ ⟨⟩
    have outside : s.place ≠ .forked pid := by
      rw [inLoop]
      exact nofun
    refine ⟨fun there => ?_, Or.inl (Finset.mem_insert_self _ _)⟩
    exact ((kept.stored pid outside).mp there).elim dead reaped
  stored := by
    intro other outside
    have different : other ≠ pid := fun same => outside (by rw [same])
    rw [kept.stored other (by rw [inLoop]; exact nofun), Finset.mem_insert]
    simp [different]

theorem Kept.store (kept : Kept s) {pid : Nat} (forked : s.place = .forked pid) :
    Kept { s.storeChildPid pid with place := .loop } where
  disjoint := kept.disjoint
  settled := kept.settled
  fresh := nofun
  stored := by
    intro other _
    by_cases same : other = pid
    · subst same
      exact iff_of_true (Finset.mem_insert_self _ _) (kept.fresh other forked).2
    · have outside : s.place ≠ .forked other := by
        rw [forked]
        exact fun eq => same (Place.forked.inj eq).symm
      rw [storeChildPid, Finset.mem_insert, kept.stored other outside]
      simp [same]

/-- An exit changes nothing in who runs or has exited. -/
theorem exit_children {pid : Nat} (alive : pid ∈ s.alive) (other : Nat) :
    other ∈ s.alive.erase pid ∨ other ∈ insert pid s.exited ↔
      other ∈ s.alive ∨ other ∈ s.exited := by
  rw [Finset.mem_erase, Finset.mem_insert]
  by_cases same : other = pid
  · subst same
    simp [alive]
  · simp [same]

theorem Kept.exit (kept : Kept s) {pid : Nat} (alive : pid ∈ s.alive) :
    Kept { s with
      alive := s.alive.erase pid
      exited := insert pid s.exited
      pending := true } where
  disjoint := by
    intro other there again
    obtain ⟨different, old⟩ := Finset.mem_erase.mp there
    rcases Finset.mem_insert.mp again with same | old'
    · exact different same
    · exact kept.disjoint other old old'
  settled := nofun
  fresh := by
    intro other forked
    exact ⟨(kept.fresh other forked).1, (exit_children alive other).mpr (kept.fresh other forked).2⟩
  stored := by
    intro other outside
    rw [exit_children alive]
    exact kept.stored other outside

/-- One signal takes one child off the books. -/
theorem Kept.handle (kept : Kept s) {childpid : Option Nat} (met : s.Met (.__signalHandle childpid))
    (waits : s.waits childpid = true) : Kept (s.handle childpid) := by
  cases childpid with
  | none =>
    exact ⟨kept.disjoint, fun _ => of_decide_eq_true waits, kept.fresh, kept.stored⟩
  | some pid =>
    have exited : pid ∈ s.exited := of_decide_eq_true waits
    have last : ∀ other ∈ s.exited, other = pid := fun other there =>
      (Option.some.inj (met other there).1).symm
    have none : s.exited.erase pid = ∅ :=
      Finset.eq_empty_of_forall_notMem fun other there =>
        (Finset.mem_erase.mp there).1 (last other (Finset.mem_erase.mp there).2)
    have running : ∀ other, other ≠ pid → (other ∈ s.alive ∨ other ∈ s.exited ↔ other ∈ s.alive) :=
      fun other different => or_iff_left fun there => different (last other there)
    have dead : pid ∉ s.alive := fun there => kept.disjoint pid there exited
    refine ⟨?_, fun _ => none, ?_, ?_⟩
    · intro other _ there
      exact kept.disjoint other ‹_› (Finset.mem_erase.mp there).2
    · intro other forked
      have different : other ≠ pid := fun same => (met pid exited).2 (same ▸ forked)
      obtain ⟨unknown, there⟩ := kept.fresh other forked
      exact ⟨fun stored => unknown (Finset.mem_erase.mp stored).2,
        Or.inl ((running other different).mp there)⟩
    · intro other outside
      rw [Parent.handle, eraseChildPid, Finset.mem_erase, none]
      by_cases same : other = pid
      · subst same
        simp [dead]
      · rw [kept.stored other outside, running other same]
        simp [same]

/-- Every step that meets the condition keeps the books. -/
theorem Kept.step {e : Event} (kept : Kept s) (met : s.Met e) (steps : s.step e = some s') :
    Kept s' := by
  cases e with
  | fork pid =>
    rw [Parent.step] at steps
    split_ifs at steps with can
    cases steps
    exact kept.fork can.1 can.2.2.1 can.2.2.2
  | store =>
    rw [Parent.step] at steps
    cases place : s.place with
    | loop =>
      rw [place] at steps
      cases steps
    | forked pid =>
      rw [place] at steps
      cases steps
      exact kept.store place
  | exit pid =>
    rw [Parent.step] at steps
    split_ifs at steps with alive
    cases steps
    exact kept.exit alive
  | __signalHandle childpid =>
    rw [Parent.step] at steps
    split_ifs at steps with can
    cases steps
    exact kept.handle met can.2

/-- In a run in which every signal is handled for the one child that has exited since, and that
is stored, the stored children are those that run. -/
theorem booked_of_run {childMaxNum : Int} {s : Parent}
    (run : Reaches step Met (init childMaxNum) s) : s.Booked :=
  Kept.booked (run.invariant Kept (init_kept childMaxNum) fun _ _ _ kept met steps =>
    kept.step met steps)

end

/-- A worker exits and is replaced. -/
theorem booked_after_exit : ∃ s, follow step Met (init 1)
    [.fork 7, .store, .exit 7, .__signalHandle (some 7), .fork 8, .store] = some s ∧ s.Booked := by
  obtain ⟨s, followed⟩ := Option.isSome_iff_exists.mp (by decide : (follow step Met (init 1)
    [.fork 7, .store, .exit 7, .__signalHandle (some 7), .fork 8, .store]).isSome = true)
  exact ⟨s, followed, booked_of_run (reaches_of_follow followed)⟩

/-- Two workers exit before their signal is handled: one of them stays stored. -/
theorem exits_together : ∃ s, Reaches step (fun _ _ => True) (init 2) s ∧ ¬ s.Booked := by
  refine ⟨⟨2, {8}, .loop, ∅, {8}, false⟩, @reaches_of_follow _ _ _ _ (fun _ _ => inferInstance)
    [.fork 7, .store, .fork 8, .store, .exit 7, .exit 8, .__signalHandle (some 7)] _ _ (by decide),
    ?_⟩
  exact fun booked => absurd (booked rfl rfl).1 (by decide)

end Parent

end DaemonBase
