import Mathlib.Data.List.Induction

/-!
# Updates that wait for a lock

An update is written at once when the lock is free. Otherwise it waits, in the place of an
earlier one, and is written behind the next update that finds the lock free.
-/

namespace DeferredWrites

variable {C U : Type}

structure Cell (C U : Type) where
  content : C
  pending : Option U

/-- A call that has an update for the cell, or one that has not. -/
inductive Call (U : Type)
  | own (u : U) (locked : Bool)
  | other (locked : Bool)

def Call.update? : Call U → Option U
  | .own u _ => some u
  | .other _ => none

def Call.locked : Call U → Bool
  | .own _ locked => locked
  | .other locked => locked

def own (calls : List (Call U)) : List U := calls.filterMap Call.update?

section
variable (write : C → U → C)

def flush (cell : Cell C U) : Cell C U := ⟨cell.pending.toList.foldl write cell.content, none⟩

def step (cell : Cell C U) : Call U → Cell C U
  | .own u true => flush write { cell with content := write cell.content u }
  | .own u false => { cell with pending := some u }
  | .other true => flush write cell
  | .other false => cell

/-- The content after the calls and one more that finds the lock free. -/
def outcome (c : C) (calls : List (Call U)) : C :=
  (flush write (calls.foldl (step write) ⟨c, none⟩)).content

end

variable {write : C → U → C}

theorem own_cons (call : Call U) (calls : List (Call U)) :
    own (call :: calls) = call.update?.toList ++ own calls := by
  rw [own, List.filterMap_cons]
  cases call.update? <;> rfl

theorem own_append (calls more : List (Call U)) : own (calls ++ more) = own calls ++ own more :=
  List.filterMap_append

/-- Calls that find the lock free write their updates in their order. -/
theorem all_locked {calls : List (Call U)} (locked : ∀ call ∈ calls, call.locked = true) (c : C) :
    calls.foldl (step write) ⟨c, none⟩ = ⟨(own calls).foldl write c, none⟩ := by
  induction calls generalizing c with
  | nil => rfl
  | cons call calls ih =>
    have rest := fun call there => locked call (List.mem_cons_of_mem _ there)
    have first := locked call List.mem_cons_self
    rw [List.foldl_cons, own_cons, List.foldl_append]
    cases call with
    | own u free =>
      obtain rfl : free = true := first
      exact ih rest _
    | other free =>
      obtain rfl : free = true := first
      exact ih rest _

/-- An image of the contents that the writes respect is one of the outcome. -/
theorem outcome_map {C' : Type} {write' : C' → U → C'} (image : C → C')
    (respects : ∀ c u, write' (image c) u = image (write c u)) (c : C) (calls : List (Call U)) :
    outcome write' (image c) calls = image (outcome write c calls) := by
  have flushes (cell : Cell C U) : flush write' ⟨image cell.content, cell.pending⟩ =
      ⟨image (flush write cell).content, (flush write cell).pending⟩ := by
    cases cell with
    | mk c pending =>
      cases pending with
      | none => rfl
      | some u =>
        rw [flush, flush, Option.toList_some, List.foldl_cons, List.foldl_cons, List.foldl_nil,
          List.foldl_nil, respects]
  have runs (cell : Cell C U) : calls.foldl (step write') ⟨image cell.content, cell.pending⟩ =
      ⟨image (calls.foldl (step write) cell).content,
        (calls.foldl (step write) cell).pending⟩ := by
    induction calls generalizing cell with
    | nil => rfl
    | cons call calls ih =>
      rw [List.foldl_cons, List.foldl_cons, ← ih]
      congr 1
      cases call with
      | own u locked =>
        cases locked with
        | true =>
          rw [step, step, respects]
          exact flushes ⟨write cell.content u, cell.pending⟩
        | false => rfl
      | other locked =>
        cases locked with
        | true => exact flushes cell
        | false => rfl
  rw [outcome, outcome, runs ⟨c, none⟩, flushes]

/-- Of the calls that do not, the last update is left. -/
theorem none_locked {calls : List (Call U)} (refused : ∀ call ∈ calls, call.locked = false)
    (c : C) (pending : Option U) :
    calls.foldl (step write) ⟨c, pending⟩ = ⟨c, (own calls).getLast? <|> pending⟩ := by
  induction calls generalizing pending with
  | nil => rfl
  | cons call calls ih =>
    have rest := fun call there => refused call (List.mem_cons_of_mem _ there)
    have first := refused call List.mem_cons_self
    rw [List.foldl_cons, own_cons]
    cases call with
    | own u free =>
      obtain rfl : free = false := first
      rw [step, ih rest]
      dsimp only [Call.update?, Option.toList_some]
      rw [List.singleton_append, List.getLast?_cons]
      cases (own calls).getLast? <;> rfl
    | other free =>
      obtain rfl : free = false := first
      exact ih rest _

/-- The lock is free up to some call, and not behind it. -/
theorem outcome_locked_first {calls more : List (Call U)}
    (locked : ∀ call ∈ calls, call.locked = true) (refused : ∀ call ∈ more, call.locked = false)
    (c : C) : outcome write c (calls ++ more) =
      (own calls ++ (own more).getLast?.toList).foldl write c := by
  rw [outcome, List.foldl_append, all_locked locked, none_locked refused, flush, List.foldl_append]
  cases (own more).getLast? <;> rfl

/-- The lock is free for one update alone. -/
theorem outcome_locked_once {calls more : List (Call U)} {u : U}
    (refused : ∀ call ∈ calls, call.locked = false)
    (refused' : ∀ call ∈ more, call.locked = false) (c : C) :
    outcome write c (calls ++ .own u true :: more) =
      (u :: (own calls).getLast?.toList ++ (own more).getLast?.toList).foldl write c := by
  rw [outcome, List.foldl_append, List.foldl_cons, none_locked refused, step, flush,
    none_locked refused', flush, List.foldl_append, List.foldl_cons]
  cases (own calls).getLast? <;> cases (own more).getLast? <;> rfl

section
variable (Inv : C → Prop) {final : C} {last : U}

/-- An update that waits is the last one. -/
def Waits (cell : Cell C U) (updates : List U) : Prop :=
  ∀ u, cell.pending = some u → updates.getLast? = some u

variable {Inv}

theorem inv_flush {cell : Cell C U} (inv : Inv cell.content)
    (keeps : ∀ u, cell.pending = some u → ∀ c, Inv c → Inv (write c u)) :
    Inv (flush write cell).content := by
  rw [flush]
  cases waits : cell.pending with
  | none => exact inv
  | some u => exact keeps u waits _ inv

/-- Before the last update. -/
theorem inv_run {calls : List (Call U)} {c : C} (begins : Inv c)
    (keeps : ∀ u ∈ own calls, ∀ c, Inv c → Inv (write c u)) :
    Inv (calls.foldl (step write) ⟨c, none⟩).content ∧
      Waits (calls.foldl (step write) ⟨c, none⟩) (own calls) := by
  induction calls using List.reverseRecOn with
  | nil => exact ⟨begins, nofun⟩
  | append_singleton calls call ih =>
    rw [own_append] at keeps
    obtain ⟨inv, waits⟩ := ih fun u there => keeps u (List.mem_append_left _ there)
    have kept : ∀ u, (calls.foldl (step write) ⟨c, none⟩).pending = some u →
        ∀ c, Inv c → Inv (write c u) := fun u pending =>
      keeps u (List.mem_append_left _ (List.mem_of_getLast? (waits u pending)))
    rw [List.foldl_append, own_append, List.foldl_cons, List.foldl_nil]
    cases call with
    | own u locked =>
      cases locked with
      | true => exact ⟨inv_flush (keeps u (by simp [own, Call.update?]) _ inv) kept, nofun⟩
      | false =>
        refine ⟨inv, fun v pending => ?_⟩
        cases pending
        simp [own, Call.update?]
    | other locked =>
      cases locked with
      | true => exact ⟨inv_flush inv kept, nofun⟩
      | false =>
        refine ⟨inv, fun v pending => ?_⟩
        have waiting := waits v pending
        simpa [own, Call.update?] using waiting

/-- Behind the last update. -/
def Settled (Inv : C → Prop) (final : C) (last : U) (cell : Cell C U) : Prop :=
  cell = ⟨final, none⟩ ∨ (cell.pending = some last ∧ Inv cell.content)

theorem settled_flush {cell : Cell C U} (settled : Settled Inv final last cell)
    (writes : ∀ c, Inv c → write c last = final) : flush write cell = ⟨final, none⟩ := by
  rcases settled with rfl | ⟨pending, inv⟩
  · rfl
  · rw [flush, pending, Option.toList_some, List.foldl_cons, List.foldl_nil, writes _ inv]

theorem settled_run {calls : List (Call U)} {cell : Cell C U} (nothing : own calls = [])
    (settled : Settled Inv final last cell) (writes : ∀ c, Inv c → write c last = final) :
    Settled Inv final last (calls.foldl (step write) cell) := by
  induction calls generalizing cell with
  | nil => exact settled
  | cons call calls ih =>
    rw [own_cons] at nothing
    obtain ⟨not_own, rest⟩ := List.append_eq_nil_iff.mp nothing
    apply ih rest
    cases call with
    | own u locked => exact absurd not_own (List.cons_ne_nil _ _)
    | other locked =>
      cases locked with
      | true => exact Or.inl (settled_flush settled writes)
      | false => exact settled

/-- Where the last update says what is written, and is not changed by the one ahead of it, it
does not matter when the lock is free. -/
theorem outcome_eq (Inv : C → Prop) {earlier : List U} {c : C} {calls : List (Call U)}
    (owns : own calls = earlier ++ [last]) (begins : Inv c)
    (keeps : ∀ u ∈ earlier, ∀ c, Inv c → Inv (write c u))
    (writes : ∀ c, Inv c → write c last = final)
    (stays : ∀ u, earlier.getLast? = some u → write final u = final) :
    outcome write c calls = final := by
  obtain ⟨before, rest, rfl, before_owns, rest_owns⟩ := List.filterMap_eq_append_iff.mp owns
  obtain ⟨quiet, call, after, rfl, none_own, has_last, after_owns⟩ :=
    List.filterMap_eq_cons_iff.mp rest_owns
  have quiet_owns : own quiet = [] := List.filterMap_eq_nil_iff.mpr none_own
  have ahead : own (before ++ quiet) = earlier := by
    rw [own_append, quiet_owns, List.append_nil]
    exact before_owns
  obtain ⟨inv, waits⟩ : Inv ((before ++ quiet).foldl (step write) ⟨c, none⟩).content ∧
      Waits ((before ++ quiet).foldl (step write) ⟨c, none⟩) (own (before ++ quiet)) :=
    inv_run begins (by rwa [ahead])
  rw [ahead] at waits
  rw [outcome, ← List.append_assoc, List.foldl_append, List.foldl_cons]
  refine congrArg Cell.content (settled_flush (settled_run after_owns ?_ writes) writes)
  cases call with
  | other => cases has_last
  | own u locked =>
    obtain rfl : u = last := Option.some.inj has_last
    cases locked with
    | false => exact Or.inr ⟨rfl, inv⟩
    | true =>
      left
      rw [step, flush]
      dsimp only
      rw [writes _ inv]
      cases pending : ((before ++ quiet).foldl (step write) ⟨c, none⟩).pending with
      | none => rfl
      | some v =>
        rw [Option.toList_some, List.foldl_cons, List.foldl_nil, stays v (waits v pending)]

theorem outcome_none {c : C} {calls : List (Call U)} (nothing : own calls = []) :
    outcome write c calls = c := by
  have run : ∀ cell : Cell C U, cell = ⟨c, none⟩ → calls.foldl (step write) cell = ⟨c, none⟩ := by
    induction calls with
    | nil => exact fun _ same => same
    | cons call calls ih =>
      rw [own_cons] at nothing
      obtain ⟨not_own, rest⟩ := List.append_eq_nil_iff.mp nothing
      rintro cell rfl
      cases call with
      | own u locked => exact absurd not_own (List.cons_ne_nil _ _)
      | other locked => cases locked <;> exact ih rest _ rfl
  rw [outcome, run _ rfl]
  rfl

end

end DeferredWrites
