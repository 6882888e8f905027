import Mathlib.Tactic.SplitIfs

/-!
# Runs whose steps all meet a condition

A machine takes a step at an event when it can. Of a run is asked that every step is taken in a
state where its event meets the condition.
-/

namespace GuardedRuns

variable {σ ε : Type} (step : σ → ε → Option σ) (Met : σ → ε → Prop)

inductive Reaches (first : σ) : σ → Prop
  | start : Reaches first first
  | next {s s' : σ} {e : ε} (run : Reaches first s) (met : Met s e) (steps : step s e = some s') :
      Reaches first s'

/-- The state behind a list of events that all meet the condition. -/
def follow [∀ s e, Decidable (Met s e)] (s : σ) : List ε → Option σ
  | [] => some s
  | e :: rest => if Met s e then (step s e).bind fun s' => follow s' rest else none

variable {step Met}

/-- What the first state has and the steps keep is true of every state that is reached. -/
theorem Reaches.invariant {first s : σ} (Inv : σ → Prop) (run : Reaches step Met first s)
    (begins : Inv first)
    (keeps : ∀ s e s', Inv s → Met s e → step s e = some s' → Inv s') : Inv s := by
  induction run with
  | start => exact begins
  | next _ met steps ih => exact keeps _ _ _ ih met steps

theorem Reaches.append {first s s' : σ} (run : Reaches step Met first s)
    (more : Reaches step Met s s') : Reaches step Met first s' := by
  induction more with
  | start => exact run
  | next _ met steps ih => exact ih.next met steps

theorem reaches_of_follow [∀ s e, Decidable (Met s e)] {events : List ε} {s s' : σ}
    (followed : follow step Met s events = some s') : Reaches step Met s s' := by
  induction events generalizing s with
  | nil =>
    obtain rfl := Option.some.inj followed
    exact .start
  | cons e rest ih =>
    rw [follow] at followed
    split_ifs at followed with met
    obtain ⟨next, steps, followed⟩ := Option.bind_eq_some_iff.mp followed
    exact (Reaches.start.next met steps).append (ih followed)

section
variable {τ : Type} (step : σ → ε → Option σ) (Met : σ → ε → Prop) (shows : σ → ε → List τ)

/-- What the events of a run show; one that has no step is the last. -/
def trace : σ → List ε → List τ
  | _, [] => []
  | s, e :: rest => shows s e ++ (step s e).elim [] fun s' => trace s' rest

/-- Every event of a run meets the condition where it happens. -/
def Throughout : σ → List ε → Prop
  | _, [] => True
  | s, e :: rest => Met s e ∧ ∀ s', step s e = some s' → Throughout s' rest

variable {step Met shows}

/-- Under an invariant an event shows what it should exactly when it meets the condition, and then
keeps the invariant: the same is true of runs. -/
theorem forall_trace_iff {Good : τ → Prop} (Inv : σ → Prop)
    (exact_ : ∀ s e, Inv s → ((∀ t ∈ shows s e, Good t) ↔ Met s e))
    (keeps : ∀ s e s', Inv s → Met s e → step s e = some s' → Inv s') {s : σ} (begins : Inv s)
    (events : List ε) :
    (∀ t ∈ trace step shows s events, Good t) ↔ Throughout step Met s events := by
  induction events generalizing s with
  | nil => exact iff_of_true (List.forall_mem_nil _) trivial
  | cons e rest ih =>
    rw [trace, Throughout, List.forall_mem_append, exact_ s e begins]
    refine and_congr_right fun met => ?_
    cases steps : step s e with
    | none =>
      exact iff_of_true (List.forall_mem_nil _) fun s' same =>
        absurd same.symm (Option.some_ne_none s')
    | some next =>
      rw [Option.elim_some, ih (keeps s e next begins met steps)]
      exact ⟨fun later s' same => Option.some.inj same ▸ later, fun later => later next rfl⟩

end

end GuardedRuns
