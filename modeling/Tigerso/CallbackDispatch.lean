import Tigerso.ConnectionFactory

/-!
# net/EventsLoop: the callbacks that one event of a channel leads to

`bound` are the callbacks of the channel in a state, and none are bound when it is unregistered.
`invoke` is the call of one, which may not return.
-/

namespace CallbackDispatch

variable {σ H : Type}

/-- The callback of a test; connections set none in front of the tests and none behind them. -/
def callbackOf : Stage → Option CallbackKind
  | .before => none
  | .rdhup => some .rdhup
  | .hup => some .error
  | .error => some .error
  | .readable => some .readable
  | .writeable => some .writeable
  | .after => none

/-- The tests of `waitChannel`. -/
def stages : List Stage := [.before, .rdhup, .hup, .error, .readable, .writeable, .after]

/-- Behind these results the channel is left. -/
def Leaves (ret : Int) : Prop := ret = eventCallbackBreak ∨ ret = eventCallbackDropwaited

instance (ret : Int) : Decidable (Leaves ret) :=
  inferInstanceAs (Decidable (ret = eventCallbackBreak ∨ ret = eventCallbackDropwaited))

/-- The handler that a test calls. -/
def called (bound : σ → CallbackKind → Option H) (events : EventMask) (stage : Stage) (s : σ) :
    Option H :=
  if EventsLoop.wanted events stage then (callbackOf stage).bind (bound s) else none

/-- The tests of one event; no result when a callback does not return. -/
def dispatch (bound : σ → CallbackKind → Option H)
    (invoke : Stage → H → σ → Option (Int × σ)) (events : EventMask) : List Stage → σ → Option σ
  | [], s => some s
  | stage :: rest, s =>
    match called bound events stage s with
    | none => dispatch bound invoke events rest s
    | some handler =>
      match invoke stage handler s with
      | none => none
      | some (ret, s) => if Leaves ret then some s else dispatch bound invoke events rest s

/-- The calls of one event, each with the state that it finds, and what is left behind them. -/
def traced (bound : σ → CallbackKind → Option H)
    (invoke : Stage → H → σ → Option (Int × σ)) (events : EventMask) :
    List Stage → σ → List (Stage × H × σ) × Option σ
  | [], s => ([], some s)
  | stage :: rest, s =>
    match called bound events stage s with
    | none => traced bound invoke events rest s
    | some handler =>
      match invoke stage handler s with
      | none => ([(stage, handler, s)], none)
      | some (ret, s') =>
        if Leaves ret then ([(stage, handler, s)], some s')
        else
          let (calls, left) := traced bound invoke events rest s'
          ((stage, handler, s) :: calls, left)

section
variable {bound : σ → CallbackKind → Option H} {invoke : Stage → H → σ → Option (Int × σ)}
  {events : EventMask}

theorem traced_dispatch (left : List Stage) (s : σ) :
    (traced bound invoke events left s).2 = dispatch bound invoke events left s := by
  induction left generalizing s with
  | nil => rfl
  | cons stage rest ih =>
    rw [traced, dispatch]
    cases called bound events stage s with
    | none => exact ih s
    | some handler =>
      dsimp only
      cases invoke stage handler s with
      | none => rfl
      | some answer =>
        dsimp only
        split_ifs
        · rfl
        · exact ih answer.2

/-- The handler is called at a test, in a state with the property. -/
def CallsAt (bound : σ → CallbackKind → Option H) (invoke : Stage → H → σ → Option (Int × σ))
    (events : EventMask) (at_ : Stage) (handler : H) (there : σ → Prop) (left : List Stage)
    (s : σ) : Prop :=
  ∃ s', (at_, handler, s') ∈ (traced bound invoke events left s).1 ∧ there s'

variable {at_ stage : Stage} {handler : H} {there : σ → Prop} {rest : List Stage} {s : σ}

/-- A test that calls nothing. -/
theorem callsAt_passes (none_ : called bound events stage s = none) :
    CallsAt bound invoke events at_ handler there (stage :: rest) s ↔
      CallsAt bound invoke events at_ handler there rest s := by
  rw [CallsAt, traced, none_, CallsAt]

/-- Another test that makes a call: behind it the channel is left, or the tests go on. -/
theorem callsAt_calls {h : H} {ret : Int} {s' : σ} (here : called bound events stage s = some h)
    (invoked : invoke stage h s = some (ret, s')) (other : stage ≠ at_) :
    CallsAt bound invoke events at_ handler there (stage :: rest) s ↔
      ¬ Leaves ret ∧ CallsAt bound invoke events at_ handler there rest s' := by
  rw [CallsAt, traced, here]
  dsimp only
  rw [invoked]
  dsimp only
  split_ifs with leaves
  · refine iff_of_false ?_ fun both => both.1 leaves
    rintro ⟨t, inside, _⟩
    exact other (Prod.mk.inj (List.mem_singleton.mp inside)).1.symm
  · rw [CallsAt]
    constructor
    · rintro ⟨t, inside, fine⟩
      rcases List.mem_cons.mp inside with first | later
      · exact absurd (Prod.mk.inj first).1.symm other
      · exact ⟨leaves, t, later, fine⟩
    · rintro ⟨_, t, later, fine⟩
      exact ⟨t, List.mem_cons_of_mem _ later, fine⟩

/-- The calls are made at the tests. -/
theorem mem_traced {call : Stage × H × σ} {left : List Stage}
    (inside : call ∈ (traced bound invoke events left s).1) : call.1 ∈ left := by
  induction left generalizing s with
  | nil => cases inside
  | cons stage rest ih =>
    rw [traced] at inside
    cases here : called bound events stage s with
    | none =>
      rw [here] at inside
      exact List.mem_cons_of_mem _ (ih inside)
    | some handler =>
      rw [here] at inside
      dsimp only at inside
      cases answer : invoke stage handler s with
      | none =>
        rw [answer] at inside
        rw [List.mem_singleton.mp inside]
        exact List.mem_cons_self
      | some answered =>
        rw [answer] at inside
        dsimp only at inside
        split_ifs at inside
        · rw [List.mem_singleton.mp inside]
          exact List.mem_cons_self
        · rcases List.mem_cons.mp inside with rfl | later
          · exact List.mem_cons_self
          · exact List.mem_cons_of_mem _ (ih later)

/-- The test itself, when it is not made again. -/
theorem callsAt_here (once : at_ ∉ rest) :
    CallsAt bound invoke events at_ handler there (at_ :: rest) s ↔
      called bound events at_ s = some handler ∧ there s := by
  constructor
  · rintro ⟨t, inside, fine⟩
    cases here : called bound events at_ s with
    | none =>
      rw [traced, here] at inside
      exact absurd (mem_traced inside) once
    | some h =>
      rw [traced, here] at inside
      dsimp only at inside
      have first : (at_, handler, t) = (at_, h, s) ∨
          ∃ s', (at_, handler, t) ∈ (traced bound invoke events rest s').1 := by
        cases answer : invoke at_ h s with
        | none =>
          rw [answer] at inside
          exact Or.inl (List.mem_singleton.mp inside)
        | some answered =>
          rw [answer] at inside
          dsimp only at inside
          split_ifs at inside
          · exact Or.inl (List.mem_singleton.mp inside)
          · rcases List.mem_cons.mp inside with same | later
            · exact Or.inl same
            · exact Or.inr ⟨_, later⟩
      rcases first with same | ⟨s', later⟩
      · cases same
        exact ⟨rfl, fine⟩
      · exact absurd (mem_traced later) once
  · rintro ⟨here, fine⟩
    refine ⟨s, ?_, fine⟩
    rw [traced, here]
    dsimp only
    cases invoke at_ handler s with
    | none => exact List.mem_singleton.mpr rfl
    | some answered =>
      dsimp only
      split_ifs
      · exact List.mem_singleton.mpr rfl
      · exact List.mem_cons_self

/-- A property of the tests that are still to be made and of the state. -/
theorem dispatch_returns (Inv : List Stage → σ → Prop) (Post : σ → Prop)
    (ends : ∀ s, Inv [] s → Post s)
    (passes : ∀ stage rest s, called bound events stage s = none → Inv (stage :: rest) s →
      Inv rest s)
    (calls : ∀ stage rest s handler, called bound events stage s = some handler →
      Inv (stage :: rest) s → ∃ ret s', invoke stage handler s = some (ret, s') ∧
        (Leaves ret → Post s') ∧ (¬ Leaves ret → Inv rest s'))
    {left : List Stage} {s : σ} (inv : Inv left s) :
    ∃ s', dispatch bound invoke events left s = some s' ∧ Post s' := by
  induction left generalizing s with
  | nil => exact ⟨s, rfl, ends s inv⟩
  | cons stage rest ih =>
    rw [dispatch]
    cases here : called bound events stage s with
    | none => exact ih (passes stage rest s here inv)
    | some handler =>
      obtain ⟨ret, s', invoked, leaves, goes⟩ := calls stage rest s handler here inv
      dsimp only
      rw [invoked]
      dsimp only
      split_ifs with left
      · exact ⟨s', rfl, leaves left⟩
      · exact ih (goes left)

theorem called_some {stage : Stage} {s : σ} {handler : H}
    (here : called bound events stage s = some handler) : EventsLoop.wanted events stage = true ∧
      ∃ kind, callbackOf stage = some kind ∧ bound s kind = some handler := by
  rw [called] at here
  split_ifs at here with wanted
  exact ⟨wanted, Option.bind_eq_some_iff.mp here⟩

end

end CallbackDispatch
