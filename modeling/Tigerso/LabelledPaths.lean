import Mathlib.Data.List.Basic

/-!
# Paths of a labelled transition relation

A relation says from which state a label leads to which. What is reported by a machine is a path
of such a relation, and an order between two kinds of labels follows from a set of states.
-/

namespace LabelledPaths

variable {σ α : Type} (Next : σ → α → σ → Prop)

inductive Path : σ → List α → σ → Prop
  | done (s : σ) : Path s [] s
  | step {s s' t : σ} {a : α} {labels : List α} (first : Next s a s') (rest : Path s' labels t) :
      Path s (a :: labels) t

variable {Next}

theorem Path.append {s s' t : σ} {labels more : List α} (path : Path Next s labels s')
    (rest : Path Next s' more t) : Path Next s (labels ++ more) t := by
  induction path with
  | done => exact rest
  | step first _ ih => exact .step first (ih rest)

theorem Path.snoc {s s' t : σ} {labels : List α} {a : α} (path : Path Next s labels s')
    (last : Next s' a t) : Path Next s (labels ++ [a]) t :=
  path.append (.step last (.done t))

/-- What is true of the labels so far and of the state, and is kept by every step, is true at the
end of a path. -/
theorem Path.shows (Shows : List α → σ → Prop) {s t : σ} {labels : List α}
    (path : Path Next s labels t) (begins : Shows [] s)
    (keeps : ∀ labels s a s', Shows labels s → Next s a s' → Shows (labels ++ [a]) s') :
    Shows labels t := by
  suffices from_ : ∀ before, Shows before s → Shows (before ++ labels) t from from_ [] begins
  clear begins
  induction path with
  | done =>
    intro before shown
    rw [List.append_nil]
    exact shown
  | @step s s' t a labels first _ ih =>
    intro before shown
    rw [List.append_cons]
    exact ih _ (keeps _ _ _ _ shown first)

/-- A label of a path stands between two states. -/
theorem Path.split {s t : σ} {pre post : List α} {a : α}
    (path : Path Next s (pre ++ a :: post) t) :
    ∃ s' s'', Path Next s pre s' ∧ Next s' a s'' := by
  induction pre generalizing s with
  | nil =>
    cases path with
    | step first _ => exact ⟨s, _, .done s, first⟩
  | cons b pre ih =>
    cases path with
    | step first rest =>
      obtain ⟨s', s'', before, here⟩ := ih rest
      exact ⟨s', s'', .step first before, here⟩

/-- As long as no early label was met the states are of a set from which no late label leads: so
a late label has an early one before it. -/
theorem Path.early_first (Before : σ → Prop) (Early Late : α → Prop) {s t : σ} {labels : List α}
    (path : Path Next s labels t) (begins : Before s)
    (stays : ∀ s a s', Before s → Next s a s' → Early a ∨ Before s')
    (none_late : ∀ s a s', Before s → Next s a s' → ¬ Late a) {late : α} (met : late ∈ labels)
    (is_late : Late late) :
    ∃ pre a post, labels = pre ++ a :: post ∧ Early a ∧ ∀ b ∈ pre, ¬ Late b := by
  induction path with
  | done => exact absurd met List.not_mem_nil
  | @step s s' t a labels first _ ih =>
    rcases stays s a s' begins first with early | before
    · exact ⟨[], a, labels, rfl, early, by simp⟩
    · have other : late ∈ labels := by
        rcases List.mem_cons.mp met with rfl | later
        · exact absurd is_late (none_late _ _ _ begins first)
        · exact later
      obtain ⟨pre, b, post, rfl, early, clear⟩ := ih before other
      refine ⟨a :: pre, b, post, rfl, early, ?_⟩
      intro c inside
      rcases List.mem_cons.mp inside with rfl | inside
      · exact none_late _ _ _ begins first
      · exact clear c inside

end LabelledPaths
