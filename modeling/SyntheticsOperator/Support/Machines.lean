import Mathlib.Data.List.Infix

/-!
# Partial machines

A machine has a step function that is `none` where a step is not possible.  `run` plays
a history; `run_invariant` is the rule for what holds of the state, and of the history
that led to it, whenever the history can be played.
-/

namespace SyntheticsOperator.Support.Machine

variable {σ α : Type*} (step : σ → α → Option σ)

/-- The state after a history, if every step of it is possible. -/
def run (init : σ) (history : List α) : Option σ := history.foldlM step init

variable {step} {init s s' : σ} {history : List α} {a : α}

@[simp] theorem run_nil : run step init [] = some init := rfl

theorem run_snoc_eq_some :
    run step init (history ++ [a]) = some s' ↔
      ∃ s, run step init history = some s ∧ step s a = some s' := by
  simp only [run, List.foldlM_append, List.foldlM_cons, List.foldlM_nil, Option.bind_eq_bind,
    Option.bind_eq_some_iff, Option.pure_def]
  constructor
  · rintro ⟨s, hs, t, ht, heq⟩
    cases heq
    exact ⟨s, hs, ht⟩
  · rintro ⟨s, hs, hstep⟩
    exact ⟨s, hs, s', hstep, rfl⟩

/-- What holds at the start and survives every possible step holds after every history
that can be played. -/
theorem run_invariant {I : List α → σ → Prop} (hinit : I [] init)
    (hstep : ∀ history s a s', I history s → step s a = some s' → I (history ++ [a]) s')
    (hrun : run step init history = some s) : I history s := by
  induction history using List.reverseRecOn generalizing s with
  | nil =>
      cases hrun
      exact hinit
  | append_singleton history a ih =>
      obtain ⟨s₀, hs₀, hs⟩ := run_snoc_eq_some.mp hrun
      exact hstep history s₀ a s (ih hs₀) hs

end SyntheticsOperator.Support.Machine
