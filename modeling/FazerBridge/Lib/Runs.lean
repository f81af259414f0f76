import Mathlib.Logic.Relation

/-!
# Runs of guarded steps

`Step s a s'`: the action `a` takes `s` to `s'`.  `Allowed Step Guard` are the
steps whose action the guard permits in the state it starts from.  What such a
step preserves, a run of them preserves.
-/

universe u v

namespace Runs

variable {σ : Type u} {α : Type v} {Step : σ → α → σ → Prop} {Guard : σ → α → Prop}

/-- A step by an action that the guard permits. -/
def Allowed (Step : σ → α → σ → Prop) (Guard : σ → α → Prop) (s s' : σ) : Prop :=
  ∃ a, Guard s a ∧ Step s a s'

theorem invariant {Inv : σ → Prop}
    (step : ∀ s a s', Inv s → Guard s a → Step s a s' → Inv s') {s s' : σ}
    (run : Relation.ReflTransGen (Allowed Step Guard) s s') (start : Inv s) : Inv s' := by
  induction run with
  | refl => exact start
  | tail _ last ih =>
      obtain ⟨a, guard, taken⟩ := last
      exact step _ a _ ih guard taken

/-- A reachable state without `P` refutes it. -/
theorem not_invariant {P : σ → Prop} {s s' : σ}
    (run : Relation.ReflTransGen (Allowed Step Guard) s s') (fails : ¬ P s') :
    ¬ ∀ s', Relation.ReflTransGen (Allowed Step Guard) s s' → P s' :=
  fun all => fails (all s' run)

end Runs
