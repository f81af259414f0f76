import Mathlib.Data.List.Basic

/-!
# Revocation

A log of events, each of which may revoke or renew a subject.  A subject is
`Revoked` by a log that revokes it and does not renew it afterwards; the log is
`Respected` when no event uses a subject that the events before it have revoked.
Both are decided by the last event, so an invariant over a growing log is a fact
about one step.
-/

universe u v

/-- What the events of a log mean for the subjects. -/
structure Revocation (ε : Type u) (τ : Type v) where
  revokes : ε → τ → Prop
  renews : ε → τ → Prop

namespace Revocation

variable {ε : Type u} {τ : Type v} (p : Revocation ε τ) {uses : ε → τ → Prop} {log : List ε}
  {e : ε} {t : τ}

/-- The log, oldest event first, revokes `t` and does not renew it afterwards. -/
def Revoked (log : List ε) (t : τ) : Prop :=
  ∃ before e after, log = before ++ e :: after ∧ p.revokes e t ∧ ∀ x ∈ after, ¬ p.renews x t

/-- No event of the log uses what the events before it have revoked. -/
def Respected (uses : ε → τ → Prop) (log : List ε) : Prop :=
  ∀ before e after, log = before ++ e :: after → ∀ t, uses e t → ¬ p.Revoked before t

theorem not_revoked_nil : ¬ p.Revoked [] t := by
  intro found
  obtain ⟨before, e, after, split, -⟩ := found
  exact List.append_ne_nil_of_right_ne_nil before (List.cons_ne_nil e after) split.symm

/-- The last event has the last word. -/
theorem revoked_concat :
    p.Revoked (log ++ [e]) t ↔ p.revokes e t ∨ p.Revoked log t ∧ ¬ p.renews e t := by
  constructor
  · intro found
    obtain ⟨before, x, after, split, revokes, keeps⟩ := found
    rcases List.eq_nil_or_concat after with rfl | ⟨after, last, rfl⟩
    · obtain ⟨-, same⟩ := List.append_inj' split rfl
      cases same
      exact .inl revokes
    · rw [List.concat_eq_append, ← List.cons_append, ← List.append_assoc] at split
      obtain ⟨rfl, last⟩ := List.append_inj' split rfl
      rw [List.concat_eq_append] at keeps
      cases last
      exact .inr ⟨⟨before, x, after, rfl, revokes, fun y mem =>
        keeps y (List.mem_append_left _ mem)⟩, keeps e (List.mem_concat_self ..)⟩
  · intro either
    rcases either with revokes | ⟨⟨before, x, after, rfl, revokes, keeps⟩, keep⟩
    · exact ⟨log, e, [], rfl, revokes, nofun⟩
    · refine ⟨before, x, after ++ [e], by rw [List.append_assoc, List.cons_append], revokes, ?_⟩
      rintro y mem
      rcases List.mem_append.mp mem with mem | mem
      · exact keeps y mem
      · rw [List.mem_singleton.mp mem]
        exact keep

theorem respected_nil : p.Respected uses [] := fun before e after split =>
  absurd split.symm (List.append_ne_nil_of_right_ne_nil before (List.cons_ne_nil e after))

theorem respected_concat :
    p.Respected uses (log ++ [e]) ↔
      p.Respected uses log ∧ ∀ t, uses e t → ¬ p.Revoked log t := by
  constructor
  · refine fun respected => ⟨fun before x after split => ?_, respected log e [] rfl⟩
    refine respected before x (after ++ [e]) ?_
    rw [split, List.append_assoc, List.cons_append]
  · rintro ⟨respected, last⟩ before x after split
    rcases List.eq_nil_or_concat after with rfl | ⟨after, y, rfl⟩
    · obtain ⟨rfl, same⟩ := List.append_inj' split rfl
      cases same
      exact last
    · rw [List.concat_eq_append, ← List.cons_append, ← List.append_assoc] at split
      exact respected before x after (List.append_inj' split rfl).1

end Revocation
