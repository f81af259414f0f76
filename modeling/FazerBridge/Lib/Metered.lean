import Mathlib.Algebra.Order.Ring.Defs
import Mathlib.Tactic.Linarith

/-!
# Metered grants

A level that grows at a rate up to a capacity, and that every grant lowers by one.
`Metered` says what it allows: no window of time holds more grants than the capacity
and what flowed in meanwhile.  It is kept by letting time pass and by granting one
where the level is one or more.
-/

universe u

namespace Metered

variable {K : Type u} [LinearOrder K]

/-- The grants in a window of time. -/
def granted (since till : K) (grants : List K) : ℕ :=
  grants.countP fun g => decide (since ≤ g ∧ g ≤ till)

variable {since till : K} {grants : List K}

theorem granted_cons (since till now : K) (grants : List K) :
    granted since till (now :: grants) =
      granted since till grants + if since ≤ now ∧ now ≤ till then 1 else 0 := by
  rw [granted, List.countP_cons]
  simp [granted]

theorem granted_eq_zero (before : ∀ g ∈ grants, g < since) : granted since till grants = 0 := by
  rw [granted, List.countP_eq_zero]
  intro g mem inside
  exact absurd (of_decide_eq_true inside).1 (not_le.mpr (before g mem))

/-- All grants are known by the end of the window, so a longer one holds no more. -/
theorem granted_till {last : K} (past : ∀ g ∈ grants, g ≤ last) (later : last ≤ till) :
    granted since till grants = granted since last grants := by
  unfold granted
  refine List.countP_congr fun g mem => ?_
  have known := past g mem
  simp [known, known.trans later]

end Metered

open Metered

/-- The level of a meter at `last`, and the grants so far. -/
structure Metered {K : Type u} [CommRing K] [LinearOrder K] [IsStrictOrderedRing K]
    (capacity rate level last : K) (grants : List K) : Prop where
  nonneg : 0 ≤ level
  capped : level ≤ capacity
  past : ∀ g ∈ grants, g ≤ last
  /-- what was granted since some time and what is left came from the capacity or flowed in -/
  since : ∀ s ≤ last, (granted s last grants : K) + level ≤ capacity + rate * (last - s)
  window : ∀ s t, s ≤ t → (granted s t grants : K) ≤ capacity + rate * (t - s)

namespace Metered

variable {K : Type u} [CommRing K] [LinearOrder K] [IsStrictOrderedRing K]
  {capacity rate level last now : K} {grants : List K}

theorem full (nonneg : 0 ≤ capacity) (pos : 0 ≤ rate) (now : K) :
    Metered capacity rate capacity now [] where
  nonneg := nonneg
  capped := le_rfl
  past := nofun
  since s earlier := by
    have flow := mul_nonneg pos (sub_nonneg.mpr earlier)
    simp only [granted, List.countP_nil, Nat.cast_zero, zero_add]
    linarith
  window s t ordered := by
    have flow := mul_nonneg pos (sub_nonneg.mpr ordered)
    simp only [granted, List.countP_nil, Nat.cast_zero]
    linarith

/-- Time passes, and the level grows with it up to the capacity. -/
theorem refill (metered : Metered capacity rate level last grants) (pos : 0 ≤ rate)
    (later : last ≤ now) :
    Metered capacity rate (min capacity (level + (now - last) * rate)) now grants where
  nonneg := by
    have flow := mul_nonneg (sub_nonneg.mpr later) pos
    exact le_min (metered.nonneg.trans metered.capped) (add_nonneg metered.nonneg flow)
  capped := min_le_left _ _
  past g mem := (metered.past g mem).trans later
  since s earlier := by
    rw [granted_till metered.past later]
    rcases le_total s last with known | fresh
    · have before := metered.since s known
      have level_le := min_le_right capacity (level + (now - last) * rate)
      linarith
    · -- nothing was granted after the last reading
      have flow := mul_nonneg pos (sub_nonneg.mpr earlier)
      rcases eq_or_lt_of_le fresh with rfl | fresh
      · have before := metered.since last le_rfl
        have level_le := min_le_right capacity (level + (now - last) * rate)
        linarith
      · rw [granted_eq_zero fun g mem => (metered.past g mem).trans_lt fresh, Nat.cast_zero, zero_add]
        have level_le := min_le_left capacity (level + (now - last) * rate)
        linarith
  window := metered.window

/-- One is granted, where the level is one or more. -/
theorem grant (metered : Metered capacity rate level last grants) (pos : 0 ≤ rate)
    (enough : 1 ≤ level) :
    Metered capacity rate (level - 1) last (last :: grants) where
  nonneg := sub_nonneg.mpr enough
  capped := by linarith [metered.capped]
  past g mem := by
    rcases List.mem_cons.mp mem with rfl | mem
    · exact le_rfl
    · exact metered.past g mem
  since s earlier := by
    have before := metered.since s earlier
    rw [granted_cons, if_pos ⟨earlier, le_rfl⟩]
    push_cast
    linarith
  window s t ordered := by
    rw [granted_cons]
    split
    · rename_i inside
      have before := metered.since s inside.1
      rw [granted_till metered.past inside.2]
      have later := mul_nonneg pos (sub_nonneg.mpr inside.2)
      push_cast
      linarith
    · rw [Nat.add_zero]
      exact metered.window s t ordered

end Metered
