import FazerBridge.Text.Numerals

/-!
# Floats of amounts

The amounts of titles are floats, and `_denominations_conflict` subtracts them.  Up to
`2 ^ 45` rounding moves two amounts by less than a cent; beyond it the floats lie on a grid
wider than the tolerance of the gate.  So the gate tells two amounts of cents apart exactly
if they are different floats (`farApart_iff`).
-/

namespace FazerBridge

theorem close_roundHalfEven (x : ℚ) (nonneg : 0 ≤ x) :
    |((roundHalfEven x.num.toNat x.den : ℕ) : ℤ) - x| ≤ 1 / 2 := by
  have whole : ((x.num.toNat : ℕ) : ℚ) / x.den = x := by
    have num : ((x.num.toNat : ℕ) : ℤ) = x.num := Int.toNat_of_nonneg (Rat.num_nonneg.mpr nonneg)
    rw [← Int.cast_natCast, num, Rat.num_div_den]
  have same := Pricing.roundHalfEven_natCast_div x.num.toNat x.den x.den_pos
  rw [whole] at same
  rw [← same]
  exact Pricing.abs_roundHalfEven_sub_le x

/-- The float next to a number, had floats no greatest one. -/
def nearestFloat (x : ℚ) : ℚ := Floating.nearest (fun q => roundHalfEven q.num.toNat q.den) x

theorem toFloat_eq (x : ℚ) :
    toFloat x = if nearestFloat x < 2 ^ 1024 then (nearestFloat x : WithTop ℚ) else ⊤ := rfl

/-- Two numbers with a thousandth between them, and what rounding can move. -/
theorem toFloat_lt_toFloat {a b : ℚ} (nonneg : 0 ≤ a) (short : a ≤ 1000)
    (far : a + 1 / 1024 / 1024 ≤ b) : toFloat a < toFloat b := by
  have least : (2 : ℚ) ^ (-1074 : ℤ) ≤ 2 ^ (-50 : ℤ) := zpow_le_zpow_right₀ one_le_two (by norm_num)
  have limit : (1000 : ℚ) ≤ 2 ^ 1023 :=
    le_trans (by norm_num : (1000 : ℚ) ≤ 2 ^ 10) (pow_le_pow_right₀ one_le_two (by norm_num))
  apply Floating.toDouble_lt_toDouble close_roundHalfEven nonneg (short.trans limit)
  generalize (2 : ℚ) ^ (-1074 : ℤ) = tiny at least
  norm_num at least far ⊢
  linarith

/-- Cents whose floats differ are not close as floats either. -/
theorem le_abs_nearestFloat_sub {a b : ℚ} (nonneg : 0 ≤ b) (cent : b + 1 / 100 ≤ a)
    (differ : nearestFloat a ≠ nearestFloat b) : 1 / 512 ≤ |nearestFloat a - nearestFloat b| := by
  have movedA := abs_le.mp (Floating.abs_nearest_sub_le close_roundHalfEven
    (show (0 : ℚ) ≤ a by linarith))
  have movedB := abs_le.mp (Floating.abs_nearest_sub_le close_roundHalfEven nonneg)
  change _ ≤ nearestFloat a - a ∧ nearestFloat a - a ≤ _ at movedA
  change _ ≤ nearestFloat b - b ∧ nearestFloat b - b ≤ _ at movedB
  have least : (2 : ℚ) ^ (-1074 : ℤ) ≤ 2 ^ (-50 : ℤ) := zpow_le_zpow_right₀ one_le_two (by norm_num)
  generalize (2 : ℚ) ^ (-1074 : ℤ) = tiny at movedA movedB least
  norm_num at movedA movedB least
  by_cases large : (2 : ℚ) ^ 45 ≤ a
  · by_cases grid : (2 : ℚ) ^ (44 : ℤ) ≤ b
    · -- both floats are multiples of `2 ^ (-8)`
      obtain ⟨m, first⟩ : ∃ m : ℤ, nearestFloat a = m * 2 ^ ((44 : ℤ) - 52) :=
        Floating.nearest_multiple (by norm_num) (grid.trans (by linarith))
      obtain ⟨n, second⟩ : ∃ n : ℤ, nearestFloat b = n * 2 ^ ((44 : ℤ) - 52) :=
        Floating.nearest_multiple (by norm_num) grid
      have other : m - n ≠ 0 := fun same =>
        differ (by rw [first, second, sub_eq_zero.mp same])
      have one : (1 : ℚ) ≤ |((m - n : ℤ) : ℚ)| := by exact_mod_cast Int.one_le_abs other
      have steps : nearestFloat a - nearestFloat b = ((m - n : ℤ) : ℚ) * (1 / 256) := by
        rw [first, second]
        norm_num
        ring
      rw [steps, abs_mul, abs_of_pos (by norm_num : (0 : ℚ) < 1 / 256)]
      linarith
    · norm_num at large grid
      exact le_trans (by linarith) (le_abs_self _)
  · norm_num at large
    exact le_trans (by linarith) (le_abs_self _)

/-- The gate on the amounts. -/
def FarApart (x y : WithTop ℚ) : Prop :=
  (floatDistance x y).any (fun distance => toFloat (1 / 1000) < distance)

theorem farApart_of_nearest {a b : ℚ} (far : 1 / 512 ≤ |a - b|) :
    FarApart (a : WithTop ℚ) (b : WithTop ℚ) := by
  have less : toFloat (1 / 1000) < toFloat |a - b| :=
    toFloat_lt_toFloat (by norm_num) (by norm_num) (le_trans (by norm_num) far)
  change (some (toFloat |a - b|)).any _ = true
  simpa using less

/-- The distance of a float from itself is no distance, `nan` included. -/
theorem not_farApart_self (x : WithTop ℚ) : ¬ FarApart x x := by
  cases x with
  | top => exact Bool.false_ne_true
  | coe x =>
      have less : toFloat 0 < toFloat (1 / 1000) :=
        toFloat_lt_toFloat le_rfl (by norm_num) (by norm_num)
      change ¬ (some (toFloat |x - x|)).any _ = true
      rw [sub_self, abs_zero, Option.any_some, decide_eq_true_eq]
      exact not_lt.mpr less.le

/-- No tolerance reaches infinity. -/
theorem tolerance_lt_top : toFloat (1 / 1000) < ⊤ := by
  have less : toFloat (1 / 1000) < toFloat 1 :=
    toFloat_lt_toFloat (by norm_num) (by norm_num) (by norm_num)
  exact less.trans_le le_top

/-- Different amounts of cents are told apart exactly if they are different floats. -/
theorem farApart_iff {a b : ℚ} (nonnegA : 0 ≤ a) (nonnegB : 0 ≤ b) (cent : 1 / 100 ≤ |a - b|) :
    FarApart (toFloat a) (toFloat b) ↔ toFloat a ≠ toFloat b := by
  constructor
  · intro apart same
    rw [same] at apart
    exact not_farApart_self _ apart
  · intro differ
    rw [toFloat_eq a, toFloat_eq b] at differ ⊢
    split_ifs at differ ⊢
    · have apart : nearestFloat a ≠ nearestFloat b := fun same => differ (by rw [same])
      rcases le_total b a with below | below
      · rw [abs_of_nonneg (sub_nonneg.mpr below)] at cent
        exact farApart_of_nearest (le_abs_nearestFloat_sub nonnegB (by linarith) apart)
      · rw [abs_of_nonpos (sub_nonpos.mpr below)] at cent
        have far := le_abs_nearestFloat_sub nonnegA (by linarith) apart.symm
        rw [abs_sub_comm] at far
        exact farApart_of_nearest far
    · exact decide_eq_true tolerance_lt_top
    · exact decide_eq_true tolerance_lt_top
    · exact absurd rfl differ

end FazerBridge
