import Mathlib.Algebra.Order.Round
import Mathlib.Data.Int.Log
import Mathlib.Data.Rat.Floor
import Mathlib.Tactic.Linarith
import Mathlib.Tactic.Ring

/-!
# Numbers of a fixed precision

Rounding to so many binary digits, with no bound on the exponent.  It moves a number by no
more than a fixed part of it (`within_toPrecision`), and this is all that the distance of two
rounded numbers rests on (`Within.apart`).

A double has 53 digits, none of them below the 1074th behind the point, and past the last
double there is only infinity (`toDouble`).  Two numbers can have one double; the doubles of
large numbers are multiples of a power of two (`nearest_multiple`), so those that differ are
not close.
-/

namespace Floating

/-- The distance from `x` to the next number with `precision` binary digits. -/
def ulp (precision : ℕ) (x : ℚ) : ℚ := 2 ^ (Int.log 2 |x| + 1 - precision)

/-- `x` rounded to `precision` binary digits, by a rounding to integers. -/
def toPrecision (near : ℚ → ℤ) (precision : ℕ) (x : ℚ) : ℚ :=
  near (x / ulp precision x) * ulp precision x

/-- `round` moves no number by more than its `u`-th part. -/
def Within (u : ℚ) (round : ℚ → ℚ) : Prop := ∀ x, |round x - x| ≤ u * |x|

variable {near : ℚ → ℤ} {precision : ℕ} {round : ℚ → ℚ} {u x a b : ℚ}

theorem ulp_pos (precision : ℕ) (x : ℚ) : 0 < ulp precision x := zpow_pos two_pos _

/-- The last digit is worth no more than its part of the number. -/
theorem ulp_le (precision : ℕ) (nonzero : x ≠ 0) : ulp precision x ≤ 2 * (|x| / 2 ^ precision) := by
  have leading : (2 : ℚ) ^ Int.log 2 |x| ≤ |x| :=
    Int.zpow_log_le_self (b := 2) one_lt_two (abs_pos.mpr nonzero)
  rw [ulp, zpow_sub₀ two_ne_zero, zpow_add₀ two_ne_zero, zpow_one, zpow_natCast, mul_comm _ (2 : ℚ),
    mul_div_assoc]
  gcongr

theorem within_toPrecision (close : ∀ x, |near x - x| ≤ 1 / 2) (precision : ℕ) :
    Within (1 / 2 ^ precision) (toPrecision near precision) := by
  intro x
  have pos := ulp_pos precision x
  have moved : |toPrecision near precision x - x| =
      |near (x / ulp precision x) - x / ulp precision x| * ulp precision x := by
    rw [← abs_of_pos pos, ← abs_mul, sub_mul, abs_of_pos pos, div_mul_cancel₀ _ pos.ne', toPrecision]
  rw [moved]
  by_cases zero : x = 0
  · -- an integer rounded is near itself, so it is itself
    have same : near 0 = 0 := by
      have near0 := close 0
      rw [sub_zero, ← Int.cast_abs] at near0
      have below : ((|near 0| : ℤ) : ℚ) < 1 := near0.trans_lt (by norm_num)
      exact Int.abs_lt_one_iff.mp (by exact_mod_cast below)
    simp [zero, same]
  · calc |near (x / ulp precision x) - x / ulp precision x| * ulp precision x
        ≤ 1 / 2 * ulp precision x := mul_le_mul_of_nonneg_right (close _) pos.le
      _ ≤ 1 / 2 * (2 * (|x| / 2 ^ precision)) :=
          mul_le_mul_of_nonneg_left (ulp_le precision zero) (by norm_num)
      _ = 1 / 2 ^ precision * |x| := by ring

theorem Within.zero (within : Within u round) : round 0 = 0 := by
  simpa using within 0

/-- Equal numbers have no distance after rounding. -/
theorem Within.same (within : Within u round) (a : ℚ) : round (round a - round a) = 0 := by
  rw [sub_self, within.zero]

theorem Within.le_abs (within : Within u round) (x : ℚ) : (1 - u) * |x| ≤ |round x| := by
  have moved := within x
  have whole := abs_sub_abs_le_abs_sub x (round x)
  rw [abs_sub_comm] at whole
  linarith

/-- How far apart two numbers are after rounding. -/
theorem Within.apart (within : Within u round) (below : u ≤ 1) (a b : ℚ) :
    (1 - u) * ((1 - u) * |a - b| - 2 * u * |b|) ≤ |round (round a - round b)| := by
  have nonneg : 0 ≤ u := by
    have one := (abs_nonneg _).trans (within 1)
    rwa [abs_one, mul_one] at one
  have far : (1 - u) * |a - b| - 2 * u * |b| ≤ |round a - round b| := by
    have first := within a
    have second := within b
    have whole : |a| ≤ |a - b| + |b| := by simpa using abs_add_le (a - b) b
    have part := mul_le_mul_of_nonneg_left whole nonneg
    have path : |a - b| ≤ |round a - round b| + (|round a - a| + |round b - b|) := by
      have split : a - b = (round a - round b) - ((round a - a) - (round b - b)) := by ring
      calc |a - b| = |(round a - round b) - ((round a - a) - (round b - b))| := by rw [← split]
        _ ≤ |round a - round b| + |(round a - a) - (round b - b)| := abs_sub _ _
        _ ≤ |round a - round b| + (|round a - a| + |round b - b|) := by
            gcongr
            exact abs_sub _ _
    linarith
  calc (1 - u) * ((1 - u) * |a - b| - 2 * u * |b|)
      ≤ (1 - u) * |round a - round b| := mul_le_mul_of_nonneg_left far (sub_nonneg.mpr below)
    _ ≤ |round (round a - round b)| := within.le_abs _

/-! ## Doubles -/

/-- The distance from `x` to the next double. -/
def spacing (x : ℚ) : ℚ := max (ulp 53 x) (2 ^ (-1074 : ℤ))

/-- The double next to `x`, had doubles no greatest one. -/
def nearest (near : ℚ → ℤ) (x : ℚ) : ℚ := near (x / spacing x) * spacing x

/-- The double next to a number that is not negative. -/
def toDouble (near : ℚ → ℤ) (x : ℚ) : WithTop ℚ :=
  if nearest near x < 2 ^ 1024 then nearest near x else ⊤

theorem spacing_pos (x : ℚ) : 0 < spacing x := (ulp_pos 53 x).trans_le (le_max_left _ _)

/-- The spacing of large numbers is a multiple of a power of two. -/
theorem exists_spacing_eq {k : ℤ} (large : (2 : ℚ) ^ k ≤ x) :
    ∃ n : ℕ, ulp 53 x = n * 2 ^ (k - 52) := by
  have pos : 0 < |x| := (zpow_pos two_pos k).trans_le (large.trans (le_abs_self x))
  have leading : k ≤ Int.log 2 |x| :=
    (Int.zpow_le_iff_le_log one_lt_two pos).mp (large.trans (le_abs_self x))
  obtain ⟨n, same⟩ := Int.eq_ofNat_of_zero_le (sub_nonneg.mpr leading)
  refine ⟨2 ^ n, ?_⟩
  rw [ulp, Nat.cast_pow, Nat.cast_two, ← zpow_natCast, ← zpow_add₀ two_ne_zero, ← same]
  congr 1
  push_cast
  ring

section Near

variable (close : ∀ x, 0 ≤ x → |near x - x| ≤ 1 / 2)

include close

theorem abs_nearest_sub_le (nonneg : 0 ≤ x) :
    |nearest near x - x| ≤ x / 2 ^ 53 + 2 ^ (-1074 : ℤ) := by
  have pos := spacing_pos x
  have moved : |nearest near x - x| = |near (x / spacing x) - x / spacing x| * spacing x := by
    rw [← abs_of_pos pos, ← abs_mul, sub_mul, abs_of_pos pos, div_mul_cancel₀ _ pos.ne', nearest]
  rcases nonneg.eq_or_lt with rfl | positive
  · -- an integer rounded is near itself, so it is itself
    have same : near 0 = 0 := by
      have near0 := close 0 le_rfl
      rw [sub_zero, ← Int.cast_abs] at near0
      have below : ((|near 0| : ℤ) : ℚ) < 1 := near0.trans_lt (by norm_num)
      exact Int.abs_lt_one_iff.mp (by exact_mod_cast below)
    simp [nearest, same]
  have digits := ulp_le 53 positive.ne'
  rw [abs_of_pos positive] at digits
  have tiny : (0 : ℚ) < 2 ^ (-1074 : ℤ) := zpow_pos two_pos _
  have part : 0 ≤ x / 2 ^ 53 := by positivity
  have spaced : spacing x ≤ 2 * (x / 2 ^ 53) + 2 ^ (-1074 : ℤ) :=
    max_le (by linarith) (by linarith)
  calc |nearest near x - x| = |near (x / spacing x) - x / spacing x| * spacing x := moved
    _ ≤ 1 / 2 * spacing x :=
        mul_le_mul_of_nonneg_right (close _ (div_nonneg nonneg pos.le)) pos.le
    _ ≤ x / 2 ^ 53 + 2 ^ (-1074 : ℤ) := by linarith

omit close in
/-- The doubles of large numbers lie on a grid. -/
theorem nearest_multiple {k : ℤ} (normal : -1022 ≤ k) (large : (2 : ℚ) ^ k ≤ x) :
    ∃ n : ℤ, nearest near x = n * 2 ^ (k - 52) := by
  obtain ⟨n, unit⟩ := exists_spacing_eq large
  have least : (2 : ℚ) ^ (-1074 : ℤ) ≤ 2 ^ (k - 52) := zpow_le_zpow_right₀ one_le_two (by omega)
  have some_ : (1 : ℚ) ≤ n := by
    have pos := ulp_pos 53 x
    rw [unit] at pos
    exact_mod_cast Nat.pos_of_ne_zero fun none_ => by simp [none_] at pos
  have spaced : spacing x = n * 2 ^ (k - 52) := by
    rw [spacing, unit, max_eq_left]
    exact least.trans (le_mul_of_one_le_left (zpow_pos two_pos _).le some_)
  refine ⟨near (x / spacing x) * n, ?_⟩
  rw [nearest, spaced]
  push_cast
  ring

/-- Rounding does not turn round what is far apart. -/
theorem nearest_lt_nearest (nonneg : 0 ≤ a)
    (far : a + a / 2 ^ 53 + 2 * 2 ^ (-1074 : ℤ) < b - b / 2 ^ 53) :
    nearest near a < nearest near b := by
  have part : 0 ≤ a / 2 ^ 53 := by positivity
  have tiny : (0 : ℚ) < 2 ^ (-1074 : ℤ) := zpow_pos two_pos _
  have above : 0 ≤ b := by
    by_contra below
    have : b / 2 ^ 53 = b * (1 / 2 ^ 53) := by ring
    nlinarith [not_le.mp below]
  have first := abs_le.mp (abs_nearest_sub_le close nonneg)
  have second := abs_le.mp (abs_nearest_sub_le close above)
  linarith [first.2, second.1]

theorem toDouble_lt_toDouble (nonneg : 0 ≤ a) (finite : a ≤ 2 ^ 1023)
    (far : a + a / 2 ^ 53 + 2 * 2 ^ (-1074 : ℤ) < b - b / 2 ^ 53) :
    toDouble near a < toDouble near b := by
  have less := nearest_lt_nearest close nonneg far
  have last : nearest near a < 2 ^ 1024 := by
    have moved := (abs_le.mp (abs_nearest_sub_le close nonneg)).2
    have part : a / 2 ^ 53 ≤ a / 2 := by gcongr; norm_num
    have tiny : (2 : ℚ) ^ (-1074 : ℤ) ≤ 1 := zpow_le_one_of_nonpos₀ one_le_two (by norm_num)
    have large : (2 : ℚ) ^ 2 < 2 ^ 1023 := pow_lt_pow_right₀ one_lt_two (by norm_num)
    rw [pow_succ]
    generalize (2 : ℚ) ^ 1023 = half at *
    generalize (2 : ℚ) ^ (-1074 : ℤ) = least at *
    linarith
  unfold toDouble
  rw [if_pos last]
  split
  · exact WithTop.coe_lt_coe.mpr less
  · exact WithTop.coe_lt_top _

end Near

end Floating
