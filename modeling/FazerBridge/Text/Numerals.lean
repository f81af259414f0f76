import FazerBridge.G2AClient.Lists
import FazerBridge.Pricing.SubCentLimits

/-!
# Numbers as texts

What a reader makes of the numbers the bridge writes.  `f"{price:.2f}"` is read as the price
to the cent, halves to even (`value_twoPlaces`), and the text of an `int` as the same `int`
(`asInt_toString`).
-/

namespace FazerBridge

namespace Numeral

/-- The number of a literal without a sign. -/
def magnitude (text : Text) : ℚ :=
  let fraction := (text.dropWhile (· ≠ '.')).drop 1
  (Nat.ofDigitChars 10 (text.takeWhile (· ≠ '.') ++ fraction) 0 : ℚ) / 10 ^ fraction.length

/-- The number of a literal with or without a sign and a point. -/
def value : Text → ℚ
  | '-' :: digits => -magnitude digits
  | digits => magnitude digits

theorem value_of_digit {c : Char} {digits : Text} (digit : c.isDigit = true) :
    value (c :: digits) = magnitude (c :: digits) := by
  unfold value
  split
  · rename_i same
    cases same
    cases digit
  · rfl

theorem ne_point_of_isDigit {c : Char} (digit : c.isDigit = true) : c ≠ '.' := by
  rintro rfl
  cases digit

/-- Digits, a point, and more digits. -/
theorem magnitude_pointed {whole fraction : Text} (digits : ∀ c ∈ whole, c.isDigit = true) :
    magnitude (whole ++ '.' :: fraction) =
      (10 ^ fraction.length * Nat.ofDigitChars 10 whole 0 + Nat.ofDigitChars 10 fraction 0 : ℕ) /
        10 ^ fraction.length := by
  have plain : ∀ c ∈ whole, decide (c ≠ '.') = true := fun c mem =>
    decide_eq_true (ne_point_of_isDigit (digits c mem))
  have before : (whole ++ '.' :: fraction).takeWhile (· ≠ '.') = whole := by
    rw [List.takeWhile_append_of_pos plain]
    simp
  have after : ((whole ++ '.' :: fraction).dropWhile (· ≠ '.')).drop 1 = fraction := by
    rw [List.dropWhile_append_of_pos plain]
    simp
  unfold magnitude
  simp only [before, after]
  rw [Nat.ofDigitChars_append, Nat.ofDigitChars_eq_ofDigitChars_zero]

end Numeral

/-! ## Digits -/

theorem ofNat_digit {d : ℕ} (small : d < 10) : Char.ofNat ('0'.toNat + d) = Nat.digitChar d := by
  interval_cases d <;> rfl

theorem digits_eq_toDigits {fuel n : ℕ} (enough : n < fuel) :
    ((digitsOf fuel n).map fun d => Char.ofNat ('0'.toNat + d)).reverse = Nat.toDigits 10 n := by
  induction fuel generalizing n with
  | zero => cases enough
  | succ fuel ih =>
      rw [digitsOf, Nat.toDigits_eq_if (by decide)]
      by_cases small : n < 10
      · rw [if_pos small, if_pos small, List.map_singleton, List.reverse_singleton,
          ofNat_digit small]
      · rw [if_neg small, if_neg small, List.map_cons, List.reverse_cons, ih (by omega),
          ofNat_digit (Nat.mod_lt n (by decide))]

/-- The digits of a number are those of core Lean. -/
theorem decimal_eq_toDigits (n : ℕ) : decimal n = Nat.toDigits 10 n :=
  digits_eq_toDigits n.lt_succ_self

theorem isDigit_of_mem_decimal {n : ℕ} {c : Char} (mem : c ∈ decimal n) : c.isDigit = true := by
  rw [decimal_eq_toDigits] at mem
  exact Nat.isDigit_of_mem_toDigits (by decide) (by decide) mem

/-- The digits of a number read as that number. -/
theorem ofDigitChars_decimal (n : ℕ) : Nat.ofDigitChars 10 (decimal n) 0 = n := by
  rw [decimal_eq_toDigits, Nat.ofDigitChars_ten_toDigits]

/-- A small number has few digits. -/
theorem length_decimal_le {n places : ℕ} (some_ : 0 < places) (small : n < 10 ^ places) :
    (decimal n).length ≤ places := by
  rw [decimal_eq_toDigits]
  exact (Nat.length_toDigits_le_iff (by decide) some_).mpr small

/-! ## Fixed places -/

/-- What is shown is read as what was rounded. -/
theorem magnitude_formatFixed {places : ℕ} (some_ : 0 < places) (x : ℚ) :
    Numeral.magnitude (formatFixed places x) =
      (roundHalfEven (x.num.toNat * 10 ^ places) x.den : ℚ) / 10 ^ places := by
  unfold formatFixed
  simp only
  generalize roundHalfEven (x.num.toNat * 10 ^ places) x.den = scaled
  have short : (decimal (scaled % 10 ^ places)).length ≤ places :=
    length_decimal_le some_ (Nat.mod_lt _ (by positivity))
  have length : (List.replicate (places - (decimal (scaled % 10 ^ places)).length) '0' ++
      decimal (scaled % 10 ^ places)).length = places := by
    rw [List.length_append, List.length_replicate]
    omega
  rw [Numeral.magnitude_pointed fun c mem => isDigit_of_mem_decimal mem, length,
    Nat.ofDigitChars_append, Nat.ofDigitChars_replicate_zero, Nat.mul_zero, ofDigitChars_decimal,
    ofDigitChars_decimal, Nat.div_add_mod]

/-- The first character is a digit. -/
theorem value_formatFixed (places : ℕ) (x : ℚ) :
    Numeral.value (formatFixed places x) = Numeral.magnitude (formatFixed places x) := by
  unfold formatFixed
  simp only
  generalize roundHalfEven (x.num.toNat * 10 ^ places) x.den / 10 ^ places = n
  cases whole : decimal n with
  | nil =>
      rw [decimal_eq_toDigits] at whole
      exact absurd whole Nat.toDigits_ne_nil
  | cons c rest =>
      have first : c ∈ decimal n := by
        rw [whole]
        exact List.mem_cons_self
      exact Numeral.value_of_digit (isDigit_of_mem_decimal first)

namespace Pricing

/-! ## Rounding -/

/-- Rounding a quotient is the rounding of its terms. -/
theorem roundHalfEven_natCast_div (num den : ℕ) (some_ : 0 < den) :
    roundHalfEven ((num : ℚ) / den) = FazerBridge.roundHalfEven num den := by
  have pos : (0 : ℚ) < den := by exact_mod_cast some_
  have floor : ⌊(num : ℚ) / den⌋ = (num / den : ℕ) := by
    rw [Rat.floor_natCast_div_natCast]
    rfl
  have rest : (num : ℚ) / den - ((num / den : ℕ) : ℤ) = (num % den : ℕ) / den := by
    have split : (num : ℚ) = den * (num / den : ℕ) + (num % den : ℕ) := by
      exact_mod_cast (Nat.div_add_mod num den).symm
    rw [Int.cast_natCast, eq_div_iff pos.ne', sub_mul, div_mul_cancel₀ _ pos.ne']
    linarith
  have below : ((num % den : ℕ) : ℚ) / den < 1 / 2 ↔ 2 * (num % den) < den := by
    rw [div_lt_div_iff₀ pos two_pos, one_mul, mul_comm]
    exact_mod_cast Iff.rfl
  have above : (1 : ℚ) / 2 < ((num % den : ℕ) : ℚ) / den ↔ den < 2 * (num % den) := by
    rw [div_lt_div_iff₀ two_pos pos, one_mul, mul_comm]
    exact_mod_cast Iff.rfl
  unfold roundHalfEven FazerBridge.roundHalfEven
  simp only [floor, rest, below, above]
  norm_cast

theorem roundHalfEven_neg (x : ℚ) : roundHalfEven (-x) = -roundHalfEven x := by
  have split := Int.floor_add_fract x
  have split' := Int.floor_add_fract (-x)
  by_cases whole : Int.fract x = 0
  · have same : (⌊x⌋ : ℚ) = x := by linarith
    have exact_ : ∀ n : ℤ, roundHalfEven n = n := fun n =>
      le_antisymm (roundHalfEven_le le_rfl) (le_roundHalfEven le_rfl)
    rw [← same, ← Int.cast_neg, exact_, exact_]
  · have fract := Int.fract_neg whole
    have floor : ⌊-x⌋ = -⌊x⌋ - 1 := by exact_mod_cast (by linarith : (⌊-x⌋ : ℚ) = -⌊x⌋ - 1)
    -- past the half on one side is before it on the other, and one of two neighbours is even
    rcases roundHalfEven_cases x with ⟨same, side⟩ | ⟨same, side⟩ <;>
      rcases roundHalfEven_cases (-x) with ⟨same', side'⟩ | ⟨same', side'⟩ <;>
      rw [floor, fract] at side' <;> rw [same, same', floor] <;>
      rcases side with side | ⟨half, even⟩ <;> rcases side' with side' | ⟨half', even'⟩ <;>
      first | omega | (exfalso; linarith)

/-- To the cent, halves to even. -/
theorem quantize_neg (price : ℚ) : quantize (1 / 100) (-price) = -quantize (1 / 100) price := by
  unfold quantize
  rw [neg_div, roundHalfEven_neg, Int.cast_neg, neg_mul]

end Pricing

/-! ## Prices and sizes -/

/-- `f"{price:.2f}"` -/
def twoPlaces (price : ℚ) : Text :=
  if price < 0 then '-' :: formatFixed 2 (-price) else formatFixed 2 price

/-- A price printed to the cent reads as the price rounded to it. -/
theorem magnitude_cents {price : ℚ} (nonneg : 0 ≤ price) :
    Numeral.magnitude (formatFixed 2 price) = Pricing.quantize (1 / 100) price := by
  have num : ((price.num.toNat : ℕ) : ℚ) = price.num := by
    exact_mod_cast Int.toNat_of_nonneg (Rat.num_nonneg.mpr nonneg)
  have hundred : price / (1 / 100) = ((price.num.toNat * 10 ^ 2 : ℕ) : ℚ) / price.den := by
    rw [Nat.cast_mul, num, mul_div_right_comm, Rat.num_div_den, Nat.cast_pow]
    ring
  rw [magnitude_formatFixed two_pos, Pricing.quantize, hundred,
    Pricing.roundHalfEven_natCast_div _ _ price.den_pos]
  norm_num
  ring

/-- The text of a price is read as the price to the cent. -/
theorem value_twoPlaces (price : ℚ) :
    Numeral.value (twoPlaces price) = Pricing.quantize (1 / 100) price := by
  unfold twoPlaces
  split
  · rename_i negative
    rw [Numeral.value, magnitude_cents (by linarith), Pricing.quantize_neg, neg_neg]
  · rw [value_formatFixed, magnitude_cents (by linarith)]

namespace Json

theorem isDigit_of_mem_repr {n : ℕ} {c : Char} (mem : c ∈ n.repr.toList) : c.isDigit = true := by
  rw [Nat.toList_repr] at mem
  exact Nat.isDigit_of_mem_toDigits (by decide) (by decide) mem

/-- `int` reads a printed number back. -/
theorem intOf_repr (n : ℕ) : intOf n.repr = n := by
  unfold intOf
  split
  · rename_i digits same
    have sign : '-' ∈ n.repr.toList := by
      rw [same]
      exact List.mem_cons_self
    exact absurd (isDigit_of_mem_repr sign) (by decide)
  · rw [Nat.toList_repr]
    exact congrArg Int.ofNat (Nat.ofDigitChars_ten_toDigits (n := n))

/-- `int` reads a printed negative number back. -/
theorem intOf_neg_repr (n : ℕ) : intOf ("-" ++ n.repr) = -n := by
  unfold intOf
  rw [String.toList_append, Nat.toList_repr]
  exact congrArg (fun m : ℕ => -(m : ℤ)) (Nat.ofDigitChars_ten_toDigits (n := n))

/-- The text of an `int` is the `int`. -/
theorem asInt_toString (n : ℤ) : asInt (.number (toString n)) = some n := by
  have digits : ∀ m : ℕ, (m.repr.toList.all fun c => c = '-' || c.isDigit) = true := fun m =>
    List.all_eq_true.mpr fun c mem => by
      rw [isDigit_of_mem_repr mem, Bool.or_true]
  rw [Int.toString_eq_repr, Int.repr_eq_if]
  unfold asInt
  by_cases sign : 0 ≤ n
  · rw [if_pos sign]
    dsimp only
    rw [if_pos (digits _), intOf_repr, Int.toNat_of_nonneg sign]
  · have all : (("-" ++ (-n).toNat.repr).toList.all fun c => c = '-' || c.isDigit) = true := by
      rw [String.toList_append, List.all_append, digits]
      rfl
    rw [if_neg sign]
    dsimp only
    rw [if_pos all, intOf_neg_repr, Int.toNat_of_nonneg (by omega), neg_neg]

end Json

end FazerBridge
