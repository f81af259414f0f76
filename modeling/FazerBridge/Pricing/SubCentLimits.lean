import FazerBridge.Pricing.Bounds
import FazerBridge.Pricing.LiveRates

/-!
# Limits with sub-cent digits

The store's limits have four places.  The clamp puts a price on a limit, and the last
rounding to cents, halves to even, moves it off again: below a minimum whose sub-cent
digits round down, above a maximum whose digits round up (`compute_within_iff`).
-/

namespace FazerBridge

/-- Rounding to cents does not raise the amount. -/
def CentsDown (amount : ℚ) : Prop :=
  Int.fract (amount * 100) < 1 / 2 ∨
    Int.fract (amount * 100) = 1 / 2 ∧ ⌊amount * 100⌋ % 2 = 0

/-- Rounding to cents does not lower the amount. -/
def CentsUp (amount : ℚ) : Prop :=
  Int.fract (amount * 100) = 0 ∨ 1 / 2 < Int.fract (amount * 100) ∨
    Int.fract (amount * 100) = 1 / 2 ∧ ⌊amount * 100⌋ % 2 ≠ 0

namespace Pricing

/-! ## Rounding halves to even -/

theorem roundHalfEven_cases (x : ℚ) :
    (roundHalfEven x = ⌊x⌋ ∧ (Int.fract x < 1 / 2 ∨ Int.fract x = 1 / 2 ∧ ⌊x⌋ % 2 = 0)) ∨
      (roundHalfEven x = ⌊x⌋ + 1 ∧
        (1 / 2 < Int.fract x ∨ Int.fract x = 1 / 2 ∧ ⌊x⌋ % 2 ≠ 0)) := by
  rw [← Int.self_sub_floor]
  unfold roundHalfEven
  by_cases below : x - ⌊x⌋ < 1 / 2
  · exact .inl ⟨if_pos below, .inl below⟩
  · by_cases above : 1 / 2 < x - ⌊x⌋
    · exact .inr ⟨(if_neg below).trans (if_pos above), .inl above⟩
    · have half : x - ⌊x⌋ = 1 / 2 := by linarith
      by_cases even : ⌊x⌋ % 2 = 0
      · exact .inl ⟨((if_neg below).trans (if_neg above)).trans (if_pos even), .inr ⟨half, even⟩⟩
      · exact .inr ⟨((if_neg below).trans (if_neg above)).trans (if_neg even), .inr ⟨half, even⟩⟩

/-- Rounding to an integer moves a number by a half at most. -/
theorem abs_roundHalfEven_sub_le (x : ℚ) : |roundHalfEven x - x| ≤ 1 / 2 := by
  have split := Int.floor_add_fract x
  have nonneg := Int.fract_nonneg x
  have below := Int.fract_lt_one x
  rw [abs_le]
  rcases roundHalfEven_cases x with ⟨same, part⟩ | ⟨same, part⟩
  · rw [same]
    rcases part with part | ⟨part, -⟩ <;> constructor <;> linarith
  · rw [same]
    push_cast
    rcases part with part | ⟨part, -⟩ <;> constructor <;> linarith

/-- An integer on one side of a number stays there. -/
theorem le_roundHalfEven {x : ℚ} {n : ℤ} (le : n ≤ x) : n ≤ roundHalfEven x := by
  have down : n ≤ ⌊x⌋ := Int.le_floor.mpr le
  rcases roundHalfEven_cases x with ⟨same, -⟩ | ⟨same, -⟩ <;> omega

theorem roundHalfEven_le {x : ℚ} {n : ℤ} (le : x ≤ n) : roundHalfEven x ≤ n := by
  rcases roundHalfEven_cases x with ⟨same, -⟩ | ⟨same, up⟩
  · rw [same]
    exact_mod_cast (Int.floor_le x).trans le
  · have split := Int.floor_add_fract x
    have below : ⌊x⌋ < n := by
      have pos : 0 < Int.fract x := by rcases up with up | ⟨up, -⟩ <;> linarith
      exact_mod_cast (by linarith : (⌊x⌋ : ℚ) < n)
    omega

theorem roundHalfEven_le_self {x : ℚ} :
    roundHalfEven x ≤ x ↔ Int.fract x < 1 / 2 ∨ Int.fract x = 1 / 2 ∧ ⌊x⌋ % 2 = 0 := by
  rcases roundHalfEven_cases x with ⟨same, down⟩ | ⟨same, up⟩ <;> rw [same]
  · exact ⟨fun _ => down, fun _ => Int.floor_le x⟩
  · constructor
    · intro le
      have above := Int.lt_floor_add_one x
      push_cast at le
      linarith
    · intro down
      rcases up with up | ⟨up, odd⟩ <;> rcases down with down | ⟨down, even⟩
      · linarith
      · linarith
      · linarith
      · exact absurd even odd

theorem le_roundHalfEven_self {x : ℚ} :
    x ≤ roundHalfEven x ↔ Int.fract x = 0 ∨ 1 / 2 < Int.fract x ∨
      Int.fract x = 1 / 2 ∧ ⌊x⌋ % 2 ≠ 0 := by
  have split := Int.floor_add_fract x
  have nonneg := Int.fract_nonneg x
  rcases roundHalfEven_cases x with ⟨same, down⟩ | ⟨same, up⟩ <;> rw [same]
  · constructor
    · intro le
      exact .inl (by linarith)
    · intro up
      rcases up with zero | up | ⟨up, odd⟩ <;> rcases down with down | ⟨down, even⟩
      · linarith
      · linarith
      · linarith
      · linarith
      · linarith
      · exact absurd even odd
  · refine ⟨fun _ => .inr up, fun _ => ?_⟩
    push_cast
    exact (Int.lt_floor_add_one x).le

theorem quantize_eq (amount : ℚ) :
    quantize (1 / 100) amount = roundHalfEven (amount * 100) * (1 / 100) := by
  rw [quantize, div_div_eq_mul_div, div_one]

theorem wholeCents_quantize (amount : ℚ) : WholeCents (quantize (1 / 100) amount) :=
  ⟨_, quantize_eq amount⟩

theorem le_quantize_self {amount : ℚ} : amount ≤ quantize (1 / 100) amount ↔ CentsUp amount := by
  rw [quantize_eq, CentsUp, ← le_roundHalfEven_self]
  constructor <;> intro le <;> linarith

theorem quantize_le_self {amount : ℚ} : quantize (1 / 100) amount ≤ amount ↔ CentsDown amount := by
  rw [quantize_eq, CentsDown, ← roundHalfEven_le_self]
  constructor <;> intro le <;> linarith

/-- The last rounding does not cross a whole-cent price. -/
theorem le_quantize {price amount : ℚ} (cents : WholeCents price) (le : price ≤ amount) :
    price ≤ quantize (1 / 100) amount := by
  obtain ⟨n, rfl⟩ := cents
  have stays : n ≤ roundHalfEven (amount * 100) := le_roundHalfEven (by linarith)
  rw [quantize_eq]
  have : (n : ℚ) ≤ roundHalfEven (amount * 100) := by exact_mod_cast stays
  linarith

theorem quantize_le {price amount : ℚ} (cents : WholeCents price) (le : amount ≤ price) :
    quantize (1 / 100) amount ≤ price := by
  obtain ⟨n, rfl⟩ := cents
  have stays : roundHalfEven (amount * 100) ≤ n := roundHalfEven_le (by linarith)
  rw [quantize_eq]
  have : (roundHalfEven (amount * 100) : ℚ) ≤ n := by exact_mod_cast stays
  linarith

/-! ## The limits -/

variable {settings : Settings} {product : SupplierProduct} {mapping : ProductMapping}
  {storeProduct : StoreProduct}

/-- The price before it is rounded. -/
def rawPrice (settings : Settings) (rate : ℚ) (product : SupplierProduct)
    (mapping : ProductMapping) : ℚ :=
  product.priceSupplier * rate *
    (1 + mapping.markupPercentOverride.getD settings.defaultMarkupPercent / 100)

/-- A price the last rounding is given and the limits it is to stay within: a price
raised to the minimum, one lowered to the maximum, and one left on the floor. -/
structure KeepsLimits (settings : Settings) (low high raw : ℚ) : Prop where
  raised : settings.minOfferPrice ≤ low → RoundsBelow settings.priceRounding low raw → CentsUp low
  lowered : high ≤ settings.minOfferPrice ∨ RoundsAbove settings.priceRounding high raw →
    CentsDown high
  floored : low < settings.minOfferPrice → settings.minOfferPrice < high →
    RoundsBelow settings.priceRounding settings.minOfferPrice raw →
    (CentsUp settings.minOfferPrice ∨ low ≤ ⌊settings.minOfferPrice * 100⌋ * (1 / 100)) ∧
    (CentsDown settings.minOfferPrice ∨ ⌈settings.minOfferPrice * 100⌉ * (1 / 100) ≤ high)

theorem finalPrice_eq (rate : ℚ) :
    (priceAt settings rate product mapping storeProduct).finalPrice =
      quantize (1 / 100) (lowerTo storeProduct.priceLimitMax (raiseTo storeProduct.priceLimitMin
        (max (round settings.priceRounding (rawPrice settings rate product mapping))
          settings.minOfferPrice))) := by
  simp only [priceAt, raiseTo, lowerTo, rawPrice, max_def_lt, decide_eq_true_eq]

theorem priceAt_clamped {low high rate : ℚ} (minimum : storeProduct.priceLimitMin = some low)
    (maximum : storeProduct.priceLimitMax = some high) (positive : 0 < low) (ordered : low ≤ high) :
    (priceAt settings rate product mapping storeProduct).finalPrice =
      quantize (1 / 100) (min high (max
        (max (round settings.priceRounding (rawPrice settings rate product mapping))
          settings.minOfferPrice) low)) := by
  have positive' : 0 < high := positive.trans_le ordered
  rw [finalPrice_eq, minimum, maximum, raiseTo_eq, lowerTo_eq, Option.filter_some,
    Option.filter_some, if_pos (decide_eq_true positive), if_pos (decide_eq_true positive')]
  rfl

/-- An amount above a bound is rounded to one that is not below it. -/
theorem bound_le_quantize {bound amount : ℚ} (less : bound < amount) :
    bound ≤ quantize (1 / 100) amount ↔
      CentsUp amount ∨ bound ≤ ⌊amount * 100⌋ * (1 / 100) := by
  constructor
  · intro le
    rcases roundHalfEven_cases (amount * 100) with ⟨same, -⟩ | ⟨-, up⟩
    · rw [quantize_eq, same] at le
      exact .inr le
    · exact .inl (.inr up)
  · intro kept
    rcases kept with up | le
    · exact less.le.trans (le_quantize_self.mpr up)
    · have below := Int.floor_le (amount * 100)
      exact le.trans (le_quantize ⟨_, rfl⟩ (by linarith))

theorem quantize_le_bound {bound amount : ℚ} (less : amount < bound) :
    quantize (1 / 100) amount ≤ bound ↔
      CentsDown amount ∨ ⌈amount * 100⌉ * (1 / 100) ≤ bound := by
  constructor
  · intro le
    rcases roundHalfEven_cases (amount * 100) with ⟨-, down⟩ | ⟨same, -⟩
    · exact .inl down
    · have above : ⌈amount * 100⌉ ≤ ⌊amount * 100⌋ + 1 := Int.ceil_le_floor_add_one _
      rw [quantize_eq, same] at le
      have : (⌈amount * 100⌉ : ℚ) ≤ (⌊amount * 100⌋ + 1 : ℤ) := by exact_mod_cast above
      exact .inr (by linarith)
  · intro kept
    rcases kept with down | le
    · exact (quantize_le_self.mpr down).trans less.le
    · have above := Int.le_ceil (amount * 100)
      exact (quantize_le ⟨_, rfl⟩ (by linarith)).trans le

/-- The last rounding of a clamped price, for a price `rounded` in whole cents. -/
theorem quantize_clamped_iff {low high raw : ℚ} (nonneg : 0 ≤ raw)
    (between : ∃ price, WholeCents price ∧ low ≤ price ∧ price ≤ high) :
    (low ≤ quantize (1 / 100) (min high (max
        (max (round settings.priceRounding raw) settings.minOfferPrice) low)) ∧
      quantize (1 / 100) (min high (max
        (max (round settings.priceRounding raw) settings.minOfferPrice) low)) ≤ high) ↔
      KeepsLimits settings low high raw := by
  obtain ⟨price, cents, above, below⟩ := between
  have keeps : KeepsLimits settings low high raw ↔
      (settings.minOfferPrice ≤ low → round settings.priceRounding raw ≤ low → CentsUp low) ∧
      (high ≤ settings.minOfferPrice ∨ high ≤ round settings.priceRounding raw → CentsDown high) ∧
      (low < settings.minOfferPrice → settings.minOfferPrice < high →
        round settings.priceRounding raw ≤ settings.minOfferPrice →
        low ≤ quantize (1 / 100) settings.minOfferPrice ∧
        quantize (1 / 100) settings.minOfferPrice ≤ high) := by
    simp only [round_le_iff nonneg, le_round_iff nonneg]
    constructor
    · intro kept
      obtain ⟨raised, lowered, floored⟩ := kept
      exact ⟨raised, lowered, fun more less rounds =>
        ⟨(bound_le_quantize more).mpr (floored more less rounds).1,
          (quantize_le_bound less).mpr (floored more less rounds).2⟩⟩
    · intro kept
      obtain ⟨raised, lowered, floored⟩ := kept
      exact ⟨raised, lowered, fun more less rounds =>
        ⟨(bound_le_quantize more).mp (floored more less rounds).1,
          (quantize_le_bound less).mp (floored more less rounds).2⟩⟩
  rw [keeps]
  have rounded := wholeCents_round settings.priceRounding raw
  generalize round settings.priceRounding raw = rounded' at rounded
  generalize settings.minOfferPrice = floor
  rcases le_or_gt (max rounded' floor) low with raised | above'
  · -- the price is the minimum, and a whole-cent price is above it
    rw [max_eq_right raised, min_eq_right (above.trans below), le_quantize_self]
    obtain ⟨rounds, floors⟩ := max_le_iff.mp raised
    constructor
    · intro kept
      obtain ⟨up, -⟩ := kept
      refine ⟨fun _ _ => up, fun past => ?_, fun more => absurd floors more.not_ge⟩
      have same : high = low := by
        rcases past with past | past
        · exact le_antisymm (past.trans floors) (above.trans below)
        · exact le_antisymm (past.trans rounds) (above.trans below)
      rw [← quantize_le_self, same]
      exact (quantize_le cents above).trans (below.trans same.le)
    · intro kept
      obtain ⟨up, -, -⟩ := kept
      exact ⟨up floors rounds, (quantize_le cents above).trans below⟩
  · rw [max_eq_left above'.le]
    rcases le_or_gt high (max rounded' floor) with lowered | below'
    · -- the price is the maximum, and a whole-cent price is below it
      rw [min_eq_left lowered, quantize_le_self]
      constructor
      · intro kept
        obtain ⟨-, down⟩ := kept
        refine ⟨fun floors rounds => absurd (max_le rounds floors) above'.not_ge, fun _ => down,
          fun _ less rounds => absurd lowered ?_⟩
        exact (max_lt (rounds.trans_lt less) less).not_ge
      · intro kept
        obtain ⟨-, down, -⟩ := kept
        refine ⟨above.trans (le_quantize cents below), down ?_⟩
        exact (le_max_iff.mp lowered).symm
    · rw [min_eq_right below'.le]
      obtain ⟨rounds', floors'⟩ := max_lt_iff.mp below'
      rcases le_or_gt rounded' floor with rounds | rounds
      · rw [max_eq_right rounds] at above' below' ⊢
        constructor
        · intro within
          refine ⟨fun floors => absurd floors above'.not_ge, fun past => ?_, fun _ _ _ => within⟩
          rcases past with past | past
          · exact absurd past below'.not_ge
          · exact absurd past rounds'.not_ge
        · intro kept
          obtain ⟨-, -, within⟩ := kept
          exact within above' below' rounds
      · -- the price is a whole-cent one strictly between the limits
        rw [max_eq_left rounds.le] at above' below' ⊢
        rw [quantize_cents rounded]
        constructor
        · intro _
          refine ⟨fun _ less => absurd less above'.not_ge, fun past => ?_,
            fun _ _ less => absurd less rounds.not_ge⟩
          rcases past with past | past
          · exact absurd past floors'.not_ge
          · exact absurd past rounds'.not_ge
        · intro _
          exact ⟨above'.le, below'.le⟩

/-- At any positive rate a markup price is in whole cents, and within the limits exactly
if the last rounding keeps them. -/
theorem compute_within_iff {W : Type} (source : Source W) {low high rate : ℚ} {s t : Rates W}
    (markupOnly : mapping.fixedPriceOverride = none) (cost : 0 ≤ product.priceSupplier)
    (markup : -100 ≤ mapping.markupPercentOverride.getD source.settings.defaultMarkupPercent)
    (minimum : storeProduct.priceLimitMin = some low)
    (maximum : storeProduct.priceLimitMax = some high) (positive : 0 < low)
    (between : ∃ price, WholeCents price ∧ low ≤ price ∧ price ≤ high)
    (rated : (Pricing.rate source).Runs s (.ok rate) t) (live : 0 < rate) :
    ∃ q, (compute source product mapping storeProduct).Runs s (.ok q) t ∧
      WholeCents q.finalPrice ∧
      (low ≤ q.finalPrice ∧ q.finalPrice ≤ high ↔
        KeepsLimits source.settings low high
          (rawPrice source.settings rate product mapping)) := by
  have ordered : low ≤ high := by
    obtain ⟨price, -, above, below⟩ := between
    exact above.trans below
  have nonneg : 0 ≤ rawPrice source.settings rate product mapping := by
    have factor : 0 ≤ 1 +
        mapping.markupPercentOverride.getD source.settings.defaultMarkupPercent / 100 := by linarith
    exact mul_nonneg (mul_nonneg cost live.le) factor
  refine ⟨priceAt source.settings rate product mapping storeProduct, ?_, ?_, ?_⟩
  · unfold compute
    rw [markupOnly]
    exact Prog.runs_bind.mpr (.inl ⟨rate, t, rated, Prog.runs_pure.mpr ⟨rfl, rfl⟩⟩)
  · exact wholeCents_quantize _
  · rw [priceAt_clamped minimum maximum positive ordered]
    exact quantize_clamped_iff nonneg between

end Pricing

namespace EchoStore

/-- A store product whose offers may cost from `low` to `high`. -/
def limited (low high : ℚ) : StoreProduct :=
  { storeProduct 1 (some low) with priceLimitMax := some high }

/-- A product of 1 USD is raised to a minimum of 2.006, which is rounded to 2.01. -/
theorem minimum_rounded_up : ∃ q,
    (Pricing.compute (pricing settings) (supplierProduct 1 1) (mapping 1)
      (limited (1003 / 500) 10)).Runs ⟨[], 0⟩ (.ok q) ⟨[], 0⟩ ∧
    WholeCents q.finalPrice ∧
    (1003 / 500 ≤ q.finalPrice ∧ q.finalPrice ≤ 10 ↔
      Pricing.KeepsLimits settings (1003 / 500) 10
        (Pricing.rawPrice settings 1 (supplierProduct 1 1) (mapping 1))) :=
  Pricing.compute_within_iff (pricing settings) rfl (by norm_num [supplierProduct])
    (show (-100 : ℚ) ≤ 15 by norm_num) rfl rfl (by norm_num)
    ⟨10, ⟨1000, by norm_num⟩, by norm_num, by norm_num⟩ rfl one_pos

/-- A minimum of 2.004 is rounded to 2.00. -/
theorem minimum_rounded_down :
    (∃ price, WholeCents price ∧ 501 / 250 ≤ price ∧ price ≤ 10) ∧
    ∃ q, (Pricing.compute (pricing settings) (supplierProduct 1 1) (mapping 1)
        (limited (501 / 250) 10)).Runs ⟨[], 0⟩ (.ok q) ⟨[], 0⟩ ∧ q.finalPrice < 501 / 250 :=
  ⟨⟨10, ⟨1000, by norm_num⟩, by norm_num, by norm_num⟩, _, rfl, by decide +kernel⟩

end EchoStore

end FazerBridge
