import FazerBridge.Pricing.SubCentLimits

/-!
# Dearer goods, and what rounding may lose

Every stage of the markup price is monotone, so the price is (`finalPrice_mono`).  Only
the first rounding can take the price below what the supplier's price, the rate and the
markup give: the floor and the minimum raise a whole-cent price, and the last rounding
does not cross one (`raw_le_finalPrice`).
-/

namespace FazerBridge

namespace Pricing

/-- The most that `_round` takes off: half a step, or the cent of ".99 pricing". -/
def roundingLoss : PriceRounding → ℚ
  | .cent => 1 / 100 / 2
  | .fiveCents => 5 / 100 / 2
  | .tenCents => 10 / 100 / 2
  | .ninetyNine => 1 / 100

/-! ## The first rounding -/

theorem roundHalfUp_mono {x y : ℚ} (le : x ≤ y) : roundHalfUp x ≤ roundHalfUp y := by
  unfold roundHalfUp
  split_ifs with posX posY
  · exact Int.floor_le_floor (by linarith)
  · linarith
  · have below : 0 ≤ ⌊-x + 1 / 2⌋ := Int.floor_nonneg.mpr (by linarith)
    have above : 0 ≤ ⌊y + 1 / 2⌋ := Int.floor_nonneg.mpr (by linarith)
    omega
  · exact neg_le_neg (Int.floor_le_floor (by linarith))

theorem sub_half_le_roundHalfUp (x : ℚ) : x - 1 / 2 ≤ roundHalfUp x := by
  unfold roundHalfUp
  split_ifs with pos
  · have above := Int.lt_floor_add_one (x + 1 / 2)
    linarith
  · have below := Int.floor_le (-x + 1 / 2)
    push_cast
    linarith

/-- ".99 pricing" of any amount: below zero both sides are the least price. -/
theorem round_ninetyNine_eq (value : ℚ) :
    round .ninetyNine value = max (99 / 100) ((⌈value⌉ : ℚ) - 1 / 100) := by
  rcases le_or_gt 0 value with nonneg | neg
  · exact round_ninetyNine nonneg
  · have rounded : roundHalfUp value ≤ 0 := by
      have := roundHalfUp_mono neg.le
      rwa [← Int.cast_zero, roundHalfUp_intCast] at this
    have unit : (if (roundHalfUp value : ℚ) < value then roundHalfUp value + 1
        else roundHalfUp value) ≤ 1 := by split_ifs <;> omega
    have ceiling : ⌈value⌉ ≤ 1 := Int.ceil_le.mpr (by push_cast; linarith)
    have unit' := (Int.cast_le (R := ℚ)).mpr unit
    have ceiling' := (Int.cast_le (R := ℚ)).mpr ceiling
    push_cast at unit' ceiling'
    rw [max_eq_left (by linarith)]
    exact max_eq_left (by push_cast; linarith)

theorem round_mono (mode : PriceRounding) {x y : ℚ} (le : x ≤ y) : round mode x ≤ round mode y := by
  have toStep : ∀ step : ℚ, 0 < step →
      (roundHalfUp (x / step) : ℚ) * step ≤ roundHalfUp (y / step) * step := by
    intro step pos
    have steps := roundHalfUp_mono (div_le_div_of_nonneg_right le pos.le)
    exact mul_le_mul_of_nonneg_right (Int.cast_le.mpr steps) pos.le
  cases mode with
  | cent => exact toStep _ (by norm_num)
  | fiveCents => exact toStep _ (by norm_num)
  | tenCents => exact toStep _ (by norm_num)
  | ninetyNine =>
      rw [round_ninetyNine_eq, round_ninetyNine_eq]
      have units : (⌈x⌉ : ℚ) ≤ ⌈y⌉ := Int.cast_le.mpr (Int.ceil_le_ceil le)
      exact max_le_max_left _ (by linarith)

theorem sub_loss_le_round (mode : PriceRounding) (value : ℚ) :
    value - roundingLoss mode ≤ round mode value := by
  have toStep : ∀ step : ℚ, 0 < step →
      value - step / 2 ≤ roundHalfUp (value / step) * step := by
    intro step pos
    have near := mul_le_mul_of_nonneg_right (sub_half_le_roundHalfUp (value / step)) pos.le
    rw [sub_mul, div_mul_cancel₀ value pos.ne'] at near
    linarith
  cases mode with
  | cent => exact toStep _ (by norm_num)
  | fiveCents => exact toStep _ (by norm_num)
  | tenCents => exact toStep _ (by norm_num)
  | ninetyNine =>
      rw [round_ninetyNine_eq]
      exact le_max_of_le_right (sub_le_sub_right (Int.le_ceil value) _)

/-! ## The clamps and the last rounding -/

theorem raiseTo_mono (low : Option ℚ) {x y : ℚ} (le : x ≤ y) : raiseTo low x ≤ raiseTo low y := by
  rw [raiseTo_eq, raiseTo_eq]
  cases low.filter (0 < ·) with
  | none => exact le
  | some low => exact max_le_max_right low le

theorem lowerTo_mono (high : Option ℚ) {x y : ℚ} (le : x ≤ y) :
    lowerTo high x ≤ lowerTo high y := by
  rw [lowerTo_eq, lowerTo_eq]
  cases high.filter (0 < ·) with
  | none => exact le
  | some high => exact min_le_min_left high le

theorem le_raiseTo (low : Option ℚ) (x : ℚ) : x ≤ raiseTo low x := by
  rw [raiseTo_eq]
  cases low.filter (0 < ·) with
  | none => exact le_rfl
  | some low => exact le_max_left x low

/-- Both sides of a halfway point go to the even cent, so ties keep the order. -/
theorem quantize_mono {x y : ℚ} (le : x ≤ y) : quantize (1 / 100) x ≤ quantize (1 / 100) y := by
  rcases le_or_gt (quantize (1 / 100) x) y with past | between
  · exact le_quantize (wholeCents_quantize x) past
  · -- `x` and `y` are in the half of a cent below the cent that `x` is rounded to
    rcases eq_or_lt_of_le le with same | less
    · rw [same]
    · rcases roundHalfEven_cases (x * 100) with ⟨down, -⟩ | ⟨up, above⟩
      · have floor := Int.floor_le (x * 100)
        rw [quantize_eq, down] at between
        linarith
      · rcases roundHalfEven_cases (y * 100) with ⟨down, below⟩ | ⟨up', -⟩
        · exfalso
          have floors : ⌊y * 100⌋ = ⌊x * 100⌋ := by
            rw [quantize_eq, up] at between
            push_cast at between
            rw [Int.floor_eq_iff]
            have floor := Int.floor_le (x * 100)
            exact ⟨by linarith, by linarith⟩
          have splitX := Int.floor_add_fract (x * 100)
          have splitY := Int.floor_add_fract (y * 100)
          rw [floors] at splitY
          have half : 1 / 2 ≤ Int.fract (x * 100) := by
            rcases above with above | ⟨above, -⟩ <;> linarith
          have half' : Int.fract (y * 100) ≤ 1 / 2 := by
            rcases below with below | ⟨below, -⟩ <;> linarith
          linarith
        · rw [quantize_eq, quantize_eq, up, up']
          have floors : ⌊x * 100⌋ ≤ ⌊y * 100⌋ := Int.floor_le_floor (by linarith)
          have floors' : (⌊x * 100⌋ : ℚ) ≤ ⌊y * 100⌋ := Int.cast_le.mpr floors
          push_cast
          linarith

/-! ## The markup price -/

variable {settings : Settings} {mapping : ProductMapping} {storeProduct : StoreProduct}

/-- The price that the store's maximum may lower. -/
def beforeMaximum (settings : Settings) (rate : ℚ) (product : SupplierProduct)
    (mapping : ProductMapping) (storeProduct : StoreProduct) : ℚ :=
  raiseTo storeProduct.priceLimitMin
    (max (round settings.priceRounding (rawPrice settings rate product mapping))
      settings.minOfferPrice)

/-- The store's maximum lowers the price. -/
def Lowered (settings : Settings) (rate : ℚ) (product : SupplierProduct) (mapping : ProductMapping)
    (storeProduct : StoreProduct) : Prop :=
  ∃ high ∈ storeProduct.highest, high < beforeMaximum settings rate product mapping storeProduct

theorem rawPrice_mono {rate : ℚ} (live : 0 < rate)
    (markup : -100 ≤ mapping.markupPercentOverride.getD settings.defaultMarkupPercent)
    {product dearer : SupplierProduct} (le : product.priceSupplier ≤ dearer.priceSupplier) :
    rawPrice settings rate product mapping ≤ rawPrice settings rate dearer mapping := by
  have factor : 0 ≤ 1 +
      mapping.markupPercentOverride.getD settings.defaultMarkupPercent / 100 := by linarith
  exact mul_le_mul_of_nonneg_right (mul_le_mul_of_nonneg_right le live.le) factor

theorem finalPrice_mono {rate : ℚ} (live : 0 < rate)
    (markup : -100 ≤ mapping.markupPercentOverride.getD settings.defaultMarkupPercent)
    {product dearer : SupplierProduct} (le : product.priceSupplier ≤ dearer.priceSupplier) :
    (priceAt settings rate product mapping storeProduct).finalPrice ≤
      (priceAt settings rate dearer mapping storeProduct).finalPrice := by
  rw [finalPrice_eq, finalPrice_eq]
  have raw := rawPrice_mono live markup le
  have floored := max_le_max_right settings.minOfferPrice
    (round_mono settings.priceRounding raw)
  exact quantize_mono (lowerTo_mono _ (raiseTo_mono _ floored))

theorem raw_le_finalPrice {rate : ℚ} {product : SupplierProduct}
    (kept : ¬ Lowered settings rate product mapping storeProduct) :
    rawPrice settings rate product mapping - roundingLoss settings.priceRounding ≤
      (priceAt settings rate product mapping storeProduct).finalPrice := by
  rw [finalPrice_eq]
  change _ ≤ quantize (1 / 100) (lowerTo storeProduct.priceLimitMax
    (beforeMaximum settings rate product mapping storeProduct))
  have unlowered : lowerTo storeProduct.priceLimitMax
      (beforeMaximum settings rate product mapping storeProduct) =
      beforeMaximum settings rate product mapping storeProduct := by
    rw [lowerTo_eq]
    change storeProduct.highest.elim _ (min · _) = _
    cases maximum : storeProduct.highest with
    | none => rfl
    | some high => exact min_eq_right (not_lt.mp fun less => kept ⟨high, maximum, less⟩)
  rw [unlowered]
  calc rawPrice settings rate product mapping - roundingLoss settings.priceRounding
      ≤ round settings.priceRounding (rawPrice settings rate product mapping) :=
        sub_loss_le_round _ _
    _ ≤ quantize (1 / 100) (beforeMaximum settings rate product mapping storeProduct) :=
        le_quantize (wholeCents_round _ _) ((le_max_left _ _).trans (le_raiseTo _ _))

/-- At a positive rate, with a markup of at least -100 percent and no fixed price, a dearer
product has no lower price, and a price the store's maximum did not lower is at least the
supplier's price with rate and markup, less what the first rounding takes off. -/
theorem compute_mono_and_close {W : Type} (source : Source W) {rate : ℚ} {s t : Rates W}
    (markupOnly : mapping.fixedPriceOverride = none)
    (markup : -100 ≤ mapping.markupPercentOverride.getD source.settings.defaultMarkupPercent)
    (rated : (Pricing.rate source).Runs s (.ok rate) t) (live : 0 < rate)
    (product : SupplierProduct) :
    ∃ q, (compute source product mapping storeProduct).Runs s (.ok q) t ∧
      (∀ dearer : SupplierProduct, product.priceSupplier ≤ dearer.priceSupplier →
        ∃ q', (compute source dearer mapping storeProduct).Runs s (.ok q') t ∧
          q.finalPrice ≤ q'.finalPrice) ∧
      (¬ Lowered source.settings rate product mapping storeProduct →
        rawPrice source.settings rate product mapping -
          roundingLoss source.settings.priceRounding ≤ q.finalPrice) := by
  have computed : ∀ p : SupplierProduct, (compute source p mapping storeProduct).Runs s
      (.ok (priceAt source.settings rate p mapping storeProduct)) t := by
    intro p
    unfold compute
    rw [markupOnly]
    exact Prog.runs_bind.mpr (.inl ⟨rate, t, rated, Prog.runs_pure.mpr ⟨rfl, rfl⟩⟩)
  exact ⟨_, computed product,
    fun dearer le => ⟨_, computed dearer, finalPrice_mono live markup le⟩, raw_le_finalPrice⟩

end Pricing

namespace EchoStore

/-- A product of 1 USD: what dearer products cost, and what rounding took off. -/
theorem one_dollar_close :
    ∃ q, (Pricing.compute (pricing settings) (supplierProduct 1 1) (mapping 1)
        (storeProduct 1 none)).Runs ⟨[], 0⟩ (.ok q) ⟨[], 0⟩ ∧
      (∀ dearer : SupplierProduct, (supplierProduct 1 1).priceSupplier ≤ dearer.priceSupplier →
        ∃ q', (Pricing.compute (pricing settings) dearer (mapping 1)
            (storeProduct 1 none)).Runs ⟨[], 0⟩ (.ok q') ⟨[], 0⟩ ∧
          q.finalPrice ≤ q'.finalPrice) ∧
      (¬ Pricing.Lowered settings 1 (supplierProduct 1 1) (mapping 1) (storeProduct 1 none) →
        Pricing.rawPrice settings 1 (supplierProduct 1 1) (mapping 1) -
          Pricing.roundingLoss settings.priceRounding ≤ q.finalPrice) :=
  Pricing.compute_mono_and_close (pricing settings) rfl
    (by change (-100 : ℚ) ≤ 15; norm_num) rfl one_pos (supplierProduct 1 1)

end EchoStore

end FazerBridge
