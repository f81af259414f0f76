import FazerBridge.AdminApi
import FazerBridge.OfferSync.Addressing
import FazerBridge.OfferSync.SentPrices

/-!
# The bounds of a published price

A markup price is rounded, floored and clamped, in this order, and leaves the
pricer within the store's limits (`priceAt_bounded`).  A fixed price is rounded and
nothing else, so it is within the limits only if it was already past the points at
which rounding crosses them (`fixedPrice_bounded_iff`).
-/

namespace FazerBridge

/-- An amount in whole cents. -/
def WholeCents (amount : ℚ) : Prop := ∃ cents : ℤ, amount = cents * (1 / 100)

/-! ## What `set_pricing` leaves in a mapping -/

/-- The overrides of a mapping are in the range of the pricing requests. -/
structure ProductMapping.PricesInRange (mapping : ProductMapping) : Prop where
  markup : ∀ markup ∈ mapping.markupPercentOverride, -90 ≤ markup ∧ markup ≤ 1000
  fixed : ∀ fixed ∈ mapping.fixedPriceOverride, 0 ≤ fixed

/-- A request that was accepted keeps the prices of its mapping in range. -/
theorem ProductMapping.PricesInRange.setPricing {mapping : ProductMapping}
    (inRange : mapping.PricesInRange) (body : PricingIn) :
    (mapping.setPricing body).PricesInRange := by
  constructor
  · intro markup given
    simp only [ProductMapping.setPricing, Option.mem_def] at given
    split at given
    · cases given
    · rcases Option.or_eq_some_iff.mp given with given | ⟨-, given⟩
      · exact body.markupInRange markup given
      · exact inRange.markup markup given
  · intro fixed given
    simp only [ProductMapping.setPricing, Option.mem_def] at given
    split at given
    · cases given
    · rcases Option.or_eq_some_iff.mp given with given | ⟨-, given⟩
      · exact body.fixedInRange fixed given
      · exact inRange.fixed fixed given

/-! ## The store's limits -/

namespace StoreProduct

/-- The store's minimum, as the pricer reads it: one that is not positive is none. -/
def lowest (product : StoreProduct) : Option ℚ := product.priceLimitMin.filter (0 < ·)

/-- The store's maximum, as the pricer reads it. -/
def highest (product : StoreProduct) : Option ℚ := product.priceLimitMax.filter (0 < ·)

/-- The limits are in whole cents and leave a price between them. -/
structure LimitsInCents (product : StoreProduct) : Prop where
  lowest : ∀ low ∈ product.lowest, WholeCents low
  highest : ∀ high ∈ product.highest, WholeCents high
  ordered : ∀ low ∈ product.lowest, ∀ high ∈ product.highest, low ≤ high

end StoreProduct

namespace Pricing

/-- A price within the store's limits, and not below the floor unless the store's
maximum is. -/
structure Bounded (settings : Settings) (storeProduct : StoreProduct) (price : ℚ) : Prop where
  atLeast : ∀ low ∈ storeProduct.lowest, low ≤ price
  atMost : ∀ high ∈ storeProduct.highest, price ≤ high
  floor : settings.minOfferPrice ≤ price ∨
    ∃ high ∈ storeProduct.highest, high < settings.minOfferPrice

/-! ## Rounding -/

theorem roundHalfUp_intCast (n : ℤ) : roundHalfUp n = n := by
  unfold roundHalfUp
  split
  · rw [Int.floor_intCast_add]
    norm_num
  · rw [← Int.cast_neg, Int.floor_intCast_add]
    norm_num

theorem roundHalfEven_intCast (n : ℤ) : roundHalfEven n = n := by
  simp [roundHalfEven]

/-- What is rounded to a whole number or more. -/
theorem le_roundHalfUp {x : ℚ} (nonneg : 0 ≤ x) {n : ℤ} : n ≤ roundHalfUp x ↔ n - 1 / 2 ≤ x := by
  rw [roundHalfUp, if_pos nonneg, Int.le_floor]
  exact sub_le_iff_le_add.symm

/-- What is rounded to a whole number or less. -/
theorem roundHalfUp_le {x : ℚ} (nonneg : 0 ≤ x) {n : ℤ} : roundHalfUp x ≤ n ↔ x < n + 1 / 2 := by
  rw [← Int.lt_add_one_iff, ← not_le, le_roundHalfUp nonneg, not_le]
  push_cast
  constructor <;> intro h <;> linarith


/-- `_round` to a multiple of `step`. -/
theorem toStep_le {step value bound : ℚ} (pos : 0 < step) (nonneg : 0 ≤ value) :
    roundHalfUp (value / step) * step ≤ bound ↔ value < (⌊bound / step⌋ + 1 / 2) * step := by
  rw [← le_div_iff₀ pos, ← Int.le_floor, roundHalfUp_le (div_nonneg nonneg pos.le),
    div_lt_iff₀ pos]

/-- What is rounded to a bound or more, in steps. -/
theorem le_toStep {step value bound : ℚ} (pos : 0 < step) (nonneg : 0 ≤ value) :
    bound ≤ roundHalfUp (value / step) * step ↔ (⌈bound / step⌉ - 1 / 2) * step ≤ value := by
  rw [← div_le_iff₀ pos, ← Int.ceil_le, le_roundHalfUp (div_nonneg nonneg pos.le),
    le_div_iff₀ pos]

/-- The whole unit that ".99 pricing" goes up to. -/
theorem wholeUnit_eq_ceil {value : ℚ} (nonneg : 0 ≤ value) :
    (if (roundHalfUp value : ℚ) < value then roundHalfUp value + 1 else roundHalfUp value) =
      ⌈value⌉ := by
  have above : value - 1 / 2 ≤ roundHalfUp value + 0 := by
    have := (roundHalfUp_le nonneg (n := roundHalfUp value)).mp le_rfl
    linarith
  have below : (roundHalfUp value : ℚ) - 1 / 2 ≤ value := (le_roundHalfUp nonneg).mp le_rfl
  symm
  split_ifs with under
  · rw [Int.ceil_eq_iff]
    push_cast
    exact ⟨by linarith, by linarith⟩
  · rw [Int.ceil_eq_iff]
    exact ⟨by linarith, not_lt.mp under⟩

/-- Psychological prices end in 99 cents, from 0.99 on. -/
theorem round_ninetyNine {value : ℚ} (nonneg : 0 ≤ value) :
    round .ninetyNine value = max (99 / 100) ((⌈value⌉ : ℚ) - 1 / 100) := by
  rw [← wholeUnit_eq_ceil nonneg]
  rfl

/-- The fixed prices that are rounded to `bound` or more. -/
def RoundsAbove (mode : PriceRounding) (bound fixed : ℚ) : Prop :=
  let pastHalf (step : ℚ) := (⌈bound / step⌉ - 1 / 2) * step ≤ fixed
  match mode with
  | .cent => pastHalf (1 / 100)
  | .fiveCents => pastHalf (5 / 100)
  | .tenCents => pastHalf (10 / 100)
  | .ninetyNine => bound ≤ 99 / 100 ∨ ⌈bound + 1 / 100⌉ - 1 < fixed

/-- The fixed prices that are rounded to `bound` or less. -/
def RoundsBelow (mode : PriceRounding) (bound fixed : ℚ) : Prop :=
  let beforeHalf (step : ℚ) := fixed < (⌊bound / step⌋ + 1 / 2) * step
  match mode with
  | .cent => beforeHalf (1 / 100)
  | .fiveCents => beforeHalf (5 / 100)
  | .tenCents => beforeHalf (10 / 100)
  | .ninetyNine => 99 / 100 ≤ bound ∧ fixed ≤ ⌊bound + 1 / 100⌋

/-- A fixed price is rounded to a bound or more. -/
theorem le_round_iff {mode : PriceRounding} {bound fixed : ℚ} (nonneg : 0 ≤ fixed) :
    bound ≤ round mode fixed ↔ RoundsAbove mode bound fixed := by
  cases mode with
  | cent | fiveCents | tenCents => exact le_toStep (by norm_num) nonneg
  | ninetyNine =>
      rw [round_ninetyNine nonneg, le_max_iff, le_sub_iff_add_le, ← Int.ceil_le, RoundsAbove,
        ← Int.sub_one_lt_iff, Int.lt_ceil]
      push_cast
      rfl

/-- A fixed price is rounded to a bound or less. -/
theorem round_le_iff {mode : PriceRounding} {bound fixed : ℚ} (nonneg : 0 ≤ fixed) :
    round mode fixed ≤ bound ↔ RoundsBelow mode bound fixed := by
  cases mode with
  | cent | fiveCents | tenCents => exact toStep_le (by norm_num) nonneg
  | ninetyNine =>
      rw [round_ninetyNine nonneg, max_le_iff, sub_le_iff_le_add, ← Int.le_floor, Int.ceil_le]
      rfl

/-! ## Whole cents -/

theorem wholeCents_toStep (n cents : ℤ) : WholeCents (n * (cents / 100)) :=
  ⟨n * cents, by push_cast; ring⟩

/-- Every rounding mode answers whole cents. -/
theorem wholeCents_round (mode : PriceRounding) (value : ℚ) : WholeCents (round mode value) := by
  cases mode with
  | cent => exact wholeCents_toStep _ 1
  | fiveCents => exact wholeCents_toStep _ 5
  | tenCents => exact wholeCents_toStep _ 10
  | ninetyNine =>
      obtain ⟨unit, rounded⟩ : ∃ unit : ℤ,
          round .ninetyNine value = max (99 / 100) ((unit : ℚ) - 1 / 100) := ⟨_, rfl⟩
      rcases max_choice (99 / 100) ((unit : ℚ) - 1 / 100) with chosen | chosen
      · exact ⟨99, by rw [rounded, chosen]; norm_num⟩
      · exact ⟨unit * 100 - 1, by rw [rounded, chosen]; push_cast; ring⟩

/-- An amount of whole cents stays as it is. -/
theorem quantize_cents {amount : ℚ} (cents : WholeCents amount) :
    quantize (1 / 100) amount = amount := by
  obtain ⟨n, rfl⟩ := cents
  rw [quantize, mul_div_cancel_right₀ _ (by norm_num), roundHalfEven_intCast]

/-! ## The markup price -/

/-- The clamp to a minimum. -/
def raiseTo (low : Option ℚ) (price : ℚ) : ℚ :=
  if 0 < low.getD 0 ∧ price < low.getD 0 then low.getD 0 else price

/-- The clamp to a maximum. -/
def lowerTo (high : Option ℚ) (price : ℚ) : ℚ :=
  if 0 < high.getD 0 ∧ high.getD 0 < price then high.getD 0 else price

/-- A markup price is rounded, floored and clamped to the limits of the store. -/
theorem priceAt_finalPrice (settings : Settings) (rate : ℚ) (product : SupplierProduct)
    (mapping : ProductMapping) (storeProduct : StoreProduct) :
    ∃ rounded, WholeCents rounded ∧
      (priceAt settings rate product mapping storeProduct).finalPrice =
        quantize (1 / 100) (lowerTo storeProduct.priceLimitMax
          (raiseTo storeProduct.priceLimitMin (max rounded settings.minOfferPrice))) := by
  refine ⟨_, wholeCents_round settings.priceRounding (product.priceSupplier * rate *
    (1 + mapping.markupPercentOverride.getD settings.defaultMarkupPercent / 100)), ?_⟩
  simp only [priceAt, raiseTo, lowerTo, max_def_lt, decide_eq_true_eq]

theorem raiseTo_eq (low : Option ℚ) (price : ℚ) :
    raiseTo low price = (low.filter (0 < ·)).elim price (max price) := by
  cases low with
  | none => simp [raiseTo]
  | some low =>
      by_cases pos : 0 < low
      · simp [raiseTo, pos, Option.filter, max_def_lt]
      · simp [raiseTo, pos, Option.filter]

theorem lowerTo_eq (high : Option ℚ) (price : ℚ) :
    lowerTo high price = (high.filter (0 < ·)).elim price (min · price) := by
  cases high with
  | none => simp [lowerTo]
  | some high =>
      by_cases pos : 0 < high
      · simp [lowerTo, pos, Option.filter, min_def_lt]
      · simp [lowerTo, pos, Option.filter]

variable {settings : Settings} {product : SupplierProduct} {mapping : ProductMapping}
  {storeProduct : StoreProduct}

/-- A clamped price is in whole cents again, so the last rounding changes nothing. -/
theorem wholeCents_clamped (limits : storeProduct.LimitsInCents) {price : ℚ}
    (cents : WholeCents price) :
    WholeCents (lowerTo storeProduct.priceLimitMax (raiseTo storeProduct.priceLimitMin price)) := by
  have raised : WholeCents (raiseTo storeProduct.priceLimitMin price) := by
    rw [raiseTo_eq]
    change WholeCents (storeProduct.lowest.elim price (max price))
    cases low : storeProduct.lowest with
    | none => exact cents
    | some low' =>
        rcases max_choice price low' with chosen | chosen <;> simp only [Option.elim, chosen]
        · exact cents
        · exact limits.lowest low' low
  generalize raiseTo storeProduct.priceLimitMin price = price' at raised
  rw [lowerTo_eq]
  change WholeCents (storeProduct.highest.elim price' (min · price'))
  cases high : storeProduct.highest with
  | none => exact raised
  | some high' =>
      rcases min_choice high' price' with chosen | chosen <;> simp only [Option.elim, chosen]
      · exact limits.highest high' high
      · exact raised

/-- A price above the floor that is clamped to limits in cents is bounded. -/
theorem clamped_bounded (limits : storeProduct.LimitsInCents) {price : ℚ}
    (above : settings.minOfferPrice ≤ price) :
    Bounded settings storeProduct
      (lowerTo storeProduct.priceLimitMax (raiseTo storeProduct.priceLimitMin price)) := by
  have raised : price ≤ raiseTo storeProduct.priceLimitMin price ∧
      ∀ low ∈ storeProduct.lowest, low ≤ raiseTo storeProduct.priceLimitMin price := by
    rw [raiseTo_eq]
    change price ≤ storeProduct.lowest.elim price (max price) ∧
      ∀ low ∈ storeProduct.lowest, low ≤ storeProduct.lowest.elim price (max price)
    cases storeProduct.lowest with
    | none => exact ⟨le_rfl, nofun⟩
    | some low =>
        refine ⟨le_max_left price low, ?_⟩
        rintro _ ⟨⟩
        exact le_max_right price low
  obtain ⟨kept, atLeast⟩ := raised
  generalize raiseTo storeProduct.priceLimitMin price = price' at kept atLeast
  rw [lowerTo_eq]
  change Bounded settings storeProduct (storeProduct.highest.elim price' (min · price'))
  cases high : storeProduct.highest with
  | none =>
      refine ⟨atLeast, ?_, .inl (above.trans kept)⟩
      rw [high]
      nofun
  | some high' =>
      refine ⟨fun low mem => le_min (limits.ordered low mem high' high) (atLeast low mem), ?_, ?_⟩
      · rw [high]
        rintro _ ⟨⟩
        exact min_le_left high' price'
      · rcases le_or_gt settings.minOfferPrice high' with fits | below
        · exact .inl (le_min fits (above.trans kept))
        · exact .inr ⟨high', high, below⟩

/-- A markup price is within the bounds. -/
theorem priceAt_bounded (limits : storeProduct.LimitsInCents)
    (floor : WholeCents settings.minOfferPrice) (rate : ℚ) :
    Bounded settings storeProduct (priceAt settings rate product mapping storeProduct).finalPrice := by
  obtain ⟨rounded, cents, final⟩ := priceAt_finalPrice settings rate product mapping storeProduct
  have floored : WholeCents (max rounded settings.minOfferPrice) := by
    rcases max_choice rounded settings.minOfferPrice with chosen | chosen <;> rw [chosen]
    · exact cents
    · exact floor
  rw [final, quantize_cents (wholeCents_clamped limits floored)]
  exact clamped_bounded limits (le_max_right rounded settings.minOfferPrice)

/-! ## The fixed price -/

/-- The mapping has no fixed price, or one that rounding leaves within the bounds. -/
def Permits (settings : Settings) (storeProduct : StoreProduct) (mapping : ProductMapping) : Prop :=
  ∀ fixed ∈ mapping.fixedPriceOverride,
    (∀ low ∈ storeProduct.lowest, RoundsAbove settings.priceRounding low fixed) ∧
    (∀ high ∈ storeProduct.highest, RoundsBelow settings.priceRounding high fixed) ∧
    (RoundsAbove settings.priceRounding settings.minOfferPrice fixed ∨
      ∃ high ∈ storeProduct.highest, high < settings.minOfferPrice)

/-- A fixed price is bounded exactly if it rounds into the limits. -/
theorem fixedPrice_bounded_iff {fixed : ℚ} (nonneg : 0 ≤ fixed) :
    Bounded settings storeProduct (fixedPrice settings product fixed).finalPrice ↔
      (∀ low ∈ storeProduct.lowest, RoundsAbove settings.priceRounding low fixed) ∧
      (∀ high ∈ storeProduct.highest, RoundsBelow settings.priceRounding high fixed) ∧
      (RoundsAbove settings.priceRounding settings.minOfferPrice fixed ∨
        ∃ high ∈ storeProduct.highest, high < settings.minOfferPrice) := by
  simp only [← le_round_iff nonneg, ← round_le_iff nonneg]
  exact ⟨fun bounded => ⟨bounded.1, bounded.2, bounded.3⟩,
    fun ⟨atLeast, atMost, floor⟩ => ⟨atLeast, atMost, floor⟩⟩

/-- A price of the pricer is within the bounds exactly if the mapping permits it. -/
theorem pricer_bounded_iff {W : Type} {source : Source W}
    (floor : WholeCents source.settings.minOfferPrice) (inRange : mapping.PricesInRange)
    (limits : storeProduct.LimitsInCents) {rates rates' : Rates W} {price : ℚ}
    (run : (source.pricer product mapping storeProduct).Runs rates (.ok price) rates') :
    Bounded source.settings storeProduct price ↔
      Permits source.settings storeProduct mapping := by
  obtain ⟨q, computed, answered⟩ := Prog.runs_map.mp run
  unfold compute at computed
  unfold Permits
  cases fixed : mapping.fixedPriceOverride with
  | some fixed' =>
      rw [fixed] at computed
      obtain ⟨rfl, -⟩ := Prog.runs_pure.mp computed
      cases answered
      rw [fixedPrice_bounded_iff (inRange.fixed fixed' fixed)]
      simp
  | none =>
      rw [fixed] at computed
      rcases Prog.runs_bind.mp computed with ⟨rate, m, -, priced⟩ | ⟨e, -, rfl⟩
      · obtain ⟨rfl, -⟩ := Prog.runs_pure.mp priced
        cases answered
        exact ⟨fun _ => nofun, fun _ => priceAt_bounded limits floor rate⟩
      · cases answered

end Pricing

namespace OfferSync

/-- Every price a session sends is within its product's bounds exactly if its mapping
permits it. -/
theorem sent_bounded_iff {W : Type} (sync : OfferSync W) (source : Pricing.Source W)
    (priced : sync.pricer = source.pricer) (floor : WholeCents source.settings.minOfferPrice)
    (db : Db) (inRange : ∀ mapping ∈ db.mappings.rows, mapping.PricesInRange)
    (limits : ∀ product ∈ db.storeProducts.rows, product.LimitsInCents)
    (count : Option ℕ) (dryRun : Bool) (world : W) (trace : List Entry) :
    Adds (fun entry => ∃ item ∈ sync.syncable db count, SentFor item (fun price =>
        Pricing.Bounded source.settings item.storeProduct price ↔
          Pricing.Permits source.settings item.storeProduct item.mapping) entry) trace
      (sync.sessionScope (sync.run count dryRun) db world trace).trace := by
  have guarantees : sync.Guarantees (fun _ => True) fun _ item price =>
      item.mapping.PricesInRange → item.storeProduct.LimitsInCents →
        (Pricing.Bounded source.settings item.storeProduct price ↔
          Pricing.Permits source.settings item.storeProduct item.mapping) := by
    refine ⟨fun _ _ => trivial, fun {item rates price rates'} _ run range cents => ?_⟩
    rw [priced] at run
    exact Pricing.pricer_bounded_iff floor range cents run
  refine (guarantees.session db world trace trivial).mono fun entry made => ?_
  obtain ⟨item, mem, -, sent⟩ := made.exists_item
  obtain ⟨stored, opened⟩ := mem_syncable mem
  obtain ⟨-, -, store, -⟩ := itemOf_eq_some opened
  obtain ⟨productId, -, found⟩ := Option.bind_eq_some_iff.mp store
  exact ⟨item, mem, sent.mono fun price good => good (inRange _ stored)
    (limits _ (Table.find?_eq_some_iff.mp found).1)⟩

end OfferSync

/-! ## An item that is given away -/

namespace EchoStore

/-- The first product has a fixed price of zero, the second one only a markup. -/
def freeDb : Db :=
  { db with
    mappings := ⟨⟨[{ mapping 1 with fixedPriceOverride := some 0 }, mapping 2], by decide⟩,
      by decide, by decide⟩ }

def freeSession : OfferSync.Left Time Stats :=
  (offers settings adapter).sessionScope ((offers settings adapter).run none false) freeDb 0 []

theorem floor_cents : WholeCents settings.minOfferPrice :=
  ⟨30, by norm_num [settings, Settings.default]⟩

theorem freeDb_inRange : ∀ mapping ∈ freeDb.mappings.rows, mapping.PricesInRange := by
  intro m mem
  simp only [freeDb, ProductMappings.rows, List.mem_cons, List.not_mem_nil, or_false] at mem
  rcases mem with rfl | rfl
  · refine ⟨fun _ given => ?_, fun fixed given => Option.some.inj given ▸ le_rfl⟩
    cases given
  · constructor <;>
      · intro _ given
        cases given

theorem freeDb_limits : ∀ product ∈ freeDb.storeProducts.rows, product.LimitsInCents := by
  intro product mem
  simp only [freeDb, db, StoreProducts.rows, List.mem_cons, List.not_mem_nil, or_false] at mem
  rcases mem with rfl | rfl | rfl
  · constructor <;>
      · intro _ given
        cases given
  · constructor <;>
      · intro _ given
        cases given
  · refine ⟨fun low given => ?_, fun _ given => ?_, fun _ _ _ given => ?_⟩
    · cases Option.some.inj given
      exact ⟨2000, by norm_num⟩
    · cases given
    · cases given

theorem freeDb_noMaximum : ∀ product ∈ freeDb.storeProducts.rows, product.highest = none := by
  intro product mem
  simp only [freeDb, db, StoreProducts.rows, List.mem_cons, List.not_mem_nil, or_false] at mem
  rcases mem with rfl | rfl | rfl <;> rfl

/-- The items are offered at the fixed price and at the markup price. -/
theorem freeSession_prices :
    freeSession.trace.filterMap (fun entry => entry.call.price) = [23 / 2, 0] := by
  decide +kernel

/-- The bounds hold of the second price and not of the first, as the mappings say. -/
theorem freeSession_bounded_iff :
    freeSession.trace.filterMap (fun entry => entry.call.price) = [23 / 2, 0] ∧
    OfferSync.Adds (fun entry => ∃ item ∈ (offers settings adapter).syncable freeDb none,
      OfferSync.SentFor item (fun price => Pricing.Bounded settings item.storeProduct price ↔
        Pricing.Permits settings item.storeProduct item.mapping) entry) [] freeSession.trace :=
  ⟨freeSession_prices, OfferSync.sent_bounded_iff _ (pricing settings) rfl floor_cents
    freeDb freeDb_inRange freeDb_limits none false 0 []⟩

-- only the kernel is to run the session
attribute [irreducible] freeSession

end EchoStore

/-- A fixed price of zero is sent although no product has a maximum below the floor. -/
theorem free_item_sent :
    (∀ mapping ∈ EchoStore.freeDb.mappings.rows, mapping.PricesInRange) ∧
    (∀ product ∈ EchoStore.freeDb.storeProducts.rows, product.LimitsInCents) ∧
    ¬ OfferSync.Adds (fun entry => ∃ item ∈
        (EchoStore.offers EchoStore.settings EchoStore.adapter).syncable EchoStore.freeDb none,
        OfferSync.SentFor item (Pricing.Bounded EchoStore.settings item.storeProduct) entry)
      [] EchoStore.freeSession.trace := by
  refine ⟨EchoStore.freeDb_inRange, EchoStore.freeDb_limits, fun ⟨calls, same, sent⟩ => ?_⟩
  have free : (0 : ℚ) ∈ EchoStore.freeSession.trace.filterMap (fun entry => entry.call.price) := by
    rw [EchoStore.freeSession_prices]
    simp
  obtain ⟨entry, made, carried⟩ := List.mem_filterMap.mp free
  rw [same, List.append_nil] at made
  obtain ⟨item, mem, -, -, bounded⟩ := sent entry made
  obtain ⟨-, opened⟩ := OfferSync.mem_syncable mem
  obtain ⟨-, -, store, -⟩ := OfferSync.itemOf_eq_some opened
  obtain ⟨productId, -, found⟩ := Option.bind_eq_some_iff.mp store
  have noMaximum := EchoStore.freeDb_noMaximum _ (Table.find?_eq_some_iff.mp found).1
  rcases (bounded 0 carried).floor with floor | ⟨high, given, -⟩
  · norm_num [EchoStore.settings, Settings.default] at floor
  · rw [noMaximum] at given
    cases given

end FazerBridge
