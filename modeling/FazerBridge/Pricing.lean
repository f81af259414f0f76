import FazerBridge.Adapter
import FazerBridge.Lib.Program

/-!
# Pricing

`app/services/pricing.py`: supplier cost times FX rate times markup, rounded,
floored, and clamped to the store's limits.  Amounts are exact rationals.

The FX provider is a function `fetch` on the state of the world; the rate it
answers is cached in `fx_rates`.
-/

namespace FazerBridge

/-- Every input to a published price. -/
structure PriceBreakdown where
  supplierPrice : ℚ
  fxRate : ℚ
  markupPercent : ℚ
  rawPrice : ℚ
  finalPrice : ℚ
  clamped : Bool := false
  floored : Bool := false
  reason : String := ""
  deriving DecidableEq, Repr

namespace Pricing

/-- The nearest integer, halves away from zero. -/
def roundHalfUp (x : ℚ) : ℤ := if 0 ≤ x then ⌊x + 1 / 2⌋ else -⌊-x + 1 / 2⌋

/-- The nearest integer, halves to the even one. -/
def roundHalfEven (x : ℚ) : ℤ :=
  let down := ⌊x⌋
  if x - down < 1 / 2 then down
  else if 1 / 2 < x - down then down + 1
  else if down % 2 = 0 then down else down + 1

/-- `value.quantize(step)` for a power of ten `step`. -/
def quantize (step value : ℚ) : ℚ := roundHalfEven (value / step) * step

/-- `Pricer._round` -/
def round (mode : PriceRounding) (value : ℚ) : ℚ :=
  let toStep (step : ℚ) : ℚ := roundHalfUp (value / step) * step
  match mode with
  | .cent => toStep (1 / 100)
  | .fiveCents => toStep (5 / 100)
  | .tenCents => toStep (10 / 100)
  | .ninetyNine =>
    let whole := roundHalfUp value
    let whole := if (whole : ℚ) < value then whole + 1 else whole
    max (99 / 100) (whole - 1 / 100)

/-- The price at a known FX rate. -/
def priceAt (settings : Settings) (rate : ℚ) (product : SupplierProduct) (mapping : ProductMapping)
    (storeProduct : StoreProduct) : PriceBreakdown :=
  let markup := mapping.markupPercentOverride.getD settings.defaultMarkupPercent
  let raw := product.priceSupplier * rate * (1 + markup / 100)
  let final := round settings.priceRounding raw
  let floored := decide (final < settings.minOfferPrice)
  let final := if floored then settings.minOfferPrice else final
  let low := storeProduct.priceLimitMin.getD 0
  let raised := decide (0 < low ∧ final < low)
  let final := if raised then low else final
  let high := storeProduct.priceLimitMax.getD 0
  let lowered := decide (0 < high ∧ high < final)
  let final := if lowered then high else final
  { supplierPrice := product.priceSupplier
    fxRate := rate
    markupPercent := markup
    rawPrice := quantize (1 / 10000) raw
    finalPrice := quantize (1 / 100) final
    clamped := raised || lowered
    floored := floored
    reason :=
      if lowered then "lowered to store maximum " ++ String.ofList (formatFixed 4 high)
      else if raised then "raised to store minimum " ++ String.ofList (formatFixed 4 low)
      else "" }

/-- The price of a mapping with a fixed price. -/
def fixedPrice (settings : Settings) (product : SupplierProduct) (fixed : ℚ) : PriceBreakdown where
  supplierPrice := product.priceSupplier
  fxRate := 1
  markupPercent := 0
  rawPrice := fixed
  finalPrice := round settings.priceRounding fixed
  reason := "fixed price override"

/-- What pricing reads and writes: the cached rates, and the world. -/
structure Rates (W : Type) where
  fxRates : List FxRate
  world : W

/-- What the FX provider answers. -/
structure FxPayload where
  /-- `str(payload)` -/
  text : String
  /-- the rate of the store currency, with its text -/
  rate : Option (ℚ × String)

/-- What a `Pricer` is built with. -/
structure Source (W : Type) where
  settings : Settings
  /-- the provider's answer, or the text of its exception -/
  fetch : W → Except String FxPayload × W
  now : W → Time
  /-- what a flush answers -/
  flush : W → Option DbError × W

variable {W : Type} (source : Source W)

/-- The newest cached rate of the currency pair. -/
def cached (rates : List FxRate) : Option FxRate :=
  let pair := rates.filter fun r =>
    r.base = source.settings.supplierCurrency ∧ r.quote = source.settings.storeCurrency
  pair.foldl (fun best r =>
    match best with
    | none => some r
    | some b => if b.fetchedAt < r.fetchedAt then some r else some b) none

/-- `FxProvider._fetch`: a missing or non-positive rate is an error. -/
def fetchRate : Prog String (Rates W) ℚ := do
  let payload ← Prog.ofState fun (s : Rates W) =>
    let (answer, world) := source.fetch s.world
    (answer, { s with world := world })
  match payload.rate with
  | none =>
    throw ("FX provider returned no " ++ source.settings.storeCurrency ++ " rate: " ++ payload.text)
  | some (rate, text) =>
    if rate ≤ 0 then throw ("FX provider returned a non-positive rate: " ++ text) else pure rate

/-- `FxProvider.rate` -/
def rate (forceRefresh : Bool := false) : Prog Exn (Rates W) ℚ := do
  match source.settings.fxRateUsdEur with
  | some pinned => pure pinned
  | none =>
    let s ← get
    let known := if forceRefresh then none else cached source s.fxRates
    match known.filter fun r =>
        source.now s.world - r.fetchedAt < source.settings.fxMaxAgeHours * hour with
    | some fresh => pure fresh.rate
    | none =>
      let fetched ← Prog.ofState fun (s : Rates W) =>
        let (result, s) := (fetchRate source).exec s
        (.ok result, s)
      match fetched with
      | .error message =>
        if known.isSome then
          throw (.pricing { kind := .staleFxRate, message := "FX refresh failed (" ++ message ++
            ") and the cached rate is older than " ++ toString source.settings.fxMaxAgeHours ++
            "h -- refusing to price off it" })
        else throw (.pricing { message := "no FX rate available: " ++ message })
      | .ok rate =>
        Prog.ofState fun (s : Rates W) =>
          let (fault, world) := source.flush s.world
          let row : FxRate := ⟨source.settings.supplierCurrency, source.settings.storeCurrency,
            rate, source.settings.fxProviderUrl, source.now s.world⟩
          match fault with
          | none => (.ok rate, { fxRates := s.fxRates ++ [row], world := world })
          | some e => (.error (.database e), { s with world := world })

/-- `Pricer.compute` -/
def compute (product : SupplierProduct) (mapping : ProductMapping) (storeProduct : StoreProduct) :
    Prog Exn (Rates W) PriceBreakdown := do
  match mapping.fixedPriceOverride with
  | some fixed => pure (fixedPrice source.settings product fixed)
  | none =>
    let rate ← rate source
    pure (priceAt source.settings rate product mapping storeProduct)

/-- The price the offer sync takes from a `Pricer`. -/
def Source.pricer (product : SupplierProduct) (mapping : ProductMapping)
    (storeProduct : StoreProduct) : Prog Exn (Rates W) ℚ :=
  PriceBreakdown.finalPrice <$> compute source product mapping storeProduct

end Pricing

end FazerBridge
