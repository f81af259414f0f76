import Mathlib.Data.List.Sort
import FazerBridge.Lib.Floating
import FazerBridge.Lib.Preserves
import FazerBridge.Matching.Claims
import FazerBridge.OfferSync.Sessions

/-!
# The prices of the admin API

`list_offers` and `set_pricing` of `app/api/main.py` and `map price` of `app/cli.py`, as
programs over a session.  Amounts go out as Python floats: `float` is the nearest double, of a
range without ends.  How the database compares texts is a parameter.

A change of pricing writes one mapping, which keeps its product; besides that a session of the
API only computes prices (`PricingCall.spec`).
-/

namespace FazerBridge

/-- `float(value)`, and the rounding of an operation on floats. -/
def float (value : ℚ) : ℚ := Floating.toPrecision Pricing.roundHalfEven 53 value

/-- The validated body of a pricing request. -/
structure PricingIn where
  markupPercentOverride : Option ℚ := none
  fixedPriceOverride : Option ℚ := none
  syncEnabled : Option Bool := none
  clearMarkupOverride : Bool := false
  clearFixedPrice : Bool := false
  markupInRange : ∀ markup ∈ markupPercentOverride, -90 ≤ markup ∧ markup ≤ 1000
  fixedInRange : ∀ fixed ∈ fixedPriceOverride, 0 ≤ fixed

/-- What `set_pricing` writes to the mapping. -/
def ProductMapping.setPricing (mapping : ProductMapping) (body : PricingIn) : ProductMapping :=
  { mapping with
    markupPercentOverride :=
      if body.clearMarkupOverride then none
      else body.markupPercentOverride.or mapping.markupPercentOverride
    fixedPriceOverride :=
      if body.clearFixedPrice then none
      else body.fixedPriceOverride.or mapping.fixedPriceOverride
    syncEnabled := body.syncEnabled.getD mapping.syncEnabled }

/-- The options of `map price`; nothing checks the amounts. -/
structure PriceOptions where
  markup : Option ℚ := none
  fixed : Option ℚ := none
  clear : Bool := false
  pause : Bool := false
  resume : Bool := false

/-- What `map price` writes to the mapping. -/
def ProductMapping.priceBy (mapping : ProductMapping) (options : PriceOptions) : ProductMapping :=
  { mapping with
    markupPercentOverride :=
      options.markup.or (if options.clear then none else mapping.markupPercentOverride)
    fixedPriceOverride :=
      options.fixed.or (if options.clear then none else mapping.fixedPriceOverride)
    syncEnabled :=
      if options.resume then true
      else if options.pause then false
      else mapping.syncEnabled }

/-- The text of a state in the database. -/
def OfferState.value : OfferState → String
  | .pending => "pending"
  | .live => "live"
  | .outOfStock => "out_of_stock"
  | .archived => "archived"
  | .failed => "failed"

namespace AdminApi

open OfferSync (Item Session)

/-- How the database compares names. -/
structure Collation where
  /-- `lower(name) LIKE '%' || lower(search) || '%'` -/
  like : Text → Text → Bool
  /-- `ORDER BY name` -/
  before : Text → Text → Bool

/-- The query of `list_offers`. -/
structure OffersQuery where
  search : Option Text := none
  state : Option String := none
  count : ℕ := 100
  offset : ℕ := 0

/-- A mapped product with its offer. -/
structure OfferRow where
  item : Item
  offer : Option StoreOffer

/-- One product as it stands: what it costs us, what it sells for, and why. -/
structure OfferOut where
  mappingId : ℕ
  offerExtId : Option String
  storeProductExtId : String
  supplierName : Text
  storeName : Text
  state : String
  syncEnabled : Bool
  stock : ℕ
  supplierPrice : ℚ
  supplierCurrency : String
  markupPercent : ℚ
  markupIsOverride : Bool
  fixedPriceOverride : Option ℚ
  computedPrice : Option ℚ
  pushedPrice : Option ℚ
  pushedInventory : Option ℤ
  pricePending : Bool
  priceChangesThisHour : ℕ
  priceBudget : ℤ
  lastPushedAt : Option Time
  lastError : Option String
  deriving DecidableEq, Repr

/-- What `set_pricing` tells of the price that will be sent. -/
structure PricePreview where
  supplierPrice : ℚ
  fxRate : ℚ
  markupPercent : ℚ
  newPrice : ℚ
  clamped : Bool
  floored : Bool
  reason : String
  deriving DecidableEq, Repr

structure PricingOut where
  mappingId : ℕ
  syncEnabled : Bool
  markupPercentOverride : Option ℚ
  fixedPriceOverride : Option ℚ
  /-- or the text of a pricing error -/
  preview : Except String PricePreview

/-- What `map price` prints. -/
structure PricedOut where
  mappingId : ℕ
  product : Text
  syncEnabled : Bool
  cost : ℚ
  fxRate : ℚ
  markupPercent : ℚ
  newPrice : ℚ
  deriving DecidableEq, Repr

/-- The joins of `list_offers`. -/
def joined (db : Db) (mapping : ProductMapping) : Option OfferRow := do
  let supplierProduct ← db.supplierProducts.find? mapping.supplierProductId
  let storeProduct ← mapping.storeProductId.bind db.storeProducts.find?
  if mapping.status ∈ OfferSync.syncableStatuses then
    some ⟨⟨mapping, supplierProduct, storeProduct⟩, db.offers.find? mapping.id⟩
  else none

/-- The filters of a query; an empty text filters nothing. -/
def OffersQuery.keeps (query : OffersQuery) (collation : Collation) (row : OfferRow) : Bool :=
  let searched := (query.search.filter (· ≠ [])).all fun search =>
    collation.like search row.item.supplierProduct.name ||
      collation.like search row.item.storeProduct.name
  let inState := (query.state.filter (· ≠ "")).all fun state =>
    row.offer.any fun offer => offer.state.value = state
  searched && inState

/-- The rows of one page. -/
def selected (collation : Collation) (db : Db) (query : OffersQuery) : List OfferRow :=
  let rows := (db.mappings.rows.filterMap (joined db)).filter (query.keeps collation)
  let rows := rows.insertionSort fun a b =>
    collation.before a.item.supplierProduct.name b.item.supplierProduct.name = true
  (rows.drop query.offset).take query.count

variable {W : Type} (sync : OfferSync W) (source : Pricing.Source W)

/-- `Pricer.compute` in a session. -/
def compute (item : Item) : Prog Exn (Session W) PriceBreakdown :=
  Prog.ofState fun t =>
    let (result, rates) :=
      (Pricing.compute source item.supplierProduct item.mapping item.storeProduct).exec
        ⟨t.db.fxRates, t.world⟩
    (result, { t with db := { t.db with fxRates := rates.fxRates }, world := rates.world })

/-- A missing FX rate must not blank the whole screen. -/
def computedPrice (item : Item) : Prog Exn (Session W) (Option ℚ) :=
  tryCatch ((fun breakdown => some (float breakdown.finalPrice)) <$> compute source item) fun
    | .pricing _ => pure none
    | e => throw e

/-- `abs(computed - pushed) > 0.001`, of prices that are there. -/
def pricePending (computed pushed : Option ℚ) : Bool :=
  match computed, pushed with
  | some computed, some pushed => decide (float (1 / 1000) < |float (computed - pushed)|)
  | _, _ => false

/-- The price last sent; one of zero is not told from none. -/
def pushedPrice (offer : Option StoreOffer) : Option ℚ :=
  ((offer.bind StoreOffer.pushedPrice).filter (· ≠ 0)).map float

/-- The body of the loop of `list_offers`. -/
def offerOut (row : OfferRow) : Prog Exn (Session W) OfferOut := do
  let computed ← computedPrice source row.item
  let t ← get
  let mapping := row.item.mapping
  let product := row.item.storeProduct.productExtId
  let pushed := pushedPrice row.offer
  pure {
    mappingId := mapping.id
    offerExtId := row.offer.bind StoreOffer.offerExtId
    storeProductExtId := product
    supplierName := row.item.supplierProduct.name
    storeName := row.item.storeProduct.name
    state := (row.offer.map fun offer => offer.state.value).getD "pending"
    syncEnabled := mapping.syncEnabled
    stock := row.item.supplierProduct.stock
    supplierPrice := float row.item.supplierProduct.priceSupplier
    supplierCurrency := row.item.supplierProduct.supplierCurrency
    markupPercent := mapping.markupPercentOverride.getD source.settings.defaultMarkupPercent
    markupIsOverride := mapping.markupPercentOverride.isSome
    fixedPriceOverride := mapping.fixedPriceOverride.map float
    computedPrice := computed
    pushedPrice := pushed
    pushedInventory := row.offer.bind StoreOffer.pushedInventory
    pricePending := pricePending computed pushed
    priceChangesThisHour := PriceChangeLog.countSince "g2a" product
      (source.now t.world - hour) t.db.priceChangeLog
    priceBudget := source.settings.effectivePriceChangeBudget
    lastPushedAt := row.offer.bind StoreOffer.lastPushedAt
    lastError := row.offer.bind StoreOffer.lastError }

def offersOut : List OfferRow → Prog Exn (Session W) (List OfferOut)
  | [] => pure []
  | row :: rest => do
    let out ← offerOut source row
    let outs ← offersOut rest
    pure (out :: outs)

/-- Every mapped product with its full price breakdown. -/
def listOffers (collation : Collation) (query : OffersQuery) :
    Prog Exn (Session W) (List OfferOut) := do
  let t ← get
  offersOut source (selected collation t.db query)

/-- What the pricer reads of a store product that is not there: no limits. -/
def unlimited (mapping : ProductMapping) : StoreProduct where
  id := 0
  storeCode := mapping.storeCode
  productExtId := ""
  name := []
  nameNormalized := []
  matchKey := []
  region := none
  platform := none
  priceLimitMin := none
  priceLimitMax := none

/-- The preview, of the mapping as it was just written. -/
def preview (item : Item) : Prog Exn (Session W) (Except String PricePreview) :=
  tryCatch ((fun breakdown => .ok {
      supplierPrice := float breakdown.supplierPrice
      fxRate := float breakdown.fxRate
      markupPercent := float breakdown.markupPercent
      newPrice := float breakdown.finalPrice
      clamped := breakdown.clamped
      floored := breakdown.floored
      reason := breakdown.reason }) <$> compute source item) fun
    | .pricing error => pure (.error error.message)
    | e => throw e

/-- The mapping with its change flushed, and its products. -/
def changePricing (mappingId : ℕ) (missing : Exn) (change : ProductMapping → ProductMapping) :
    Prog Exn (Session W) Item := do
  let t ← get
  match t.db.mappings.table.find? mappingId with
  | none => throw missing
  | some mapping =>
    let mapping := change mapping
    match t.db.writeMapping mapping with
    | .error e => throw (.database e)
    | .ok db =>
      modify fun t => { t with db := db }
      sync.flushSession
      match db.supplierProducts.find? mapping.supplierProductId with
      | none => throw (.other "AttributeError: 'NoneType' object has no attribute 'price_supplier'")
      | some supplierProduct =>
        let storeProduct :=
          (mapping.storeProductId.bind db.storeProducts.find?).getD (unlimited mapping)
        pure ⟨mapping, supplierProduct, storeProduct⟩

/-- Change what one product sells for; nothing is sent here. -/
def setPricing (mappingId : ℕ) (body : PricingIn) : Prog Exn (Session W) PricingOut := do
  let item ← changePricing sync mappingId (.other "404: mapping not found") (·.setPricing body)
  let preview ← preview source item
  pure {
    mappingId := item.mapping.id
    syncEnabled := item.mapping.syncEnabled
    markupPercentOverride := item.mapping.markupPercentOverride
    fixedPriceOverride := item.mapping.fixedPriceOverride.map float
    preview := preview }

/-- `map price`; a pricing error takes the change back with it. -/
def mapPrice (mappingId : ℕ) (options : PriceOptions) : Prog Exn (Session W) PricedOut := do
  let item ← changePricing sync mappingId (.other "Exit: 1") (·.priceBy options)
  let breakdown ← compute source item
  pure {
    mappingId := item.mapping.id
    product := item.supplierProduct.name
    syncEnabled := item.mapping.syncEnabled
    cost := float breakdown.supplierPrice
    fxRate := float breakdown.fxRate
    markupPercent := float breakdown.markupPercent
    newPrice := float breakdown.finalPrice }

/-! ## Sessions of the API -/

/-- A session that computes prices. -/
inductive PricingCall
  | listOffers (collation : Collation) (query : OffersQuery)
  | setPricing (mappingId : ℕ) (body : PricingIn)
  | mapPrice (mappingId : ℕ) (options : PriceOptions)

def PricingCall.body : PricingCall → Prog Exn (Session W) Unit
  | .listOffers collation query => (fun _ => ()) <$> AdminApi.listOffers source collation query
  | .setPricing mappingId body => (fun _ => ()) <$> AdminApi.setPricing sync source mappingId body
  | .mapPrice mappingId options => (fun _ => ()) <$> AdminApi.mapPrice sync source mappingId options

section Sessions

open OfferSync Prog

variable {W : Type} {sync : OfferSync W} {source : Pricing.Source W} {t u : Session W}

theorem compute_cases {item : Item} {r : Except Exn PriceBreakdown}
    (run : (compute source item).Runs t r u) :
    ∃ rates, (Pricing.compute source item.supplierProduct item.mapping item.storeProduct).Runs
        t.rates r rates ∧
      u = { t with db := { t.db with fxRates := rates.fxRates }, world := rates.world } := by
  change (((Pricing.compute source item.supplierProduct item.mapping item.storeProduct).exec
      t.rates).1, ({ t with
    db := { t.db with fxRates :=
      ((Pricing.compute source item.supplierProduct item.mapping item.storeProduct).exec
        t.rates).2.fxRates }
    world := ((Pricing.compute source item.supplierProduct item.mapping item.storeProduct).exec
      t.rates).2.world } : Session W)) = (r, u) at run
  cases run
  exact ⟨_, runs_exec .., rfl⟩

/-- The pricer of the offer sync uses the world as the API does. -/
theorem quiet_compute (priced : sync.pricer = source.pricer) {item : Item}
    {r : Except Exn PriceBreakdown} (run : (compute source item).Runs t r u) :
    sync.Quiet t u := by
  obtain ⟨rates, ran, rfl⟩ := compute_cases run
  have used : Uses sync t.world rates.world := by
    have uses : Uses sync t.rates.world _ :=
      Uses.pricer item.supplierProduct item.mapping item.storeProduct t.rates
    have final : ((source.pricer item.supplierProduct item.mapping item.storeProduct).exec
        t.rates).2 = rates := congrArg Prod.snd (runs_map.mpr ⟨r, ran, rfl⟩)
    rw [priced, final] at uses
    exact uses
  exact ⟨rfl, rfl, rfl, rfl, rfl, rfl, fun _ => le_rfl, .single used⟩

/-- A price that is caught if it cannot be computed. -/
theorem quiet_caught (priced : sync.pricer = source.pricer) {α : Type} {item : Item}
    {f : PriceBreakdown → α} {g : PricingError → α} {r : Except Exn α}
    (run : (tryCatch (f <$> compute source item) fun
      | .pricing error => pure (g error)
      | e => throw e : Prog Exn (Session W) α).Runs t r u) : sync.Quiet t u := by
  rcases runs_tryCatch.mp run with ⟨shown, computed, -⟩ | ⟨e, m, computed, handled⟩
  · obtain ⟨q, computed, -⟩ := runs_map.mp computed
    exact quiet_compute priced computed
  · obtain ⟨q, computed, -⟩ := runs_map.mp computed
    have done := quiet_compute priced computed
    cases e with
    | pricing error =>
        obtain ⟨-, rfl⟩ := runs_pure.mp handled
        exact done
    | api _ | database _ | other _ =>
        obtain ⟨-, rfl⟩ := runs_throw.mp handled
        exact done

theorem quiet_offersOut (priced : sync.pricer = source.pricer) {rows : List OfferRow}
    {r : Except Exn (List OfferOut)} (run : (offersOut source rows).Runs t r u) :
    sync.Quiet t u := by
  induction rows generalizing t r with
  | nil =>
      obtain ⟨-, rfl⟩ := runs_pure.mp run
      exact .refl _
  | cons row rest ih =>
      have shown : ∀ {q m}, (offerOut source row).Runs t q m → sync.Quiet t m := by
        intro q m shown
        rcases runs_bind.mp shown with ⟨price, n, computed, filled⟩ | ⟨e, computed, -⟩
        · rw [runs_get_bind] at filled
          obtain ⟨-, rfl⟩ := runs_pure.mp filled
          exact quiet_caught priced computed
        · exact quiet_caught priced computed
      rcases runs_bind.mp run with ⟨out, m, first, later⟩ | ⟨e, first, -⟩
      · rcases runs_bind.mp later with ⟨outs, n, others, done⟩ | ⟨e, others, -⟩
        · obtain ⟨-, rfl⟩ := runs_pure.mp done
          exact (shown first).trans (ih others)
        · exact (shown first).trans (ih others)
      · exact shown first

/-- One mapping is priced anew, or none. -/
inductive Reprices (t : Session W) : Session W → Prop
  | kept : Reprices t t
  | written {old new : ProductMapping} {mappings : ProductMappings}
      (found : t.db.mappings.table.find? new.id = some old)
      (target : new.storeProductId = old.storeProductId)
      (flushed : ProductMappings.flush (t.db.mappings.table.save new) = .ok mappings) :
      Reprices t { t with db := { t.db with mappings := mappings } }

theorem changePricing_spec {mappingId : ℕ} {missing : Exn} (change : ProductMapping → ProductMapping)
    (own : ∀ mapping, (change mapping).id = mapping.id)
    (target : ∀ mapping, (change mapping).storeProductId = mapping.storeProductId)
    {r : Except Exn Item} (run : (changePricing sync mappingId missing change).Runs t r u) :
    ∃ m, Reprices t m ∧ sync.Quiet m u := by
  unfold changePricing at run
  rw [runs_get_bind] at run
  cases found : t.db.mappings.table.find? mappingId with
  | none =>
      rw [found] at run
      obtain ⟨-, rfl⟩ := runs_throw.mp run
      exact ⟨_, .kept, .refl _⟩
  | some mapping =>
      simp only [found] at run
      cases written : t.db.writeMapping (change mapping) with
      | error e =>
          simp only [written] at run
          obtain ⟨-, rfl⟩ := runs_throw.mp run
          exact ⟨_, .kept, .refl _⟩
      | ok db =>
          simp only [written, runs_modify_bind] at run
          obtain ⟨mappings, flushed, rfl⟩ := Db.writeMapping_eq_ok written
          have there : t.db.mappings.table.find? (change mapping).id = some mapping := by
            rw [own, (Table.find?_eq_some_iff.mp found).2, found]
          refine ⟨_, .written there (target mapping) flushed, ?_⟩
          · rcases runs_bind.mp run with ⟨⟨⟩, m, wrote, rest⟩ | ⟨e, wrote, -⟩
            · have quiet := (quiet_flushSession wrote).1
              split at rest
              · obtain ⟨-, rfl⟩ := runs_throw.mp rest
                exact quiet
              · obtain ⟨-, rfl⟩ := runs_pure.mp rest
                exact quiet
            · exact (quiet_flushSession wrote).1

/-- A session that computes prices does nothing else, but that it may change the pricing of a
mapping. -/
theorem PricingCall.spec (priced : sync.pricer = source.pricer) (call : PricingCall)
    {r : Except Exn Unit} (run : (call.body sync source).Runs t r u) :
    ∃ m, Reprices t m ∧ sync.Quiet m u := by
  cases call with
  | listOffers collation query =>
      obtain ⟨q, ran, -⟩ := runs_map.mp run
      exact ⟨t, .kept, quiet_offersOut priced (runs_get_bind.mp ran)⟩
  | setPricing mappingId body =>
      obtain ⟨q, ran, -⟩ := runs_map.mp run
      unfold AdminApi.setPricing at ran
      rcases runs_bind.mp ran with ⟨item, m, first, rest⟩ | ⟨e, first, -⟩
      · obtain ⟨n, reprices, quiet⟩ := changePricing_spec (·.setPricing body) (fun _ => rfl)
          (fun _ => rfl) first
        rcases runs_bind.mp rest with ⟨shown, k, previewed, done⟩ | ⟨e, previewed, -⟩
        · obtain ⟨-, rfl⟩ := runs_pure.mp done
          exact ⟨n, reprices, quiet.trans (quiet_caught priced previewed)⟩
        · exact ⟨n, reprices, quiet.trans (quiet_caught priced previewed)⟩
      · exact changePricing_spec (·.setPricing body) (fun _ => rfl) (fun _ => rfl) first
  | mapPrice mappingId options =>
      obtain ⟨q, ran, -⟩ := runs_map.mp run
      unfold AdminApi.mapPrice at ran
      rcases runs_bind.mp ran with ⟨item, m, first, rest⟩ | ⟨e, first, -⟩
      · obtain ⟨n, reprices, quiet⟩ := changePricing_spec (·.priceBy options) (fun _ => rfl)
          (fun _ => rfl) first
        rcases runs_bind.mp rest with ⟨breakdown, k, computed, done⟩ | ⟨e, computed, -⟩
        · obtain ⟨-, rfl⟩ := runs_pure.mp done
          exact ⟨n, reprices, quiet.trans (quiet_compute priced computed)⟩
        · exact ⟨n, reprices, quiet.trans (quiet_compute priced computed)⟩
      · exact changePricing_spec (·.priceBy options) (fun _ => rfl) (fun _ => rfl) first

/-- The list of the offers changes no mapping. -/
theorem PricingCall.quiet (priced : sync.pricer = source.pricer) {collation : Collation}
    {query : OffersQuery} {r : Except Exn Unit}
    (run : ((PricingCall.listOffers collation query).body sync source).Runs t r u) :
    sync.Quiet t u := by
  obtain ⟨q, ran, -⟩ := runs_map.mp run
  exact quiet_offersOut priced (runs_get_bind.mp ran)

/-- What quiet steps and a change of pricing keep, such a session keeps. -/
theorem PricingCall.preserves (priced : sync.pricer = source.pricer) {P : Session W → Prop}
    (keeps : sync.Keeps P P) (reprices : ∀ {t m}, Reprices t m → P t → P m) (call : PricingCall) :
    Preserves P (call.body sync source) := by
  intro t r u ran start
  obtain ⟨m, changed, quiet⟩ := call.spec priced ran
  exact keeps.quiet quiet (reprices changed start)

end Sessions

end AdminApi

end FazerBridge
