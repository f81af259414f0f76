import FazerBridge.AdminApi

/-!
# The whole service

The jobs of the worker, the decisions of a reviewer and the changes of a price as steps on one
state: the committed database, the world outside it, and the calls made so far.  Every step
is one session, so an exception leaves the database as it was.  Between two
sessions the world may move by itself, as `moves` says.

A session only writes the tables of its owner (`Owner.Same`).
-/

namespace FazerBridge

/-- The services a worker runs. -/
structure Service (W : Type) where
  engine : MatchingEngine
  supplierCatalog : SupplierCatalogSync
  offers : OfferSync W

/-- The committed database, the world outside it, and the calls made, the latest
first. -/
structure Bridge (W : Type) where
  db : Db
  world : W
  trace : List Entry

inductive Action
  | pullSupplier (now : Time) (items : List SupplierItem)
  | matchProducts (onlyUnmapped : Bool) (count : Option ℕ)
  | approve (mappingId : ℕ) (storeProductId : Option ℕ) (reviewedBy : String)
      (note : Option String)
  | reject (mappingId : ℕ) (reviewedBy : String) (note : Option String)
  | adopt
  | syncOffers (count : Option ℕ) (dryRun : Bool)
  | reconcile (count : ℕ)
  | price (call : AdminApi.PricingCall)
  /-- no session: the world moves -/
  | elapse

namespace Bridge

variable {W : Type} (bridge : Bridge W)

/-- The end of a session that only touched the database. -/
def committed {ε α : Type} (result : Except ε α) (db : α → Db) : Bridge W :=
  match result with
  | .ok a => { bridge with db := db a }
  | .error _ => bridge

/-- The end of a session of the offer sync. -/
def left {α : Type} (left : OfferSync.Left W α) : Bridge W := ⟨left.db, left.world, left.trace⟩

end Bridge

namespace Service

variable {W : Type} (service : Service W)

/-- A run of the offer sync, in its session. -/
def syncSession (bridge : Bridge W) (count : Option ℕ) (dryRun : Bool) : OfferSync.Left W Stats :=
  service.offers.sessionScope (service.offers.run count dryRun) bridge.db bridge.world bridge.trace

def reconcileSession (bridge : Bridge W) (count : ℕ) :
    OfferSync.Left W (List OfferSync.Reconciled) :=
  service.offers.sessionScope (service.offers.reconcileJobs count) bridge.db bridge.world
    bridge.trace

def adoptSession (bridge : Bridge W) : OfferSync.Left W OfferSync.Adoption :=
  service.offers.sessionScope service.offers.adoptExistingOffers bridge.db bridge.world bridge.trace

/-- A session of the admin API that computes prices, from such rates. -/
def pricingSession (source : Pricing.Source W) (bridge : Bridge W) (call : AdminApi.PricingCall) :
    OfferSync.Left W Unit :=
  service.offers.sessionScope (call.body service.offers source) bridge.db bridge.world bridge.trace

/-- One session, or one move of the world. -/
inductive Step (moves : W → W → Prop) (bridge : Bridge W) : Action → Bridge W → Prop
  | pullSupplier {now items} : Step moves bridge (.pullSupplier now items)
      { bridge with db := (service.supplierCatalog.run bridge.db now items).1 }
  | matchProducts {onlyUnmapped count} : Step moves bridge (.matchProducts onlyUnmapped count)
      (bridge.committed (service.engine.run bridge.db onlyUnmapped count) Prod.fst)
  | approve {mappingId storeProductId reviewedBy note} :
      Step moves bridge (.approve mappingId storeProductId reviewedBy note)
        (bridge.committed (approve bridge.db mappingId storeProductId reviewedBy note) id)
  | reject {mappingId reviewedBy note} : Step moves bridge (.reject mappingId reviewedBy note)
      (bridge.committed (reject bridge.db mappingId reviewedBy note) id)
  | adopt : Step moves bridge .adopt (.left (service.adoptSession bridge))
  | syncOffers {count dryRun} : Step moves bridge (.syncOffers count dryRun)
      (.left (service.syncSession bridge count dryRun))
  | reconcile {count} : Step moves bridge (.reconcile count)
      (.left (service.reconcileSession bridge count))
  /-- with the prices of the offer sync -/
  | price {source call} (priced : service.offers.pricer = source.pricer) :
      Step moves bridge (.price call) (.left (service.pricingSession source bridge call))
  | elapse {w} (moved : moves bridge.world w) : Step moves bridge .elapse
      { bridge with world := w }

end Service

/-! ## Who writes what -/

/-- The writers of the tables. -/
inductive Owner
  | supplierPull
  | storeCrawl
  | matching
  | offerSync
  deriving DecidableEq, Repr

/-- The tables of an owner are as they were. -/
def Owner.Same (old new : Db) : Owner → Prop
  | .supplierPull => new.supplierProducts = old.supplierProducts
  | .storeCrawl => new.storeProducts = old.storeProducts
  | .matching => new.mappings = old.mappings
  | .offerSync => new.offers = old.offers ∧ new.priceChangeLog = old.priceChangeLog

theorem Owner.Same.refl (owner : Owner) (db : Db) : owner.Same db db := by
  cases owner with
  | supplierPull | storeCrawl | matching => rfl
  | offerSync => exact ⟨rfl, rfl⟩

theorem Owner.Same.trans {owner : Owner} {a b c : Db} (first : owner.Same a b)
    (second : owner.Same b c) : owner.Same a c := by
  cases owner with
  | supplierPull | storeCrawl | matching => exact Eq.trans second first
  | offerSync => exact ⟨second.1.trans first.1, second.2.trans first.2⟩

section Owners

variable {engine : MatchingEngine} {owner : Owner} {db : Db}

/-- Written mappings leave the tables of the others. -/
theorem withMappings_same (other : owner ≠ .matching) (db : Db) (mappings : ProductMappings) :
    owner.Same db { db with mappings := mappings } := by
  cases owner with
  | matching => exact absurd rfl other
  | supplierPull | storeCrawl => rfl
  | offerSync => exact ⟨rfl, rfl⟩

theorem matchAll_same (other : owner ≠ .matching) {products : List SupplierProduct}
    {progress final : MatchingEngine.Progress}
    (run : engine.matchAll products progress = .ok final) :
    owner.Same progress.db final.db := by
  induction products generalizing progress with
  | nil =>
      cases run
      exact .refl ..
  | cons s rest ih =>
      rw [MatchingEngine.matchAll] at run
      split at run
      · rename_i progress' matched
        refine Owner.Same.trans ?_ (ih run)
        obtain ⟨-, same, -⟩ | ⟨-, ⟨mappings, -, same⟩, -⟩ :=
          MatchingEngine.apply_cases (MatchingEngine.matchOne_cases matched)
        · rw [same]
          exact .refl ..
        · rw [same]
          exact withMappings_same other ..
      · cases run

/-- A matching only writes mappings. -/
theorem matches_same (other : owner ≠ .matching) {onlyUnmapped : Bool} {count : Option ℕ}
    {out : Db × MatchingEngine.Counters}
    (ran : engine.run db onlyUnmapped count = .ok out) : owner.Same db out.1 := by
  unfold MatchingEngine.run at ran
  split at ran
  · rename_i matched
    cases ran
    exact matchAll_same other matched
  · cases ran

theorem writeReview_same (other : owner ≠ .matching) {db' : Db} {mapping : ProductMapping}
    (wrote : writeReview db mapping = .ok db') : owner.Same db db' := by
  unfold writeReview at wrote
  split at wrote
  · rename_i written
    cases wrote
    obtain ⟨mappings, -, rfl⟩ := Db.writeMapping_eq_ok written
    exact withMappings_same other ..
  · cases wrote

/-- A review only writes its mapping. -/
theorem approve_same (other : owner ≠ .matching) {db' : Db} {mappingId : ℕ}
    {storeProductId : Option ℕ} {reviewedBy : String} {note : Option String}
    (approved : approve db mappingId storeProductId reviewedBy note = .ok db') :
    owner.Same db db' := by
  unfold approve at approved
  split at approved
  · cases approved
  · split at approved <;> split at approved
    · cases approved
    · exact writeReview_same other approved
    · cases approved
    · exact writeReview_same other approved

theorem reject_same (other : owner ≠ .matching) {db' : Db} {mappingId : ℕ} {reviewedBy : String}
    {note : Option String} (rejected : reject db mappingId reviewedBy note = .ok db') :
    owner.Same db db' := by
  unfold reject at rejected
  split at rejected
  · cases rejected
  · exact writeReview_same other rejected

end Owners

/-! ## Steps that leave the offers alone -/

namespace Service

variable {W : Type} {service : Service W}

/-- A step that is no session of the offer sync. -/
structure Apart (service : Service W) (moves : W → W → Prop) (bridge bridge' : Bridge W) : Prop where
  same : Owner.offerSync.Same bridge.db bridge'.db
  trace : bridge'.trace = bridge.trace
  world : Relation.ReflTransGen service.offers.Uses bridge.world bridge'.world ∨
    moves bridge.world bridge'.world

theorem committed_apart {moves : W → W → Prop} {bridge : Bridge W} {ε α : Type}
    {result : Except ε α} {db : α → Db}
    (same : ∀ a, result = .ok a → Owner.offerSync.Same bridge.db (db a)) :
    service.Apart moves bridge (bridge.committed result db) := by
  cases result with
  | ok a => exact ⟨same a rfl, rfl, .inl .refl⟩
  | error e => exact ⟨.refl .., rfl, .inl .refl⟩

/-- A session that computes prices: one mapping is priced anew or none, and the rest is quiet. -/
theorem pricingSession_cases {bridge : Bridge W} {source : Pricing.Source W}
    (priced : service.offers.pricer = source.pricer) (call : AdminApi.PricingCall) :
    let left := service.pricingSession source bridge call
    ∃ m v, AdminApi.Reprices ⟨bridge.db, bridge.world, bridge.trace, []⟩ m ∧
      service.offers.Quiet m v ∧ left.world = v.world ∧ left.trace = v.trace ∧
      (left.db = v.db ∨ left.db = bridge.db) := by
  obtain ⟨r, u, ran, ends⟩ := service.offers.sessionScope_spec (call.body service.offers source)
    bridge.db bridge.world bridge.trace
  obtain ⟨m, reprices, quiet⟩ := call.spec priced ran
  change service.offers.Ends bridge.db r u (service.pricingSession source bridge call) at ends
  generalize service.pricingSession source bridge call = left at ends
  cases ends with
  | committed returned last => exact ⟨m, _, reprices, quiet.trans last, rfl, rfl, .inl rfl⟩
  | rolledBack last => exact ⟨m, _, reprices, quiet.trans last, rfl, rfl, .inr rfl⟩

/-- Pricing sends nothing, and uses the world as the offer sync does. -/
theorem pricingSession_apart {moves : W → W → Prop} {bridge : Bridge W} {source : Pricing.Source W}
    (priced : service.offers.pricer = source.pricer) (call : AdminApi.PricingCall) :
    service.Apart moves bridge (.left (service.pricingSession source bridge call)) := by
  obtain ⟨m, v, reprices, quiet, world, trace, db⟩ := service.pricingSession_cases priced call
  have before : m.trace = bridge.trace ∧ m.world = bridge.world ∧
      Owner.offerSync.Same bridge.db m.db := by
    cases reprices with
    | kept | written => exact ⟨rfl, rfl, rfl, rfl⟩
  refine ⟨?_, trace.trans (quiet.trace.trans before.1), .inl ?_⟩
  · change Owner.offerSync.Same bridge.db (service.pricingSession source bridge call).db
    rcases db with committed | rolledBack
    · rw [committed]
      exact before.2.2.trans ⟨quiet.offers, quiet.log⟩
    · rw [rolledBack]
      exact .refl ..
  · change Relation.ReflTransGen _ bridge.world (service.pricingSession source bridge call).world
    rw [world, ← before.2.1]
    exact quiet.world

/-- A step is a session of the offer sync, or leaves the offers alone. -/
theorem Step.cases {moves : W → W → Prop} {bridge bridge' : Bridge W} {action : Action}
    (step : service.Step moves bridge action bridge') :
    (∃ count dryRun, action = .syncOffers count dryRun ∧
        bridge' = .left (service.syncSession bridge count dryRun)) ∨
      (∃ count, action = .reconcile count ∧
        bridge' = .left (service.reconcileSession bridge count)) ∨
      (action = .adopt ∧ bridge' = .left (service.adoptSession bridge)) ∨
      service.Apart moves bridge bridge' := by
  have other : Owner.offerSync ≠ .matching := by decide
  cases step with
  | syncOffers => exact Or.inl ⟨_, _, rfl, rfl⟩
  | reconcile => exact Or.inr (Or.inl ⟨_, rfl, rfl⟩)
  | adopt => exact Or.inr (Or.inr (Or.inl ⟨rfl, rfl⟩))
  | pullSupplier => exact Or.inr (Or.inr (Or.inr ⟨⟨rfl, rfl⟩, rfl, .inl .refl⟩))
  | elapse moved => exact Or.inr (Or.inr (Or.inr ⟨⟨rfl, rfl⟩, rfl, .inr moved⟩))
  | price priced => exact Or.inr (Or.inr (Or.inr (pricingSession_apart priced _)))
  | matchProducts =>
      exact Or.inr (Or.inr (Or.inr (committed_apart fun out ran => matches_same other ran)))
  | approve =>
      exact Or.inr (Or.inr (Or.inr (committed_apart fun db approved => approve_same other approved)))
  | reject =>
      exact Or.inr (Or.inr (Or.inr (committed_apart fun db rejected => reject_same other rejected)))

end Service

/-! ## A store that answers at once

Its offers and jobs bear the id of their product.  The world is the clock. -/

namespace EchoStore

def job (productExtId : String) (resourceId : Option String) : JobResult where
  jobId := productExtId
  status := "complete"
  resourceId := resourceId

def adapter : Adapter Time where
  code := "g2a"
  listOffers w := (.ok [], w)
  offersForProduct _ w := (.ok [], w)
  createOffer productExtId _ _ _ w := (.ok (job productExtId none), w)
  updateOffer offerExtId _ _ _ w := (.ok (job offerExtId none), w)
  getJob jobId w := (.ok (job jobId (some jobId)), w)

def settings : Settings := { Settings.default with fxRateUsdEur := some 1 }

/-- A pricer without an FX provider. -/
def pricing (settings : Settings) : Pricing.Source Time where
  settings := settings
  fetch w := (.error "timed out", w)
  now := id
  flush w := (none, w)

/-- A pricer with a pinned rate, in any world. -/
def pinned {W : Type} : Pricing.Source W where
  settings := settings
  fetch w := (.error "timed out", w)
  now _ := 0
  flush w := (none, w)

/-- It does not look at the world. -/
theorem world_pinned {W : Type} (product : SupplierProduct) (mapping : ProductMapping)
    (storeProduct : StoreProduct) (rates : Pricing.Rates W) :
    ((pinned.pricer product mapping storeProduct).exec rates).2.world = rates.world := by
  unfold Pricing.Source.pricer Pricing.compute
  cases mapping.fixedPriceOverride <;> rfl

/-- The offer sync on a database that never fails. -/
def offers (settings : Settings) (adapter : Adapter Time) : OfferSync Time where
  adapter := adapter
  settings := settings
  pricer supplierProduct mapping storeProduct :=
    PriceBreakdown.finalPrice <$>
      Pricing.compute (pricing settings) supplierProduct mapping storeProduct
  now := id
  database w := (none, w)

def service : Service Time where
  engine := sampleEngine
  supplierCatalog := ⟨settings, Unicode.ascii, "fazercards", fun item =>
    String.ofList item.name ++ toString item.stock⟩
  offers := offers settings adapter

def supplierProduct (id : ℕ) (price : ℚ) : SupplierProduct :=
  { SupplierCatalogSync.newRow id 1 (sampleItem id "") with
    priceSupplier := price
    stock := 5 }

/-- A store product with the least price the store takes for it. -/
def storeProduct (id : ℕ) (priceLimitMin : Option ℚ) : StoreProduct where
  id := id
  storeCode := "g2a"
  productExtId := toString id
  name := []
  nameNormalized := []
  matchKey := []
  region := none
  platform := none
  priceLimitMin := priceLimitMin
  priceLimitMax := none

def mapping (id : ℕ) : ProductMapping :=
  { sampleEngine.newMapping emptyDb (supplierProduct id 0) with
    id := id
    storeProductId := some id
    status := .auto }

/-- Two supplier products mapped to two of three store products; the third one
has a least price of 20. -/
def db : Db :=
  { emptyDb with
    supplierProducts := ⟨[supplierProduct 1 10, supplierProduct 2 10], by decide⟩
    storeProducts := ⟨⟨[storeProduct 1 none, storeProduct 2 none, storeProduct 3 (some 20)],
      by decide⟩, by decide⟩
    mappings := ⟨⟨[mapping 1, mapping 2], by decide⟩, by decide, by decide⟩ }

/-- Before the first run. -/
def start : Bridge Time := ⟨db, 0, []⟩

end EchoStore

end FazerBridge
