import FazerBridge.CatalogSync
import FazerBridge.Pricing

/-!
# Pushing offers to the store

`app/services/offer_sync.py`, with `PriceChangeBudget` of `app/http/ratelimit.py`,
`SyncRunRecorder` of `app/services/catalog_sync.py` and `session_scope` of
`app/db.py`.

Everything about one offer is a program over `RowState`: the row, the price
change log and the world.  A run goes through the mappings in the store, opens
each one's row (`onRow`) and keeps its statistics.  Nothing is committed before
`sessionScope` sees the end of the run; an exception puts the database back and
leaves the world and the calls made.
-/

namespace FazerBridge

/-- What an `OfferSync` works with. -/
structure OfferSync (W : Type) where
  adapter : Adapter W
  settings : Settings
  /-- `pricer.compute(...).final_price`; it may refresh the cached FX rates -/
  pricer : SupplierProduct → ProductMapping → StoreProduct → Prog Exn (Pricing.Rates W) ℚ
  now : W → Time
  /-- the database's answer to a flush or commit whose constraints hold -/
  database : W → Option DbError × W

structure DesiredOffer where
  price : ℚ
  inventory : ℤ
  active : Bool
  deriving DecidableEq, Repr

/-! ## `PriceChangeBudget` -/

/-- Logged price changes of a product since `since`. -/
def PriceChangeLog.countSince (storeCode productExtId : String) (since : Time)
    (log : List PriceChangeLog) : ℕ :=
  log.countP fun row =>
    row.storeCode = storeCode ∧ row.productExtId = productExtId ∧ since ≤ row.changedAt

namespace OfferSync

variable {W : Type}

/-- One offer being processed. -/
structure RowState (W : Type) where
  offer : StoreOffer
  /-- the offer ids that other rows of the store hold -/
  others : List String
  /-- the product the mapping points to -/
  target : String
  log : List PriceChangeLog
  world : W
  trace : List Entry

/-- What an answer of the store does to the row's record of it. -/
def RowState.set (s : RowState W) (offer : StoreOffer) : RowState W := { s with offer := offer }

/-- Change the row; nothing is written before the next flush. -/
def edit (f : StoreOffer → StoreOffer) : Prog Exn (RowState W) Unit :=
  modify fun s => s.set (f s.offer)

/-- `except ApiError`: hand the error on as a value. -/
def attempt {σ α : Type} (x : Prog Exn σ α) : Prog Exn σ (Except ApiError α) :=
  tryCatch (Except.ok <$> x) fun
    | .api e => pure (.error e)
    | e => throw e

variable (sync : OfferSync W)

def limit : ℤ := sync.settings.effectivePriceChangeBudget

/-- `PriceChangeBudget.used` -/
def used (s : RowState W) : ℕ :=
  PriceChangeLog.countSince sync.adapter.code s.offer.productExtId (sync.now s.world - hour) s.log

/-- `PriceChangeBudget.allows` -/
def allows (s : RowState W) : Bool := decide ((sync.used s : ℤ) < sync.limit)

/-- One call of the adapter. -/
def request {α : Type} (phase : Phase) (call : Except Exn α → Call)
    (act : W → Except Exn α × W) : Prog Exn (RowState W) α :=
  Prog.ofState fun s =>
    let (answer, world) := act s.world
    (answer, { s with
      world := world
      trace := ⟨phase, s.offer, s.target, sync.now s.world, call answer⟩ :: s.trace })

/-- Write the row: another row of the store may hold its offer id. -/
def flush : Prog Exn (RowState W) Unit :=
  Prog.ofState fun s =>
    let (fault, world) := sync.database s.world
    match fault with
    | some e => (.error (.database e), { s with world := world })
    | none =>
      if s.offer.offerExtId.any (· ∈ s.others) then
        (.error (.database .integrityError), { s with world := world })
      else (.ok (), { s with world := world })

/-- `PriceChangeBudget.record`; the row carries the time of its call. -/
def record (newPrice : ℚ) (oldPrice : Option ℚ) (calledAt : Time) :
    Prog Exn (RowState W) Unit := do
  modify fun s => { s with
    log := s.log ++ [{
      storeCode := sync.adapter.code
      productExtId := s.offer.productExtId
      offerExtId := s.offer.offerExtId
      oldPrice := oldPrice
      newPrice := newPrice
      changedAt := calledAt }] }
  sync.flush

/-! ## One offer -/

/-- The row of an offer whose job the store rejected. -/
def rejected (job : JobResult) (offer : StoreOffer) : StoreOffer :=
  { offer with
    lastError := some job.failure
    state := .failed
    pushedPrice := none
    pushedInventory := none
    pushedActive := none }

/-- The last part of `_resolve_offer_id`: ask the store which offers exist on the
product. -/
def findRemote (phase : Phase) : Prog Exn (RowState W) Bool := do
  let s ← get
  let remote ← sync.request phase (.offersForProduct s.offer.productExtId)
    (sync.adapter.offersForProduct s.offer.productExtId)
  match remote with
  | [] => pure false
  | view :: _ =>
    edit fun offer => { offer with offerExtId := some view.offerExtId }
    sync.flush
    pure true

/-- Find the id of an offer we created but never got an id back for. -/
def resolveOfferId (phase : Phase) : Prog Exn (RowState W) Bool := do
  let s ← get
  match truthyId s.offer.pendingJobId with
  | none => sync.findRemote phase
  | some jobId =>
    let answer ← attempt (sync.request phase (.getJob jobId) (sync.adapter.getJob jobId))
    match answer with
    | .error _ => pure false
    | .ok job =>
      if job.isFinished then do
        edit fun offer => { offer with pendingJobId := none }
        if job.succeeded then
          match truthyId job.resourceId with
          | some offerExtId => do
            edit fun offer => { offer with offerExtId := some offerExtId }
            sync.flush
            pure true
          | none => sync.findRemote phase
        else do
          edit (rejected job)
          sync.flush
          pure false
      else pure false

/-- The row after a push the store accepted. -/
def remembered (desired : DesiredOffer) (now : Time) (keepPrice : Bool) (offer : StoreOffer) :
    StoreOffer :=
  { offer with
    pushedPrice := if keepPrice then offer.pushedPrice else some desired.price
    pushedInventory := some desired.inventory
    pushedActive := some desired.active
    active := desired.active
    lastPushedAt := some now
    lastError := none
    consecutiveFailures := 0 }

/-- `_remember` -/
def remember (desired : DesiredOffer) (now : Time) (keepPrice : Bool) :
    Prog Exn (RowState W) Unit := do
  edit (remembered desired now keepPrice)
  sync.flush

def liveState (desired : DesiredOffer) : OfferState := if desired.active then .live else .outOfStock

/-- `_update` -/
def update (desired : DesiredOffer) (now : Time)
    (priceChanged stockChanged activeChanged : Bool) : Prog Exn (RowState W) StatKey := do
  let s ← get
  let sendPrice := priceChanged && sync.allows s
  let deferredPrice := priceChanged && !sync.allows s
  if !(sendPrice || stockChanged || activeChanged) then pure .deferredPriceBudget
  else do
    let offerExtId := s.offer.offerExtId.getD ""
    let price := if sendPrice then some desired.price else none
    let inventory := if stockChanged then some desired.inventory else none
    let active := if activeChanged then some desired.active else none
    let job ← sync.request .updating (.updateOffer offerExtId price inventory active)
      (sync.adapter.updateOffer offerExtId price inventory active)
    edit fun offer => { offer with
      pendingJobId := truthyId (some job.jobId)
      state := liveState desired }
    sync.remember desired now (!sendPrice)
    if sendPrice then sync.record desired.price s.offer.pushedPrice (sync.now s.world)
    pure (if deferredPrice then .deferredPriceBudget else .updated)

/-- The last part of `_create`: record what was pushed. -/
def recordCreate (desired : DesiredOffer) (now calledAt : Time) :
    Prog Exn (RowState W) StatKey := do
  edit fun offer => { offer with state := liveState desired }
  sync.remember desired now false
  sync.record desired.price none calledAt
  pure .created

/-- `_create` -/
def create (desired : DesiredOffer) (now : Time) : Prog Exn (RowState W) StatKey := do
  let s ← get
  let answer ← attempt (sync.request .creating
    (.createOffer s.offer.productExtId desired.price desired.inventory desired.active)
    (sync.adapter.createOffer s.offer.productExtId desired.price desired.inventory desired.active))
  match answer with
  | .error e =>
    if e.statusCode = some 409 then do
      -- The store already has an offer on this product: adopt it.
      edit fun offer => { offer with pendingJobId := none }
      let adopted ← sync.resolveOfferId .adopting
      if adopted then sync.update desired now true true true
      else throw (.api e)
    else throw (.api e)
  | .ok job =>
    edit fun offer => { offer with pendingJobId := truthyId (some job.jobId) }
    match truthyId job.resourceId with
    | some offerExtId =>
      edit fun offer => { offer with offerExtId := some offerExtId }
      sync.recordCreate desired now (sync.now s.world)
    | none =>
      if (truthyId (some job.jobId)).isSome then do
        let resolved ← sync.resolveOfferId .creating
        let t ← get
        -- The store rejected the offer: it is not recorded as pushed.
        if !resolved && t.offer.state = .failed then pure .errors
        else sync.recordCreate desired now (sync.now s.world)
      else sync.recordCreate desired now (sync.now s.world)

/-- The body of `_sync_one` that calls the store. -/
def push (desired : DesiredOffer) (now : Time)
    (priceChanged stockChanged activeChanged : Bool) : Prog Exn (RowState W) StatKey := do
  let s ← get
  let inFlight := s.offer.offerExtId.isNone && (truthyId s.offer.pendingJobId).isSome
  let known ← if inFlight then sync.resolveOfferId .resolving else pure true
  if known then do
    let t ← get
    if t.offer.offerExtId.isNone then sync.create desired now
    else sync.update desired now priceChanged stockChanged activeChanged
  else pure .awaitingJob

def truncated (n : ℕ) (text : String) : String := String.ofList (text.toList.take n)

/-- The row of an offer whose call failed. -/
def failedCall (e : ApiError) (offer : StoreOffer) : StoreOffer :=
  if e.kind = .rateLimitedError then { offer with lastError := some e.text }
  else
    { offer with
      lastError := some (truncated 2000 e.text)
      consecutiveFailures := offer.consecutiveFailures + 1
      state := if 5 ≤ offer.consecutiveFailures + 1 then .failed else offer.state }

/-- `_sync_one` -/
def syncOne (desired : DesiredOffer) (dryRun : Bool) (now : Time) :
    Prog Exn (RowState W) StatKey := do
  let s ← get
  let priceChanged := decide (s.offer.pushedPrice ≠ some desired.price)
  let stockChanged := decide (s.offer.pushedInventory ≠ some desired.inventory)
  let activeChanged := decide (s.offer.pushedActive ≠ some desired.active)
  if !(priceChanged || stockChanged || activeChanged) then pure .skippedUnchanged
  else if dryRun then
    pure (if s.offer.offerExtId.isNone then .wouldCreate else .wouldUpdate)
  else do
    let pushed ← attempt (sync.push desired now priceChanged stockChanged activeChanged)
    match pushed with
    | .ok action => pure action
    | .error e =>
      edit (failedCall e)
      sync.flush
      pure (if e.kind = .rateLimitedError then .deferredRateLimited else .errors)

/-- What `reconcile_jobs` counts a row as. -/
inductive Reconciled
  /-- the job could not be looked up -/
  | unknown
  | completed
  | failed
  | pending
  deriving DecidableEq, Repr

/-- The body of the loop of `reconcile_jobs`. -/
def reconcileOne (jobId : String) : Prog Exn (RowState W) Reconciled := do
  let answer ← attempt (sync.request .reconciling (.getJob jobId) (sync.adapter.getJob jobId))
  match answer with
  | .error _ => pure .unknown
  | .ok job =>
    if job.isFinished then
      if job.succeeded then do
        edit fun offer => { offer with
          pendingJobId := none
          offerExtId :=
            if (truthyId job.resourceId).isSome && (truthyId offer.offerExtId).isNone then
              job.resourceId
            else offer.offerExtId
          lastError := none }
        pure .completed
      else do
        -- The push did not land, so forget what we thought we sent.
        edit fun offer =>
          { rejected job offer with
            pendingJobId := none
            consecutiveFailures := offer.consecutiveFailures + 1 }
        pure .failed
    else pure .pending

/-! ## A session -/

/-- A session in progress: its view of the database, the world, the calls made,
the statistics of the run. -/
structure Session (W : Type) where
  db : Db
  world : W
  trace : List Entry
  stats : Stats

/-- Two offers that `UNIQUE(store_code, offer_ext_id)` forbids. -/
def SameOffer (a b : StoreOffer) : Prop :=
  a.storeCode = b.storeCode ∧ a.offerExtId = b.offerExtId ∧ a.offerExtId ≠ none

instance (a b : StoreOffer) : Decidable (SameOffer a b) := inferInstanceAs (Decidable (_ ∧ _ ∧ _))

/-- Flush, or commit, the session. -/
def flushSession : Prog Exn (Session W) Unit :=
  Prog.ofState fun t =>
    let (fault, world) := sync.database t.world
    match fault with
    | some e => (.error (.database e), { t with world := world })
    | none =>
      if t.db.offers.rows.Pairwise fun a b => ¬ SameOffer a b then
        (.ok (), { t with world := world })
      else (.error (.database .integrityError), { t with world := world })

def bump (key : StatKey) : Prog Exn (Session W) Unit :=
  modify fun t => { t with stats := t.stats.bump key 1 }

/-- The offer ids that rows of the store other than that of `mappingId` hold. -/
def otherOffers (db : Db) (offer : StoreOffer) : List String :=
  (db.offers.rows.filter fun o =>
    o.mappingId ≠ offer.mappingId ∧ o.storeCode = offer.storeCode).filterMap StoreOffer.offerExtId

/-- The row opened in a session. -/
def openRow (t : Session W) (offer : StoreOffer) (target : String) : RowState W where
  offer := offer
  others := otherOffers t.db offer
  target := target
  log := t.db.priceChangeLog
  world := t.world
  trace := t.trace

/-- The session with a processed row put back. -/
def closeRow (t : Session W) (s : RowState W) : Session W :=
  { t with
    db := { t.db with offers := t.db.offers.save s.offer, priceChangeLog := s.log }
    world := s.world
    trace := s.trace }

/-- Run a program about one offer in a session. -/
def onRow {α : Type} (offer : StoreOffer) (target : String) (x : Prog Exn (RowState W) α) :
    Prog Exn (Session W) α :=
  Prog.ofState fun t =>
    let (result, s) := x.exec (openRow t offer target)
    (result, closeRow t s)

/-- A mapping with the products on both its sides. -/
structure Item where
  mapping : ProductMapping
  supplierProduct : SupplierProduct
  storeProduct : StoreProduct

def syncableStatuses : List MappingStatus := [.auto, .approved]

/-- The item of a mapping that is to be kept in sync. -/
def itemOf (db : Db) (mapping : ProductMapping) : Option Item := do
  let supplierProduct ← db.supplierProducts.find? mapping.supplierProductId
  let storeProduct ← mapping.storeProductId.bind db.storeProducts.find?
  if mapping.storeCode = sync.adapter.code ∧ mapping.status ∈ syncableStatuses ∧
      mapping.syncEnabled = true ∧ supplierProduct.isActive = true then
    some ⟨mapping, supplierProduct, storeProduct⟩
  else none

/-- `_syncable` -/
def syncable (db : Db) (count : Option ℕ) : List Item :=
  let items := db.mappings.rows.filterMap (sync.itemOf db)
  match count with
  | some (n + 1) => items.take (n + 1)
  | _ => items

/-- What the store should show at a price. -/
def desiredAt (price : ℚ) (supplierProduct : SupplierProduct) : DesiredOffer :=
  let stock : ℤ := supplierProduct.stock
  -- Never advertise more than the supplier will actually sell us in one go.
  let stock := if supplierProduct.maxOrderQuantity ≠ 0 then
    min stock (supplierProduct.maxOrderQuantity * 50) else stock
  { price := price, inventory := stock, active := decide (0 < stock) }

/-- `_desired` -/
def desired (item : Item) : Prog Exn (Session W) DesiredOffer := do
  let price ← Prog.ofState fun (t : Session W) =>
    let (result, rates) := (sync.pricer item.supplierProduct item.mapping item.storeProduct).exec
      ⟨t.db.fxRates, t.world⟩
    (result, { t with db := { t.db with fxRates := rates.fxRates }, world := rates.world })
  pure (desiredAt price item.supplierProduct)

/-- A row before its first push. -/
def newOffer (mapping : ProductMapping) (storeProduct : StoreProduct) : StoreOffer where
  mappingId := mapping.id
  storeCode := sync.adapter.code
  offerExtId := none
  productExtId := storeProduct.productExtId
  state := .pending
  active := false
  pushedPrice := none
  pushedInventory := none
  pushedActive := none
  lastPushedAt := none
  pendingJobId := none
  lastError := none
  consecutiveFailures := 0

/-- `_offer_row` -/
def offerRow (mapping : ProductMapping) (storeProduct : StoreProduct) :
    Prog Exn (Session W) StoreOffer := do
  let t ← get
  match t.db.offers.find? mapping.id with
  | some offer => pure offer
  | none =>
    let offer := sync.newOffer mapping storeProduct
    modify fun t => { t with db := { t.db with offers := t.db.offers.save offer } }
    sync.flushSession
    pure offer

/-- The body of the loop of `run`. -/
def syncItem (dryRun : Bool) (now : Time) (item : Item) : Prog Exn (Session W) Unit := do
  bump .examined
  let desired ← tryCatch (sync.desired item) fun e => do
    -- Pricing is a whole-run problem, not a per-item one.
    match e with
    | .pricing _ => bump .errors
    | _ => pure ()
    throw e
  let offer ← sync.offerRow item.mapping item.storeProduct
  let action ← onRow offer item.storeProduct.productExtId (sync.syncOne desired dryRun now)
  bump action

def syncItems (dryRun : Bool) (now : Time) : List Item → Prog Exn (Session W) Unit
  | [] => pure ()
  | item :: rest => do
    sync.syncItem dryRun now item
    syncItems dryRun now rest

/-- `SyncRunRecorder.__exit__` -/
def closeRun (kind : String) (error : Option Exn) : Prog Exn (Session W) Unit := do
  modify fun t => { t with
    db := { t.db with
      syncRuns := t.db.syncRuns ++
        [SyncRun.close kind t.stats (error.map Exn.text) (sync.now t.world)] } }
  sync.flushSession

/-- `run` -/
def run (count : Option ℕ) (dryRun : Bool) : Prog Exn (Session W) Stats := do
  let t ← get
  let now := sync.now t.world
  let kind := "offers:" ++ sync.adapter.code
  sync.flushSession
  let items := sync.syncable t.db count
  tryCatch (do sync.syncItems dryRun now items; sync.flushSession) fun e => do
    sync.closeRun kind (some e)
    throw e
  sync.closeRun kind none
  let t ← get
  pure t.stats

/-- The rows `reconcile_jobs` looks at, with their jobs. -/
def withPendingJob (db : Db) (count : ℕ) : List (StoreOffer × String) :=
  (db.offers.rows.filterMap fun offer =>
    if offer.storeCode = sync.adapter.code then offer.pendingJobId.map (offer, ·) else none).take
    count

/-- The loop of `reconcile_jobs`; its rows are written by the flush after it. -/
def reconcileRows : List (StoreOffer × String) → Prog Exn (Session W) (List Reconciled)
  | [] => pure []
  | (offer, jobId) :: rest => do
    let outcome ← onRow offer offer.productExtId (sync.reconcileOne jobId)
    let outcomes ← reconcileRows rest
    pure (outcome :: outcomes)

/-- `reconcile_jobs` -/
def reconcileJobs (count : ℕ) : Prog Exn (Session W) (List Reconciled) := do
  let t ← get
  let outcomes ← sync.reconcileRows (sync.withPendingJob t.db count)
  sync.flushSession
  pure outcomes

/-- The row of a mapping that takes over an offer of the store. -/
def adoptedRow (remote : StoreOfferView) (offer : StoreOffer) : StoreOffer :=
  { offer with
    offerExtId := some remote.offerExtId
    pushedPrice := remote.price
    pushedInventory := some remote.inventorySize
    pushedActive := some remote.isActive
    active := remote.isActive
    state := if remote.isActive then .live else .outOfStock }

/-- The offer the store lists last on a product. -/
def listedOn (remotes : List StoreOfferView) (productExtId : String) : Option StoreOfferView :=
  remotes.reverse.find? fun remote => remote.productExtId = productExtId

/-- The loop of `adopt_existing_offers`. -/
def adoptItems (remotes : List StoreOfferView) : List Item → Prog Exn (Session W) ℕ
  | [] => pure 0
  | item :: rest =>
    match listedOn remotes item.storeProduct.productExtId with
    | none => adoptItems remotes rest
    | some remote => do
      let offer ← sync.offerRow item.mapping item.storeProduct
      if offer.offerExtId = some remote.offerExtId then adoptItems remotes rest
      else do
        modify fun t => { t with
          db := { t.db with offers := t.db.offers.save (adoptedRow remote offer) } }
        let adopted ← adoptItems remotes rest
        pure (adopted + 1)

/-- The counters `adopt_existing_offers` returns. -/
structure Adoption where
  seen : ℕ
  adopted : ℕ
  unknown : ℕ
  deriving DecidableEq, Repr

/-- `adopt_existing_offers` -/
def adoptExistingOffers : Prog Exn (Session W) Adoption := do
  let remotes ← Prog.ofState fun (t : Session W) =>
    let (answer, world) := sync.adapter.listOffers t.world
    (answer, { t with world := world })
  let products := (remotes.map StoreOfferView.productExtId).dedup
  let t ← get
  let adopted ← sync.adoptItems remotes (sync.syncable t.db none)
  sync.flushSession
  let t ← get
  let mapped := (sync.syncable t.db none).map fun item => item.storeProduct.productExtId
  sync.flushSession
  pure ⟨products.length, adopted, (products.filter (· ∉ mapped)).length⟩

/-! ## `session_scope` -/

/-- What a session leaves: how it ended, the committed database, the world, and
the calls made, the latest first. -/
structure Left (W α : Type) where
  result : Except Exn α
  db : Db
  world : W
  trace : List Entry

/-- Commit on success, roll back on any exception. -/
def sessionScope {α : Type} (body : Prog Exn (Session W) α) (db : Db) (world : W)
    (trace : List Entry) : Left W α :=
  match (do let a ← body; sync.flushSession; pure a : Prog Exn (Session W) α).exec
      ⟨db, world, trace, []⟩ with
  | (.ok a, t) => ⟨.ok a, t.db, t.world, t.trace⟩
  | (.error e, t) => ⟨.error e, db, t.world, t.trace⟩

end OfferSync

end FazerBridge
