import FazerBridge.Models

/-!
# Pulling catalogues

`app/services/catalog_sync.py`: the recorder that closes out a `sync_runs` row,
the supplier pull into `supplier_products` and the store pull into
`store_products`.  Both pulls upsert on the natural key.

A pull is given the items its source yields.  The digest an item hashes to is a
field of the pull; only its equality is ever used.
-/

namespace FazerBridge

open Text

/-! ## The run recorder -/

/-- What `SyncRunRecorder` leaves in `sync_runs` for a body that ended with
`stats`, by an exception with text `error` if there is one. -/
def SyncRun.close (kind : String) (stats : Stats) (error : Option String)
    (finishedAt : Time) : SyncRun where
  kind := kind
  state :=
    match error with
    | some _ => .failed
    | none => if stats.get .errors = 0 then .success else .partialSuccess
  stats := stats
  error := error.map fun text => String.ofList (text.toList.take 4000)
  finishedAt := some finishedAt

/-! ## Supplier catalogue -/

/-- One buyable SKU, normalised across suppliers. -/
structure SupplierItem where
  kind : ProductKind
  categoryExtId : String
  offerExtId : String
  name : Text
  price : ℚ
  stock : ℤ
  currency : String := "USD"
  categoryName : Option Text := none
  region : Option Text := none
  platform : Option Text := none
  regionRestricted : Bool := false
  minOrderQuantity : ℤ := 1
  maxOrderQuantity : ℤ := 1
  deriving DecidableEq, Repr

/-- The natural key of a SKU within its supplier. -/
abbrev ItemKey := ProductKind × String × String

instance : LawfulBEq ItemKey := inferInstance

def SupplierItem.key (item : SupplierItem) : ItemKey :=
  (item.kind, item.categoryExtId, item.offerExtId)

def SupplierProduct.key (row : SupplierProduct) : ItemKey :=
  (row.kind, row.categoryExtId, row.offerExtId)

/-- `item.region or parts.region` -/
def orText (stated parsed : Option Text) : Option Text := (truthy stated).or parsed

/-- What a `SupplierCatalogSync` is built with. -/
structure SupplierCatalogSync where
  settings : Settings
  unicode : Unicode
  /-- `adapter.code` -/
  code : String
  /-- `SupplierItem.content_hash` -/
  contentHash : SupplierItem → String

namespace SupplierCatalogSync

variable (sync : SupplierCatalogSync)

/-- Copy an item into its row. -/
def apply (row : SupplierProduct) (item : SupplierItem) : SupplierProduct :=
  let parts := parseTitle sync.unicode item.name
  let minOrder := max 1 item.minOrderQuantity
  { row with
    categoryName := item.categoryName
    name := item.name
    nameNormalized := parts.core
    region := orText item.region parts.region
    platform := orText item.platform parts.platform
    regionRestricted := item.regionRestricted
    priceSupplier := item.price
    supplierCurrency := item.currency
    stock := (max 0 item.stock).toNat
    minOrderQuantity := minOrder
    maxOrderQuantity := max minOrder (if item.maxOrderQuantity = 0 then 1 else item.maxOrderQuantity)
    contentHash := sync.contentHash item }

/-- A row before its item is copied into it. -/
def newRow (id supplierId : ℕ) (item : SupplierItem) : SupplierProduct where
  id := id
  supplierId := supplierId
  kind := item.kind
  categoryExtId := item.categoryExtId
  offerExtId := item.offerExtId
  categoryName := none
  name := []
  nameNormalized := []
  region := none
  platform := none
  regionRestricted := false
  priceSupplier := 0
  supplierCurrency := "USD"
  stock := 0
  minOrderQuantity := 1
  maxOrderQuantity := 1
  contentHash := ""
  isActive := true
  missingRuns := 0

/-- A pull in progress. -/
structure Pull where
  rows : Table SupplierProduct.id
  seen : List ItemKey
  stats : Stats

def nextId (rows : List SupplierProduct) : ℕ := (rows.map SupplierProduct.id).foldr max 0 + 1

/-- One item of the feed; `existing` are the supplier's rows before the pull. -/
def upsert (supplierId : ℕ) (pull : Pull) (item : SupplierItem) : Pull :=
  if item.key ∈ pull.seen then
    { pull with stats := pull.stats.bump .duplicateInFeed 1 }
  else
    match pull.rows.rows.find? fun row => row.supplierId = supplierId ∧ row.key = item.key with
    | none =>
      let row := sync.apply (newRow (nextId pull.rows.rows) supplierId item) item
      -- A fresh row carries no flag before its flush, so it counts as switched back on.
      { rows := pull.rows.save row
        seen := item.key :: pull.seen
        stats := ((pull.stats.bump .created 1).bump .createdFields 1).bump .reactivated 1 }
    | some row =>
      let changed := row.contentHash ≠ sync.contentHash item
      let stats := pull.stats.bump (if changed then .updated else .unchanged) 1
      { rows := pull.rows.save
          { (if changed then sync.apply row item else row) with missingRuns := 0, isActive := true }
        seen := item.key :: pull.seen
        stats := if row.isActive then stats else stats.bump .reactivated 1 }

/-- A row of the supplier that the pull did not see. -/
def miss (row : SupplierProduct) : SupplierProduct :=
  let missingRuns := row.missingRuns + 1
  { row with
    missingRuns := missingRuns
    isActive := decide ((missingRuns : ℤ) < sync.settings.deactivateMissingAfterRuns) }

/-- Anything not in this pull. -/
def missUnseen (supplierId : ℕ) (existing : List SupplierProduct) (pull : Pull) : Pull :=
  existing.foldl
    (fun pull row =>
      if row.supplierId ≠ supplierId ∨ row.key ∈ pull.seen ∨ row.isActive = false then pull
      else
        { pull with
          rows := pull.rows.save (sync.miss row)
          stats := pull.stats.bump (if (sync.miss row).isActive then .missingGrace
            else .deactivated) 1 })
    pull

/-- The suppliers with the one of this pull, and its id. -/
def getOrCreateSupplier (suppliers : List Supplier) (code : String) : List Supplier × ℕ :=
  match suppliers.find? fun supplier => supplier.code = code with
  | some supplier => (suppliers, supplier.id)
  | none =>
    let id := (suppliers.map Supplier.id).foldr max 0 + 1
    (suppliers ++ [⟨id, code⟩], id)

def run (db : Db) (now : Time) (items : List SupplierItem) : Db × Stats :=
  let (suppliers, supplierId) := getOrCreateSupplier db.suppliers sync.code
  let pull := items.foldl (sync.upsert supplierId) ⟨db.supplierProducts, [], []⟩
  let pull := sync.missUnseen supplierId db.supplierProducts.rows pull
  let stats := pull.stats.bump .totalSeen pull.seen.length
  ({ db with
      suppliers := suppliers
      supplierProducts := pull.rows
      syncRuns := db.syncRuns ++ [SyncRun.close ("catalog:" ++ sync.code) stats none now] },
    stats)

end SupplierCatalogSync

/-! ## Store catalogue -/

/-- A product in the store's catalogue that we could attach an offer to. -/
structure StoreCatalogItem where
  productExtId : String
  name : Text
  region : Option Text := none
  platform : Option Text := none
  priceLimitMin : Option ℚ := none
  priceLimitMax : Option ℚ := none
  deriving DecidableEq, Repr

/-- What a `StoreCatalogSync` is built with. -/
structure StoreCatalogSync where
  unicode : Unicode
  /-- `adapter.code` -/
  storeCode : String

namespace StoreCatalogSync

variable (sync : StoreCatalogSync)

/-- The row of an item. -/
def apply (id : ℕ) (item : StoreCatalogItem) : StoreProduct :=
  let parts := parseTitle sync.unicode item.name
  { id := id
    storeCode := sync.storeCode
    productExtId := item.productExtId
    name := item.name
    nameNormalized := parts.core
    matchKey := parts.matchKey
    region := orText item.region parts.region
    platform := orText item.platform parts.platform
    priceLimitMin := item.priceLimitMin
    priceLimitMax := item.priceLimitMax }

/-- One item of the crawl, upserted on the store's product id. -/
def upsert (progress : Table StoreProduct.id × Stats) (item : StoreCatalogItem) :
    Table StoreProduct.id × Stats :=
  match progress.1.rows.find? fun row =>
      row.storeCode = sync.storeCode ∧ row.productExtId = item.productExtId with
  | some row => (progress.1.save (sync.apply row.id item), progress.2.bump .updated 1)
  | none =>
    let id := (progress.1.rows.map StoreProduct.id).foldr max 0 + 1
    (progress.1.save (sync.apply id item), progress.2.bump .created 1)

def run (db : Db) (now : Time) (items : List StoreCatalogItem) : Except DbError (Db × Stats) :=
  let (rows, stats) := items.foldl sync.upsert (db.storeProducts.table, [])
  match StoreProducts.flush rows with
  | .ok products =>
    .ok ({ db with
        storeProducts := products
        syncRuns := db.syncRuns ++
          [SyncRun.close ("store-catalog:" ++ sync.storeCode) stats none now] },
      stats)
  | .error e => .error e

end StoreCatalogSync

end FazerBridge
