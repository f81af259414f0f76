import FazerBridge.Lib.Table
import FazerBridge.Text

/-!
# Database schema

The rows of `app/models.py` that the catalogue sync, the matcher and the offer
sync read or write, and the settings of `app/config.py` they consult.

A table is a `Table` on its primary key.  `store_products` and
`product_mappings` carry more unique constraints; `StoreProducts` and
`ProductMappings` hold them as fields, and `flush` is the only way to build one
from changed rows.  `store_offers` is keyed by its unique `mapping_id`; its other
constraint is checked when the offer sync flushes.

Columns no modelled function reads (raw payloads, creation stamps, slugs) are
left out.  Decimal and float columns are exact rationals, instants are integers
(microseconds).
-/

namespace FazerBridge

/-- An instant, in microseconds. -/
abbrev Time := ℤ

def hour : Time := 3600 * 1000000

/-! ## Enumerations -/

inductive ProductKind
  | gameKey
  | giftCard
  deriving DecidableEq, Repr

inductive MappingStatus
  /-- matched by the engine, waiting for a human -/
  | pending
  /-- a human said yes -/
  | approved
  /-- score was high enough to skip review -/
  | auto
  /-- a human said no -/
  | rejected
  /-- engine found nothing good enough -/
  | unmatched
  deriving DecidableEq, Repr

inductive OfferState
  /-- never pushed -/
  | pending
  | live
  | outOfStock
  | archived
  | failed
  deriving DecidableEq, Repr

inductive RunState
  | running
  | success
  | partialSuccess
  | failed
  deriving DecidableEq, Repr

/-! ## Rows -/

structure Supplier where
  id : ℕ
  code : String
  deriving DecidableEq, Repr

structure SupplierProduct where
  id : ℕ
  supplierId : ℕ
  kind : ProductKind
  categoryExtId : String
  offerExtId : String
  categoryName : Option Text
  name : Text
  nameNormalized : Text
  region : Option Text
  platform : Option Text
  regionRestricted : Bool
  priceSupplier : ℚ
  supplierCurrency : String
  stock : ℕ
  minOrderQuantity : ℤ
  maxOrderQuantity : ℤ
  contentHash : String
  isActive : Bool
  missingRuns : ℕ
  deriving DecidableEq, Repr

structure StoreProduct where
  id : ℕ
  storeCode : String
  productExtId : String
  name : Text
  nameNormalized : Text
  matchKey : Text
  region : Option Text
  platform : Option Text
  priceLimitMin : Option ℚ
  priceLimitMax : Option ℚ
  deriving DecidableEq, Repr

/-- A store product the matcher scored for a supplier product. -/
structure Candidate where
  storeProductId : ℕ
  productExtId : String
  name : Text
  score : ℚ
  reasons : List Text
  deriving DecidableEq, Repr

structure ProductMapping where
  id : ℕ
  supplierProductId : ℕ
  storeCode : String
  storeProductId : Option ℕ
  status : MappingStatus
  score : Option ℚ
  method : Option String
  /-- Runners-up, kept so the review screen can show alternatives. -/
  candidates : List Candidate
  markupPercentOverride : Option ℚ
  fixedPriceOverride : Option ℚ
  syncEnabled : Bool
  reviewedBy : Option String
  note : Option String
  deriving DecidableEq, Repr

/-- Our live offer on the store, plus what was last pushed to it. -/
structure StoreOffer where
  mappingId : ℕ
  storeCode : String
  offerExtId : Option String
  productExtId : String
  state : OfferState
  active : Bool
  pushedPrice : Option ℚ
  pushedInventory : Option ℤ
  pushedActive : Option Bool
  lastPushedAt : Option Time
  pendingJobId : Option String
  lastError : Option String
  consecutiveFailures : ℕ
  deriving DecidableEq, Repr

/-- One row per accepted price change, used to enforce the store's cap. -/
structure PriceChangeLog where
  storeCode : String
  productExtId : String
  offerExtId : Option String
  oldPrice : Option ℚ
  newPrice : ℚ
  changedAt : Time
  deriving DecidableEq, Repr

structure FxRate where
  base : String
  quote : String
  rate : ℚ
  source : String
  fetchedAt : Time
  deriving DecidableEq, Repr

/-- The counters a sync run keeps. -/
inductive StatKey
  | examined
  | errors
  | created
  | updated
  | skippedUnchanged
  | wouldCreate
  | wouldUpdate
  | awaitingJob
  | deferredRateLimited
  | deferredPriceBudget
  | duplicateInFeed
  | createdFields
  | unchanged
  | reactivated
  | deactivated
  | missingGrace
  | totalSeen
  deriving DecidableEq, Repr

abbrev Stats := List (StatKey × ℕ)

def Stats.get (stats : Stats) (key : StatKey) : ℕ := (stats.lookup key).getD 0

/-- `stats[key] = stats.get(key, 0) + amount` -/
def Stats.bump (key : StatKey) (amount : ℕ) : Stats → Stats
  | [] => [(key, amount)]
  | (k, n) :: rest => if k = key then (k, n + amount) :: rest else (k, n) :: bump key amount rest

structure SyncRun where
  kind : String
  state : RunState
  stats : Stats
  error : Option String
  finishedAt : Option Time
  deriving DecidableEq, Repr

/-- What the database answers instead of a flush. -/
inductive DbError
  /-- a unique constraint is violated -/
  | integrityError
  /-- the database itself failed -/
  | operationalError (message : String)
  deriving DecidableEq, Repr

/-! ## `store_products` -/

/-- Two rows that `UNIQUE(store_code, product_ext_id)` forbids. -/
def SameIdentity (p q : StoreProduct) : Prop :=
  p.storeCode = q.storeCode ∧ p.productExtId = q.productExtId

instance (p q : StoreProduct) : Decidable (SameIdentity p q) :=
  inferInstanceAs (Decidable (_ ∧ _))

/-- The mirrored store catalogue: one row per product of a store. -/
structure StoreProducts where
  table : Table StoreProduct.id
  identityUnique : table.rows.Pairwise fun p q => ¬ SameIdentity p q

namespace StoreProducts

def empty : StoreProducts := ⟨Table.empty _, List.Pairwise.nil⟩

def rows (products : StoreProducts) : List StoreProduct := products.table.rows

def find? (products : StoreProducts) (id : ℕ) : Option StoreProduct := products.table.find? id

/-- Write changed rows; a violated constraint is an `IntegrityError`. -/
def flush (table : Table StoreProduct.id) : Except DbError StoreProducts :=
  if h : table.rows.Pairwise fun p q => ¬ SameIdentity p q then .ok ⟨table, h⟩
  else .error .integrityError

end StoreProducts

/-! ## `product_mappings` -/

/-- Two rows that `UNIQUE(store_code, store_product_id)` forbids: NULL targets
never clash. -/
def SameTarget (m n : ProductMapping) : Prop :=
  m.storeCode = n.storeCode ∧ m.storeProductId = n.storeProductId ∧ m.storeProductId ≠ none

instance (m n : ProductMapping) : Decidable (SameTarget m n) :=
  inferInstanceAs (Decidable (_ ∧ _ ∧ _))

/-- The mapping table with its unique constraints: one row per supplier product,
one row per store product. -/
structure ProductMappings where
  table : Table ProductMapping.id
  supplierUnique : (table.rows.map ProductMapping.supplierProductId).Nodup
  targetUnique : table.rows.Pairwise fun m n => ¬ SameTarget m n

namespace ProductMappings

def empty : ProductMappings := ⟨Table.empty _, List.nodup_nil, List.Pairwise.nil⟩

instance : Inhabited ProductMappings := ⟨empty⟩

def rows (mappings : ProductMappings) : List ProductMapping := mappings.table.rows

/-- Write changed rows; a violated constraint is an `IntegrityError`. -/
def flush (table : Table ProductMapping.id) : Except DbError ProductMappings :=
  if h : (table.rows.map ProductMapping.supplierProductId).Nodup ∧
      table.rows.Pairwise fun m n => ¬ SameTarget m n then
    .ok ⟨table, h.1, h.2⟩
  else .error .integrityError

/-- A primary key no row has. -/
def nextId (mappings : ProductMappings) : ℕ :=
  (mappings.rows.map ProductMapping.id).foldr max 0 + 1

end ProductMappings

/-! ## The database -/

structure Db where
  suppliers : List Supplier
  supplierProducts : Table SupplierProduct.id
  storeProducts : StoreProducts
  mappings : ProductMappings
  offers : Table StoreOffer.mappingId
  priceChangeLog : List PriceChangeLog
  fxRates : List FxRate
  syncRuns : List SyncRun

/-- The values `price_rounding` may have. -/
inductive PriceRounding
  /-- "0.01" -/
  | cent
  /-- "0.05" -/
  | fiveCents
  /-- "0.10" -/
  | tenCents
  /-- "0.99" -/
  | ninetyNine
  deriving DecidableEq, Repr

/-- The settings the modelled services consult. -/
structure Settings where
  g2aPriceChangesPerProductPerHour : ℤ
  g2aPriceChangeSafetyMargin : ℤ
  storeCurrency : String
  supplierCurrency : String
  fxRateUsdEur : Option ℚ
  fxProviderUrl : String
  fxMaxAgeHours : ℤ
  defaultMarkupPercent : ℚ
  priceRounding : PriceRounding
  minOfferPrice : ℚ
  matchAutoAcceptScore : ℚ
  matchReviewScore : ℚ
  matchMaxCandidates : ℕ
  deactivateMissingAfterRuns : ℤ
  deriving DecidableEq, Repr

/-- The defaults of `Settings`. -/
def Settings.default : Settings where
  g2aPriceChangesPerProductPerHour := 5
  g2aPriceChangeSafetyMargin := 1
  storeCurrency := "EUR"
  supplierCurrency := "USD"
  fxRateUsdEur := none
  fxProviderUrl := "https://api.frankfurter.app/latest?from=USD&to=EUR"
  fxMaxAgeHours := 24
  defaultMarkupPercent := 15
  priceRounding := .cent
  minOfferPrice := 30 / 100
  matchAutoAcceptScore := 92 / 100
  matchReviewScore := 70 / 100
  matchMaxCandidates := 10
  deactivateMissingAfterRuns := 2

/-- One below the cap, so that a manual change in the panel does not exceed it;
never below one. -/
def Settings.effectivePriceChangeBudget (settings : Settings) : ℤ :=
  max 1 (settings.g2aPriceChangesPerProductPerHour - settings.g2aPriceChangeSafetyMargin)

/-! ## Facts about counters -/

theorem Stats.get_cons (k : StatKey) (n : ℕ) (rest : Stats) (key : StatKey) :
    Stats.get ((k, n) :: rest) key = if key = k then n else Stats.get rest key := by
  unfold Stats.get
  by_cases same : key = k
  · simp [same]
  · have distinct : (key == k) = false := by simpa using same
    simp [List.lookup_cons, same, distinct]

/-- A counter that is bumped goes up, and the others stay. -/
theorem Stats.get_bump (stats : Stats) (key other : StatKey) (amount : ℕ) :
    (stats.bump key amount).get other = stats.get other + if other = key then amount else 0 := by
  induction stats with
  | nil =>
      rw [Stats.bump, Stats.get_cons]
      split <;> simp [Stats.get]
  | cons entry rest ih =>
      obtain ⟨k, n⟩ := entry
      rw [Stats.bump]
      split
      · rename_i same
        rw [Stats.get_cons, Stats.get_cons, same]
        split <;> rfl
      · rename_i distinct
        rw [Stats.get_cons, Stats.get_cons]
        split
        · rename_i own
          rw [if_neg (own ▸ distinct), Nat.add_zero]
        · exact ih

/-- A counter never goes down. -/
theorem Stats.get_le_bump (stats : Stats) (key other : StatKey) (amount : ℕ) :
    stats.get other ≤ (stats.bump key amount).get other := by
  rw [Stats.get_bump]
  exact Nat.le_add_right _ _

theorem Stats.get_bump_pos (stats : Stats) (key : StatKey) : 0 < (stats.bump key 1).get key := by
  rw [Stats.get_bump, if_pos rfl]
  exact Nat.succ_pos _

/-! ## Facts about the tables -/

namespace StoreProducts

variable (products : StoreProducts) {p q : StoreProduct}

theorem find?_id (mem : p ∈ products.rows) : products.find? p.id = some p :=
  products.table.find?_key mem

theorem eq_of_id (hp : p ∈ products.rows) (hq : q ∈ products.rows) (same : p.id = q.id) : p = q :=
  products.table.eq_of_key_eq hp hq same

end StoreProducts

theorem SameTarget.symm {m n : ProductMapping} (h : SameTarget m n) : SameTarget n m :=
  ⟨h.1.symm, h.2.1.symm, h.2.1 ▸ h.2.2⟩

namespace ProductMappings

variable (mappings : ProductMappings)

/-- A supplier product has one mapping. -/
theorem eq_of_supplier {m n : ProductMapping} (hm : m ∈ mappings.rows) (hn : n ∈ mappings.rows)
    (same : m.supplierProductId = n.supplierProductId) : m = n :=
  List.inj_on_of_nodup_map mappings.supplierUnique hm hn same

theorem eq_of_id {m n : ProductMapping} (hm : m ∈ mappings.rows) (hn : n ∈ mappings.rows)
    (same : m.id = n.id) : m = n :=
  mappings.table.eq_of_key_eq hm hn same

/-- Two mappings of one store code never hold one store product. -/
theorem eq_of_sameTarget {m n : ProductMapping} (hm : m ∈ mappings.rows) (hn : n ∈ mappings.rows)
    (same : SameTarget m n) : m = n := by
  have : Std.Symm fun m n => ¬ SameTarget m n := ⟨fun _ _ h h' => h h'.symm⟩
  by_contra ne
  exact mappings.targetUnique.forall hm hn ne same

/-- A flush that is accepted leaves the rows as they were written. -/
theorem flush_eq_ok {table : Table ProductMapping.id} {out : ProductMappings}
    (h : flush table = .ok out) : out.table = table := by
  unfold flush at h
  split at h
  · cases h; rfl
  · cases h

/-- A row whose primary key and supplier product agree about which row it goes
over can be written exactly when no other row holds its target. -/
theorem flush_save_ok_iff {row : ProductMapping}
    (keyed : ∀ m ∈ mappings.rows, m.id = row.id ↔ m.supplierProductId = row.supplierProductId) :
    (∃ out, flush (mappings.table.save row) = .ok out) ↔
      ∀ m ∈ mappings.rows, m.id ≠ row.id → ¬ SameTarget m row := by
  have nodup := (mappings.table.save row).nodup_rows
  constructor
  · rintro ⟨out, written⟩ m mem ne clash
    have rows : out.rows = (mappings.table.save row).rows :=
      congrArg Table.rows (flush_eq_ok written)
    have both : m = row := out.eq_of_sameTarget (rows ▸ Table.mem_save.mpr (Or.inr ⟨mem, ne⟩))
      (rows ▸ Table.mem_save.mpr (Or.inl rfl)) clash
    exact ne (both ▸ rfl)
  · intro free
    have supplierUnique : ((mappings.table.save row).rows.map
        ProductMapping.supplierProductId).Nodup :=
      Table.nodup_map_save mappings.supplierUnique fun m mem ne same =>
        ne ((keyed m mem).mpr same)
    have targetUnique : (mappings.table.save row).rows.Pairwise fun m n => ¬ SameTarget m n := by
      refine nodup.pairwise_of_forall_ne fun m hm n hn ne clash => ?_
      rcases Table.mem_save.mp hm with rfl | ⟨mOld, mNe⟩ <;>
        rcases Table.mem_save.mp hn with rfl | ⟨nOld, nNe⟩
      · exact ne rfl
      · exact free n nOld nNe clash.symm
      · exact free m mOld mNe clash
      · exact ne (mappings.eq_of_sameTarget mOld nOld clash)
    exact ⟨_, dif_pos ⟨supplierUnique, targetUnique⟩⟩

theorem lt_nextId {m : ProductMapping} (mem : m ∈ mappings.rows) : m.id < mappings.nextId :=
  Table.lt_foldr_max (List.mem_map_of_mem mem)

end ProductMappings

end FazerBridge
