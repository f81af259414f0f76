import FazerBridge.CatalogSync.Unchanged
import FazerBridge.FazerCards
import FazerBridge.OfferSync.Sessions
import FazerBridge.Service

/-!
# What is advertised and what can be bought

The stock and the limits of an order pass through three places: the pull clamps them into
the row, `_desired` caps the stock at fifty orders of the largest size, and `purchase` checks
one order against the limits as the supplier gave them.  The cap is fifty times too high for
its purpose (`advertised_iff`).
-/

namespace FazerBridge

namespace SupplierCatalogSync

variable {sync : SupplierCatalogSync} {supplierId : ℕ} {old : Table SupplierProduct.id}
  {items : List SupplierItem} {row : SupplierProduct} {item : SupplierItem}
  {sha256 : String → String} {decimal : String → ℚ} {text : SupplierItem → String}

/-- The row holds the stock and the order limits of an item, clamped as `_apply` does. -/
structure Fits (row : SupplierProduct) (item : SupplierItem) : Prop where
  stock : row.stock = (max 0 item.stock).toNat
  minOrder : row.minOrderQuantity = max 1 item.minOrderQuantity
  maxOrder : row.maxOrderQuantity = max (max 1 item.minOrderQuantity)
    (if item.maxOrderQuantity = 0 then 1 else item.maxOrderQuantity)

theorem fits_apply (row : SupplierProduct) (item : SupplierItem) : Fits (sync.apply row item) item :=
  ⟨rfl, rfl, rfl⟩

theorem Fits.of_shown {row' : SupplierProduct} (fits : Fits row' item)
    (same : shown row = shown row') : Fits row item where
  stock := (congrArg SupplierProduct.stock same :).trans fits.stock
  minOrder := (congrArg SupplierProduct.minOrderQuantity same :).trans fits.minOrder
  maxOrder := (congrArg SupplierProduct.maxOrderQuantity same :).trans fits.maxOrder

/-- The digest covers what a row has to fit. -/
theorem Fits.of_sameHashed {other : SupplierItem} (fits : Fits row item)
    (same : item.SameHashed other) : Fits row other where
  stock := same.stock ▸ fits.stock
  minOrder := same.minOrderQuantity ▸ fits.minOrder
  maxOrder := by rw [fits.maxOrder, same.minOrderQuantity, same.maxOrderQuantity]

/-- A row that is skipped fits its item all the same. -/
theorem fits_of_contentHash (collisionFree : Function.Injective sha256)
    (hash : sync.contentHash = SupplierItem.contentHash sha256 text)
    (reads : decimal (text item) = item.price) (wrote : Written sha256 decimal sync row)
    (same : row.contentHash = sync.contentHash item) : Fits row item := by
  obtain ⟨first, text', reads', hashed, shows⟩ := wrote
  have agree : first.SameHashed item := SupplierItem.sameHashed_of_contentHash collisionFree
    reads' reads (hashed.symm.trans (same.trans (congrFun hash item)))
  exact ((fits_apply row first).of_shown shows).of_sameHashed agree

/-- The row an item is taken into: a new one, or the one of its key. -/
theorem upsert_unseen (sync : SupplierCatalogSync) (supplierId : ℕ) {pull : Pull}
    (unseen : item.key ∉ pull.seen) :
    ∃ row, (sync.upsert supplierId pull item).rows = pull.rows.save row ∧
      natural row = (supplierId, item.key) ∧
      ((∀ r ∈ pull.rows.rows, natural r ≠ (supplierId, item.key)) ∧
          (∃ id, row = sync.apply (newRow id supplierId item) item) ∨
        ∃ r ∈ pull.rows.rows, identity r = identity row ∧
          row = taken sync.applyChanged r item) := by
  unfold upsert
  rw [if_neg unseen]
  split
  · rename_i missing
    refine ⟨_, rfl, rfl, .inl ⟨fun r mem same => ?_, _, rfl⟩⟩
    have other := List.find?_eq_none.mp missing r mem
    rw [natural, Prod.mk.injEq] at same
    exact other (decide_eq_true same)
  · rename_i r found
    have same := List.find?_some found
    rw [decide_eq_true_eq] at same
    have kept := (sync.keyed_applyChanged.taken r item).symm
    exact ⟨_, rfl, (congrArg Prod.snd kept).symm.trans (Prod.ext same.1 same.2),
      .inr ⟨r, List.mem_of_find?_eq_some found, kept, rfl⟩⟩

/-- Every row fits the first item of its key. -/
def Fitted (supplierId : ℕ) (items : List SupplierItem) (rows : List SupplierProduct) : Prop :=
  ∀ row ∈ rows, row.supplierId = supplierId →
    ∀ item, items.find? (fun item => item.key = row.key) = some item → Fits row item

theorem Fitted.upsert {pull : Pull} (fitted : Fitted supplierId items pull.rows.rows)
    (pulled : Pulled supplierId old items pull) (collisionFree : Function.Injective sha256)
    (hash : sync.contentHash = SupplierItem.contentHash sha256 text)
    (reads : decimal (text item) = item.price)
    (wrote : ∀ row ∈ old.rows, Written sha256 decimal sync row) :
    Fitted supplierId (items ++ [item]) (sync.upsert supplierId pull item).rows.rows := by
  intro row mem own first found
  rw [List.find?_append] at found
  by_cases seen : item.key ∈ pull.seen
  · rw [SupplierCatalogSync.upsert, if_pos seen] at mem
    -- An item of a known key is not the first one.
    cases earlier : items.find? fun item => item.key = row.key with
    | some known =>
        rw [earlier, Option.some_or] at found
        exact fitted row mem own first (earlier.trans found)
    | none =>
        rw [earlier, Option.none_or, List.find?_singleton] at found
        split at found
        · rename_i same
          obtain ⟨known, listed, key⟩ := List.mem_map.mp ((pulled.seen _).mp seen)
          have other := List.find?_eq_none.mp earlier known listed
          exact absurd (decide_eq_true (key.trans (of_decide_eq_true same))) other
        · cases found
  · obtain ⟨saved, rows, same, origin⟩ := upsert_unseen sync supplierId seen
    have parts := same
    rw [natural, Prod.mk.injEq] at parts
    rw [rows] at mem
    have unlisted : items.find? (fun other => other.key = item.key) = none := by
      refine List.find?_eq_none.mpr fun other listed key => seen ?_
      rw [pulled.seen, ← of_decide_eq_true key]
      exact List.mem_map_of_mem listed
    rcases Table.mem_save.mp mem with rfl | ⟨mem, other⟩
    · rw [parts.2, unlisted, Option.none_or, List.find?_singleton, if_pos (decide_eq_true rfl)]
        at found
      cases found
      rcases origin with ⟨-, id, rfl⟩ | ⟨r, there, ident, rfl⟩
      · exact fits_apply _ item
      · unfold taken applyChanged
        split
        · exact (fits_apply r item).of_shown rfl
        · rename_i equal
          have natural : natural r = (supplierId, item.key) :=
            (congrArg Prod.snd ident).trans same
          rw [SupplierCatalogSync.natural, Prod.mk.injEq] at natural
          have before := pulled.untouched r there natural.1 (natural.2.symm ▸ seen)
          exact (fits_of_contentHash collisionFree hash reads (wrote r before)
            (not_not.mp equal)).of_shown rfl
    · have apart : ¬ item.key = row.key := by
        intro key
        rcases origin with ⟨free, -⟩ | ⟨r, there, ident, -⟩
        · exact free row mem (Prod.ext own key.symm)
        · have both : row = r := List.inj_on_of_nodup_map pulled.unique mem there
            ((Prod.ext own key.symm : natural row = (supplierId, item.key)).trans
              ((congrArg Prod.snd ident).trans same).symm)
          exact other (both ▸ congrArg Prod.fst ident)
      rw [List.find?_singleton, if_neg (by simpa using apart), Option.or_none] at found
      exact fitted row mem own first found

theorem fitted_foldl (collisionFree : Function.Injective sha256)
    (hash : sync.contentHash = SupplierItem.contentHash sha256 text)
    (unique : (old.rows.map natural).Nodup)
    (wrote : ∀ row ∈ old.rows, Written sha256 decimal sync row) (items : List SupplierItem)
    (reads : Reads decimal text items) :
    Fitted supplierId items (items.foldl (sync.upsert supplierId) ⟨old, [], []⟩).rows.rows := by
  induction items using List.reverseRecOn with
  | nil =>
      intro row mem own item found
      cases found
  | append_singleton items item ih =>
      rw [List.foldl_append]
      exact (ih fun other mem => reads other (List.mem_append_left _ mem)).upsert
        (pulled_foldl sync unique items) collisionFree hash
        (reads item (List.mem_append_right _ (List.mem_singleton_self item))) wrote

/-- The row a run stores an item in fits it. -/
theorem fits_run (collisionFree : Function.Injective sha256)
    (hash : sync.contentHash = SupplierItem.contentHash sha256 text) {db : Db}
    (produced : Produced sha256 decimal sync.unicode db.supplierProducts)
    (reads : Reads decimal text items) (now : Time)
    (first : items.find? (fun other => other.key = item.key) = some item)
    (mem : row ∈ (sync.run db now items).1.supplierProducts.rows)
    (same : natural row = (sync.supplierIdOf db, item.key)) : Fits row item := by
  obtain ⟨unique, wrote⟩ := produced.written
  have pulled : Pulled (sync.supplierIdOf db) db.supplierProducts items _ :=
    pulled_foldl sync unique items
  have missed : Missed sync (sync.supplierIdOf db) _ db.supplierProducts.rows _ :=
    missed_missUnseen pulled.kept
  rw [natural, Prod.mk.injEq] at same
  have listed : item.key ∈ items.map SupplierItem.key :=
    List.mem_map_of_mem (List.mem_of_find?_eq_some first)
  rcases missed.rows row mem with ⟨o, -, ⟨-, unseen, -⟩, rfl⟩ | ⟨mem, -⟩
  · refine absurd ((pulled.seen _).mpr ?_) unseen
    exact (same.2 : o.key = item.key) ▸ listed
  · exact fitted_foldl collisionFree hash unique wrote items reads row mem same.1 item
      (same.2.symm ▸ first)

end SupplierCatalogSync

namespace OfferSync

open FazerCardsAdapter

variable {row : SupplierProduct} {item : SupplierItem}

/-- Everything that is advertised can be bought in one order. -/
def Sellable (desired : DesiredOffer) (item : SupplierItem) : Prop :=
  desired.active = true → ∀ q, 1 ≤ q → q ≤ desired.inventory → Admissible item q

theorem inventory_of_fits (fits : SupplierCatalogSync.Fits row item) (price : ℚ) :
    (desiredAt price row).inventory = min (max 0 item.stock) (row.maxOrderQuantity * 50) := by
  have pos : row.maxOrderQuantity ≠ 0 := by
    rw [fits.maxOrder]
    omega
  have stock : (row.stock : ℤ) = max 0 item.stock := by
    rw [fits.stock]
    omega
  simp only [desiredAt, if_pos pos, stock]

theorem sellable_desiredAt (fits : SupplierCatalogSync.Fits row item) (price : ℚ) :
    Sellable (desiredAt price row) item ↔
      item.stock ≤ 0 ∨ item.minOrderQuantity ≤ 1 ∧
        (item.maxOrderQuantity = 0 ∨ item.stock ≤ item.maxOrderQuantity) := by
  have inventory := inventory_of_fits fits price
  have active : (desiredAt price row).active = decide (0 < (desiredAt price row).inventory) := rfl
  have largest := fits.maxOrder
  rw [Sellable, active, decide_eq_true_eq, inventory]
  constructor
  · intro sellable
    by_cases stocked : item.stock ≤ 0
    · exact .inl stocked
    have advertised : 0 < min (max 0 item.stock) (row.maxOrderQuantity * 50) := by
      split at largest <;> omega
    -- the least and the greatest advertised quantity
    obtain ⟨least, -⟩ := sellable advertised 1 le_rfl (by omega)
    obtain ⟨-, greatest⟩ := sellable advertised _ (by omega) le_rfl
    refine .inr ⟨least, ?_⟩
    split at largest <;> omega
  · intro condition available q pos le
    rcases condition with empty | ⟨least, greatest⟩
    · omega
    · exact ⟨by omega, by omega⟩

/-- Whatever is advertised of an item that a run stored can be bought in one order, exactly if
the item has no stock, or sells single pieces and its stock is no more than one order. -/
theorem advertised_iff {W : Type} {offers : OfferSync W} {sync : SupplierCatalogSync}
    {sha256 : String → String} (collisionFree : Function.Injective sha256)
    {decimal : String → ℚ} {text : SupplierItem → String}
    (hash : sync.contentHash = SupplierItem.contentHash sha256 text) {db : Db}
    (produced : SupplierCatalogSync.Produced sha256 decimal sync.unicode db.supplierProducts)
    {items : List SupplierItem} (reads : SupplierCatalogSync.Reads decimal text items) (now : Time)
    (first : items.find? (fun other => other.key = item.key) = some item)
    (mem : row ∈ (sync.run db now items).1.supplierProducts.rows)
    (same : SupplierCatalogSync.natural row = (sync.supplierIdOf db, item.key))
    {mapping : ProductMapping} {storeProduct : StoreProduct} {t u : Session W}
    {desired : DesiredOffer}
    (computed : (offers.desired ⟨mapping, row, storeProduct⟩).Runs t (.ok desired) u) :
    Sellable desired item ↔
      item.stock ≤ 0 ∨ item.minOrderQuantity ≤ 1 ∧
        (item.maxOrderQuantity = 0 ∨ item.stock ≤ item.maxOrderQuantity) := by
  have fits := SupplierCatalogSync.fits_run collisionFree hash produced reads now first mem same
  obtain ⟨price, rfl⟩ := (quiet_desired computed).2 desired rfl
  exact sellable_desiredAt fits price

end OfferSync

namespace EchoStore

open OfferSync SupplierCatalogSync

/-- Five pieces, sold up to five, or up to two in one order. -/
def upTo (most : ℤ) : SupplierItem := { sampleItem 1 "Portal" with maxOrderQuantity := most }

def stocked (most : ℤ) : Db := (plainSync.run emptyDb 0 [upTo most]).1

/-- Its row, and what is advertised of it. -/
def stockedRow (most : ℤ) : SupplierProduct :=
  (stocked most).supplierProducts.rows.headD (supplierProduct 1 10)

def stockedItem (most : ℤ) : Item := ⟨mapping 1, stockedRow most, storeProduct 1 none⟩

def advertised : DesiredOffer := ⟨23 / 2, 5, true⟩

theorem stocked_computes (most : ℤ) (listed : most = 5 ∨ most = 2) :
    ∃ u, ((offers settings adapter).desired (stockedItem most)).Runs ⟨stocked most, 0, [], []⟩
      (.ok advertised) u := by
  have result : (((offers settings adapter).desired (stockedItem most)).exec
      ⟨stocked most, 0, [], []⟩).1 = .ok advertised := by
    rcases listed with rfl | rfl <;> decide +kernel
  exact ⟨_, Prod.ext result rfl⟩

theorem sellable_upTo_five : Sellable advertised (upTo 5) := by
  have hash : plainSync.contentHash = SupplierItem.contentHash id wholeText := rfl
  have produced : Produced id wholeDecimal plainSync.unicode emptyDb.supplierProducts := .empty
  have reads : Reads wholeDecimal wholeText [upTo 5] := by
    intro item mem
    rw [List.mem_singleton.mp mem]
    exact wholeText_reads rfl
  have first : [upTo 5].find? (fun other => other.key = (upTo 5).key) = some (upTo 5) := rfl
  have mem : stockedRow 5 ∈ (plainSync.run emptyDb 0 [upTo 5]).1.supplierProducts.rows := by
    decide +kernel
  have same : natural (stockedRow 5) = (plainSync.supplierIdOf emptyDb, (upTo 5).key) := by
    decide +kernel
  obtain ⟨u, computed⟩ := stocked_computes 5 (.inl rfl)
  exact (advertised_iff Function.injective_id hash produced reads 0 first mem same computed).mpr
    (by decide +kernel)

/-- Two pieces are sold in one order and five are advertised. -/
theorem not_sellable_upTo_two :
    (∃ u, ((offers settings adapter).desired (stockedItem 2)).Runs ⟨stocked 2, 0, [], []⟩
      (.ok advertised) u) ∧ ¬ Sellable advertised (upTo 2) := by
  refine ⟨stocked_computes 2 (.inr rfl), fun sellable => ?_⟩
  have three := sellable rfl 3 (by decide) (by decide)
  revert three
  decide

end EchoStore

end FazerBridge
