import FazerBridge.CatalogSync.Absence
import FazerBridge.Lib.JsonText

/-!
# Rows whose hash has not changed

A pull copies an item into its row only when `content_hash` differs.  The digest
covers eight of the fields `_apply` writes or derives a column from, but neither
`category_name` nor `region_restricted`, so those two go stale
(`skipping_converges_iff`).

Pulls with and without the test are one loop over the function that copies an
item into an existing row (`upsertWith`).
-/

namespace FazerBridge

open Text

/-! ## The digest -/

/-- `None` or a text -/
def Json.optional : Option Text → Json
  | none => .null
  | some text => .string (String.ofList text)

/-- What is digested, with its keys sorted; `priceText` is `str(self.price)`. -/
def SupplierItem.payload (priceText : SupplierItem → String) (item : SupplierItem) :
    List (String × Json) :=
  [("currency", .string item.currency),
    ("max", .number item.maxOrderQuantity.repr),
    ("min", .number item.minOrderQuantity.repr),
    ("name", .string (String.ofList item.name)),
    ("platform", .optional item.platform),
    ("price", .string (priceText item)),
    ("region", .optional item.region),
    ("stock", .number item.stock.repr)]

def SupplierItem.contentHash (sha256 : String → String) (priceText : SupplierItem → String)
    (item : SupplierItem) : String :=
  sha256 (Json.dumps (.object (item.payload priceText)))

/-- Two items agree on the fields that are hashed. -/
structure SupplierItem.SameHashed (a b : SupplierItem) : Prop where
  name : a.name = b.name
  price : a.price = b.price
  currency : a.currency = b.currency
  stock : a.stock = b.stock
  region : a.region = b.region
  platform : a.platform = b.platform
  minOrderQuantity : a.minOrderQuantity = b.minOrderQuantity
  maxOrderQuantity : a.maxOrderQuantity = b.maxOrderQuantity

theorem Json.optional_injective {a b : Option Text} (same : Json.optional a = Json.optional b) :
    a = b := by
  cases a with
  | none =>
      cases b with
      | none => rfl
      | some text => cases same
  | some text =>
      cases b with
      | none => cases same
      | some text' =>
          rw [Json.optional, Json.optional, Json.string.injEq, String.ofList_inj] at same
          rw [same]

theorem Json.flat_optional (a : Option Text) : Json.Flat (.optional a) := by
  cases a with
  | none => exact .null
  | some text => exact .string _

theorem SupplierItem.flat_payload (priceText : SupplierItem → String) (item : SupplierItem) :
    ∀ field ∈ item.payload priceText, Json.Flat field.2 := by
  simp [payload, Json.flat_optional, Json.Flat.string, Json.Flat.number, Json.numeral_int]

/-- Items of one digest agree on what is hashed. -/
theorem SupplierItem.sameHashed_of_contentHash {sha256 : String → String}
    (collisionFree : Function.Injective sha256) {decimal : String → ℚ}
    {text text' : SupplierItem → String} {a b : SupplierItem}
    (readsA : decimal (text a) = a.price) (readsB : decimal (text' b) = b.price)
    (same : a.contentHash sha256 text = b.contentHash sha256 text') : a.SameHashed b := by
  have keys : (a.payload text).map Prod.fst = (b.payload text').map Prod.fst := rfl
  have texts : Json.dumps (.object (a.payload text)) = Json.dumps (.object (b.payload text')) :=
    collisionFree same
  have fields := Json.object_injective keys (a.flat_payload text) (b.flat_payload text') texts
  simp only [payload, List.cons.injEq, Prod.mk.injEq, Json.string.injEq, Json.number.injEq,
    true_and, String.ofList_inj, and_true] at fields
  obtain ⟨currency, max, min, name, platform, price, region, stock⟩ := fields
  exact {
    name := name
    price := by rw [← readsA, ← readsB, price]
    currency := currency
    stock := Int.repr_injective stock
    region := Json.optional_injective region
    platform := Json.optional_injective platform
    minOrderQuantity := Int.repr_injective min
    maxOrderQuantity := Int.repr_injective max }

namespace SupplierCatalogSync

variable {sync : SupplierCatalogSync} {supplierId : ℕ} {pull : Pull} {item : SupplierItem}

/-- A row without its bookkeeping. -/
def shown (row : SupplierProduct) : SupplierProduct :=
  { row with contentHash := "", isActive := true, missingRuns := 0 }

/-! ## One loop for both -/

/-- What an item makes of its row, when `copy` is what is copied. -/
def taken (copy : SupplierProduct → SupplierItem → SupplierProduct) (row : SupplierProduct)
    (item : SupplierItem) : SupplierProduct :=
  { copy row item with missingRuns := 0, isActive := true }

/-- One item of the feed, its rows only; `copy` copies an item into an existing row. -/
def upsertWith (sync : SupplierCatalogSync)
    (copy : SupplierProduct → SupplierItem → SupplierProduct) (supplierId : ℕ) (pull : Pull)
    (item : SupplierItem) : Pull :=
  if item.key ∈ pull.seen then pull
  else
    match pull.rows.rows.find? fun row => row.supplierId = supplierId ∧ row.key = item.key with
    | none =>
      { pull with
        rows := pull.rows.save (sync.apply (newRow (nextId pull.rows.rows) supplierId item) item)
        seen := item.key :: pull.seen }
    | some row =>
      { pull with
        rows := pull.rows.save (taken copy row item)
        seen := item.key :: pull.seen }

/-- The code's own: the item is copied only when its hash differs. -/
def applyChanged (sync : SupplierCatalogSync) (row : SupplierProduct) (item : SupplierItem) :
    SupplierProduct :=
  if row.contentHash ≠ sync.contentHash item then sync.apply row item else row

/-- The rows of a pull that calls `_apply` on the first item of each key whatever its hash. -/
def alwaysRows (sync : SupplierCatalogSync) (supplierId : ℕ) (old : Table SupplierProduct.id)
    (items : List SupplierItem) : List SupplierProduct :=
  (sync.missUnseen supplierId old.rows
    (items.foldl (sync.upsertWith sync.apply supplierId) ⟨old, [], []⟩)).rows.rows

/-- A pull is the loop that copies what has changed. -/
theorem foldl_upsert (sync : SupplierCatalogSync) (supplierId : ℕ) (items : List SupplierItem)
    {pull pull' : Pull}
    (rows : pull.rows = pull'.rows) (seen : pull.seen = pull'.seen) :
    (items.foldl (sync.upsert supplierId) pull).rows =
        (items.foldl (sync.upsertWith sync.applyChanged supplierId) pull').rows ∧
      (items.foldl (sync.upsert supplierId) pull).seen =
        (items.foldl (sync.upsertWith sync.applyChanged supplierId) pull').seen := by
  induction items generalizing pull pull' with
  | nil => exact ⟨rows, seen⟩
  | cons item items ih =>
      rw [List.foldl_cons, List.foldl_cons]
      refine ih ?_ ?_
      all_goals
        unfold upsert upsertWith
        rw [rows, seen]
        split
        · rfl
        · cases pull'.rows.rows.find? fun row => row.supplierId = supplierId ∧ row.key = item.key with
          | none => rfl
          | some row => rfl

/-! ## Its rows -/

/-- What becomes of a row that was there before the pull. -/
def touched (copy : SupplierProduct → SupplierItem → SupplierProduct) (supplierId : ℕ)
    (items : List SupplierItem) (row : SupplierProduct) : SupplierProduct :=
  if row.supplierId = supplierId then
    match items.find? fun item => item.key = row.key with
    | some item => taken copy row item
    | none => row
  else row

/-- A copy leaves the row the row of its key. -/
def Keyed (copy : SupplierProduct → SupplierItem → SupplierProduct) : Prop :=
  ∀ row item, identity (copy row item) = identity row

theorem keyed_apply (sync : SupplierCatalogSync) : Keyed sync.apply := fun _ _ => rfl

theorem keyed_applyChanged (sync : SupplierCatalogSync) : Keyed sync.applyChanged := by
  intro row item
  unfold applyChanged
  split <;> rfl

variable {copy copy' : SupplierProduct → SupplierItem → SupplierProduct}
  {items : List SupplierItem} {old : Table SupplierProduct.id} {row : SupplierProduct}

theorem Keyed.taken (keyed : Keyed copy) (row : SupplierProduct) (item : SupplierItem) :
    identity (taken copy row item) = identity row := keyed row item

theorem Keyed.touched (keyed : Keyed copy) (row : SupplierProduct) :
    identity (touched copy supplierId items row) = identity row := by
  unfold SupplierCatalogSync.touched
  split
  · split
    · exact keyed.taken row _
    · rfl
  · rfl

theorem touched_unlisted (unlisted : row.supplierId = supplierId →
    row.key ∉ items.map SupplierItem.key) : touched copy supplierId items row = row := by
  unfold touched
  split
  · rename_i own
    have none : items.find? (fun item => item.key = row.key) = none := by
      refine List.find?_eq_none.mpr fun item mem same => ?_
      exact unlisted own (of_decide_eq_true same ▸ List.mem_map_of_mem mem)
    rw [none]
  · rfl

/-- An item further down the feed is not the first of a key that is listed already. -/
theorem touched_append_of_listed (listed : row.supplierId = supplierId → item.key = row.key →
    row.key ∈ items.map SupplierItem.key) :
    touched copy supplierId (items ++ [item]) row = touched copy supplierId items row := by
  unfold touched
  split
  · rename_i own
    rw [List.find?_append]
    cases found : items.find? fun item => item.key = row.key with
    | some first => rfl
    | none =>
        have other : ¬ item.key = row.key := by
          intro same
          obtain ⟨first, mem, key⟩ := List.mem_map.mp (listed own same)
          exact List.find?_eq_none.mp found first mem (decide_eq_true key)
        rw [Option.none_or, List.find?_singleton, if_neg (by simpa using other)]
  · rfl

theorem touched_append_first (own : row.supplierId = supplierId) (key : item.key = row.key)
    (unlisted : row.key ∉ items.map SupplierItem.key) :
    touched copy supplierId (items ++ [item]) row = taken copy row item := by
  have none : items.find? (fun item => item.key = row.key) = none := by
    refine List.find?_eq_none.mpr fun first mem same => ?_
    exact unlisted (of_decide_eq_true same ▸ List.mem_map_of_mem mem)
  unfold touched
  rw [if_pos own, List.find?_append, none, Option.none_or, List.find?_singleton,
    if_pos (by simpa using key)]

/-- The rows of the loop: those of before, and the ones it made. -/
structure Looped (sync : SupplierCatalogSync)
    (copy : SupplierProduct → SupplierItem → SupplierProduct) (supplierId : ℕ)
    (old : Table SupplierProduct.id) (items : List SupplierItem) (fresh : List SupplierProduct)
    (pull : Pull) : Prop where
  rows : pull.rows.rows = old.rows.map (touched copy supplierId items) ++ fresh
  seen : ∀ key, key ∈ pull.seen ↔ key ∈ items.map SupplierItem.key
  made : ∀ row ∈ fresh, ∃ item ∈ items, ∃ id, row = sync.apply (newRow id supplierId item) item

theorem Looped.listed {fresh : List SupplierProduct}
    (looped : Looped sync copy supplierId old items fresh pull) (mem : row ∈ fresh) :
    row.key ∈ items.map SupplierItem.key := by
  obtain ⟨item, listed, id, rfl⟩ := looped.made row mem
  exact List.mem_map_of_mem listed

theorem Looped.nil : Looped sync copy supplierId old [] [] ⟨old, [], []⟩ where
  rows := by
    rw [List.append_nil]
    exact ((List.map_congr_left fun row _ => touched_unlisted fun _ => List.not_mem_nil).trans
      (List.map_id _)).symm
  seen key := by simp
  made row mem := absurd mem List.not_mem_nil

/-- The rows a pull has made after one more item. -/
def grown (sync : SupplierCatalogSync) (supplierId : ℕ) (old : Table SupplierProduct.id)
    (items : List SupplierItem) (fresh : List SupplierProduct) (item : SupplierItem) :
    List SupplierProduct :=
  if item.key ∈ items.map SupplierItem.key ∨ (supplierId, item.key) ∈ old.rows.map natural then
    fresh
  else fresh ++ [sync.apply (newRow (nextId (old.rows ++ fresh)) supplierId item) item]

theorem Keyed.natural_mem {fresh : List SupplierProduct} (keyed : Keyed copy)
    (looped : Looped sync copy supplierId old items fresh pull) (mem : row ∈ old.rows) :
    ∃ r ∈ pull.rows.rows, identity r = identity row := by
  refine ⟨SupplierCatalogSync.touched copy supplierId items row, ?_, keyed.touched row⟩
  rw [looped.rows]
  exact List.mem_append_left _ (List.mem_map_of_mem mem)

theorem Keyed.nextId {fresh : List SupplierProduct} (keyed : Keyed copy)
    (looped : Looped sync copy supplierId old items fresh pull) :
    nextId pull.rows.rows = nextId (old.rows ++ fresh) := by
  have ids : (old.rows.map (SupplierCatalogSync.touched copy supplierId items)).map
      SupplierProduct.id = old.rows.map SupplierProduct.id := by
    rw [List.map_map]
    exact List.map_congr_left fun row _ => congrArg Prod.fst (keyed.touched row)
  unfold SupplierCatalogSync.nextId
  rw [looped.rows, List.map_append, List.map_append, ids]

theorem Looped.upsertWith {fresh : List SupplierProduct} (keyed : Keyed copy)
    (unique : (old.rows.map natural).Nodup)
    (looped : Looped sync copy supplierId old items fresh pull) (item : SupplierItem) :
    Looped sync copy supplierId old (items ++ [item]) (sync.grown supplierId old items fresh item)
      (sync.upsertWith copy supplierId pull item) := by
  have listed : ∀ key, key ∈ (items ++ [item]).map SupplierItem.key ↔
      key ∈ items.map SupplierItem.key ∨ key = item.key := by simp
  have made : ∀ row ∈ fresh, ∃ first ∈ items ++ [item], ∃ id,
      row = sync.apply (newRow id supplierId first) first := by
    intro row mem
    obtain ⟨first, there, id, rfl⟩ := looped.made row mem
    exact ⟨first, List.mem_append_left _ there, id, rfl⟩
  unfold SupplierCatalogSync.upsertWith
  split
  · rename_i seen
    have known := (looped.seen _).mp seen
    have grown : sync.grown supplierId old items fresh item = fresh := if_pos (.inl known)
    refine ⟨?_, fun key => ?_, grown.symm ▸ made⟩
    · rw [grown, looped.rows]
      refine congrArg (· ++ fresh) (List.map_congr_left fun row _ => ?_)
      exact (touched_append_of_listed fun _ same => same ▸ known).symm
    · rw [listed, looped.seen]
      exact ⟨.inl, fun either => either.elim id fun same => same ▸ known⟩
  · rename_i unseen
    have unlisted : item.key ∉ items.map SupplierItem.key := fun known =>
      unseen ((looped.seen _).mpr known)
    have seen : ∀ key, key ∈ item.key :: pull.seen ↔
        key ∈ (items ++ [item]).map SupplierItem.key := by
      intro key
      rw [listed, List.mem_cons, looped.seen, or_comm]
    split
    · rename_i missing
      -- No row has the key: the item gets a row of its own.
      have free : (supplierId, item.key) ∉ old.rows.map natural := by
        intro taken
        obtain ⟨o, mem, same⟩ := List.mem_map.mp taken
        obtain ⟨r, there, ident⟩ := keyed.natural_mem looped mem
        have natural : natural r = (supplierId, item.key) :=
          (congrArg Prod.snd ident).trans same
        rw [SupplierCatalogSync.natural, Prod.mk.injEq] at natural
        exact List.find?_eq_none.mp missing r there (decide_eq_true natural)
      have grown : sync.grown supplierId old items fresh item = fresh ++
          [sync.apply (newRow (nextId (old.rows ++ fresh)) supplierId item) item] :=
        if_neg (not_or.mpr ⟨unlisted, free⟩)
      refine ⟨?_, seen, ?_⟩
      · dsimp only
        rw [Table.rows_save_of_not_mem fun b mem => (lt_nextId mem).ne, looped.rows, grown,
          List.append_assoc, ← looped.rows, keyed.nextId looped]
        refine congrArg (· ++ _) (List.map_congr_left fun row mem => ?_)
        refine (touched_append_of_listed fun own same => ?_).symm
        exact absurd (List.mem_map.mpr ⟨row, mem, Prod.ext own same.symm⟩) free
      · rw [grown]
        intro row mem
        rcases List.mem_append.mp mem with mem | mem
        · exact made row mem
        · rw [List.mem_singleton.mp mem]
          exact ⟨item, List.mem_append_right _ (List.mem_singleton_self item), _, rfl⟩
    · rename_i r found
      -- The row of the key was there before the pull, and no item has touched it.
      have mem := List.mem_of_find?_eq_some found
      have same := List.find?_some found
      simp only [decide_eq_true_eq] at same
      have old_mem : r ∈ old.rows := by
        rw [looped.rows] at mem
        rcases List.mem_append.mp mem with mem | mem
        · obtain ⟨o, there, rfl⟩ := List.mem_map.mp mem
          have ident : identity (SupplierCatalogSync.touched copy supplierId items o) = identity o :=
            keyed.touched o
          have key : (SupplierCatalogSync.touched copy supplierId items o).key = o.key :=
            congrArg Prod.snd (congrArg Prod.snd ident)
          rw [touched_unlisted fun _ => key ▸ same.2 ▸ unlisted]
          exact there
        · exact absurd (same.2 ▸ looped.listed mem) unlisted
      have grown : sync.grown supplierId old items fresh item = fresh :=
        if_pos (.inr (List.mem_map.mpr ⟨r, old_mem, Prod.ext same.1 same.2⟩))
      have id : (taken copy r item).id = r.id := congrArg Prod.fst (keyed.taken r item)
      refine ⟨?_, seen, grown.symm ▸ made⟩
      dsimp only
      rw [Table.rows_save_of_mem mem id.symm, grown, looped.rows, Table.overwrite, List.map_append,
        List.map_map, id]
      congr 1
      · refine List.map_congr_left fun x there => ?_
        have sameId : (SupplierCatalogSync.touched copy supplierId items x).id = x.id :=
          congrArg Prod.fst (keyed.touched x)
        rw [Function.comp_apply, sameId]
        by_cases both : x = r
        · subst both
          rw [if_pos rfl, touched_append_first same.1 same.2.symm (same.2 ▸ unlisted)]
        · rw [if_neg fun ids => both (old.eq_of_key_eq there old_mem ids)]
          refine (touched_append_of_listed fun own key => ?_).symm
          exact absurd (List.inj_on_of_nodup_map unique there old_mem
            (Prod.ext (own.trans same.1.symm) (key.symm.trans same.2.symm))) both
      · refine (List.map_congr_left fun x there => ?_).trans (List.map_id _)
        refine if_neg fun ids => ?_
        have both : x = r := pull.rows.eq_of_key_eq
          (looped.rows ▸ List.mem_append_right _ there) mem ids
        exact unlisted (same.2 ▸ both ▸ looped.listed there)

/-- Two loops make the same rows. -/
theorem looped_both (supplierId : ℕ) (keyed : Keyed copy) (keyed' : Keyed copy')
    (unique : (old.rows.map natural).Nodup) (items : List SupplierItem) :
    ∃ fresh, Looped sync copy supplierId old items fresh
        (items.foldl (sync.upsertWith copy supplierId) ⟨old, [], []⟩) ∧
      Looped sync copy' supplierId old items fresh
        (items.foldl (sync.upsertWith copy' supplierId) ⟨old, [], []⟩) := by
  induction items using List.reverseRecOn with
  | nil => exact ⟨[], .nil, .nil⟩
  | append_singleton items item ih =>
      obtain ⟨fresh, first, second⟩ := ih
      refine ⟨sync.grown supplierId old items fresh item, ?_, ?_⟩
      · rw [List.foldl_append]
        exact first.upsertWith keyed unique item
      · rw [List.foldl_append]
        exact second.upsertWith keyed' unique item

/-! ## What shows of them -/

theorem shown_miss (row : SupplierProduct) : shown (sync.miss row) = shown row := rfl

/-- The count of a missing row does not show. -/
theorem map_shown_missUnseen {done : List SupplierProduct}
    (there : ∀ o ∈ done, Misses supplierId pull o → shown o ∈ pull.rows.rows.map shown) :
    (sync.missUnseen supplierId done pull).rows.rows.map shown = pull.rows.rows.map shown := by
  induction done generalizing pull with
  | nil => rfl
  | cons o done ih =>
      have later : ∀ x ∈ done, Misses supplierId pull x → shown x ∈ pull.rows.rows.map shown :=
        fun x mem => there x (List.mem_cons_of_mem _ mem)
      unfold missUnseen
      rw [List.foldl_cons]
      split
      · exact ih later
      · rename_i counted
        rw [not_or, not_or, not_not, Bool.not_eq_false] at counted
        obtain ⟨row, mem, same⟩ := List.mem_map.mp (there o List.mem_cons_self counted)
        have id : row.id = (sync.miss o).id := (congrArg SupplierProduct.id same :)
        have kept : (pull.rows.save (sync.miss o)).rows.map shown = pull.rows.rows.map shown :=
          Table.map_save_of_mem mem id (same.trans (shown_miss o).symm)
        refine (ih ?_).trans kept
        dsimp only
        rw [kept]
        exact later

/-- The rows of a whole pull show what the loop made of them. -/
theorem Looped.shown_missed {fresh : List SupplierProduct}
    (looped : Looped sync copy supplierId old items fresh pull) :
    (sync.missUnseen supplierId old.rows pull).rows.rows.map shown =
      old.rows.map (fun row => shown (touched copy supplierId items row)) ++ fresh.map shown := by
  rw [map_shown_missUnseen, looped.rows, List.map_append, List.map_map]
  · rfl
  · rintro o mem ⟨own, unseen, -⟩
    rw [looped.rows]
    refine List.mem_map_of_mem (List.mem_append_left _ (List.mem_map.mpr ⟨o, mem, ?_⟩))
    exact touched_unlisted fun _ => fun known => unseen ((looped.seen _).mpr known)

/-- The code's pull is a loop that copies what has changed. -/
theorem Looped.upsert {fresh : List SupplierProduct}
    (looped : Looped sync sync.applyChanged supplierId old items fresh
      (items.foldl (sync.upsertWith sync.applyChanged supplierId) ⟨old, [], []⟩)) :
    Looped sync sync.applyChanged supplierId old items fresh
      (items.foldl (sync.upsert supplierId) ⟨old, [], []⟩) := by
  obtain ⟨rows, seen⟩ := foldl_upsert sync supplierId items
    (rfl : (⟨old, [], []⟩ : Pull).rows = _) rfl
  exact ⟨by rw [rows, looped.rows], by rw [seen]; exact looped.seen, looped.made⟩

/-- The two pulls show the same rows when they make the same of each row that was there. -/
theorem shown_pulledRows_iff (unique : (old.rows.map natural).Nodup) :
    (sync.pulledRows supplierId old items).map shown =
        (sync.alwaysRows supplierId old items).map shown ↔
      ∀ row ∈ old.rows, shown (touched sync.applyChanged supplierId items row) =
        shown (touched sync.apply supplierId items row) := by
  obtain ⟨fresh, changed, always⟩ := looped_both supplierId
    sync.keyed_applyChanged sync.keyed_apply unique items
  rw [pulledRows, alwaysRows, changed.upsert.shown_missed, always.shown_missed,
    List.append_left_inj, List.map_inj_left]

/-! ## What earlier pulls wrote -/

variable {sha256 : String → String} {decimal : String → ℚ}

/-- `str` writes the prices of a feed as decimals that read back. -/
def Reads (decimal : String → ℚ) (priceText : SupplierItem → String)
    (items : List SupplierItem) : Prop :=
  ∀ item ∈ items, decimal (priceText item) = item.price

/-- A row shows an item, and its hash is the item's. -/
def Written (sha256 : String → String) (decimal : String → ℚ) (sync : SupplierCatalogSync)
    (row : SupplierProduct) : Prop :=
  ∃ item : SupplierItem, ∃ text, decimal (text item) = item.price ∧
    row.contentHash = item.contentHash sha256 text ∧ shown row = shown (sync.apply row item)

theorem shown_apply_of_unicode {sync sync' : SupplierCatalogSync}
    (same : sync.unicode = sync'.unicode) (row : SupplierProduct) (item : SupplierItem) :
    shown (sync.apply row item) = shown (sync'.apply row item) := by
  simp only [apply, shown, same]

theorem shown_apply_of_shown {row row' : SupplierProduct} (same : shown row = shown row')
    (item : SupplierItem) : shown (sync.apply row item) = shown (sync.apply row' item) := by
  calc shown (sync.apply row item) = shown (sync.apply (shown row) item) := rfl
    _ = shown (sync.apply (shown row') item) := by rw [same]
    _ = shown (sync.apply row' item) := rfl

theorem Written.of_shown {row row' : SupplierProduct} (wrote : Written sha256 decimal sync row)
    (hash : row'.contentHash = row.contentHash) (same : shown row' = shown row) :
    Written sha256 decimal sync row' := by
  obtain ⟨item, text, reads, hashed, shows⟩ := wrote
  exact ⟨item, text, reads, hash.trans hashed,
    (same.trans shows).trans (shown_apply_of_shown same.symm item)⟩

/-- The supplier products after earlier pulls. -/
inductive Produced (sha256 : String → String) (decimal : String → ℚ) (unicode : Unicode) :
    Table SupplierProduct.id → Prop
  | empty : Produced sha256 decimal unicode (Table.empty _)
  | pull {db : Db} (before : Produced sha256 decimal unicode db.supplierProducts)
      (sync : SupplierCatalogSync) (sameUnicode : sync.unicode = unicode)
      (text : SupplierItem → String)
      (hash : sync.contentHash = SupplierItem.contentHash sha256 text) (now : Time)
      {items : List SupplierItem} (reads : Reads decimal text items) :
      Produced sha256 decimal unicode (sync.run db now items).1.supplierProducts

theorem written_taken {earlier : SupplierCatalogSync} {text : SupplierItem → String}
    (sameUnicode : earlier.unicode = sync.unicode)
    (hash : earlier.contentHash = SupplierItem.contentHash sha256 text)
    (reads : decimal (text item) = item.price) (row : SupplierProduct) :
    Written sha256 decimal sync (taken earlier.apply row item) :=
  ⟨item, text, reads, congrFun hash item, shown_apply_of_unicode sameUnicode row item⟩

/-- A pull leaves rows that show items. -/
theorem written_pulled {earlier : SupplierCatalogSync} {text : SupplierItem → String}
    (sameUnicode : earlier.unicode = sync.unicode)
    (hash : earlier.contentHash = SupplierItem.contentHash sha256 text)
    (reads : Reads decimal text items) (unique : (old.rows.map natural).Nodup)
    (wrote : ∀ row ∈ old.rows, Written sha256 decimal sync row) :
    ∀ row ∈ earlier.pulledRows supplierId old items, Written sha256 decimal sync row := by
  have pulled : Pulled supplierId old items _ := pulled_foldl earlier unique items
  have missed : Missed earlier supplierId _ old.rows _ := missed_missUnseen pulled.kept
  obtain ⟨fresh, looped, -⟩ := looped_both supplierId
    earlier.keyed_applyChanged earlier.keyed_apply unique items
  intro row mem
  rcases missed.rows row mem with ⟨o, there, -, rfl⟩ | ⟨mem, -⟩
  · exact (wrote o there).of_shown rfl rfl
  rw [looped.upsert.rows] at mem
  rcases List.mem_append.mp mem with mem | mem
  · obtain ⟨o, there, rfl⟩ := List.mem_map.mp mem
    unfold touched
    split
    · split
      · rename_i item found
        have listed := List.mem_of_find?_eq_some found
        unfold taken applyChanged
        split
        · exact written_taken sameUnicode hash (reads item listed) o
        · exact (wrote o there).of_shown rfl rfl
      · exact wrote o there
    · exact wrote o there
  · obtain ⟨item, listed, id, rfl⟩ := looped.made row mem
    exact written_taken sameUnicode hash (reads item listed) (newRow id supplierId item)

theorem pulledRows_natural (unique : (old.rows.map natural).Nodup) :
    ((sync.pulledRows supplierId old items).map natural).Nodup := by
  have pulled : Pulled supplierId old items _ := pulled_foldl sync unique items
  have missed : Missed sync supplierId _ old.rows _ := missed_missUnseen pulled.kept
  have naturals := congrArg (List.map Prod.snd) missed.identities
  rw [List.map_map, List.map_map] at naturals
  exact (naturals ▸ pulled.unique : (_ : List _).Nodup)

/-- Every row that earlier pulls left shows an item its hash tells. -/
theorem Produced.written {rows : Table SupplierProduct.id}
    (produced : Produced sha256 decimal sync.unicode rows) :
    (rows.rows.map natural).Nodup ∧ ∀ row ∈ rows.rows, Written sha256 decimal sync row := by
  induction produced with
  | empty => exact ⟨List.nodup_nil, fun row mem => absurd mem List.not_mem_nil⟩
  | pull before earlier sameUnicode text hash now reads ih =>
      exact ⟨pulledRows_natural ih.1, written_pulled sameUnicode hash reads ih.1 ih.2⟩

/-! ## What the hash leaves out -/

/-- A row with the hash of an item shows the item, but for two columns that may not. -/
theorem shown_of_sameHashed (collisionFree : Function.Injective sha256)
    {text : SupplierItem → String}
    (hash : sync.contentHash = SupplierItem.contentHash sha256 text)
    (reads : decimal (text item) = item.price) (wrote : Written sha256 decimal sync row)
    (same : row.contentHash = sync.contentHash item) :
    shown row = shown (sync.apply row item) ↔
      row.categoryName = item.categoryName ∧ row.regionRestricted = item.regionRestricted := by
  obtain ⟨item', text', reads', hashed, shows⟩ := wrote
  have agree : item'.SameHashed item := SupplierItem.sameHashed_of_contentHash collisionFree
    reads' reads (hashed.symm.trans (same.trans (congrFun hash item)))
  constructor
  · intro shows'
    exact ⟨(congrArg SupplierProduct.categoryName shows' :),
      (congrArg SupplierProduct.regionRestricted shows' :)⟩
  · intro found
    obtain ⟨category, restricted⟩ := found
    have category' : row.categoryName = item'.categoryName :=
      (congrArg SupplierProduct.categoryName shows :)
    have restricted' : row.regionRestricted = item'.regionRestricted :=
      (congrArg SupplierProduct.regionRestricted shows :)
    rw [shows]
    simp only [apply, shown, agree.name, agree.price, agree.currency, agree.stock, agree.region,
      agree.platform, agree.minOrderQuantity, agree.maxOrderQuantity, ← category', ← restricted',
      category, restricted]

/-- Which row is the same whether the item is copied into it or skipped. -/
theorem shown_touched_iff (collisionFree : Function.Injective sha256)
    {text : SupplierItem → String}
    (hash : sync.contentHash = SupplierItem.contentHash sha256 text)
    (reads : Reads decimal text items) (wrote : Written sha256 decimal sync row) :
    shown (touched sync.applyChanged supplierId items row) =
        shown (touched sync.apply supplierId items row) ↔
      (row.supplierId = supplierId →
        ∀ item, items.find? (fun item => item.key = row.key) = some item →
          row.contentHash = sync.contentHash item →
            row.categoryName = item.categoryName ∧
              row.regionRestricted = item.regionRestricted) := by
  unfold touched
  by_cases own : row.supplierId = supplierId
  · rw [if_pos own, if_pos own]
    cases found : items.find? fun item => item.key = row.key with
    | none => simp
    | some item =>
        have listed := List.mem_of_find?_eq_some found
        by_cases same : row.contentHash = sync.contentHash item
        · have skipped : sync.applyChanged row item = row := if_neg (not_not.mpr same)
          have kept : shown (taken sync.applyChanged row item) = shown row :=
            (congrArg shown skipped :)
          have either := shown_of_sameHashed collisionFree hash (reads item listed) wrote same
          constructor
          · intro shows _ first isFirst _
            rw [← Option.some.inj isFirst]
            exact either.mp (kept.symm.trans shows)
          · intro fields
            exact kept.trans (either.mpr (fields own item rfl same))
        · have applied : sync.applyChanged row item = sync.apply row item := if_pos same
          refine iff_of_true ?_ fun _ first isFirst equal => ?_
          · simp only [taken, applied]
          · exact absurd equal (Option.some.inj isFirst ▸ same)
  · rw [if_neg own, if_neg own]
    exact iff_of_true rfl fun theirs => absurd theirs own

/-- Skipping the rows whose hash has not changed leaves the columns of a pull that never skips,
exactly when every row with the hash of its item has the item's category name and region
restriction. -/
theorem skipping_converges_iff (collisionFree : Function.Injective sha256)
    {text : SupplierItem → String}
    (hash : sync.contentHash = SupplierItem.contentHash sha256 text)
    (reads : Reads decimal text items) {db : Db}
    (produced : Produced sha256 decimal sync.unicode db.supplierProducts) (now : Time) :
    (sync.run db now items).1.supplierProducts.rows.map shown =
        (sync.alwaysRows (sync.supplierIdOf db) db.supplierProducts items).map shown ↔
      ∀ row ∈ db.supplierProducts.rows, row.supplierId = sync.supplierIdOf db →
        ∀ item, items.find? (fun item => item.key = row.key) = some item →
          row.contentHash = sync.contentHash item →
            row.categoryName = item.categoryName ∧
              row.regionRestricted = item.regionRestricted := by
  obtain ⟨unique, wrote⟩ := produced.written
  have rows : (sync.run db now items).1.supplierProducts.rows =
      sync.pulledRows (sync.supplierIdOf db) db.supplierProducts items := rfl
  rw [rows, shown_pulledRows_iff unique]
  exact forall₂_congr fun row mem =>
    shown_touched_iff collisionFree hash reads (wrote row mem)

end SupplierCatalogSync

namespace EchoStore

open SupplierCatalogSync

/-- `str` of a whole price. -/
def wholeText (item : SupplierItem) : String := item.price.num.repr

def wholeDecimal (text : String) : ℚ := (text.toInt?.getD 0 : ℤ)

theorem wholeText_reads {item : SupplierItem} (whole : item.price.den = 1) :
    wholeDecimal (wholeText item) = item.price := by
  rw [wholeDecimal, wholeText, Int.toInt?_repr]
  exact Rat.den_eq_one_iff _ |>.mp whole

/-- The supplier's pull, on titles in ASCII; the digest is the text itself. -/
def plainSync : SupplierCatalogSync where
  settings := .default
  unicode := .ascii
  code := "fazercards"
  contentHash := SupplierItem.contentHash id wholeText

/-- A game key whose region restriction the supplier states only in its second feed. -/
def unrestricted : SupplierItem := sampleItem 1 "Portal"

def restricted : SupplierItem := { unrestricted with regionRestricted := true }

def pulledUnrestricted : Db := (plainSync.run emptyDb 0 [unrestricted]).1

theorem produced_unrestricted :
    Produced id wholeDecimal plainSync.unicode pulledUnrestricted.supplierProducts := by
  refine .pull .empty plainSync rfl wholeText rfl 0 fun item mem => ?_
  rw [List.mem_singleton.mp mem]
  exact wholeText_reads rfl

def games : List SupplierItem := [unrestricted, sampleItem 2 "Hades", sampleItem 3 "Celeste"]

def repriced : SupplierItem := { sampleItem 2 "Hades" with price := 12 }

/-- One game is the same as before, one costs more, one is gone and one is new. -/
def gamesLater : List SupplierItem := [unrestricted, repriced, sampleItem 4 "Gris"]

theorem games_read : Reads wholeDecimal wholeText games := by
  have whole : ∀ item ∈ games, item.price.den = 1 := by decide +kernel
  exact fun item mem => wholeText_reads (whole item mem)

theorem gamesLater_read : Reads wholeDecimal wholeText gamesLater := by
  have whole : ∀ item ∈ gamesLater, item.price.den = 1 := by decide +kernel
  exact fun item mem => wholeText_reads (whole item mem)

def pulledGames : Db := (plainSync.run emptyDb 0 games).1

theorem produced_games :
    Produced id wholeDecimal plainSync.unicode pulledGames.supplierProducts :=
  .pull .empty plainSync rfl wholeText rfl 0 games_read

/-- Four rows are left, one of them skipped and one rewritten. -/
theorem skipping_later_feed :
    (plainSync.run pulledGames 1 gamesLater).1.supplierProducts.rows.map (·.priceSupplier) =
      [10, 12, 10, 10] ∧
    (plainSync.run pulledGames 1 gamesLater).1.supplierProducts.rows.map shown =
      (plainSync.alwaysRows (plainSync.supplierIdOf pulledGames)
        pulledGames.supplierProducts gamesLater).map shown :=
  ⟨by decide +kernel, (skipping_converges_iff Function.injective_id rfl gamesLater_read
    produced_games 1).mpr (by decide +kernel)⟩

/-- The restriction that comes later is not stored. -/
theorem skipping_keeps_stale :
    Produced id wholeDecimal plainSync.unicode pulledUnrestricted.supplierProducts ∧
      (plainSync.run pulledUnrestricted 1 [restricted]).1.supplierProducts.rows.map shown ≠
        (plainSync.alwaysRows (plainSync.supplierIdOf pulledUnrestricted)
          pulledUnrestricted.supplierProducts [restricted]).map shown :=
  ⟨produced_unrestricted, by decide +kernel⟩

end EchoStore

end FazerBridge
