import FazerBridge.Lib.KeyedFeed
import FazerBridge.Recorder

/-!
# The mirrored store catalogue

A crawl upserts its feed into `store_products`: the last item of each product is the row
of the product afterwards, a known product keeps its id, and every other row stays.  Its
session leaves exactly that, or the database as it was (`store_crawl`).

The routine pass of the worker only asks for what changed in the last 26 hours.  As long
as no two successful passes are further apart than that, they keep the mirror as fresh as
full crawls would, whatever else the service does in between (`mirror_fresh`).
-/

namespace FazerBridge

namespace StoreCatalogSync

variable {sync : StoreCatalogSync} {table : Table StoreProduct.id} {item : StoreCatalogItem}
  {p : String} {stats : Stats}

/-- Rows of one product of a store are one row. -/
def Keyed (table : Table StoreProduct.id) : Prop :=
  table.rows.Pairwise fun p q => ¬ SameIdentity p q

/-- The row of a product of the store. -/
def rowOf (sync : StoreCatalogSync) (table : Table StoreProduct.id) (productExtId : String) :
    Option StoreProduct :=
  table.rows.find? fun row => row.storeCode = sync.storeCode ∧ row.productExtId = productExtId

theorem sameIdentity_symm {a b : StoreProduct} (same : SameIdentity a b) : SameIdentity b a :=
  ⟨same.1.symm, same.2.symm⟩

/-- A product of a store has one row. -/
theorem Keyed.eq {a b : StoreProduct} (keyed : Keyed table) (ha : a ∈ table.rows)
    (hb : b ∈ table.rows) (same : SameIdentity a b) : a = b := by
  have : Std.Symm fun a b => ¬ SameIdentity a b := ⟨fun _ _ h h' => h (sameIdentity_symm h')⟩
  by_contra other
  exact List.Pairwise.forall keyed ha hb other same

/-- A table without two rows of one product is keyed. -/
theorem keyed_of_eq (unique : ∀ a ∈ table.rows, ∀ b ∈ table.rows, SameIdentity a b → a = b) :
    Keyed table :=
  table.nodup_rows.pairwise_of_forall_ne fun a ha b hb ne same => ne (unique a ha b hb same)

/-- The row that is found is the one of the product. -/
theorem rowOf_eq_some_iff (keyed : Keyed table) {row : StoreProduct} :
    sync.rowOf table p = some row ↔
      row ∈ table.rows ∧ row.storeCode = sync.storeCode ∧ row.productExtId = p := by
  constructor
  · intro found
    exact ⟨List.mem_of_find?_eq_some found, by simpa using List.find?_some found⟩
  · intro found
    obtain ⟨mem, code, product⟩ := found
    cases found : sync.rowOf table p with
    | none => simpa [code, product] using List.find?_eq_none.mp found row mem
    | some other =>
        have mem' := List.mem_of_find?_eq_some found
        have own : other.storeCode = sync.storeCode ∧ other.productExtId = p := by
          simpa using List.find?_some found
        rw [keyed.eq mem' mem ⟨own.1.trans code.symm, own.2.trans product.symm⟩]

/-! ## One item -/

/-- Writing the row of a product under an id of its own. -/
theorem keyed_save (keyed : Keyed table) {id : ℕ}
    (free : ∀ row ∈ table.rows, row.id ≠ id →
      ¬ (row.storeCode = sync.storeCode ∧ row.productExtId = item.productExtId)) :
    Keyed (table.save (sync.apply id item)) := by
  refine keyed_of_eq fun a ha b hb same => ?_
  rcases Table.mem_save.mp ha with rfl | ⟨oldA, otherA⟩ <;>
    rcases Table.mem_save.mp hb with rfl | ⟨oldB, otherB⟩
  · rfl
  · exact absurd ⟨same.1.symm, same.2.symm⟩ (free b oldB otherB)
  · exact absurd same (free a oldA otherA)
  · exact keyed.eq oldA oldB same

/-- Saving the row of a product changes what is found of that product alone. -/
theorem rowOf_save (keyed : Keyed table) {id : ℕ}
    (free : ∀ row ∈ table.rows, row.id ≠ id →
      ¬ (row.storeCode = sync.storeCode ∧ row.productExtId = item.productExtId))
    (own : ∀ row ∈ table.rows, row.id = id →
      row.storeCode = sync.storeCode ∧ row.productExtId = item.productExtId) (p : String) :
    sync.rowOf (table.save (sync.apply id item)) p =
      if item.productExtId = p then some (sync.apply id item) else sync.rowOf table p := by
  have after := keyed_save keyed free
  by_cases same : item.productExtId = p
  · rw [if_pos same]
    exact (rowOf_eq_some_iff after).mpr ⟨Table.mem_save.mpr (.inl rfl), rfl, same⟩
  · rw [if_neg same]
    ext row
    rw [rowOf_eq_some_iff after, rowOf_eq_some_iff keyed, Table.mem_save]
    constructor
    · intro found
      obtain ⟨rfl | ⟨old, -⟩, code, product⟩ := found
      · exact absurd product same
      · exact ⟨old, code, product⟩
    · intro found
      obtain ⟨old, code, product⟩ := found
      refine ⟨.inr ⟨old, fun clash => same ?_⟩, code, product⟩
      exact (own row old clash).2.symm.trans product

/-- What a part of a crawl does to the table. -/
structure Crawled (sync : StoreCatalogSync) (items : List StoreCatalogItem)
    (table table' : Table StoreProduct.id) : Prop where
  keyed : Keyed table'
  /-- the last item of a product is its row, under the id it had -/
  listed : ∀ {p item}, KeyedFeed.last StoreCatalogItem.productExtId items p = some item →
    ∃ id, sync.rowOf table' p = some (sync.apply id item) ∧
      ∀ row, sync.rowOf table p = some row → row.id = id
  unlisted : ∀ {p}, KeyedFeed.last StoreCatalogItem.productExtId items p = none →
    sync.rowOf table' p = sync.rowOf table p
  /-- rows of other stores stay -/
  apart : ∀ row, row.storeCode ≠ sync.storeCode → (row ∈ table'.rows ↔ row ∈ table.rows)
  grows : table.rows.length ≤ table'.rows.length

/-- An item is its row afterwards, and is counted as created or as updated. -/
theorem upsert_crawled (keyed : Keyed table) (item : StoreCatalogItem) (stats : Stats) :
    sync.Crawled [item] table (sync.upsert (table, stats) item).1 ∧
      ((sync.upsert (table, stats) item).2 = stats.bump .updated 1 ∧
          (sync.upsert (table, stats) item).1.rows.length = table.rows.length ∨
        (sync.upsert (table, stats) item).2 = stats.bump .created 1 ∧
          (sync.upsert (table, stats) item).1.rows.length = table.rows.length + 1) := by
  -- both branches write the row of the product
  have written : ∀ id, (∀ row ∈ table.rows, row.id ≠ id →
        ¬ (row.storeCode = sync.storeCode ∧ row.productExtId = item.productExtId)) →
      (∀ row ∈ table.rows, row.id = id →
        row.storeCode = sync.storeCode ∧ row.productExtId = item.productExtId) →
      table.rows.length ≤ (table.save (sync.apply id item)).rows.length →
      sync.Crawled [item] table (table.save (sync.apply id item)) := by
    intro id free own longer
    have rows := rowOf_save keyed free own
    refine ⟨keyed_save keyed free, fun {p found} last => ?_, fun {p} last => ?_, fun row other => ?_,
      longer⟩
    · obtain ⟨mem, product⟩ := KeyedFeed.mem_of_last last
      obtain rfl := List.mem_singleton.mp mem
      refine ⟨id, by rw [rows, if_pos product], fun row found => ?_⟩
      obtain ⟨there, code, product'⟩ := (rowOf_eq_some_iff keyed).mp found
      by_contra clash
      exact free row there clash ⟨code, product'.trans product.symm⟩
    · rw [rows, if_neg (KeyedFeed.last_eq_none_iff.mp last item List.mem_cons_self)]
    · rw [Table.mem_save]
      constructor
      · intro either
        rcases either with rfl | ⟨old, -⟩
        · exact absurd rfl other
        · exact old
      · exact fun old => .inr ⟨old, fun clash => other (own row old clash).1⟩
  unfold upsert
  cases found : table.rows.find? fun row =>
      row.storeCode = sync.storeCode ∧ row.productExtId = item.productExtId with
  | some row =>
      have mem := List.mem_of_find?_eq_some found
      have own : row.storeCode = sync.storeCode ∧ row.productExtId = item.productExtId := by
        simpa using List.find?_some found
      have size : (table.save (sync.apply row.id item)).rows.length = table.rows.length := by
        rw [Table.rows_save_of_mem mem (show row.id = (sync.apply row.id item).id from rfl),
          Table.overwrite, List.length_map]
      refine ⟨written row.id (fun other there clash same => ?_) (fun other there same => ?_) size.ge,
        .inl ⟨rfl, size⟩⟩
      · exact clash (congrArg _
          (keyed.eq there mem ⟨same.1.trans own.1.symm, same.2.trans own.2.symm⟩))
      · rw [table.eq_of_key_eq there mem same]
        exact own
  | none =>
      have absent : ∀ row ∈ table.rows, row.id ≠ (table.rows.map StoreProduct.id).foldr max 0 + 1 :=
        fun row there => (Table.lt_foldr_max (List.mem_map_of_mem there)).ne
      have size : (table.save
          (sync.apply ((table.rows.map StoreProduct.id).foldr max 0 + 1) item)).rows.length =
          table.rows.length + 1 := by
        rw [Table.rows_save_of_not_mem absent, List.length_append, List.length_singleton]
      refine ⟨written _ (fun other there _ same => ?_) (fun other there same => ?_)
        (by rw [size]; exact Nat.le_succ _), .inr ⟨rfl, size⟩⟩
      · simpa [same] using List.find?_eq_none.mp found other there
      · exact absurd same (absent other there)

/-! ## A crawl -/

theorem Crawled.refl (keyed : Keyed table) : sync.Crawled [] table table where
  keyed := keyed
  listed found := by cases found
  unlisted _ := rfl
  apart _ _ := Iff.rfl
  grows := le_rfl

/-- One part of a feed is crawled after the other. -/
theorem Crawled.trans {first second : List StoreCatalogItem} {table' table'' : Table StoreProduct.id}
    (before : sync.Crawled first table table') (after : sync.Crawled second table' table'') :
    sync.Crawled (first ++ second) table table'' where
  keyed := after.keyed
  listed {p item} found := by
    rw [KeyedFeed.last_append] at found
    cases later : KeyedFeed.last StoreCatalogItem.productExtId second p with
    | some other =>
        rw [later] at found
        cases found
        obtain ⟨id, row, kept⟩ := after.listed later
        refine ⟨id, row, fun old there => ?_⟩
        cases earlier : KeyedFeed.last StoreCatalogItem.productExtId first p with
        | some item' =>
            obtain ⟨id', row', kept'⟩ := before.listed earlier
            exact (kept' old there).trans (kept _ row')
        | none => exact kept old ((before.unlisted earlier).trans there)
    | none =>
        rw [later] at found
        obtain ⟨id, row, kept⟩ := before.listed found
        exact ⟨id, (after.unlisted later).trans row, kept⟩
  unlisted {p} none_ := by
    rw [KeyedFeed.last_append, Option.or_eq_none_iff] at none_
    exact (after.unlisted none_.1).trans (before.unlisted none_.2)
  apart row other := (after.apart row other).trans (before.apart row other)
  grows := before.grows.trans after.grows

/-- The items of a crawl: each one is counted, and a created one is a new row. -/
theorem foldl_crawled (items : List StoreCatalogItem) (keyed : Keyed table) (stats : Stats) :
    sync.Crawled items table (items.foldl sync.upsert (table, stats)).1 ∧
      (items.foldl sync.upsert (table, stats)).2.get .created + table.rows.length =
        stats.get .created + (items.foldl sync.upsert (table, stats)).1.rows.length ∧
      (items.foldl sync.upsert (table, stats)).2.get .created +
          (items.foldl sync.upsert (table, stats)).2.get .updated =
        stats.get .created + stats.get .updated + items.length := by
  induction items generalizing table stats with
  | nil => exact ⟨.refl keyed, rfl, rfl⟩
  | cons item rest ih =>
      obtain ⟨first, counted⟩ := upsert_crawled keyed item stats
      obtain ⟨later, created, all⟩ := ih first.keyed (sync.upsert (table, stats) item).2
      rw [Prod.mk.eta] at later created all
      rw [List.foldl_cons, List.length_cons]
      generalize sync.upsert (table, stats) item = next at *
      have stepC : next.2.get .created + table.rows.length =
          stats.get .created + next.1.rows.length := by
        rcases counted with ⟨bumped, size⟩ | ⟨bumped, size⟩
        · rw [bumped, size, Stats.get_bump, if_neg (by decide), Nat.add_zero]
        · rw [bumped, size, Stats.get_bump, if_pos rfl]
          omega
      have stepU : next.2.get .created + next.2.get .updated =
          stats.get .created + stats.get .updated + 1 := by
        rcases counted with ⟨bumped, -⟩ | ⟨bumped, -⟩
        · rw [bumped, Stats.get_bump, Stats.get_bump, if_neg (by decide), if_pos rfl]
          omega
        · rw [bumped, Stats.get_bump, Stats.get_bump, if_pos rfl, if_neg (by decide)]
          omega
      refine ⟨first.trans later, ?_, ?_⟩ <;> omega

/-- A crawl that returns crawled its whole feed, and counted every item. -/
theorem run_crawled {db db' : Db} {now : Time} {items : List StoreCatalogItem}
    (ran : sync.run db now items = .ok (db', stats)) :
    sync.Crawled items db.storeProducts.table db'.storeProducts.table ∧
      stats.get .created + stats.get .updated = items.length ∧
      db'.storeProducts.rows.length = db.storeProducts.rows.length + stats.get .created := by
  obtain ⟨crawled, created, all⟩ := foldl_crawled items
    db.storeProducts.identityUnique []
  unfold run at ran
  generalize items.foldl sync.upsert (db.storeProducts.table, []) = crawl at *
  dsimp only at ran
  rw [StoreProducts.flush, dif_pos (show List.Pairwise _ crawl.1.rows from crawled.keyed)] at ran
  cases ran
  refine ⟨crawled, ?_, ?_⟩
  · rw [all]
    exact Nat.zero_add _
  · exact (Nat.zero_add _).symm.trans (created.symm.trans (Nat.add_comm _ _))

end StoreCatalogSync

/-! ## Its session -/

open Prog
open OfferSync (Session Left)

namespace Service

variable {W : Type} {service : Service W} {sync : StoreCatalogSync} {t u : Session W}

/-- The unique constraint of the mirror never stops a crawl. -/
theorem flush_upsert (sync : StoreCatalogSync) (products : StoreProducts) (stats : Stats)
    (item : StoreCatalogItem) :
    ∃ keyed, StoreProducts.flush (sync.upsert (products.table, stats) item).1 =
      .ok ⟨(sync.upsert (products.table, stats) item).1, keyed⟩ :=
  have keyed := (StoreCatalogSync.upsert_crawled products.identityUnique item stats).1.keyed
  ⟨keyed, dif_pos keyed⟩

/-- The loop that returns has applied every item. -/
theorem storeItems_returns {items : List StoreCatalogItem}
    (run : (service.storeItems sync items).Runs t (.ok ()) u) :
    u.db = { t.db with storeProducts := u.db.storeProducts } ∧
      (u.db.storeProducts.table, u.stats) =
        items.foldl sync.upsert (t.db.storeProducts.table, t.stats) := by
  induction items generalizing t with
  | nil =>
      obtain ⟨-, rfl⟩ := runs_pure.mp run
      exact ⟨rfl, rfl⟩
  | cons item rest ih =>
      rcases runs_bind.mp run with ⟨⟨⟩, m, flushed, run⟩ | ⟨_, -, same⟩
      · have opened := (OfferSync.quiet_flushSession flushed).2
        subst opened
        rcases runs_bind.mp run with ⟨⟨⟩, n, wrote, run⟩ | ⟨_, -, same⟩
        · obtain ⟨keyed, fits⟩ : ∃ keyed, _ = Except.ok (StoreProducts.mk _ keyed) :=
            flush_upsert sync t.db.storeProducts t.stats item
          rw [runs_ofState] at wrote
          dsimp only at wrote
          rw [fits] at wrote
          cases wrote
          obtain ⟨only, folded⟩ := ih run
          exact ⟨only, folded⟩
        · cases same
      · cases same

/-- The block that returns has read a feed that did not raise. -/
theorem storeBlock_returns {feed : Feed StoreCatalogItem}
    (run : (service.storeBlock feed).Runs t (.ok ()) u) :
    feed.raised = none ∧ u.db = { t.db with storeProducts := u.db.storeProducts } ∧
      (u.db.storeProducts.table, u.stats) =
        feed.items.foldl service.storeCatalog.upsert (t.db.storeProducts.table, t.stats) := by
  rcases runs_bind.mp run with ⟨⟨⟩, m, listed, run⟩ | ⟨_, -, same⟩
  · rcases runs_bind.mp run with ⟨⟨⟩, n, ended, flushed⟩ | ⟨_, -, same⟩
    · obtain ⟨only, folded⟩ := storeItems_returns listed
      unfold raiseIf at ended
      split at ended
      · cases (runs_throw.mp ended).1
      · rename_i unraised
        obtain ⟨-, rfl⟩ := runs_pure.mp ended
        rw [(OfferSync.quiet_flushSession flushed).2]
        exact ⟨unraised, only, folded⟩
    · cases same
  · cases same

/-- What `StoreCatalogSync.run` computes is what its session commits. -/
theorem storeSession_returns {feed : Feed StoreCatalogItem} {bridge : Bridge W} {stats : Stats}
    (returned : (service.runJob (.storeCatalogue feed) bridge).result = .ok stats) :
    feed.raised = none ∧ ∃ now, service.storeCatalog.run bridge.db now feed.items =
      .ok ((service.runJob (.storeCatalogue feed) bridge).db, stats) := by
  obtain ⟨u, run, left⟩ := sessionScope_returns returned
  rw [show (service.runJob (.storeCatalogue feed) bridge).db = u.db from left]
  rcases runs_bind.mp run with ⟨⟨⟩, t, entered, rest⟩ | ⟨_, -, same⟩
  · rw [runs_get_bind] at rest
    rcases runs_bind.mp rest with ⟨stats', v, recorded, rest⟩ | ⟨_, -, same⟩
    · obtain ⟨x, y, opened, ran, rfl, written⟩ := OfferSync.recorded_returns recorded
      rcases runs_bind.mp rest with ⟨⟨⟩, v', done, rest⟩ | ⟨_, -, same⟩
      · obtain ⟨-, rfl⟩ := runs_pure.mp done
        obtain ⟨same, rfl⟩ := runs_pure.mp rest
        cases same
        obtain ⟨-, rfl⟩ := runs_pure.mp entered
        obtain ⟨unraised, only, folded⟩ := storeBlock_returns ran
        rw [(OfferSync.quiet_flushSession opened).2] at only folded
        refine ⟨unraised, service.offers.now y.world, ?_⟩
        unfold StoreCatalogSync.run
        rw [show feed.items.foldl service.storeCatalog.upsert (bridge.db.storeProducts.table, []) = _
          from folded.symm]
        dsimp only
        rw [StoreProducts.flush, dif_pos y.db.storeProducts.identityUnique, written, only]
        rfl
      · cases same
    · cases same
  · cases same

/-- A crawl that its session commits: the feed ended by itself, the last item of each product
is its row, under the id it had, every other row is as it was, each item is counted, and
each created one is a new row.  Any other session leaves the database as it was. -/
theorem store_crawl (service : Service W) (bridge : Bridge W) (feed : Feed StoreCatalogItem) :
    let left := service.runJob (.storeCatalogue feed) bridge
    (∀ e, left.result = .error e → left.db = bridge.db) ∧
    ∀ stats, left.result = .ok stats →
      feed.raised = none ∧
      (∃ now, service.storeCatalog.run bridge.db now feed.items = .ok (left.db, stats)) ∧
      service.storeCatalog.Crawled feed.items bridge.db.storeProducts.table
        left.db.storeProducts.table ∧
      stats.get .created + stats.get .updated = feed.items.length ∧
      left.db.storeProducts.rows.length =
        bridge.db.storeProducts.rows.length + stats.get .created := by
  refine ⟨fun e raised => sessionScope_failed raised, fun stats returned => ?_⟩
  obtain ⟨unraised, now, ran⟩ := storeSession_returns returned
  refine ⟨unraised, ⟨now, ran⟩, ?_⟩
  exact StoreCatalogSync.run_crawled ran

end Service

end FazerBridge
