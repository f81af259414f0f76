import FazerBridge.Lib.Runs
import FazerBridge.Recorder

/-!
# How long a product has been missing

`missing_runs` and `is_active` of a supplier product are functions of the feeds
pulled so far (`Mirrors`): the counter is the number of latest pulls without the
product, up to the limit, and the product is active below the limit.  A pull
upserts its feed (`Pulled`) and then counts the rows it did not see (`Missed`);
an aborted pull is rolled back.
-/

namespace FazerBridge

namespace SupplierCatalogSync

/-- The latest pulls, newest first, whose feed lacks the key. -/
def absent (pulls : List (List SupplierItem)) (key : ItemKey) : ℕ :=
  (pulls.takeWhile fun items => key ∉ items.map SupplierItem.key).length

/-- One more pull ends the absence of a key that it lists, and makes that of another longer. -/
theorem absent_cons (items : List SupplierItem) (pulls : List (List SupplierItem)) (key : ItemKey) :
    absent (items :: pulls) key =
      if key ∈ items.map SupplierItem.key then 0 else absent pulls key + 1 := by
  unfold absent
  rw [List.takeWhile_cons]
  by_cases listed : key ∈ items.map SupplierItem.key <;> simp [listed]

/-- What `UNIQUE(supplier_id, kind, category_ext_id, offer_ext_id)` is about. -/
def natural (row : SupplierProduct) : ℕ × ItemKey := (row.supplierId, row.key)

/-- What no pull changes about a row. -/
def identity (row : SupplierProduct) : ℕ × ℕ × ItemKey := (row.id, natural row)

variable {sync : SupplierCatalogSync} {supplierId : ℕ} {pull : Pull} {item : SupplierItem}

/-! ## One item -/

/-- A pull takes an item it has not seen into the one row of its key. -/
structure Takes (supplierId : ℕ) (pull : Pull) (item : SupplierItem) (row : SupplierProduct) :
    Prop where
  natural : natural row = (supplierId, item.key)
  present : row.missingRuns = 0 ∧ row.isActive = true
  place : (∀ r ∈ pull.rows.rows, r.id ≠ row.id ∧ SupplierCatalogSync.natural r ≠
      (supplierId, item.key)) ∨
    ∃ r ∈ pull.rows.rows, identity r = identity row

theorem lt_nextId {rows : List SupplierProduct} {row : SupplierProduct} (mem : row ∈ rows) :
    row.id < nextId rows :=
  Table.lt_foldr_max (List.mem_map_of_mem mem)

/-- An item seen before is skipped; another one is written to its row, or to a new one. -/
theorem upsert_cases (sync : SupplierCatalogSync) (supplierId : ℕ) (pull : Pull)
    (item : SupplierItem) :
    (item.key ∈ pull.seen ∧ (sync.upsert supplierId pull item).rows = pull.rows ∧
        (sync.upsert supplierId pull item).seen = pull.seen) ∨
      item.key ∉ pull.seen ∧
        (sync.upsert supplierId pull item).seen = item.key :: pull.seen ∧
        ∃ row, (sync.upsert supplierId pull item).rows = pull.rows.save row ∧
          Takes supplierId pull item row := by
  unfold upsert
  split
  · exact .inl ⟨‹_›, rfl, rfl⟩
  · refine .inr ⟨‹_›, ?_⟩
    split
    · rename_i missing
      refine ⟨rfl, _, rfl, rfl, ⟨rfl, rfl⟩, .inl fun r mem => ⟨(lt_nextId mem).ne, fun same => ?_⟩⟩
      have other := List.find?_eq_none.mp missing r mem
      rw [natural, Prod.mk.injEq] at same
      simp [same.1, same.2] at other
    · rename_i row found
      have mem := List.mem_of_find?_eq_some found
      have same := List.find?_some found
      simp only [decide_eq_true_eq] at same
      refine ⟨rfl, _, rfl, ?_, ⟨rfl, rfl⟩, .inr ⟨row, mem, ?_⟩⟩
      · split <;> exact Prod.ext same.1 same.2
      · split <;> rfl

/-! ## The items of a feed -/

/-- The rows of a pull that has gone through `items`. -/
structure Pulled (supplierId : ℕ) (old : Table SupplierProduct.id) (items : List SupplierItem)
    (pull : Pull) : Prop where
  unique : (pull.rows.rows.map natural).Nodup
  kept : ∀ row ∈ old.rows, ∃ row' ∈ pull.rows.rows, identity row' = identity row
  seen : ∀ key, key ∈ pull.seen ↔ key ∈ items.map SupplierItem.key
  present : ∀ row ∈ pull.rows.rows, row.supplierId = supplierId → row.key ∈ pull.seen →
    row.missingRuns = 0 ∧ row.isActive = true
  untouched : ∀ row ∈ pull.rows.rows, row.supplierId = supplierId → row.key ∉ pull.seen →
    row ∈ old.rows

/-- Before its first item a pull has changed nothing. -/
theorem Pulled.nil {old : Table SupplierProduct.id} (unique : (old.rows.map natural).Nodup) :
    Pulled supplierId old [] ⟨old, [], []⟩ where
  unique := unique
  kept row mem := ⟨row, mem, rfl⟩
  seen key := by simp
  present row mem own seen := absurd seen List.not_mem_nil
  untouched row mem own unseen := mem

/-- An item keeps the account of the pull. -/
theorem Pulled.upsert {old : Table SupplierProduct.id} {items : List SupplierItem}
    (pulled : Pulled supplierId old items pull) (item : SupplierItem) :
    Pulled supplierId old (items ++ [item]) (sync.upsert supplierId pull item) := by
  have listed : ∀ key, key ∈ (items ++ [item]).map SupplierItem.key ↔
      key = item.key ∨ key ∈ pull.seen := by
    intro key
    rw [pulled.seen key, List.map_append, List.mem_append, or_comm]
    simp
  rcases upsert_cases sync supplierId pull item with
    ⟨known, rows, seen⟩ | ⟨-, seen, row, rows, takes⟩
  · refine ⟨rows ▸ pulled.unique, rows ▸ pulled.kept, fun key => ?_, ?_, ?_⟩
    · rw [seen, listed]
      exact ⟨.inr, fun h => h.elim (fun same => same ▸ known) id⟩
    · rw [rows, seen]
      exact pulled.present
    · rw [rows, seen]
      exact pulled.untouched
  · refine ⟨?_, ?_, fun key => ?_, ?_, ?_⟩
    · rw [rows]
      refine Table.nodup_map_save pulled.unique fun b mem other same => ?_
      rcases takes.place with free | ⟨r, there, ident⟩
      · exact (free b mem).2 (same.trans takes.natural)
      · rw [identity, identity, Prod.mk.injEq] at ident
        have both : b = r := List.inj_on_of_nodup_map pulled.unique mem there
          (same.trans ident.2.symm)
        exact other (both ▸ ident.1)
    · rw [rows]
      intro o mem
      obtain ⟨o', there, ident⟩ := pulled.kept o mem
      by_cases sameId : o'.id = row.id
      · rcases takes.place with free | ⟨r, written, same⟩
        · exact absurd sameId (free o' there).1
        · refine ⟨row, Table.mem_save.mpr (.inl rfl), ?_⟩
          rw [identity, identity, Prod.mk.injEq] at same
          rw [← ident, pull.rows.eq_of_key_eq there written (sameId.trans same.1.symm)]
          exact (Prod.ext same.1 same.2).symm
      · exact ⟨o', Table.mem_save.mpr (.inr ⟨there, sameId⟩), ident⟩
    · rw [seen, listed, List.mem_cons]
    · rw [rows, seen]
      intro r mem own known
      rcases Table.mem_save.mp mem with rfl | ⟨mem, other⟩
      · exact takes.present
      · refine pulled.present r mem own ((List.mem_cons.mp known).resolve_left fun same => ?_)
        rcases takes.place with free | ⟨b, there, ident⟩
        · exact (free r mem).2 (Prod.ext own same)
        · rw [identity, identity, Prod.mk.injEq] at ident
          have both : r = b := List.inj_on_of_nodup_map pulled.unique mem there
            ((Prod.ext own same : natural r = (supplierId, item.key)).trans
              (takes.natural.symm.trans ident.2.symm))
          exact other (both ▸ ident.1)
    · rw [rows, seen]
      intro r mem own unseen
      rw [List.mem_cons, not_or] at unseen
      rcases Table.mem_save.mp mem with rfl | ⟨mem, -⟩
      · exact absurd (congrArg Prod.snd takes.natural) unseen.1
      · exact pulled.untouched r mem own unseen.2

/-- The account holds for the whole feed. -/
theorem pulled_foldl (sync : SupplierCatalogSync) {old : Table SupplierProduct.id}
    (unique : (old.rows.map natural).Nodup)
    (items : List SupplierItem) :
    Pulled supplierId old items (items.foldl (sync.upsert supplierId) ⟨old, [], []⟩) := by
  induction items using List.reverseRecOn with
  | nil => exact .nil unique
  | append_singleton items item ih =>
      rw [List.foldl_append]
      exact ih.upsert item

/-! ## The rows a pull did not see -/

/-- A row counted as missing. -/
def Misses (supplierId : ℕ) (pull : Pull) (row : SupplierProduct) : Prop :=
  row.supplierId = supplierId ∧ row.key ∉ pull.seen ∧ row.isActive = true

/-- The rows after those of `done` were gone through. -/
structure Missed (sync : SupplierCatalogSync) (supplierId : ℕ) (pull : Pull)
    (done : List SupplierProduct) (pull' : Pull) : Prop where
  seen : pull'.seen = pull.seen
  identities : pull'.rows.rows.map identity = pull.rows.rows.map identity
  rows : ∀ row ∈ pull'.rows.rows,
    (∃ o ∈ done, Misses supplierId pull o ∧ row = sync.miss o) ∨
      row ∈ pull.rows.rows ∧ ∀ o ∈ done, Misses supplierId pull o → o.id ≠ row.id

/-- The pass after the feed counts one more miss for exactly the rows that were not seen. -/
theorem missed_missUnseen {done : List SupplierProduct}
    (there : ∀ o ∈ done, ∃ row ∈ pull.rows.rows, identity row = identity o) :
    Missed sync supplierId pull done (sync.missUnseen supplierId done pull) := by
  induction done using List.reverseRecOn with
  | nil => exact ⟨rfl, rfl, fun row mem => .inr ⟨mem, nofun⟩⟩
  | append_singleton done o ih =>
      have before := ih fun x mem => there x (List.mem_append_left _ mem)
      have step : sync.missUnseen supplierId (done ++ [o]) pull =
          if o.supplierId ≠ supplierId ∨
              o.key ∈ (sync.missUnseen supplierId done pull).seen ∨ o.isActive = false then
            sync.missUnseen supplierId done pull
          else
            { sync.missUnseen supplierId done pull with
              rows := (sync.missUnseen supplierId done pull).rows.save (sync.miss o)
              stats := (sync.missUnseen supplierId done pull).stats.bump
                (if (sync.miss o).isActive then .missingGrace else .deactivated) 1 } := by
        unfold missUnseen
        rw [List.foldl_append]
        rfl
      rw [step, before.seen]
      split
      · rename_i passed
        have passes : ¬ Misses supplierId pull o := by
          intro found
          obtain ⟨own, unseen, active⟩ := found
          rcases passed with other | seen | inactive
          · exact other own
          · exact unseen seen
          · rw [active] at inactive
            cases inactive
        refine ⟨before.seen, before.identities, fun row mem => ?_⟩
        rcases before.rows row mem with ⟨x, done, missed⟩ | ⟨mem, others⟩
        · exact .inl ⟨x, List.mem_append_left _ done, missed⟩
        · refine .inr ⟨mem, fun x isDone misses => ?_⟩
          rcases List.mem_append.mp isDone with isDone | same
          · exact others x isDone misses
          · exact absurd (List.mem_singleton.mp same ▸ misses) passes
      · rename_i passed
        rw [not_or, not_or, not_not, Bool.not_eq_false] at passed
        obtain ⟨row, mem, same⟩ := there o (List.mem_append_right _ (List.mem_singleton_self o))
        have ident := before.identities ▸ List.mem_map_of_mem mem
        obtain ⟨row', mem', same'⟩ := List.mem_map.mp ident
        have placed : identity row' = identity (sync.miss o) := same'.trans same
        refine ⟨before.seen, ?_, fun x mem => ?_⟩
        · exact (Table.map_save_of_mem mem' (congrArg Prod.fst placed) placed).trans before.identities
        · rcases Table.mem_save.mp mem with rfl | ⟨mem, other⟩
          · exact .inl ⟨o, List.mem_append_right _ (List.mem_singleton_self o), passed, rfl⟩
          · rcases before.rows x mem with ⟨y, isDone, missed⟩ | ⟨mem, others⟩
            · exact .inl ⟨y, List.mem_append_left _ isDone, missed⟩
            · refine .inr ⟨mem, fun y isDone misses => ?_⟩
              rcases List.mem_append.mp isDone with isDone | same
              · exact others y isDone misses
              · rw [List.mem_singleton.mp same]
                exact other.symm

/-! ## A whole pull -/

/-- The supplier's rows say how long each product has been missing. -/
structure Mirrors (sync : SupplierCatalogSync) (supplierId : ℕ)
    (pulls : List (List SupplierItem)) (rows : List SupplierProduct) : Prop where
  unique : (rows.map natural).Nodup
  missing : ∀ row ∈ rows, row.supplierId = supplierId →
    (row.missingRuns : ℤ) = min (absent pulls row.key : ℤ) sync.settings.deactivateMissingAfterRuns
  active : ∀ row ∈ rows, row.supplierId = supplierId →
    (row.isActive = true ↔
      (absent pulls row.key : ℤ) < sync.settings.deactivateMissingAfterRuns)

/-- No row is gone. -/
def Keeps (rows rows' : List SupplierProduct) : Prop :=
  ∀ row ∈ rows, ∃ row' ∈ rows', identity row' = identity row

theorem Keeps.refl (rows : List SupplierProduct) : Keeps rows rows := fun row mem => ⟨row, mem, rfl⟩

/-- Rows that two pulls keep their sequence keeps. -/
theorem Keeps.trans {rows rows' rows'' : List SupplierProduct} (first : Keeps rows rows')
    (second : Keeps rows' rows'') : Keeps rows rows'' := by
  intro row mem
  obtain ⟨row', mem', same⟩ := first row mem
  obtain ⟨row'', mem'', same'⟩ := second row' mem'
  exact ⟨row'', mem'', same'.trans same⟩

/-- The rows of a whole pull. -/
def pulledRows (sync : SupplierCatalogSync) (supplierId : ℕ) (old : Table SupplierProduct.id)
    (items : List SupplierItem) : List SupplierProduct :=
  (sync.missUnseen supplierId old.rows
    (items.foldl (sync.upsert supplierId) ⟨old, [], []⟩)).rows.rows

variable {old : Table SupplierProduct.id} {items : List SupplierItem}

/-- A pull keeps every row under its key and id. -/
theorem pulledRows_keeps (unique : (old.rows.map natural).Nodup) :
    Keeps old.rows (sync.pulledRows supplierId old items) := by
  have pulled : Pulled supplierId old items _ := pulled_foldl sync unique items
  have missed : Missed sync supplierId _ old.rows _ := missed_missUnseen pulled.kept
  intro row mem
  obtain ⟨row', mem', same⟩ := pulled.kept row mem
  obtain ⟨row'', mem'', same'⟩ :=
    List.mem_map.mp (missed.identities.symm ▸ List.mem_map_of_mem (f := identity) mem')
  exact ⟨row'', mem'', same'.trans same⟩

/-- A pull keeps the account of the feeds. -/
theorem Mirrors.pulled {pulls : List (List SupplierItem)}
    (mirrors : sync.Mirrors supplierId pulls old.rows)
    (limit : 1 ≤ sync.settings.deactivateMissingAfterRuns) :
    sync.Mirrors supplierId (items :: pulls) (sync.pulledRows supplierId old items) := by
  have pulled : Pulled supplierId old items _ := pulled_foldl sync mirrors.unique items
  have missed : Missed sync supplierId _ old.rows _ := missed_missUnseen pulled.kept
  have counts : ∀ row ∈ sync.pulledRows supplierId old items, row.supplierId = supplierId →
      (row.missingRuns : ℤ) = min (absent (items :: pulls) row.key : ℤ)
          sync.settings.deactivateMissingAfterRuns ∧
        (row.isActive = true ↔ (absent (items :: pulls) row.key : ℤ) <
          sync.settings.deactivateMissingAfterRuns) := by
    intro row mem own
    rw [absent_cons]
    rcases missed.rows row mem with ⟨o, known, ⟨-, unseen, active⟩, rfl⟩ | ⟨mem, others⟩
    · have missing := mirrors.missing o known own
      have below := (mirrors.active o known own).mp active
      have unlisted : (sync.miss o).key ∉ items.map SupplierItem.key :=
        fun listed => unseen ((pulled.seen _).mpr listed)
      rw [if_neg unlisted]
      simp only [miss, decide_eq_true_eq]
      have sameKey : (sync.miss o).key = o.key := rfl
      rw [min_eq_left below.le] at missing
      push_cast
      rw [missing]
      change _ = min ((absent pulls o.key : ℤ) + 1) _ ∧ (_ ↔ (absent pulls o.key : ℤ) + 1 < _)
      exact ⟨(min_eq_left (by omega)).symm, Iff.rfl⟩
    · by_cases seen : row.key ∈ items.map SupplierItem.key
      · obtain ⟨missing, active⟩ := pulled.present row mem own ((pulled.seen _).mpr seen)
        rw [if_pos seen, missing, active]
        simp only [Nat.cast_zero, true_iff]
        exact ⟨(min_eq_left (by omega)).symm, by omega⟩
      · have unseen : row.key ∉ (items.foldl (sync.upsert supplierId) ⟨old, [], []⟩).seen :=
          fun known => seen ((pulled.seen _).mp known)
        have mem := pulled.untouched row mem own unseen
        have inactive : row.isActive = false := by
          refine Bool.eq_false_iff.mpr fun active => ?_
          exact others row mem ⟨own, unseen, active⟩ rfl
        have missing := mirrors.missing row mem own
        have above : sync.settings.deactivateMissingAfterRuns ≤ absent pulls row.key := by
          refine not_lt.mp fun below => ?_
          rw [(mirrors.active row mem own).mpr below] at inactive
          cases inactive
        rw [if_neg seen, inactive, missing, min_eq_right above]
        push_cast
        refine ⟨(min_eq_right (by omega)).symm, ?_⟩
        simp only [false_iff, not_lt]
        omega
  refine ⟨?_, fun row mem own => (counts row mem own).1, fun row mem own => (counts row mem own).2⟩
  have naturals := congrArg (List.map Prod.snd) missed.identities
  rw [List.map_map, List.map_map] at naturals
  exact (naturals ▸ pulled.unique : (_ : List _).Nodup)

/-! ## The supplier of a pull -/

/-- The id of the supplier a pull writes for. -/
def supplierIdOf (sync : SupplierCatalogSync) (db : Db) : ℕ :=
  (getOrCreateSupplier db.suppliers sync.code).2

/-- A supplier is created once. -/
theorem getOrCreateSupplier_again (suppliers : List Supplier) (code : String) :
    getOrCreateSupplier (getOrCreateSupplier suppliers code).1 code =
      getOrCreateSupplier suppliers code := by
  cases found : suppliers.find? fun supplier => supplier.code = code with
  | some supplier => simp [getOrCreateSupplier, found]
  | none => simp [getOrCreateSupplier, found]

end SupplierCatalogSync

/-! ## Every run of pulls -/

open Prog SupplierCatalogSync

/-- The service with the feeds of its completed pulls, newest first. -/
structure Pulls (W : Type) where
  bridge : Bridge W
  feeds : List (List SupplierItem)

namespace Service

variable {W : Type} (service : Service W)

/-- A pull in its session, at whatever state the world has come to. -/
def pullSession (bridge : Bridge W) (w : W) (feed : Feed SupplierItem) :
    OfferSync.Left W Stats :=
  service.runJob (.supplierCatalogue feed) { bridge with world := w }

/-- A completed pull, or one that an exception aborted. -/
inductive PullStep (s : Pulls W) (feed : Feed SupplierItem) : Pulls W → Prop
  | completed {w stats} (returned : (service.pullSession s.bridge w feed).result = .ok stats) :
      PullStep s feed ⟨.left (service.pullSession s.bridge w feed), feed.items :: s.feeds⟩
  | aborted {w e} (raised : (service.pullSession s.bridge w feed).result = .error e) :
      PullStep s feed ⟨.left (service.pullSession s.bridge w feed), s.feeds⟩

/-- The supplier's products before its first pull. -/
structure Unpulled (bridge : Bridge W) : Prop where
  unique : (bridge.db.supplierProducts.rows.map natural).Nodup
  none : ∀ row ∈ bridge.db.supplierProducts.rows,
    row.supplierId ≠ service.supplierCatalog.supplierIdOf bridge.db

/-- What the database says about the feeds. -/
def Accounts (s : Pulls W) : Prop :=
  service.supplierCatalog.Mirrors (service.supplierCatalog.supplierIdOf s.bridge.db) s.feeds
    s.bridge.db.supplierProducts.rows

variable {service} {bridge : Bridge W} {w : W} {feed : Feed SupplierItem} {s s' : Pulls W}

/-- A completed pull leaves its rows, and the supplier it wrote them for. -/
theorem pullSession_returns {stats : Stats}
    (returned : (service.pullSession bridge w feed).result = .ok stats) :
    let sync := service.supplierCatalog
    let left := service.pullSession bridge w feed
    left.db.supplierProducts.rows =
        sync.pulledRows (sync.supplierIdOf bridge.db) bridge.db.supplierProducts feed.items ∧
      sync.supplierIdOf left.db = sync.supplierIdOf bridge.db := by
  obtain ⟨u, run, left⟩ := @sessionScope_returns _ service { bridge with world := w } _ _ _ returned
  dsimp only
  rw [show (service.pullSession bridge w feed).db = u.db from left]
  rcases runs_bind.mp run with ⟨⟨⟩, t, entered, rest⟩ | ⟨_, -, same⟩
  · rw [runs_get_bind] at rest
    rcases runs_bind.mp rest with ⟨stats', v, recorded, rest⟩ | ⟨_, -, same⟩
    · obtain ⟨x, y, opened, ran, -, written⟩ := OfferSync.recorded_returns recorded
      rcases runs_bind.mp rest with ⟨⟨⟩, v', done, rest⟩ | ⟨_, -, same⟩
      · obtain ⟨-, rfl⟩ := runs_pure.mp done
        obtain ⟨-, rfl⟩ := runs_pure.mp rest
        have suppliers := openSupplier_returns entered
        obtain ⟨-, pulled⟩ := supplierBlock_returns ran
        rw [(OfferSync.quiet_flushSession opened).2] at pulled
        rw [written, pulled, suppliers]
        unfold supplierIdOf
        dsimp only [opening]
        rw [getOrCreateSupplier_again]
        exact ⟨rfl, rfl⟩
      · cases same
    · cases same
  · cases same

/-- A pull that raises leaves the database as it was. -/
theorem pullSession_raises {e : Exn}
    (raised : (service.pullSession bridge w feed).result = .error e) :
    (service.pullSession bridge w feed).db = bridge.db :=
  @sessionScope_failed _ service { bridge with world := w } _ _ _ raised

/-- A pull that commits keeps the account of all pulls, and so does one that does not. -/
theorem Accounts.step (limit : 1 ≤ service.supplierCatalog.settings.deactivateMissingAfterRuns)
    (accounts : service.Accounts s) (step : service.PullStep s feed s') :
    service.Accounts s' ∧
      Keeps s.bridge.db.supplierProducts.rows s'.bridge.db.supplierProducts.rows := by
  unfold Accounts at accounts ⊢
  cases step with
  | completed returned =>
      obtain ⟨rows, same⟩ := pullSession_returns returned
      dsimp only [Bridge.left]
      rw [same, rows]
      exact ⟨accounts.pulled limit, pulledRows_keeps accounts.unique⟩
  | aborted raised =>
      dsimp only [Bridge.left]
      rw [pullSession_raises raised]
      exact ⟨accounts, .refl _⟩

/-- In every run of pulls from a database without products of the supplier, after each pull:
`missing_runs` and `is_active` are what the feeds say, no two rows share a key, and no row
is gone. -/
theorem pulls_accounted (limit : 1 ≤ service.supplierCatalog.settings.deactivateMissingAfterRuns)
    (start : service.Unpulled bridge)
    (before : Relation.ReflTransGen (Runs.Allowed service.PullStep fun _ _ => True)
      ⟨bridge, []⟩ s)
    (after : Relation.ReflTransGen (Runs.Allowed service.PullStep fun _ _ => True) s s') :
    service.Accounts s' ∧
      Keeps s.bridge.db.supplierProducts.rows s'.bridge.db.supplierProducts.rows := by
  have first : service.Accounts ⟨bridge, []⟩ :=
    ⟨start.unique, fun row mem own => absurd own (start.none row mem),
      fun row mem own => absurd own (start.none row mem)⟩
  have accounts : service.Accounts s :=
    Runs.invariant (fun _ _ _ held _ step => (held.step limit step).1) before first
  induction after with
  | refl => exact ⟨accounts, .refl _⟩
  | tail _ last ih =>
      obtain ⟨feed, -, step⟩ := last
      obtain ⟨accounts', kept⟩ := ih.1.step limit step
      exact ⟨accounts', ih.2.trans kept⟩

end Service

namespace EchoStore

/-- Before the first pull. -/
def unpulled : Bridge Time := ⟨emptyDb, 0, []⟩

/-- A pull that lists one product. -/
def listing : Feed SupplierItem := ⟨[sampleItem 1 ""], none⟩

def pulledOnce : Pulls Time :=
  ⟨.left (service.pullSession unpulled 0 listing), [listing.items]⟩

/-- After a second pull, that lists nothing. -/
def pulledTwice : Pulls Time :=
  ⟨.left (service.pullSession pulledOnce.bridge 1 ⟨[], none⟩), [[], listing.items]⟩

theorem pulls_accounted_twice : service.Accounts pulledTwice ∧
    Keeps pulledOnce.bridge.db.supplierProducts.rows
      pulledTwice.bridge.db.supplierProducts.rows := by
  have start : service.Unpulled unpulled :=
    ⟨List.nodup_nil, fun row mem => absurd mem List.not_mem_nil⟩
  have once : service.PullStep ⟨unpulled, []⟩ listing pulledOnce := .completed rfl
  have twice : service.PullStep pulledOnce ⟨[], none⟩ pulledTwice := .completed rfl
  exact Service.pulls_accounted (by decide) start (.single ⟨_, trivial, once⟩)
    (.single ⟨_, trivial, twice⟩)

end EchoStore

end FazerBridge
