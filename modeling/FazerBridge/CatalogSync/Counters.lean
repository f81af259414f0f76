import FazerBridge.CatalogSync.Unchanged
import Mathlib.Data.Finset.Card

/-!
# What the counters of a pull add up to

The operator sees a pull by its counters.  All of them count what they are named after but
one: a new row carries no `is_active` before its flush, so every created product is counted
as reactivated too (`accounts_iff`).

`Counted` is the account of the upserts, one item at a time; the counters of the rows the
pull did not see are added by `missUnseen` (`get_missUnseen`).
-/

namespace FazerBridge

namespace SupplierCatalogSync

variable {sync : SupplierCatalogSync} {supplierId : ℕ} {old : Table SupplierProduct.id}
  {items : List SupplierItem} {pull : Pull} {item : SupplierItem}

/-- The row of a key before the pull. -/
def priorRow (supplierId : ℕ) (rows : List SupplierProduct) (key : ItemKey) :
    Option SupplierProduct :=
  rows.find? fun row => row.supplierId = supplierId ∧ row.key = key

theorem priorRow_eq_some {rows : List SupplierProduct} (unique : (rows.map natural).Nodup)
    {key : ItemKey} {row : SupplierProduct} :
    priorRow supplierId rows key = some row ↔ row ∈ rows ∧ natural row = (supplierId, key) := by
  constructor
  · intro found
    have same := List.find?_some found
    rw [decide_eq_true_eq] at same
    exact ⟨List.mem_of_find?_eq_some found, Prod.ext same.1 same.2⟩
  · intro found
    obtain ⟨mem, same⟩ := found
    cases found : priorRow supplierId rows key with
    | none =>
        have other := List.find?_eq_none.mp found row mem
        rw [natural, Prod.mk.injEq] at same
        exact absurd (decide_eq_true same) other
    | some first =>
        have first_same := List.find?_some found
        rw [decide_eq_true_eq] at first_same
        have both : natural first = natural row :=
          (Prod.ext first_same.1 first_same.2 : natural first = (supplierId, key)).trans same.symm
        rw [List.inj_on_of_nodup_map unique (List.mem_of_find?_eq_some found) mem both]

theorem priorRow_eq_none {rows : List SupplierProduct} {key : ItemKey} :
    priorRow supplierId rows key = none ↔ ∀ row ∈ rows, natural row ≠ (supplierId, key) := by
  simp [priorRow, natural]

/-- The row of an unseen key is still the one of before. -/
theorem Pulled.priorRow (pulled : Pulled supplierId old items pull)
    (unique : (old.rows.map natural).Nodup) {key : ItemKey} (unseen : key ∉ pull.seen) :
    SupplierCatalogSync.priorRow supplierId pull.rows.rows key =
      SupplierCatalogSync.priorRow supplierId old.rows key := by
  cases found : SupplierCatalogSync.priorRow supplierId pull.rows.rows key with
  | some row =>
      obtain ⟨mem, same⟩ := (priorRow_eq_some pulled.unique).mp found
      rw [natural, Prod.mk.injEq] at same
      have before := pulled.untouched row mem same.1 (same.2.symm ▸ unseen)
      exact ((priorRow_eq_some unique).mpr ⟨before, Prod.ext same.1 same.2⟩).symm
  | none =>
      refine (priorRow_eq_none.mpr fun row mem same => ?_).symm
      obtain ⟨row', mem', ident⟩ := pulled.kept row mem
      exact priorRow_eq_none.mp found row' mem' ((congrArg Prod.snd ident).trans same)

/-! ## The upserts -/

/-- The key has a row that was switched off. -/
def WasOff (supplierId : ℕ) (rows : List SupplierProduct) (key : ItemKey) : Bool :=
  (priorRow supplierId rows key).any fun row => !row.isActive

/-- The key has no row. -/
def IsNew (supplierId : ℕ) (rows : List SupplierProduct) (key : ItemKey) : Bool :=
  (priorRow supplierId rows key).isNone

/-- The counters after the upserts of `items`. -/
structure Counted (supplierId : ℕ) (rows : List SupplierProduct) (items : List SupplierItem)
    (pull : Pull) : Prop where
  nodup : pull.seen.Nodup
  duplicate : pull.stats.get .duplicateInFeed + pull.seen.length = items.length
  created : pull.stats.get .created = pull.seen.countP (IsNew supplierId rows)
  kept : pull.stats.get .updated + pull.stats.get .unchanged =
    pull.seen.countP fun key => !IsNew supplierId rows key
  /-- the created ones too -/
  reactivated : pull.stats.get .reactivated =
    pull.seen.countP (WasOff supplierId rows) + pull.seen.countP (IsNew supplierId rows)
  missed : pull.stats.get .deactivated + pull.stats.get .missingGrace = 0
  total : pull.stats.get .totalSeen = 0

theorem Counted.upsert (counted : Counted supplierId old.rows items pull)
    (pulled : Pulled supplierId old items pull) (unique : (old.rows.map natural).Nodup)
    (sync : SupplierCatalogSync) (item : SupplierItem) :
    Counted supplierId old.rows (items ++ [item]) (sync.upsert supplierId pull item) := by
  have length : (items ++ [item]).length = items.length + 1 := List.length_append
  obtain ⟨nodup, duplicate, created, kept, reactivated, missed, total⟩ := counted
  unfold SupplierCatalogSync.upsert
  split
  · refine ⟨nodup, ?_, ?_, ?_, ?_, ?_, ?_⟩ <;> simp [Stats.get_bump] <;> omega
  · rename_i unseen
    have same := pulled.priorRow unique unseen
    have nodup := List.nodup_cons.mpr ⟨unseen, nodup⟩
    split
    · rename_i none
      have isNew : IsNew supplierId old.rows item.key = true := by
        rw [IsNew, ← same, priorRow, none]
        rfl
      have on : WasOff supplierId old.rows item.key = false := by
        rw [WasOff, ← same, priorRow, none]
        rfl
      refine ⟨nodup, ?_, ?_, ?_, ?_, ?_, ?_⟩ <;>
        simp [Stats.get_bump, isNew, on] <;> omega
    · rename_i row found
      have isOld : IsNew supplierId old.rows item.key = false := by
        rw [IsNew, ← same, priorRow, found]
        rfl
      have off : WasOff supplierId old.rows item.key = !row.isActive := by
        rw [WasOff, ← same, priorRow, found]
        rfl
      by_cases changed : row.contentHash ≠ sync.contentHash item <;>
        cases active : row.isActive <;>
        refine ⟨nodup, ?_, ?_, ?_, ?_, ?_, ?_⟩ <;>
        simp [Stats.get_bump, changed, isOld, off, active] <;> omega

theorem counted_foldl (sync : SupplierCatalogSync) (supplierId : ℕ)
    (unique : (old.rows.map natural).Nodup)
    (items : List SupplierItem) :
    Counted supplierId old.rows items (items.foldl (sync.upsert supplierId) ⟨old, [], []⟩) := by
  induction items using List.reverseRecOn with
  | nil => exact ⟨List.nodup_nil, rfl, rfl, rfl, rfl, rfl, rfl⟩
  | append_singleton items item ih =>
      rw [List.foldl_append]
      exact ih.upsert (pulled_foldl sync unique items) unique sync item

/-! ## The rows it did not see -/

/-- A row of the supplier that is active and whose key was not seen. -/
def isMissed (supplierId : ℕ) (seen : List ItemKey) (row : SupplierProduct) : Bool :=
  row.supplierId = supplierId ∧ row.key ∉ seen ∧ row.isActive = true

/-- Each of these rows is counted as deactivated or as still waiting, and no other counter
moves. -/
theorem get_missUnseen (sync : SupplierCatalogSync) (supplierId : ℕ)
    (rows : List SupplierProduct) (pull : Pull) :
    (sync.missUnseen supplierId rows pull).stats.get .deactivated +
        (sync.missUnseen supplierId rows pull).stats.get .missingGrace =
      pull.stats.get .deactivated + pull.stats.get .missingGrace +
        rows.countP (isMissed supplierId pull.seen) ∧
    (sync.missUnseen supplierId rows pull).seen = pull.seen ∧
    ∀ key, key ≠ .deactivated → key ≠ .missingGrace →
      (sync.missUnseen supplierId rows pull).stats.get key = pull.stats.get key := by
  induction rows generalizing pull with
  | nil => exact ⟨rfl, rfl, fun _ _ _ => rfl⟩
  | cons row rows ih =>
      unfold missUnseen
      rw [List.foldl_cons]
      by_cases passed : row.supplierId ≠ supplierId ∨ row.key ∈ pull.seen ∨ row.isActive = false
      · have other : isMissed supplierId pull.seen row = false := by
          rw [isMissed, decide_eq_false_iff_not]
          intro found
          obtain ⟨own, unseen, active⟩ := found
          rcases passed with notOwn | seen | inactive
          · exact notOwn own
          · exact unseen seen
          · rw [active] at inactive
            cases inactive
        rw [if_pos passed, List.countP_cons, other]
        exact ih pull
      · have one : isMissed supplierId pull.seen row = true := by
          rw [isMissed, decide_eq_true_eq]
          rw [not_or, not_or, not_not, Bool.not_eq_false] at passed
          exact passed
        rw [if_neg passed, List.countP_cons, one]
        obtain ⟨missed, seen, others⟩ := ih
          { pull with
            rows := pull.rows.save (sync.miss row)
            stats := pull.stats.bump
              (if (sync.miss row).isActive then .missingGrace else .deactivated) 1 }
        refine ⟨missed.trans ?_, seen, fun key first second => (others key first second).trans ?_⟩
        · cases (sync.miss row).isActive <;> simp [Stats.get_bump] <;> omega
        · cases (sync.miss row).isActive <;> simp [Stats.get_bump, first, second]

/-! ## The account of a run -/

/-- The distinct keys of a feed. -/
def keys (items : List SupplierItem) : Finset ItemKey := (items.map SupplierItem.key).toFinset

/-- What the counters of a run count, by the rows before it. -/
structure Accounts (supplierId : ℕ) (rows : List SupplierProduct) (items : List SupplierItem)
    (stats : Stats) : Prop where
  totalSeen : stats.get .totalSeen = (keys items).card
  created : stats.get .created =
    ((keys items).filter fun key => ∀ row ∈ rows, natural row ≠ (supplierId, key)).card
  kept : stats.get .updated + stats.get .unchanged =
    ((keys items).filter fun key => ∃ row ∈ rows, natural row = (supplierId, key)).card
  duplicate : stats.get .duplicateInFeed = items.length - (keys items).card
  reactivated : stats.get .reactivated = (rows.filter fun row =>
    row.supplierId = supplierId ∧ row.isActive = false ∧ row.key ∈ keys items).length
  missed : stats.get .deactivated + stats.get .missingGrace = (rows.filter fun row =>
    row.supplierId = supplierId ∧ row.isActive = true ∧ row.key ∉ keys items).length

theorem countP_seen {pull : Pull} (pulled : Pulled supplierId old items pull)
    (nodup : pull.seen.Nodup) (p : ItemKey → Bool) :
    pull.seen.countP p = ((keys items).filter fun key => p key = true).card := by
  have same : pull.seen.toFinset = keys items := by
    ext key
    rw [keys, List.mem_toFinset, List.mem_toFinset, pulled.seen]
  rw [← same, ← List.toFinset_filter, List.toFinset_card_of_nodup (nodup.filter _),
    List.countP_eq_length_filter]

theorem isNew_iff {rows : List SupplierProduct} {key : ItemKey} :
    IsNew supplierId rows key = true ↔ ∀ row ∈ rows, natural row ≠ (supplierId, key) := by
  rw [IsNew, Option.isNone_iff_eq_none, priorRow_eq_none]

/-- The keys of the rows that were switched off are as many as these rows. -/
theorem card_wasOff {rows : List SupplierProduct} (unique : (rows.map natural).Nodup) :
    ((keys items).filter fun key => WasOff supplierId rows key = true).card =
      (rows.filter fun row =>
        row.supplierId = supplierId ∧ row.isActive = false ∧ row.key ∈ keys items).length := by
  have apart : ((rows.filter fun row => row.supplierId = supplierId ∧ row.isActive = false ∧
      row.key ∈ keys items).map SupplierProduct.key).Nodup := by
    refine List.Nodup.map_on ?_ ((List.Nodup.of_map _ unique).filter _)
    intro a memA b memB same
    rw [List.mem_filter, decide_eq_true_eq] at memA memB
    exact List.inj_on_of_nodup_map unique memA.1 memB.1
      (Prod.ext (memA.2.1.trans memB.2.1.symm) same)
  rw [← List.length_map SupplierProduct.key, ← List.toFinset_card_of_nodup apart]
  refine congrArg Finset.card (Finset.ext fun key => ?_)
  rw [Finset.mem_filter]
  simp only [List.mem_toFinset, List.mem_map, List.mem_filter,
    decide_eq_true_eq, WasOff, Option.any_eq_true, priorRow_eq_some unique, Bool.not_eq_true']
  constructor
  · intro found
    obtain ⟨listed, row, ⟨mem, same⟩, off⟩ := found
    rw [natural, Prod.mk.injEq] at same
    exact ⟨row, ⟨mem, same.1, off, same.2 ▸ listed⟩, same.2⟩
  · intro found
    obtain ⟨row, ⟨mem, own, off, listed⟩, rfl⟩ := found
    exact ⟨listed, row, ⟨mem, Prod.ext own rfl⟩, off⟩

/-- The counters a run ends with. -/
def closed (sync : SupplierCatalogSync) (supplierId : ℕ) (rows : List SupplierProduct)
    (pull : Pull) : Stats :=
  (sync.missUnseen supplierId rows pull).stats.bump .totalSeen
    (sync.missUnseen supplierId rows pull).seen.length

theorem get_closed {rows : List SupplierProduct} {key : StatKey} (first : key ≠ .deactivated)
    (second : key ≠ .missingGrace) (third : key ≠ .totalSeen) :
    (sync.closed supplierId rows pull).get key = pull.stats.get key := by
  have others := (get_missUnseen sync supplierId rows pull).2.2
  rw [closed, Stats.get_bump, if_neg third, others key first second, Nat.add_zero]

section Closed

variable (pulled : Pulled supplierId old items pull) (counted : Counted supplierId old.rows items pull)

include pulled counted

theorem Counted.closed_created : (sync.closed supplierId old.rows pull).get .created =
    ((keys items).filter fun key => ∀ row ∈ old.rows, natural row ≠ (supplierId, key)).card := by
  rw [get_closed (by decide) (by decide) (by decide), counted.created,
    countP_seen pulled counted.nodup]
  simp only [isNew_iff]

theorem Counted.closed_reactivated (sync : SupplierCatalogSync)
    (unique : (old.rows.map natural).Nodup) :
    (sync.closed supplierId old.rows pull).get .reactivated =
      (old.rows.filter fun row =>
        row.supplierId = supplierId ∧ row.isActive = false ∧ row.key ∈ keys items).length +
      (sync.closed supplierId old.rows pull).get .created := by
  rw [get_closed (by decide) (by decide) (by decide),
    get_closed (by decide) (by decide) (by decide), counted.reactivated, counted.created,
    countP_seen pulled counted.nodup (WasOff _ _), card_wasOff unique]

/-- All counters but one are the ones they are named after, and that one also counts the rows
the run created. -/
theorem Counted.accounted_iff (unique : (old.rows.map natural).Nodup) :
    Accounts supplierId old.rows items (sync.closed supplierId old.rows pull) ↔
      (sync.closed supplierId old.rows pull).get .created = 0 := by
  have reactivated := counted.closed_reactivated pulled sync unique
  obtain ⟨missed, seen, others⟩ := get_missUnseen sync supplierId old.rows pull
  have listed : ∀ key, key ∈ pull.seen ↔ key ∈ keys items := by
    intro key
    rw [pulled.seen, keys, List.mem_toFinset]
  have total : pull.seen.length = (keys items).card := by
    have all := countP_seen pulled counted.nodup fun _ => true
    simpa using all
  constructor
  · intro accounts
    have right := accounts.reactivated
    omega
  · intro none
    rw [none, Nat.add_zero] at reactivated
    refine ⟨?_, counted.closed_created pulled, ?_, ?_, reactivated, ?_⟩
    · rw [closed, Stats.get_bump, others _ (by decide) (by decide), counted.total, seen, total,
        if_pos rfl, Nat.zero_add]
    · rw [get_closed (by decide) (by decide) (by decide),
        get_closed (by decide) (by decide) (by decide), counted.kept,
        countP_seen pulled counted.nodup]
      refine congrArg Finset.card (Finset.filter_congr fun key _ => ?_)
      rw [Bool.not_eq_true', ← Bool.not_eq_true, isNew_iff]
      push Not
      rfl
    · rw [get_closed (by decide) (by decide) (by decide), ← total, ← counted.duplicate,
        Nat.add_sub_cancel]
    · have rows : old.rows.countP (isMissed supplierId pull.seen) = (old.rows.filter fun row =>
          row.supplierId = supplierId ∧ row.isActive = true ∧ row.key ∉ keys items).length := by
        rw [← List.countP_eq_length_filter]
        refine List.countP_congr fun row _ => ?_
        rw [isMissed, decide_eq_true_eq, decide_eq_true_eq, listed]
        tauto
      rw [closed, Stats.get_bump, Stats.get_bump, if_neg (by decide), if_neg (by decide),
        Nat.add_zero, Nat.add_zero, missed, counted.missed, Nat.zero_add, rows]

end Closed

/-- The counters of a completed run are what they are named after exactly if no key of the
feed is new: a created row is counted as reactivated too. -/
theorem accounts_iff (sync : SupplierCatalogSync) (db : Db) (now : Time)
    (unique : (db.supplierProducts.rows.map natural).Nodup) (items : List SupplierItem) :
    Accounts (sync.supplierIdOf db) db.supplierProducts.rows items (sync.run db now items).2 ↔
      ∀ item ∈ items, ∃ row ∈ db.supplierProducts.rows,
        natural row = (sync.supplierIdOf db, item.key) := by
  have pulled : Pulled (sync.supplierIdOf db) db.supplierProducts items _ :=
    pulled_foldl sync unique items
  have counted := counted_foldl sync (sync.supplierIdOf db) unique items
  have run : (sync.run db now items).2 =
      sync.closed (sync.supplierIdOf db) db.supplierProducts.rows
        (items.foldl (sync.upsert (sync.supplierIdOf db)) ⟨db.supplierProducts, [], []⟩) := rfl
  rw [run, counted.accounted_iff pulled unique, counted.closed_created pulled,
    Finset.card_eq_zero, Finset.filter_eq_empty_iff]
  constructor
  · intro none item mem
    have key : item.key ∈ keys items := List.mem_toFinset.mpr (List.mem_map_of_mem mem)
    by_contra new
    push Not at new
    exact none key new
  · intro known key listed new
    obtain ⟨item, mem, rfl⟩ := List.mem_map.mp (List.mem_toFinset.mp listed)
    obtain ⟨row, there, same⟩ := known item mem
    exact new row there same

end SupplierCatalogSync

namespace EchoStore

open SupplierCatalogSync

/-- Of three known games one comes twice, one costs more and one is gone. -/
theorem accounts_known_games :
    (plainSync.run pulledGames 1 [unrestricted, repriced, unrestricted]).2.get .missingGrace = 1 ∧
    Accounts (plainSync.supplierIdOf pulledGames) pulledGames.supplierProducts.rows
      [unrestricted, repriced, unrestricted] (plainSync.run pulledGames 1
        [unrestricted, repriced, unrestricted]).2 :=
  ⟨by decide +kernel, (accounts_iff plainSync pulledGames 1 (by decide +kernel)
    [unrestricted, repriced, unrestricted]).mpr (by decide +kernel)⟩

/-- The first product of all is counted as reactivated. -/
theorem created_counts_as_reactivated :
    ¬ Accounts (plainSync.supplierIdOf emptyDb) emptyDb.supplierProducts.rows [unrestricted]
      (plainSync.run emptyDb 0 [unrestricted]).2 := by
  intro accounts
  have right := accounts.reactivated
  revert right
  decide +kernel

end EchoStore

end FazerBridge
