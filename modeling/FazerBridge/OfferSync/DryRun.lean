import FazerBridge.OfferSync.Addressing
import FazerBridge.OfferSync.Steady

/-!
# Dry runs

A dry run opens the row of every item it selects, so it leaves blank rows where there were
none, and nothing else besides its entry in `sync_runs`.  `Session.primed` is a session with
the blank rows of the items to come already in it; a real run goes through a primed session
and a bare one in lockstep (`primed_syncItem`, `primed_syncItems`, `primed_run`), since a row
without an id clashes with nothing and an item opens its row before it looks at it.

When the real run aborts, what it left is rolled back with the blank rows it made itself, but
not with those of a dry run before it (`aborted_run_differs`).
-/

namespace FazerBridge

namespace OfferSync

open Prog

variable {W : Type} {sync : OfferSync W} {price : Item → ℚ} {s : RowState W}
  {t u v : Session W} {item : Item} {items : List Item} {dryRun : Bool} {now : Time}

/-! ## What is reported of an offer -/

/-- The row records exactly what is desired. -/
def Shows (desired : DesiredOffer) (offer : StoreOffer) : Prop :=
  offer.pushedPrice = some desired.price ∧ offer.pushedInventory = some desired.inventory ∧
    offer.pushedActive = some desired.active

instance (desired : DesiredOffer) (offer : StoreOffer) : Decidable (Shows desired offer) :=
  inferInstanceAs (Decidable (_ ∧ _ ∧ _))

/-- What a dry run reports of an offer. -/
def dryAction (desired : DesiredOffer) (offer : StoreOffer) : StatKey :=
  if Shows desired offer then .skippedUnchanged
  else if offer.offerExtId.isNone then .wouldCreate else .wouldUpdate

theorem shows_iff {desired : DesiredOffer} {offer : StoreOffer} :
    Shows desired offer ↔ (!(decide (offer.pushedPrice ≠ some desired.price) ||
      decide (offer.pushedInventory ≠ some desired.inventory) ||
      decide (offer.pushedActive ≠ some desired.active))) = true := by
  simp [Shows, and_assoc]

/-- A dry run of an offer changes nothing. -/
theorem runs_dry (desired : DesiredOffer) (now : Time) (s : RowState W) :
    (sync.syncOne desired true now).Runs s (.ok (dryAction desired s.offer)) s := by
  unfold syncOne dryAction
  rw [runs_get_bind]
  by_cases same : Shows desired s.offer
  · rw [if_pos same]
    exact runs_ite.mpr (.inl ⟨shows_iff.mp same, runs_pure.mpr ⟨rfl, rfl⟩⟩)
  · rw [if_neg same]
    exact runs_ite.mpr (.inr ⟨fun h => same (shows_iff.mpr h),
      runs_ite.mpr (.inl ⟨rfl, runs_pure.mpr ⟨rfl, rfl⟩⟩)⟩)

theorem Updates.not_skipped {desired : DesiredOffer} {s u : RowState W}
    {priceChanged stockChanged activeChanged : Bool} {k : StatKey}
    (updates : sync.Updates desired now priceChanged stockChanged activeChanged s (.ok k) u) :
    k ≠ .skippedUnchanged := by
  generalize result : (Except.ok k : Except Exn StatKey) = r at updates
  cases updates with
  | nothing =>
      cases result
      exact StatKey.noConfusion
  | raised | unwritten => cases result
  | unpriced =>
      cases result
      split <;> exact StatKey.noConfusion
  | @priced _ _ _ _ _ _ q =>
      cases q with
      | error e => cases result
      | ok a =>
          cases result
          exact StatKey.noConfusion

theorem RecordsCreate.not_skipped {desired : DesiredOffer} {calledAt : Time} {s u : RowState W}
    {k : StatKey} (records : sync.RecordsCreate desired now calledAt s (.ok k) u) :
    k ≠ .skippedUnchanged := by
  generalize result : (Except.ok k : Except Exn StatKey) = r at records
  cases records with
  | unwritten => cases result
  | @recorded _ q =>
      cases q with
      | error e => cases result
      | ok a =>
          cases result
          exact StatKey.noConfusion

/-- A push is never reported as skipped. -/
theorem Pushes.not_skipped {desired : DesiredOffer} {s u : RowState W}
    {priceChanged stockChanged activeChanged : Bool} {k : StatKey}
    (pushes : sync.Pushes desired now priceChanged stockChanged activeChanged s (.ok k) u) :
    k ≠ .skippedUnchanged := by
  cases pushes with
  | awaiting => exact StatKey.noConfusion
  | resolved _ _ _ updates => exact updates.not_skipped
  | updates _ updates => exact updates.not_skipped
  | creates _ _ creates =>
      cases creates with
      | adopted _ _ _ updates => exact updates.not_skipped
      | named _ _ records | settled _ _ _ _ _ records | nameless _ _ _ records =>
          exact records.not_skipped
      | refused => exact StatKey.noConfusion

/-- Real or dry, an offer is reported as skipped when its row records what is desired. -/
theorem syncOne_skips_iff {desired : DesiredOffer} {s u : RowState W} {k : StatKey}
    (run : (sync.syncOne desired dryRun now).Runs s (.ok k) u) :
    k = .skippedUnchanged ↔ Shows desired s.offer := by
  unfold syncOne at run
  rw [runs_get_bind] at run
  rcases runs_ite.mp run with ⟨same, rest⟩ | ⟨changed, rest⟩
  · cases (runs_pure.mp rest).1
    exact iff_of_true rfl (shows_iff.mpr same)
  have changed : ¬ Shows desired s.offer := fun same => changed (shows_iff.mp same)
  refine iff_of_false ?_ changed
  rcases runs_ite.mp rest with ⟨-, rest⟩ | ⟨-, rest⟩
  · cases (runs_pure.mp rest).1
    split <;> exact StatKey.noConfusion
  · rcases runs_bind.mp rest with ⟨pushed, m, attempted, rest⟩ | ⟨e, -, same⟩
    swap
    · cases same
    rcases runs_attempt.mp attempted with ⟨action, pushes, same⟩ | ⟨e, -, same⟩ | ⟨e, -, -, same⟩
    · cases same
      cases (runs_pure.mp rest).1
      exact (push_spec pushes).not_skipped
    · cases same
      obtain ⟨q, -, same⟩ := flush_pure_spec (runs_edit_bind.mp rest)
      cases q with
      | error _ => cases same
      | ok _ =>
          cases same
          split <;> exact StatKey.noConfusion
    · cases same

/-! ## The items of a run -/

/-- No mapping is selected twice. -/
theorem nodup_syncable (sync : OfferSync W) (db : Db) (count : Option ℕ) :
    ((sync.syncable db count).map fun item => item.mapping.id).Nodup := by
  have all : ∀ rows : List ProductMapping,
      ((rows.filterMap (sync.itemOf db)).map fun item => item.mapping.id).Sublist
        (rows.map ProductMapping.id) := by
    intro rows
    induction rows with
    | nil => exact .slnil
    | cons m rest ih =>
        rw [List.filterMap_cons]
        split
        · exact ih.cons _
        · rename_i item found
          obtain ⟨own, -⟩ := itemOf_eq_some found
          rw [List.map_cons, List.map_cons, own]
          exact ih.cons_cons _
  have selected : (sync.syncable db count).Sublist (db.mappings.rows.filterMap (sync.itemOf db)) := by
    unfold syncable
    split
    · exact List.take_sublist ..
    · exact List.Sublist.refl _
  exact db.mappings.table.nodup.sublist ((selected.map _).trans (all _))

/-- The items are of different mappings. -/
def Apart (items : List Item) : Prop := (items.map fun item => item.mapping.id).Nodup

theorem Apart.tail (apart : Apart (item :: items)) : Apart items := (List.nodup_cons.mp apart).2

theorem Apart.not_mem (apart : Apart (item :: items)) (sync : OfferSync W) :
    item.mapping.id ∉ (items.map sync.blank).map StoreOffer.mappingId := by
  rw [List.map_map]
  exact (List.nodup_cons.mp apart).1

/-- Syncing an item leaves the rows of the others as they are. -/
theorem Steady.rowOf_syncItem (steady : sync.Steady price) (distinct : Distinct t.db.offers)
    {r : Except Exn Unit} {other : Item} (ne : other.mapping.id ≠ item.mapping.id)
    (run : (sync.syncItem dryRun now item).Runs t r u) :
    sync.rowOf u.db.offers other = sync.rowOf t.db.offers other := by
  obtain ⟨q, s, synced, -, rfl⟩ := (steady.runs_syncItem distinct).mp run
  have own : s.offer.mappingId = item.mapping.id :=
    (syncOne_spec synced).frame.mappingId.trans rowOf_mappingId
  have offers : (closed (sync.opened t item) q s).db.offers =
      (t.db.offers.ensure (sync.blank item)).save s.offer := by
    cases q <;> rfl
  have other' : other.mapping.id ≠ (sync.blank item).mappingId := ne
  unfold rowOf
  rw [offers, Table.find?_save_of_ne _ (own ▸ ne), Table.find?_ensure_of_ne _ other']

theorem Steady.rowOf_syncItems (steady : sync.Steady price) (distinct : Distinct t.db.offers)
    {other : Item} (absent : other.mapping.id ∉ items.map fun item => item.mapping.id)
    (run : (sync.syncItems dryRun now items).Runs t (.ok ()) u) :
    sync.rowOf u.db.offers other = sync.rowOf t.db.offers other := by
  induction items generalizing t with
  | nil =>
      obtain ⟨-, rfl⟩ := runs_pure.mp run
      rfl
  | cons item rest ih =>
      rw [List.map_cons, List.mem_cons, not_or] at absent
      rcases runs_bind.mp run with ⟨⟨⟩, m, first, later⟩ | ⟨e, -, same⟩
      · rw [ih (steady.distinct_syncItem distinct first) absent.2 later,
          steady.rowOf_syncItem distinct absent.1 first]
      · cases same

/-! ## Primed sessions -/

/-- The database with the blank rows of `items` already in it. -/
def primedDb (sync : OfferSync W) (db : Db) (items : List Item) (runs : List SyncRun) : Db :=
  { db with
    offers := db.offers.ensureAll (items.map sync.blank)
    syncRuns := runs }

/-- The session on a primed database. -/
def Session.primed (sync : OfferSync W) (t : Session W) (items : List Item)
    (runs : List SyncRun) : Session W :=
  { t with db := sync.primedDb t.db items runs }

variable {runs : List SyncRun}

theorem distinct_primed :
    Distinct (t.primed sync items runs).db.offers ↔ Distinct t.db.offers := by
  refine distinct_ensureAll fun o mem => ?_
  obtain ⟨item, -, rfl⟩ := List.mem_map.mp mem
  rfl

/-- Rows without an id are no other offers. -/
theorem otherOffers_ensureAll {blanks : List StoreOffer} (db : Db) {offer : StoreOffer}
    (idless : ∀ o ∈ blanks, o.offerExtId = none) :
    otherOffers { db with offers := db.offers.ensureAll blanks } offer = otherOffers db offer := by
  induction blanks generalizing db with
  | nil => rfl
  | cons blank rest ih =>
      have first : otherOffers { db with offers := db.offers.ensure blank } offer =
          otherOffers db offer := by
        cases found : db.offers.find? blank.mappingId with
        | some o => rw [Table.ensure_of_isSome (by rw [found]; rfl)]
        | none =>
            have nameless : ([blank].filter fun o => o.mappingId ≠ offer.mappingId ∧
                o.storeCode = offer.storeCode).filterMap StoreOffer.offerExtId = [] := by
              refine List.filterMap_eq_nil_iff.mpr fun o mem => ?_
              rw [List.mem_singleton.mp (List.mem_filter.mp mem).1]
              exact idless blank List.mem_cons_self
            unfold otherOffers
            rw [Table.rows_ensure_of_eq_none found, List.filter_append, List.filterMap_append,
              nameless, List.append_nil]
      rw [← first]
      exact ih { db with offers := db.offers.ensure blank } fun o mem =>
        idless o (List.mem_cons_of_mem _ mem)

/-- Opening the row of a primed item finds it. -/
theorem opened_primed : sync.opened (t.primed sync (item :: items) runs) item =
    (sync.opened t item).primed sync items runs := by
  have there : (((t.db.offers.ensure (sync.blank item)).ensureAll (items.map sync.blank)).find?
      (sync.blank item).mappingId).isSome :=
    Table.isSome_find?_ensureAll (by rw [Table.find?_ensure_self]; rfl)
  have same := Table.ensure_of_isSome there
  unfold opened Session.primed primedDb
  rw [List.map_cons, Table.ensureAll, same]

theorem itemRow_primed (apart : Apart (item :: items)) :
    sync.itemRow (t.primed sync (item :: items) runs) item = sync.itemRow t item := by
  have row : sync.rowOf (t.primed sync (item :: items) runs).db.offers item =
      sync.rowOf t.db.offers item := by
    have found : (t.primed sync (item :: items) runs).db.offers.find? item.mapping.id =
        some (sync.rowOf t.db.offers item) := by
      change ((t.db.offers.ensure (sync.blank item)).ensureAll (items.map sync.blank)).find? _ = _
      rw [Table.find?_ensureAll_of_not_mem (apart.not_mem sync)]
      exact find?_opened sync t item
    rw [rowOf, found, Option.getD_some]
  have others : ∀ offer, otherOffers ((sync.opened t item).primed sync items runs).db offer =
      otherOffers (sync.opened t item).db offer := fun offer => by
    refine otherOffers_ensureAll (sync.opened t item).db fun o mem => ?_
    obtain ⟨item, -, rfl⟩ := List.mem_map.mp mem
    rfl
  unfold itemRow
  rw [opened_primed, row]
  unfold openRow
  rw [others]
  rfl

/-- Putting a row back does not touch the blank rows to come. -/
theorem closed_primed (apart : Apart (item :: items)) {q : Except Exn StatKey}
    (own : s.offer.mappingId = item.mapping.id) :
    closed ((sync.opened t item).primed sync items runs) q s =
      (closed (sync.opened t item) q s).primed sync items runs := by
  have there : ((sync.opened t item).db.offers.find? s.offer.mappingId).isSome := by
    rw [own, find?_opened]
    rfl
  have moved := Table.ensureAll_save there (own ▸ apart.not_mem sync)
  cases q with
  | ok k =>
      unfold closed closeRow Session.primed primedDb
      simp only
      rw [moved]
  | error e =>
      unfold closed closeRow Session.primed primedDb
      simp only
      rw [moved]

/-- One item, in lockstep. -/
theorem Steady.primed_syncItem (steady : sync.Steady price) (distinct : Distinct t.db.offers)
    (apart : Apart (item :: items)) {r : Except Exn Unit}
    (run : (sync.syncItem dryRun now item).Runs t r u) (runs : List SyncRun) :
    (sync.syncItem dryRun now item).Runs (t.primed sync (item :: items) runs) r
      (u.primed sync items runs) := by
  obtain ⟨q, s, synced, rfl, rfl⟩ := (steady.runs_syncItem distinct).mp run
  have own : s.offer.mappingId = item.mapping.id :=
    (syncOne_spec synced).frame.mappingId.trans rowOf_mappingId
  refine (steady.runs_syncItem (distinct_primed.mpr distinct)).mpr ⟨q, s, ?_, rfl, ?_⟩
  · rw [itemRow_primed apart]
    exact synced
  · rw [opened_primed, closed_primed apart own]

/-- A loop that returns has opened every row that was primed. -/
theorem Steady.primed_syncItems (steady : sync.Steady price) (distinct : Distinct t.db.offers)
    (apart : Apart items) {r : Except Exn Unit}
    (run : (sync.syncItems dryRun now items).Runs t r u) (runs : List SyncRun) :
    ∃ rest, (sync.syncItems dryRun now items).Runs (t.primed sync items runs) r
      (u.primed sync rest runs) ∧ (r = .ok () → rest = []) := by
  induction items generalizing t with
  | nil =>
      obtain ⟨rfl, rfl⟩ := runs_pure.mp run
      exact ⟨[], runs_pure.mpr ⟨rfl, rfl⟩, fun _ => rfl⟩
  | cons item rest ih =>
      rcases runs_bind.mp run with ⟨⟨⟩, m, first, later⟩ | ⟨e, first, rfl⟩
      · obtain ⟨left, ran, done⟩ := ih (steady.distinct_syncItem distinct first) apart.tail later
        exact ⟨left, (runs_bind_of_ok (steady.primed_syncItem distinct apart first runs)).mpr ran,
          done⟩
      · refine ⟨rest, runs_bind.mpr (.inr ⟨e, ?_, rfl⟩), fun same => by cases same⟩
        exact steady.primed_syncItem distinct apart first runs

/-! ## Whole runs -/

theorem Steady.primed_flushSession (steady : sync.Steady price) {r : Except Exn Unit}
    (run : sync.flushSession.Runs t r u) :
    sync.flushSession.Runs (t.primed sync items runs) r (u.primed sync items runs) := by
  obtain ⟨rfl, answer⟩ := steady.runs_flushSession.mp run
  refine steady.runs_flushSession.mpr ⟨rfl, ?_⟩
  rw [distinct_primed]
  exact answer

theorem Steady.primed_closeRun (steady : sync.Steady price) {kind : String} {error : Option Exn}
    {r : Except Exn Unit} (run : (sync.closeRun kind error).Runs t r u) (runs : List SyncRun) :
    ∃ runs', (sync.closeRun kind error).Runs (t.primed sync items runs) r
      (u.primed sync items runs') :=
  ⟨runs ++ [SyncRun.close kind t.stats (error.map Exn.text) (sync.now t.world)],
    runs_modify_bind.mpr (steady.primed_flushSession (runs_modify_bind.mp run))⟩

/-- The recorder adds nothing that differs but its own entry. -/
theorem Steady.primed_recorded (steady : sync.Steady price) (distinct : Distinct t.db.offers)
    {kind : String} {block : Prog Exn (Session W) Unit} {r : Except Exn Stats}
    (lockstep : ∀ {q m}, block.Runs t q m → ∃ rest runs', block.Runs (t.primed sync items runs) q
      (m.primed sync rest runs') ∧ (q = .ok () → rest = []))
    (run : (sync.recorded kind block).Runs t r u) :
    ∃ rest runs', (sync.recorded kind block).Runs (t.primed sync items runs) r
      (u.primed sync rest runs') ∧ ∀ stats, r = .ok stats → rest = [] := by
  have kept : Distinct (t.primed sync items runs).db.offers := distinct_primed.mpr distinct
  have primed := steady.flushes kept
  unfold recorded at run ⊢
  rw [runs_bind_of_ok (steady.flushes distinct)] at run
  simp only [runs_bind_of_ok primed]
  rcases runs_bind.mp run with ⟨⟨⟩, m, caught, rest⟩ | ⟨e, caught, rfl⟩
  · rcases runs_tryCatch.mp caught with ⟨⟨⟩, ran, -⟩ | ⟨_, _, -, handled⟩
    swap
    · rcases runs_bind.mp handled with ⟨_, _, -, thrown⟩ | ⟨_, -, same⟩
      · cases (runs_throw.mp thrown).1
      · cases same
    obtain ⟨left, runs', ran', done⟩ := lockstep ran
    cases done rfl
    simp only [runs_bind_of_ok (runs_tryCatch.mpr (.inl ⟨(), ran', rfl⟩))]
    rcases runs_bind.mp rest with ⟨⟨⟩, n, closed, returned⟩ | ⟨e, closed, rfl⟩
    · obtain ⟨runs'', closed'⟩ := steady.primed_closeRun closed runs'
      rw [runs_get_bind] at returned
      obtain ⟨rfl, rfl⟩ := runs_pure.mp returned
      refine ⟨[], runs'', (runs_bind_of_ok closed').mpr ?_, fun _ _ => rfl⟩
      exact runs_get_bind.mpr (runs_pure.mpr ⟨rfl, rfl⟩)
    · obtain ⟨runs'', closed'⟩ := steady.primed_closeRun closed runs'
      exact ⟨[], runs'', runs_bind.mpr (.inr ⟨e, closed', rfl⟩), fun _ _ => rfl⟩
  · rcases runs_tryCatch.mp caught with ⟨_, _, same⟩ | ⟨e', m, ran, handled⟩
    · cases same
    obtain ⟨left, runs', ran', -⟩ := lockstep ran
    have raised : ∃ runs'', (sync.closeRun kind (some e') >>= fun _ => throw e' :
        Prog Exn (Session W) Unit).Runs (m.primed sync left runs') (.error e)
        (u.primed sync left runs'') := by
      rcases runs_bind.mp handled with ⟨⟨⟩, n, closed, thrown⟩ | ⟨e'', closed, same⟩
      · obtain ⟨runs'', closed'⟩ := steady.primed_closeRun closed runs'
        obtain ⟨same, rfl⟩ := runs_throw.mp thrown
        exact ⟨runs'', (runs_bind_of_ok closed').mpr (runs_throw.mpr ⟨same, rfl⟩)⟩
      · obtain ⟨runs'', closed'⟩ := steady.primed_closeRun closed runs'
        exact ⟨runs'', runs_bind.mpr (.inr ⟨e'', closed', same⟩)⟩
    obtain ⟨runs'', raised⟩ := raised
    refine ⟨left, runs'', runs_bind.mpr (.inr ⟨e, ?_, rfl⟩), fun _ same => by cases same⟩
    exact runs_tryCatch.mpr (.inr ⟨e', _, ran', raised⟩)

/-- A run, in lockstep. -/
theorem Steady.primed_run (steady : sync.Steady price) (distinct : Distinct t.db.offers)
    {count : Option ℕ} {r : Except Exn Stats} (run : (sync.run count dryRun).Runs t r u)
    (runs : List SyncRun) :
    ∃ rest runs', (sync.run count dryRun).Runs (t.primed sync (sync.syncable t.db count) runs) r
      (u.primed sync rest runs') ∧ ∀ stats, r = .ok stats → rest = [] := by
  rw [run_eq_recorded] at run ⊢
  simp only [runs_get_bind] at run ⊢
  refine steady.primed_recorded distinct (fun {q m} ran => ?_) run
  rcases runs_bind.mp ran with ⟨⟨⟩, n, looped, flushed⟩ | ⟨e, looped, rfl⟩
  · obtain ⟨rest, looped', done⟩ :=
      steady.primed_syncItems distinct (nodup_syncable sync t.db count) looped runs
    exact ⟨rest, runs, (runs_bind_of_ok looped').mpr (steady.primed_flushSession flushed),
      fun _ => done rfl⟩
  · obtain ⟨rest, looped', done⟩ :=
      steady.primed_syncItems distinct (nodup_syncable sync t.db count) looped runs
    exact ⟨rest, runs, runs_bind.mpr (.inr ⟨e, looped', rfl⟩), fun same => by cases same⟩

/-! ## The dry run itself -/

/-- Putting a row back as it was opened. -/
theorem closeRow_itemRow :
    closeRow (sync.opened t item) (sync.itemRow t item) = sync.opened t item := by
  obtain ⟨there, -⟩ := Table.find?_eq_some_iff.mp (find?_opened sync t item)
  unfold closeRow itemRow openRow
  rw [Table.save_of_mem there]

theorem Steady.dry_actionOf (steady : sync.Steady price) (distinct : Distinct t.db.offers) :
    (sync.actionOf true now item).Runs t
      (.ok (dryAction (wanted price item) (sync.rowOf t.db.offers item))) (sync.opened t item) :=
  (steady.runs_actionOf distinct).mpr ⟨_, runs_dry _ _ _, closeRow_itemRow.symm⟩

theorem Steady.dry_syncItems (steady : sync.Steady price) (distinct : Distinct t.db.offers)
    (now : Time) (items : List Item) :
    ∃ stats, (sync.syncItems true now items).Runs t (.ok ())
      { t.primed sync items t.db.syncRuns with stats := stats } := by
  induction items generalizing t with
  | nil => exact ⟨t.stats, runs_pure.mpr ⟨rfl, rfl⟩⟩
  | cons item rest ih =>
      have first : (sync.syncItem true now item).Runs t (.ok ()) { sync.opened t item with
          stats := (sync.opened t item).stats.bump
            (dryAction (wanted price item) (sync.rowOf t.db.offers item)) 1 } := by
        rw [syncItem_eq]
        exact (runs_bind_of_ok (steady.dry_actionOf distinct)).mpr (runs_modify.mpr ⟨rfl, rfl⟩)
      obtain ⟨stats, later⟩ := ih (steady.distinct_syncItem distinct first)
      exact ⟨stats, (runs_bind_of_ok first).mpr later⟩

/-- A run whose loop gets to its end completes. -/
theorem Steady.run_of_loop (steady : sync.Steady price) (distinct : Distinct t.db.offers)
    {count : Option ℕ} (looped : (sync.syncItems dryRun (sync.now t.world)
      (sync.syncable t.db count)).Runs t (.ok ()) u) :
    ∃ runs, (sync.run count dryRun).Runs t (.ok u.stats)
      { u with db := { u.db with syncRuns := runs } } := by
  have kept : Distinct u.db.offers := steady.distinct_syncItems distinct looped
  refine ⟨u.db.syncRuns ++ [SyncRun.close ("offers:" ++ sync.adapter.code) u.stats none
    (sync.now u.world)], ?_⟩
  rw [run_eq_recorded, runs_get_bind]
  unfold recorded
  have ran : (sync.runBlock count dryRun t).Runs t (.ok ()) u :=
    (runs_bind_of_ok looped).mpr (steady.flushes kept)
  rw [runs_bind_of_ok (steady.flushes distinct),
    runs_bind_of_ok (runs_tryCatch.mpr (.inl ⟨(), ran, rfl⟩))]
  have closed : (sync.closeRun ("offers:" ++ sync.adapter.code) none).Runs u (.ok ()) _ :=
    runs_modify_bind.mpr (steady.flushes kept)
  exact (runs_bind_of_ok closed).mpr (runs_get_bind.mpr (runs_pure.mpr ⟨rfl, rfl⟩))

/-- A dry run completes, and leaves the session it started in with the rows it opened. -/
theorem Steady.dry_run (steady : sync.Steady price) (distinct : Distinct t.db.offers)
    (count : Option ℕ) :
    ∃ stats runs, (sync.run count true).Runs t (.ok stats)
      { t.primed sync (sync.syncable t.db count) runs with stats := stats } := by
  obtain ⟨stats, looped⟩ := steady.dry_syncItems distinct (sync.now t.world)
    (sync.syncable t.db count)
  obtain ⟨runs, ran⟩ := steady.run_of_loop distinct looped
  exact ⟨stats, runs, ran⟩

/-! ## Reports -/

/-- A run started in `t` gets to `item` and counts it as `action`. -/
def Reports (sync : OfferSync W) (count : Option ℕ) (dryRun : Bool) (t : Session W) (item : Item)
    (action : StatKey) : Prop :=
  ∃ before after m u v, sync.syncable t.db count = before ++ item :: after ∧
    sync.flushSession.Runs t (.ok ()) m ∧
    (sync.syncItems dryRun (sync.now t.world) before).Runs m (.ok ()) u ∧
    (sync.actionOf dryRun (sync.now t.world) item).Runs u (.ok action) v

theorem Reports.mem {count : Option ℕ} {action : StatKey}
    (reports : sync.Reports count dryRun t item action) : item ∈ sync.syncable t.db count := by
  obtain ⟨before, after, _, _, _, split, -⟩ := reports
  rw [split]
  exact List.mem_append_right _ List.mem_cons_self

theorem syncItems_append (before after : List Item) :
    sync.syncItems dryRun now (before ++ after) =
      sync.syncItems dryRun now before >>= fun _ => sync.syncItems dryRun now after := by
  induction before with
  | nil => exact (pure_bind _ _).symm
  | cons item rest ih =>
      rw [List.cons_append, syncItems, syncItems, bind_assoc, ih]

variable {count : Option ℕ} {action : StatKey}

/-- An item that is reported as skipped has a row that records what is desired. -/
theorem Steady.reports_skipped_iff (steady : sync.Steady price) (distinct : Distinct t.db.offers)
    (reports : sync.Reports count dryRun t item action) :
    action = .skippedUnchanged ↔ Shows (wanted price item) (sync.rowOf t.db.offers item) := by
  obtain ⟨before, after, m, u, v, split, flushed, looped, acted⟩ := reports
  obtain ⟨rfl, -⟩ := steady.runs_flushSession.mp flushed
  obtain ⟨s, synced, -⟩ := (steady.runs_actionOf (steady.distinct_syncItems distinct looped)).mp acted
  have absent : item.mapping.id ∉ before.map fun item => item.mapping.id := by
    have apart := nodup_syncable sync m.db count
    rw [split, List.map_append, List.nodup_append] at apart
    exact fun mem => apart.2.2 _ mem _ List.mem_cons_self rfl
  rw [syncOne_skips_iff synced, ← steady.rowOf_syncItems distinct absent looped]
  rfl

/-- A dry run reports every item it selects. -/
theorem Steady.dry_reports (steady : sync.Steady price) (distinct : Distinct t.db.offers)
    (mem : item ∈ sync.syncable t.db count) : ∃ action, sync.Reports count true t item action := by
  obtain ⟨before, after, split⟩ := List.append_of_mem mem
  obtain ⟨stats, looped⟩ := steady.dry_syncItems distinct (sync.now t.world) before
  exact ⟨_, before, after, t, _, _, split, steady.flushes distinct, looped,
    steady.dry_actionOf (steady.distinct_syncItems distinct looped)⟩

/-- The loop of a run that completes. -/
theorem Steady.run_loop (steady : sync.Steady price) (distinct : Distinct t.db.offers)
    {stats : Stats} (run : (sync.run count dryRun).Runs t (.ok stats) u) :
    ∃ m, (sync.syncItems dryRun (sync.now t.world) (sync.syncable t.db count)).Runs t (.ok ()) m ∧
      stats = m.stats := by
  rw [run_eq_recorded, runs_get_bind] at run
  unfold recorded at run
  rw [runs_bind_of_ok (steady.flushes distinct)] at run
  rcases runs_bind.mp run with ⟨⟨⟩, n, caught, rest⟩ | ⟨e, -, same⟩
  swap
  · cases same
  rcases runs_tryCatch.mp caught with ⟨⟨⟩, ran, -⟩ | ⟨_, _, -, handled⟩
  · rcases runs_bind.mp ran with ⟨⟨⟩, m, looped, flushed⟩ | ⟨e, -, same⟩
    · rcases runs_bind.mp rest with ⟨⟨⟩, k, closed, returned⟩ | ⟨e, -, same⟩
      · obtain ⟨rfl, -⟩ := steady.runs_flushSession.mp flushed
        obtain ⟨rfl, -⟩ := steady.runs_flushSession.mp (runs_modify_bind.mp closed)
        rw [runs_get_bind] at returned
        obtain ⟨same, -⟩ := runs_pure.mp returned
        cases same
        exact ⟨_, looped, rfl⟩
      · cases same
    · cases same
  · rcases runs_bind.mp handled with ⟨_, _, -, thrown⟩ | ⟨_, -, same⟩
    · cases (runs_throw.mp thrown).1
    · cases same

/-- A run that completes reports every item it selects. -/
theorem Steady.completed_reports (steady : sync.Steady price) (distinct : Distinct t.db.offers)
    {stats : Stats} (run : (sync.run count dryRun).Runs t (.ok stats) u)
    (mem : item ∈ sync.syncable t.db count) : ∃ action, sync.Reports count dryRun t item action := by
  obtain ⟨m, looped, -⟩ := steady.run_loop distinct run
  obtain ⟨before, after, split⟩ := List.append_of_mem mem
  rw [split, syncItems_append] at looped
  rcases runs_bind.mp looped with ⟨⟨⟩, n, first, later⟩ | ⟨e, -, same⟩
  · rcases runs_bind.mp later with ⟨⟨⟩, k, synced, -⟩ | ⟨e, -, same⟩
    · rw [syncItem_eq] at synced
      rcases runs_bind.mp synced with ⟨action, k', acted, -⟩ | ⟨e, -, same⟩
      · exact ⟨action, before, after, t, n, k', split, steady.flushes distinct, first, acted⟩
      · cases same
    · cases same
  · cases same

/-- The items that are skipped. -/
def skips (sync : OfferSync W) (price : Item → ℚ) (offers : Table StoreOffer.mappingId)
    (items : List Item) : ℕ :=
  items.countP fun item => Shows (wanted price item) (sync.rowOf offers item)

theorem Steady.skipped_syncItems (steady : sync.Steady price) (distinct : Distinct t.db.offers)
    (apart : Apart items) (run : (sync.syncItems dryRun now items).Runs t (.ok ()) u) :
    u.stats.get .skippedUnchanged =
      t.stats.get .skippedUnchanged + sync.skips price t.db.offers items := by
  induction items generalizing t with
  | nil =>
      obtain ⟨-, rfl⟩ := runs_pure.mp run
      rfl
  | cons item rest ih =>
      rcases runs_bind.mp run with ⟨⟨⟩, m, first, later⟩ | ⟨e, -, same⟩
      swap
      · cases same
      have others : sync.skips price m.db.offers rest = sync.skips price t.db.offers rest := by
        refine List.countP_congr fun other mem => ?_
        have ne : other.mapping.id ≠ item.mapping.id := fun same =>
          (List.nodup_cons.mp apart).1 (List.mem_map.mpr ⟨other, mem, same⟩)
        rw [steady.rowOf_syncItem distinct ne first]
      rw [ih (steady.distinct_syncItem distinct first) apart.tail later, others]
      obtain ⟨q, s, synced, same, rfl⟩ := (steady.runs_syncItem distinct).mp first
      cases q with
      | error e => cases same
      | ok k =>
          have skipped : .skippedUnchanged = k ↔
              Shows (wanted price item) (sync.rowOf t.db.offers item) :=
            eq_comm.trans (syncOne_skips_iff synced)
          change ((t.stats.bump .examined 1).bump k 1).get .skippedUnchanged + _ = _
          rw [Stats.get_bump, Stats.get_bump, if_neg StatKey.noConfusion, Nat.add_zero]
          unfold skips
          simp only [List.countP_cons, skipped, decide_eq_true_eq]
          omega

/-! ## Sessions -/

/-- What a session on a working database leaves, by where its body ended. -/
def leftBy {α : Type} (db : Db) : Except Exn α → Session W → Left W α
  | .ok a, u =>
    if Distinct u.db.offers then ⟨.ok a, u.db, u.world, u.trace⟩
    else ⟨.error (.database .integrityError), db, u.world, u.trace⟩
  | .error e, u => ⟨.error e, db, u.world, u.trace⟩

theorem leftBy_of_distinct {α : Type} {db : Db} {a : α} (distinct : Distinct u.db.offers) :
    leftBy db (.ok a) u = ⟨.ok a, u.db, u.world, u.trace⟩ := if_pos distinct

theorem leftBy_of_clash {α : Type} {db : Db} {a : α} (clash : ¬ Distinct u.db.offers) :
    leftBy db (.ok a) u = ⟨.error (.database .integrityError), db, u.world, u.trace⟩ := if_neg clash

theorem leftBy_eq_ok {α : Type} {db : Db} {r : Except Exn α} {a : α}
    (completed : (leftBy db r u).result = .ok a) : r = .ok a := by
  cases r with
  | error e => cases completed
  | ok b =>
      by_cases distinct : Distinct u.db.offers
      · rw [leftBy_of_distinct distinct] at completed
        exact completed
      · rw [leftBy_of_clash distinct] at completed
        cases completed

theorem Steady.sessionScope_eq {α : Type} (steady : sync.Steady price)
    {body : Prog Exn (Session W) α} {db : Db} {world : W} {trace : List Entry} {r : Except Exn α}
    (run : body.Runs ⟨db, world, trace, []⟩ r u) :
    sync.sessionScope body db world trace = leftBy db r u := by
  unfold sessionScope
  cases r with
  | error e =>
      have raised : (do let a ← body; sync.flushSession; pure a : Prog Exn (Session W) α).Runs
          ⟨db, world, trace, []⟩ (.error e) u := runs_bind.mpr (.inr ⟨e, run, rfl⟩)
      rw [show Prog.exec _ _ = _ from raised]
      rfl
  | ok a =>
      by_cases distinct : Distinct u.db.offers
      · have committed : (do let a ← body; sync.flushSession; pure a : Prog Exn (Session W) α).Runs
            ⟨db, world, trace, []⟩ (.ok a) u :=
          (runs_bind_of_ok run).mpr
            ((runs_bind_of_ok (steady.flushes distinct)).mpr (runs_pure.mpr ⟨rfl, rfl⟩))
        rw [show Prog.exec _ _ = _ from committed]
        exact (leftBy_of_distinct distinct).symm
      · have clashed := steady.runs_flushSession.mpr ⟨rfl, .inr ⟨distinct, rfl⟩⟩
        have rolledBack : (do let a ← body; sync.flushSession; pure a :
            Prog Exn (Session W) α).Runs ⟨db, world, trace, []⟩
            (.error (.database .integrityError)) u :=
          (runs_bind_of_ok run).mpr (runs_bind.mpr (.inr ⟨_, clashed, rfl⟩))
        rw [show Prog.exec _ _ = _ from rolledBack]
        exact (leftBy_of_clash distinct).symm

/-- One session of the offer sync. -/
def runSession (sync : OfferSync W) (count : Option ℕ) (dryRun : Bool) (db : Db) (world : W)
    (trace : List Entry) : Left W Stats :=
  sync.sessionScope (sync.run count dryRun) db world trace

/-- A real run that starts in `primed`, compared with one that starts in `bare`. -/
structure SameRun (primed bare : Db) (after without : Left W Stats) : Prop where
  result : after.result = without.result
  trace : after.trace = without.trace
  world : after.world = without.world
  committed : ∀ stats, without.result = .ok stats →
    after.db.offers = without.db.offers ∧ after.db.priceChangeLog = without.db.priceChangeLog
  rolledBack : ∀ e, without.result = .error e → after.db = primed ∧ without.db = bare

/-- A real session over a primed database. -/
theorem Steady.sameRun_primed (steady : sync.Steady price) {db : Db} (distinct : Distinct db.offers)
    (count : Option ℕ) (runs : List SyncRun) (world : W) (trace : List Entry) :
    SameRun (sync.primedDb db (sync.syncable db count) runs) db
      (sync.runSession count false (sync.primedDb db (sync.syncable db count) runs) world trace)
      (sync.runSession count false db world trace) := by
  obtain ⟨r, u, run⟩ : ∃ r u, (sync.run count false).Runs ⟨db, world, trace, []⟩ r u :=
    ⟨_, _, runs_exec ..⟩
  obtain ⟨rest, runs', lockstep, done⟩ := steady.primed_run distinct run runs
  have after : sync.runSession count false (sync.primedDb db (sync.syncable db count) runs) world
      trace = leftBy _ r (u.primed sync rest runs') := steady.sessionScope_eq lockstep
  have without : sync.runSession count false db world trace = leftBy db r u :=
    steady.sessionScope_eq run
  rw [after, without]
  cases r with
  | error e => exact ⟨rfl, rfl, rfl, fun stats same => (by cases same), fun e' _ => ⟨rfl, rfl⟩⟩
  | ok stats =>
      cases done stats rfl
      by_cases clear : Distinct u.db.offers
      · rw [leftBy_of_distinct clear, leftBy_of_distinct (distinct_primed.mpr clear)]
        exact ⟨rfl, rfl, rfl, fun _ _ => ⟨rfl, rfl⟩, fun e same => by cases same⟩
      · rw [leftBy_of_clash clear, leftBy_of_clash fun primed => clear (distinct_primed.mp primed)]
        exact ⟨rfl, rfl, rfl, fun _ same => (by cases same), fun e _ => ⟨rfl, rfl⟩⟩

/-- What a dry run is for the real run it stands for. -/
structure Rehearses (sync : OfferSync W) (count : Option ℕ) (db : Db) (world : W)
    (trace : List Entry) (dry : Left W Stats) : Prop where
  completed : ∃ stats, dry.result = .ok stats
  silent : dry.trace = trace
  world_eq : dry.world = world
  /-- nothing is written but blank rows and the entry of the run -/
  frame : dry.db = { db with offers := dry.db.offers, syncRuns := dry.db.syncRuns }
  blanks : dry.db.offers.rows = db.offers.rows ++ ((sync.syncable db count).map sync.blank).filter
    fun blank => (db.offers.find? blank.mappingId).isNone
  reports : ∀ item ∈ sync.syncable db count, ∃ action,
    sync.Reports count true ⟨db, world, trace, []⟩ item action
  /-- the real run skips what the dry run skips, as far as it gets -/
  skips : ∀ item action, sync.Reports count false ⟨db, world, trace, []⟩ item action →
    (action = .skippedUnchanged ↔
      sync.Reports count true ⟨db, world, trace, []⟩ item .skippedUnchanged)
  finishes : ∀ stats, (sync.runSession count false db world trace).result = .ok stats →
    (∀ item ∈ sync.syncable db count, ∃ action,
      sync.Reports count false ⟨db, world, trace, []⟩ item action) ∧
    ∀ dryStats, dry.result = .ok dryStats →
      stats.get .skippedUnchanged = dryStats.get .skippedUnchanged
  repeats : ∀ w calls, SameRun dry.db db (sync.runSession count false dry.db w calls)
    (sync.runSession count false db w calls)

theorem Steady.rehearses (steady : sync.Steady price) {db : Db} (distinct : Distinct db.offers)
    (count : Option ℕ) (world : W) (trace : List Entry) :
    sync.Rehearses count db world trace (sync.runSession count true db world trace) := by
  obtain ⟨stats, runs, ran⟩ := steady.dry_run (t := ⟨db, world, trace, []⟩) distinct count
  have left : sync.runSession count true db world trace =
      ⟨.ok stats, sync.primedDb db (sync.syncable db count) runs, world, trace⟩ :=
    (steady.sessionScope_eq ran).trans (leftBy_of_distinct (distinct_primed.mpr distinct))
  have skipped : ∀ {dryRun item action},
      sync.Reports count dryRun ⟨db, world, trace, []⟩ item action →
      (action = .skippedUnchanged ↔ Shows (wanted price item) (sync.rowOf db.offers item)) :=
    fun reports => steady.reports_skipped_iff distinct reports
  have counted : ∀ {dryRun stats u}, (sync.run count dryRun).Runs ⟨db, world, trace, []⟩
      (.ok stats) u → stats.get .skippedUnchanged =
        sync.skips price db.offers (sync.syncable db count) := by
    intro dryRun stats u run
    obtain ⟨m, looped, rfl⟩ := steady.run_loop distinct run
    rw [steady.skipped_syncItems distinct (nodup_syncable sync db count) looped]
    exact Nat.zero_add _
  have reported : ∀ item ∈ sync.syncable db count, ∃ action,
      sync.Reports count true ⟨db, world, trace, []⟩ item action :=
    fun item mem => steady.dry_reports distinct mem
  rw [left]
  refine ⟨⟨stats, rfl⟩, rfl, rfl, rfl, ?_, reported, ?_, ?_, ?_⟩
  · refine Table.rows_ensureAll ?_
    rw [List.map_map]
    exact nodup_syncable sync db count
  · intro item action reports
    obtain ⟨dryAction, dryReports⟩ := reported item reports.mem
    rw [skipped reports, ← skipped dryReports]
    constructor
    · rintro rfl
      exact dryReports
    · exact fun skips => (skipped dryReports).mpr ((skipped skips).mp rfl)
  · intro stats' completed
    obtain ⟨r, u, run⟩ : ∃ r u, (sync.run count false).Runs ⟨db, world, trace, []⟩ r u :=
      ⟨_, _, runs_exec ..⟩
    have returned : r = .ok stats' := by
      have ended : sync.runSession count false db world trace = leftBy db r u :=
        steady.sessionScope_eq run
      rw [ended] at completed
      exact leftBy_eq_ok completed
    subst returned
    refine ⟨fun item mem => steady.completed_reports distinct run mem, fun dryStats same => ?_⟩
    cases same
    rw [counted run, counted ran]
  · exact fun w calls => steady.sameRun_primed distinct count runs w calls

/-- A pinned rate on a working database. -/
theorem steady_of_pinned {source : Pricing.Source W} {rate : ℚ}
    (priced : sync.pricer = source.pricer) (pinned : source.settings.fxRateUsdEur = some rate)
    (working : ∀ w, sync.database w = (none, w)) :
    sync.Steady fun item =>
      source.price rate item.supplierProduct item.mapping item.storeProduct := by
  refine ⟨fun item rates => ?_, working⟩
  rw [priced]
  exact Pricing.runs_pricer_of_pinned pinned ..

/-- With a pinned rate, on a working database, a dry run makes no call and changes no row, skips
what the real run skips, and leaves the real run as it would be without it: the same calls,
the same result, and the same offers where that run completes. -/
theorem dryRun_rehearses (sync : OfferSync W) (source : Pricing.Source W) {rate : ℚ}
    (priced : sync.pricer = source.pricer) (pinned : source.settings.fxRateUsdEur = some rate)
    (working : ∀ w, sync.database w = (none, w)) {db : Db}
    (distinct : db.offers.rows.Pairwise fun a b => ¬ SameOffer a b) (count : Option ℕ) (world : W)
    (trace : List Entry) :
    sync.Rehearses count db world trace (sync.runSession count true db world trace) :=
  (steady_of_pinned priced pinned working).rehearses distinct count world trace

end OfferSync

namespace EchoStore

open OfferSync Prog

/-- The second product, offered as it should be. -/
def settledRow : StoreOffer :=
  { (offers settings adapter).newOffer (mapping 2) (storeProduct 2 none) with
    offerExtId := some "2"
    state := .live
    active := true
    pushedPrice := some (23 / 2)
    pushedInventory := some 5
    pushedActive := some true }

/-- The first product has never been offered. -/
def settledDb : Db := { db with offers := ⟨[settledRow], by decide⟩ }

theorem settledDb_distinct : settledDb.offers.rows.Pairwise fun a b => ¬ SameOffer a b := by decide

theorem dryRun_rehearses_settled : (offers settings adapter).Rehearses none settledDb 0 []
    ((offers settings adapter).runSession none true settledDb 0 []) :=
  dryRun_rehearses (offers settings adapter) (pricing settings) rfl rfl (fun _ => rfl)
    settledDb_distinct none 0 []

/-- The store, with answers to creates that the client cannot read. -/
def garbled : Adapter Time :=
  { adapter with createOffer := fun _ _ _ _ w => (.error (.other "JSONDecodeError"), w) }

def firstItem : Item := ⟨mapping 1, supplierProduct 1 10, storeProduct 1 none⟩

def secondItem : Item := ⟨mapping 2, supplierProduct 2 10, storeProduct 2 none⟩

/-- A real run that aborts at the first product does not get to the second one, which the dry
run reports as skipped; and it leaves the blank row of the first one where a dry run made it. -/
theorem aborted_run_differs :
    ¬ (∀ item, (offers settings garbled).Reports none true ⟨settledDb, 0, [], []⟩ item
        .skippedUnchanged ↔
      (offers settings garbled).Reports none false ⟨settledDb, 0, [], []⟩ item .skippedUnchanged) ∧
    ((offers settings garbled).runSession none false
        ((offers settings garbled).runSession none true settledDb 0 []).db 0 []).db.offers.rows ≠
      ((offers settings garbled).runSession none false settledDb 0 []).db.offers.rows := by
  have items : (offers settings garbled).syncable settledDb none = [firstItem, secondItem] := rfl
  refine ⟨fun same => ?_, by decide +kernel⟩
  have steady : (offers settings garbled).Steady _ :=
    steady_of_pinned (rfl : _ = (pricing settings).pricer) rfl fun _ => rfl
  have selected : secondItem ∈ (offers settings garbled).syncable settledDb none := by
    rw [items]
    exact List.mem_cons_of_mem _ List.mem_cons_self
  obtain ⟨action, dry⟩ := steady.dry_reports (t := ⟨settledDb, 0, [], []⟩) settledDb_distinct selected
  have skipped : action = .skippedUnchanged :=
    (steady.reports_skipped_iff (t := ⟨settledDb, 0, [], []⟩) settledDb_distinct dry).mpr
      (by decide +kernel)
  subst skipped
  obtain ⟨before, after, m, u, v, split, flushed, looped, -⟩ := (same secondItem).mp dry
  rw [items] at split
  cases flushed
  cases before with
  | nil => cases split
  | cons item rest =>
      rw [List.cons_append, List.cons.injEq] at split
      obtain ⟨rfl, -⟩ := split
      rcases runs_bind.mp looped with ⟨⟨⟩, n, synced, -⟩ | ⟨e, -, same⟩
      · cases synced
      · cases same

end EchoStore

end FazerBridge
