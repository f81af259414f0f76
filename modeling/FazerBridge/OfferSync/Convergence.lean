import FazerBridge.OfferSync.Mirror

/-!
# A run that has nothing left to do

A run that defers nothing, fails nothing and awaits nothing leaves every row of its items
with what is desired of it (`returned_items`).  Over a store that applies what it accepts
the offers then show it, so the run ends with the store as the database wants it.
-/

namespace FazerBridge

namespace OfferSync

open Prog

variable {W : Type} {sync : OfferSync W} {t u : Session W} {item : Item} {items : List Item}
  {now : Time}

/-- What counts against a run: an offer it did not bring up to date. -/
def StatKey.isLeft : StatKey → Bool
  | .deferredPriceBudget | .deferredRateLimited | .awaitingJob | .errors => true
  | _ => false

/-- Nothing was left behind. -/
def Clean (stats : Stats) : Prop := ∀ key, StatKey.isLeft key = true → stats.get key = 0

/-- A row that was brought up to date records what is desired. -/
theorem SyncsOne.shows {desired : DesiredOffer} {s s' : RowState W} {k : StatKey}
    (syncs : sync.SyncsOne desired false now s (.ok k) s') (done : StatKey.isLeft k = false) :
    Shows desired s'.offer := by
  generalize result : (Except.ok k : Except Exn StatKey) = r at syncs
  cases syncs with
  | unchanged price stock active => exact ⟨price, stock, active⟩
  | dry dry => cases dry
  | raised => cases result
  | pushed _ changed pushes =>
      cases result
      cases pushes.remembered with
      | pushed _ price inventory active => exact ⟨price, inventory, active⟩
      | deferred => cases done
      | unpushed answered => rcases answered with rfl | rfl <;> cases done
  | @failed a _ q =>
      cases q with
      | error e => cases result
      | ok _ =>
          simp only [Except.map] at result
          split at result <;> cases result <;> cases done

/-- An item that was processed, with the price it was processed at. -/
theorem syncItem_returned {dryRun : Bool}
    (run : (sync.syncItem dryRun now item).Runs t (.ok ()) u) :
    ∃ price offer m k s, sync.Desires item price ∧ sync.Opens item t offer m ∧
      sync.SyncsOne (desiredAt price item.supplierProduct) dryRun now
        (openRow m offer item.storeProduct.productExtId) (.ok k) s ∧ u = closed m (.ok k) s := by
  unfold syncItem at run
  rcases runs_bind.mp run with ⟨⟨⟩, m, examined, rest⟩ | ⟨e, -, same⟩
  swap
  · cases same
  rcases runs_bind.mp rest with ⟨desired, m', priced, rest⟩ | ⟨e, -, same⟩
  swap
  · cases same
  rcases runs_bind.mp rest with ⟨offer, m'', opened, rest⟩ | ⟨e, -, same⟩
  swap
  · cases same
  rcases runs_bind.mp rest with ⟨action, n, synced, counted⟩ | ⟨e, -, same⟩
  swap
  · cases same
  obtain ⟨-, quiet, -⟩ := quiet_bump sync examined
  obtain ⟨quiet', pricedAt⟩ := quiet_pricing priced
  obtain ⟨price, rfl⟩ := pricedAt _ rfl
  obtain ⟨-, -, rfl⟩ := quiet_bump sync counted
  obtain ⟨s, ran, rfl⟩ := runs_onRow.mp synced
  have guaranteed := ((desires_guaranteed sync).pricing (E := fun _ => True) priced trivial).2 _ rfl
  refine ⟨price, offer, m'', action, s, guaranteed, ?_, syncOne_spec ran, rfl⟩
  refine Opens.quiet_left (quiet.trans quiet') ?_
  rcases offerRow_cases opened with ⟨_, found, same, rfl⟩ | ⟨missing, quiet'', fresh⟩
  · cases same
    exact .known found (.refl _)
  · rw [fresh _ rfl]
    exact .fresh missing quiet''

/-- The row of an item records what is desired at one of its prices. -/
def UpToDate (sync : OfferSync W) (offers : Table StoreOffer.mappingId) (item : Item) : Prop :=
  ∃ row price, offers.find? item.mapping.id = some row ∧ sync.Desires item price ∧
    Shows (desiredAt price item.supplierProduct) row

theorem Opens.stats {offer : StoreOffer} (opens : sync.Opens item t offer u) (key : StatKey) :
    t.stats.get key ≤ u.stats.get key := by
  cases opens with
  | known _ quiet => exact quiet.stats key
  | fresh _ quiet => exact quiet.stats key

theorem Opens.find? {offer : StoreOffer} (opens : sync.Opens item t offer u) :
    u.db.offers.find? item.mapping.id = some offer ∧
      ∀ k, k ≠ item.mapping.id → u.db.offers.find? k = t.db.offers.find? k := by
  cases opens with
  | known found quiet =>
      rw [quiet.offers]
      exact ⟨found, fun _ _ => rfl⟩
  | fresh missing quiet =>
      rw [quiet.offers]
      exact ⟨Table.find?_save_self .., fun k other => Table.find?_save_of_ne _ other⟩

/-- One item: its row is up to date unless the item is left behind, and the other rows
are as they were. -/
theorem syncItem_upToDate (run : (sync.syncItem false now item).Runs t (.ok ()) u)
    (clean : Clean u.stats) :
    sync.UpToDate u.db.offers item ∧ (∀ key, t.stats.get key ≤ u.stats.get key) ∧
      ∀ k, k ≠ item.mapping.id → u.db.offers.find? k = t.db.offers.find? k := by
  obtain ⟨price, offer, m, k, s, desires, opens, syncs, rfl⟩ := syncItem_returned run
  obtain ⟨found, others⟩ := opens.find?
  have own : s.offer.mappingId = item.mapping.id :=
    syncs.frame.mappingId.trans (Table.find?_eq_some_iff.mp found).2
  have done : StatKey.isLeft k = false := by
    by_contra left
    have counted : 0 < (m.stats.bump k 1).get k := Stats.get_bump_pos ..
    exact counted.ne' (clean k (by simpa using left))
  refine ⟨⟨s.offer, price, ?_, desires, syncs.shows done⟩, fun key => ?_, fun k' other => ?_⟩
  · rw [← own]
    exact Table.find?_save_self ..
  · exact (opens.stats key).trans (Stats.get_le_bump ..)
  · exact (Table.find?_save_of_ne _ (own ▸ other)).trans (others k' other)

/-- The loop of a run that leaves nothing behind. -/
theorem syncItems_upToDate (apart : Apart items)
    (run : (sync.syncItems false now items).Runs t (.ok ()) u) (clean : Clean u.stats) :
    (∀ item ∈ items, sync.UpToDate u.db.offers item) ∧
      (∀ key, t.stats.get key ≤ u.stats.get key) ∧
      ∀ k, (∀ item ∈ items, k ≠ item.mapping.id) → u.db.offers.find? k = t.db.offers.find? k := by
  induction items generalizing t with
  | nil =>
      obtain ⟨-, rfl⟩ := runs_pure.mp run
      exact ⟨fun _ mem => (by cases mem), fun _ => le_rfl, fun _ _ => rfl⟩
  | cons item rest ih =>
      rcases runs_bind.mp run with ⟨⟨⟩, m, first, later⟩ | ⟨e, -, same⟩
      swap
      · cases same
      obtain ⟨upToDate, stats, others⟩ := ih apart.tail later
      have cleanFirst : Clean m.stats := fun key left =>
        Nat.eq_zero_of_le_zero (clean key left ▸ stats key)
      obtain ⟨done, statsFirst, othersFirst⟩ := syncItem_upToDate first cleanFirst
      refine ⟨fun other mem => ?_, fun key => (statsFirst key).trans (stats key), fun k apart' => ?_⟩
      · rcases List.mem_cons.mp mem with rfl | mem
        · obtain ⟨row, price, found, facts⟩ := done
          refine ⟨row, price, ?_, facts⟩
          rw [others _ fun next later => (apart.ne later).symm, found]
        · exact upToDate other mem
      · rw [others k fun next later => apart' next (List.mem_cons_of_mem _ later),
          othersFirst k (apart' item List.mem_cons_self)]

/-- A run that returns. -/
theorem run_returned {count : Option ℕ} {dryRun : Bool} {stats : Stats}
    (run : (sync.run count dryRun).Runs t (.ok stats) u) :
    ∃ m n, sync.Quiet t m ∧
      (sync.syncItems dryRun (sync.now t.world) (sync.syncable t.db count)).Runs m (.ok ()) n ∧
      sync.Quiet n u ∧ stats = u.stats := by
  unfold OfferSync.run at run
  rw [runs_get_bind] at run
  rcases runs_bind.mp run with ⟨⟨⟩, m, opened, rest⟩ | ⟨e, -, same⟩
  swap
  · cases same
  rcases runs_bind.mp rest with ⟨⟨⟩, n, body, rest⟩ | ⟨e, -, same⟩
  swap
  · cases same
  rcases runs_bind.mp rest with ⟨⟨⟩, k, done, rest⟩ | ⟨e, -, same⟩
  swap
  · cases same
  rw [runs_get_bind] at rest
  obtain ⟨same, rfl⟩ := runs_pure.mp rest
  cases same
  rcases runs_tryCatch.mp body with ⟨⟨⟩, looped, -⟩ | ⟨e, k', -, handled⟩
  · rcases runs_bind.mp looped with ⟨⟨⟩, k', ran, flushed⟩ | ⟨_, -, same⟩
    · exact ⟨m, k', (quiet_flushSession opened).1, ran,
        (quiet_flushSession flushed).1.trans (quiet_closeRun done), rfl⟩
    · cases same
  · rcases runs_bind.mp handled with ⟨⟨⟩, _, -, thrown⟩ | ⟨_, -, same⟩
    · cases (runs_throw.mp thrown).1
    · cases same

/-- A run that leaves nothing behind leaves every row of its items up to date. -/
theorem returned_items {db : Db} {w : W} {trace : List Entry} {count : Option ℕ} {stats : Stats}
    (returned : (sync.runSession count false db w trace).result = .ok stats) (clean : Clean stats) :
    ∀ item ∈ sync.syncable db count,
      sync.UpToDate (sync.runSession count false db w trace).db.offers item := by
  obtain ⟨r, u, run, ends⟩ := sync.sessionScope_spec (sync.run count false) db w trace
  change sync.Ends db r u (sync.runSession count false db w trace) at ends
  generalize sync.runSession count false db w trace = left at returned ends
  cases ends with
  | rolledBack => cases returned
  | committed same quiet =>
      cases returned
      subst same
      obtain ⟨m, n, -, ran, after, rfl⟩ := run_returned run
      have cleanLoop : Clean n.stats := fun key left =>
        Nat.eq_zero_of_le_zero (clean key left ▸ after.stats key)
      rw [quiet.offers, after.offers]
      exact (syncItems_upToDate (nodup_syncable sync db count) ran cleanLoop).1

/-- What the store should show for an item at a price. -/
def shownAt (item : Item) (price : ℚ) : Shown where
  productExtId := item.storeProduct.productExtId
  price := price
  inventory := (desiredAt price item.supplierProduct).inventory
  active := (desiredAt price item.supplierProduct).active

/-- The store shows what is desired of an item, under the id its row knows if it knows one, or
the row waits for a create that will be reported failed. -/
inductive Wanted (store : StoreState W) (w : W) (item : Item) (price : ℚ) (row : StoreOffer) : Prop
  | doomed {jobId} (unknown : row.offerExtId = none) (pending : truthyId row.pendingJobId = some jobId)
      (fate : store.fate w jobId = some .fails)
  | shown {id} (named : ∀ i, row.offerExtId = some i → i = id)
      (shown : store.shelf w id = some (shownAt item price))

/-- A row that is up to date and equal to its offer has the wanted offer, if it is on the product
of its mapping. -/
theorem Mirrored.wanted {store : StoreState W} {w : W} {row : StoreOffer} {price : ℚ}
    (mirrored : Mirrored True store w row) (shows : Shows (desiredAt price item.supplierProduct) row)
    (own : row.productExtId = item.storeProduct.productExtId) : Wanted store w item price row := by
  cases mirrored with
  | blank _ _ forgotten =>
      have none_ := (forgotten trivial).price.symm.trans shows.1
      cases none_
  | doomed unknown pending fate => exact .doomed unknown pending fate
  | @shown id x shown product named _ remembers =>
      obtain ⟨ofPrice, ofInventory, ofActive⟩ := remembers trivial
      have whole : x = shownAt item price := by
        obtain ⟨p, q, n, b⟩ := x
        have samePrice : q = price := ofPrice price shows.1
        have sameInventory : n = _ := ofInventory _ shows.2.1
        have sameActive : b = _ := ofActive _ shows.2.2
        have sameProduct : p = item.storeProduct.productExtId := product.trans own
        rw [samePrice, sameInventory, sameActive, sameProduct]
        rfl
      exact .shown named (whole ▸ shown)

/-- After a run that left nothing behind the store shows what the database wants of every item
whose row is on its product, and alone there. -/
theorem shown_as_wanted {store : StoreState W} (atomic : Atomic True sync store)
    {db : Db} {w : W} {trace : List Entry} {count : Option ℕ}
    (mirrors : Mirrors True store db.offers w) {stats : Stats}
    (returned : (sync.runSession count false db w trace).result = .ok stats)
    (clean : Clean stats) (mem : item ∈ sync.syncable db count) :
    let left := sync.runSession count false db w trace
    ∃ row price, left.db.offers.find? item.mapping.id = some row ∧ sync.Desires item price ∧
      Shows (desiredAt price item.supplierProduct) row ∧
      (row.productExtId = item.storeProduct.productExtId → Alone left.db.offers row →
        Wanted store left.world item price row) := by
  obtain ⟨row, price, found, desires, shows⟩ := returned_items returned clean item mem
  obtain ⟨there, -⟩ := Table.find?_eq_some_iff.mp found
  refine ⟨row, price, found, desires, shows, fun own alone => ?_⟩
  have keeps := tracks_items atomic db w false (sync.now w)
  rcases keeps.sessionScope (fun ran => keeps.run (fun item mem => mem_syncable_all mem) ran
    (.start mirrors trace [])) rfl with ⟨a, counted, -, tracks⟩ | ⟨e, db', counted, raised, -⟩
  · exact ((tracks.mirrors row there).mono fun _ => ⟨trivial, alone⟩).wanted shows own
  · cases returned.symm.trans raised

end OfferSync

end FazerBridge
