import FazerBridge.OfferSync.DryRun

/-!
# Taking over the offers of a store

An adoption writes the offer the store lists on a product into the row of the product's
mapping (`takenOver`), and nothing else.  A following run processes every row once, as the
adoption left it (`adds_session`), so an adopted offer is updated where it differs and never
created.  A row without an id creates on the product it names, which is that of its mapping at
the time the row was made; where no such row names an adopted product, the adoption takes over
what the store lists (`NamesNoListed.takesOver`).
-/

namespace FazerBridge

namespace OfferSync

open Prog

variable {W : Type} {sync : OfferSync W} {remotes : List StoreOfferView} {items : List Item}
  {t u : Session W} {item : Item} {offers : Table StoreOffer.mappingId}

/-! ## The rows after an adoption -/

/-- Two databases that select the same items. -/
structure SameSelection (db db' : Db) : Prop where
  mappings : db'.mappings = db.mappings
  supplierProducts : db'.supplierProducts = db.supplierProducts
  storeProducts : db'.storeProducts = db.storeProducts

theorem SameSelection.refl (db : Db) : SameSelection db db := ⟨rfl, rfl, rfl⟩

/-- What two parts leave selected their sequence leaves selected. -/
theorem SameSelection.trans {a b c : Db} (first : SameSelection a b) (second : SameSelection b c) :
    SameSelection a c where
  mappings := second.mappings.trans first.mappings
  supplierProducts := second.supplierProducts.trans first.supplierProducts
  storeProducts := second.storeProducts.trans first.storeProducts

/-- A quiet part changes no selection. -/
theorem Quiet.sameSelection (quiet : sync.Quiet t u) : SameSelection t.db u.db :=
  ⟨quiet.mappings, quiet.supplierProducts, quiet.storeProducts⟩

/-- The same rows are selected. -/
theorem SameSelection.syncable {db db' : Db} (same : SameSelection db db') (count : Option ℕ) :
    sync.syncable db' count = sync.syncable db count := by
  unfold OfferSync.syncable itemOf
  rw [same.mappings, same.supplierProducts, same.storeProducts]

/-- The row of an item is its own, or a blank one that is new. -/
theorem offerRow_spec {offer : StoreOffer}
    (run : (sync.offerRow item.mapping item.storeProduct).Runs t (.ok offer) u) :
    offer = sync.rowOf t.db.offers item ∧ u.db.offers = t.db.offers.ensure (sync.blank item) ∧
      SameSelection t.db u.db := by
  rcases offerRow_cases run with ⟨known, found, same, rfl⟩ | ⟨missing, quiet, fresh⟩
  · cases same
    have there : (u.db.offers.find? (sync.blank item).mappingId).isSome :=
      Option.isSome_iff_exists.mpr ⟨offer, found⟩
    exact ⟨by rw [rowOf, found, Option.getD_some], (Table.ensure_of_isSome there).symm, .refl _⟩
  · refine ⟨?_, ?_, quiet.mappings, quiet.supplierProducts, quiet.storeProducts⟩
    · rw [rowOf, missing, Option.getD_none]
      exact fresh offer rfl
    · rw [quiet.offers, Table.ensure_of_eq_none (show t.db.offers.find? (sync.blank item).mappingId
        = none from missing)]
      rfl

/-- Two items of the selection have two mappings. -/
theorem Apart.ne {other : Item} (apart : Apart (item :: items)) (mem : other ∈ items) :
    other.mapping.id ≠ item.mapping.id := by
  intro clash
  have again : other.mapping.id ∈ items.map fun item => item.mapping.id := List.mem_map_of_mem mem
  rw [clash] at again
  exact (List.nodup_cons.mp apart).1 again

/-- The table after one item was adopted. -/
def taken (sync : OfferSync W) (view : StoreOfferView) (item : Item)
    (offers : Table StoreOffer.mappingId) : Table StoreOffer.mappingId :=
  (offers.ensure (sync.blank item)).save (adoptedRow view (sync.rowOf offers item))

/-- The row that takes an offer over is its item's. -/
theorem find?_taken_self (view : StoreOfferView) :
    (sync.taken view item offers).find? item.mapping.id =
      some (adoptedRow view (sync.rowOf offers item)) := by
  have own : (adoptedRow view (sync.rowOf offers item)).mappingId = item.mapping.id :=
    rowOf_mappingId
  rw [taken, ← own, Table.find?_save_self]

/-- Another row stays as it is when an item is adopted. -/
theorem find?_taken_of_ne {view : StoreOfferView} {k : ℕ} (ne : k ≠ item.mapping.id) :
    (sync.taken view item offers).find? k = offers.find? k := by
  have own : (adoptedRow view (sync.rowOf offers item)).mappingId = item.mapping.id :=
    rowOf_mappingId
  rw [taken, Table.find?_save_of_ne _ (own ▸ ne)]
  exact offers.find?_ensure_of_ne (a := sync.blank item) ne

/-- The rows of the other items stay. -/
theorem rowOf_taken_of_ne {view : StoreOfferView} {other : Item}
    (ne : other.mapping.id ≠ item.mapping.id) :
    sync.rowOf (sync.taken view item offers) other = sync.rowOf offers other := by
  rw [rowOf, find?_taken_of_ne ne, rowOf]

/-- The offers after `items` were adopted. -/
def takenOver (sync : OfferSync W) (remotes : List StoreOfferView) :
    List Item → Table StoreOffer.mappingId → Table StoreOffer.mappingId
  | [], offers => offers
  | item :: rest, offers =>
    match listedOn remotes item.storeProduct.productExtId with
    | none => takenOver sync remotes rest offers
    | some view => takenOver sync remotes rest (sync.taken view item offers)

/-- Rows without an offer are all taken over. -/
theorem adoptItems_spec {n : ℕ} (apart : Apart items)
    (bare : ∀ item ∈ items, (sync.rowOf t.db.offers item).offerExtId = none)
    (run : (sync.adoptItems remotes items).Runs t (.ok n) u) :
    u.db.offers = sync.takenOver remotes items t.db.offers ∧ SameSelection t.db u.db := by
  induction items generalizing t n with
  | nil =>
      obtain ⟨-, rfl⟩ := runs_pure.mp run
      exact ⟨rfl, .refl _⟩
  | cons item rest ih =>
      have bareRest : ∀ other ∈ rest, (sync.rowOf t.db.offers other).offerExtId = none :=
        fun other mem => bare other (List.mem_cons_of_mem _ mem)
      unfold adoptItems at run
      unfold takenOver
      cases listed : listedOn remotes item.storeProduct.productExtId with
      | none =>
          rw [listed] at run
          exact ih apart.tail bareRest run
      | some view =>
          rw [listed] at run
          rcases runs_bind.mp run with ⟨offer, m, opened, adopts⟩ | ⟨e, -, same⟩
          swap
          · cases same
          obtain ⟨rfl, ensured, same⟩ := offerRow_spec opened
          rcases runs_ite.mp adopts with ⟨known, -⟩ | ⟨-, adopts⟩
          · rw [bare item List.mem_cons_self] at known
            cases known
          rcases runs_bind.mp (runs_modify_bind.mp adopts) with ⟨k, w, later, done⟩ | ⟨e, -, raised⟩
          swap
          · cases raised
          obtain ⟨-, rfl⟩ := runs_pure.mp done
          have written : m.db.offers.save (adoptedRow view (sync.rowOf t.db.offers item)) =
              sync.taken view item t.db.offers := by
            rw [ensured, taken]
          rw [written] at later
          have bareLater : ∀ other ∈ rest,
              (sync.rowOf (sync.taken view item t.db.offers) other).offerExtId = none := by
            intro other mem
            rw [rowOf_taken_of_ne (apart.ne mem)]
            exact bareRest other mem
          obtain ⟨offers, selection⟩ := ih apart.tail bareLater later
          exact ⟨offers, same.trans
            ⟨selection.mappings, selection.supplierProducts, selection.storeProducts⟩⟩

/-- A row whose product is not listed stays as it was. -/
theorem find?_takenOver_of_unlisted {k : ℕ} (unlisted : ∀ item ∈ items, item.mapping.id = k →
    listedOn remotes item.storeProduct.productExtId = none) :
    (sync.takenOver remotes items offers).find? k = offers.find? k := by
  induction items generalizing offers with
  | nil => rfl
  | cons first rest ih =>
      have later : ∀ item ∈ rest, item.mapping.id = k →
          listedOn remotes item.storeProduct.productExtId = none :=
        fun item mem => unlisted item (List.mem_cons_of_mem _ mem)
      unfold takenOver
      cases there : listedOn remotes first.storeProduct.productExtId with
      | none => exact ih later
      | some view =>
          have ne : k ≠ first.mapping.id := by
            rintro rfl
            cases (unlisted first List.mem_cons_self rfl).symm.trans there
          exact (ih later).trans (find?_taken_of_ne ne)

/-- A row whose product is listed takes that offer over. -/
theorem find?_takenOver (apart : Apart items) (mem : item ∈ items) {view : StoreOfferView}
    (listed : listedOn remotes item.storeProduct.productExtId = some view) :
    (sync.takenOver remotes items offers).find? item.mapping.id =
      some (adoptedRow view (sync.rowOf offers item)) := by
  induction items generalizing offers with
  | nil => cases mem
  | cons first rest ih =>
      unfold takenOver
      rcases List.mem_cons.mp mem with rfl | mem
      · rw [listed]
        rw [find?_takenOver_of_unlisted, find?_taken_self]
        intro other mem same
        exact absurd same (apart.ne mem)
      · cases there : listedOn remotes first.storeProduct.productExtId with
        | none => exact ih apart.tail mem
        | some other =>
            rw [ih apart.tail mem, rowOf_taken_of_ne (apart.ne mem)]

/-- A row with an id is one that was taken over. -/
theorem adopted_of_takenOver (apart : Apart items) {row : StoreOffer}
    (bare : ∀ offer ∈ offers.rows, offer.offerExtId = none)
    (mem : row ∈ (sync.takenOver remotes items offers).rows) (known : row.offerExtId ≠ none) :
    ∃ item ∈ items, ∃ view, listedOn remotes item.storeProduct.productExtId = some view ∧
      row = adoptedRow view (sync.rowOf offers item) := by
  have found := (sync.takenOver remotes items offers).find?_key mem
  by_cases unlisted : ∀ item ∈ items, item.mapping.id = row.mappingId →
      listedOn remotes item.storeProduct.productExtId = none
  · rw [find?_takenOver_of_unlisted unlisted] at found
    exact absurd (bare row (Table.find?_eq_some_iff.mp found).1) known
  · push Not at unlisted
    obtain ⟨item, selected, own, listed⟩ := unlisted
    obtain ⟨view, listed⟩ := Option.ne_none_iff_exists'.mp listed
    rw [← own, find?_takenOver apart selected listed] at found
    exact ⟨item, selected, view, listed, (Option.some.inj found).symm⟩

/-! ## The session of an adoption -/

/-- A flush that returns found the keys distinct. -/
theorem distinct_of_flushed {q : Unit} (run : sync.flushSession.Runs t (.ok q) u) :
    Distinct t.db.offers := by
  have ran := runs_ofState.mp run
  rcases database : sync.database t.world with ⟨fault, world⟩
  cases fault with
  | some e =>
      simp only [database] at ran
      cases ran
  | none =>
      simp only [database] at ran
      split at ran
      · assumption
      · cases ran

/-- No row has an offer or a job. -/
def Bare (offers : Table StoreOffer.mappingId) : Prop :=
  ∀ offer ∈ offers.rows, offer.offerExtId = none ∧ offer.pendingJobId = none

theorem Bare.rowOf (bare : Bare offers) (item : Item) :
    (sync.rowOf offers item).offerExtId = none ∧ (sync.rowOf offers item).pendingJobId = none := by
  unfold OfferSync.rowOf
  cases found : offers.find? item.mapping.id with
  | none => exact ⟨rfl, rfl⟩
  | some offer => exact bare offer (Table.find?_eq_some_iff.mp found).1

/-- What an adoption leaves in the session. -/
theorem adoptExistingOffers_spec {w : W} {adoption : Adoption} (bare : Bare t.db.offers)
    (listing : sync.adapter.listOffers t.world = (.ok remotes, w))
    (run : (sync.adoptExistingOffers).Runs t (.ok adoption) u) :
    u.db.offers = sync.takenOver remotes (sync.syncable t.db none) t.db.offers ∧
      SameSelection t.db u.db := by
  unfold adoptExistingOffers at run
  rcases runs_bind.mp run with ⟨views, m, listed, rest⟩ | ⟨e, -, same⟩
  swap
  · cases same
  obtain ⟨w', answer, rfl⟩ := listOffers_cases listed
  cases listing.symm.trans answer
  rw [runs_get_bind] at rest
  rcases runs_bind.mp rest with ⟨n, m, adopts, rest⟩ | ⟨e, -, same⟩
  swap
  · cases same
  obtain ⟨offers, selection⟩ := adoptItems_spec (t := { t with world := w })
    (nodup_syncable sync t.db none) (fun item _ => (bare.rowOf item).1) adopts
  rcases runs_bind.mp rest with ⟨⟨⟩, m', flushed, rest⟩ | ⟨e, -, same⟩
  swap
  · cases same
  rw [runs_get_bind] at rest
  rcases runs_bind.mp rest with ⟨⟨⟩, m'', flushed', rest⟩ | ⟨e, -, same⟩
  swap
  · cases same
  obtain ⟨-, rfl⟩ := runs_pure.mp rest
  have quiet := (quiet_flushSession flushed).1.trans (quiet_flushSession flushed').1
  exact ⟨quiet.offers.trans offers, selection.trans quiet.sameSelection⟩

/-- What a session of an adoption commits. -/
theorem adopted_session {db : Db} {world w : W} {trace : List Entry} {adoption : Adoption}
    (bare : Bare db.offers) (listing : sync.adapter.listOffers world = (.ok remotes, w))
    (returned : (sync.sessionScope sync.adoptExistingOffers db world trace).result =
      .ok adoption) :
    (sync.sessionScope sync.adoptExistingOffers db world trace).db.offers =
        sync.takenOver remotes (sync.syncable db none) db.offers ∧
      SameSelection db (sync.sessionScope sync.adoptExistingOffers db world trace).db ∧
      Distinct (sync.takenOver remotes (sync.syncable db none) db.offers) := by
  unfold sessionScope at returned ⊢
  generalize result : (do
    let a ← sync.adoptExistingOffers
    sync.flushSession
    pure a : Prog Exn (Session W) Adoption).exec ⟨db, world, trace, []⟩ = left at returned ⊢
  obtain ⟨q, v⟩ := left
  rcases runs_bind.mp result with ⟨a, u, adopts, rest⟩ | ⟨e, -, rfl⟩
  swap
  · cases returned
  rcases runs_bind.mp rest with ⟨⟨⟩, x, flushed, rest⟩ | ⟨e, -, rfl⟩
  swap
  · cases returned
  obtain ⟨rfl, rfl⟩ := runs_pure.mp rest
  obtain ⟨offers, selection⟩ := adoptExistingOffers_spec bare listing adopts
  have quiet := (quiet_flushSession flushed).1
  exact ⟨quiet.offers.trans offers, selection.trans quiet.sameSelection,
    offers ▸ distinct_of_flushed flushed⟩

/-! ## The calls of a run, row by row -/

section Calls

variable {dryRun : Bool} {now : Time} {E : Entry → Prop}

/-- Opening the row of an item makes no call and leaves the other rows alone. -/
theorem Opens.spec {offer : StoreOffer} (opens : sync.Opens item t offer u) :
    offer = sync.rowOf t.db.offers item ∧ u.trace = t.trace ∧
      ∀ k, k ≠ item.mapping.id → u.db.offers.find? k = t.db.offers.find? k := by
  cases opens with
  | known found quiet =>
      refine ⟨by rw [rowOf, found, Option.getD_some], quiet.trace, fun k _ => ?_⟩
      rw [quiet.offers]
  | fresh missing quiet =>
      refine ⟨by rw [rowOf, missing, Option.getD_none]; rfl, quiet.trace, fun k ne => ?_⟩
      rw [quiet.offers]
      exact Table.find?_save_of_ne t.db.offers ne

/-- The calls for an item are those of `_sync_one` on its row, and no other row is written. -/
theorem SyncsItem.adds {r : Except Exn Unit} (syncs : sync.SyncsItem dryRun now item t r u)
    (each : ∀ {price s q s'}, s.offer = sync.rowOf t.db.offers item →
      sync.SyncsOne (desiredAt price item.supplierProduct) dryRun now s q s' →
      Adds E s.trace s'.trace) :
    Adds E t.trace u.trace ∧
      ∀ k, k ≠ item.mapping.id → u.db.offers.find? k = t.db.offers.find? k := by
  cases syncs with
  | unpriced quiet => exact ⟨quiet.trace ▸ .refl _, fun k _ => by rw [quiet.offers]⟩
  | unopened opens =>
      obtain ⟨-, trace, others⟩ := opens.spec
      exact ⟨trace ▸ .refl _, others⟩
  | @synced offer m price q s opens syncs =>
      obtain ⟨row, trace, others⟩ := opens.spec
      have calls : Adds E m.trace s.trace := each row syncs
      have own : s.offer.mappingId = item.mapping.id :=
        syncs.frame.mappingId.trans (row ▸ rowOf_mappingId)
      have saved : (closed m q s).trace = s.trace ∧
          (closed m q s).db.offers = m.db.offers.save s.offer := by
        cases q <;> exact ⟨rfl, rfl⟩
      refine ⟨?_, fun k ne => ?_⟩
      · rw [saved.1, ← trace]
        exact calls
      · rw [saved.2, Table.find?_save_of_ne _ (own ▸ ne), others k ne]

/-- Every row is processed as it was before the loop. -/
theorem SyncsItems.adds {r : Except Exn Unit} (loop : sync.SyncsItems dryRun now items t r u)
    (apart : Apart items)
    (each : ∀ item ∈ items, ∀ {price s q s'}, s.offer = sync.rowOf t.db.offers item →
      sync.SyncsOne (desiredAt price item.supplierProduct) dryRun now s q s' →
      Adds E s.trace s'.trace) : Adds E t.trace u.trace := by
  induction loop with
  | nil => exact .refl _
  | stop first => exact (first.adds (each _ List.mem_cons_self)).1
  | @cons item rest r t m u first later ih =>
      obtain ⟨calls, others⟩ := first.adds (each item List.mem_cons_self)
      refine calls.trans (ih apart.tail fun other mem {_ _ _ _} row => ?_)
      refine each other (List.mem_cons_of_mem _ mem) ?_
      rw [row, rowOf, rowOf, others _ (apart.ne mem)]

/-- The calls of a session, from what `_sync_one` does to the rows it started with. -/
theorem adds_session {count : Option ℕ} (db : Db) (world : W) (trace : List Entry)
    (each : ∀ item ∈ sync.syncable db count, ∀ {now price s q s'},
      s.offer = sync.rowOf db.offers item →
      sync.SyncsOne (desiredAt price item.supplierProduct) dryRun now s q s' →
      Adds E s.trace s'.trace) :
    Adds E trace (sync.sessionScope (sync.run count dryRun) db world trace).trace := by
  obtain ⟨r, u, run, ends⟩ := sync.sessionScope_spec (sync.run count dryRun) db world trace
  have calls : Adds E trace u.trace := by
    rcases run_cases run with ⟨quiet, -⟩ | ⟨q, m, n, opened, loop, closed, -⟩
    · rw [quiet.trace]
      exact .refl _
    · rw [closed.trace, ← show m.trace = trace from opened.trace]
      refine loop.adds (nodup_syncable sync db count) fun item mem {_ _ _ _} row => ?_
      rw [opened.offers] at row
      exact each item mem row
  generalize sync.sessionScope (sync.run count dryRun) db world trace = left at ends
  cases ends with
  | committed _ quiet | rolledBack quiet =>
      rw [quiet.trace]
      exact calls

end Calls

/-! ## One offer -/

/-- The product a create is for. -/
def createdOn : Call → Option String
  | .createOffer productExtId _ _ _ _ => some productExtId
  | .updateOffer _ _ _ _ _ | .getJob _ _ | .offersForProduct _ _ => none

section Row

variable {s m : RowState W} {phase : Phase} {desired : DesiredOffer} {now : Time} {p : String}

/-- A call that creates on `p`, or does not create. -/
def CreatesOn (p : String) (entry : Entry) : Prop := ∀ q, createdOn entry.call = some q → q = p

theorem adds_uncreating {entry : Entry} (none : createdOn entry.call = none) (trace : List Entry) :
    Adds (CreatesOn p) trace (entry :: trace) :=
  .one (fun q created => by cases none.symm.trans created) trace

/-- A search creates nothing. -/
theorem FindsRemote.createsOn {r : Except Exn Bool} (finds : sync.FindsRemote phase s r m) :
    Adds (CreatesOn p) s.trace m.trace := by
  cases finds with
  | raised | nothing => exact adds_uncreating rfl _
  | found answer flushed =>
      rw [flushed.trace]
      exact adds_uncreating rfl _

/-- Resolving the offer id creates nothing. -/
theorem Resolves.createsOn {r : Except Exn Bool} (resolves : sync.Resolves phase s r m) :
    Adds (CreatesOn p) s.trace m.trace := by
  cases resolves with
  | noJob pending finds => exact finds.createsOn
  | lookupFailed | lookupRaised | unfinished => exact adds_uncreating rfl _
  | failed _ _ _ _ flushed | named _ _ _ _ _ flushed =>
      rw [flushed.trace]
      exact adds_uncreating rfl _
  | unnamed _ _ _ _ _ finds => exact (adds_uncreating rfl _).trans finds.createsOn

/-- An update creates nothing. -/
theorem Updates.createsOn {priceChanged stockChanged activeChanged : Bool}
    {r : Except Exn StatKey}
    (updates : sync.Updates desired now priceChanged stockChanged activeChanged s r m) :
    Adds (CreatesOn p) s.trace m.trace := by
  cases updates with
  | nothing => exact .refl _
  | raised => exact adds_uncreating rfl _
  | unwritten _ _ _ _ _ _ flushed | unpriced _ _ _ _ _ _ flushed =>
      rw [flushed.trace]
      exact adds_uncreating rfl _
  | priced _ _ _ _ _ flushed recorded =>
      rw [recorded.trace, RowState.logged_trace, flushed.trace]
      exact adds_uncreating rfl _

/-- A create creates on the product of its row. -/
theorem Creates.createsOn {r : Except Exn StatKey} (creates : sync.Creates desired now s r m) :
    Adds (CreatesOn s.offer.productExtId) s.trace m.trace := by
  have asked : ∀ answer, Adds (CreatesOn s.offer.productExtId) s.trace
      (⟨.creating, s.offer, s.target, sync.now s.world, .createOffer s.offer.productExtId
        desired.price desired.inventory desired.active answer⟩ :: s.trace) := fun answer =>
    .one (fun q created => (Option.some.inj created).symm) _
  cases creates with
  | raised => exact asked _
  | adoptRaised _ _ resolves | unadopted _ _ resolves | resolveRaised _ _ _ resolves
  | refused _ _ _ resolves => exact (asked _).trans resolves.createsOn
  | adopted _ _ resolves updates => exact (asked _).trans (resolves.createsOn.trans updates.createsOn)
  | named _ _ records | nameless _ _ _ records =>
      rw [records.trace]
      exact asked _
  | settled _ _ _ resolves _ records =>
      rw [records.trace]
      exact (asked _).trans resolves.createsOn

/-- A write creates on no other product. -/
theorem Pushes.createsOn {priceChanged stockChanged activeChanged : Bool}
    {r : Except Exn StatKey}
    (pushes : sync.Pushes desired now priceChanged stockChanged activeChanged s r m) :
    Adds (CreatesOn s.offer.productExtId) s.trace m.trace := by
  cases pushes with
  | resolveRaised _ _ resolves | awaiting _ _ resolves => exact resolves.createsOn
  | resolved _ _ resolves updates => exact resolves.createsOn.trans updates.createsOn
  | creates _ _ creates => exact creates.createsOn
  | updates _ updates => exact updates.createsOn

/-- An offer is created on the product its row names. -/
theorem SyncsOne.createsOn {dryRun : Bool} {r : Except Exn StatKey}
    (syncs : sync.SyncsOne desired dryRun now s r m) :
    Adds (CreatesOn s.offer.productExtId) s.trace m.trace := by
  cases syncs with
  | unchanged | dry => exact .refl _
  | pushed _ _ pushes | raised _ _ _ pushes => exact pushes.createsOn
  | failed _ _ pushes flushed =>
      rw [flushed.trace]
      exact pushes.createsOn

/-- An update of the offer of a row that carries what is desired and not recorded yet. -/
def SendsChanges (offer : StoreOffer) (desired : DesiredOffer) : Call → Prop
  | .updateOffer offerExtId price inventory active _ =>
    offer.offerExtId = some offerExtId ∧
      (∀ p ∈ price, p = desired.price ∧ offer.pushedPrice ≠ some desired.price) ∧
      (∀ n ∈ inventory, n = desired.inventory ∧ offer.pushedInventory ≠ some desired.inventory) ∧
      ∀ a ∈ active, a = desired.active ∧ offer.pushedActive ≠ some desired.active
  | .createOffer _ _ _ _ _ | .getJob _ _ | .offersForProduct _ _ => False

/-- An update of a known offer sends what changed. -/
theorem Updates.sendsChanges {changed : Changed desired s.offer} {r : Except Exn StatKey}
    (updates : sync.Updates desired now changed.price changed.stock changed.active s r m)
    (known : s.offer.offerExtId ≠ none) :
    Adds (fun entry => SendsChanges s.offer desired entry.call) s.trace m.trace := by
  obtain ⟨id, known⟩ := Option.ne_none_iff_exists'.mp known
  have own : s.offer.offerExtId = some (s.offer.offerExtId.getD "") := by rw [known]; rfl
  have stock : ∀ n ∈ (if changed.stock then some desired.inventory else none),
      n = desired.inventory ∧ s.offer.pushedInventory ≠ some desired.inventory := by
    intro n sent
    split at sent
    · rename_i differs
      rw [changed.stock_eq, decide_eq_true_eq] at differs
      exact ⟨(Option.some.inj sent).symm, differs⟩
    · cases sent
  have active : ∀ a ∈ (if changed.active then some desired.active else none),
      a = desired.active ∧ s.offer.pushedActive ≠ some desired.active := by
    intro a sent
    split at sent
    · rename_i differs
      rw [changed.active_eq, decide_eq_true_eq] at differs
      exact ⟨(Option.some.inj sent).symm, differs⟩
    · cases sent
  have price : sync.sendsPrice s changed.price = true →
      s.offer.pushedPrice ≠ some desired.price := by
    intro sends
    have differs := (Bool.and_eq_true_iff.mp sends).1
    rwa [changed.price_eq, decide_eq_true_eq] at differs
  have priced : ∀ p ∈ (if sync.sendsPrice s changed.price then some desired.price else none),
      p = desired.price ∧ s.offer.pushedPrice ≠ some desired.price := by
    intro p sent
    split at sent
    · rename_i sends
      exact ⟨(Option.some.inj sent).symm, price sends⟩
    · cases sent
  have asked : ∀ {o p n a answer}, o = s.offer.offerExtId.getD "" →
      (∀ q ∈ p, q = desired.price ∧ s.offer.pushedPrice ≠ some desired.price) →
      n = (if changed.stock then some desired.inventory else none) →
      a = (if changed.active then some desired.active else none) →
      Adds (fun entry => SendsChanges s.offer desired entry.call) s.trace
        (⟨.updating, s.offer, s.target, sync.now s.world, .updateOffer o p n a answer⟩ ::
          s.trace) := by
    intro o p n a answer id sent inventory_eq active_eq
    subst id inventory_eq active_eq
    have sends : SendsChanges s.offer desired (.updateOffer (s.offer.offerExtId.getD "") p
      (if changed.stock then some desired.inventory else none)
      (if changed.active then some desired.active else none) answer) := ⟨own, sent, stock, active⟩
    exact .one (E := fun entry => SendsChanges s.offer desired entry.call) sends _
  cases updates with
  | nothing => exact .refl _
  | raised _ id price_eq inventory_eq active_eq =>
      exact asked id (price_eq ▸ priced) inventory_eq active_eq
  | unwritten _ id price_eq inventory_eq active_eq _ flushed =>
      rw [flushed.trace]
      exact asked id (price_eq ▸ priced) inventory_eq active_eq
  | unpriced _ _ id inventory_eq active_eq _ flushed =>
      rw [flushed.trace]
      exact asked id (fun q sent => by cases sent) inventory_eq active_eq
  | priced sends id inventory_eq active_eq _ flushed recorded =>
      rw [recorded.trace, RowState.logged_trace, flushed.trace]
      exact asked id (fun q sent => ⟨(Option.some.inj sent).symm, price sends⟩) inventory_eq active_eq

/-- A row with an id is only ever updated, with what has changed. -/
theorem SyncsOne.sendsChanges {dryRun : Bool} {r : Except Exn StatKey}
    (syncs : sync.SyncsOne desired dryRun now s r m) (known : s.offer.offerExtId ≠ none) :
    Adds (fun entry => SendsChanges s.offer desired entry.call) s.trace m.trace := by
  have pushed : ∀ {changed : Changed desired s.offer} {q : Except Exn StatKey} {w : RowState W},
      sync.Pushes desired now changed.price changed.stock changed.active s q w →
      Adds (fun entry => SendsChanges s.offer desired entry.call) s.trace w.trace := by
    intro changed q w pushes
    cases pushes with
    | resolveRaised unknown | awaiting unknown | resolved unknown | creates unknown =>
        exact absurd unknown known
    | updates _ updates => exact updates.sendsChanges known
  cases syncs with
  | unchanged | dry => exact .refl _
  | pushed _ _ pushes | raised _ _ _ pushes => exact pushed pushes
  | failed _ _ pushes flushed =>
      have calls := pushed pushes
      rw [flushed.trace]
      exact calls

end Row

/-! ## Taking over -/

/-- The store lists an offer on the product. -/
def Listed (remotes : List StoreOfferView) (productExtId : String) : Prop :=
  ∃ view ∈ remotes, view.productExtId = productExtId

/-- Nothing is found of a product exactly if it is not listed. -/
theorem listedOn_eq_none_iff {p : String} : listedOn remotes p = none ↔ ¬ Listed remotes p := by
  simp [listedOn, Listed, List.find?_eq_none]

/-- What is found is in the list, and on the product. -/
theorem listedOn_eq_some {p : String} {view : StoreOfferView}
    (listed : listedOn remotes p = some view) : view ∈ remotes ∧ view.productExtId = p := by
  refine ⟨List.mem_reverse.mp (List.mem_of_find?_eq_some listed), ?_⟩
  simpa using List.find?_some listed

theorem exists_listedOn {p : String} (listed : Listed remotes p) :
    ∃ view, listedOn remotes p = some view :=
  Option.ne_none_iff_exists'.mp fun none => listedOn_eq_none_iff.mp none listed

/-- A row that records an offer as the store lists it. -/
structure Attached (row : StoreOffer) (view : StoreOfferView) : Prop where
  offerExtId : row.offerExtId = some view.offerExtId
  pushedPrice : row.pushedPrice = view.price
  pushedInventory : row.pushedInventory = some view.inventorySize
  pushedActive : row.pushedActive = some view.isActive

theorem attached_adoptedRow (view : StoreOfferView) (offer : StoreOffer) :
    Attached (adoptedRow view offer) view := ⟨rfl, rfl, rfl, rfl⟩

/-- A price the pricer can return for the item. -/
def Desires (sync : OfferSync W) (item : Item) (price : ℚ) : Prop :=
  ∃ rates rates', (sync.pricer item.supplierProduct item.mapping item.storeProduct).Runs rates
    (.ok price) rates'

/-- A call that creates on no product of `items` the store lists, and if it is for an item with
such a product, updates its offer in what is not recorded in its row. -/
structure Respects (sync : OfferSync W) (remotes : List StoreOfferView) (items : List Item)
    (offers : Table StoreOffer.mappingId) (entry : Entry) : Prop where
  creates : ∀ item ∈ items, createdOn entry.call = some item.storeProduct.productExtId →
    ¬ Listed remotes item.storeProduct.productExtId
  updates : ∀ item ∈ items, Listed remotes item.storeProduct.productExtId →
    entry.row.mappingId = item.mapping.id →
    ∃ price, SendsChanges (sync.rowOf offers item) (desiredAt price item.supplierProduct)
      entry.call ∧ ∀ p, entry.call.price = some p → sync.Desires item p

/-- What an adoption left, and what a run does after it. -/
structure TakesOver (sync : OfferSync W) (remotes : List StoreOfferView) (db : Db)
    (left : Left W Adoption) : Prop where
  once : Distinct left.db.offers
  attached : ∀ item ∈ sync.syncable db none, Listed remotes item.storeProduct.productExtId →
    ∃ row, left.db.offers.find? item.mapping.id = some row ∧
      ∃ view ∈ remotes, view.productExtId = item.storeProduct.productExtId ∧ Attached row view
  follows : ∀ count dryRun world trace,
    Adds (sync.Respects remotes (sync.syncable db none) left.db.offers) trace
      (sync.runSession count dryRun left.db world trace).trace

/-- No selected mapping the store lists nothing for has a row that names the product of one
it does. -/
def NamesNoListed (sync : OfferSync W) (remotes : List StoreOfferView) (db : Db) : Prop :=
  ∀ item ∈ sync.syncable db none, ¬ Listed remotes item.storeProduct.productExtId →
    ∀ row, db.offers.find? item.mapping.id = some row →
      ∀ other ∈ sync.syncable db none, Listed remotes other.storeProduct.productExtId →
        row.productExtId ≠ other.storeProduct.productExtId

/-- What a limited run selects an unlimited one selects too. -/
theorem mem_syncable_all {db : Db} {count : Option ℕ} (mem : item ∈ sync.syncable db count) :
    item ∈ sync.syncable db none := by
  unfold syncable at mem
  split at mem
  · exact List.mem_of_mem_take mem
  · exact mem

/-- A mapping is selected once. -/
theorem eq_of_mappingId {db : Db} {other : Item} (mem : item ∈ sync.syncable db none)
    (mem' : other ∈ sync.syncable db none) (same : item.mapping.id = other.mapping.id) :
    item = other :=
  List.inj_on_of_nodup_map (nodup_syncable sync db none) mem mem' same

/-- A row of a mapping without a listed offer creates on no product that has one. -/
theorem NamesNoListed.creates {db : Db} {other : Item} (names : sync.NamesNoListed remotes db)
    (mem : item ∈ sync.syncable db none)
    (unlisted : ¬ Listed remotes item.storeProduct.productExtId)
    (mem' : other ∈ sync.syncable db none)
    (on : (sync.rowOf db.offers item).productExtId = other.storeProduct.productExtId) :
    ¬ Listed remotes other.storeProduct.productExtId := by
  intro listed
  unfold rowOf at on
  cases found : db.offers.find? item.mapping.id with
  | some row =>
      rw [found] at on
      exact names item mem unlisted row found other mem' listed on
  | none =>
      rw [found] at on
      exact unlisted ((show item.storeProduct.productExtId = _ from on) ▸ listed)

/-- A run sends prices that the pricer answers. -/
theorem desires_guaranteed (sync : OfferSync W) :
    sync.Guarantees (fun _ => True) fun _ item price => sync.Desires item price :=
  ⟨fun _ _ => trivial, fun _ ran => ⟨_, _, ran⟩⟩

/-- Where no row names a listed offer, adoption takes all of them over. -/
theorem NamesNoListed.takesOver {db : Db} {world w : W} {trace : List Entry} {adoption : Adoption}
    (names : sync.NamesNoListed remotes db) (bare : Bare db.offers)
    (listing : sync.adapter.listOffers world = (.ok remotes, w))
    (returned : (sync.sessionScope sync.adoptExistingOffers db world trace).result =
      .ok adoption) :
    sync.TakesOver remotes db (sync.sessionScope sync.adoptExistingOffers db world trace) := by
  obtain ⟨offers, same, distinct⟩ := adopted_session bare listing returned
  generalize sync.sessionScope sync.adoptExistingOffers db world trace = left at offers same
  have apart : Apart (sync.syncable db none) := nodup_syncable sync db none
  have found : ∀ item ∈ sync.syncable db none, ∀ {view},
      listedOn remotes item.storeProduct.productExtId = some view →
      left.db.offers.find? item.mapping.id = some (adoptedRow view (sync.rowOf db.offers item)) :=
    fun item mem {view} listed => offers ▸ find?_takenOver apart mem listed
  refine ⟨offers ▸ distinct, fun item mem listed => ?_, fun count dryRun world' trace' => ?_⟩
  · obtain ⟨view, listed⟩ := exists_listedOn listed
    obtain ⟨there, on⟩ := listedOn_eq_some listed
    exact ⟨_, found item mem listed, view, there, on, attached_adoptedRow view _⟩
  have selection : sync.syncable left.db count = sync.syncable db count := same.syncable count
  have selected : ∀ {item}, item ∈ sync.syncable left.db count → item ∈ sync.syncable db none :=
    fun mem => mem_syncable_all (selection ▸ mem)
  have calls : Adds (fun entry =>
      (∀ item ∈ sync.syncable db none, createdOn entry.call = some item.storeProduct.productExtId →
        ¬ Listed remotes item.storeProduct.productExtId) ∧
      ∀ item ∈ sync.syncable db none, Listed remotes item.storeProduct.productExtId →
        entry.row.mappingId = item.mapping.id →
        ∃ price, SendsChanges (sync.rowOf left.db.offers item)
          (desiredAt price item.supplierProduct) entry.call) trace'
      (sync.runSession count dryRun left.db world' trace').trace := by
    refine adds_session left.db world' trace' fun item mem {now price s q s'} row syncs => ?_
    have own : s.offer.mappingId = item.mapping.id := row ▸ rowOf_mappingId
    have forItem := own ▸ syncs.frame.trace.adds
    by_cases listed : Listed remotes item.storeProduct.productExtId
    · obtain ⟨view, on⟩ := exists_listedOn listed
      have known : s.offer.offerExtId ≠ none := by
        rw [row, rowOf, found item (selected mem) on]
        exact Option.some_ne_none _
      refine ((syncs.sendsChanges known).and forItem).mono fun entry sent => ⟨?_, ?_⟩
      · intro other _ created
        have sends := sent.1
        cases called : entry.call <;> rw [called] at sends created
        · cases sends
        all_goals cases created
      · intro other mem' _ for_other
        cases eq_of_mappingId (selected mem) mem' (sent.2.symm.trans for_other)
        exact ⟨price, row ▸ sent.1⟩
    · have kept : sync.rowOf left.db.offers item = sync.rowOf db.offers item := by
        rw [rowOf, offers, find?_takenOver_of_unlisted, rowOf]
        intro other mem' same'
        cases eq_of_mappingId (selected mem) mem' same'.symm
        exact listedOn_eq_none_iff.mpr listed
      refine (syncs.createsOn.and forItem).mono fun entry sent => ⟨?_, ?_⟩
      · intro other mem' created
        refine names.creates (selected mem) listed mem' ?_
        rw [sent.1 _ created, row, kept]
      · intro other mem' listed' for_other
        cases eq_of_mappingId (selected mem) mem' (sent.2.symm.trans for_other)
        exact absurd listed' listed
  refine (calls.and ((desires_guaranteed sync).session left.db world' trace' trivial)).mono
    fun entry sent => ⟨sent.1.1, fun item mem listed own => ?_⟩
  obtain ⟨price, changes⟩ := sent.1.2 item mem listed own
  obtain ⟨other, mem', rates, mappingId, -, priced⟩ := sent.2.exists_item
  cases eq_of_mappingId mem (selected mem') (own.symm.trans mappingId)
  exact ⟨price, changes, priced⟩

end OfferSync

end FazerBridge
