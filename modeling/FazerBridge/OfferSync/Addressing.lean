import FazerBridge.Lib.Runs
import FazerBridge.Service

/-!
# Which product a call is about

A row is opened for the product its mapping points to, and keeps that product.
`OnTarget` is what every part of the offer sync preserves while the two agree: the
row knows offers and jobs of its own product only.  They agree as long as no step
moves a mapping that has a row to another product (`KeepsTargets`), and then every
create and update goes to the product of its mapping (`calls_addressed`).
-/

namespace FazerBridge

namespace OfferSync

variable {W : Type}

/-- The product every offer and every job of the store belongs to. -/
structure Owners where
  ofOffer : String → String
  ofJob : String → String

/-- An adapter whose answers are about what it was asked about. -/
structure Honest (adapter : Adapter W) (owners : Owners) : Prop where
  listOffers : ∀ {w views w'}, adapter.listOffers w = (.ok views, w') →
    ∀ view ∈ views, owners.ofOffer view.offerExtId = view.productExtId
  offersForProduct : ∀ {p w views w'}, adapter.offersForProduct p w = (.ok views, w') →
    ∀ view ∈ views, owners.ofOffer view.offerExtId = p
  createOffer : ∀ {p price inventory active w job w'},
    adapter.createOffer p price inventory active w = (.ok job, w') →
    (∀ id, truthyId job.resourceId = some id → owners.ofOffer id = p) ∧
      ∀ j, truthyId (some job.jobId) = some j → owners.ofJob j = p
  updateOffer : ∀ {o price inventory active w job w'},
    adapter.updateOffer o price inventory active w = (.ok job, w') →
    ∀ j, truthyId (some job.jobId) = some j → owners.ofJob j = owners.ofOffer o
  getJob : ∀ {j w job w'}, adapter.getJob j w = (.ok job, w') → job.succeeded = true →
    ∀ id, truthyId job.resourceId = some id → owners.ofOffer id = owners.ofJob j

/-- A row that knows no offer and no job of another product than its own. -/
structure Owners.Owns (owners : Owners) (offer : StoreOffer) : Prop where
  offers : ∀ id, offer.offerExtId = some id → owners.ofOffer id = offer.productExtId
  jobs : ∀ j, offer.pendingJobId = some j → owners.ofJob j = offer.productExtId

/-- A create or update goes to an offer on the product its mapping points to. -/
def Owners.Addressed (owners : Owners) (entry : Entry) : Prop :=
  match entry.call with
  | .createOffer productExtId _ _ _ _ => productExtId = entry.target
  | .updateOffer offerExtId _ _ _ _ => owners.ofOffer offerExtId = entry.target
  | _ => True

instance (owners : Owners) (entry : Entry) : Decidable (owners.Addressed entry) :=
  match entry with
  | ⟨_, _, target, _, .createOffer productExtId _ _ _ _⟩ =>
    inferInstanceAs (Decidable (productExtId = target))
  | ⟨_, _, target, _, .updateOffer offerExtId _ _ _ _⟩ =>
    inferInstanceAs (Decidable (owners.ofOffer offerExtId = target))
  | ⟨_, _, _, _, .getJob _ _⟩ => inferInstanceAs (Decidable True)
  | ⟨_, _, _, _, .offersForProduct _ _⟩ => inferInstanceAs (Decidable True)

/-- A row opened for its own product, and the calls made so far. -/
structure OnTarget (owners : Owners) (s : RowState W) : Prop where
  product : s.offer.productExtId = s.target
  row : owners.Owns s.offer
  trace : ∀ entry ∈ s.trace, owners.Addressed entry

/-! ## One row -/

section Row

variable {sync : OfferSync W} {owners : Owners} {s t : RowState W} {phase : Phase}

theorem OnTarget.asked (on : OnTarget owners s) {call : Call} {world : W}
    (addressed : owners.Addressed ⟨phase, s.offer, s.target, sync.now s.world, call⟩) :
    OnTarget owners (s.asked sync phase call world) where
  product := on.product
  row := on.row
  trace := List.forall_mem_cons.mpr ⟨addressed, on.trace⟩

theorem OnTarget.lookedUp (on : OnTarget owners s) {jobId : String}
    {answer : Except Exn JobResult} {world : W} :
    OnTarget owners (s.asked sync phase (.getJob jobId answer) world) := on.asked trivial

theorem OnTarget.listed (on : OnTarget owners s) {productExtId : String}
    {answer : Except Exn (List StoreOfferView)} {world : W} :
    OnTarget owners (s.asked sync phase (.offersForProduct productExtId answer) world) :=
  on.asked trivial

theorem OnTarget.created (on : OnTarget owners s) {desired : DesiredOffer}
    {answer : Except Exn JobResult} {world : W} :
    OnTarget owners (s.askedCreate sync desired answer world) := on.asked on.product

theorem OnTarget.updated (on : OnTarget owners s) {offerExtId : String} {price : Option ℚ}
    {inventory : Option ℤ} {active : Option Bool} {answer : Except Exn JobResult} {world : W}
    (owner : owners.ofOffer offerExtId = s.offer.productExtId) :
    OnTarget owners (s.asked sync phase (.updateOffer offerExtId price inventory active answer)
      world) := on.asked (owner.trans on.product)

theorem OnTarget.set (on : OnTarget owners s) {offer : StoreOffer}
    (same : offer.productExtId = s.offer.productExtId) (row : owners.Owns offer) :
    OnTarget owners (s.set offer) where
  product := same.trans on.product
  row := row
  trace := on.trace

theorem Flushes.onTarget {q : Except Exn Unit} (flushed : sync.Flushes s q t)
    (on : OnTarget owners s) : OnTarget owners t := by
  obtain ⟨rfl, -⟩ := flushed
  exact ⟨on.product, on.row, on.trace⟩

theorem OnTarget.logged (on : OnTarget owners s) {newPrice : ℚ} {oldPrice : Option ℚ}
    {calledAt : Time} : OnTarget owners (s.logged sync newPrice oldPrice calledAt) :=
  ⟨on.product, on.row, on.trace⟩

/-- A row whose offer and job are those of an owning row. -/
theorem Owners.Owns.congr {a b : StoreOffer} (owns : owners.Owns a)
    (offer : b.offerExtId = a.offerExtId) (job : b.pendingJobId = a.pendingJobId)
    (product : b.productExtId = a.productExtId) : owners.Owns b where
  offers id same := (owns.offers id (offer ▸ same)).trans product.symm
  jobs j same := (owns.jobs j (job ▸ same)).trans product.symm

/-- A row whose job was dropped. -/
theorem Owners.Owns.jobless {a b : StoreOffer} (owns : owners.Owns a)
    (offer : b.offerExtId = a.offerExtId) (job : b.pendingJobId = none)
    (product : b.productExtId = a.productExtId) : owners.Owns b where
  offers id same := (owns.offers id (offer ▸ same)).trans product.symm
  jobs j same := by rw [job] at same; cases same

variable (honest : Honest sync.adapter owners)

include honest

theorem FindsRemote.onTarget {r : Except Exn Bool} (finds : sync.FindsRemote phase s r t)
    (on : OnTarget owners s) : OnTarget owners t := by
  cases finds with
  | raised | nothing => exact on.listed
  | @found view rest _ _ _ answer flushed =>
      refine flushed.onTarget (on.listed.set rfl ⟨fun id same => ?_, on.row.jobs⟩)
      cases same
      exact honest.offersForProduct answer view List.mem_cons_self

theorem Resolves.onTarget {r : Except Exn Bool} (resolves : sync.Resolves phase s r t)
    (on : OnTarget owners s) : OnTarget owners t := by
  cases resolves with
  | noJob pending finds => exact finds.onTarget honest on
  | lookupFailed | lookupRaised | unfinished => exact on.lookedUp
  | failed pending answer finished failed flushed =>
      exact flushed.onTarget (on.lookedUp.set rfl (on.row.jobless rfl rfl rfl))
  | named pending answer finished succeeded named flushed =>
      refine flushed.onTarget (on.lookedUp.set rfl ⟨fun id same => ?_, ?_⟩)
      · cases same
        exact (honest.getJob answer succeeded _ named).trans
          (on.row.jobs _ (truthyId_eq_some_iff.mp pending).1)
      · intro j same
        cases same
  | unnamed pending answer finished succeeded unnamed finds =>
      exact finds.onTarget honest (on.lookedUp.set rfl (on.row.jobless rfl rfl rfl))

theorem Updates.onTarget {desired : DesiredOffer} {now : Time}
    {priceChanged stockChanged activeChanged : Bool} {r : Except Exn StatKey}
    (updates : sync.Updates desired now priceChanged stockChanged activeChanged s r t)
    (known : s.offer.offerExtId.isSome = true) (on : OnTarget owners s) : OnTarget owners t := by
  obtain ⟨offerExtId, is⟩ := Option.isSome_iff_exists.mp known
  have owner : owners.ofOffer (s.offer.offerExtId.getD "") = s.offer.productExtId := by
    rw [is]
    exact on.row.offers _ is
  have accepted : ∀ {sendPrice : Bool} {o price inventory active} {job : JobResult} {w w'},
      o = s.offer.offerExtId.getD "" →
      sync.adapter.updateOffer o price inventory active w = (.ok job, w') →
      owners.Owns (updatedRow desired now sendPrice job s.offer) := by
    rintro sendPrice o price inventory active job w w' rfl answer
    exact ⟨on.row.offers, fun j same => (honest.updateOffer answer j same).trans owner⟩
  cases updates with
  | nothing => exact on
  | raised _ id => exact on.updated (id ▸ owner)
  | unwritten _ id _ _ _ answer flushed =>
      exact flushed.onTarget ((on.updated (id ▸ owner)).set rfl (accepted id answer))
  | unpriced _ _ id _ _ answer flushed =>
      exact flushed.onTarget ((on.updated (id ▸ owner)).set rfl (accepted id answer))
  | priced _ id _ _ answer flushed recorded =>
      have pushed := flushed.onTarget ((on.updated (id ▸ owner)).set rfl (accepted id answer))
      exact recorded.onTarget pushed.logged

omit honest in
theorem RecordsCreate.onTarget {desired : DesiredOffer} {now calledAt : Time}
    {r : Except Exn StatKey} (records : sync.RecordsCreate desired now calledAt s r t)
    (on : OnTarget owners s) : OnTarget owners t := by
  have created : OnTarget owners (s.set (createdRow desired now s.offer)) :=
    on.set rfl (on.row.congr rfl rfl rfl)
  cases records with
  | unwritten flushed => exact flushed.onTarget created
  | recorded flushed recorded => exact recorded.onTarget (flushed.onTarget created).logged

theorem Creates.onTarget {desired : DesiredOffer} {now : Time} {r : Except Exn StatKey}
    (creates : sync.Creates desired now s r t) (on : OnTarget owners s) : OnTarget owners t := by
  have conflict : ∀ {a w}, OnTarget owners
      ((s.askedCreate sync desired (.error (.api a)) w).set { s.offer with pendingJobId := none }) :=
    on.created.set rfl (on.row.jobless rfl rfl rfl)
  have accepted : ∀ {job w w'}, sync.adapter.createOffer s.offer.productExtId desired.price
      desired.inventory desired.active s.world = (.ok job, w) → OnTarget owners
      ((s.askedCreate sync desired (.ok job) w').set
        { s.offer with pendingJobId := truthyId (some job.jobId) }) := by
    intro job w w' answer
    exact on.created.set rfl ⟨on.row.offers, (honest.createOffer answer).2⟩
  cases creates with
  | raised => exact on.created
  | adoptRaised _ _ resolves | unadopted _ _ resolves => exact resolves.onTarget honest conflict
  | adopted _ _ resolves updates =>
      exact updates.onTarget honest resolves.isSome (resolves.onTarget honest conflict)
  | named named answer records =>
      refine records.onTarget (on.created.set rfl ⟨fun id same => ?_, ?_⟩)
      · cases same
        exact (honest.createOffer answer).1 _ named
      · exact (honest.createOffer answer).2
  | resolveRaised _ _ answer resolves | refused _ _ answer resolves =>
      exact resolves.onTarget honest (accepted answer)
  | settled _ _ answer resolves _ records =>
      exact records.onTarget (resolves.onTarget honest (accepted answer))
  | nameless _ _ answer records =>
      exact records.onTarget (on.created.set rfl (on.row.jobless rfl rfl rfl))

theorem Pushes.onTarget {desired : DesiredOffer} {now : Time}
    {priceChanged stockChanged activeChanged : Bool} {r : Except Exn StatKey}
    (pushes : sync.Pushes desired now priceChanged stockChanged activeChanged s r t)
    (on : OnTarget owners s) : OnTarget owners t := by
  cases pushes with
  | resolveRaised _ _ resolves | awaiting _ _ resolves => exact resolves.onTarget honest on
  | resolved _ _ resolves updates =>
      exact updates.onTarget honest resolves.isSome (resolves.onTarget honest on)
  | creates _ _ creates => exact creates.onTarget honest on
  | updates known updates => exact updates.onTarget honest known on

theorem SyncsOne.onTarget {desired : DesiredOffer} {dryRun : Bool} {now : Time}
    {r : Except Exn StatKey} (syncs : sync.SyncsOne desired dryRun now s r t)
    (on : OnTarget owners s) : OnTarget owners t := by
  cases syncs with
  | unchanged | dry => exact on
  | pushed _ _ pushes => exact pushes.onTarget honest on
  | raised _ _ _ pushes => exact pushes.onTarget honest on
  | @failed a m _ _ _ _ pushes flushed =>
      have after := pushes.onTarget honest on
      obtain ⟨-, -, product, offer, job, -⟩ := failedCall_keeps a m.offer
      exact flushed.onTarget (after.set product (after.row.congr offer job product))

theorem ReconcilesOne.onTarget {jobId : String} {r : Except Exn Reconciled}
    (reconciles : sync.ReconcilesOne jobId s r t) (pending : s.offer.pendingJobId = some jobId)
    (on : OnTarget owners s) : OnTarget owners t := by
  cases reconciles with
  | raised | unknown | pending => exact on.lookedUp
  | @completed job _ answer finished succeeded =>
      refine on.lookedUp.set rfl ⟨fun id same => ?_, fun j same => (nomatch same)⟩
      change (if _ then job.resourceId else s.offer.offerExtId) = some id at same
      split at same
      · rename_i named
        rw [Bool.and_eq_true] at named
        obtain ⟨resource, is⟩ := Option.isSome_iff_exists.mp named.1
        obtain ⟨is', -⟩ := truthyId_eq_some_iff.mp is
        rw [is', Option.some.injEq] at same
        exact same ▸ (honest.getJob answer succeeded _ is).trans (on.row.jobs _ pending)
      · exact on.row.offers id same
  | failed answer finished failed =>
      exact on.lookedUp.set rfl (on.row.jobless rfl rfl rfl)

end Row

/-! ## The rows of a database -/

end OfferSync

open OfferSync

/-- The store product a mapping points to. -/
def Db.targetOf (db : Db) (mappingId : ℕ) : Option StoreProduct :=
  (db.mappings.table.find? mappingId).bind fun m => m.storeProductId.bind db.storeProducts.find?

/-- Every row owns its offer and its job, and is a row of the product its mapping
points to. -/
structure RowsOnTarget (owners : Owners) (db : Db) : Prop where
  owns : ∀ offer ∈ db.offers.rows, owners.Owns offer
  product : ∀ offer ∈ db.offers.rows, ∀ p, db.targetOf offer.mappingId = some p →
    p.productExtId = offer.productExtId

theorem RowsOnTarget.save {owners : Owners} {db : Db} (rows : RowsOnTarget owners db)
    {offer : StoreOffer} (owns : owners.Owns offer)
    (product : ∀ p, db.targetOf offer.mappingId = some p → p.productExtId = offer.productExtId) :
    RowsOnTarget owners { db with offers := db.offers.save offer } where
  owns o mem := by
    rcases Table.mem_save.mp mem with rfl | ⟨mem, -⟩
    · exact owns
    · exact rows.owns o mem
  product o mem := by
    rcases Table.mem_save.mp mem with rfl | ⟨mem, -⟩
    · exact product
    · exact rows.product o mem

/-- Mappings and catalogue decide what a mapping points to. -/
theorem RowsOnTarget.congr {owners : Owners} {db db' : Db} (rows : RowsOnTarget owners db)
    (offers : db'.offers = db.offers) (mappings : db'.mappings = db.mappings)
    (storeProducts : db'.storeProducts = db.storeProducts) : RowsOnTarget owners db' where
  owns o mem := rows.owns o (offers ▸ mem)
  product o mem p target := by
    refine rows.product o (offers ▸ mem) p ?_
    rw [← target, Db.targetOf, Db.targetOf, mappings, storeProducts]

namespace OfferSync

variable {W : Type} {sync : OfferSync W} {owners : Owners}

theorem itemOf_eq_some {db : Db} {m : ProductMapping} {item : Item}
    (opened : sync.itemOf db m = some item) :
    item.mapping = m ∧
      db.supplierProducts.find? m.supplierProductId = some item.supplierProduct ∧
      m.storeProductId.bind db.storeProducts.find? = some item.storeProduct ∧
      m.storeCode = sync.adapter.code ∧ m.status ∈ syncableStatuses ∧ m.syncEnabled = true ∧
      item.supplierProduct.isActive = true := by
  simp only [itemOf, Option.bind_eq_bind, Option.bind_eq_some_iff] at opened
  obtain ⟨supplierProduct, supplier, storeProduct, store, opened⟩ := opened
  split at opened
  · rename_i facts
    cases opened
    exact ⟨rfl, supplier, Option.bind_eq_some_iff.mpr store, facts⟩
  · cases opened

/-- An item is a mapping of the database with its products. -/
theorem mem_syncable {db : Db} {count : Option ℕ} {item : Item}
    (mem : item ∈ sync.syncable db count) :
    item.mapping ∈ db.mappings.rows ∧ sync.itemOf db item.mapping = some item := by
  have all : item ∈ db.mappings.rows.filterMap (sync.itemOf db) := by
    unfold syncable at mem
    split at mem
    · exact List.mem_of_mem_take mem
    · exact mem
  obtain ⟨m, stored, opened⟩ := List.mem_filterMap.mp all
  obtain ⟨rfl, -⟩ := itemOf_eq_some opened
  exact ⟨stored, opened⟩

/-- An item's product is the one its mapping points to. -/
theorem targetOf_item {db : Db} {count : Option ℕ} {item : Item}
    (mem : item ∈ sync.syncable db count) :
    db.targetOf item.mapping.id = some item.storeProduct := by
  obtain ⟨stored, opened⟩ := mem_syncable mem
  obtain ⟨-, -, target, -⟩ := itemOf_eq_some opened
  rw [Db.targetOf, db.mappings.table.find?_key stored]
  exact target

/-- A session that sees the mappings and products of `db` and keeps its rows on
target. -/
structure SessionOnTarget (owners : Owners) (db : Db) (t : Session W) : Prop where
  rows : RowsOnTarget owners t.db
  mappings : t.db.mappings = db.mappings
  storeProducts : t.db.storeProducts = db.storeProducts
  trace : ∀ entry ∈ t.trace, owners.Addressed entry

theorem SessionOnTarget.save {db : Db} {t : Session W} (on : SessionOnTarget owners db t)
    {offer : StoreOffer} (owns : owners.Owns offer)
    (product : ∀ p, db.targetOf offer.mappingId = some p → p.productExtId = offer.productExtId) :
    SessionOnTarget owners db (t.withOffer offer) where
  rows := by
    refine on.rows.save owns fun p target => product p ?_
    rw [← target, Db.targetOf, Db.targetOf, on.mappings, on.storeProducts]
  mappings := on.mappings
  storeProducts := on.storeProducts
  trace := on.trace

/-- Putting a row back that was opened on target. -/
theorem SessionOnTarget.close {db : Db} {t : Session W} (on : SessionOnTarget owners db t)
    {offer : StoreOffer} {target : String} (found : t.db.offers.find? offer.mappingId = some offer)
    {s : RowState W} (frame : Frame (openRow t offer target) s) (after : OnTarget owners s) :
    SessionOnTarget owners db (closeRow t s) where
  rows := by
    have owns := on.rows.save after.row fun p at_ => by
      rw [show s.offer.mappingId = offer.mappingId from frame.mappingId] at at_
      rw [show s.offer.productExtId = offer.productExtId from frame.productExtId]
      exact on.rows.product offer (Table.find?_eq_some_iff.mp found).1 p at_
    exact owns.congr rfl rfl rfl
  mappings := on.mappings
  storeProducts := on.storeProducts
  trace := after.trace

theorem SessionOnTarget.keeps (sync : OfferSync W) (owners : Owners) (db : Db) :
    sync.Keeps (SessionOnTarget owners db)
      (fun t => ∀ entry ∈ t.trace, owners.Addressed entry) where
  quiet quiet on :=
    { rows := on.rows.congr quiet.offers quiet.mappings quiet.storeProducts
      mappings := quiet.mappings.trans on.mappings
      storeProducts := quiet.storeProducts.trans on.storeProducts
      trace := quiet.trace ▸ on.trace }
  quietEnd quiet on := quiet.trace ▸ on
  ends on := on.trace

theorem openRow_onTarget {db : Db} {t : Session W} (on : SessionOnTarget owners db t)
    {offer : StoreOffer} (found : t.db.offers.find? offer.mappingId = some offer) {target : String}
    (same : offer.productExtId = target) : OnTarget owners (openRow t offer target) where
  product := same
  row := on.rows.owns offer (Table.find?_eq_some_iff.mp found).1
  trace := on.trace

/-- A row that was never pushed owns nothing. -/
theorem newOffer_owns (mapping : ProductMapping) (storeProduct : StoreProduct) :
    owners.Owns (sync.newOffer mapping storeProduct) :=
  ⟨fun _ same => (by cases same), fun _ same => (by cases same)⟩

theorem keepsItems_onTarget (honest : Honest sync.adapter owners) (db : Db) (dryRun : Bool)
    (now : Time) : sync.KeepsItems dryRun now
      (fun item => db.targetOf item.mapping.id = some item.storeProduct)
      (SessionOnTarget owners db) (fun t => ∀ entry ∈ t.trace, owners.Addressed entry) where
  toKeeps := SessionOnTarget.keeps sync owners db
  opened {item t} good on missing := on.save (newOffer_owns _ _) fun p target => by
    rw [newOffer_mappingId, good] at target
    cases target
    rfl
  synced {item offer t price k s} good on found syncs := by
    obtain ⟨mem, key⟩ := Table.find?_eq_some_iff.mp found
    rw [← key] at found
    have target := on.rows.product offer mem item.storeProduct (by
      rw [← good, Db.targetOf, Db.targetOf, on.mappings, on.storeProducts, key])
    have closed := on.close found syncs.frame
      (syncs.onTarget honest (openRow_onTarget on found target.symm))
    exact ⟨closed.rows.congr rfl rfl rfl, closed.mappings, closed.storeProducts, closed.trace⟩
  raised {item offer t price e s} good on found syncs := by
    obtain ⟨mem, key⟩ := Table.find?_eq_some_iff.mp found
    rw [← key] at found
    have target := on.rows.product offer mem item.storeProduct (by
      rw [← good, Db.targetOf, Db.targetOf, on.mappings, on.storeProducts, key])
    exact (syncs.onTarget honest (openRow_onTarget on found target.symm)).trace

theorem keepsRows_onTarget (honest : Honest sync.adapter owners) (db : Db) :
    sync.KeepsRows (SessionOnTarget owners db)
      (fun t => ∀ entry ∈ t.trace, owners.Addressed entry) where
  toKeeps := SessionOnTarget.keeps sync owners db
  reconciled on found _ job reconciles :=
    on.close found reconciles.frame (reconciles.onTarget honest job (openRow_onTarget on found rfl))
  raised on found _ job reconciles :=
    (reconciles.onTarget honest job (openRow_onTarget on found rfl)).trace

theorem keepsAdoption_onTarget (honest : Honest sync.adapter owners) (db : Db) :
    sync.KeepsAdoption (fun item => db.targetOf item.mapping.id = some item.storeProduct)
      (fun view => owners.ofOffer view.offerExtId = view.productExtId)
      (SessionOnTarget owners db) (fun t => ∀ entry ∈ t.trace, owners.Addressed entry) where
  toKeeps := SessionOnTarget.keeps sync owners db
  listed on answer := ⟨honest.listOffers answer,
    ⟨on.rows.congr rfl rfl rfl, on.mappings, on.storeProducts, on.trace⟩⟩
  unlisted on answer := on.trace
  opened good on missing := on.save (newOffer_owns _ _) fun p target => by
    rw [newOffer_mappingId, good] at target
    cases target
    rfl
  adopted {item offer t view} good listed product on found := by
    obtain ⟨mem, key⟩ := Table.find?_eq_some_iff.mp found
    have target := on.rows.product offer mem item.storeProduct (by
      rw [← good, Db.targetOf, Db.targetOf, on.mappings, on.storeProducts, key])
    refine on.save ⟨fun id same => ?_, (on.rows.owns offer mem).jobs⟩ fun p at_ => ?_
    · cases same
      exact listed.trans (product.trans target)
    · refine on.rows.product offer mem p ?_
      rw [← at_, Db.targetOf, Db.targetOf, on.mappings, on.storeProducts]
      rfl

end OfferSync

/-! ## Steps that move a target -/

/-- A row of the mapping is a row of the product. -/
def Db.RowOn (db : Db) (mappingId : ℕ) (productExtId : String) : Prop :=
  ∀ offer ∈ db.offers.rows, offer.mappingId = mappingId → offer.productExtId = productExtId

/-- A written mapping with a row stays on the product of its row. -/
theorem RowsOnTarget.write {owners : Owners} {db : Db} (rows : RowsOnTarget owners db)
    {row : ProductMapping} {mappings : ProductMappings}
    (written : ProductMappings.flush (db.mappings.table.save row) = .ok mappings)
    (stays : ∀ p, row.storeProductId.bind db.storeProducts.find? = some p →
      db.RowOn row.id p.productExtId) :
    RowsOnTarget owners { db with mappings := mappings } where
  owns := rows.owns
  product offer mem p target := by
    have table := ProductMappings.flush_eq_ok written
    simp only [Db.targetOf, table] at target
    by_cases same : offer.mappingId = row.id
    · rw [same, Table.find?_save_self] at target
      exact (stays p target offer mem same).symm
    · rw [Table.find?_save_of_ne _ same] at target
      exact rows.product offer mem p target

/-- A mapping that is not moved is on the product of its row. -/
theorem RowsOnTarget.unmoved {owners : Owners} {db : Db} (rows : RowsOnTarget owners db)
    {mappingId : ℕ}
    {m : ProductMapping} (found : db.mappings.table.find? mappingId = some m) {p : StoreProduct}
    (target : m.storeProductId.bind db.storeProducts.find? = some p) :
    db.RowOn m.id p.productExtId := by
  intro offer mem same
  obtain ⟨-, rfl⟩ := Table.find?_eq_some_iff.mp found
  refine (rows.product offer mem p ?_).symm
  rw [same, Db.targetOf, found]
  exact target

namespace Service

variable {W : Type} (service : Service W)

/-- Matching `s` does not move a mapping that has a row to another product. -/
def StaysOnRow (engine : MatchingEngine) (progress : MatchingEngine.Progress)
    (s : SupplierProduct) : Prop :=
  progress.db.isHumanDecision s = false →
    ∀ best, (engine.evaluate progress.db progress.claimed s).best = some best →
      progress.db.RowOn (engine.targetRow progress.db s).id best.productExtId

/-- No mapping that has a row is moved to another product. -/
def KeepsTargets (bridge : Bridge W) : Action → Prop
  | .matchProducts onlyUnmapped count =>
    service.engine.AlongRun (StaysOnRow service.engine)
      (MatchingEngine.selected bridge.db onlyUnmapped count) (service.engine.start bridge.db)
  | .approve mappingId (some target) _ _ => ∀ p, bridge.db.storeProducts.find? target = some p →
      bridge.db.RowOn mappingId p.productExtId
  | _ => True

variable {service} {owners : Owners}

theorem matchOne_rowsOnTarget {engine : MatchingEngine}
    {progress progress' : MatchingEngine.Progress} {s : SupplierProduct}
    (rows : RowsOnTarget owners progress.db) (stays : StaysOnRow engine progress s)
    (matched : engine.matchOne progress s = .ok progress') : RowsOnTarget owners progress'.db := by
  obtain ⟨-, same, -⟩ | ⟨machine, ⟨mappings, written, same⟩, -⟩ :=
    MatchingEngine.apply_cases (MatchingEngine.matchOne_cases matched)
  · exact same ▸ rows
  · rw [same]
    refine rows.write written fun p target => ?_
    rw [MatchingEngine.withOutcome_storeProductId] at target
    rw [MatchingEngine.withOutcome_id]
    cases best : (engine.evaluate progress.db progress.claimed s).best with
    | none =>
        rw [best] at target
        cases target
    | some c =>
        rw [best] at target
        obtain ⟨q, eligible, rfl⟩ := MatchingEngine.evaluate_best_eligible best
        have stored := (MatchingEngine.mem_shortlist (MatchingEngine.mem_eligible.mp eligible).1).1
        have found : progress.db.storeProducts.find? q.id = some p := target
        rw [progress.db.storeProducts.find?_id stored] at found
        cases found
        exact stays machine _ best

theorem matchAll_rowsOnTarget {engine : MatchingEngine} {products : List SupplierProduct}
    {progress final : MatchingEngine.Progress} (rows : RowsOnTarget owners progress.db)
    (stays : engine.AlongRun (StaysOnRow engine) products progress)
    (run : engine.matchAll products progress = .ok final) : RowsOnTarget owners final.db := by
  induction products generalizing progress with
  | nil => cases run; exact rows
  | cons s rest ih =>
      rw [MatchingEngine.matchAll] at run
      split at run
      · rename_i progress' matched
        exact ih (matchOne_rowsOnTarget rows stays.1 matched) (stays.2 progress' matched) run
      · cases run

theorem matchRun_rowsOnTarget {engine : MatchingEngine} {db : Db} {onlyUnmapped : Bool}
    {count : Option ℕ} {out : Db × MatchingEngine.Counters} (rows : RowsOnTarget owners db)
    (stays : engine.AlongRun (StaysOnRow engine) (MatchingEngine.selected db onlyUnmapped count)
      (engine.start db)) (run : engine.run db onlyUnmapped count = .ok out) :
    RowsOnTarget owners out.1 := by
  unfold MatchingEngine.run at run
  split at run
  · rename_i progress matched
    cases run
    exact matchAll_rowsOnTarget rows stays matched
  · cases run

/-- A review writes one mapping. -/
theorem writeReview_rowsOnTarget {db db' : Db} {row : ProductMapping}
    (rows : RowsOnTarget owners db) (written : writeReview db row = .ok db')
    (stays : ∀ p, row.storeProductId.bind db.storeProducts.find? = some p →
      db.RowOn row.id p.productExtId) : RowsOnTarget owners db' := by
  unfold writeReview at written
  split at written
  · rename_i wrote
    cases written
    obtain ⟨mappings, flushed, rfl⟩ := Db.writeMapping_eq_ok wrote
    exact rows.write flushed stays
  · cases written

theorem approve_rowsOnTarget {db db' : Db} {mappingId : ℕ} {storeProductId : Option ℕ}
    {reviewedBy : String} {note : Option String} (rows : RowsOnTarget owners db)
    (stays : ∀ target, storeProductId = some target → ∀ p,
      db.storeProducts.find? target = some p → db.RowOn mappingId p.productExtId)
    (approved : approve db mappingId storeProductId reviewedBy note = .ok db') :
    RowsOnTarget owners db' := by
  unfold approve at approved
  cases found : db.mappings.table.find? mappingId with
  | none =>
      rw [found] at approved
      cases approved
  | some m =>
      rw [found] at approved
      obtain ⟨-, rfl⟩ := Table.find?_eq_some_iff.mp found
      cases storeProductId with
      | none =>
          simp only at approved
          split at approved
          · cases approved
          · exact writeReview_rowsOnTarget rows approved fun p at_ => rows.unmoved found at_
      | some target =>
          simp only at approved
          split at approved
          · cases approved
          · exact writeReview_rowsOnTarget rows approved fun p at_ => stays target rfl p at_

theorem reject_rowsOnTarget {db db' : Db} {mappingId : ℕ} {reviewedBy : String}
    {note : Option String} (rows : RowsOnTarget owners db)
    (rejected : reject db mappingId reviewedBy note = .ok db') : RowsOnTarget owners db' := by
  unfold reject at rejected
  cases found : db.mappings.table.find? mappingId with
  | none =>
      rw [found] at rejected
      cases rejected
  | some m =>
      rw [found] at rejected
      exact writeReview_rowsOnTarget rows rejected fun p at_ => rows.unmoved found at_

/-- A change of pricing keeps the product of its mapping. -/
theorem reprices_rowsOnTarget {t u : Session W} (rows : RowsOnTarget owners t.db)
    (reprices : AdminApi.Reprices t u) : RowsOnTarget owners u.db := by
  cases reprices with
  | kept => exact rows
  | written found target flushed =>
      obtain ⟨-, own⟩ := Table.find?_eq_some_iff.mp found
      refine rows.write flushed fun p at_ => ?_
      rw [target] at at_
      rw [← own]
      exact rows.unmoved found at_

/-! ## Every sequence of steps -/

/-- The rows are on target, and every call so far was. -/
structure BridgeOnTarget (owners : Owners) (bridge : Bridge W) : Prop where
  rows : RowsOnTarget owners bridge.db
  trace : ∀ entry ∈ bridge.trace, owners.Addressed entry

/-- What a session of the offer sync leaves. -/
theorem BridgeOnTarget.left {α : Type} {sync : OfferSync W} {bridge : Bridge W}
    (on : BridgeOnTarget owners bridge) {body : Prog Exn (Session W) α}
    (kept : ∀ {r u}, body.Runs ⟨bridge.db, bridge.world, bridge.trace, []⟩ r u →
      SessionOnTarget owners bridge.db ⟨bridge.db, bridge.world, bridge.trace, []⟩ →
      ((∃ a, r = .ok a) → SessionOnTarget owners bridge.db u) ∧
        ∀ entry ∈ u.trace, owners.Addressed entry) :
    BridgeOnTarget owners
      (.left (sync.sessionScope body bridge.db bridge.world bridge.trace)) := by
  have open_ : SessionOnTarget owners bridge.db ⟨bridge.db, bridge.world, bridge.trace, []⟩ :=
    ⟨on.rows, rfl, rfl, on.trace⟩
  rcases (SessionOnTarget.keeps sync owners bridge.db).sessionScope (fun run => kept run open_)
    rfl with ⟨a, stats, -, done⟩ | ⟨e, db', stats, -, same, trace⟩
  · exact ⟨done.rows, done.trace⟩
  · exact ⟨by rw [Bridge.left, same]; exact on.rows, trace⟩

/-- What a session that computes prices leaves. -/
theorem BridgeOnTarget.price {bridge : Bridge W} (on : BridgeOnTarget owners bridge)
    {source : Pricing.Source W} (priced : service.offers.pricer = source.pricer)
    (call : AdminApi.PricingCall) :
    BridgeOnTarget owners (.left (service.pricingSession source bridge call)) := by
  obtain ⟨m, v, reprices, quiet, -, trace, db⟩ := pricingSession_cases priced call
  have silent : m.trace = bridge.trace := by
    cases reprices <;> rfl
  refine ⟨?_, fun entry mem => on.trace entry ?_⟩
  · rcases db with committed | rolledBack
    · exact ((reprices_rowsOnTarget on.rows reprices).congr quiet.offers quiet.mappings
        quiet.storeProducts).congr (congrArg Db.offers committed) (congrArg Db.mappings committed)
        (congrArg Db.storeProducts committed)
    · exact on.rows.congr (congrArg Db.offers rolledBack) (congrArg Db.mappings rolledBack)
        (congrArg Db.storeProducts rolledBack)
  · rw [← silent, ← quiet.trace, ← trace]
    exact mem

theorem step_onTarget (honest : Honest service.offers.adapter owners) {moves : W → W → Prop}
    {bridge bridge' : Bridge W} {action : Action} (on : BridgeOnTarget owners bridge)
    (keeps : service.KeepsTargets bridge action) (step : service.Step moves bridge action bridge') :
    BridgeOnTarget owners bridge' := by
  have committed : ∀ {ε α : Type} {result : Except ε α} {db : α → Db},
      (∀ a, result = .ok a → RowsOnTarget owners (db a)) →
      BridgeOnTarget owners (bridge.committed result db) := by
    intro ε α result db rows
    cases result with
    | ok a => exact ⟨rows a rfl, on.trace⟩
    | error e => exact on
  cases step with
  | pullSupplier => exact ⟨on.rows.congr rfl rfl rfl, on.trace⟩
  | matchProducts => exact committed fun out run => matchRun_rowsOnTarget on.rows keeps run
  | @approve _ storeProductId =>
      refine committed fun db approved => approve_rowsOnTarget on.rows ?_ approved
      rintro target rfl
      exact keeps
  | reject => exact committed fun db rejected => reject_rowsOnTarget on.rows rejected
  | adopt =>
      exact on.left fun run open_ => (keepsAdoption_onTarget honest bridge.db).adoptExistingOffers
        (fun item mem => targetOf_item mem) run open_
  | syncOffers =>
      exact on.left fun run open_ => (keepsItems_onTarget honest bridge.db _ _).run
        (fun item mem => targetOf_item mem) run open_
  | reconcile =>
      exact on.left fun run open_ => (keepsRows_onTarget honest bridge.db).reconcileJobs run open_
  | price priced => exact on.price priced _
  | elapse => exact ⟨on.rows, on.trace⟩

/-- As long as no step moves a mapping that has a row to another product, every
create and update goes to the product of its mapping. -/
theorem calls_addressed (service : Service W) (owners : Owners)
    (honest : Honest service.offers.adapter owners) (moves : W → W → Prop)
    {start bridge : Bridge W} (unpushed : start.db.offers.rows = []) (silent : start.trace = [])
    (run : Relation.ReflTransGen (Runs.Allowed (service.Step moves) service.KeepsTargets)
      start bridge) :
    (∀ entry ∈ bridge.trace, owners.Addressed entry) ∧ RowsOnTarget owners bridge.db := by
  have first : BridgeOnTarget owners start := by
    refine ⟨⟨fun offer mem => ?_, fun offer mem => ?_⟩, fun entry mem => ?_⟩
    · rw [unpushed] at mem; cases mem
    · rw [unpushed] at mem; cases mem
    · rw [silent] at mem; cases mem
  have last := Runs.invariant (fun _ _ _ on keeps step => step_onTarget honest on keeps step)
    run first
  exact ⟨last.trace, last.rows⟩

end Service

namespace EchoStore

def owners : Owners := ⟨id, id⟩

theorem adapter_honest : Honest adapter owners where
  listOffers answer view mem := by cases answer; cases mem
  offersForProduct answer view mem := by cases answer; cases mem
  createOffer answer := by
    cases answer
    exact ⟨fun id same => (by cases same),
      fun j same => (Option.some.inj (truthyId_eq_some_iff.mp same).1).symm⟩
  updateOffer answer j same := by
    cases answer
    exact (Option.some.inj (truthyId_eq_some_iff.mp same).1).symm
  getJob answer succeeded id same := by
    cases answer
    exact (Option.some.inj (truthyId_eq_some_iff.mp same).1).symm

/-- Two runs, and between them a review of the mapping of supplier product 1. -/
def reviewedBetweenRuns (target : ℕ) : Bridge Time :=
  let synced : Bridge Time := .left (service.syncSession start none false)
  let approved := synced.committed (approve synced.db 1 (some target) "reviewer" none) id
  .left (service.syncSession approved none false)

end EchoStore

/-- A review that confirms the product moves nothing. -/
theorem calls_addressed_confirmed : (EchoStore.reviewedBetweenRuns 1).trace ≠ [] ∧
    (∀ entry ∈ (EchoStore.reviewedBetweenRuns 1).trace, EchoStore.owners.Addressed entry) ∧
    RowsOnTarget EchoStore.owners (EchoStore.reviewedBetweenRuns 1).db := by
  have confirms : EchoStore.service.KeepsTargets
      (.left (EchoStore.service.syncSession EchoStore.start none false))
      (.approve 1 (some 1) "reviewer" none) := by
    have on : ((Bridge.left (EchoStore.service.syncSession EchoStore.start none
        false)).db.storeProducts.find? 1).all fun p =>
        (Bridge.left (EchoStore.service.syncSession EchoStore.start none
          false)).db.offers.rows.all
          fun offer => offer.mappingId ≠ 1 ∨ offer.productExtId = p.productExtId := by
      decide +kernel
    intro p found offer mem row
    rw [found, Option.all_some, List.all_eq_true] at on
    simpa [row] using on offer mem
  have run : Relation.ReflTransGen (Runs.Allowed (EchoStore.service.Step fun _ _ => True)
      EchoStore.service.KeepsTargets) EchoStore.start (EchoStore.reviewedBetweenRuns 1) :=
    .tail (.tail (.tail .refl ⟨.syncOffers none false, trivial, .syncOffers⟩)
      ⟨.approve 1 (some 1) "reviewer" none, confirms, .approve⟩)
      ⟨.syncOffers none false, trivial, .syncOffers⟩
  exact ⟨by decide +kernel, Service.calls_addressed EchoStore.service EchoStore.owners
    EchoStore.adapter_honest (fun _ _ => True) (by rfl) (by rfl) run⟩

/-- A review that names another product leaves the row, so the next run sends that
product's price to the old offer. -/
theorem calls_redirected : Honest EchoStore.service.offers.adapter EchoStore.owners ∧
    ¬ ∀ bridge, Relation.ReflTransGen (Runs.Allowed (EchoStore.service.Step fun _ _ => True)
        fun _ _ => True) EchoStore.start bridge →
      ∀ entry ∈ bridge.trace, EchoStore.owners.Addressed entry := by
  refine ⟨EchoStore.adapter_honest, fun all => ?_⟩
  have addressed := all (EchoStore.reviewedBetweenRuns 3) (.tail (.tail (.tail .refl
    ⟨.syncOffers none false, trivial, .syncOffers⟩)
    ⟨.approve 1 (some 3) "reviewer" none, trivial, .approve⟩)
    ⟨.syncOffers none false, trivial, .syncOffers⟩)
  have redirected : ¬ ∀ entry ∈ (EchoStore.reviewedBetweenRuns 3).trace,
      EchoStore.owners.Addressed entry := by decide +kernel
  exact redirected addressed

end FazerBridge
