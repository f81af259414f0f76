import FazerBridge.OfferSync.AtomicStore
import FazerBridge.OfferSync.Adoption
import FazerBridge.Service

/-!
# The store as a mirror of the database

Over a store that applies what it accepts, every session of the offer sync keeps the rows
of the database and the shelf of the store equal (`Mirrors`).  What a session touches on
the shelf is on a product that a row or a selected mapping names (`Reaches`), also when it
is rolled back.  A rolled back session leaves the shelf ahead of the rows, so what the rows
remember is only kept where every session commits, and of two rows on one product one may
overwrite what the other remembers; that each row names the offer of its own product is kept
in any case.
-/

namespace FazerBridge

namespace OfferSync

open Prog

variable {W : Type}

/-! ## Sessions -/

/-- No other row is on the product of the row. -/
def Alone (offers : Table StoreOffer.mappingId) (offer : StoreOffer) : Prop :=
  ∀ other ∈ offers.rows, other.productExtId = offer.productExtId →
    other.mappingId = offer.mappingId

instance (offers : Table StoreOffer.mappingId) (offer : StoreOffer) :
    Decidable (Alone offers offer) :=
  inferInstanceAs (Decidable (∀ other ∈ offers.rows, _ → _))

/-- Every row mirrors its offer; what it remembers is only compared while it is alone on its
product. -/
def Mirrors (exact : Prop) (store : StoreState W) (offers : Table StoreOffer.mappingId)
    (w : W) : Prop :=
  ∀ offer ∈ offers.rows, Mirrored (exact ∧ Alone offers offer) store w offer

/-- The products a row or a selected mapping names. -/
def Reaches (sync : OfferSync W) (db : Db) (productExtId : String) : Prop :=
  (∃ offer ∈ db.offers.rows, offer.productExtId = productExtId) ∨
    ∃ item ∈ sync.syncable db none, item.storeProduct.productExtId = productExtId

/-- A session in progress that started in `db` and `w`. -/
structure Tracks (sync : OfferSync W) (exact : Prop) (store : StoreState W) (db : Db) (w : W)
    (t : Session W) : Prop where
  mirrors : Mirrors exact store t.db.offers t.world
  touches : store.Touches (sync.Reaches db) w t.world
  reached : ∀ offer ∈ t.db.offers.rows, sync.Reaches db offer.productExtId

section Sessions

variable {sync : OfferSync W} {store : StoreState W} {exact : Prop} {db : Db} {w : W}
  {t u : Session W} {item : Item} {offer : StoreOffer}

theorem Mirrored.mono {loose : Prop} (mirrored : Mirrored exact store w offer)
    (weaker : loose → exact) : Mirrored loose store w offer :=
  Sited.mono mirrored (fun kept strict => kept (weaker strict))
    fun _ kept strict => kept (weaker strict)

theorem Mirrors.of_same {offers : Table StoreOffer.mappingId} {w' : W}
    (mirrors : Mirrors exact store offers w) (same : store.Same w w') :
    Mirrors exact store offers w' :=
  fun offer mem => (mirrors offer mem).of_same same

theorem Tracks.start (mirrors : Mirrors exact store db.offers w) (trace : List Entry)
    (stats : Stats) : sync.Tracks exact store db w ⟨db, w, trace, stats⟩ where
  mirrors := mirrors
  touches := .refl _
  reached offer mem := .inl ⟨offer, mem, rfl⟩

/-- What the sync itself uses of the world leaves the store alone. -/
theorem Atomic.used (atomic : Atomic exact sync store) {a b : W}
    (uses : Relation.ReflTransGen sync.Uses a b) : store.Same a b := by
  induction uses with
  | refl => exact ⟨rfl, rfl⟩
  | tail _ last ih =>
      have same := atomic.uses last
      exact ⟨same.1.trans ih.1, same.2.trans ih.2⟩

theorem Atomic.quiet (atomic : Atomic exact sync store) (quiet : sync.Quiet t u) :
    store.Same t.world u.world :=
  atomic.used quiet.world

theorem Tracks.quiet (atomic : Atomic exact sync store) (quiet : sync.Quiet t u)
    (tracks : sync.Tracks exact store db w t) : sync.Tracks exact store db w u where
  mirrors := by
    rw [quiet.offers]
    exact tracks.mirrors.of_same (atomic.quiet quiet)
  touches := tracks.touches.trans (atomic.quiet quiet).touches
  reached := by
    rw [quiet.offers]
    exact tracks.reached

/-- A row that is alone after a write was so before it, as long as the written row stays on its
product. -/
theorem Alone.of_save {offers : Table StoreOffer.mappingId} {row : StoreOffer}
    (stays : ∀ old ∈ offers.rows, old.mappingId = offer.mappingId →
      old.productExtId = offer.productExtId)
    (alone : Alone (offers.save offer) row) : Alone offers row := by
  intro other mem same
  by_cases own : other.mappingId = offer.mappingId
  · have product : offer.productExtId = row.productExtId := (stays other mem own).symm.trans same
    exact own.trans (alone offer (Table.mem_save.mpr (.inl rfl)) product)
  · exact alone other (Table.mem_save.mpr (.inr ⟨mem, own⟩)) same

/-- A written row, and calls about its own product. -/
theorem Tracks.save (tracks : sync.Tracks exact store db w t)
    (saved : u.db.offers = t.db.offers.save offer)
    (stays : ∀ old ∈ t.db.offers.rows, old.mappingId = offer.mappingId →
      old.productExtId = offer.productExtId)
    (touches : store.Touches (OwnProduct offer) t.world u.world)
    (mirrored : Mirrored (exact ∧ Alone (t.db.offers.save offer) offer) store u.world offer)
    (reached : sync.Reaches db offer.productExtId) :
    sync.Tracks exact store db w u where
  mirrors := by
    rw [saved]
    intro row mem
    rcases Table.mem_save.mp mem with rfl | ⟨old, other⟩
    · exact mirrored
    · have before := (tracks.mirrors row old).mono
        (And.imp_right (Alone.of_save stays) : exact ∧ Alone (t.db.offers.save offer) row → _)
      refine before.of_touches touches fun strict own => other ?_
      exact (strict.2 offer (Table.mem_save.mpr (.inl rfl)) own.symm).symm
  touches := tracks.touches.trans (touches.mono fun p own => own ▸ reached)
  reached := by
    rw [saved]
    intro x mem
    rcases Table.mem_save.mp mem with rfl | ⟨old, -⟩
    · exact reached
    · exact tracks.reached x old

/-- A row that is there is written back, after calls about its product. -/
theorem Tracks.rewrite (tracks : sync.Tracks exact store db w t) {row : StoreOffer}
    (found : row ∈ t.db.offers.rows) (own : offer.mappingId = row.mappingId)
    (product : offer.productExtId = row.productExtId)
    (saved : u.db.offers = t.db.offers.save offer)
    (touches : store.Touches (OwnProduct row) t.world u.world)
    (mirrored : Mirrored (exact ∧ Alone t.db.offers row) store u.world offer) :
    sync.Tracks exact store db w u := by
  have stays : ∀ old ∈ t.db.offers.rows, old.mappingId = offer.mappingId →
      old.productExtId = offer.productExtId := by
    intro old mem same
    rw [t.db.offers.eq_of_key_eq mem found (same.trans own), product]
  refine tracks.save saved stays (touches.mono fun p same => same.trans product.symm)
    (mirrored.mono (And.imp_right fun alone => ?_)) (product ▸ tracks.reached row found)
  have before := alone.of_save stays
  unfold Alone at before ⊢
  rw [← product, ← own]
  exact before

/-- A new row. -/
theorem Tracks.fresh (tracks : sync.Tracks exact store db w t)
    (missing : t.db.offers.find? item.mapping.id = none) (selected : item ∈ sync.syncable db none) :
    sync.Tracks exact store db w (t.withOffer (sync.newOffer item.mapping item.storeProduct)) := by
  refine tracks.save rfl (fun old mem own => ?_) (.refl _) (.blank rfl rfl fun _ => ⟨rfl, rfl, rfl⟩)
    (.inr ⟨item, selected, rfl⟩)
  have found := t.db.offers.find?_key mem
  rw [own] at found
  cases found.symm.trans missing

theorem tracks_keeps (atomic : Atomic exact sync store) (db : Db) (w : W) :
    sync.Keeps (sync.Tracks exact store db w)
      fun t => store.Touches (sync.Reaches db) w t.world where
  quiet := Tracks.quiet atomic
  quietEnd quiet touches := touches.trans (atomic.quiet quiet).touches
  ends tracks := tracks.touches

theorem tracks_items (atomic : Atomic exact sync store) (db : Db) (w : W) (dryRun : Bool)
    (now : Time) :
    sync.KeepsItems dryRun now (· ∈ sync.syncable db none) (sync.Tracks exact store db w)
      fun t => store.Touches (sync.Reaches db) w t.world where
  toKeeps := tracks_keeps atomic db w
  opened selected tracks missing := tracks.fresh missing selected
  synced _ tracks found syncs := by
    obtain ⟨there, -⟩ := Table.find?_eq_some_iff.mp found
    obtain ⟨touches, mirrored⟩ := syncs.mirrors (atomic.mono And.left) (tracks.mirrors _ there)
    exact tracks.rewrite there syncs.frame.mappingId syncs.frame.productExtId rfl touches mirrored
  raised _ tracks found syncs := by
    obtain ⟨there, -⟩ := Table.find?_eq_some_iff.mp found
    obtain ⟨touches, -⟩ := syncs.mirrors (atomic.mono And.left) (tracks.mirrors _ there)
    exact tracks.touches.trans (touches.mono fun p own => own ▸ tracks.reached _ there)

theorem tracks_rows (atomic : Atomic exact sync store) (db : Db) (w : W) :
    sync.KeepsRows (sync.Tracks exact store db w)
      fun t => store.Touches (sync.Reaches db) w t.world where
  toKeeps := tracks_keeps atomic db w
  reconciled tracks found _ pending reconciles := by
    obtain ⟨there, -⟩ := Table.find?_eq_some_iff.mp found
    obtain ⟨same, mirrored⟩ := reconciles.mirrors (atomic.mono And.left) pending
      (tracks.mirrors _ there)
    exact tracks.rewrite there reconciles.frame.mappingId reconciles.frame.productExtId rfl
      same.touches mirrored
  raised tracks found _ pending reconciles := by
    obtain ⟨there, -⟩ := Table.find?_eq_some_iff.mp found
    obtain ⟨same, -⟩ := reconciles.mirrors (atomic.mono And.left) pending (tracks.mirrors _ there)
    exact tracks.touches.trans same.touches

/-! ### Adoption -/

/-- Every row of a selected mapping is on the product the mapping points to. -/
def Current (sync : OfferSync W) (db : Db) (offers : Table StoreOffer.mappingId) : Prop :=
  ∀ item ∈ sync.syncable db none, ∀ offer ∈ offers.rows, offer.mappingId = item.mapping.id →
    offer.productExtId = item.storeProduct.productExtId

/-- What a store lists is what it shows. -/
def Lists (store : StoreState W) (w : W) (view : StoreOfferView) : Prop :=
  ∃ x, store.shelf w view.offerExtId = some x ∧ x.productExtId = view.productExtId ∧
    (∀ p, view.price = some p → x.price = p) ∧ x.inventory = view.inventorySize ∧
    x.active = view.isActive

/-- A row takes over the offer on its product. -/
theorem Atomic.mirrored_adoptedRow (atomic : Atomic exact sync store) {view : StoreOfferView}
    (lists : Lists store w view) (product : view.productExtId = offer.productExtId)
    (mirrored : Mirrored exact store w offer) : Mirrored exact store w (adoptedRow view offer) := by
  obtain ⟨x, there, own, price, inventory, active⟩ := lists
  have remembers : Remembers (adoptedRow view offer) x :=
    ⟨price, fun n same => inventory.trans (Option.some.inj same),
      fun b same => active.trans (Option.some.inj same)⟩
  refine .shown there (own.trans product) (fun i same => (Option.some.inj same).symm) ?_
    fun _ => remembers
  intro jobId pending
  cases mirrored with
  | blank _ idle _ =>
      rw [show truthyId offer.pendingJobId = some jobId from pending] at idle
      cases idle
  | doomed _ pending' fate =>
      cases pending'.symm.trans pending
      exact .inr ⟨fate, rfl⟩
  | shown there' product' named known _ =>
      obtain rfl := atomic.unique there there' ((own.trans product).trans product'.symm)
      exact (known jobId pending).imp_right fun fails => ⟨fails.1, rfl⟩

/-- An adoption in progress: nothing on the shelf has changed. -/
structure Adopts (sync : OfferSync W) (exact : Prop) (store : StoreState W) (db : Db) (w : W)
    (t : Session W) : Prop extends sync.Tracks exact store db w t where
  same : store.Same w t.world
  current : sync.Current db t.db.offers

theorem adopts_keeps (atomic : Atomic exact sync store) (db : Db) (w : W) :
    sync.KeepsAdoption (· ∈ sync.syncable db none) (Lists store w)
      (sync.Adopts exact store db w) fun t => store.Touches (sync.Reaches db) w t.world where
  quiet quiet adopts :=
    have moved := atomic.quiet quiet
    ⟨adopts.toTracks.quiet atomic quiet, ⟨moved.1.trans adopts.same.1, moved.2.trans adopts.same.2⟩,
      by rw [quiet.offers]; exact adopts.current⟩
  quietEnd quiet touches := touches.trans (atomic.quiet quiet).touches
  ends adopts := adopts.touches
  listed {t w' remotes} adopts answer := by
    obtain ⟨same, views⟩ := atomic.listed answer
    refine ⟨fun view mem => ?_, ⟨?_, adopts.touches.trans same.touches, adopts.reached⟩,
      ⟨same.1.trans adopts.same.1, same.2.trans adopts.same.2⟩, adopts.current⟩
    · obtain ⟨x, there, facts⟩ := views remotes rfl view mem
      exact ⟨x, by rw [← adopts.same.1, there], facts⟩
    · exact adopts.mirrors.of_same same
  unlisted adopts answer := adopts.touches.trans (atomic.listed answer).1.touches
  opened {item t} selected adopts missing := by
    refine ⟨adopts.fresh missing selected, adopts.same, fun other mem row there own => ?_⟩
    rcases Table.mem_save.mp there with rfl | ⟨old, -⟩
    · rw [eq_of_mappingId mem selected own.symm]
      rfl
    · exact adopts.current other mem row old own
  adopted {item offer t view} selected lists product adopts found := by
    obtain ⟨there, own⟩ := Table.find?_eq_some_iff.mp found
    have on : view.productExtId = offer.productExtId :=
      product.trans (adopts.current item selected offer there own).symm
    have listsNow : Lists store t.world view := by
      obtain ⟨x, shown, facts⟩ := lists
      exact ⟨x, by rw [adopts.same.1, shown], facts⟩
    have mirrored := (atomic.mono And.left).mirrored_adoptedRow listsNow on
      (adopts.mirrors offer there)
    refine ⟨adopts.rewrite there ?_ ?_ ?_ (.refl _) mirrored, adopts.same,
      fun other mem row saved own => ?_⟩
    · rfl
    · rfl
    · rfl
    · rcases Table.mem_save.mp saved with rfl | ⟨old, -⟩
      · exact adopts.current other mem offer there own
      · exact adopts.current other mem row old own

end Sessions

end OfferSync

/-! ## Runs of the service -/

namespace Service

open OfferSync

variable {W : Type} {service : Service W} {store : StoreState W}

/-- The sessions of an action commit. -/
def Commits (service : Service W) (bridge : Bridge W) : Action → Prop
  | .syncOffers count dryRun => ∃ stats, (service.syncSession bridge count dryRun).result = .ok stats
  | .reconcile count => ∃ outcomes, (service.reconcileSession bridge count).result = .ok outcomes
  | .adopt => ∃ adoption, (service.adoptSession bridge).result = .ok adoption
  | .price call => ∃ source, service.offers.pricer = source.pricer ∧
    ∃ u, (service.pricingSession source bridge call).result = .ok u
  | _ => True

/-- No row that an adoption meets is on a product its mapping no longer points to. -/
def Adoptable (service : Service W) (bridge : Bridge W) (action : Action) : Prop :=
  action = .adopt → service.offers.Current bridge.db bridge.db.offers

/-- A session that does not commit leaves the old rows. -/
theorem tracks_ends {bridge : Bridge W} {exact : Prop}
    (mirrors : Mirrors exact store bridge.db.offers bridge.world) {α : Type} {left : Left W α}
    {P : Session W → Prop}
    (tracks : ∀ t, P t → service.offers.Tracks exact store bridge.db bridge.world t)
    (commits : exact → ∃ a, left.result = .ok a)
    (ended : (∃ a stats, left.result = .ok a ∧ P ⟨left.db, left.world, left.trace, stats⟩) ∨
      ∃ e db' stats, left.result = .error e ∧ left.db = bridge.db ∧
        store.Touches (service.offers.Reaches bridge.db) bridge.world
          (⟨db', left.world, left.trace, stats⟩ : Session W).world) :
    store.Touches (service.offers.Reaches bridge.db) bridge.world left.world ∧
      Mirrors exact store left.db.offers left.world := by
  rcases ended with ⟨a, stats, -, kept⟩ | ⟨e, db', stats, raised, same, touches⟩
  · exact ⟨(tracks _ kept).touches, (tracks _ kept).mirrors⟩
  · refine ⟨touches, ?_⟩
    rw [same]
    refine fun offer mem => (mirrors offer mem).of_touches touches fun strict => ?_
    obtain ⟨a, returned⟩ := commits strict.1
    rw [raised] at returned
    cases returned

/-- One step: what it touches is named by a row or a selected mapping, the rows keep naming
the offers of their products, and keep remembering what these show when the step commits. -/
theorem Step.mirrors {exact : Prop} (atomic : Atomic exact service.offers store) {moves : W → W → Prop}
    (still : ∀ {w w'}, moves w w' → store.Same w w') {bridge bridge' : Bridge W} {action : Action}
    (step : service.Step moves bridge action bridge') (adoptable : service.Adoptable bridge action)
    (commits : exact → service.Commits bridge action)
    (mirrors : Mirrors exact store bridge.db.offers bridge.world) :
    store.Touches (service.offers.Reaches bridge.db) bridge.world bridge'.world ∧
      Mirrors exact store bridge'.db.offers bridge'.world := by
  have start : ∀ trace stats, service.offers.Tracks exact store bridge.db bridge.world
      ⟨bridge.db, bridge.world, trace, stats⟩ := fun trace stats => .start mirrors trace stats
  rcases step.cases with ⟨count, dryRun, rfl, rfl⟩ | ⟨count, rfl, rfl⟩ | ⟨rfl, rfl⟩ | apart
  · have keeps := tracks_items atomic bridge.db bridge.world dryRun
      (service.offers.now bridge.world)
    exact tracks_ends mirrors (fun _ => id) commits (keeps.sessionScope (fun ran => keeps.run
      (fun item mem => mem_syncable_all mem) ran (start _ _)) rfl)
  · have keeps := tracks_rows atomic bridge.db bridge.world
    exact tracks_ends mirrors (fun _ => id) commits
      (keeps.sessionScope (fun ran => keeps.reconcileJobs ran (start _ _)) rfl)
  · have keeps := adopts_keeps atomic bridge.db bridge.world
    exact tracks_ends mirrors (fun _ => Adopts.toTracks) commits (keeps.sessionScope (fun ran =>
      keeps.adoptExistingOffers (fun _ mem => mem) ran
        ⟨start _ _, ⟨rfl, rfl⟩, adoptable rfl⟩) rfl)
  · have same : store.Same bridge.world bridge'.world := apart.world.elim atomic.used still
    rw [apart.same.1]
    exact ⟨same.touches, mirrors.of_same same⟩

end Service

/-! ## A store with a shelf

Its offers bear the id of their product, and so do its jobs, but for the job of an update whose
price it refuses: it accepts the update, changes nothing, and reports the job as failed. -/

namespace ShelfStore

open OfferSync

/-- The offers, by product. -/
abbrev World : Type := Table Shown.productExtId

def view (x : Shown) : StoreOfferView where
  offerExtId := x.productExtId
  productExtId := x.productExtId
  price := some x.price
  inventorySize := x.inventory
  status := if x.active then "active" else "inactive"

def refusal (statusCode : ℕ) : Exn := .api ⟨.apiError, "refused", "g2a", some statusCode⟩

/-- The job of a refused update. -/
def refused : JobResult := { jobId := "refused" }

def adapter (refuses : ℚ → Bool) : Adapter World where
  code := "g2a"
  listOffers w := (.ok (w.rows.map view), w)
  offersForProduct p w := (.ok ((w.find? p).map view).toList, w)
  createOffer p price inventory active w :=
    if p = "refused" then (.error (refusal 400), w)
    else
      match w.find? p with
      | some _ => (.error (refusal 409), w)
      | none => (.ok (EchoStore.job p (some p)), w.save ⟨p, price, inventory, active⟩)
  updateOffer id price inventory active w :=
    match w.find? id with
    | none => (.error (refusal 404), w)
    | some x =>
      if price.any refuses then (.ok refused, w)
      else (.ok (EchoStore.job id none), w.save (x.patch price inventory active))
  getJob jobId w :=
    if jobId = "" then (.error (refusal 404), w)
    else if jobId = "refused" then
      (.ok { refused with status := "failed", errors := ["price not allowed"] }, w)
    else (.ok (EchoStore.job jobId (some jobId)), w)

def state : StoreState World where
  shelf w := w.find?
  fate _ jobId :=
    if jobId = "" then none else if jobId = "refused" then some .fails else some (.lands jobId)

def offers (refuses : ℚ → Bool) : OfferSync World where
  adapter := adapter refuses
  settings := EchoStore.settings
  pricer := EchoStore.pinned.pricer
  now _ := 0
  database w := (none, w)

def service (refuses : ℚ → Bool) : Service World where
  engine := sampleEngine
  supplierCatalog := EchoStore.service.supplierCatalog
  offers := offers refuses

theorem find?_save (w : World) (x : Shown) :
    (w.save x).find? = Function.update w.find? x.productExtId (some x) := by
  funext id
  by_cases same : id = x.productExtId
  · rw [same, Table.find?_save_self, Function.update_self]
  · rw [Table.find?_save_of_ne _ same, Function.update_of_ne same]

theorem product_of_shown {w : World} {id : String} {x : Shown} (shown : w.find? id = some x) :
    x.productExtId = id :=
  (Table.find?_eq_some_iff.mp shown).2

theorem grows_save {w : World} {x : Shown} : state.Grows w (w.save x) where
  offers {id y} shown := by
    by_cases same : id = x.productExtId
    · refine ⟨x, ?_, same.symm.trans (product_of_shown shown).symm⟩
      rw [same]
      exact Table.find?_save_self w x
    · exact ⟨y, (Table.find?_save_of_ne w same).trans shown, rfl⟩
  fates known := known

theorem uses {refuses : ℚ → Bool} {w w' : World} (used : (offers refuses).Uses w w') : w' = w := by
  cases used with
  | database => rfl
  | pricer product mapping storeProduct rates => exact EchoStore.world_pinned ..

theorem fate_of_truthy {w : World} {id jobId : String}
    (truthy : truthyId (some id) = some jobId) :
    state.fate w jobId = some (.lands id) ∨ state.fate w jobId = some .fails := by
  obtain ⟨same, some_⟩ := truthyId_eq_some_iff.mp truthy
  cases same
  by_cases fails : id = "refused"
  · right
    exact (if_neg some_).trans (if_pos fails)
  · left
    exact (if_neg some_).trans (if_neg fails)

/-- A store that refuses no price is exact. -/
theorem atomic {refuses : ℚ → Bool} (exact : Prop) (fair : exact → ∀ price, refuses price = false) :
    Atomic exact (offers refuses) state where
  unique shown shown' same :=
    (product_of_shown shown).symm.trans (same.trans (product_of_shown shown'))
  nameless _ := rfl
  uses used := by
    rw [uses used]
    exact ⟨rfl, rfl⟩
  listed {w r w'} answer := by
    cases answer
    refine ⟨⟨rfl, rfl⟩, fun views same v mem => ?_⟩
    cases same
    obtain ⟨x, there, rfl⟩ := List.mem_map.mp mem
    refine ⟨x, w.find?_key there, rfl, fun p same => Option.some.inj same, rfl, ?_⟩
    cases active : x.active <;> simp [view, StoreOfferView.isActive, active]
  onProduct {p w r w'} answer := by
    cases answer
    refine ⟨⟨rfl, rfl⟩, fun views same v mem => ?_⟩
    cases same
    obtain ⟨x, shown, rfl⟩ := Option.map_eq_some_iff.mp (Option.mem_toList.mp mem)
    have own := product_of_shown shown
    exact ⟨x, show w.find? x.productExtId = some x by rw [own, shown], own⟩
  job {jobId w r w'} answer := by
    simp only [offers, adapter] at answer
    by_cases empty : jobId = ""
    · rw [if_pos empty] at answer
      cases answer
      exact ⟨⟨rfl, rfl⟩, fun job same => by cases same⟩
    · rw [if_neg empty] at answer
      by_cases fails : jobId = "refused"
      · rw [if_pos fails] at answer
        cases answer
        refine ⟨⟨rfl, rfl⟩, fun job same finished => ?_⟩
        cases same
        exact ⟨fun succeeded => (by cases succeeded), fun _ => (if_neg empty).trans (if_pos fails)⟩
      · rw [if_neg fails] at answer
        cases answer
        refine ⟨⟨rfl, rfl⟩, fun job same finished => ?_⟩
        cases same
        refine ⟨fun _ => ⟨jobId, (if_neg empty).trans (if_neg fails), fun named own => ?_⟩,
          fun failed => by cases failed⟩
        exact (Option.some.inj (truthyId_eq_some_iff.mp own).1).symm
  createRefused {p price inventory active w e w'} answer := by
    simp only [offers, adapter] at answer
    split at answer
    · cases answer
      exact ⟨.refl _, fun _ => ⟨rfl, rfl⟩⟩
    · split at answer <;> cases answer
      exact ⟨.refl _, fun _ => ⟨rfl, rfl⟩⟩
  created {p price inventory active w job w'} answer := by
    simp only [offers, adapter] at answer
    split at answer
    · cases answer
    · rename_i sold
      split at answer
      · cases answer
      · rename_i free
        cases answer
        refine ⟨grows_save, .inl ⟨p, _, free, rfl, fun _ => rfl, find?_save w _, fun named own => ?_,
          fun jobId own => ?_⟩⟩
        · exact (Option.some.inj (truthyId_eq_some_iff.mp own).1).symm
        · obtain ⟨same, some_⟩ := truthyId_eq_some_iff.mp own
          cases same
          exact (if_neg some_).trans (if_neg sold)
  updateRefused {id price inventory active w e w'} answer := by
    simp only [offers, adapter] at answer
    split at answer
    · cases answer
      exact ⟨.refl _, fun _ => ⟨rfl, rfl⟩⟩
    · split at answer <;> cases answer
  updated {id price inventory active w job w'} answer := by
    simp only [offers, adapter] at answer
    split at answer
    · cases answer
    · rename_i x shown
      split at answer
      · rename_i dear
        cases answer
        have unfair : ¬ exact := by
          intro strict
          cases price with
          | none => cases dear
          | some p =>
              rw [Option.any_some, fair strict] at dear
              cases dear
        refine ⟨(StoreState.Touches.refl (T := fun _ => True) _).toGrows, x, x, shown, rfl,
          fun strict => absurd strict unfair, ?_, fun jobId own => .inr ?_⟩
        · exact (Function.update_eq_self_iff.mpr shown.symm).symm
        · obtain ⟨same, -⟩ := truthyId_eq_some_iff.mp own
          cases same
          rfl
      · cases answer
        refine ⟨grows_save, x, x.patch price inventory active, shown, rfl, fun _ => rfl, ?_,
          fun jobId own => fate_of_truthy own⟩
        rw [← product_of_shown shown]
        exact find?_save w _

/-- Two mapped products, and an offer somebody else put on the shelf. -/
def start : Bridge World := ⟨EchoStore.db, ⟨[⟨"7", 3, 1, true⟩], by decide⟩, []⟩

theorem mirrors_start (exact : Prop) : Mirrors exact state start.db.offers start.world := by
  intro offer mem
  cases mem

end ShelfStore

end FazerBridge
