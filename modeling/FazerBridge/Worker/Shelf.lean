import FazerBridge.OfferSync.Convergence
import FazerBridge.Worker.Jobs

/-!
# The shelf of the store, over the whole system

`Step.mirrors` for the sessions of the worker: the offers of the store and the rows of the
database are kept equal by every session of the system, its jobs among them.
-/

namespace FazerBridge

namespace Service

open OfferSync

variable {W : Type} {service : Service W} {store : StoreState W}

/-- An adoption meets no row on a product its mapping no longer points to. -/
def Adopting (service : Service W) (bridge : Bridge W) : Purpose → Prop
  | .act action => service.Adoptable bridge action
  | .job _ => True

/-- A session that has not touched the offers. -/
structure Calm (store : StoreState W) (bridge : Bridge W) (t : Session W) : Prop where
  offers : t.db.offers = bridge.db.offers
  same : store.Same bridge.world t.world

theorem Calm.quiet {exact : Prop} (atomic : Atomic exact service.offers store)
    {bridge : Bridge W} {t u : Session W}
    (quiet : service.offers.Quiet t u) (calm : Calm store bridge t) : Calm store bridge u where
  offers := quiet.offers.trans calm.offers
  same := ⟨(atomic.quiet quiet).1.trans calm.same.1, (atomic.quiet quiet).2.trans calm.same.2⟩

theorem keeps_calm {exact : Prop} (atomic : Atomic exact service.offers store) (bridge : Bridge W) :
    service.offers.Keeps (Calm store bridge) (Calm store bridge) where
  quiet quiet calm := calm.quiet atomic quiet
  quietEnd quiet calm := calm.quiet atomic quiet
  ends := id

/-- Sessions about anything but the offers. -/
theorem calm_mirrors {exact : Prop} (atomic : Atomic exact service.offers store) {bridge : Bridge W}
    (mirrors : Mirrors exact store bridge.db.offers bridge.world) {α : Type}
    {body : Prog Exn (Session W) α} (calm : Prog.Preserves (Calm store bridge) body) :
    let left := service.offers.sessionScope body bridge.db bridge.world bridge.trace
    store.Touches (service.offers.Reaches bridge.db) bridge.world left.world ∧
      Mirrors exact store left.db.offers left.world := by
  have start : Calm store bridge ⟨bridge.db, bridge.world, bridge.trace, []⟩ := ⟨rfl, rfl, rfl⟩
  rcases (keeps_calm atomic bridge).sessionScope (fun ran =>
    ⟨fun _ => calm _ _ _ ran start, calm _ _ _ ran start⟩) rfl
    with ⟨a, stats, -, kept⟩ | ⟨e, db', stats, -, same, kept⟩
  · refine ⟨kept.same.touches, ?_⟩
    rw [show _ = bridge.db.offers from kept.offers]
    exact mirrors.of_same kept.same
  · refine ⟨kept.same.touches, ?_⟩
    rw [same]
    exact mirrors.of_same kept.same

/-- One session of the system, as `Step.mirrors`. -/
theorem Turn.mirrors {exact : Prop} (atomic : Atomic exact service.offers store) {moves : W → W → Prop}
    (still : ∀ {w w'}, moves w w' → store.Same w w') {bridge bridge' : Bridge W} {purpose : Purpose}
    (turn : service.Turn moves bridge purpose bridge') (adopting : service.Adopting bridge purpose)
    (succeeds : exact → service.Succeeds bridge purpose)
    (mirrors : Mirrors exact store bridge.db.offers bridge.world) :
    store.Touches (service.offers.Reaches bridge.db) bridge.world bridge'.world ∧
      Mirrors exact store bridge'.db.offers bridge'.world := by
  cases turn with
  | act step => exact step.mirrors atomic still adopting succeeds mirrors
  | job job =>
      cases job with
      | supplierCatalogue feed =>
          exact calm_mirrors atomic mirrors (supplierBody_preserves (keeps_calm atomic bridge)
            (fun calm => ⟨calm.offers, calm.same⟩) feed)
      | storeCatalogue feed =>
          exact calm_mirrors atomic mirrors (storeBody_preserves (keeps_calm atomic bridge)
            (fun calm => ⟨calm.offers, calm.same⟩) feed)
      | matching =>
          refine calm_mirrors atomic mirrors (Prog.preserves_ofState fun t calm => ?_)
          split
          · rename_i ran
            have same : Owner.offerSync.Same t.db _ := matches_same (by decide) ran
            exact ⟨same.1.trans calm.offers, calm.same⟩
          · exact calm
      | offers =>
          have items := tracks_items atomic bridge.db bridge.world false
            (service.offers.now bridge.world)
          have rows := tracks_rows atomic bridge.db bridge.world
          have start : service.offers.Tracks exact store bridge.db bridge.world
            ⟨bridge.db, bridge.world, bridge.trace, []⟩ := .start mirrors _ _
          have ended := rows.sessionScope
            (fun ran => offersBody_keeps items rows (fun _ mem => mem) ran start) rfl
          exact tracks_ends mirrors (fun _ => id)
            (fun strict => ended_returned_iff.mp (succeeds strict)) ended

/-- Nothing names a foreign product. -/
def Clear (service : Service W) (foreign : String → Prop) (bridge : Bridge W) (purpose : Purpose) :
    Prop :=
  service.Adopting bridge purpose ∧ ∀ p, service.offers.Reaches bridge.db p → ¬ foreign p

theorem clear_of_bridge {product : String} {bridge : Bridge W} {purpose : Purpose}
    (adopting : service.Adopting bridge purpose)
    (rows : ∀ offer ∈ bridge.db.offers.rows, offer.productExtId ≠ product)
    (items : ∀ item ∈ service.offers.syncable bridge.db none,
      item.storeProduct.productExtId ≠ product) :
    service.Clear (fun p => p = product) bridge purpose := by
  refine ⟨adopting, fun p reached => ?_⟩
  rcases reached with ⟨offer, mem, rfl⟩ | ⟨item, mem, rfl⟩
  · exact rows offer mem
  · exact items item mem

/-- In every run of the system, by the worker and by hand, also through lost answers and
sessions that are rolled back, each row names the offer of its product, and the offers on
products that nothing names are as they were. -/
theorem foreign_untouched (service : Service W) (store : StoreState W)
    (atomic : Atomic False service.offers store) (moves : W → W → Prop)
    (still : ∀ w w', moves w w' → store.Same w w') (foreign : String → Prop)
    {start bridge : Bridge W} (mirrors : Mirrors False store start.db.offers start.world)
    (run : Relation.ReflTransGen
      (Runs.Allowed (service.Turn moves) (service.Clear foreign)) start bridge) :
    (∀ offer ∈ bridge.db.offers.rows, ∀ id, offer.offerExtId = some id →
      ∃ x, store.shelf bridge.world id = some x ∧ x.productExtId = offer.productExtId) ∧
    ∀ id x, foreign x.productExtId →
      (store.shelf bridge.world id = some x ↔ store.shelf start.world id = some x) := by
  have step : ∀ b purpose b', (Mirrors False store b.db.offers b.world ∧ ∀ id x,
      foreign x.productExtId →
        (store.shelf b.world id = some x ↔ store.shelf start.world id = some x)) →
      service.Clear foreign b purpose → service.Turn moves b purpose b' →
      Mirrors False store b'.db.offers b'.world ∧ ∀ id x, foreign x.productExtId →
        (store.shelf b'.world id = some x ↔ store.shelf start.world id = some x) := by
    intro b purpose b' before clear taken
    obtain ⟨mirrors, same⟩ := before
    obtain ⟨adopting, clear⟩ := clear
    obtain ⟨touches, after⟩ := taken.mirrors atomic (still _ _) adopting False.elim mirrors
    refine ⟨after, fun id x apart => Iff.trans ?_ (same id x apart)⟩
    constructor
    · intro shown
      rcases touches.changed id with unchanged | ⟨y, there, reached⟩
      · exact unchanged.symm.trans shown
      · cases there.symm.trans shown
        exact absurd apart (clear _ reached)
    · exact fun shown => touches.untouched shown fun reached => clear _ reached apart
  have kept := Runs.invariant step run ⟨mirrors, fun _ _ _ => Iff.rfl⟩
  refine ⟨fun offer mem id named => ?_, kept.2⟩
  cases kept.1 offer mem with
  | blank unknown | doomed unknown => rw [named] at unknown; cases unknown
  | shown there product own _ _ =>
      obtain rfl := own id named
      exact ⟨_, there, product⟩

/-- The session commits. -/
def Orderly (service : Service W) (bridge : Bridge W) (purpose : Purpose) : Prop :=
  service.Adopting bridge purpose ∧ service.Succeeds bridge purpose

/-- Runs whose sessions commit keep rows and offers equal. -/
theorem mirrors_of_orderly (atomic : Atomic True service.offers store) {moves : W → W → Prop}
    (still : ∀ w w', moves w w' → store.Same w w') {start bridge : Bridge W}
    (mirrors : Mirrors True store start.db.offers start.world)
    (run : Relation.ReflTransGen (Runs.Allowed (service.Turn moves) service.Orderly) start bridge) :
    Mirrors True store bridge.db.offers bridge.world := by
  have step : ∀ b purpose b', Mirrors True store b.db.offers b.world → service.Orderly b purpose →
      service.Turn moves b purpose b' → Mirrors True store b'.db.offers b'.world := by
    intro b purpose b' mirrors orderly taken
    obtain ⟨adopting, succeeds⟩ := orderly
    exact (taken.mirrors atomic (still _ _) adopting (fun _ => succeeds) mirrors).2
  exact Runs.invariant step run mirrors

/-- In every run whose sessions commit, the store shows of each offer exactly what its row
remembers, as long as the row is alone on its product. -/
theorem shelf_remembered (service : Service W) (store : StoreState W)
    (atomic : Atomic True service.offers store) (moves : W → W → Prop)
    (still : ∀ w w', moves w w' → store.Same w w') {start bridge : Bridge W}
    (mirrors : Mirrors True store start.db.offers start.world)
    (run : Relation.ReflTransGen (Runs.Allowed (service.Turn moves) service.Orderly) start bridge) :
    ∀ offer ∈ bridge.db.offers.rows, Alone bridge.db.offers offer → ∀ id,
      offer.offerExtId = some id → ∃ x, store.shelf bridge.world id = some x ∧
        x.productExtId = offer.productExtId ∧ Remembers offer x := by
  intro offer mem alone id named
  cases mirrors_of_orderly atomic still mirrors run offer mem with
  | blank unknown | doomed unknown => rw [named] at unknown; cases unknown
  | shown there product own _ remembers =>
      obtain rfl := own id named
      exact ⟨_, there, product, remembers ⟨trivial, alone⟩⟩

/-- Convergence: after a run of the offer sync that leaves nothing behind, each selected mapping
has a row with what is desired of it, and where the row is on the product of its mapping, and
alone there, the store shows just that. -/
theorem store_converges (service : Service W) (store : StoreState W)
    (atomic : Atomic True service.offers store) (moves : W → W → Prop)
    (still : ∀ w w', moves w w' → store.Same w w') {start bridge : Bridge W}
    (mirrors : Mirrors True store start.db.offers start.world)
    (run : Relation.ReflTransGen (Runs.Allowed (service.Turn moves) service.Orderly) start bridge)
    {count : Option ℕ} {stats : Stats}
    (returned : (service.syncSession bridge count false).result = .ok stats) (clean : Clean stats) :
    let left := service.syncSession bridge count false
    ∀ item ∈ service.offers.syncable bridge.db count, ∃ row price,
      left.db.offers.find? item.mapping.id = some row ∧ service.offers.Desires item price ∧
      Shows (desiredAt price item.supplierProduct) row ∧
      (row.productExtId = item.storeProduct.productExtId → Alone left.db.offers row →
        Wanted store left.world item price row) :=
  fun _ mem => shown_as_wanted atomic (mirrors_of_orderly atomic still mirrors run) returned clean mem

end Service

namespace ShelfStore

open OfferSync AdminApi

theorem markup_unset : ∀ markup ∈ (none : Option ℚ), -90 ≤ markup ∧ markup ≤ 1000 := by
  intro markup same
  cases same

theorem sixty_nonneg : ∀ fixed ∈ some (60 : ℚ), 0 ≤ fixed := by
  intro fixed same
  cases same
  decide +kernel

/-- A fixed price of 60. -/
def sixty : PricingIn where
  fixedPriceOverride := some 60
  markupInRange := markup_unset
  fixedInRange := sixty_nonneg

/-- After the first session of the offers. -/
def offered (refuses : ℚ → Bool) : Bridge World := ((service refuses).runWorkerJob start .offers).2

/-- The price of the first product is changed. -/
def repriced (refuses : ℚ → Bool) : Bridge World :=
  .left ((service refuses).pricingSession EchoStore.pinned (offered refuses) (.setPricing 1 sixty))

/-- After the next session of the offers. -/
def reoffered (refuses : ℚ → Bool) : Bridge World :=
  ((service refuses).runWorkerJob (repriced refuses) .offers).2

theorem repriced_reached {refuses : ℚ → Bool} {guard : Bridge World → Purpose → Prop}
    (first : guard start (.job .offers))
    (second : guard (offered refuses) (.act (.price (.setPricing 1 sixty)))) :
    Relation.ReflTransGen (Runs.Allowed ((service refuses).Turn fun _ _ => False) guard) start
      (repriced refuses) :=
  .tail (.single ⟨_, first, .job .offers⟩) ⟨_, second, .act (.price
    (rfl : (offers refuses).pricer = EchoStore.pinned.pricer))⟩

/-- The store that takes no price above 50. -/
def dear (price : ℚ) : Bool := decide (50 < price)

/-- The job of the second update is reported failed. -/
theorem foreign_untouched_reoffered :
    (reoffered dear).trace.any (fun entry => entry.call matches .getJob "refused" (.ok _)) = true ∧
    state.shelf (reoffered dear).world "7" = some ⟨"7", 3, 1, true⟩ := by
  have first : (service dear).Clear (fun p => p = "7") start (.job .offers) :=
    Service.clear_of_bridge trivial (by decide +kernel) (by decide +kernel)
  have second : (service dear).Clear (fun p => p = "7") (offered dear)
      (.act (.price (.setPricing 1 sixty))) :=
    Service.clear_of_bridge (fun same => by cases same) (by decide +kernel) (by decide +kernel)
  have third : (service dear).Clear (fun p => p = "7") (repriced dear) (.job .offers) :=
    Service.clear_of_bridge trivial (by decide +kernel) (by decide +kernel)
  have untouched := (Service.foreign_untouched (service dear) state (atomic False False.elim)
    (fun _ _ => False) (fun _ _ => False.elim) (fun p => p = "7") (mirrors_start False)
    (.tail (repriced_reached first second) ⟨_, third, .job .offers⟩)).2 "7" ⟨"7", 3, 1, true⟩ rfl
  exact ⟨by decide +kernel, untouched.mpr (by decide +kernel)⟩

/-- The store that takes every price. -/
def fair (_ : ℚ) : Bool := false

theorem repriced_orderly : Relation.ReflTransGen (Runs.Allowed ((service fair).Turn
    fun _ _ => False) (service fair).Orderly) start (repriced fair) := by
  have returned : ((service fair).runWorkerJob start .offers).1 = .returned := by decide +kernel
  have committed : ((service fair).pricingSession EchoStore.pinned (offered fair)
      (.setPricing 1 sixty)).result = .ok () := by decide +kernel
  exact repriced_reached ⟨trivial, returned⟩ ⟨fun same => (by cases same), _, rfl, _, committed⟩

/-- The rows remember the new price. -/
theorem shelf_remembered_reoffered :
    (reoffered fair).db.offers.rows.map (fun offer => (offer.offerExtId, offer.pushedPrice)) =
      [(some "1", some 60), (some "2", some (23 / 2))] ∧
    ∀ offer ∈ (reoffered fair).db.offers.rows, ∀ id, offer.offerExtId = some id →
      ∃ x, state.shelf (reoffered fair).world id = some x ∧ x.productExtId = offer.productExtId ∧
        Remembers offer x := by
  have alone : ∀ offer ∈ (reoffered fair).db.offers.rows,
      Alone (reoffered fair).db.offers offer := by decide +kernel
  have returned : ((service fair).runWorkerJob (repriced fair) .offers).1 = .returned := by
    decide +kernel
  have third : (service fair).Orderly (repriced fair) (.job .offers) := ⟨trivial, returned⟩
  have run : Relation.ReflTransGen (Runs.Allowed ((service fair).Turn fun _ _ => False)
      (service fair).Orderly) start (reoffered fair) :=
    .tail repriced_orderly ⟨_, third, .job .offers⟩
  have remembered := Service.shelf_remembered (service fair) state (atomic True fun _ _ => rfl)
    (fun _ _ => False) (fun _ _ => False.elim) (mirrors_start True) run
  exact ⟨by decide +kernel, fun offer mem => remembered offer mem (alone offer mem)⟩

/-- A run after the change of the price. -/
def lastRun : Left World Stats := (service fair).syncSession (repriced fair) none false

def lastStats : Stats := lastRun.result.toOption.getD []

/-- The store shows the new price, and the other product at its own. -/
theorem store_converges_repriced :
    ((service fair).offers.syncable (repriced fair).db none).length = 2 ∧
    ∀ item ∈ (service fair).offers.syncable (repriced fair).db none, ∃ row price,
      lastRun.db.offers.find? item.mapping.id = some row ∧ (service fair).offers.Desires item price ∧
      Wanted state lastRun.world item price row := by
  have clean : Clean lastStats := by
    intro key left
    have kept : ∀ key ∈ [StatKey.deferredPriceBudget, .deferredRateLimited, .awaitingJob, .errors],
        lastStats.get key = 0 := by decide +kernel
    cases key <;> first | exact kept _ (by decide) | cases left
  have placed : ∀ row ∈ lastRun.db.offers.rows, Alone lastRun.db.offers row ∧
      ∀ item ∈ (service fair).offers.syncable (repriced fair).db none,
        row.mappingId = item.mapping.id →
        row.productExtId = item.storeProduct.productExtId := by decide +kernel
  have two : ((service fair).offers.syncable (repriced fair).db none).length = 2 := by decide +kernel
  have ran : lastRun.result = .ok lastStats := eq_ok_getD (by decide +kernel)
  have converges := Service.store_converges (service fair) state (atomic True fun _ _ => rfl)
    (fun _ _ => False) (fun _ _ => False.elim) (mirrors_start True) repriced_orderly ran clean
  have session : (service fair).syncSession (repriced fair) none false = lastRun := rfl
  refine ⟨two, fun item mem => ?_⟩
  obtain ⟨row, price, found, desires, -, wanted⟩ := converges item mem
  rw [session] at found wanted
  obtain ⟨there, own⟩ := Table.find?_eq_some_iff.mp found
  obtain ⟨alone, product⟩ := placed row there
  exact ⟨row, price, found, desires, wanted (product item mem own) alone⟩

end ShelfStore

end FazerBridge
