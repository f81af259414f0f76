import Mathlib.Logic.Function.Basic
import FazerBridge.OfferSync.Sessions

/-!
# A store that applies what it accepts

The store as the abstract state the offer sync works against: what it shows of each
offer, and what becomes of each job.  `Atomic` is the contract of its adapter: an
accepted update changes no offer but its own, at once, an accepted create either puts
the offer on the shelf at once or is a job that will be reported failed, and every other
call leaves the shelf alone.

A row is `Mirrored` when the store shows what the row remembers.  One call of the sync
on a row keeps that, whatever its result (`SyncsOne.mirrors`), and touches no offer on
another product (`Touches`).  With `exact` false a row only has to name the offer of
its product: that much survives a lost answer and a session that is rolled back.
-/

namespace FazerBridge

namespace OfferSync

variable {W : Type}

/-! ## The store -/

/-- What a store shows of an offer. -/
structure Shown where
  productExtId : String
  price : ℚ
  inventory : ℤ
  active : Bool
  deriving DecidableEq, Repr

/-- An update overwrites what it carries. -/
def Shown.patch (x : Shown) (price : Option ℚ) (inventory : Option ℤ) (active : Option Bool) :
    Shown where
  productExtId := x.productExtId
  price := price.getD x.price
  inventory := inventory.getD x.inventory
  active := active.getD x.active

/-- What becomes of a job. -/
inductive Fate
  /-- the job of this offer is reported complete -/
  | lands (offerExtId : String)
  | fails
  deriving DecidableEq, Repr

/-- The part of the world that is the store. -/
structure StoreState (W : Type) where
  shelf : W → String → Option Shown
  fate : W → String → Option Fate

namespace StoreState

variable (store : StoreState W)

/-- Nothing of the store has changed. -/
def Same (w w' : W) : Prop := store.shelf w' = store.shelf w ∧ store.fate w' = store.fate w

/-- Offers stay on the shelf, on their product, and jobs keep their fate. -/
structure Grows (w w' : W) : Prop where
  offers : ∀ {id x}, store.shelf w id = some x →
    ∃ y, store.shelf w' id = some y ∧ y.productExtId = x.productExtId
  fates : ∀ {jobId fate}, store.fate w jobId = some fate → store.fate w' jobId = some fate

/-- What is shown differently now is on a product of `T`. -/
structure Touches (T : String → Prop) (w w' : W) : Prop extends store.Grows w w' where
  changed : ∀ id, store.shelf w' id = store.shelf w id ∨
    ∃ y, store.shelf w' id = some y ∧ T y.productExtId

variable {store} {T U : String → Prop} {w w' w'' : W}

theorem Touches.refl (w : W) : store.Touches T w w :=
  ⟨⟨fun shown => ⟨_, shown, rfl⟩, id⟩, fun _ => .inl rfl⟩

/-- A store that shows the same was not touched. -/
theorem Same.touches (same : store.Same w w') : store.Touches T w w' where
  offers shown := ⟨_, by rw [same.1, shown], rfl⟩
  fates known := by rw [same.2, known]
  changed id := .inl (by rw [same.1])

/-- Offers that come are there afterwards too. -/
theorem Grows.trans (first : store.Grows w w') (second : store.Grows w' w'') :
    store.Grows w w'' where
  offers shown := by
    obtain ⟨y, there, product⟩ := first.offers shown
    obtain ⟨z, there', product'⟩ := second.offers there
    exact ⟨z, there', product'.trans product⟩
  fates known := second.fates (first.fates known)

/-- What two parts touch their sequence touches. -/
theorem Touches.trans (first : store.Touches T w w') (second : store.Touches T w' w'') :
    store.Touches T w w'' where
  toGrows := first.toGrows.trans second.toGrows
  changed id := by
    rcases second.changed id with same | new
    · rcases first.changed id with same' | ⟨y, there, touched⟩
      · exact .inl (same.trans same')
      · exact .inr ⟨y, same.trans there, touched⟩
    · exact .inr new

/-- Products may be added to those that were touched. -/
theorem Touches.mono (touches : store.Touches T w w') (within : ∀ p, T p → U p) :
    store.Touches U w w' where
  toGrows := touches.toGrows
  changed id := (touches.changed id).imp_right fun ⟨y, there, touched⟩ =>
    ⟨y, there, within _ touched⟩

/-- An offer on another product is as it was. -/
theorem Touches.untouched (touches : store.Touches T w w') {id : String} {x : Shown}
    (shown : store.shelf w id = some x) (other : ¬ T x.productExtId) :
    store.shelf w' id = some x := by
  rcases touches.changed id with same | ⟨y, there, touched⟩
  · exact same.trans shown
  · obtain ⟨z, there', product⟩ := touches.offers shown
    cases there.symm.trans there'
    exact absurd (product ▸ touched) other

end StoreState

open StoreState

/-- The contract of an adapter whose store applies what it accepts.  Unless `exact`, a write
that raises may have been applied, what a write sets may be rounded on its way, and an update
that was accepted may change nothing.  Jobs of updates may fail in any case. -/
structure Atomic (exact : Prop) (sync : OfferSync W) (store : StoreState W) : Prop where
  /-- a store has one offer on a product -/
  unique : ∀ {w a b x y}, store.shelf w a = some x → store.shelf w b = some y →
    x.productExtId = y.productExtId → a = b
  /-- no job has the empty id -/
  nameless : ∀ w, store.fate w "" = none
  uses : ∀ {w w'}, sync.Uses w w' → store.Same w w'
  listed : ∀ {w r w'}, sync.adapter.listOffers w = (r, w') → store.Same w w' ∧
    ∀ views, r = .ok views → ∀ view ∈ views, ∃ x, store.shelf w view.offerExtId = some x ∧
      x.productExtId = view.productExtId ∧ (∀ p, view.price = some p → x.price = p) ∧
      x.inventory = view.inventorySize ∧ x.active = view.isActive
  onProduct : ∀ {p w r w'}, sync.adapter.offersForProduct p w = (r, w') → store.Same w w' ∧
    ∀ views, r = .ok views → ∀ view ∈ views, ∃ x, store.shelf w view.offerExtId = some x ∧
      x.productExtId = p
  job : ∀ {jobId w r w'}, sync.adapter.getJob jobId w = (r, w') → store.Same w w' ∧
    ∀ job, r = .ok job → job.isFinished = true →
      (job.succeeded = true → ∃ id, store.fate w jobId = some (.lands id) ∧
        ∀ named, truthyId job.resourceId = some named → named = id) ∧
      (job.succeeded = false → store.fate w jobId = some .fails)
  createRefused : ∀ {p price inventory active w e w'},
    sync.adapter.createOffer p price inventory active w = (.error e, w') →
      store.Touches (fun product => product = p) w w' ∧ (exact → store.Same w w')
  created : ∀ {p price inventory active w job w'},
    sync.adapter.createOffer p price inventory active w = (.ok job, w') → store.Grows w w' ∧
      ((∃ id x, store.shelf w id = none ∧ x.productExtId = p ∧
          (exact → x = ⟨p, price, inventory, active⟩) ∧
          store.shelf w' = Function.update (store.shelf w) id (some x) ∧
          (∀ named, truthyId job.resourceId = some named → named = id) ∧
          ∀ jobId, truthyId (some job.jobId) = some jobId →
            store.fate w' jobId = some (.lands id)) ∨
        store.shelf w' = store.shelf w ∧ truthyId job.resourceId = none ∧
          ∃ jobId, truthyId (some job.jobId) = some jobId ∧ store.fate w' jobId = some .fails)
  updateRefused : ∀ {id price inventory active w e w'},
    sync.adapter.updateOffer id price inventory active w = (.error e, w') →
      store.Touches (fun product => ∃ x, store.shelf w id = some x ∧ x.productExtId = product)
        w w' ∧ (exact → store.Same w w')
  updated : ∀ {id price inventory active w job w'},
    sync.adapter.updateOffer id price inventory active w = (.ok job, w') → store.Grows w w' ∧
      ∃ x y, store.shelf w id = some x ∧ y.productExtId = x.productExtId ∧
        (exact → y = x.patch price inventory active) ∧
        store.shelf w' = Function.update (store.shelf w) id (some y) ∧
        ∀ jobId, truthyId (some job.jobId) = some jobId →
          store.fate w' jobId = some (.lands id) ∨ store.fate w' jobId = some .fails

/-- A store that is exact is so for any weaker demand. -/
theorem Atomic.mono {exact loose : Prop} {sync : OfferSync W} {store : StoreState W}
    (atomic : Atomic exact sync store) (weaker : loose → exact) : Atomic loose sync store where
  unique := atomic.unique
  nameless := atomic.nameless
  uses := atomic.uses
  listed := atomic.listed
  onProduct := atomic.onProduct
  job := atomic.job
  createRefused answer := (atomic.createRefused answer).imp_right fun same strict =>
    same (weaker strict)
  created answer := (atomic.created answer).imp_right fun accepted =>
    accepted.imp_left fun ⟨id, x, free, product, sent, rest⟩ =>
      ⟨id, x, free, product, fun strict => sent (weaker strict), rest⟩
  updateRefused answer := (atomic.updateRefused answer).imp_right fun same strict =>
    same (weaker strict)
  updated answer := (atomic.updated answer).imp_right fun ⟨x, y, shown, product, patch, rest⟩ =>
    ⟨x, y, shown, product, fun strict => patch (weaker strict), rest⟩

/-! ## Rows and their offers -/

/-- The row holds nothing that was pushed. -/
structure Forgotten (offer : StoreOffer) : Prop where
  price : offer.pushedPrice = none
  inventory : offer.pushedInventory = none
  active : offer.pushedActive = none

/-- What the row remembers is what the offer shows. -/
structure Remembers (offer : StoreOffer) (x : Shown) : Prop where
  price : ∀ p, offer.pushedPrice = some p → x.price = p
  inventory : ∀ n, offer.pushedInventory = some n → x.inventory = n
  active : ∀ b, offer.pushedActive = some b → x.active = b

/-- Two rows of one product that remember the same. -/
structure SameMemory (a b : StoreOffer) : Prop where
  product : b.productExtId = a.productExtId
  price : b.pushedPrice = a.pushedPrice
  inventory : b.pushedInventory = a.pushedInventory
  active : b.pushedActive = a.pushedActive

/-- A row that remembers nothing agrees with every offer. -/
theorem Forgotten.remembers {offer : StoreOffer} (forgotten : Forgotten offer) (x : Shown) :
    Remembers offer x where
  price p same := by rw [forgotten.price] at same; cases same
  inventory n same := by rw [forgotten.inventory] at same; cases same
  active b same := by rw [forgotten.active] at same; cases same

/-- Rows that remember the same have forgotten the same. -/
theorem SameMemory.forgotten {a b : StoreOffer} (same : SameMemory a b) (forgotten : Forgotten a) :
    Forgotten b :=
  ⟨same.price.trans forgotten.price, same.inventory.trans forgotten.inventory,
    same.active.trans forgotten.active⟩

/-- Rows that remember the same agree with the same offers. -/
theorem SameMemory.remembers {a b : StoreOffer} (same : SameMemory a b) {x : Shown}
    (remembers : Remembers a x) : Remembers b x where
  price p pushed := remembers.price p (same.price ▸ pushed)
  inventory n pushed := remembers.inventory n (same.inventory ▸ pushed)
  active b pushed := remembers.active b (same.active ▸ pushed)

/-- Where the offer of a row is: `B` holds where there is none, and `R` of what it
shows. -/
inductive Sited (store : StoreState W) (w : W) (offer : StoreOffer) (B : Prop)
    (R : Shown → Prop) : Prop
  /-- nothing was sent, or it was rejected -/
  | blank (unknown : offer.offerExtId = none) (idle : truthyId offer.pendingJobId = none)
      (kept : B)
  /-- a create that will be reported failed -/
  | doomed {jobId} (unknown : offer.offerExtId = none)
      (pending : truthyId offer.pendingJobId = some jobId)
      (fate : store.fate w jobId = some .fails)
  /-- an offer of the row's product, whose id the row may not know yet -/
  | shown {id x} (shown : store.shelf w id = some x)
      (product : x.productExtId = offer.productExtId)
      (named : ∀ i, offer.offerExtId = some i → i = id)
      (pending : ∀ jobId, truthyId offer.pendingJobId = some jobId →
        store.fate w jobId = some (.lands id) ∨
          store.fate w jobId = some .fails ∧ offer.offerExtId = some id)
      (kept : R x)

/-- The store shows what the row remembers, or at least (`exact` false) the row names
the offer of its product. -/
def Mirrored (exact : Prop) (store : StoreState W) (w : W) (offer : StoreOffer) : Prop :=
  Sited store w offer (exact → Forgotten offer) fun x => exact → Remembers offer x

section Row

variable {sync : OfferSync W} {store : StoreState W} {s t : RowState W} {phase : Phase}
  {B : Prop} {R : Shown → Prop} {exact : Prop} {w w' : W} {offer : StoreOffer}

/-- What is known of the offer of a row may be weakened. -/
theorem Sited.mono {B' : Prop} {R' : Shown → Prop} (sited : Sited store w offer B R)
    (blank : B → B') (shown : ∀ x, R x → R' x) : Sited store w offer B' R' := by
  cases sited with
  | blank unknown idle kept => exact .blank unknown idle (blank kept)
  | doomed unknown pending fate => exact .doomed unknown pending fate
  | shown there product named pending kept => exact .shown there product named pending (shown _ kept)

/-- It stays true while the store shows the same. -/
theorem Sited.of_same (same : store.Same w w') (sited : Sited store w offer B R) :
    Sited store w' offer B R := by
  cases sited with
  | blank unknown idle kept => exact .blank unknown idle kept
  | doomed unknown pending fate => exact .doomed unknown pending (by rw [same.2, fate])
  | shown there product named pending kept =>
      exact .shown (by rw [same.1, there]) product named (by rw [same.2]; exact pending) kept

/-- What other products' calls do to the offer of a row. -/
theorem Mirrored.of_touches {T : String → Prop} (touches : store.Touches T w w')
    (other : exact → ¬ T offer.productExtId) (mirrored : Mirrored exact store w offer) :
    Mirrored exact store w' offer := by
  cases mirrored with
  | blank unknown idle kept => exact .blank unknown idle kept
  | doomed unknown pending fate => exact .doomed unknown pending (touches.fates fate)
  | @shown id x there product named pending kept =>
      have fates : ∀ jobId, truthyId offer.pendingJobId = some jobId →
          store.fate w' jobId = some (.lands id) ∨
            store.fate w' jobId = some .fails ∧ offer.offerExtId = some id := fun jobId own =>
        (pending jobId own).imp touches.fates (And.imp_left touches.fates)
      by_cases strict : exact
      · refine .shown (touches.untouched there ?_) product named fates kept
        rw [product]
        exact other strict
      · obtain ⟨y, there', product'⟩ := touches.offers there
        exact .shown there' (product'.trans product) named fates fun strict' => absurd strict' strict

/-- A write that raised. -/
theorem Mirrored.of_refused {T : String → Prop} (touches : store.Touches T w w')
    (same : exact → store.Same w w') (mirrored : Mirrored exact store w offer) :
    Mirrored exact store w' offer := by
  by_cases strict : exact
  · exact mirrored.of_same (same strict)
  · exact mirrored.of_touches touches fun strict' => absurd strict' strict

/-- A flush touches no offer. -/
theorem Atomic.flushes (atomic : Atomic exact sync store) {q : Except Exn Unit}
    (flushed : sync.Flushes s q t) : store.Same s.world t.world ∧ t.offer = s.offer := by
  obtain ⟨rfl, -⟩ := flushed
  exact ⟨atomic.uses (.database _), rfl⟩

/-! ### Resolving -/

theorem SameMemory.refl (offer : StoreOffer) : SameMemory offer offer := ⟨rfl, rfl, rfl, rfl⟩

/-- The offer found on a product is the offer of its row. -/
theorem Atomic.sited_found (atomic : Atomic exact sync store)
    (idle : truthyId offer.pendingJobId = none)
    (sited : Sited store w offer B R) (found : B → ∀ x, R x) {id : String} {x : Shown}
    (there : store.shelf w id = some x) (product : x.productExtId = offer.productExtId) :
    Sited store w { offer with offerExtId := some id } B R := by
  have unpending : ∀ jobId, truthyId offer.pendingJobId = some jobId →
      store.fate w jobId = some (.lands id) ∨
        store.fate w jobId = some .fails ∧ some id = some id := fun jobId own => by
    rw [idle] at own
    cases own
  cases sited with
  | blank unknown _ kept =>
      exact .shown there product (fun i same => (Option.some.inj same).symm) unpending
        (found kept x)
  | doomed _ pending _ => rw [idle] at pending; cases pending
  | @shown id' x' there' product' _ _ kept =>
      obtain rfl := atomic.unique there there' (product.trans product'.symm)
      cases there.symm.trans there'
      exact .shown there product (fun i same => (Option.some.inj same).symm) unpending kept

/-- A search that finds an offer sites the row on it. -/
theorem FindsRemote.sited (atomic : Atomic exact sync store) {r : Except Exn Bool}
    (finds : sync.FindsRemote phase s r t) (idle : truthyId s.offer.pendingJobId = none)
    (sited : Sited store s.world s.offer B R) (found : B → ∀ x, R x) :
    store.Same s.world t.world ∧ SameMemory s.offer t.offer ∧
      Sited store t.world t.offer B R := by
  cases finds with
  | raised answer | nothing answer =>
      have same := (atomic.onProduct answer).1
      exact ⟨same, .refl _, sited.of_same same⟩
  | @found view rest w q t answer flushed =>
      obtain ⟨same, views⟩ := atomic.onProduct answer
      obtain ⟨x, there, product⟩ := views _ rfl view List.mem_cons_self
      obtain ⟨same', kept⟩ := atomic.flushes flushed
      refine ⟨⟨same'.1.trans same.1, same'.2.trans same.2⟩, ?_, ?_⟩
      · rw [kept]
        exact ⟨rfl, rfl, rfl, rfl⟩
      · rw [kept]
        exact ((atomic.sited_found idle sited found there product).of_same same).of_same same'

/-- A job that is done is that of the row's offer. -/
theorem Sited.jobless (sited : Sited store w offer B R) {jobId id : String}
    (pending : truthyId offer.pendingJobId = some jobId)
    (fate : store.fate w jobId = some (.lands id)) :
    Sited store w { offer with pendingJobId := none } B R ∧
      Sited store w { offer with pendingJobId := none, offerExtId := some id } B R := by
  have gone : ∀ {jobId : String}, truthyId none = some jobId → False := fun own => by cases own
  cases sited with
  | blank _ idle _ => rw [idle] at pending; cases pending
  | doomed _ own fate' =>
      cases own.symm.trans pending
      cases fate.symm.trans fate'
  | @shown id' x there product named known kept =>
      have same : id = id' := by
        rcases known jobId pending with lands | ⟨fails, -⟩
        · cases fate.symm.trans lands
          rfl
        · cases fate.symm.trans fails
      subst same
      exact ⟨.shown there product named (fun _ own => (gone own).elim) kept,
        .shown there product (fun _ same => (Option.some.inj same).symm)
          (fun _ own => (gone own).elim) kept⟩

/-- What a resolution does to the place of the row: it keeps what the row remembers,
or the create was rejected. -/
theorem Resolves.sited (atomic : Atomic exact sync store) {r : Except Exn Bool}
    (resolves : sync.Resolves phase s r t) (sited : Sited store s.world s.offer B R)
    (found : B → ∀ x, R x) :
    store.Same s.world t.world ∧
      (SameMemory s.offer t.offer ∧ Sited store t.world t.offer B R ∨
        r ≠ .ok true ∧ t.offer.state = .failed ∧ Forgotten t.offer ∧
          Sited store t.world t.offer True fun _ => True) := by
  cases resolves with
  | noJob pending finds =>
      obtain ⟨same, memory, kept⟩ := finds.sited atomic pending sited found
      exact ⟨same, .inl ⟨memory, kept⟩⟩
  | lookupFailed _ answer | lookupRaised _ _ answer | unfinished _ answer _ =>
      have same := (atomic.job answer).1
      exact ⟨same, .inl ⟨.refl _, sited.of_same same⟩⟩
  | @failed jobId job w q t pending answer finished failed flushed =>
      obtain ⟨same, fates⟩ := atomic.job answer
      obtain ⟨same', kept⟩ := atomic.flushes flushed
      have fate := (fates job rfl finished).2 failed
      refine ⟨⟨same'.1.trans same.1, same'.2.trans same.2⟩, .inr ⟨?_, ?_, ?_, ?_⟩⟩
      · cases q <;> exact fun same => by cases same
      · rw [kept]
        rfl
      · rw [kept]
        exact ⟨rfl, rfl, rfl⟩
      · rw [kept]
        refine Sited.of_same same' (Sited.of_same same ?_)
        cases sited with
        | blank _ idle _ => rw [idle] at pending; cases pending
        | doomed unknown _ _ => exact .blank unknown rfl trivial
        | shown there product named _ _ =>
            exact .shown there product named (fun _ own => by cases own) trivial
  | @named jobId job w offerExtId q t pending answer finished succeeded named flushed =>
      obtain ⟨same, fates⟩ := atomic.job answer
      obtain ⟨same', kept⟩ := atomic.flushes flushed
      obtain ⟨id, fate, own⟩ := (fates job rfl finished).1 succeeded
      obtain rfl := own _ named
      refine ⟨⟨same'.1.trans same.1, same'.2.trans same.2⟩, .inl ⟨?_, ?_⟩⟩
      · rw [kept]
        exact ⟨rfl, rfl, rfl, rfl⟩
      · rw [kept]
        exact ((sited.jobless pending fate).2.of_same same).of_same same'
  | @unnamed jobId job w r t pending answer finished succeeded unnamed finds =>
      obtain ⟨same, fates⟩ := atomic.job answer
      obtain ⟨id, fate, -⟩ := (fates job rfl finished).1 succeeded
      obtain ⟨same', memory, kept⟩ := finds.sited atomic rfl
        ((sited.jobless pending fate).1.of_same same) found
      exact ⟨⟨same'.1.trans same.1, same'.2.trans same.2⟩,
        .inl ⟨⟨memory.product, memory.price, memory.inventory, memory.active⟩, kept⟩⟩

/-- Rows that remember the same are mirrored alike. -/
theorem SameMemory.mirrored {a b : StoreOffer} (same : SameMemory a b)
    (sited : Sited store w b (exact → Forgotten a) fun x => exact → Remembers a x) :
    Mirrored exact store w b :=
  sited.mono (fun kept strict => same.forgotten (kept strict))
    fun _ kept strict => same.remembers (kept strict)

/-- Resolving the offer id keeps a row mirrored, and touches no offer. -/
theorem Resolves.mirrors (atomic : Atomic exact sync store) {r : Except Exn Bool}
    (resolves : sync.Resolves phase s r t) (mirrored : Mirrored exact store s.world s.offer) :
    store.Same s.world t.world ∧ Mirrored exact store t.world t.offer := by
  obtain ⟨same, ⟨memory, sited⟩ | ⟨-, -, forgotten, sited⟩⟩ := resolves.sited atomic mirrored
    fun kept x strict => (kept strict).remembers x
  · exact ⟨same, memory.mirrored sited⟩
  · exact ⟨same, sited.mono (fun _ _ => forgotten) fun x _ _ => forgotten.remembers x⟩

/-! ### Updating and creating -/

/-- Calls about a row touch its product. -/
def OwnProduct (offer : StoreOffer) (productExtId : String) : Prop :=
  productExtId = offer.productExtId

/-- An accepted update leaves the row and its offer equal. -/
theorem Atomic.mirrored_updatedRow (atomic : Atomic exact sync store) {desired : DesiredOffer}
    {now : Time} {send stockChanged activeChanged : Bool} {price : Option ℚ} {inventory : Option ℤ}
    {active : Option Bool} {job : JobResult}
    (price_eq : price = if send then some desired.price else none)
    (inventory_eq : inventory = if stockChanged then some desired.inventory else none)
    (active_eq : active = if activeChanged then some desired.active else none)
    (stock : stockChanged = false → offer.pushedInventory = some desired.inventory)
    (activity : activeChanged = false → offer.pushedActive = some desired.active)
    (known : offer.offerExtId.isSome = true)
    (answer : sync.adapter.updateOffer (offer.offerExtId.getD "") price inventory active w =
      (.ok job, w'))
    (mirrored : Mirrored exact store w offer) :
    store.Touches (OwnProduct offer) w w' ∧
      Mirrored exact store w' (updatedRow desired now send job offer) := by
  obtain ⟨i, named⟩ := Option.isSome_iff_exists.mp known
  rw [named] at answer
  obtain ⟨grows, x, y, shown, ofProduct, patch, patched, fates⟩ := atomic.updated answer
  cases mirrored with
  | blank unknown | doomed unknown => rw [named] at unknown; cases unknown
  | @shown id x' shown' product own _ kept =>
      obtain rfl := own i named
      cases shown.symm.trans shown'
      have after : store.shelf w' i = some y := by
        rw [patched, Option.getD_some, Function.update_self]
      have product' := ofProduct.trans product
      refine ⟨⟨grows, fun id => ?_⟩, .shown after product' own (fun jobId own => ?_) ?_⟩
      · by_cases same : id = i
        · rw [same]
          exact .inr ⟨_, after, product'⟩
        · left
          rw [patched, Option.getD_some, Function.update_of_ne same]
      · obtain ⟨same, -⟩ := truthyId_eq_some_iff.mp own
        exact (fates jobId same).imp_right fun fails => ⟨fails, named⟩
      · intro strict
        obtain ⟨ofPrice, ofInventory, ofActive⟩ := kept strict
        rw [patch strict]
        refine ⟨fun p pushed => ?_, fun n pushed => ?_, fun b pushed => ?_⟩
        · change (if (!send) = true then offer.pushedPrice else some desired.price) = some p at pushed
          change price.getD x.price = p
          rw [price_eq]
          cases send with
          | true => exact Option.some.inj pushed
          | false => exact ofPrice p pushed
        · change some desired.inventory = some n at pushed
          change inventory.getD x.inventory = n
          rw [inventory_eq]
          cases stockChanged with
          | true => exact Option.some.inj pushed
          | false => exact ofInventory n ((stock rfl).trans pushed)
        · change some desired.active = some b at pushed
          change active.getD x.active = b
          rw [active_eq]
          cases activeChanged with
          | true => exact Option.some.inj pushed
          | false => exact ofActive b ((activity rfl).trans pushed)

/-- An update keeps its row mirrored, and touches no other product. -/
theorem Updates.mirrors (atomic : Atomic exact sync store) {desired : DesiredOffer} {now : Time}
    {priceChanged stockChanged activeChanged : Bool} {r : Except Exn StatKey}
    (updates : sync.Updates desired now priceChanged stockChanged activeChanged s r t)
    (stock : stockChanged = false → s.offer.pushedInventory = some desired.inventory)
    (activity : activeChanged = false → s.offer.pushedActive = some desired.active)
    (known : s.offer.offerExtId.isSome = true) (mirrored : Mirrored exact store s.world s.offer) :
    store.Touches (OwnProduct s.offer) s.world t.world ∧
      Mirrored exact store t.world t.offer := by
  cases updates with
  | nothing => exact ⟨.refl _, mirrored⟩
  | raised _ id _ _ _ answer =>
      subst id
      obtain ⟨touches, same⟩ := atomic.updateRefused answer
      refine ⟨touches.mono fun p own => ?_, mirrored.of_refused touches same⟩
      -- the offer the row names is on its product
      obtain ⟨x, there, product⟩ := own
      obtain ⟨i, named⟩ := Option.isSome_iff_exists.mp known
      rw [named, Option.getD_some] at there
      cases mirrored with
      | blank unknown | doomed unknown => rw [named] at unknown; cases unknown
      | shown there' product' own =>
          obtain rfl := own i named
          cases there.symm.trans there'
          exact product.symm.trans product'
  | unwritten _ id price_eq inventory_eq active_eq answer flushed =>
      subst id
      obtain ⟨touches, kept⟩ := atomic.mirrored_updatedRow price_eq inventory_eq active_eq stock
        activity known answer mirrored
      obtain ⟨same, offer⟩ := atomic.flushes flushed
      rw [offer]
      exact ⟨touches.trans same.touches, kept.of_same same⟩
  | unpriced _ _ id inventory_eq active_eq answer flushed =>
      subst id
      obtain ⟨touches, kept⟩ := atomic.mirrored_updatedRow
        (show none = if false then some desired.price else none from rfl) inventory_eq active_eq
        stock activity known answer mirrored
      obtain ⟨same, offer⟩ := atomic.flushes flushed
      rw [offer]
      exact ⟨touches.trans same.touches, kept.of_same same⟩
  | priced _ id inventory_eq active_eq answer flushed recorded =>
      subst id
      obtain ⟨touches, kept⟩ := atomic.mirrored_updatedRow
        (show some desired.price = if true then some desired.price else none from rfl) inventory_eq
        active_eq stock activity known answer mirrored
      obtain ⟨same, offer⟩ := atomic.flushes flushed
      obtain ⟨same', offer'⟩ := atomic.flushes recorded
      rw [offer', RowState.logged_offer, offer]
      exact ⟨(touches.trans same.touches).trans same'.touches, (kept.of_same same).of_same same'⟩

/-- What a create puts on the shelf. -/
def sent (desired : DesiredOffer) (offer : StoreOffer) : Shown :=
  ⟨offer.productExtId, desired.price, desired.inventory, desired.active⟩

/-- The row of an accepted create holds nothing else, and its offer is what was sent. -/
def JustSent (exact : Prop) (desired : DesiredOffer) (offer : StoreOffer) (x : Shown) : Prop :=
  exact → Forgotten offer ∧ x = sent desired offer

/-- An accepted create: the offer is on the shelf, or its job will fail. -/
theorem Atomic.sited_created (atomic : Atomic exact sync store) {desired : DesiredOffer}
    {job : JobResult} (unknown : offer.offerExtId = none)
    (idle : truthyId offer.pendingJobId = none)
    (answer : sync.adapter.createOffer offer.productExtId desired.price desired.inventory
      desired.active w = (.ok job, w'))
    (mirrored : Mirrored exact store w offer) :
    store.Touches (OwnProduct offer) w w' ∧
      Sited store w' { offer with pendingJobId := truthyId (some job.jobId) } False
        (JustSent exact desired offer) ∧
      ∀ named, truthyId job.resourceId = some named →
        Sited store w' { offer with
          pendingJobId := truthyId (some job.jobId), offerExtId := some named } False
          (JustSent exact desired offer) := by
  have twice : ∀ jobId, truthyId (truthyId (some job.jobId)) = some jobId →
      truthyId (some job.jobId) = some jobId := fun jobId own => (truthyId_eq_some_iff.mp own).1
  obtain ⟨grows, ⟨id, x, free, ofProduct, asSent, put, names, fates⟩ |
    ⟨same, unnamed, jobId, pending, fails⟩⟩ := atomic.created answer
  · have there : store.shelf w' id = some x := by rw [put, Function.update_self]
    have kept : JustSent exact desired offer x := by
      refine fun strict => ⟨?_, asSent strict⟩
      cases mirrored with
      | blank _ _ kept => exact kept strict
      | doomed _ pending => rw [idle] at pending; cases pending
      | shown old product =>
          -- the store would have two offers on the product
          obtain ⟨y, old', product'⟩ := grows.offers old
          obtain rfl := atomic.unique old' there ((product'.trans product).trans ofProduct.symm)
          rw [free] at old
          cases old
    refine ⟨⟨grows, fun id' => ?_⟩, ?_, fun named own => ?_⟩
    · by_cases same : id' = id
      · rw [same]
        exact .inr ⟨_, there, ofProduct⟩
      · left
        rw [put, Function.update_of_ne same]
    · refine .shown there ofProduct (fun i own => ?_)
        (fun jobId own => .inl (fates _ (twice _ own))) kept
      change offer.offerExtId = some i at own
      rw [unknown] at own
      cases own
    · obtain rfl := names named own
      exact .shown there ofProduct (fun i own => (Option.some.inj own).symm)
        (fun jobId own => .inl (fates _ (twice _ own))) kept
  · refine ⟨⟨grows, fun id => .inl (by rw [same])⟩, ?_, fun named own => ?_⟩
    · exact .doomed unknown (truthyId_eq_some_iff.mpr
        ⟨pending, (truthyId_eq_some_iff.mp pending).2⟩) fails
    · rw [unnamed] at own
      cases own

/-- A create that was recorded leaves its row mirrored. -/
theorem RecordsCreate.mirrors (atomic : Atomic exact sync store) {desired : DesiredOffer}
    {now calledAt : Time} {r : Except Exn StatKey}
    (records : sync.RecordsCreate desired now calledAt s r t)
    (sited : Sited store s.world s.offer False fun x => exact → x = sent desired s.offer) :
    store.Same s.world t.world ∧ Mirrored exact store t.world t.offer := by
  have created : Mirrored exact store s.world (createdRow desired now s.offer) := by
    cases sited with
    | blank _ _ kept => exact kept.elim
    | doomed unknown pending fate => exact .doomed unknown pending fate
    | shown there product named pending kept =>
        refine .shown there product named pending fun strict => ?_
        rw [kept strict]
        exact ⟨fun _ same => Option.some.inj same, fun _ same => Option.some.inj same,
          fun _ same => Option.some.inj same⟩
  cases records with
  | unwritten flushed =>
      obtain ⟨same, offer⟩ := atomic.flushes flushed
      rw [offer]
      exact ⟨same, created.of_same same⟩
  | recorded flushed recorded =>
      obtain ⟨same, offer⟩ := atomic.flushes flushed
      obtain ⟨same', offer'⟩ := atomic.flushes recorded
      rw [offer', RowState.logged_offer, offer]
      exact ⟨⟨same'.1.trans same.1, same'.2.trans same.2⟩, (created.of_same same).of_same same'⟩

/-- A create leaves its row mirrored, and touches no other product. -/
theorem Creates.mirrors (atomic : Atomic exact sync store) {desired : DesiredOffer} {now : Time}
    {r : Except Exn StatKey} (creates : sync.Creates desired now s r t)
    (unknown : s.offer.offerExtId = none) (idle : truthyId s.offer.pendingJobId = none)
    (mirrored : Mirrored exact store s.world s.offer) :
    store.Touches (OwnProduct s.offer) s.world t.world ∧
      Mirrored exact store t.world t.offer := by
  -- a row without a job, after a refused create
  have refused : ∀ {w : W} {T : String → Prop}, store.Touches T s.world w →
      (exact → store.Same s.world w) →
      Mirrored exact store w { s.offer with pendingJobId := none } := by
    intro w T touches same
    refine Mirrored.of_refused touches same ?_
    cases mirrored with
    | blank unknown _ kept =>
        exact .blank unknown rfl fun strict => ⟨(kept strict).1, (kept strict).2, (kept strict).3⟩
    | doomed _ pending => rw [idle] at pending; cases pending
    | shown there product named _ kept =>
        exact .shown there product named (fun _ own => by cases own)
          fun strict => ⟨(kept strict).1, (kept strict).2, (kept strict).3⟩
  -- a row whose create was accepted, before it is recorded
  have unrecorded : ∀ {m u : RowState W} {q : Except Exn Bool}, sync.Resolves .creating m q u →
      SameMemory s.offer m.offer →
      Sited store m.world m.offer False (JustSent exact desired s.offer) →
      store.Same m.world u.world ∧ Mirrored exact store u.world u.offer := by
    intro m u q resolves memory sited
    refine resolves.mirrors atomic (sited.mono False.elim fun x sent strict => ?_)
    exact (memory.forgotten (sent strict).1).remembers x
  cases creates with
  | raised other answer =>
      obtain ⟨touches, same⟩ := atomic.createRefused answer
      exact ⟨touches, mirrored.of_refused touches same⟩
  | adoptRaised _ answer resolves | unadopted _ answer resolves =>
      obtain ⟨touches, same⟩ := atomic.createRefused answer
      obtain ⟨same', kept⟩ := resolves.mirrors atomic (refused touches same)
      exact ⟨touches.trans same'.touches, kept⟩
  | adopted _ answer resolves updates =>
      obtain ⟨touches, same⟩ := atomic.createRefused answer
      obtain ⟨same', kept⟩ := resolves.mirrors atomic (refused touches same)
      obtain ⟨touches', done⟩ := updates.mirrors atomic (fun no => by cases no)
        (fun no => by cases no) resolves.isSome kept
      refine ⟨(touches.trans same'.touches).trans (touches'.mono fun p own => ?_), done⟩
      exact own.trans resolves.frame.productExtId
  | named named answer records =>
      obtain ⟨touches, -, sited⟩ := atomic.sited_created unknown idle answer mirrored
      obtain ⟨same, done⟩ := records.mirrors atomic
        ((sited _ named).mono id fun _ sent strict => (sent strict).2)
      exact ⟨touches.trans same.touches, done⟩
  | resolveRaised _ _ answer resolves | refused _ _ answer resolves =>
      obtain ⟨touches, sited, -⟩ := atomic.sited_created unknown idle answer mirrored
      obtain ⟨same, done⟩ := unrecorded resolves (by exact ⟨rfl, rfl, rfl, rfl⟩) sited
      exact ⟨touches.trans same.touches, done⟩
  | settled _ _ answer resolves live records =>
      obtain ⟨touches, sited, -⟩ := atomic.sited_created unknown idle answer mirrored
      obtain ⟨same, ⟨memory, sited⟩ | ⟨unresolved, failed, -⟩⟩ :=
        resolves.sited atomic sited False.elim
      · have ofRow : sent desired s.offer = sent desired _ :=
          congrArg (fun p => Shown.mk p desired.price desired.inventory desired.active)
            resolves.frame.productExtId.symm
        obtain ⟨same', done⟩ := records.mirrors atomic (sited.mono id fun _ sent strict =>
          (sent strict).2.trans ofRow)
        exact ⟨(touches.trans same.touches).trans same'.touches, done⟩
      · rcases live with rfl | other
        · exact absurd rfl unresolved
        · exact absurd failed other
  | nameless unnamed jobless answer records =>
      obtain ⟨touches, sited, -⟩ := atomic.sited_created unknown idle answer mirrored
      rw [jobless] at sited
      obtain ⟨same, done⟩ :=
        records.mirrors atomic (sited.mono id fun _ sent strict => (sent strict).2)
      exact ⟨touches.trans same.touches, done⟩

/-! ### One offer -/

/-- A write keeps its row mirrored, and touches no other product. -/
theorem Pushes.mirrors (atomic : Atomic exact sync store) {desired : DesiredOffer} {now : Time}
    (changed : Changed desired s.offer) {r : Except Exn StatKey}
    (pushes : sync.Pushes desired now changed.price changed.stock changed.active s r t)
    (mirrored : Mirrored exact store s.world s.offer) :
    store.Touches (OwnProduct s.offer) s.world t.world ∧
      Mirrored exact store t.world t.offer := by
  have stock : changed.stock = false → s.offer.pushedInventory = some desired.inventory := by
    rw [changed.stock_eq, decide_eq_false_iff_not, not_not]
    exact id
  have activity : changed.active = false → s.offer.pushedActive = some desired.active := by
    rw [changed.active_eq, decide_eq_false_iff_not, not_not]
    exact id
  cases pushes with
  | resolveRaised _ _ resolves | awaiting _ _ resolves =>
      obtain ⟨same, kept⟩ := resolves.mirrors atomic mirrored
      exact ⟨same.touches, kept⟩
  | resolved _ _ resolves updates =>
      obtain ⟨same, ⟨memory, sited⟩ | ⟨unresolved, -⟩⟩ := resolves.sited atomic mirrored
        fun kept x strict => (kept strict).remembers x
      · obtain ⟨touches, done⟩ := updates.mirrors atomic (fun no => memory.inventory.trans (stock no))
          (fun no => memory.active.trans (activity no)) resolves.isSome (memory.mirrored sited)
        refine ⟨same.touches.trans (touches.mono fun p own => ?_), done⟩
        exact own.trans memory.product
      · exact absurd rfl unresolved
  | creates unknown idle creates => exact creates.mirrors atomic unknown idle mirrored
  | updates known updates => exact updates.mirrors atomic stock activity known mirrored

/-- One call of the sync keeps row and store equal, and touches the row's product only. -/
theorem SyncsOne.mirrors (atomic : Atomic exact sync store) {desired : DesiredOffer} {dryRun : Bool}
    {now : Time} {r : Except Exn StatKey} (syncs : sync.SyncsOne desired dryRun now s r t)
    (mirrored : Mirrored exact store s.world s.offer) :
    store.Touches (OwnProduct s.offer) s.world t.world ∧
      Mirrored exact store t.world t.offer := by
  cases syncs with
  | unchanged | dry => exact ⟨.refl _, mirrored⟩
  | pushed _ changed pushes => exact pushes.mirrors atomic changed mirrored
  | raised _ changed _ pushes => exact pushes.mirrors atomic changed mirrored
  | @failed a m q u _ changed pushes flushed =>
      obtain ⟨touches, kept⟩ := pushes.mirrors atomic changed mirrored
      obtain ⟨same, offer⟩ := atomic.flushes flushed
      obtain ⟨-, -, product, id, job, price, inventory, active⟩ := failedCall_keeps a m.offer
      have after : Mirrored exact store m.world (failedCall a m.offer) := by
        have memory : SameMemory m.offer (failedCall a m.offer) := ⟨product, price, inventory, active⟩
        refine memory.mirrored ?_
        cases kept with
        | blank unknown idle kept => exact .blank (id.trans unknown) (by rw [job, idle]) kept
        | doomed unknown pending fate =>
            exact .doomed (id.trans unknown) (by rw [job, pending]) fate
        | shown there own named pending kept =>
            exact .shown there (own.trans product.symm) (by rw [id]; exact named)
              (by rw [id, job]; exact pending) kept
      rw [offer]
      exact ⟨touches.trans same.touches, after.of_same same⟩

/-- Reconciling a job keeps its row mirrored. -/
theorem ReconcilesOne.mirrors (atomic : Atomic exact sync store) {jobId : String}
    {r : Except Exn Reconciled} (reconciles : sync.ReconcilesOne jobId s r t)
    (own : s.offer.pendingJobId = some jobId) (mirrored : Mirrored exact store s.world s.offer) :
    store.Same s.world t.world ∧ Mirrored exact store t.world t.offer := by
  have pending : ∀ {fate : Fate}, store.fate s.world jobId = some fate →
      truthyId s.offer.pendingJobId = some jobId := by
    intro fate known
    refine truthyId_eq_some_iff.mpr ⟨own, ?_⟩
    rintro rfl
    rw [atomic.nameless] at known
    cases known
  cases reconciles with
  | raised _ answer | unknown answer | pending answer =>
      have same := (atomic.job answer).1
      exact ⟨same, mirrored.of_same same⟩
  | @completed job w answer finished succeeded =>
      obtain ⟨same, fates⟩ := atomic.job answer
      obtain ⟨id, fate, names⟩ := (fates job rfl finished).1 succeeded
      refine ⟨same, Sited.of_same same ?_⟩
      cases mirrored with
      | blank _ idle _ => rw [pending fate] at idle; cases idle
      | doomed _ own' fate' =>
          cases own'.symm.trans (pending fate)
          cases fate.symm.trans fate'
      | @shown id' x there product named known kept =>
          have same_ : id = id' := by
            rcases known jobId (pending fate) with lands | ⟨fails, -⟩
            · cases fate.symm.trans lands
              rfl
            · cases fate.symm.trans fails
          subst same_
          refine .shown there product (fun i taken => ?_) (fun _ none_ => by cases none_)
            fun strict => ⟨(kept strict).1, (kept strict).2, (kept strict).3⟩
          -- an id the job names is the offer's, like the one the row had
          change (if _ then job.resourceId else s.offer.offerExtId) = some i at taken
          split at taken
          · rename_i naming
            rw [Bool.and_eq_true] at naming
            obtain ⟨name, named_⟩ := Option.isSome_iff_exists.mp naming.1
            cases taken.symm.trans (truthyId_eq_some_iff.mp named_).1
            exact names _ named_
          · exact named i taken
  | @failed job w answer finished failed =>
      obtain ⟨same, fates⟩ := atomic.job answer
      have fate := (fates job rfl finished).2 failed
      refine ⟨same, Sited.of_same same ?_⟩
      cases mirrored with
      | blank _ idle _ => rw [pending fate] at idle; cases idle
      | doomed unknown _ _ => exact .blank unknown rfl fun _ => ⟨rfl, rfl, rfl⟩
      | shown there product named _ _ =>
          exact .shown there product named (fun _ none_ => by cases none_)
            fun _ => Forgotten.remembers ⟨rfl, rfl, rfl⟩ _

end Row

end OfferSync

end FazerBridge
