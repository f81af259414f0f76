import FazerBridge.OfferSync.SentPrices

/-!
# What a sync of one offer leaves for the next

A rate limit is to leave the row as it was.  It does so when the limited call is the
first thing that happens to the row, and not when an id was collected or a job was
forgotten on the way (`rateLimited_keeps_iff`).

What is remembered is what was sent, and a deferred price is not remembered.  After an
adoption it may have been remembered before: the row then counts as settled though the
adopted offer has another price (`remembered_iff`).
-/

namespace FazerBridge

namespace OfferSync

open Prog

variable {W : Type} {sync : OfferSync W} {s t : RowState W} {phase : Phase}
  {desired : DesiredOffer} {now : Time} {priceChanged stockChanged activeChanged : Bool}

theorem Flushes.offer {q : Except Exn Unit} (flushed : sync.Flushes s q t) : t.offer = s.offer := by
  obtain ⟨rfl, -⟩ := flushed
  rfl

/-- The error of a flush is none of the adapter's. -/
theorem Flushes.ne_api {q : Except Exn Unit} {a : ApiError} (flushed : sync.Flushes s q t) :
    q ≠ .error (.api a) := by
  intro raised
  rcases flushed.2 with done | ⟨e, refused⟩
  · cases raised.symm.trans done
  · cases raised.symm.trans refused

theorem Flushes.map_ne_api {α : Type} {q : Except Exn Unit} {a : ApiError} {b : α}
    (flushed : sync.Flushes s q t) : q.map (fun _ => b) ≠ .error (.api a) := by
  intro raised
  cases q with
  | ok _ => cases raised
  | error e =>
      cases raised
      exact flushed.ne_api rfl

theorem truthyId_idem (id : Option String) : truthyId (truthyId id) = truthyId id := by
  cases known : truthyId id with
  | none => rfl
  | some name => exact truthyId_eq_some_iff.mpr ⟨rfl, (truthyId_eq_some_iff.mp known).2⟩

/-! ## Rows that an error leaves -/

/-- The answer of the store to a create. -/
def createAnswer (sync : OfferSync W) (desired : DesiredOffer) (s : RowState W) :
    Except Exn JobResult × W :=
  sync.adapter.createOffer s.offer.productExtId desired.price desired.inventory desired.active
    s.world

/-- The offers the store lists on the product. -/
def listing (sync : OfferSync W) (s : RowState W) (world : W) :
    Except Exn (List StoreOfferView) × W :=
  sync.adapter.offersForProduct s.offer.productExtId world

/-- Without an answer that lists an offer the row stays as it is. -/
theorem FindsRemote.row_of_unfound {r : Except Exn Bool} (finds : sync.FindsRemote phase s r t)
    (unfound : r = .ok false ∨ ∃ a, r = .error (.api a)) :
    t.offer = s.offer ∧ ∀ views, (sync.listing s s.world).1 = .ok views → views = [] := by
  cases finds with
  | raised answer =>
      refine ⟨rfl, fun views listed => ?_⟩
      rw [listing, answer] at listed
      cases listed
  | nothing answer =>
      refine ⟨rfl, fun views listed => ?_⟩
      rw [listing, answer] at listed
      cases listed
      rfl
  | @found _ _ _ q _ _ flushed =>
      rcases unfound with found | ⟨a, raised⟩
      · cases q <;> cases found
      · exact absurd raised flushed.map_ne_api

theorem FindsRemote.row_of_found (finds : sync.FindsRemote phase s (.ok true) t) :
    ∃ view rest, (sync.listing s s.world).1 = .ok (view :: rest) ∧
      t.offer = { s.offer with offerExtId := some view.offerExtId } := by
  generalize result : (Except.ok true : Except Exn Bool) = r at finds
  cases finds with
  | raised => cases result
  | nothing => cases result
  | found answer flushed => exact ⟨_, _, congrArg Prod.fst answer, flushed.offer⟩

/-- An `ApiError` while the offer's id is resolved comes from the listing, after the job
was forgotten. -/
theorem Resolves.row_of_raised {a : ApiError}
    (resolves : sync.Resolves phase s (.error (.api a)) t) :
    t.offer = if (truthyId s.offer.pendingJobId).isSome then { s.offer with pendingJobId := none }
      else s.offer := by
  generalize result : (Except.error (.api a) : Except Exn Bool) = r at resolves
  cases resolves with
  | noJob pending finds =>
      rw [pending]
      exact (finds.row_of_unfound (.inr ⟨a, result.symm⟩)).1
  | lookupFailed => cases result
  | lookupRaised _ other =>
      cases result
      exact absurd rfl (other a)
  | unfinished => cases result
  | failed _ _ _ _ flushed => exact absurd result.symm flushed.map_ne_api
  | named _ _ _ _ _ flushed => exact absurd result.symm flushed.map_ne_api
  | unnamed pending _ _ _ _ finds =>
      rw [pending]
      exact (finds.row_of_unfound (.inr ⟨a, result.symm⟩)).1

/-- A resolved row has an id, and is else as it was but for the job. -/
theorem Resolves.row_of_resolved (resolves : sync.Resolves phase s (.ok true) t) :
    ∃ id pending, t.offer = { s.offer with pendingJobId := pending, offerExtId := some id } := by
  generalize result : (Except.ok true : Except Exn Bool) = r at resolves
  cases resolves with
  | noJob pending finds =>
      rw [← result] at finds
      obtain ⟨view, -, -, row⟩ := finds.row_of_found
      exact ⟨view.offerExtId, s.offer.pendingJobId, row⟩
  | lookupFailed => cases result
  | lookupRaised => cases result
  | unfinished => cases result
  | @failed _ _ _ q =>
      cases q <;> cases result
  | named _ _ _ _ _ flushed => exact ⟨_, none, flushed.offer⟩
  | unnamed _ _ _ _ _ finds =>
      rw [← result] at finds
      obtain ⟨view, -, -, row⟩ := finds.row_of_found
      exact ⟨view.offerExtId, none, row⟩

/-- An `ApiError` of an update leaves the row alone. -/
theorem Updates.row_of_raised {a : ApiError}
    (updates : sync.Updates desired now priceChanged stockChanged activeChanged s
      (.error (.api a)) t) : t.offer = s.offer := by
  generalize result : (Except.error (.api a) : Except Exn StatKey) = r at updates
  cases updates with
  | nothing => cases result
  | raised => rfl
  | unwritten _ _ _ _ _ _ flushed =>
      cases result
      exact absurd rfl flushed.ne_api
  | unpriced => cases result
  | priced _ _ _ _ _ _ recorded => exact absurd result.symm recorded.map_ne_api

/-- The create itself fails, with another status than 409; or the row has no job at all,
and there is no offer to adopt after a 409. -/
def CreateLimitedFirst (sync : OfferSync W) (desired : DesiredOffer) (s : RowState W) : Prop :=
  (∃ a, (sync.createAnswer desired s).1 = .error (.api a) ∧ a.statusCode ≠ some 409) ∨
    s.offer.pendingJobId = none ∧
      ∀ a, (sync.createAnswer desired s).1 = .error (.api a) → a.statusCode = some 409 →
        ∀ views, (sync.listing s (sync.createAnswer desired s).2).1 = .ok views → views = []

/-- Nothing has changed the row when the limited call is made: its id is known, or no job
is in flight and the create is limited first. -/
def LimitedFirst (sync : OfferSync W) (desired : DesiredOffer) (s : RowState W) : Prop :=
  s.offer.offerExtId.isSome ∨
    truthyId s.offer.pendingJobId = none ∧ sync.CreateLimitedFirst desired s

/-- Adopting an offer asks the store which ones it has; the row has no job then. -/
theorem Resolves.listed {r : Except Exn Bool} (resolves : sync.Resolves phase s r t)
    (jobless : s.offer.pendingJobId = none) : sync.FindsRemote phase s r t := by
  have none_ : truthyId s.offer.pendingJobId = none := by rw [jobless]; rfl
  cases resolves with
  | noJob _ finds => exact finds
  | lookupFailed pending => cases none_.symm.trans pending
  | lookupRaised pending => cases none_.symm.trans pending
  | unfinished pending => cases none_.symm.trans pending
  | failed pending => cases none_.symm.trans pending
  | named pending => cases none_.symm.trans pending
  | unnamed pending => cases none_.symm.trans pending

/-- The rows agree in every field but the last error. -/
def SameButError (a b : StoreOffer) : Prop := { a with lastError := b.lastError } = b

theorem SameButError.offerExtId {a b : StoreOffer} (same : SameButError a b) :
    a.offerExtId = b.offerExtId := by
  have fields : { a with lastError := b.lastError } = b := same
  have projected := congrArg StoreOffer.offerExtId fields
  exact projected

theorem SameButError.pendingJobId {a b : StoreOffer} (same : SameButError a b) :
    a.pendingJobId = b.pendingJobId := by
  have fields : { a with lastError := b.lastError } = b := same
  have projected := congrArg StoreOffer.pendingJobId fields
  exact projected

/-- A row whose job was forgotten is as it was if it had none. -/
theorem sameButError_forgotten {a b : StoreOffer} (forgot : a = { b with pendingJobId := none }) :
    SameButError a b ↔ b.pendingJobId = none := by
  subst forgot
  constructor
  · intro same
    exact same.pendingJobId.symm
  · intro jobless
    unfold SameButError
    rw [← jobless]

/-- After a create that is answered with a 409 and no offer to adopt, only the job
decides. -/
theorem createLimitedFirst_conflict {b : ApiError} {w : W} (conflict : b.statusCode = some 409)
    (answer : sync.createAnswer desired s = (.error (.api b), w))
    (nothing : ∀ views, (sync.listing s w).1 = .ok views → views = []) :
    sync.CreateLimitedFirst desired s ↔ s.offer.pendingJobId = none := by
  unfold CreateLimitedFirst
  rw [answer]
  constructor
  · intro either
    rcases either with ⟨a, same, other⟩ | ⟨jobless, -⟩
    · cases same
      exact absurd conflict other
    · exact jobless
  · intro jobless
    exact .inr ⟨jobless, fun _ _ _ => nothing⟩

theorem createLimitedFirst_accepted {job : JobResult} {w : W}
    (answer : sync.createAnswer desired s = (.ok job, w)) :
    sync.CreateLimitedFirst desired s ↔ s.offer.pendingJobId = none := by
  unfold CreateLimitedFirst
  rw [answer]
  constructor
  · intro either
    rcases either with ⟨a, same, -⟩ | ⟨jobless, -⟩
    · cases same
    · exact jobless
  · intro jobless
    exact .inr ⟨jobless, fun _ same => by cases same⟩

theorem RecordsCreate.ne_api {calledAt : Time} {r : Except Exn StatKey} {a : ApiError}
    (records : sync.RecordsCreate desired now calledAt s r t) : r ≠ .error (.api a) := by
  cases records with
  | unwritten flushed =>
      intro raised
      cases raised
      exact flushed.ne_api rfl
  | recorded _ recorded => exact recorded.map_ne_api

/-- A create that is limited on the way leaves the row as it was exactly if nothing
happened to it before. -/
theorem Creates.keeps_iff {a : ApiError} (unknown : s.offer.offerExtId = none)
    (creates : sync.Creates desired now s (.error (.api a)) t) :
    SameButError t.offer s.offer ↔ sync.CreateLimitedFirst desired s := by
  generalize result : (Except.error (.api a) : Except Exn StatKey) = r at creates
  cases creates with
  | @raised e w other answer =>
      cases result
      exact iff_of_true rfl (.inl ⟨a, congrArg Prod.fst answer, other a rfl⟩)
  | @adoptRaised b w e t conflict answer resolves =>
      cases result
      obtain ⟨forgot, nothing⟩ := (resolves.listed rfl).row_of_unfound (.inr ⟨a, rfl⟩)
      exact (sameButError_forgotten forgot).trans
        (createLimitedFirst_conflict conflict answer nothing).symm
  | @unadopted b w t conflict answer resolves =>
      obtain ⟨forgot, nothing⟩ := (resolves.listed rfl).row_of_unfound (.inl rfl)
      exact (sameButError_forgotten forgot).trans
        (createLimitedFirst_conflict conflict answer nothing).symm
  | @adopted b w m r u conflict answer resolves updates =>
      rw [← result] at updates
      obtain ⟨view, rest, listed, row⟩ := (resolves.listed rfl).row_of_found
      rw [← updates.row_of_raised] at row
      refine iff_of_false (fun same => ?_) ?_
      · rw [row] at same
        cases same.offerExtId.trans unknown
      · intro either
        rcases either with ⟨b', same, other⟩ | ⟨-, nothing⟩
        · cases (congrArg Prod.fst answer).symm.trans same
          exact other conflict
        · have answered : sync.createAnswer desired s = (.error (.api b), w) := answer
          rw [answered] at nothing
          cases nothing b rfl conflict _ listed
  | named _ _ records => exact absurd result.symm records.ne_api
  | @resolveRaised job w e t unnamed pending answer resolves =>
      cases result
      have forgot : t.offer = { s.offer with pendingJobId := none } := by
        refine resolves.row_of_raised.trans (if_pos ?_)
        exact (congrArg Option.isSome (truthyId_idem _)).trans pending
      exact (sameButError_forgotten forgot).trans (createLimitedFirst_accepted answer).symm
  | refused => cases result
  | settled _ _ _ _ _ records => exact absurd result.symm records.ne_api
  | nameless _ _ _ records => exact absurd result.symm records.ne_api

theorem Pushes.keeps_iff {a : ApiError}
    (pushes : sync.Pushes desired now priceChanged stockChanged activeChanged s
      (.error (.api a)) t) :
    SameButError t.offer s.offer ↔ sync.LimitedFirst desired s := by
  generalize result : (Except.error (.api a) : Except Exn StatKey) = r at pushes
  cases pushes with
  | resolveRaised unknown inFlight resolves =>
      cases result
      have forgot : t.offer = { s.offer with pendingJobId := none } :=
        resolves.row_of_raised.trans (if_pos inFlight)
      refine iff_of_false (fun same => ?_) ?_
      · rw [(sameButError_forgotten forgot).mp same] at inFlight
        cases inFlight
      · intro either
        rcases either with known | ⟨idle, -⟩
        · rw [unknown] at known
          cases known
        · rw [idle] at inFlight
          cases inFlight
  | awaiting => cases result
  | resolved unknown inFlight resolves updates =>
      rw [← result] at updates
      obtain ⟨id, pending, row⟩ := resolves.row_of_resolved
      rw [← updates.row_of_raised] at row
      refine iff_of_false (fun same => ?_) ?_
      · rw [row] at same
        cases same.offerExtId.trans unknown
      · intro either
        rcases either with known | ⟨idle, -⟩
        · rw [unknown] at known
          cases known
        · rw [idle] at inFlight
          cases inFlight
  | creates unknown idle creates =>
      rw [← result] at creates
      rw [creates.keeps_iff unknown, LimitedFirst, unknown]
      simp [idle]
  | updates known updates =>
      rw [← result] at updates
      refine iff_of_true ?_ (.inl known)
      rw [updates.row_of_raised]
      rfl

/-- What a push answers is never that it was rate limited. -/
theorem Pushes.ne_rateLimited {k : StatKey}
    (pushes : sync.Pushes desired now priceChanged stockChanged activeChanged s (.ok k) t) :
    k ≠ .deferredRateLimited := by
  have updating : ∀ {u v : RowState W} {p q r : Bool} {k : StatKey},
      sync.Updates desired now p q r u (.ok k) v → k ≠ .deferredRateLimited := by
    intro u v p q r k updates
    generalize result : (Except.ok k : Except Exn StatKey) = x at updates
    rintro rfl
    cases updates with
    | nothing => cases result
    | raised => cases result
    | unwritten => cases result
    | unpriced => cases p <;> cases result
    | @priced _ _ _ _ _ _ q => cases q <;> cases result
  have recording : ∀ {u v : RowState W} {calledAt : Time} {k : StatKey},
      sync.RecordsCreate desired now calledAt u (.ok k) v → k ≠ .deferredRateLimited := by
    intro u v calledAt k records
    generalize result : (Except.ok k : Except Exn StatKey) = x at records
    rintro rfl
    cases records with
    | unwritten => cases result
    | @recorded _ q => cases q <;> cases result
  cases pushes with
  | awaiting => nofun
  | resolved _ _ _ updates => exact updating updates
  | updates _ updates => exact updating updates
  | creates _ _ creates =>
      cases creates with
      | adopted _ _ _ updates => exact updating updates
      | named _ _ records => exact recording records
      | refused => nofun
      | settled _ _ _ _ _ records => exact recording records
      | nameless _ _ _ records => exact recording records

/-- A rate limited row is as it was, the last error apart, exactly if nothing changed it
before the limited call. -/
theorem rateLimited_keeps_iff {dryRun : Bool}
    (run : (sync.syncOne desired dryRun now).Runs s (.ok .deferredRateLimited) t) :
    SameButError t.offer s.offer ↔ sync.LimitedFirst desired s := by
  have syncs := syncOne_spec run
  generalize result : (Except.ok .deferredRateLimited : Except Exn StatKey) = r at syncs
  cases syncs with
  | unchanged => cases result
  | dry => split at result <;> cases result
  | pushed _ _ pushes =>
      cases result
      exact absurd rfl pushes.ne_rateLimited
  | raised => cases result
  | @failed a m q _ _ _ pushes flushed =>
      cases q with
      | error e => cases result
      | ok _ =>
          have limited : a.kind = .rateLimitedError := by
            by_contra other
            simp only [Except.map, if_neg other] at result
            cases result
          rw [← pushes.keeps_iff, flushed.offer]
          simp only [RowState.set_offer, failedCall, if_pos limited, SameButError]

/-! ## What is remembered -/

/-- An entry of a call after which the store has the price it had before. -/
def KeepsPrice (entry : Entry) : Prop := entry.call.setsPrice = false

theorem adds_keepsPrice {call : Call} (kept : call.setsPrice = false) :
    Adds KeepsPrice s.trace
      (⟨phase, s.offer, s.target, sync.now s.world, call⟩ :: s.trace) := .one kept _

theorem FindsRemote.keepsPrice {r : Except Exn Bool} (finds : sync.FindsRemote phase s r t) :
    Adds KeepsPrice s.trace t.trace := by
  cases finds with
  | raised | nothing => exact adds_keepsPrice rfl
  | found _ flushed =>
      rw [flushed.trace]
      exact adds_keepsPrice rfl

theorem Resolves.keepsPrice {r : Except Exn Bool} (resolves : sync.Resolves phase s r t) :
    Adds KeepsPrice s.trace t.trace := by
  cases resolves with
  | noJob _ finds => exact finds.keepsPrice
  | lookupFailed | lookupRaised | unfinished => exact adds_keepsPrice rfl
  | failed _ _ _ _ flushed | named _ _ _ _ _ flushed =>
      rw [flushed.trace]
      exact adds_keepsPrice rfl
  | unnamed _ _ _ _ _ finds => exact (adds_keepsPrice rfl).trans finds.keepsPrice

/-- The row records what is desired, and the next sync has nothing to do. -/
structure Settled (sync : OfferSync W) (desired : DesiredOffer) (t : RowState W) : Prop where
  price : t.offer.pushedPrice = some desired.price
  inventory : t.offer.pushedInventory = some desired.inventory
  active : t.offer.pushedActive = some desired.active
  again : ∀ now r u, (sync.syncOne desired false now).Runs t r u →
    r = .ok .skippedUnchanged ∧ u = t

/-- Everything but the price is recorded, no price was sent, and the next sync takes the
price as changed. -/
structure PriceDeferred (desired : DesiredOffer) (s t : RowState W) : Prop where
  inventory : t.offer.pushedInventory = some desired.inventory
  active : t.offer.pushedActive = some desired.active
  unsent : Adds KeepsPrice s.trace t.trace
  changed : t.offer.pushedPrice ≠ some desired.price

/-- A row that records what is desired is skipped. -/
theorem settled_of_pushed (price : t.offer.pushedPrice = some desired.price)
    (inventory : t.offer.pushedInventory = some desired.inventory)
    (active : t.offer.pushedActive = some desired.active) : sync.Settled desired t := by
  refine ⟨price, inventory, active, fun now r u run => ?_⟩
  unfold syncOne at run
  rw [runs_get_bind] at run
  rcases runs_ite.mp run with ⟨-, rest⟩ | ⟨changed, -⟩
  · obtain ⟨rfl, rfl⟩ := runs_pure.mp rest
    exact ⟨rfl, rfl⟩
  · simp [price, inventory, active] at changed

/-- What an update that is answered leaves of what it was told has changed. -/
theorem Updates.remembers {k : StatKey}
    (price : priceChanged = false → s.offer.pushedPrice = some desired.price)
    (inventory : stockChanged = false → s.offer.pushedInventory = some desired.inventory)
    (active : activeChanged = false → s.offer.pushedActive = some desired.active)
    (updates : sync.Updates desired now priceChanged stockChanged activeChanged s (.ok k) t) :
    t.offer.pushedInventory = some desired.inventory ∧
      t.offer.pushedActive = some desired.active ∧
      (k = .updated ∧ t.offer.pushedPrice = some desired.price ∨
        k = .deferredPriceBudget ∧ t.offer.pushedPrice = s.offer.pushedPrice ∧
          Adds KeepsPrice s.trace t.trace) := by
  generalize result : (Except.ok k : Except Exn StatKey) = r at updates
  cases updates with
  | nothing idle =>
      cases result
      simp only [Bool.or_eq_false_iff] at idle
      exact ⟨inventory idle.1.2, active idle.2, .inr ⟨rfl, rfl, .refl _⟩⟩
  | raised => cases result
  | unwritten => cases result
  | unpriced _ unsent _ _ _ _ flushed =>
      rw [flushed.offer, flushed.trace]
      refine ⟨rfl, rfl, ?_⟩
      cases priceChanged with
      | true =>
          cases result
          exact .inr ⟨rfl, rfl, adds_keepsPrice rfl⟩
      | false =>
          cases result
          exact .inl ⟨rfl, price rfl⟩
  | @priced _ _ _ _ _ _ q _ _ _ _ _ _ flushed recorded =>
      cases q with
      | error e => cases result
      | ok _ =>
          cases result
          rw [recorded.offer, RowState.logged_offer, flushed.offer]
          exact ⟨rfl, rfl, .inl ⟨rfl, rfl⟩⟩

/-- A recorded create is remembered whole. -/
theorem RecordsCreate.remembers {calledAt : Time} {k : StatKey}
    (records : sync.RecordsCreate desired now calledAt s (.ok k) t) :
    k = .created ∧ t.offer.pushedPrice = some desired.price ∧
      t.offer.pushedInventory = some desired.inventory ∧
      t.offer.pushedActive = some desired.active := by
  generalize result : (Except.ok k : Except Exn StatKey) = r at records
  cases records with
  | unwritten => cases result
  | @recorded _ q _ flushed recorded =>
      cases q with
      | error e => cases result
      | ok _ =>
          cases result
          rw [recorded.offer, RowState.logged_offer, flushed.offer]
          exact ⟨rfl, rfl, rfl, rfl⟩

/-- How the row is remembered after a push that is answered. -/
inductive Remembered (desired : DesiredOffer) (s t : RowState W) : StatKey → Prop
  | pushed {k} (answered : k = .created ∨ k = .updated)
      (price : t.offer.pushedPrice = some desired.price)
      (inventory : t.offer.pushedInventory = some desired.inventory)
      (active : t.offer.pushedActive = some desired.active) : Remembered desired s t k
  | deferred (inventory : t.offer.pushedInventory = some desired.inventory)
      (active : t.offer.pushedActive = some desired.active)
      (price : t.offer.pushedPrice = s.offer.pushedPrice)
      (unsent : Adds KeepsPrice s.trace t.trace) : Remembered desired s t .deferredPriceBudget
  | unpushed {k} (answered : k = .awaitingJob ∨ k = .errors) : Remembered desired s t k

theorem Updates.remembered {m : RowState W} {k : StatKey}
    (price : priceChanged = false → m.offer.pushedPrice = some desired.price)
    (inventory : stockChanged = false → m.offer.pushedInventory = some desired.inventory)
    (active : activeChanged = false → m.offer.pushedActive = some desired.active)
    (same : m.offer.pushedPrice = s.offer.pushedPrice) (before : Adds KeepsPrice s.trace m.trace)
    (updates : sync.Updates desired now priceChanged stockChanged activeChanged m (.ok k) t) :
    Remembered desired s t k := by
  obtain ⟨stock, live, ⟨updated, sent⟩ | ⟨rfl, kept, unsent⟩⟩ :=
    updates.remembers price inventory active
  · exact .pushed (.inr updated) sent stock live
  · exact .deferred stock live (kept.trans same) (before.trans unsent)

theorem Pushes.remembered {k : StatKey} (changed : Changed desired s.offer)
    (pushes : sync.Pushes desired now changed.price changed.stock changed.active s (.ok k) t) :
    Remembered desired s t k := by
  have price : changed.price = false → s.offer.pushedPrice = some desired.price := by
    rw [changed.price_eq]
    exact fun same => not_not.mp (of_decide_eq_false same)
  have inventory : changed.stock = false →
      s.offer.pushedInventory = some desired.inventory := by
    rw [changed.stock_eq]
    exact fun same => not_not.mp (of_decide_eq_false same)
  have active : changed.active = false → s.offer.pushedActive = some desired.active := by
    rw [changed.active_eq]
    exact fun same => not_not.mp (of_decide_eq_false same)
  cases pushes with
  | awaiting => exact .unpushed (.inl rfl)
  | resolved _ _ resolves updates =>
      obtain ⟨id, pending, row⟩ := resolves.row_of_resolved
      refine updates.remembered ?_ ?_ ?_ ?_ resolves.keepsPrice <;> rw [row] <;> assumption
  | updates _ updates => exact updates.remembered price inventory active rfl (.refl _)
  | creates _ _ creates =>
      cases creates with
      | adopted _ _ resolves updates =>
          obtain ⟨id, pending, row⟩ := resolves.row_of_resolved
          refine updates.remembered ?_ ?_ ?_ ?_ ?_
          · simp
          · simp
          · simp
          · rw [row]
            rfl
          · exact (adds_keepsPrice rfl).trans resolves.keepsPrice
      | named _ _ records =>
          obtain ⟨created, sent, stock, live⟩ := records.remembers
          exact .pushed (.inl created) sent stock live
      | refused => exact .unpushed (.inr rfl)
      | settled _ _ _ _ _ records =>
          obtain ⟨created, sent, stock, live⟩ := records.remembers
          exact .pushed (.inl created) sent stock live
      | nameless _ _ _ records =>
          obtain ⟨created, sent, stock, live⟩ := records.remembers
          exact .pushed (.inl created) sent stock live

/-- What a sync that answered `k` remembers, and what the next one makes of it. -/
structure RemembersAsSaid (sync : OfferSync W) (desired : DesiredOffer) (k : StatKey)
    (s t : RowState W) : Prop where
  settled : k = .created ∨ k = .updated ∨ k = .skippedUnchanged → sync.Settled desired t
  deferred : k = .deferredPriceBudget → PriceDeferred desired s t

/-- A sync remembers what was sent, and a deferred price is sent later, exactly if the
price it defers was not recorded before. -/
theorem remembers_iff {k : StatKey} (run : (sync.syncOne desired false now).Runs s (.ok k) t) :
    sync.RemembersAsSaid desired k s t ↔
      (k = .deferredPriceBudget → s.offer.pushedPrice ≠ some desired.price) := by
  have skipped : ∀ {k : StatKey}, k = .awaitingJob ∨ k = .errors ∨ k = .deferredRateLimited →
      (sync.RemembersAsSaid desired k s t ↔
        (k = .deferredPriceBudget → s.offer.pushedPrice ≠ some desired.price)) := by
    rintro k (rfl | rfl | rfl) <;> exact iff_of_true ⟨by simp, by simp⟩ (by simp)
  have syncs := syncOne_spec run
  generalize result : (Except.ok k : Except Exn StatKey) = r at syncs
  cases syncs with
  | unchanged price stock active =>
      cases result
      exact iff_of_true ⟨fun _ => settled_of_pushed price stock active, nofun⟩ nofun
  | dry dry => cases dry
  | raised => cases result
  | pushed _ changed pushes =>
      cases result
      cases pushes.remembered with
      | pushed answered price inventory active =>
          refine iff_of_true ⟨fun _ => settled_of_pushed price inventory active, ?_⟩ ?_ <;>
            rcases answered with rfl | rfl <;> nofun
      | deferred inventory active price unsent =>
          constructor
          · intro said _
            rw [← price]
            exact (said.deferred rfl).changed
          · intro differs
            refine ⟨by simp, fun _ => ⟨inventory, active, unsent, ?_⟩⟩
            rw [price]
            exact differs rfl
      | unpushed answered => exact skipped (answered.imp_right .inl)
  | @failed a _ q =>
      cases q with
      | error e => cases result
      | ok _ =>
          refine skipped (.inr ?_)
          simp only [Except.map] at result
          split at result <;> cases result
          · exact .inr rfl
          · exact .inl rfl

end OfferSync

/-! ## A store that answers some calls with an error -/

namespace EchoStore

def tooMany : ApiError := ⟨.rateLimitedError, "too many requests", "g2a", some 429⟩

/-- The store with its creates limited. -/
def limitedCreates : Adapter Time :=
  { adapter with createOffer := fun _ _ _ _ w => (.error (.api tooMany), w) }

/-- The store with an offer on every product, which it does not know of before. -/
def populated : Adapter Time :=
  { adapter with
    createOffer := fun _ _ _ _ w =>
      (.error (.api ⟨.apiError, "offer exists", "g2a", some 409⟩), w)
    offersForProduct := fun productExtId w =>
      (.ok [⟨productExtId, productExtId, none, 0, "active"⟩], w) }

/-- The same with its updates limited. -/
def limitedUpdates : Adapter Time :=
  { populated with updateOffer := fun _ _ _ _ w => (.error (.api tooMany), w) }

/-- The first product, never offered before. -/
def firstRow : OfferSync.RowState Time where
  offer := (offers settings adapter).newOffer (mapping 1) (storeProduct 1 none)
  others := []
  target := "1"
  log := []
  world := 0
  trace := []

def wanted : DesiredOffer := ⟨10, 5, true⟩

def synced (adapter : Adapter Time) (row : OfferSync.RowState Time) : OfferSync.RowState Time :=
  (((offers settings adapter).syncOne wanted false 0).exec row).2

theorem runs_synced (adapter : Adapter Time) (row : OfferSync.RowState Time) {k : StatKey}
    (answer : (((offers settings adapter).syncOne wanted false 0).exec row).1 = .ok k) :
    ((offers settings adapter).syncOne wanted false 0).Runs row (.ok k) (synced adapter row) :=
  Prod.ext answer rfl

/-- A limited create leaves the row alone. -/
theorem limitedCreate_keeps :
    OfferSync.SameButError (synced limitedCreates firstRow).offer firstRow.offer := by
  refine (OfferSync.rateLimited_keeps_iff
    (runs_synced limitedCreates firstRow (by decide +kernel))).mpr
    (.inr ⟨rfl, .inl ⟨tooMany, rfl, ?_⟩⟩)
  decide

/-- An adopted offer whose update is limited keeps its new id. -/
theorem limitedAdoption_changes :
    ((offers settings limitedUpdates).syncOne wanted false 0).Runs firstRow
      (.ok .deferredRateLimited) (synced limitedUpdates firstRow) ∧
    firstRow.offer.offerExtId = none ∧
    (synced limitedUpdates firstRow).offer.offerExtId = some "1" :=
  ⟨runs_synced limitedUpdates firstRow (by decide +kernel), rfl, by decide +kernel⟩

/-- The price changes of the product in this hour. -/
def spent : List PriceChangeLog :=
  List.replicate 4 ⟨"g2a", "1", some "1", none, 10, 0⟩

/-- A row of a product whose budget is spent, with the price last sent for it. -/
def spentRow (pushedPrice : Option ℚ) (offerExtId : Option String) : OfferSync.RowState Time :=
  { firstRow with
    offer := { firstRow.offer with pushedPrice := pushedPrice, offerExtId := offerExtId }
    log := spent }

/-- The deferred price is taken as changed by the next sync. -/
theorem deferred_remembered :
    (offers settings adapter).RemembersAsSaid wanted .deferredPriceBudget
      (spentRow (some 12) (some "1")) (synced adapter (spentRow (some 12) (some "1"))) :=
  (OfferSync.remembers_iff
    (runs_synced adapter (spentRow (some 12) (some "1")) (by decide +kernel))).mpr
    fun _ => by decide +kernel

/-- An offer adopted on a spent budget, for a row that records the desired price: the next
sync takes the price for sent. -/
theorem adopted_forgotten :
    ((offers settings populated).syncOne wanted false 0).Runs (spentRow (some 10) none)
      (.ok .deferredPriceBudget) (synced populated (spentRow (some 10) none)) ∧
    ¬ (offers settings populated).RemembersAsSaid wanted .deferredPriceBudget
      (spentRow (some 10) none) (synced populated (spentRow (some 10) none)) := by
  have recorded : (synced populated (spentRow (some 10) none)).offer.pushedPrice =
      some wanted.price := by decide +kernel
  refine ⟨runs_synced populated (spentRow (some 10) none) (by decide +kernel), fun said => ?_⟩
  exact (said.deferred rfl).changed recorded

end EchoStore

end FazerBridge
