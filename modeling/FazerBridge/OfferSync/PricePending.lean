import FazerBridge.AdminApi
import FazerBridge.OfferSync.SentPrices
import FazerBridge.Pricing.SubCentLimits
import FazerBridge.Service

/-!
# Prices that wait to be sent

The offers screen and `_sync_one` each compare the price of a product with the one last sent:
one in floats, with a tolerance, and only if a price other than zero is remembered, the other
exactly, and only for the products a run selects.  Prices are sent in whole cents and only sent
prices are remembered (`Step.inCents`), so the tolerance costs nothing, and the two part over a
price that is not remembered, or is remembered as zero, and over a changed price of a product
that no run selects (`pricePending_iff`).
-/

namespace FazerBridge

namespace OfferSync

variable {W : Type} {sync : OfferSync W} {s t u : RowState W} {phase : Phase}

/-! ## A remembered price was sent -/

/-- The price a row remembers in `t` it remembered in `s`, or a call has carried it. -/
def RecallsSent (s t : RowState W) : Prop :=
  ∀ p ∈ t.offer.pushedPrice, p ∈ s.offer.pushedPrice ∨ ∃ entry ∈ t.trace, entry.call.price = some p

theorem RecallsSent.kept (same : t.offer.pushedPrice = s.offer.pushedPrice) : RecallsSent s t :=
  fun _ mem => .inl (same ▸ mem)

theorem RecallsSent.forgotten (none : t.offer.pushedPrice = none) : RecallsSent s t := by
  intro p mem
  rw [none] at mem
  cases mem

theorem RecallsSent.sent {entry : Entry} (mem : entry ∈ t.trace)
    (carried : entry.call.price = t.offer.pushedPrice) : RecallsSent s t :=
  fun _ remembered => .inr ⟨entry, mem, carried.trans remembered⟩

theorem RecallsSent.trans (first : RecallsSent s t) (second : RecallsSent t u)
    (later : t.trace <:+ u.trace) : RecallsSent s u := by
  intro p mem
  rcases second p mem with mem | sent
  · rcases first p mem with mem | ⟨entry, made, carried⟩
    · exact .inl mem
    · exact .inr ⟨entry, later.subset made, carried⟩
  · exact .inr sent

/-- `RecallsSent.trans`, for a first part that keeps the price. -/
theorem RecallsSent.after (second : RecallsSent t u)
    (same : t.offer.pushedPrice = s.offer.pushedPrice) : RecallsSent s u := fun p mem => by
  rw [← same]
  exact second p mem

theorem FindsRemote.pushedPrice {r : Except Exn Bool} (finds : sync.FindsRemote phase s r t) :
    t.offer.pushedPrice = s.offer.pushedPrice := by
  cases finds with
  | raised | nothing => rfl
  | found answer flushed =>
      obtain ⟨rfl, -⟩ := flushed
      rfl

theorem Resolves.recallsSent {r : Except Exn Bool} (resolves : sync.Resolves phase s r t) :
    RecallsSent s t := by
  cases resolves with
  | noJob pending finds => exact .kept finds.pushedPrice
  | lookupFailed | lookupRaised | unfinished => exact .kept rfl
  | failed _ _ _ _ flushed =>
      obtain ⟨rfl, -⟩ := flushed
      exact .forgotten rfl
  | named _ _ _ _ _ flushed =>
      obtain ⟨rfl, -⟩ := flushed
      exact .kept rfl
  | unnamed _ _ _ _ _ finds => exact .kept finds.pushedPrice

theorem Updates.recallsSent {desired : DesiredOffer} {now : Time}
    {priceChanged stockChanged activeChanged : Bool} {r : Except Exn StatKey}
    (updates : sync.Updates desired now priceChanged stockChanged activeChanged s r t) :
    RecallsSent s t := by
  cases updates with
  | nothing | raised => exact .kept rfl
  | unwritten _ _ price_eq _ _ _ flushed =>
      obtain ⟨rfl, -⟩ := flushed
      cases sends : sync.sendsPrice s priceChanged with
      | false => exact .kept rfl
      | true =>
          rw [sends] at price_eq
          exact .sent List.mem_cons_self price_eq
  | unpriced _ _ _ _ _ _ flushed =>
      obtain ⟨rfl, -⟩ := flushed
      exact .kept rfl
  | priced _ _ _ _ _ flushed recorded =>
      obtain ⟨rfl, -⟩ := flushed
      obtain ⟨rfl, -⟩ := recorded
      exact .sent List.mem_cons_self rfl

theorem RecordsCreate.pushedPrice {desired : DesiredOffer} {now calledAt : Time}
    {r : Except Exn StatKey} (records : sync.RecordsCreate desired now calledAt s r t) :
    t.offer.pushedPrice = some desired.price := by
  cases records with
  | unwritten flushed =>
      obtain ⟨rfl, -⟩ := flushed
      rfl
  | recorded flushed recorded =>
      obtain ⟨rfl, -⟩ := flushed
      obtain ⟨rfl, -⟩ := recorded
      rfl

theorem Creates.recallsSent {desired : DesiredOffer} {now : Time} {r : Except Exn StatKey}
    (creates : sync.Creates desired now s r t) : RecallsSent s t := by
  -- `_create` asked for the desired price, so a row that records it recalls what was sent
  have asked : ∀ {m : RowState W} {answer : Except Exn JobResult} {calledAt : Time},
      ⟨.creating, s.offer, s.target, sync.now s.world, .createOffer s.offer.productExtId
        desired.price desired.inventory desired.active answer⟩ ∈ m.trace →
      sync.RecordsCreate desired now calledAt m r t → RecallsSent s t := by
    intro m answer calledAt made records
    exact .sent (records.frame.trace.suffix.subset made) records.pushedPrice.symm
  cases creates with
  | raised => exact .kept rfl
  | adoptRaised _ _ resolves | unadopted _ _ resolves | resolveRaised _ _ _ resolves
  | refused _ _ _ resolves =>
      exact resolves.recallsSent.after rfl
  | adopted _ _ resolves updates =>
      exact (resolves.recallsSent.after rfl).trans updates.recallsSent updates.frame.trace.suffix
  | named _ _ records | nameless _ _ _ records => exact asked List.mem_cons_self records
  | settled _ _ _ resolves _ records =>
      exact asked (resolves.frame.trace.suffix.subset List.mem_cons_self) records

theorem Pushes.recallsSent {desired : DesiredOffer} {now : Time}
    {priceChanged stockChanged activeChanged : Bool} {r : Except Exn StatKey}
    (pushes : sync.Pushes desired now priceChanged stockChanged activeChanged s r t) :
    RecallsSent s t := by
  cases pushes with
  | resolveRaised _ _ resolves | awaiting _ _ resolves => exact resolves.recallsSent
  | resolved _ _ resolves updates =>
      exact resolves.recallsSent.trans updates.recallsSent updates.frame.trace.suffix
  | creates _ _ creates => exact creates.recallsSent
  | updates _ updates => exact updates.recallsSent

theorem SyncsOne.recallsSent {desired : DesiredOffer} {dryRun : Bool} {now : Time}
    {r : Except Exn StatKey} (syncs : sync.SyncsOne desired dryRun now s r t) :
    RecallsSent s t := by
  cases syncs with
  | unchanged | dry => exact .kept rfl
  | pushed _ _ pushes | raised _ _ _ pushes => exact pushes.recallsSent
  | failed _ _ pushes flushed =>
      obtain ⟨rfl, -⟩ := flushed
      obtain ⟨-, -, -, -, -, same, -⟩ := failedCall_keeps _ _
      exact pushes.recallsSent.trans (.kept same) (List.suffix_refl _)

theorem ReconcilesOne.recallsSent {jobId : String} {r : Except Exn Reconciled}
    (reconciles : sync.ReconcilesOne jobId s r t) : RecallsSent s t := by
  cases reconciles with
  | raised | unknown | pending | completed => exact .kept rfl
  | failed => exact .forgotten rfl

/-! ## In every session -/

/-- Every remembered price is a `C`, or was sent. -/
def Recalled (C : ℚ → Prop) (t : Session W) : Prop :=
  ∀ offer ∈ t.db.offers.rows, ∀ p ∈ offer.pushedPrice,
    C p ∨ ∃ entry ∈ t.trace, entry.call.price = some p

variable {C : ℚ → Prop}

theorem Quiet.recalled {t u : Session W} (quiet : sync.Quiet t u) (recalled : Recalled C t) :
    Recalled C u := by
  unfold Recalled
  rw [quiet.offers, quiet.trace]
  exact recalled

theorem Recalled.closeRow {t : Session W} (recalled : Recalled C t) {offer : StoreOffer}
    {target : String} {s : RowState W} (found : t.db.offers.find? offer.mappingId = some offer)
    (frame : Frame (openRow t offer target) s) (sent : RecallsSent (openRow t offer target) s) :
    Recalled C (closeRow t s) := by
  have later : ∀ {p : ℚ}, (C p ∨ ∃ entry ∈ t.trace, entry.call.price = some p) →
      C p ∨ ∃ entry ∈ s.trace, entry.call.price = some p := by
    rintro p (good | ⟨entry, made, carried⟩)
    · exact .inl good
    · exact .inr ⟨entry, frame.trace.suffix.subset made, carried⟩
  intro row mem p remembered
  rcases Table.mem_save.mp mem with rfl | ⟨mem, -⟩
  · rcases sent p remembered with before | sent
    · exact later (recalled offer (Table.find?_eq_some_iff.mp found).1 p before)
    · exact .inr sent
  · exact later (recalled row mem p remembered)

theorem keepsItems_recalled {dryRun : Bool} {now : Time} :
    sync.KeepsItems dryRun now (fun _ => True) (Recalled C) fun _ => True where
  quiet := Quiet.recalled
  quietEnd _ _ := trivial
  ends _ := trivial
  opened _ recalled _ := by
    intro row mem p remembered
    rcases Table.mem_save.mp mem with rfl | ⟨mem, -⟩
    · cases remembered
    · exact recalled row mem p remembered
  synced _ recalled found syncs := by
    have own := (Table.find?_eq_some_iff.mp found).2
    exact recalled.closeRow (own.symm ▸ found) syncs.frame syncs.recallsSent
  raised _ _ _ _ := trivial

theorem keepsRows_recalled : sync.KeepsRows (Recalled C) fun _ => True where
  quiet := Quiet.recalled
  quietEnd _ _ := trivial
  ends _ := trivial
  reconciled recalled found _ _ reconciles :=
    recalled.closeRow found reconciles.frame reconciles.recallsSent
  raised _ _ _ _ _ := trivial

/-- Every call that carries a price carries a `C`. -/
def Carries (C : ℚ → Prop) (trace : List Entry) : Prop :=
  ∀ entry ∈ trace, ∀ p, entry.call.price = some p → C p

theorem Carries.of_adds {E : Entry → Prop} {old new : List Entry} (carries : Carries C old)
    (adds : Adds E old new) (good : ∀ entry, E entry → ∀ p, entry.call.price = some p → C p) :
    Carries C new := by
  obtain ⟨calls, rfl, own⟩ := adds
  intro entry mem
  rcases List.mem_append.mp mem with mem | mem
  · exact good entry (own entry mem)
  · exact carries entry mem

/-- Reconciling sends no price. -/
theorem ReconcilesOne.silent {jobId : String} {r : Except Exn Reconciled}
    (reconciles : sync.ReconcilesOne jobId s r t) :
    Adds (fun entry => entry.call.price = none) s.trace t.trace := by
  have asked : ∀ answer, Adds (fun entry => entry.call.price = none) s.trace
      (⟨.reconciling, s.offer, s.target, sync.now s.world, .getJob jobId answer⟩ :: s.trace) :=
    fun answer => .one (E := fun entry => entry.call.price = none) rfl _
  cases reconciles <;> exact asked _

theorem keepsRows_carries :
    sync.KeepsRows (fun t => Carries C t.trace) fun t => Carries C t.trace where
  quiet quiet carries := by
    rw [quiet.trace]
    exact carries
  quietEnd quiet carries := by
    rw [quiet.trace]
    exact carries
  ends carries := carries
  reconciled carries _ _ _ reconciles := carries.of_adds reconciles.silent fun _ silent p sent => by
    cases silent.symm.trans sent
  raised carries _ _ _ reconciles := carries.of_adds reconciles.silent fun _ silent p sent => by
    cases silent.symm.trans sent

/-! ## The comparison of the next run -/

/-- `price_changed` of `_sync_one` -/
def priceChanged (desired : DesiredOffer) (offer : StoreOffer) : Prop :=
  offer.pushedPrice ≠ some desired.price

theorem Changed.price_iff {desired : DesiredOffer} {offer : StoreOffer}
    (changed : Changed desired offer) :
    changed.price = true ↔ priceChanged desired offer := by
  rw [changed.price_eq, decide_eq_true_eq, priceChanged]

/-- The next run goes through `item`, and takes the price of its row for changed. -/
def TreatsChanged (sync : OfferSync W) (db : Db) (item : Item) (price : ℚ) (offer : StoreOffer) :
    Prop :=
  item ∈ sync.syncable db none ∧ priceChanged (desiredAt price item.supplierProduct) offer

/-- A listed product that runs go through: of the store, not paused, and still supplied. -/
structure Selected (sync : OfferSync W) (item : Item) : Prop where
  store : item.mapping.storeCode = sync.adapter.code
  enabled : item.mapping.syncEnabled = true
  supplied : item.supplierProduct.isActive = true

instance (item : Item) : Decidable (sync.Selected item) :=
  decidable_of_iff (item.mapping.storeCode = sync.adapter.code ∧
      item.mapping.syncEnabled = true ∧ item.supplierProduct.isActive = true)
    ⟨fun ⟨store, enabled, supplied⟩ => ⟨store, enabled, supplied⟩,
      fun selected => ⟨selected.store, selected.enabled, selected.supplied⟩⟩

/-- A run that finds the rates of the pricer asks for the price of the pricer. -/
theorem runs_desired {item : Item} {t : Session W} {price : ℚ} {rates : Pricing.Rates W}
    (run : (sync.pricer item.supplierProduct item.mapping item.storeProduct).Runs t.rates
      (.ok price) rates) :
    ∃ u, (sync.desired item).Runs t (.ok (desiredAt price item.supplierProduct)) u := by
  refine ⟨{ t with db := { t.db with fxRates := rates.fxRates }, world := rates.world }, ?_⟩
  refine (Prog.runs_bind_of_ok (Prog.runs_ofState.mpr ?_)).mpr (Prog.runs_pure.mpr ⟨rfl, rfl⟩)
  have ran : (sync.pricer item.supplierProduct item.mapping item.storeProduct).exec
      ⟨t.db.fxRates, t.world⟩ = (.ok price, rates) := run
  simp only [ran]

end OfferSync

namespace Pricing

/-- Every price of the pricer is in whole cents. -/
theorem wholeCents_pricer {W : Type} {source : Source W} {product : SupplierProduct}
    {mapping : ProductMapping} {storeProduct : StoreProduct} {rates rates' : Rates W} {price : ℚ}
    (run : (source.pricer product mapping storeProduct).Runs rates (.ok price) rates') :
    WholeCents price := by
  obtain ⟨q, computed, answered⟩ := Prog.runs_map.mp run
  unfold compute at computed
  cases fixed : mapping.fixedPriceOverride with
  | some fixed' =>
      rw [fixed] at computed
      obtain ⟨rfl, -⟩ := Prog.runs_pure.mp computed
      cases answered
      exact wholeCents_round source.settings.priceRounding fixed'
  | none =>
      rw [fixed] at computed
      rcases Prog.runs_bind.mp computed with ⟨rate, m, -, priced⟩ | ⟨e, -, rfl⟩
      · obtain ⟨rfl, -⟩ := Prog.runs_pure.mp priced
        cases answered
        obtain ⟨rounded, -, final⟩ :=
          priceAt_finalPrice source.settings rate product mapping storeProduct
        rw [final]
        exact wholeCents_quantize _
      · cases answered

end Pricing

namespace AdminApi

open OfferSync Prog

variable {W : Type} {sync : OfferSync W} {source : Pricing.Source W}

/-! ## The comparison in floats -/

theorem within_float : Floating.Within (1 / 2 ^ 53) float :=
  Floating.within_toPrecision Pricing.abs_roundHalfEven_sub_le 53

theorem one_cent_le {a b : ℚ} (first : WholeCents a) (second : WholeCents b) (apart : a ≠ b) :
    1 / 100 ≤ |a - b| := by
  obtain ⟨m, rfl⟩ := first
  obtain ⟨n, rfl⟩ := second
  have other : m - n ≠ 0 := fun same => apart (by rw [sub_eq_zero.mp same])
  have one : (1 : ℚ) ≤ |((m - n : ℤ) : ℚ)| := by
    rw [← Int.cast_abs]
    exact_mod_cast Int.one_le_abs other
  have scaled : |(m : ℚ) * (1 / 100) - n * (1 / 100)| = |((m - n : ℤ) : ℚ)| * (1 / 100) := by
    push_cast
    rw [← sub_mul, abs_mul]
    norm_num
  rw [scaled]
  linarith

/-- Neither the floats nor the tolerance blur whole cents. -/
theorem pricePending_float {computed pushed : ℚ} (cents : WholeCents computed)
    (sent : WholeCents pushed) (column : |pushed| < 10 ^ 8) :
    pricePending (some (float computed)) (some (float pushed)) = true ↔ computed ≠ pushed := by
  rw [pricePending, decide_eq_true_eq]
  constructor
  · rintro apart rfl
    rw [within_float.same, abs_zero] at apart
    have tolerance := within_float (1 / 1000)
    rw [abs_of_pos (by norm_num : (0 : ℚ) < 1 / 1000), abs_le] at tolerance
    linarith [tolerance.1]
  · intro apart
    have far := within_float.apart (by norm_num) computed pushed
    have cent := one_cent_le cents sent apart
    have tolerance := within_float (1 / 1000)
    rw [abs_of_pos (by norm_num : (0 : ℚ) < 1 / 1000), abs_le] at tolerance
    refine lt_of_lt_of_le ?_ far
    have left : (9 / 1000 : ℚ) ≤
        (1 - 1 / 2 ^ 53) * |computed - pushed| - 2 * (1 / 2 ^ 53) * |pushed| := by
      norm_num at column ⊢
      linarith
    norm_num at left tolerance ⊢
    linarith

/-! ## Sessions of the API -/

/-- A run of the offer sync, a reconciliation, or a session that computes or changes prices;
between two of them the world moves. -/
inductive Step (sync : OfferSync W) (source : Pricing.Source W) (bridge : Bridge W) :
    Bridge W → Prop
  | synced {count dryRun} : Step sync source bridge
      (.left (sync.sessionScope (sync.run count dryRun) bridge.db bridge.world bridge.trace))
  | reconciled {count} : Step sync source bridge
      (.left (sync.sessionScope (sync.reconcileJobs count) bridge.db bridge.world bridge.trace))
  | repriced {call : PricingCall} : Step sync source bridge
      (.left (sync.sessionScope (call.body sync source) bridge.db bridge.world bridge.trace))
  | elapsed {world} : Step sync source bridge { bridge with world := world }

/-- Every price that was sent, and every price that is remembered, is in whole cents. -/
structure InCents (bridge : Bridge W) : Prop where
  sent : Carries WholeCents bridge.trace
  remembered : ∀ offer ∈ bridge.db.offers.rows, ∀ p ∈ offer.pushedPrice, WholeCents p

variable {start bridge bridge' : Bridge W}

/-- What a session leaves is in cents if its calls are and its rows recall them. -/
theorem InCents.of_recalled {db : Db} {world : W} {trace : List Entry}
    {stats : Stats} (sent : Carries WholeCents trace)
    (recalled : Recalled WholeCents ⟨db, world, trace, stats⟩) : InCents ⟨db, world, trace⟩ := by
  refine ⟨sent, fun offer mem p remembered => ?_⟩
  rcases recalled offer mem p remembered with cents | ⟨entry, made, carried⟩
  · exact cents
  · exact sent entry made p carried

theorem InCents.recalled (cents : InCents bridge) :
    Recalled WholeCents ⟨bridge.db, bridge.world, bridge.trace, []⟩ :=
  fun offer mem p remembered => .inl (cents.remembered offer mem p remembered)

/-- A session whose rows recall what was sent leaves the bridge in cents if its calls are. -/
theorem InCents.sessionScope {α : Type} {body : Prog Exn (Session W) α} (cents : InCents bridge)
    (kept : ∀ {r u}, body.Runs ⟨bridge.db, bridge.world, bridge.trace, []⟩ r u →
      (∃ a, r = .ok a) → Recalled WholeCents u)
    (sent : Carries WholeCents
      (sync.sessionScope body bridge.db bridge.world bridge.trace).trace) :
    InCents (.left (sync.sessionScope body bridge.db bridge.world bridge.trace)) := by
  rcases keepsRows_recalled.toKeeps.sessionScope (fun run => ⟨kept run, trivial⟩) rfl with
    ⟨a, stats, -, recalled⟩ | ⟨e, db', stats, -, same, -⟩
  · exact .of_recalled sent recalled
  · refine ⟨sent, ?_⟩
    change ∀ offer ∈ (sync.sessionScope body bridge.db bridge.world bridge.trace).db.offers.rows, _
    rw [same]
    exact cents.remembered

theorem Step.inCents (priced : sync.pricer = source.pricer)
    (step : Step sync source bridge bridge') (cents : InCents bridge) : InCents bridge' := by
  cases step with
  | elapsed => exact ⟨cents.sent, cents.remembered⟩
  | synced =>
      have guarantees : sync.Guarantees (fun _ => True) fun _ _ price => WholeCents price := by
        refine ⟨fun _ _ => trivial, fun _ ran => ?_⟩
        rw [priced] at ran
        exact Pricing.wholeCents_pricer ran
      refine cents.sessionScope (fun ran ok => ?_) ?_
      · exact (keepsItems_recalled.run (fun _ _ => trivial) ran cents.recalled).1 ok
      · refine cents.sent.of_adds (guarantees.session _ _ _ trivial) fun entry own p carried => ?_
        obtain ⟨item, -, rates, -, -, good⟩ := own.exists_item
        exact good p carried
  | reconciled =>
      refine cents.sessionScope (fun ran ok => ?_) ?_
      · exact (keepsRows_recalled.reconcileJobs ran cents.recalled).1 ok
      · rcases keepsRows_carries.toKeeps.sessionScope
          (fun ran => keepsRows_carries.reconcileJobs ran cents.sent) rfl with
          ⟨_, _, -, carries⟩ | ⟨_, _, _, -, -, carries⟩
        · exact carries
        · exact carries
  | @repriced call =>
      have silent : ∀ {r : Except Exn Unit} {u : Session W}, (call.body sync source).Runs
          ⟨bridge.db, bridge.world, bridge.trace, []⟩ r u →
          u.db.offers = bridge.db.offers ∧ u.trace = bridge.trace := by
        intro r u ran
        obtain ⟨m, reprices, quiet⟩ := call.spec priced ran
        cases reprices with
        | kept | written => exact ⟨quiet.offers, quiet.trace⟩
      refine cents.sessionScope (fun ran ok => ?_) ?_
      · unfold Recalled
        rw [(silent ran).1, (silent ran).2]
        exact cents.recalled
      · have unsent : ∀ {r : Except Exn Unit} {u : Session W}, (call.body sync source).Runs
            ⟨bridge.db, bridge.world, bridge.trace, []⟩ r u → Carries WholeCents u.trace := by
          intro r u ran
          rw [(silent ran).2]
          exact cents.sent
        rcases keepsRows_carries.toKeeps.sessionScope
          (fun ran => ⟨fun _ => unsent ran, unsent ran⟩) rfl with
          ⟨_, _, -, carries⟩ | ⟨_, _, _, -, -, carries⟩
        · exact carries
        · exact carries

/-- What was sent and remembered stays in cents over every sequence of steps. -/
theorem inCents_of_reached (priced : sync.pricer = source.pricer) (cents : InCents start)
    (reached : Relation.ReflTransGen (Step sync source) start bridge) : InCents bridge := by
  induction reached with
  | refl => exact cents
  | tail _ step ih => exact step.inCents priced ih

/-! ## The offers screen -/

theorem offersOut_spec {rows : List OfferRow} {outs : List OfferOut} {t u : Session W}
    (run : (offersOut source rows).Runs t (.ok outs) u) {out : OfferOut} (mem : out ∈ outs) :
    ∃ row ∈ rows, ∃ v w, (offerOut source row).Runs v (.ok out) w := by
  induction rows generalizing t u outs with
  | nil =>
      obtain ⟨same, -⟩ := runs_pure.mp run
      cases same
      cases mem
  | cons row rest ih =>
      rcases runs_bind.mp run with ⟨first, m, shown, later⟩ | ⟨e, -, same⟩
      · rcases runs_bind.mp later with ⟨others, n, shownLater, done⟩ | ⟨e, -, same⟩
        · obtain ⟨same, -⟩ := runs_pure.mp done
          cases same
          rcases List.mem_cons.mp mem with rfl | mem
          · exact ⟨row, List.mem_cons_self, t, m, shown⟩
          · obtain ⟨other, listed, shown⟩ := ih shownLater mem
            exact ⟨other, List.mem_cons_of_mem _ listed, shown⟩
        · cases same
      · cases same

/-- A computed price is the pricer's, as a float. -/
theorem computedPrice_spec {item : Item} {computed : ℚ} {t u : Session W}
    (run : (computedPrice source item).Runs t (.ok (some computed)) u) :
    ∃ price rates, (source.pricer item.supplierProduct item.mapping item.storeProduct).Runs
      t.rates (.ok price) rates ∧ computed = float price := by
  rcases runs_tryCatch.mp run with ⟨shown, ran, same⟩ | ⟨e, m, -, handled⟩
  · obtain ⟨q, ran, mapped⟩ := runs_map.mp ran
    obtain ⟨rates, computes, -⟩ := compute_cases ran
    cases q with
    | error e => cases mapped
    | ok breakdown =>
        cases mapped
        cases same
        exact ⟨breakdown.finalPrice, rates, runs_map.mpr ⟨.ok breakdown, computes, rfl⟩, rfl⟩
  · cases e with
    | pricing message => cases (runs_pure.mp handled).1
    | api _ | database _ | other _ => cases (runs_throw.mp handled).1

theorem offerOut_spec {row : OfferRow} {out : OfferOut} {t u : Session W}
    (run : (offerOut source row).Runs t (.ok out) u) :
    out.mappingId = row.item.mapping.id ∧
      out.pricePending = pricePending out.computedPrice (pushedPrice row.offer) ∧
      ∃ v, (computedPrice source row.item).Runs t (.ok out.computedPrice) v := by
  rcases runs_bind.mp run with ⟨computed, m, ran, rest⟩ | ⟨e, -, same⟩
  · rw [runs_get_bind] at rest
    obtain ⟨same, -⟩ := runs_pure.mp rest
    cases same
    exact ⟨rfl, rfl, m, ran⟩
  · cases same

/-- A listed row is that of a mapping with its two products and its offer. -/
theorem selected_cases {collation : Collation} {db : Db} {query : OffersQuery} {row : OfferRow}
    (mem : row ∈ selected collation db query) :
    row.item.mapping ∈ db.mappings.rows ∧
      db.supplierProducts.find? row.item.mapping.supplierProductId =
        some row.item.supplierProduct ∧
      row.item.mapping.storeProductId.bind db.storeProducts.find? = some row.item.storeProduct ∧
      row.item.mapping.status ∈ OfferSync.syncableStatuses ∧
      row.offer = db.offers.find? row.item.mapping.id := by
  have listed : row ∈ db.mappings.rows.filterMap (joined db) :=
    List.mem_of_mem_filter
      ((List.mem_insertionSort _).mp (List.mem_of_mem_drop (List.mem_of_mem_take mem)))
  obtain ⟨mapping, there, joins⟩ := List.mem_filterMap.mp listed
  unfold joined at joins
  obtain ⟨supplierProduct, supplied, joins⟩ := Option.bind_eq_some_iff.mp joins
  obtain ⟨storeProduct, stored, joins⟩ := Option.bind_eq_some_iff.mp joins
  split at joins
  · rename_i status
    cases joins
    exact ⟨there, supplied, stored, status, rfl⟩
  · cases joins

/-- Which of the listed products a run goes through. -/
theorem mem_syncable_iff {collation : Collation} {db : Db} {query : OffersQuery} {row : OfferRow}
    (mem : row ∈ selected collation db query) :
    row.item ∈ sync.syncable db none ↔ sync.Selected row.item := by
  obtain ⟨there, supplied, stored, status, -⟩ := selected_cases mem
  constructor
  · intro listed
    obtain ⟨mapping, -, item⟩ := List.mem_filterMap.mp listed
    unfold itemOf at item
    obtain ⟨supplierProduct, -, item⟩ := Option.bind_eq_some_iff.mp item
    obtain ⟨storeProduct, -, item⟩ := Option.bind_eq_some_iff.mp item
    split at item
    · rename_i kept
      rw [← Option.some.inj item]
      exact ⟨kept.1, kept.2.2.1, kept.2.2.2⟩
    · cases item
  · intro selected
    refine List.mem_filterMap.mpr ⟨row.item.mapping, there, ?_⟩
    unfold itemOf
    refine Option.bind_eq_some_iff.mpr ⟨_, supplied, Option.bind_eq_some_iff.mpr ⟨_, stored, ?_⟩⟩
    exact if_pos ⟨selected.store, status, selected.enabled, selected.supplied⟩

/-- What the screen says of a price, against the comparison of `_sync_one`. -/
theorem pending_iff {offer : StoreOffer} {price : ℚ} {goes : Prop} (cents : WholeCents price)
    (sent : ∀ p ∈ offer.pushedPrice, WholeCents p) (column : ∀ p ∈ offer.pushedPrice, |p| < 10 ^ 8) :
    (pricePending (some (float price)) (pushedPrice (some offer)) = true ↔
        goes ∧ offer.pushedPrice ≠ some price) ↔
      (goes → ∃ p, offer.pushedPrice = some p ∧ (p ≠ 0 ∨ price = 0)) ∧
        (¬ goes → ∀ p, offer.pushedPrice = some p → p = 0 ∨ p = price) := by
  cases remembered : offer.pushedPrice with
  | none =>
      have unknown : pushedPrice (some offer) = none := by
        simp [pushedPrice, remembered]
      simp [unknown, pricePending]
  | some p =>
      by_cases zero : p = 0
      · have unknown : pushedPrice (some offer) = none := by
          simp [pushedPrice, remembered, zero]
        simp [unknown, pricePending, zero, eq_comm]
      · have known : pushedPrice (some offer) = some (float p) := by
          simp [pushedPrice, remembered, zero]
        rw [known, pricePending_float cents (sent p remembered) (column p remembered)]
        by_cases selected : goes <;> simp [selected, zero, eq_comm]

/-! ## The next run and the screen -/

/-- The offers screen says of a listed product that its price waits to be sent exactly when the
next run, with the same rates, takes the price for changed, if and only if, for a product that
runs go through, the row remembers a price, and one other than zero unless the new price is zero
too; and for another one, if the row remembers no price but zero and the new one. -/
theorem pricePending_iff (priced : sync.pricer = source.pricer) (cents : InCents start)
    (reached : Relation.ReflTransGen (Step sync source) start bridge) {collation : Collation}
    {query : OffersQuery} {outs : List OfferOut} {u : Session W}
    (listing : (listOffers source collation query).Runs
      ⟨bridge.db, bridge.world, bridge.trace, []⟩ (.ok outs) u)
    {out : OfferOut} (mem : out ∈ outs) (computed : out.computedPrice ≠ none) {offer : StoreOffer}
    (stored : bridge.db.offers.find? out.mappingId = some offer)
    (column : ∀ p ∈ offer.pushedPrice, |p| < 10 ^ 8) :
    ∃ item rates price, ⟨item, some offer⟩ ∈ selected collation bridge.db query ∧
      item.mapping.id = out.mappingId ∧ out.computedPrice = some (float price) ∧
      (∀ t : Session W, t.rates = rates → ∃ v, (sync.desired item).Runs t
        (.ok (desiredAt price item.supplierProduct)) v) ∧
        ((out.pricePending = true ↔ sync.TreatsChanged bridge.db item price offer) ↔
          (sync.Selected item → ∃ p, offer.pushedPrice = some p ∧ (p ≠ 0 ∨ price = 0)) ∧
            (¬ sync.Selected item → ∀ p, offer.pushedPrice = some p → p = 0 ∨ p = price)) := by
  have kept := inCents_of_reached priced cents reached
  obtain ⟨row, listed, v, w, shown⟩ := offersOut_spec (Prog.runs_get_bind.mp listing) mem
  obtain ⟨same, pending, m, ran⟩ := offerOut_spec shown
  obtain ⟨amount, there⟩ := Option.ne_none_iff_exists'.mp computed
  rw [there] at ran
  obtain ⟨price, rates, answers, rfl⟩ := computedPrice_spec ran
  have own : row.offer = some offer := by
    obtain ⟨-, -, -, -, own⟩ := selected_cases listed
    rw [own, ← same]
    exact stored
  refine ⟨row.item, v.rates, price, own ▸ listed, same.symm, there, fun t found => ?_, ?_⟩
  · rw [← priced, ← found] at answers
    exact runs_desired answers
  · rw [pending, there, own]
    unfold TreatsChanged
    rw [mem_syncable_iff listed]
    exact pending_iff (Pricing.wholeCents_pricer answers)
      (kept.remembered offer (Table.find?_eq_some_iff.mp stored).1) column

end AdminApi

/-! ## A store whose updates fail -/

namespace EchoStore

open AdminApi

/-- Its jobs of updates are reported failed. -/
def failingUpdates : Adapter Time :=
  { adapter with
    updateOffer := fun _ _ _ _ w => (.ok { jobId := "update" }, w)
    getJob := fun jobId w =>
      if jobId = "update" then
        (.ok { jobId := jobId, status := "failed", errors := ["price not allowed"] }, w)
      else adapter.getJob jobId w }

def failingSync : OfferSync Time := offers settings failingUpdates

/-- Names are compared as they are. -/
def plainCollation : Collation where
  like search name := decide (search <:+: name)
  before a b := decide (a ≤ b)

def syncedBridge (bridge : Bridge Time) : Bridge Time :=
  .left (failingSync.sessionScope (failingSync.run none false) bridge.db bridge.world bridge.trace)

def reconciledBridge (bridge : Bridge Time) : Bridge Time :=
  .left (failingSync.sessionScope (failingSync.reconcileJobs 200) bridge.db bridge.world
    bridge.trace)

/-- A fixed price of 20. -/
def twenty : PricingIn where
  fixedPriceOverride := some 20
  markupInRange := by simp
  fixedInRange := by simp

def repricedBridge (bridge : Bridge Time) : Bridge Time :=
  .left (failingSync.sessionScope ((PricingCall.setPricing 1 twenty).body failingSync
    (pricing settings)) bridge.db bridge.world bridge.trace)

/-- The offers are created; the first product gets a fixed price. -/
def repricedOnce : Bridge Time := repricedBridge (syncedBridge start)

/-- The new price is sent, and its job fails. -/
def failedOnce : Bridge Time := reconciledBridge (syncedBridge repricedOnce)

def atSession (bridge : Bridge Time) : OfferSync.Session Time :=
  ⟨bridge.db, bridge.world, bridge.trace, []⟩

def screen (bridge : Bridge Time) : List OfferOut :=
  match ((listOffers (pricing settings) plainCollation {}).exec (atSession bridge)).1 with
  | .ok outs => outs
  | .error _ => []

theorem runs_screen (bridge : Bridge Time)
    (shows : (((listOffers (pricing settings) plainCollation {}).exec (atSession bridge)).1.toOption
      ).isSome = true) :
    ∃ u, (listOffers (pricing settings) plainCollation {}).Runs (atSession bridge)
      (.ok (screen bridge)) u := by
  unfold screen
  rcases shown : (listOffers (pricing settings) plainCollation {}).exec (atSession bridge) with
    ⟨r, u⟩
  rw [shown] at shows
  cases r with
  | ok outs => exact ⟨u, shown⟩
  | error e => cases shows

theorem inCents_start : InCents start := by
  refine ⟨fun entry mem => ?_, fun offer mem => ?_⟩
  · cases mem
  · cases mem

theorem repricedOnce_reached :
    Relation.ReflTransGen (Step failingSync (pricing settings)) start repricedOnce :=
  .tail (.single .synced) .repriced

theorem failedOnce_reached :
    Relation.ReflTransGen (Step failingSync (pricing settings)) start failedOnce :=
  .tail (.tail repricedOnce_reached .synced) .reconciled

/-- The row of the first product after its price was changed. -/
def waitingRow : StoreOffer := (repricedOnce.db.offers.find? 1).getD
  (failingSync.newOffer (mapping 1) (storeProduct 1 none))

/-- The changed price is shown as waiting, and the next run takes it for changed. -/
theorem repriced_pending : ∃ out ∈ screen repricedOnce, out.pricePending = true ∧
    ∃ (item : OfferSync.Item) (price : ℚ), item.mapping.id = 1 ∧
      out.computedPrice = some (float price) ∧
      failingSync.TreatsChanged repricedOnce.db item price waitingRow := by
  obtain ⟨out, mem, own, computed, pending⟩ : ∃ out ∈ screen repricedOnce, out.mappingId = 1 ∧
      out.computedPrice ≠ none ∧ out.pricePending = true := by decide +kernel
  have sent : waitingRow.pushedPrice = some (23 / 2) := by decide +kernel
  have stored : repricedOnce.db.offers.find? out.mappingId = some waitingRow := by
    rw [own]
    decide +kernel
  have column : ∀ p ∈ waitingRow.pushedPrice, |p| < 10 ^ 8 := by
    rw [sent]
    decide +kernel
  obtain ⟨u, listing⟩ := runs_screen repricedOnce (by decide +kernel)
  have priced : failingSync.pricer = (pricing settings).pricer := rfl
  obtain ⟨item, rates, price, listed, same, shown, -, agree⟩ := pricePending_iff priced
    inCents_start repricedOnce_reached listing mem computed stored column
  have all : ∀ row ∈ selected plainCollation repricedOnce.db {}, failingSync.Selected row.item := by
    decide +kernel
  refine ⟨out, mem, pending, item, price, same.trans own, shown, (agree.mpr ⟨?_, ?_⟩).mp pending⟩
  · exact fun _ => ⟨23 / 2, sent, .inl (by norm_num)⟩
  · exact fun paused => absurd (all _ listed) paused

/-- After the job of the update failed, the next run takes the price for changed and the
screen says nothing. -/
theorem failed_not_pending :
    Relation.ReflTransGen (Step failingSync (pricing settings)) start failedOnce ∧
    (∃ u, (listOffers (pricing settings) plainCollation {}).Runs (atSession failedOnce)
      (.ok (screen failedOnce)) u) ∧
    ∃ out ∈ screen failedOnce, out.offerExtId = some "1" ∧ out.computedPrice = some 20 ∧
      out.pricePending = false ∧
      ∃ offer ∈ failedOnce.db.offers.find? out.mappingId,
      ∃ item ∈ failingSync.syncable failedOnce.db none, item.mapping.id = out.mappingId ∧
        ((failingSync.desired item).exec (atSession failedOnce)).1 = .ok ⟨20, 5, true⟩ ∧
        OfferSync.priceChanged ⟨20, 5, true⟩ offer := by
  refine ⟨failedOnce_reached, runs_screen failedOnce (by decide +kernel), ?_⟩
  unfold OfferSync.priceChanged
  decide +kernel

end EchoStore

end FazerBridge
