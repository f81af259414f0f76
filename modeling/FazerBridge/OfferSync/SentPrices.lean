import FazerBridge.Recorder

/-!
# The prices that are sent

Every price a call of the offer sync carries was computed by the pricer for the
mapping the call is made for, in a state of the FX cache the run was in.

`Adds E` says that every call added to a trace is an `E`.  Each part of the offer
sync sends the desired price or none (`SyncsOne.sends`), and the desired price of
an item is its pricer's on the rates the session had when the item's turn came, so
what the pricer guarantees of its prices, every call of a session guarantees
(`Guarantees.session`).
-/

namespace FazerBridge

/-- The price a call carries. -/
def Call.price : Call → Option ℚ
  | .createOffer _ price _ _ _ => some price
  | .updateOffer _ price _ _ _ => price
  | .getJob _ _ | .offersForProduct _ _ => none

namespace OfferSync

open Prog

variable {W : Type}

/-! ## Added calls -/

/-- `new` is `old` with calls of `E` before it. -/
def Adds (E : Entry → Prop) (old new : List Entry) : Prop :=
  ∃ calls, new = calls ++ old ∧ ∀ entry ∈ calls, E entry

variable {E F : Entry → Prop} {a b c : List Entry}

theorem Adds.refl (trace : List Entry) : Adds E trace trace := ⟨[], rfl, fun _ mem => nomatch mem⟩

theorem Adds.one {entry : Entry} (own : E entry) (trace : List Entry) :
    Adds E trace (entry :: trace) :=
  ⟨[entry], rfl, fun _ mem => by rw [List.mem_singleton.mp mem]; exact own⟩

/-- Entries with a property are added one part after the other. -/
theorem Adds.trans (first : Adds E a b) (second : Adds E b c) : Adds E a c := by
  obtain ⟨calls, rfl, own⟩ := first
  obtain ⟨more, rfl, ownMore⟩ := second
  refine ⟨more ++ calls, (List.append_assoc ..).symm, fun entry mem => ?_⟩
  rcases List.mem_append.mp mem with mem | mem
  · exact ownMore entry mem
  · exact own entry mem

theorem Adds.and (adds : Adds E a b) (also : Adds F a b) :
    Adds (fun entry => E entry ∧ F entry) a b := by
  obtain ⟨calls, rfl, own⟩ := adds
  obtain ⟨same, eq, ownAlso⟩ := also
  rw [List.append_left_inj] at eq
  exact ⟨calls, rfl, fun entry mem => ⟨own entry mem, ownAlso entry (eq ▸ mem)⟩⟩

/-- The turn of a mapping adds calls about it. -/
theorem Calls.adds {mappingId : ℕ} (calls : Calls mappingId a b) :
    Adds (fun entry => entry.row.mappingId = mappingId) a b := calls

theorem Adds.mono (adds : Adds E a b) (imp : ∀ entry, E entry → F entry) : Adds F a b := by
  obtain ⟨calls, rfl, own⟩ := adds
  exact ⟨calls, rfl, fun entry mem => imp entry (own entry mem)⟩

/-! ## One offer -/

/-- A call about `target` that carries no price but `price`. -/
def Sends (target : String) (price : ℚ) (entry : Entry) : Prop :=
  entry.target = target ∧ ∀ p, entry.call.price = some p → p = price

variable {sync : OfferSync W} {s t : RowState W} {phase : Phase} {price : ℚ}

theorem Flushes.trace {q : Except Exn Unit} (flushed : sync.Flushes s q t) : t.trace = s.trace := by
  obtain ⟨rfl, -⟩ := flushed
  rfl

theorem Flushes.target {q : Except Exn Unit} (flushed : sync.Flushes s q t) :
    t.target = s.target := by
  obtain ⟨rfl, -⟩ := flushed
  rfl

/-- A call without a price sends none. -/
theorem adds_silent {call : Call} (silent : call.price = none) :
    Adds (Sends s.target price) s.trace
      (⟨phase, s.offer, s.target, sync.now s.world, call⟩ :: s.trace) :=
  .one ⟨rfl, fun p sent => by cases silent.symm.trans sent⟩ _

/-- A search sends no price. -/
theorem FindsRemote.sends {r : Except Exn Bool} (finds : sync.FindsRemote phase s r t) :
    Adds (Sends s.target price) s.trace t.trace := by
  cases finds with
  | raised | nothing => exact adds_silent rfl
  | found answer flushed =>
      rw [flushed.trace]
      exact adds_silent rfl

/-- Resolving the offer id sends no price. -/
theorem Resolves.sends {r : Except Exn Bool} (resolves : sync.Resolves phase s r t) :
    Adds (Sends s.target price) s.trace t.trace := by
  cases resolves with
  | noJob pending finds => exact finds.sends
  | lookupFailed | lookupRaised | unfinished => exact adds_silent rfl
  | failed _ _ _ _ flushed | named _ _ _ _ _ flushed =>
      rw [flushed.trace]
      exact adds_silent rfl
  | unnamed _ _ _ _ _ finds => exact (adds_silent rfl).trans finds.sends

/-- An update sends the price that is wanted, or none. -/
theorem Updates.sends {desired : DesiredOffer} {now : Time}
    {priceChanged stockChanged activeChanged : Bool} {r : Except Exn StatKey}
    (updates : sync.Updates desired now priceChanged stockChanged activeChanged s r t) :
    Adds (Sends s.target desired.price) s.trace t.trace := by
  have chosen : ∀ {send : Bool} {sent : Option ℚ}, sent = (if send then some desired.price else none) →
      ∀ p, sent = some p → p = desired.price := by
    rintro (_ | _) _ rfl p same <;> cases same
    rfl
  cases updates with
  | nothing => exact .refl _
  | raised _ _ price_eq => exact .one ⟨rfl, chosen price_eq⟩ _
  | unwritten _ _ price_eq _ _ _ flushed =>
      rw [flushed.trace]
      exact .one ⟨rfl, chosen price_eq⟩ _
  | unpriced _ _ _ _ _ _ flushed =>
      rw [flushed.trace]
      exact adds_silent rfl
  | priced _ _ _ _ _ flushed recorded =>
      rw [recorded.trace, RowState.logged_trace, flushed.trace]
      exact .one ⟨rfl, fun p sent => (Option.some.inj sent).symm⟩ _

theorem RecordsCreate.trace {desired : DesiredOffer} {now calledAt : Time}
    {r : Except Exn StatKey} (records : sync.RecordsCreate desired now calledAt s r t) :
    t.trace = s.trace := by
  cases records with
  | unwritten flushed => exact flushed.trace
  | recorded flushed recorded => rw [recorded.trace, RowState.logged_trace, flushed.trace]; rfl

/-- A create sends the price that is wanted. -/
theorem Creates.sends {desired : DesiredOffer} {now : Time} {r : Except Exn StatKey}
    (creates : sync.Creates desired now s r t) :
    Adds (Sends s.target desired.price) s.trace t.trace := by
  have asked : ∀ answer, Adds (Sends s.target desired.price) s.trace
      (⟨.creating, s.offer, s.target, sync.now s.world, .createOffer s.offer.productExtId
        desired.price desired.inventory desired.active answer⟩ :: s.trace) := fun answer =>
    .one ⟨rfl, fun p sent => (Option.some.inj sent).symm⟩ _
  cases creates with
  | raised => exact asked _
  | adoptRaised _ _ resolves | unadopted _ _ resolves | resolveRaised _ _ _ resolves
  | refused _ _ _ resolves => exact (asked _).trans resolves.sends
  | adopted _ _ resolves updates =>
      exact (asked _).trans (resolves.sends.trans (resolves.frame.target ▸ updates.sends))
  | named _ _ records | nameless _ _ _ records =>
      rw [records.trace]
      exact asked _
  | settled _ _ _ resolves _ records =>
      rw [records.trace]
      exact (asked _).trans resolves.sends

/-- A write sends the price that is wanted, or none. -/
theorem Pushes.sends {desired : DesiredOffer} {now : Time}
    {priceChanged stockChanged activeChanged : Bool} {r : Except Exn StatKey}
    (pushes : sync.Pushes desired now priceChanged stockChanged activeChanged s r t) :
    Adds (Sends s.target desired.price) s.trace t.trace := by
  cases pushes with
  | resolveRaised _ _ resolves | awaiting _ _ resolves => exact resolves.sends
  | resolved _ _ resolves updates =>
      exact resolves.sends.trans (resolves.frame.target ▸ updates.sends)
  | creates _ _ creates => exact creates.sends
  | updates _ updates => exact updates.sends

/-- Syncing an offer sends the desired price or none. -/
theorem SyncsOne.sends {desired : DesiredOffer} {dryRun : Bool} {now : Time}
    {r : Except Exn StatKey} (syncs : sync.SyncsOne desired dryRun now s r t) :
    Adds (Sends s.target desired.price) s.trace t.trace := by
  cases syncs with
  | unchanged | dry => exact .refl _
  | pushed _ _ pushes | raised _ _ _ pushes => exact pushes.sends
  | failed _ _ pushes flushed =>
      rw [flushed.trace]
      exact pushes.sends

/-! ## A session -/

/-- A call for `item` whose price, if it carries one, is a `P`. -/
def SentFor (item : Item) (P : ℚ → Prop) (entry : Entry) : Prop :=
  entry.row.mappingId = item.mapping.id ∧ entry.target = item.storeProduct.productExtId ∧
    ∀ p, entry.call.price = some p → P p

theorem SentFor.mono {item : Item} {P Q : ℚ → Prop} {entry : Entry} (sent : SentFor item P entry)
    (imp : ∀ p, P p → Q p) : SentFor item Q entry :=
  ⟨sent.1, sent.2.1, fun p carried => imp p (sent.2.2 p carried)⟩

/-- A call for one of `items`, whose price is a `C` of that item and of the rates the
loop, started in `u`, had when the items before it were done. -/
def SentFrom (sync : OfferSync W) (dryRun : Bool) (now : Time)
    (C : Pricing.Rates W → Item → ℚ → Prop) (u : Session W) (items : List Item)
    (entry : Entry) : Prop :=
  ∃ before item after t, items = before ++ item :: after ∧
    (sync.syncItems dryRun now before).Runs u (.ok ()) t ∧ SentFor item (C t.rates item) entry

/-- A call of a session's offer sync, for one of the items it selects. -/
def SentBy (sync : OfferSync W) (count : Option ℕ) (dryRun : Bool)
    (C : Pricing.Rates W → Item → ℚ → Prop) (t : Session W) (entry : Entry) : Prop :=
  ∃ u, sync.flushSession.Runs t (.ok ()) u ∧
    sync.SentFrom dryRun (sync.now t.world) C u (sync.syncable t.db count) entry

/-- The pricer keeps `R` of the cached rates, and its prices are `C` of them and of
their item. -/
structure Guarantees (sync : OfferSync W) (R : List FxRate → Prop)
    (C : Pricing.Rates W → Item → ℚ → Prop) : Prop where
  keeps : ∀ {item : Item} {rates r rates'}, R rates.fxRates →
    (sync.pricer item.supplierProduct item.mapping item.storeProduct).Runs rates r rates' →
    R rates'.fxRates
  prices : ∀ {item : Item} {rates price rates'}, R rates.fxRates →
    (sync.pricer item.supplierProduct item.mapping item.storeProduct).Runs rates (.ok price) rates' →
    C rates item price

variable {u v : Session W} {x : Session W} {R : List FxRate → Prop}
  {C : Pricing.Rates W → Item → ℚ → Prop} {item : Item} {items : List Item}

/-- What a step of a session leaves of the cached rates and adds to the calls. -/
structure Prices (R : List FxRate → Prop) (E : Entry → Prop) (u v : Session W) : Prop where
  rates : R v.db.fxRates
  calls : Adds E u.trace v.trace

theorem Prices.trans (first : Prices R E u v) (second : Prices R E v x) : Prices R E u x :=
  ⟨second.rates, first.calls.trans second.calls⟩

/-- A step that leaves the rates alone and makes no call. -/
theorem Prices.idle (rates : R u.db.fxRates) (same : v.db.fxRates = u.db.fxRates)
    (trace : v.trace = u.trace) : Prices R E u v :=
  ⟨same ▸ rates, trace ▸ .refl _⟩

/-- The pricer runs on the cached rates and the world of the session. -/
theorem runs_priced {x : Prog Exn (Pricing.Rates W) ℚ} {r : Except Exn ℚ}
    (run : (ofState fun (t : Session W) =>
      let (result, rates) := x.exec ⟨t.db.fxRates, t.world⟩
      (result, { t with
        db := { t.db with fxRates := rates.fxRates }, world := rates.world })).Runs u r v) :
    ∃ rates, x.Runs ⟨u.db.fxRates, u.world⟩ r rates ∧
      v = { u with db := { u.db with fxRates := rates.fxRates }, world := rates.world } := by
  change ((x.exec ⟨u.db.fxRates, u.world⟩).1, ({ u with
    db := { u.db with fxRates := (x.exec ⟨u.db.fxRates, u.world⟩).2.fxRates }
    world := (x.exec ⟨u.db.fxRates, u.world⟩).2.world } : Session W)) = (r, v) at run
  cases run
  exact ⟨_, runs_exec .., rfl⟩

/-- Computing a price keeps the rates, and the price is as guaranteed. -/
theorem Guarantees.desired (guarantees : sync.Guarantees R C) {r : Except Exn DesiredOffer}
    (run : (sync.desired item).Runs u r v) (rates : R u.db.fxRates) :
    Prices R E u v ∧ ∀ d, r = .ok d → C u.rates item d.price := by
  unfold OfferSync.desired at run
  rcases runs_bind.mp run with ⟨price, m, priced, rest⟩ | ⟨e, priced, rfl⟩
  · obtain ⟨rfl, rfl⟩ := runs_pure.mp rest
    obtain ⟨rates', ran, rfl⟩ := runs_priced priced
    refine ⟨⟨guarantees.keeps rates ran, .refl _⟩, ?_⟩
    rintro _ ⟨⟩
    exact guarantees.prices rates ran
  · obtain ⟨rates', ran, rfl⟩ := runs_priced priced
    exact ⟨⟨guarantees.keeps rates ran, .refl _⟩, nofun⟩

theorem prices_bump {key : StatKey} {r : Except Exn Unit} (run : (bump key).Runs u r v)
    (rates : R u.db.fxRates) : Prices R E u v := by
  obtain ⟨-, rfl⟩ := runs_modify.mp run
  exact .idle rates rfl rfl

theorem prices_flushSession {r : Except Exn Unit} (run : sync.flushSession.Runs u r v)
    (rates : R u.db.fxRates) : Prices R E u v := by
  rw [(quiet_flushSession run).2]
  exact .idle rates rfl rfl

theorem prices_closeRun {kind : String} {error : Option Exn} {r : Except Exn Unit}
    (run : (sync.closeRun kind error).Runs u r v) (rates : R u.db.fxRates) : Prices R E u v := by
  rw [(quiet_flushSession (runs_modify_bind.mp run)).2]
  exact .idle rates rfl rfl

/-- Opening a row sends nothing. -/
theorem prices_offerRow {mapping : ProductMapping} {storeProduct : StoreProduct}
    {r : Except Exn StoreOffer} (run : (sync.offerRow mapping storeProduct).Runs u r v)
    (rates : R u.db.fxRates) : Prices R E u v := by
  unfold offerRow at run
  rw [runs_get_bind] at run
  split at run
  · obtain ⟨-, rfl⟩ := runs_pure.mp run
    exact .idle rates rfl rfl
  · rcases runs_bind.mp (runs_modify_bind.mp run) with ⟨⟨⟩, m, flushed, rest⟩ | ⟨e, flushed, -⟩
    · obtain ⟨-, rfl⟩ := runs_pure.mp rest
      rw [(quiet_flushSession flushed).2]
      exact .idle rates rfl rfl
    · rw [(quiet_flushSession flushed).2]
      exact .idle rates rfl rfl

/-- Pricing an item, with its failure counted. -/
theorem Guarantees.pricing (guarantees : sync.Guarantees R C) {r : Except Exn DesiredOffer}
    (run : (tryCatch (sync.desired item) fun e => do
      match e with
      | .pricing _ => bump .errors
      | _ => pure ()
      throw e).Runs u r v) (rates : R u.db.fxRates) :
    Prices R E u v ∧ ∀ d, r = .ok d → C u.rates item d.price := by
  rcases runs_tryCatch.mp run with ⟨d, computed, rfl⟩ | ⟨e, m, computed, handled⟩
  · exact guarantees.desired computed rates
  · obtain ⟨step, -⟩ := guarantees.desired (E := E) computed rates
    cases e with
    | pricing message =>
        rcases runs_bind.mp handled with ⟨⟨⟩, n, counted, thrown⟩ | ⟨_, counted, -⟩
        · obtain ⟨rfl, rfl⟩ := runs_throw.mp thrown
          exact ⟨step.trans (prices_bump counted step.rates), nofun⟩
        · cases (runs_modify.mp counted).1
    | api _ | database _ | other _ =>
        obtain ⟨rfl, rfl⟩ := runs_throw.mp handled
        exact ⟨step, nofun⟩

/-- The turn of an item sends prices as guaranteed from the rates it begins with. -/
theorem Guarantees.syncItem (guarantees : sync.Guarantees R C) {dryRun : Bool} {now : Time}
    {r : Except Exn Unit} (run : (sync.syncItem dryRun now item).Runs u r v)
    (rates : R u.db.fxRates) : Prices R (SentFor item (C u.rates item)) u v := by
  unfold OfferSync.syncItem at run
  rcases runs_bind.mp run with ⟨⟨⟩, m, examined, rest⟩ | ⟨e, examined, rfl⟩
  swap
  · exact prices_bump examined rates
  have counted : Prices R (SentFor item (C u.rates item)) u m := prices_bump examined rates
  have unmoved : m.rates = u.rates := by
    obtain ⟨-, rfl⟩ := runs_modify.mp examined
    rfl
  rcases runs_bind.mp rest with ⟨desired, n, priced, rest⟩ | ⟨e, priced, rfl⟩
  swap
  · exact counted.trans (guarantees.pricing priced counted.rates).1
  obtain ⟨step, good⟩ := guarantees.pricing (E := SentFor item (C u.rates item)) priced counted.rates
  have before := counted.trans step
  rcases runs_bind.mp rest with ⟨offer, k, opened, rest⟩ | ⟨e, opened, rfl⟩
  swap
  · exact before.trans (prices_offerRow opened before.rates)
  have before := before.trans (prices_offerRow opened before.rates)
  have own : offer.mappingId = item.mapping.id := by
    rcases offerRow_cases opened with ⟨_, found, ⟨⟩, -⟩ | ⟨-, -, created⟩
    · exact (Table.find?_eq_some_iff.mp found).2
    · rw [created offer rfl]
      rfl
  have synced : ∀ {q : Except Exn StatKey} {w : Session W},
      (onRow offer item.storeProduct.productExtId (sync.syncOne desired dryRun now)).Runs k q w →
      Prices R (SentFor item (C u.rates item)) k w := by
    intro q w ran
    obtain ⟨s, processed, rfl⟩ := runs_onRow.mp ran
    have syncs := syncOne_spec processed
    refine ⟨before.rates, (syncs.frame.trace.adds.and syncs.sends).mono ?_⟩
    rintro entry ⟨row, target, sent⟩
    exact ⟨row.trans own, target, fun p carried => sent p carried ▸ unmoved ▸ good _ rfl⟩
  rcases runs_bind.mp rest with ⟨action, w, ran, counted⟩ | ⟨e, ran, rfl⟩
  · exact before.trans ((synced ran).trans (prices_bump counted (synced ran).rates))
  · exact before.trans (synced ran)

/-- Every item is sent at a price guaranteed at its own turn. -/
theorem Guarantees.syncItems (guarantees : sync.Guarantees R C) {dryRun : Bool} {now : Time}
    {r : Except Exn Unit} (run : (sync.syncItems dryRun now items).Runs u r v)
    (rates : R u.db.fxRates) : Prices R (sync.SentFrom dryRun now C u items) u v := by
  induction items generalizing u with
  | nil =>
      obtain ⟨-, rfl⟩ := runs_pure.mp run
      exact .idle rates rfl rfl
  | cons item rest ih =>
      have first : ∀ {q : Except Exn Unit} {m : Session W},
          (sync.syncItem dryRun now item).Runs u q m →
          Prices R (sync.SentFrom dryRun now C u (item :: rest)) u m := fun ran =>
        have step := guarantees.syncItem ran rates
        ⟨step.rates, step.calls.mono fun entry sent =>
          ⟨[], item, rest, u, rfl, runs_pure.mpr ⟨rfl, rfl⟩, sent⟩⟩
      rcases runs_bind.mp run with ⟨⟨⟩, m, ran, later⟩ | ⟨e, ran, rfl⟩
      · obtain ⟨kept, calls⟩ := ih later (first ran).rates
        refine (first ran).trans ⟨kept, calls.mono ?_⟩
        rintro entry ⟨before, item', after, t, rfl, reached, sent⟩
        exact ⟨item :: before, item', after, t, rfl, runs_bind.mpr (.inl ⟨⟨⟩, m, ran, reached⟩),
          sent⟩
      · exact first ran

/-- A recorder adds what its block adds. -/
theorem prices_recorded {kind : String} {block : Prog Exn (Session W) Unit}
    {r : Except Exn Stats}
    (kept : ∀ {t w : Session W} {q : Except Exn Unit}, sync.flushSession.Runs u (.ok ()) t →
      R t.db.fxRates → block.Runs t q w → Prices R E t w)
    (run : (sync.recorded kind block).Runs u r v) (rates : R u.db.fxRates) : Prices R E u v := by
  unfold recorded at run
  rcases runs_bind.mp run with ⟨⟨⟩, m, opened, rest⟩ | ⟨e, opened, rfl⟩
  swap
  · exact prices_flushSession opened rates
  have before : Prices R E u m := prices_flushSession opened rates
  rcases runs_bind.mp rest with ⟨⟨⟩, w, ran, rest⟩ | ⟨e, ran, rfl⟩
  · have after : Prices R E m w := by
      rcases runs_tryCatch.mp ran with ⟨_, ran, -⟩ | ⟨_, _, -, handled⟩
      · exact kept opened before.rates ran
      · rcases runs_bind.mp handled with ⟨_, _, -, thrown⟩ | ⟨_, -, same⟩
        · cases (runs_throw.mp thrown).1
        · cases same
    rcases runs_bind.mp rest with ⟨⟨⟩, x, closed, rest⟩ | ⟨e, closed, rfl⟩
    · rw [runs_get_bind] at rest
      obtain ⟨-, rfl⟩ := runs_pure.mp rest
      exact before.trans (after.trans (prices_closeRun closed after.rates))
    · exact before.trans (after.trans (prices_closeRun closed after.rates))
  · rcases runs_tryCatch.mp ran with ⟨_, _, same⟩ | ⟨_, w, ran, handled⟩
    · cases same
    · have after := kept opened before.rates ran
      rcases runs_bind.mp handled with ⟨⟨⟩, x, closed, thrown⟩ | ⟨_, closed, -⟩
      · obtain ⟨-, rfl⟩ := runs_throw.mp thrown
        exact before.trans (after.trans (prices_closeRun closed after.rates))
      · exact before.trans (after.trans (prices_closeRun closed after.rates))

/-- A run sends only prices that are guaranteed at the turn of their item. -/
theorem Guarantees.run (guarantees : sync.Guarantees R C) {count : Option ℕ} {dryRun : Bool}
    {r : Except Exn Stats} (run : (sync.run count dryRun).Runs u r v) (rates : R u.db.fxRates) :
    Prices R (sync.SentBy count dryRun C u) u v := by
  rw [run_eq_recorded, runs_get_bind] at run
  refine prices_recorded (fun {t w q} opened rates ran => ?_) run rates
  have looped : ∀ {q : Except Exn Unit} {m : Session W},
      (sync.syncItems dryRun (sync.now u.world) (sync.syncable u.db count)).Runs t q m →
      Prices R (sync.SentBy count dryRun C u) t m := fun ran =>
    have items := guarantees.syncItems ran rates
    ⟨items.rates, items.calls.mono fun entry sent => ⟨t, opened, sent⟩⟩
  rcases runs_bind.mp ran with ⟨⟨⟩, m, items, flushed⟩ | ⟨e, items, rfl⟩
  · exact (looped items).trans (prices_flushSession flushed (looped items).rates)
  · exact looped items

/-- Every price a session sends is a `C` of the item it is sent for, and of the rates
the session had at its turn. -/
theorem Guarantees.session (guarantees : sync.Guarantees R C) {count : Option ℕ} {dryRun : Bool}
    (db : Db) (world : W) (trace : List Entry) (rates : R db.fxRates) :
    Adds (sync.SentBy count dryRun C ⟨db, world, trace, []⟩) trace
      (sync.sessionScope (sync.run count dryRun) db world trace).trace := by
  obtain ⟨r, t, run, ends⟩ := sync.sessionScope_spec (sync.run count dryRun) db world trace
  have calls := (guarantees.run run rates).calls
  generalize sync.sessionScope (sync.run count dryRun) db world trace = left at ends
  cases ends with
  | committed _ quiet | rolledBack quiet =>
      rw [quiet.trace]
      exact calls

/-- The item of a call is one of those the session selects. -/
theorem SentBy.exists_item {count : Option ℕ} {dryRun : Bool} {t : Session W} {entry : Entry}
    (sent : sync.SentBy count dryRun C t entry) :
    ∃ item ∈ sync.syncable t.db count, ∃ rates, SentFor item (C rates item) entry := by
  obtain ⟨u, -, before, item, after, s, split, -, own⟩ := sent
  exact ⟨item, by simp [split], s.rates, own⟩

end OfferSync

end FazerBridge
