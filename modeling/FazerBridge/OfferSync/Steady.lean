import FazerBridge.OfferSync.Verdicts

/-!
# Sessions with a pinned rate on a working database

With a pinned FX rate the price of an item is a function of the item (`Source.price`), and
a database that does not fail answers a flush by its unique constraint alone.  A session
under these two conditions (`Steady`) is a function of its items: `runs_syncItem` says what
the step of one item is, without a word about pricing or flushing.

The constraint is an invariant of such a session (`distinct_syncItem`): every id an offer
takes is checked before the function that took it returns (`Checks`).
-/

namespace FazerBridge

namespace Pricing

variable {W : Type} {source : Source W} {rate : ℚ}

/-- The price of an item at a pinned rate. -/
def Source.price (source : Source W) (rate : ℚ) (product : SupplierProduct)
    (mapping : ProductMapping) (storeProduct : StoreProduct) : ℚ :=
  match mapping.fixedPriceOverride with
  | some fixed => (fixedPrice source.settings product fixed).finalPrice
  | none => (priceAt source.settings rate product mapping storeProduct).finalPrice

/-- A pinned rate is not looked up. -/
theorem runs_pricer_of_pinned (pinned : source.settings.fxRateUsdEur = some rate)
    (product : SupplierProduct) (mapping : ProductMapping) (storeProduct : StoreProduct)
    (rates : Rates W) :
    (source.pricer product mapping storeProduct).Runs rates
      (.ok (source.price rate product mapping storeProduct)) rates := by
  have rated : (Pricing.rate source).Runs rates (.ok rate) rates := by
    unfold Pricing.rate
    rw [pinned]
    exact Prog.runs_pure.mpr ⟨rfl, rfl⟩
  refine Prog.runs_map.mpr ?_
  unfold compute Source.price
  cases mapping.fixedPriceOverride with
  | some fixed =>
      exact ⟨.ok (fixedPrice source.settings product fixed), Prog.runs_pure.mpr ⟨rfl, rfl⟩, rfl⟩
  | none =>
      exact ⟨.ok (priceAt source.settings rate product mapping storeProduct),
        (Prog.runs_bind_of_ok rated).mpr (Prog.runs_pure.mpr ⟨rfl, rfl⟩), rfl⟩

end Pricing

namespace OfferSync

open Prog

variable {W : Type}

/-! ## Ids are checked before they are kept -/

section Checked

variable {α β : Type} {sync : OfferSync W} {s t : RowState W}

/-- A program that returns on a free id only. -/
def Checks (x : Prog Exn (RowState W) α) : Prop := ∀ ⦃s a t⦄, x.Runs s (.ok a) t → t.Free

/-- A program that returns on a free id, when it starts on one. -/
def KeepsFree (x : Prog Exn (RowState W) α) : Prop :=
  ∀ ⦃s a t⦄, s.Free → x.Runs s (.ok a) t → t.Free

/-- A program that checks the key keeps it free. -/
theorem Checks.keepsFree {x : Prog Exn (RowState W) α} (checks : Checks x) : KeepsFree x :=
  fun _ _ _ _ run => checks run

theorem KeepsFree.pure (a : α) : KeepsFree (pure a : Prog Exn (RowState W) α) := by
  intro s b t free run
  obtain ⟨-, rfl⟩ := runs_pure.mp run
  exact free

theorem KeepsFree.throw (e : Exn) : KeepsFree (throw e : Prog Exn (RowState W) α) := by
  intro s b t free run
  cases (runs_throw.mp run).1

/-- Programs that keep the key free do so one after the other. -/
theorem KeepsFree.bind {x : Prog Exn (RowState W) α} {f : α → Prog Exn (RowState W) β}
    (first : KeepsFree x) (second : ∀ a, KeepsFree (f a)) : KeepsFree (x >>= f) := by
  intro s b t free run
  rcases runs_bind.mp run with ⟨a, m, ran, rest⟩ | ⟨e, -, same⟩
  · exact second a (first free ran) rest
  · cases same

theorem KeepsFree.get_bind {f : RowState W → Prog Exn (RowState W) α}
    (second : ∀ s, KeepsFree (f s)) : KeepsFree (get >>= f) := by
  intro s b t free run
  exact second s free (runs_get_bind.mp run)

theorem KeepsFree.ite {c : Prop} [Decidable c] {x y : Prog Exn (RowState W) α}
    (first : KeepsFree x) (second : KeepsFree y) : KeepsFree (if c then x else y) := by
  split
  · exact first
  · exact second

/-- It is enough that the first part checks the key. -/
theorem Checks.bind {x : Prog Exn (RowState W) α} {f : α → Prog Exn (RowState W) β}
    (checks : Checks x) (second : ∀ a, KeepsFree (f a)) : Checks (x >>= f) := by
  intro s b t run
  rcases runs_bind.mp run with ⟨a, m, ran, rest⟩ | ⟨e, -, same⟩
  · exact second a (checks ran) rest
  · cases same

/-- Edits that a check follows are checked. -/
theorem Checks.edit_bind {f : StoreOffer → StoreOffer} {g : Unit → Prog Exn (RowState W) α}
    (checks : Checks (g ())) : Checks (edit f >>= g) := by
  intro s b t run
  exact checks (runs_edit_bind.mp run)

/-- An edit that leaves the id alone. -/
theorem keepsFree_edit {f : StoreOffer → StoreOffer}
    (same : ∀ offer, (f offer).offerExtId = offer.offerExtId) :
    KeepsFree (edit f : Prog Exn (RowState W) Unit) := by
  intro s b t free run
  obtain ⟨-, rfl⟩ := runs_edit.mp run
  intro id held
  exact free id ((same s.offer).symm.trans held)

/-- A call of the adapter leaves the row alone. -/
theorem keepsFree_request {phase : Phase} {call : Except Exn α → Call}
    {act : W → Except Exn α × W} : KeepsFree (sync.request phase call act) := by
  intro s a t free run
  obtain ⟨-, rfl⟩ := runs_request.mp run
  exact free

theorem keepsFree_attempt_request {phase : Phase} {call : Except Exn α → Call}
    {act : W → Except Exn α × W} : KeepsFree (attempt (sync.request phase call act)) := by
  intro s a t free run
  rcases runs_attempt.mp run with ⟨b, asked, -⟩ | ⟨e, asked, -⟩ | ⟨e, -, -, same⟩
  · exact keepsFree_request free asked
  · obtain ⟨-, rfl⟩ := runs_request.mp asked
    exact free
  · cases same

variable (sync)

/-- A flush checks the key. -/
theorem checks_flush : Checks sync.flush := by
  intro s a t run
  have ran := runs_ofState.mp run
  rcases database : sync.database s.world with ⟨fault, world⟩
  cases fault with
  | some e =>
      simp only [database] at ran
      cases ran
  | none =>
      simp only [database] at ran
      split at ran
      · cases ran
      · rename_i clear
        cases ran
        intro id held taken
        apply clear
        change s.offer.offerExtId = some id at held
        rw [held]
        simpa using taken

theorem checks_remember {desired : DesiredOffer} {now : Time} {keepPrice : Bool} :
    Checks (sync.remember desired now keepPrice) := .edit_bind sync.checks_flush

theorem checks_record {newPrice : ℚ} {oldPrice : Option ℚ} {calledAt : Time} :
    Checks (sync.record newPrice oldPrice calledAt) := by
  intro s a t run
  exact sync.checks_flush (runs_modify_bind.mp run)

theorem checks_recordCreate {desired : DesiredOffer} {now calledAt : Time} :
    Checks (sync.recordCreate desired now calledAt) :=
  .edit_bind (.bind sync.checks_remember fun _ =>
    .bind sync.checks_record.keepsFree fun _ => .pure _)

theorem keepsFree_findRemote {phase : Phase} : KeepsFree (sync.findRemote phase) := by
  refine .get_bind fun s => .bind keepsFree_request fun remote => ?_
  cases remote with
  | nil => exact .pure false
  | cons view rest =>
      exact (Checks.edit_bind (.bind sync.checks_flush fun _ => .pure true)).keepsFree

theorem keepsFree_resolveOfferId {phase : Phase} : KeepsFree (sync.resolveOfferId phase) := by
  refine .get_bind fun s => ?_
  cases truthyId s.offer.pendingJobId with
  | none => exact sync.keepsFree_findRemote
  | some jobId =>
      refine .bind keepsFree_attempt_request fun answer => ?_
      cases answer with
      | error e => exact .pure false
      | ok job =>
          refine .ite (.bind (keepsFree_edit fun _ => rfl) fun _ => .ite ?_ ?_) (.pure false)
          · cases truthyId job.resourceId with
            | some id =>
                exact (Checks.edit_bind (.bind sync.checks_flush fun _ => .pure true)).keepsFree
            | none => exact sync.keepsFree_findRemote
          · exact (Checks.edit_bind (.bind sync.checks_flush fun _ => .pure false)).keepsFree

/-- An update that returns leaves the key free. -/
theorem keepsFree_update {desired : DesiredOffer} {now : Time}
    {priceChanged stockChanged activeChanged : Bool} :
    KeepsFree (sync.update desired now priceChanged stockChanged activeChanged) := by
  refine .get_bind fun s => .ite (.pure _) (.bind keepsFree_request fun job => ?_)
  refine (Checks.edit_bind (.bind sync.checks_remember fun _ => ?_)).keepsFree
  exact .ite (.bind sync.checks_record.keepsFree fun _ => .pure _) (.pure _)

/-- A create that returns leaves the key free. -/
theorem keepsFree_create {desired : DesiredOffer} {now : Time} :
    KeepsFree (sync.create desired now) := by
  refine .get_bind fun s => .bind keepsFree_attempt_request fun answer => ?_
  cases answer with
  | error e =>
      refine .ite (.bind (keepsFree_edit fun _ => rfl) fun _ => ?_) (.throw _)
      exact .bind sync.keepsFree_resolveOfferId fun adopted =>
        .ite sync.keepsFree_update (.throw _)
  | ok job =>
      refine .bind (keepsFree_edit fun _ => rfl) fun _ => ?_
      cases truthyId job.resourceId with
      | some id => exact (Checks.edit_bind sync.checks_recordCreate).keepsFree
      | none =>
          refine .ite ?_ sync.checks_recordCreate.keepsFree
          exact .bind sync.keepsFree_resolveOfferId fun resolved => .get_bind fun t =>
            .ite (.pure _) sync.checks_recordCreate.keepsFree

/-- A write that returns leaves the key free. -/
theorem keepsFree_push {desired : DesiredOffer} {now : Time}
    {priceChanged stockChanged activeChanged : Bool} :
    KeepsFree (sync.push desired now priceChanged stockChanged activeChanged) := by
  have known : ∀ resolved : Bool, KeepsFree (if resolved = true then do
      let t ← get
      if t.offer.offerExtId.isNone then sync.create desired now
      else sync.update desired now priceChanged stockChanged activeChanged
    else pure .awaitingJob : Prog Exn (RowState W) StatKey) := fun resolved =>
    .ite (.get_bind fun t => .ite sync.keepsFree_create sync.keepsFree_update) (.pure _)
  exact .get_bind fun s =>
    .ite (.bind sync.keepsFree_resolveOfferId known) (.bind (.pure true) known)

/-- An `ApiError` between an edit of the id and its check is followed by a check too. -/
theorem keepsFree_syncOne {desired : DesiredOffer} {dryRun : Bool} {now : Time} :
    KeepsFree (sync.syncOne desired dryRun now) := by
  refine .get_bind fun s => .ite (.pure _) (.ite (.pure _) ?_)
  intro s k t free run
  rcases runs_bind.mp run with ⟨pushed, m, attempted, rest⟩ | ⟨e, -, same⟩
  swap
  · cases same
  rcases runs_attempt.mp attempted with ⟨action, pushes, same⟩ | ⟨e, -, same⟩ | ⟨e, -, -, same⟩
  · cases same
    obtain ⟨-, rfl⟩ := runs_pure.mp rest
    exact sync.keepsFree_push free pushes
  · cases same
    exact Checks.edit_bind (.bind sync.checks_flush fun _ => .pure _) rest
  · cases same

end Checked

/-! ## Sessions -/

/-- The offers of the database satisfy its unique constraint. -/
def Distinct (offers : Table StoreOffer.mappingId) : Prop :=
  offers.rows.Pairwise fun a b => ¬ SameOffer a b

instance (offers : Table StoreOffer.mappingId) : Decidable (Distinct offers) :=
  inferInstanceAs (Decidable (List.Pairwise _ _))

/-- A pricer that only looks at the item, on a database that does not fail. -/
structure Steady (sync : OfferSync W) (price : Item → ℚ) : Prop where
  priced : ∀ item rates, (sync.pricer item.supplierProduct item.mapping item.storeProduct).Runs
    rates (.ok (price item)) rates
  database : ∀ w, sync.database w = (none, w)

/-- The row an item gets where it has none. -/
def blank (sync : OfferSync W) (item : Item) : StoreOffer :=
  sync.newOffer item.mapping item.storeProduct

/-- The row of an item: the one there is, else a blank one. -/
def rowOf (sync : OfferSync W) (offers : Table StoreOffer.mappingId) (item : Item) : StoreOffer :=
  (offers.find? item.mapping.id).getD (sync.blank item)

/-- The session with the item counted and its row opened. -/
def opened (sync : OfferSync W) (t : Session W) (item : Item) : Session W :=
  { t with
    db := { t.db with offers := t.db.offers.ensure (sync.blank item) }
    stats := t.stats.bump .examined 1 }

section Steady

variable {sync : OfferSync W} {price : Item → ℚ} {t u v : Session W} {item : Item}
  {offers : Table StoreOffer.mappingId} {dryRun : Bool} {now : Time}

/-- Steady prices are sound. -/
theorem Steady.sound (steady : sync.Steady price) : sync.Sound := fun w => by
  rw [steady.database]

theorem sameOffer_symm {a b : StoreOffer} (same : SameOffer a b) : SameOffer b a :=
  ⟨same.1.symm, same.2.1.symm, fun none => same.2.2 (same.2.1.trans none)⟩

/-- Two rows of different mappings do not clash. -/
theorem Distinct.apart {a b : StoreOffer} (distinct : Distinct offers) (ha : a ∈ offers.rows)
    (hb : b ∈ offers.rows) (other : a.mappingId ≠ b.mappingId) : ¬ SameOffer a b := by
  have : Std.Symm fun a b => ¬ SameOffer a b := ⟨fun _ _ h h' => h (sameOffer_symm h')⟩
  exact List.Pairwise.forall distinct ha hb fun same => other (same ▸ rfl)

/-- Rows of different mappings that do not clash. -/
theorem distinct_of_apart (apart : ∀ a ∈ offers.rows, ∀ b ∈ offers.rows,
    a.mappingId ≠ b.mappingId → ¬ SameOffer a b) : Distinct offers :=
  offers.nodup_rows.pairwise_of_forall_ne fun a ha b hb ne =>
    apart a ha b hb fun same => ne (offers.eq_of_key_eq ha hb same)

/-- A row that holds no id of another row of its store can be written. -/
theorem Distinct.save {offer : StoreOffer} (distinct : Distinct offers)
    (free : ∀ o ∈ offers.rows, o.mappingId ≠ offer.mappingId → ¬ SameOffer o offer) :
    Distinct (offers.save offer) := by
  refine distinct_of_apart fun a ha b hb other => ?_
  rcases Table.mem_save.mp ha with rfl | ⟨oldA, -⟩ <;>
    rcases Table.mem_save.mp hb with rfl | ⟨oldB, -⟩
  · exact absurd rfl other
  · exact fun same => free b oldB other.symm (sameOffer_symm same)
  · exact free a oldA other
  · exact distinct.apart oldA oldB other

/-- Rows without an id clash with nothing. -/
theorem distinct_ensureAll {blanks : List StoreOffer} (idless : ∀ o ∈ blanks, o.offerExtId = none) :
    Distinct (offers.ensureAll blanks) ↔ Distinct offers := by
  constructor
  · exact fun distinct => List.Pairwise.sublist Table.prefix_ensureAll.sublist distinct
  · intro distinct
    refine distinct_of_apart fun a ha b hb other same => ?_
    rcases Table.mem_ensureAll ha with ha | ha
    · exact same.2.2 (idless a ha)
    · rcases Table.mem_ensureAll hb with hb | hb
      · exact same.2.2 (same.2.1.trans (idless b hb))
      · exact distinct.apart ha hb other same

theorem distinct_ensure_blank : Distinct (offers.ensure (sync.blank item)) ↔ Distinct offers :=
  have idless : ∀ o ∈ [sync.blank item], o.offerExtId = none := fun o mem => by
    rw [List.mem_singleton.mp mem]
    rfl
  distinct_ensureAll idless

/-- The ids a row has to stay clear of. -/
theorem free_iff {s : RowState W} {db : Db} (others : s.others = otherOffers db s.offer) :
    s.Free ↔ ∀ o ∈ db.offers.rows, o.mappingId ≠ s.offer.mappingId → ¬ SameOffer o s.offer := by
  unfold RowState.Free
  rw [others]
  constructor
  · intro free o mem other same
    obtain ⟨id, held⟩ := Option.ne_none_iff_exists'.mp same.2.2
    refine free id (same.2.1.symm.trans held) (List.mem_filterMap.mpr ⟨o, ?_, held⟩)
    exact List.mem_filter.mpr ⟨mem, by simp [other, same.1]⟩
  · intro free id held taken
    obtain ⟨o, listed, holds⟩ := List.mem_filterMap.mp taken
    obtain ⟨mem, apart⟩ := List.mem_filter.mp listed
    obtain ⟨other, code⟩ : o.mappingId ≠ s.offer.mappingId ∧ o.storeCode = s.offer.storeCode := by
      simpa using apart
    exact free o mem other ⟨code, holds.trans held.symm, by rw [holds]; exact Option.some_ne_none id⟩

/-! ### The step of one item -/

/-- The row of an item, ready to be processed. -/
def itemRow (sync : OfferSync W) (t : Session W) (item : Item) : RowState W :=
  openRow (sync.opened t item) (sync.rowOf t.db.offers item) item.storeProduct.productExtId

/-- What the store should show for an item. -/
def wanted (price : Item → ℚ) (item : Item) : DesiredOffer :=
  desiredAt (price item) item.supplierProduct

theorem rowOf_mappingId : (sync.rowOf offers item).mappingId = item.mapping.id := by
  unfold rowOf
  cases found : offers.find? item.mapping.id with
  | none => rfl
  | some offer => exact (Table.find?_eq_some_iff.mp found).2

theorem find?_opened (sync : OfferSync W) (t : Session W) (item : Item) :
    (sync.opened t item).db.offers.find? item.mapping.id = some (sync.rowOf t.db.offers item) :=
  Table.find?_ensure_self t.db.offers (sync.blank item)

/-- With a database that only checks the key, a flush raises exactly where two rows share one.
-/
theorem Steady.runs_flushSession (steady : sync.Steady price) {r : Except Exn Unit} :
    sync.flushSession.Runs t r u ↔ u = t ∧ (Distinct t.db.offers ∧ r = .ok () ∨
      ¬ Distinct t.db.offers ∧ r = .error (.database .integrityError)) := by
  have database := steady.database t.world
  unfold flushSession
  rw [runs_ofState, database]
  change (if Distinct t.db.offers then (.ok (), t)
    else (.error (.database .integrityError), t) : Except Exn Unit × Session W) = (r, u) ↔ _
  by_cases distinct : Distinct t.db.offers
  · simp [distinct, eq_comm, and_comm]
  · simp [distinct, eq_comm, and_comm]

theorem Steady.flushes (steady : sync.Steady price) (distinct : Distinct t.db.offers) :
    sync.flushSession.Runs t (.ok ()) t :=
  steady.runs_flushSession.mpr ⟨rfl, .inl ⟨distinct, rfl⟩⟩

/-- Pricing an item changes nothing. -/
theorem Steady.prices (steady : sync.Steady price) :
    (tryCatch (sync.desired item) fun e => do
      match e with
      | .pricing _ => bump .errors
      | _ => pure ()
      throw e).Runs t (.ok (wanted price item)) t := by
  refine runs_tryCatch.mpr (.inl ⟨_, ?_, rfl⟩)
  unfold desired
  refine (runs_bind_of_ok (a := price item) (m := t) ?_).mpr (runs_pure.mpr ⟨rfl, rfl⟩)
  rw [runs_ofState, show (sync.pricer item.supplierProduct item.mapping item.storeProduct).exec
    ⟨t.db.fxRates, t.world⟩ = _ from steady.priced item ⟨t.db.fxRates, t.world⟩]

/-- Opening a row writes a blank one where there is none. -/
theorem Steady.opens (steady : sync.Steady price) (distinct : Distinct t.db.offers) :
    (sync.offerRow item.mapping item.storeProduct).Runs t (.ok (sync.rowOf t.db.offers item))
      { t with db := { t.db with offers := t.db.offers.ensure (sync.blank item) } } := by
  unfold offerRow rowOf
  rw [runs_get_bind]
  cases found : t.db.offers.find? item.mapping.id with
  | some offer =>
      rw [Table.ensure_of_isSome (show (t.db.offers.find? item.mapping.id).isSome by rw [found]; rfl)]
      exact runs_pure.mpr ⟨rfl, rfl⟩
  | none =>
      have ensured : t.db.offers.ensure (sync.blank item) = t.db.offers.save (sync.blank item) :=
        Table.ensure_of_eq_none found
      rw [ensured]
      refine runs_modify_bind.mpr
        ((runs_bind_of_ok (steady.flushes ?_)).mpr (runs_pure.mpr ⟨rfl, rfl⟩))
      exact ensured ▸ distinct_ensure_blank.mpr distinct

/-- The body of the loop of `run` up to the action it counts. -/
def actionOf (sync : OfferSync W) (dryRun : Bool) (now : Time) (item : Item) :
    Prog Exn (Session W) StatKey := do
  bump .examined
  let desired ← tryCatch (sync.desired item) fun e => do
    match e with
    | .pricing _ => bump .errors
    | _ => pure ()
    throw e
  let offer ← sync.offerRow item.mapping item.storeProduct
  onRow offer item.storeProduct.productExtId (sync.syncOne desired dryRun now)

/-- The turn of an item counts what became of it. -/
theorem syncItem_eq : sync.syncItem dryRun now item = sync.actionOf dryRun now item >>= bump := by
  unfold syncItem actionOf
  refine Eq.symm ((bind_assoc _ _ _).trans (bind_congr fun _ => ?_))
  refine (bind_assoc _ _ _).trans (bind_congr fun _ => ?_)
  exact bind_assoc _ _ _

/-- With steady prices the turn of an item is that of its row. -/
theorem Steady.runs_actionOf (steady : sync.Steady price) (distinct : Distinct t.db.offers)
    {q : Except Exn StatKey} :
    (sync.actionOf dryRun now item).Runs t q u ↔
      ∃ s, (sync.syncOne (wanted price item) dryRun now).Runs (sync.itemRow t item) q s ∧
        u = closeRow (sync.opened t item) s := by
  have examined : (bump .examined).Runs t (.ok ()) { t with stats := t.stats.bump .examined 1 } :=
    runs_modify.mpr ⟨rfl, rfl⟩
  have opens : (sync.offerRow item.mapping item.storeProduct).Runs
      { t with stats := t.stats.bump .examined 1 } (.ok (sync.rowOf t.db.offers item))
      (sync.opened t item) := steady.opens distinct
  unfold actionOf
  rw [runs_bind_of_ok examined, runs_bind_of_ok steady.prices, runs_bind_of_ok opens, runs_onRow]
  exact Iff.rfl

/-- The turn of an item, with what it counts. -/
theorem Steady.runs_syncItem (steady : sync.Steady price) (distinct : Distinct t.db.offers)
    {r : Except Exn Unit} :
    (sync.syncItem dryRun now item).Runs t r u ↔
      ∃ q s, (sync.syncOne (wanted price item) dryRun now).Runs (sync.itemRow t item) q s ∧
        r = q.map (fun _ => ()) ∧ u = closed (sync.opened t item) q s := by
  rw [syncItem_eq]
  constructor
  · intro run
    rcases runs_bind.mp run with ⟨k, m, acted, counted⟩ | ⟨e, acted, rfl⟩
    · obtain ⟨s, synced, rfl⟩ := (steady.runs_actionOf distinct).mp acted
      obtain ⟨rfl, rfl⟩ := runs_modify.mp counted
      exact ⟨.ok k, s, synced, rfl, rfl⟩
    · obtain ⟨s, synced, rfl⟩ := (steady.runs_actionOf distinct).mp acted
      exact ⟨.error e, s, synced, rfl, rfl⟩
  · intro found
    obtain ⟨q, s, synced, rfl, rfl⟩ := found
    have acted := (steady.runs_actionOf distinct).mpr ⟨s, synced, rfl⟩
    cases q with
    | ok k => exact (runs_bind_of_ok acted).mpr (runs_modify.mpr ⟨rfl, rfl⟩)
    | error e => exact runs_bind.mpr (.inr ⟨e, acted, rfl⟩)

theorem free_itemRow (distinct : Distinct t.db.offers) : (sync.itemRow t item).Free := by
  refine (free_iff rfl).mpr fun o mem other => ?_
  obtain ⟨there, -⟩ := Table.find?_eq_some_iff.mp (find?_opened sync t item)
  exact (distinct_ensure_blank.mpr distinct).apart mem there other

/-- A step that returns keeps the constraint. -/
theorem Steady.distinct_syncItem (steady : sync.Steady price) (distinct : Distinct t.db.offers)
    (run : (sync.syncItem dryRun now item).Runs t (.ok ()) u) : Distinct u.db.offers := by
  obtain ⟨q, s, synced, same, rfl⟩ := (steady.runs_syncItem distinct).mp run
  cases q with
  | error e => cases same
  | ok k =>
      have frame := (syncOne_spec synced).frame
      have others : s.others = otherOffers (sync.opened t item).db s.offer := by
        rw [frame.others]
        unfold otherOffers
        rw [frame.mappingId, frame.storeCode]
        rfl
      have free := (free_iff others).mp (sync.keepsFree_syncOne (free_itemRow distinct) synced)
      exact (distinct_ensure_blank.mpr distinct).save free

/-- Items that go through leave the keys distinct. -/
theorem Steady.distinct_syncItems (steady : sync.Steady price) {items : List Item}
    (distinct : Distinct t.db.offers) (run : (sync.syncItems dryRun now items).Runs t (.ok ()) u) :
    Distinct u.db.offers := by
  induction items generalizing t with
  | nil =>
      obtain ⟨-, rfl⟩ := runs_pure.mp run
      exact distinct
  | cons item rest ih =>
      rcases runs_bind.mp run with ⟨⟨⟩, m, first, later⟩ | ⟨e, -, same⟩
      · exact ih (steady.distinct_syncItem distinct first) later
      · cases same

end Steady

end OfferSync

end FazerBridge
