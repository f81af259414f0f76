import Mathlib.Logic.Relation
import FazerBridge.OfferSync.Outcomes

/-!
# Runs over a session

What a whole call of the offer sync does to its session, from what it does to
one row.  Everything a session does besides processing rows is `Quiet`: it makes
no call, and it writes no offer and no price change.

`SyncsItems` and `ReconcilesRows` are the two loops, row after row; `run_cases`
and `reconcileJobs_cases` put a call together from its loop, and `Ends` adds what
`session_scope` does at the end.
-/

namespace FazerBridge

namespace OfferSync

open Prog

variable {W : Type}

/-! ## Quiet steps -/

/-- One use of the world by the database or the pricer. -/
inductive Uses (sync : OfferSync W) : W → W → Prop
  | database (w : W) : Uses sync w (sync.database w).2
  | pricer (s m p rates) : Uses sync rates.world ((sync.pricer s m p).exec rates).2.world

/-- Steps of a session that make no call and leave offers, price changes,
mappings and catalogues as they are. -/
structure Quiet (sync : OfferSync W) (t u : Session W) : Prop where
  trace : u.trace = t.trace
  offers : u.db.offers = t.db.offers
  log : u.db.priceChangeLog = t.db.priceChangeLog
  mappings : u.db.mappings = t.db.mappings
  supplierProducts : u.db.supplierProducts = t.db.supplierProducts
  storeProducts : u.db.storeProducts = t.db.storeProducts
  stats : ∀ key, t.stats.get key ≤ u.stats.get key
  world : Relation.ReflTransGen (Uses sync) t.world u.world

variable {sync : OfferSync W} {t u v : Session W}

theorem Quiet.refl (t : Session W) : sync.Quiet t t :=
  ⟨rfl, rfl, rfl, rfl, rfl, rfl, fun _ => le_rfl, .refl⟩

/-- Two quiet parts are quiet together. -/
theorem Quiet.trans (first : sync.Quiet t u) (second : sync.Quiet u v) : sync.Quiet t v where
  trace := second.trace.trans first.trace
  offers := second.offers.trans first.offers
  log := second.log.trans first.log
  mappings := second.mappings.trans first.mappings
  supplierProducts := second.supplierProducts.trans first.supplierProducts
  storeProducts := second.storeProducts.trans first.storeProducts
  stats key := (first.stats key).trans (second.stats key)
  world := first.world.trans second.world

variable (sync) in
theorem quiet_bump {key : StatKey} {r : Except Exn Unit} (run : (bump key).Runs t r u) :
    r = .ok () ∧ sync.Quiet t u ∧ u = { t with stats := t.stats.bump key 1 } := by
  obtain ⟨rfl, rfl⟩ := runs_modify.mp run
  exact ⟨rfl, ⟨rfl, rfl, rfl, rfl, rfl, rfl, fun _ => Stats.get_le_bump ..,
    .refl⟩, rfl⟩

theorem quiet_flushSession {r : Except Exn Unit} (run : sync.flushSession.Runs t r u) :
    sync.Quiet t u ∧ u = { t with world := (sync.database t.world).2 } := by
  have ran := Prog.runs_ofState.mp run
  have final : u = { t with world := (sync.database t.world).2 } := by
    rcases database : sync.database t.world with ⟨fault, world⟩
    cases fault with
    | some e =>
        simp only [database] at ran
        cases ran
        rfl
    | none =>
        simp only [database] at ran
        split at ran <;> cases ran <;> rfl
  subst final
  exact ⟨⟨rfl, rfl, rfl, rfl, rfl, rfl, fun _ => le_rfl, .single (.database _)⟩, rfl⟩

/-- Computing a price is quiet, and what is wanted is at that price. -/
theorem quiet_desired {item : Item} {r : Except Exn DesiredOffer}
    (run : (sync.desired item).Runs t r u) :
    sync.Quiet t u ∧ ∀ d, r = .ok d → ∃ price, d = desiredAt price item.supplierProduct := by
  unfold desired at run
  have used : Uses sync t.world _ := .pricer item.supplierProduct item.mapping item.storeProduct
    ⟨t.db.fxRates, t.world⟩
  rcases runs_bind.mp run with ⟨price, m, priced, rest⟩ | ⟨e, priced, rfl⟩
  · obtain ⟨rfl, rfl⟩ := runs_pure.mp rest
    have final := (congrArg Prod.snd priced).symm
    subst final
    exact ⟨⟨rfl, rfl, rfl, rfl, rfl, rfl, fun _ => le_rfl, .single used⟩,
      fun d same => ⟨price, by cases same; rfl⟩⟩
  · have final := (congrArg Prod.snd priced).symm
    subst final
    exact ⟨⟨rfl, rfl, rfl, rfl, rfl, rfl, fun _ => le_rfl, .single used⟩,
      fun d same => by cases same⟩

/-- Closing the run is quiet. -/
theorem quiet_closeRun {kind : String} {error : Option Exn} {r : Except Exn Unit}
    (run : (sync.closeRun kind error).Runs t r u) : sync.Quiet t u := by
  obtain ⟨quiet, -⟩ := quiet_flushSession (runs_modify_bind.mp run)
  exact ⟨quiet.trace, quiet.offers, quiet.log, quiet.mappings, quiet.supplierProducts,
    quiet.storeProducts, quiet.stats, quiet.world⟩

/-! ## One item -/

/-- What pricing sees of a session. -/
def Session.rates (t : Session W) : Pricing.Rates W := ⟨t.db.fxRates, t.world⟩

/-- The session with a row written. -/
def Session.withOffer (t : Session W) (offer : StoreOffer) : Session W :=
  { t with db := { t.db with offers := t.db.offers.save offer } }

theorem Quiet.withOffer (quiet : sync.Quiet t u) (offer : StoreOffer) :
    sync.Quiet (t.withOffer offer) (u.withOffer offer) where
  trace := quiet.trace
  offers := by
    change u.db.offers.save offer = t.db.offers.save offer
    rw [quiet.offers]
  log := quiet.log
  mappings := quiet.mappings
  supplierProducts := quiet.supplierProducts
  storeProducts := quiet.storeProducts
  stats := quiet.stats
  world := quiet.world

/-- The row of an item is there, or a new one is written. -/
inductive Opens (sync : OfferSync W) (item : Item) (t : Session W) :
    StoreOffer → Session W → Prop
  | known {offer u} (found : t.db.offers.find? item.mapping.id = some offer)
      (quiet : sync.Quiet t u) : Opens sync item t offer u
  | fresh {u : Session W} (missing : t.db.offers.find? item.mapping.id = none)
      (quiet : sync.Quiet (t.withOffer (sync.newOffer item.mapping item.storeProduct)) u) :
      Opens sync item t (sync.newOffer item.mapping item.storeProduct) u

/-- The session after a row was processed, with its action counted. -/
def closed (t : Session W) (r : Except Exn StatKey) (s : RowState W) : Session W :=
  match r with
  | .ok action => { closeRow t s with stats := t.stats.bump action 1 }
  | .error _ => closeRow t s

/-- `syncItem` -/
inductive SyncsItem (sync : OfferSync W) (dryRun : Bool) (now : Time) (item : Item)
    (t : Session W) : Except Exn Unit → Session W → Prop
  | unpriced {e u} (quiet : sync.Quiet t u) : SyncsItem sync dryRun now item t (.error e) u
  | unopened {offer e u} (opens : sync.Opens item t offer u) :
      SyncsItem sync dryRun now item t (.error e) u
  | synced {offer u price r s} (opens : sync.Opens item t offer u)
      (syncs : sync.SyncsOne (desiredAt price item.supplierProduct) dryRun now
        (openRow u offer item.storeProduct.productExtId) r s) :
      SyncsItem sync dryRun now item t (r.map fun _ => ()) (closed u r s)

/-- The row of a mapping is there, or is made and flushed. -/
theorem offerRow_cases {mapping : ProductMapping} {storeProduct : StoreProduct}
    {r : Except Exn StoreOffer} (run : (sync.offerRow mapping storeProduct).Runs t r u) :
    (∃ offer, t.db.offers.find? mapping.id = some offer ∧ r = .ok offer ∧ u = t) ∨
      (t.db.offers.find? mapping.id = none ∧
        sync.Quiet (t.withOffer (sync.newOffer mapping storeProduct)) u ∧
        ∀ offer, r = .ok offer → offer = sync.newOffer mapping storeProduct) := by
  unfold offerRow at run
  rw [runs_get_bind] at run
  cases found : t.db.offers.find? mapping.id with
  | some offer =>
      rw [found] at run
      obtain ⟨rfl, rfl⟩ := runs_pure.mp run
      exact Or.inl ⟨offer, rfl, rfl, rfl⟩
  | none =>
      rw [found] at run
      rcases runs_bind.mp (runs_modify_bind.mp run) with ⟨⟨⟩, m, flushed, rest⟩ | ⟨e, flushed, rfl⟩
      · obtain ⟨rfl, rfl⟩ := runs_pure.mp rest
        exact Or.inr ⟨rfl, (quiet_flushSession flushed).1, fun offer same => by cases same; rfl⟩
      · exact Or.inr ⟨rfl, (quiet_flushSession flushed).1, fun offer same => by cases same⟩

theorem Opens.quiet_left {item : Item} {offer : StoreOffer} (quiet : sync.Quiet t u)
    (opens : sync.Opens item u offer v) : sync.Opens item t offer v := by
  cases opens with
  | known found rest => exact .known (by rw [← quiet.offers]; exact found) (quiet.trans rest)
  | fresh missing rest =>
      exact .fresh (by rw [← quiet.offers]; exact missing) ((quiet.withOffer _).trans rest)

/-- Pricing an item, with its failure counted. -/
theorem quiet_pricing {item : Item} {r : Except Exn DesiredOffer}
    (run : (tryCatch (sync.desired item) fun e => do
      match e with
      | .pricing _ => bump .errors
      | _ => pure ()
      throw e).Runs t r u) :
    sync.Quiet t u ∧ ∀ d, r = .ok d → ∃ price, d = desiredAt price item.supplierProduct := by
  rcases runs_tryCatch.mp run with ⟨d, computed, rfl⟩ | ⟨e, m, computed, handled⟩
  · exact quiet_desired computed
  · have quiet := (quiet_desired computed).1
    cases e with
    | pricing message =>
        rcases runs_bind.mp handled with ⟨⟨⟩, n, counted, thrown⟩ | ⟨e, counted, rfl⟩
        · obtain ⟨rfl, rfl⟩ := runs_throw.mp thrown
          exact ⟨quiet.trans (quiet_bump sync counted).2.1, fun d same => by cases same⟩
        · cases (quiet_bump sync counted).1
    | api _ | database _ | other _ =>
        obtain ⟨rfl, rfl⟩ := runs_throw.mp handled
        exact ⟨quiet, fun d same => by cases same⟩

/-- A program on a row runs on its state, and its changes go into the session. -/
theorem runs_onRow {α : Type} {offer : StoreOffer} {target : String} {x : Prog Exn (RowState W) α}
    {r : Except Exn α} :
    (onRow offer target x).Runs t r u ↔
      ∃ s, x.Runs (openRow t offer target) r s ∧ u = closeRow t s := by
  change ((x.exec (openRow t offer target)).1, closeRow t (x.exec (openRow t offer target)).2) =
    (r, u) ↔ _
  constructor
  · intro same
    cases same
    exact ⟨_, runs_exec _ _, rfl⟩
  · intro found
    obtain ⟨s, run, rfl⟩ := found
    rw [show x.exec (openRow t offer target) = (r, s) from run]

/-- What the turn of an item can do. -/
theorem syncItem_spec {dryRun : Bool} {now : Time} {item : Item} {r : Except Exn Unit}
    (run : (sync.syncItem dryRun now item).Runs t r u) :
    sync.SyncsItem dryRun now item t r u := by
  unfold syncItem at run
  rcases runs_bind.mp run with ⟨⟨⟩, m, examined, rest⟩ | ⟨e, examined, rfl⟩
  swap
  · cases (quiet_bump sync examined).1
  obtain ⟨-, quiet, -⟩ := quiet_bump sync examined
  rcases runs_bind.mp rest with ⟨desired, m', priced, rest⟩ | ⟨e, priced, rfl⟩
  swap
  · exact .unpriced (quiet.trans (quiet_pricing priced).1)
  obtain ⟨quiet', pricedAt⟩ := quiet_pricing priced
  obtain ⟨price, rfl⟩ := pricedAt _ rfl
  rcases runs_bind.mp rest with ⟨offer, m'', opened, rest⟩ | ⟨e, opened, rfl⟩
  · have opens : sync.Opens item t offer m'' := by
      refine Opens.quiet_left (quiet.trans quiet') ?_
      rcases offerRow_cases opened with ⟨offer', found, same, rfl⟩ | ⟨missing, quiet'', fresh⟩
      · cases same
        exact .known found (.refl _)
      · rw [fresh _ rfl]
        exact .fresh missing quiet''
    rcases runs_bind.mp rest with ⟨action, n, synced, rest⟩ | ⟨e, synced, rfl⟩
    · obtain ⟨rfl, -, rfl⟩ := quiet_bump sync rest
      obtain ⟨s, ran, rfl⟩ := runs_onRow.mp synced
      exact .synced (r := .ok action) opens (syncOne_spec ran)
    · obtain ⟨s, ran, rfl⟩ := runs_onRow.mp synced
      exact .synced (r := .error e) opens (syncOne_spec ran)
  · rcases offerRow_cases opened with ⟨offer', found, same, rfl⟩ | ⟨missing, quiet'', -⟩
    · cases same
    · exact .unopened ((Opens.fresh missing quiet'').quiet_left (quiet.trans quiet'))

/-! ## The loops -/

/-- `syncItems` -/
inductive SyncsItems (sync : OfferSync W) (dryRun : Bool) (now : Time) :
    List Item → Session W → Except Exn Unit → Session W → Prop
  | nil {t : Session W} : SyncsItems sync dryRun now [] t (.ok ()) t
  | stop {item rest e} {t u : Session W} (first : sync.SyncsItem dryRun now item t (.error e) u) :
      SyncsItems sync dryRun now (item :: rest) t (.error e) u
  | cons {item rest r} {t u v : Session W} (first : sync.SyncsItem dryRun now item t (.ok ()) u)
      (later : SyncsItems sync dryRun now rest u r v) :
      SyncsItems sync dryRun now (item :: rest) t r v

/-- What the loop of `run` can do. -/
theorem syncItems_spec {dryRun : Bool} {now : Time} {items : List Item} {r : Except Exn Unit}
    (run : (sync.syncItems dryRun now items).Runs t r u) :
    sync.SyncsItems dryRun now items t r u := by
  induction items generalizing t with
  | nil =>
      obtain ⟨rfl, rfl⟩ := runs_pure.mp run
      exact .nil
  | cons item rest ih =>
      rcases runs_bind.mp run with ⟨⟨⟩, m, first, later⟩ | ⟨e, first, rfl⟩
      · exact .cons (syncItem_spec first) (ih later)
      · exact .stop (syncItem_spec first)

/-- `reconcileRows` -/
inductive ReconcilesRows (sync : OfferSync W) :
    List (StoreOffer × String) → Session W → Except Exn (List Reconciled) → Session W → Prop
  | nil {t : Session W} : ReconcilesRows sync [] t (.ok []) t
  | stop {offer jobId rest e s} {t : Session W}
      (first : sync.ReconcilesOne jobId (openRow t offer offer.productExtId) (.error e) s) :
      ReconcilesRows sync ((offer, jobId) :: rest) t (.error e) (closeRow t s)
  | cons {offer jobId rest k s r} {t v : Session W}
      (first : sync.ReconcilesOne jobId (openRow t offer offer.productExtId) (.ok k) s)
      (later : ReconcilesRows sync rest (closeRow t s) r v) :
      ReconcilesRows sync ((offer, jobId) :: rest) t (r.map (k :: ·)) v

/-- What the loop of `reconcile_jobs` can do. -/
theorem reconcileRows_spec {rows : List (StoreOffer × String)} {r : Except Exn (List Reconciled)}
    (run : (sync.reconcileRows rows).Runs t r u) : sync.ReconcilesRows rows t r u := by
  induction rows generalizing t r with
  | nil =>
      obtain ⟨rfl, rfl⟩ := runs_pure.mp run
      exact .nil
  | cons row rest ih =>
      obtain ⟨offer, jobId⟩ := row
      rcases runs_bind.mp run with ⟨outcome, m, first, later⟩ | ⟨e, first, rfl⟩
      · obtain ⟨s, ran, rfl⟩ := runs_onRow.mp first
        rcases runs_bind.mp later with ⟨outcomes, n, rows, done⟩ | ⟨e, rows, rfl⟩
        · obtain ⟨rfl, rfl⟩ := runs_pure.mp done
          exact .cons (r := .ok outcomes) (reconcileOne_spec ran) (ih rows)
        · exact .cons (r := .error e) (reconcileOne_spec ran) (ih rows)
      · obtain ⟨s, ran, rfl⟩ := runs_onRow.mp first
        exact .stop (reconcileOne_spec ran)

/-! ## Rules for the loops -/

/-- `P` holds after every step of a run, and `Q` where an exception ends it. -/
structure Keeps (sync : OfferSync W) (P Q : Session W → Prop) : Prop where
  quiet : ∀ {t u}, sync.Quiet t u → P t → P u
  quietEnd : ∀ {t u}, sync.Quiet t u → Q t → Q u
  ends : ∀ {t}, P t → Q t

/-- A run over the items of `I` keeps `P`. -/
structure KeepsItems (sync : OfferSync W) (dryRun : Bool) (now : Time) (I : Item → Prop)
    (P Q : Session W → Prop) : Prop extends sync.Keeps P Q where
  opened : ∀ {item t}, I item → P t → t.db.offers.find? item.mapping.id = none →
    P (t.withOffer (sync.newOffer item.mapping item.storeProduct))
  synced : ∀ {item offer t price k s}, I item → P t →
    t.db.offers.find? item.mapping.id = some offer →
    sync.SyncsOne (desiredAt price item.supplierProduct) dryRun now
      (openRow t offer item.storeProduct.productExtId) (.ok k) s → P (closed t (.ok k) s)
  raised : ∀ {item offer t price e s}, I item → P t →
    t.db.offers.find? item.mapping.id = some offer →
    sync.SyncsOne (desiredAt price item.supplierProduct) dryRun now
      (openRow t offer item.storeProduct.productExtId) (.error e) s → Q (closeRow t s)

theorem newOffer_mappingId (mapping : ProductMapping) (storeProduct : StoreProduct) :
    (sync.newOffer mapping storeProduct).mappingId = mapping.id := rfl

/-- Opening the row of an item keeps the property. -/
theorem KeepsItems.opens {dryRun : Bool} {now : Time} {I : Item → Prop} {P Q : Session W → Prop}
    (keeps : sync.KeepsItems dryRun now I P Q) {item : Item} {offer : StoreOffer} (good : I item)
    (opens : sync.Opens item t offer u) (start : P t) :
    P u ∧ u.db.offers.find? item.mapping.id = some offer := by
  cases opens with
  | known found quiet => exact ⟨keeps.quiet quiet start, by rw [quiet.offers]; exact found⟩
  | fresh missing quiet =>
      refine ⟨keeps.quiet quiet (keeps.opened good start missing), ?_⟩
      rw [quiet.offers]
      exact Table.find?_save_self ..

/-- A turn that ends well keeps the property, and any turn what a session may leave behind. -/
theorem KeepsItems.syncsItem {dryRun : Bool} {now : Time} {I : Item → Prop}
    {P Q : Session W → Prop} (keeps : sync.KeepsItems dryRun now I P Q) {item : Item}
    {r : Except Exn Unit} (good : I item) (syncs : sync.SyncsItem dryRun now item t r u)
    (start : P t) : (r = .ok () → P u) ∧ Q u := by
  cases syncs with
  | unpriced quiet =>
      exact ⟨(nomatch ·), keeps.ends (keeps.quiet quiet start)⟩
  | unopened opens =>
      exact ⟨(nomatch ·), keeps.ends (keeps.opens good opens start).1⟩
  | @synced offer m price r s opens syncs =>
      obtain ⟨opened, found⟩ := keeps.opens good opens start
      cases r with
      | ok k =>
          have after := keeps.synced good opened found syncs
          exact ⟨fun _ => after, keeps.ends after⟩
      | error e =>
          exact ⟨(nomatch ·), keeps.raised good opened found syncs⟩

/-- The loop keeps what each turn keeps. -/
theorem KeepsItems.syncsItems {dryRun : Bool} {now : Time} {I : Item → Prop}
    {P Q : Session W → Prop} (keeps : sync.KeepsItems dryRun now I P Q) {items : List Item}
    {r : Except Exn Unit} (good : ∀ item ∈ items, I item)
    (loop : sync.SyncsItems dryRun now items t r u) (start : P t) : (r = .ok () → P u) ∧ Q u := by
  induction loop with
  | nil => exact ⟨fun _ => start, keeps.ends start⟩
  | stop first =>
      exact ⟨(nomatch ·),
        (keeps.syncsItem (good _ List.mem_cons_self) first start).2⟩
  | cons first later ih =>
      exact ih (fun item mem => good item (List.mem_cons_of_mem _ mem))
        ((keeps.syncsItem (good _ List.mem_cons_self) first start).1 rfl)

/-- A reconciliation keeps `P`. -/
structure KeepsRows (sync : OfferSync W) (P Q : Session W → Prop) : Prop extends
    sync.Keeps P Q where
  reconciled : ∀ {offer jobId t k s}, P t → t.db.offers.find? offer.mappingId = some offer →
    offer.storeCode = sync.adapter.code → offer.pendingJobId = some jobId →
    sync.ReconcilesOne jobId (openRow t offer offer.productExtId) (.ok k) s → P (closeRow t s)
  raised : ∀ {offer jobId t e s}, P t → t.db.offers.find? offer.mappingId = some offer →
    offer.storeCode = sync.adapter.code → offer.pendingJobId = some jobId →
    sync.ReconcilesOne jobId (openRow t offer offer.productExtId) (.error e) s → Q (closeRow t s)

/-- The rows of a list are in the database, each with the job it is listed with. -/
def Pending (sync : OfferSync W) (t : Session W) (rows : List (StoreOffer × String)) : Prop :=
  (rows.map fun row => row.1.mappingId).Nodup ∧
    ∀ row ∈ rows, t.db.offers.find? row.1.mappingId = some row.1 ∧
      row.1.storeCode = sync.adapter.code ∧ row.1.pendingJobId = some row.2

/-- Closing the first row leaves the later ones as they are. -/
theorem Pending.closeRow {offer : StoreOffer} {jobId : String} {rest : List (StoreOffer × String)}
    (pending : sync.Pending t ((offer, jobId) :: rest)) {s : RowState W}
    (same : s.offer.mappingId = offer.mappingId) : sync.Pending (closeRow t s) rest := by
  obtain ⟨distinct, there⟩ := pending
  rw [List.map_cons, List.nodup_cons] at distinct
  refine ⟨distinct.2, fun row mem => ?_⟩
  obtain ⟨found, facts⟩ := there row (List.mem_cons_of_mem _ mem)
  refine ⟨?_, facts⟩
  have other : row.1.mappingId ≠ s.offer.mappingId := by
    intro clash
    exact distinct.1 (List.mem_map.mpr ⟨row, mem, clash.trans same⟩)
  exact (Table.find?_save_of_ne _ other).trans found

/-- The loop keeps what the turn of each pending row keeps. -/
theorem KeepsRows.reconcilesRows {P Q : Session W → Prop} (keeps : sync.KeepsRows P Q)
    {rows : List (StoreOffer × String)} {r : Except Exn (List Reconciled)}
    (loop : sync.ReconcilesRows rows t r u) (pending : sync.Pending t rows) (start : P t) :
    ((∃ outcomes, r = .ok outcomes) → P u) ∧ Q u := by
  induction loop with
  | nil => exact ⟨fun _ => start, keeps.ends start⟩
  | stop first =>
      obtain ⟨found, code, job⟩ := pending.2 _ List.mem_cons_self
      exact ⟨fun same => (error_ne_ok same).elim,
        keeps.raised start found code job first⟩
  | @cons offer jobId rest k s r t v first later ih =>
      obtain ⟨found, code, job⟩ := pending.2 _ List.mem_cons_self
      obtain ⟨returned, ended⟩ := ih (pending.closeRow first.frame.mappingId)
        (keeps.reconciled start found code job first)
      refine ⟨fun same => returned ?_, ended⟩
      cases r with
      | ok outcomes => exact ⟨outcomes, rfl⟩
      | error e =>
          obtain ⟨_, same⟩ := same
          cases same

/-- The rows that are reconciled have the jobs they are reconciled for. -/
theorem pending_withPendingJob (count : ℕ) : sync.Pending t (sync.withPendingJob t.db count) := by
  have sub : (sync.withPendingJob t.db count).Sublist _ := List.take_sublist ..
  constructor
  · have keys : ∀ rows : List StoreOffer, (rows.map StoreOffer.mappingId).Nodup →
        ((rows.filterMap fun offer => if offer.storeCode = sync.adapter.code then
          offer.pendingJobId.map (offer, ·) else none).map fun row => row.1.mappingId).Nodup := by
      intro rows distinct
      refine distinct.sublist ?_
      clear distinct
      induction rows with
      | nil => exact .slnil
      | cons offer rest ih =>
          rw [List.filterMap_cons]
          split
          · exact ih.cons _
          · rename_i row found
            split at found
            · obtain ⟨_, -, rfl⟩ := Option.map_eq_some_iff.mp found
              exact ih.cons_cons _
            · cases found
    exact (keys _ t.db.offers.nodup).sublist (sub.map _)
  · intro row mem
    obtain ⟨offer, stored, found⟩ := List.mem_filterMap.mp (sub.subset mem)
    split at found
    · rename_i code
      obtain ⟨_, job, rfl⟩ := Option.map_eq_some_iff.mp found
      exact ⟨t.db.offers.find?_key stored, code, job⟩
    · cases found

/-! ## A whole call -/

/-- A run of the offer sync: quiet steps, the items, quiet steps. -/
theorem run_cases {count : Option ℕ} {dryRun : Bool} {r : Except Exn Stats}
    (run : (sync.run count dryRun).Runs t r u) :
    (sync.Quiet t u ∧ ∃ e, r = .error e) ∨
      ∃ q m n, sync.Quiet t m ∧
        sync.SyncsItems dryRun (sync.now t.world) (sync.syncable t.db count) m q n ∧
        sync.Quiet n u ∧ ∀ stats, r = .ok stats → q = .ok () ∧ stats = u.stats := by
  unfold OfferSync.run at run
  rw [runs_get_bind] at run
  rcases runs_bind.mp run with ⟨⟨⟩, m, opened, rest⟩ | ⟨e, opened, rfl⟩
  swap
  · exact Or.inl ⟨(quiet_flushSession opened).1, e, rfl⟩
  obtain ⟨quiet, -⟩ := quiet_flushSession opened
  rcases runs_bind.mp rest with ⟨⟨⟩, n, body, rest⟩ | ⟨e, body, rfl⟩
  · rcases runs_tryCatch.mp body with ⟨⟨⟩, looped, -⟩ | ⟨e, k, -, handled⟩
    · rcases runs_bind.mp looped with ⟨⟨⟩, k, items, flushed⟩ | ⟨_, -, same⟩
      · refine Or.inr ⟨.ok (), m, k, quiet, syncItems_spec items,
          (quiet_flushSession flushed).1.trans ?_, ?_⟩
        · rcases runs_bind.mp rest with ⟨⟨⟩, k', done, rest⟩ | ⟨e, done, rfl⟩
          · rw [runs_get_bind] at rest
            obtain ⟨rfl, rfl⟩ := runs_pure.mp rest
            exact quiet_closeRun done
          · exact quiet_closeRun done
        · intro stats same
          rcases runs_bind.mp rest with ⟨⟨⟩, k', done, rest⟩ | ⟨e, done, rfl⟩
          · rw [runs_get_bind] at rest
            obtain ⟨rfl, rfl⟩ := runs_pure.mp rest
            cases same
            exact ⟨rfl, rfl⟩
          · cases same
      · cases same
    · rcases runs_bind.mp handled with ⟨⟨⟩, _, _, thrown⟩ | ⟨_, _, thrown⟩
      · cases (runs_throw.mp thrown).1
      · cases thrown
  · refine Or.inr ?_
    rcases runs_tryCatch.mp body with ⟨⟨⟩, _, same⟩ | ⟨e', k, looped, handled⟩
    · cases same
    · have closing : sync.Quiet k u := by
        rcases runs_bind.mp handled with ⟨⟨⟩, _, done, thrown⟩ | ⟨_, done, _⟩
        · obtain ⟨-, rfl⟩ := runs_throw.mp thrown
          exact quiet_closeRun done
        · exact quiet_closeRun done
      rcases runs_bind.mp looped with ⟨⟨⟩, k', items, flushed⟩ | ⟨e'', items, -⟩
      · exact ⟨.ok (), m, k', quiet, syncItems_spec items,
          (quiet_flushSession flushed).1.trans closing, fun _ same => by cases same⟩
      · exact ⟨.error e'', m, k, quiet, syncItems_spec items, closing,
          fun _ same => by cases same⟩

/-- A reconciliation: the rows, then a quiet step. -/
theorem reconcileJobs_cases {count : ℕ} {r : Except Exn (List Reconciled)}
    (run : (sync.reconcileJobs count).Runs t r u) :
    ∃ q m, sync.ReconcilesRows (sync.withPendingJob t.db count) t q m ∧ sync.Quiet m u ∧
      ∀ outcomes, r = .ok outcomes → q = .ok outcomes := by
  unfold reconcileJobs at run
  rw [runs_get_bind] at run
  rcases runs_bind.mp run with ⟨outcomes, m, rows, rest⟩ | ⟨e, rows, rfl⟩
  · rcases runs_bind.mp rest with ⟨⟨⟩, n, flushed, rest⟩ | ⟨e, flushed, rfl⟩
    · obtain ⟨rfl, rfl⟩ := runs_pure.mp rest
      exact ⟨.ok outcomes, m, reconcileRows_spec rows, (quiet_flushSession flushed).1,
        fun _ same => same.symm ▸ rfl⟩
    · exact ⟨.ok outcomes, m, reconcileRows_spec rows, (quiet_flushSession flushed).1,
        fun _ same => by cases same⟩
  · exact ⟨.error e, u, reconcileRows_spec rows, .refl _, fun _ same => by cases same⟩

/-- A run keeps what its items keep. -/
theorem KeepsItems.run {count : Option ℕ} {dryRun : Bool} {I : Item → Prop}
    {P Q : Session W → Prop} (keeps : sync.KeepsItems dryRun (sync.now t.world) I P Q)
    {r : Except Exn Stats} (good : ∀ item ∈ sync.syncable t.db count, I item)
    (run : (sync.run count dryRun).Runs t r u) (start : P t) :
    ((∃ stats, r = .ok stats) → P u) ∧ Q u := by
  rcases run_cases run with ⟨quiet, e, rfl⟩ | ⟨q, m, n, opened, loop, closed, returned⟩
  · exact ⟨fun same => (error_ne_ok same).elim,
      keeps.ends (keeps.quiet quiet start)⟩
  · obtain ⟨after, ended⟩ := keeps.syncsItems good loop (keeps.quiet opened start)
    refine ⟨fun same => ?_, keeps.quietEnd closed ended⟩
    obtain ⟨stats, same⟩ := same
    exact keeps.quiet closed (after (returned stats same).1)

/-- A reconciliation keeps what its rows keep. -/
theorem KeepsRows.reconcileJobs {count : ℕ} {P Q : Session W → Prop} (keeps : sync.KeepsRows P Q)
    {r : Except Exn (List Reconciled)} (run : (sync.reconcileJobs count).Runs t r u) (start : P t) :
    ((∃ outcomes, r = .ok outcomes) → P u) ∧ Q u := by
  obtain ⟨q, m, loop, closed, returned⟩ := reconcileJobs_cases run
  obtain ⟨after, ended⟩ := keeps.reconcilesRows loop (pending_withPendingJob count) start
  refine ⟨fun same => ?_, keeps.quietEnd closed ended⟩
  obtain ⟨outcomes, same⟩ := same
  exact keeps.quiet closed (after ⟨outcomes, returned outcomes same⟩)

/-! ## Adoption -/

/-- An adoption of offers that satisfy `V`, over the items of `I`, keeps `P`. -/
structure KeepsAdoption (sync : OfferSync W) (I : Item → Prop) (V : StoreOfferView → Prop)
    (P Q : Session W → Prop) : Prop extends sync.Keeps P Q where
  listed : ∀ {t w remotes}, P t → sync.adapter.listOffers t.world = (.ok remotes, w) →
    (∀ view ∈ remotes, V view) ∧ P { t with world := w }
  unlisted : ∀ {t w e}, P t → sync.adapter.listOffers t.world = (.error e, w) →
    Q { t with world := w }
  opened : ∀ {item t}, I item → P t → t.db.offers.find? item.mapping.id = none →
    P (t.withOffer (sync.newOffer item.mapping item.storeProduct))
  adopted : ∀ {item offer t view}, I item → V view →
    view.productExtId = item.storeProduct.productExtId → P t →
    t.db.offers.find? item.mapping.id = some offer → P (t.withOffer (adoptedRow view offer))

/-- An offer that is found in the list is in it, and on the product. -/
theorem mem_of_listedOn {remotes : List StoreOfferView} {productExtId : String}
    {view : StoreOfferView} (listed : listedOn remotes productExtId = some view) :
    view ∈ remotes ∧ view.productExtId = productExtId :=
  ⟨List.mem_reverse.mp (List.mem_of_find?_eq_some listed), by
    simpa using List.find?_some listed⟩

/-- Adopting keeps what each adoption keeps. -/
theorem KeepsAdoption.adoptItems {I : Item → Prop} {V : StoreOfferView → Prop}
    {P Q : Session W → Prop} (keeps : sync.KeepsAdoption I V P Q) {remotes : List StoreOfferView}
    (views : ∀ view ∈ remotes, V view) {items : List Item} {r : Except Exn ℕ}
    (good : ∀ item ∈ items, I item) (run : (sync.adoptItems remotes items).Runs t r u)
    (start : P t) : ((∃ n, r = .ok n) → P u) ∧ Q u := by
  induction items generalizing t r with
  | nil =>
      obtain ⟨rfl, rfl⟩ := runs_pure.mp run
      exact ⟨fun _ => start, keeps.ends start⟩
  | cons item rest ih =>
      have goodRest : ∀ item ∈ rest, I item := fun item mem => good item (List.mem_cons_of_mem _ mem)
      have goodItem := good item List.mem_cons_self
      unfold OfferSync.adoptItems at run
      cases found : listedOn remotes item.storeProduct.productExtId with
      | none =>
          rw [found] at run
          exact ih goodRest run start
      | some view =>
          rw [found] at run
          obtain ⟨listed, product⟩ := mem_of_listedOn found
          rcases runs_bind.mp run with ⟨offer, m, opened, rest'⟩ | ⟨e, opened, rfl⟩
          · have there : P m ∧ m.db.offers.find? item.mapping.id = some offer := by
              rcases offerRow_cases opened with ⟨_, stored, same, rfl⟩ | ⟨missing, quiet, fresh⟩
              · cases same
                exact ⟨start, stored⟩
              · rw [fresh _ rfl]
                refine ⟨keeps.quiet quiet (keeps.opened goodItem start missing), ?_⟩
                rw [quiet.offers]
                exact Table.find?_save_self ..
            rcases runs_ite.mp rest' with ⟨-, rest'⟩ | ⟨-, rest'⟩
            · exact ih goodRest rest' there.1
            · have after := keeps.adopted goodItem (views view listed) product there.1 there.2
              rcases runs_bind.mp (runs_modify_bind.mp rest') with ⟨n, k, later, done⟩ |
                ⟨e, later, rfl⟩
              · obtain ⟨rfl, rfl⟩ := runs_pure.mp done
                obtain ⟨returned, ended⟩ := ih goodRest later after
                exact ⟨fun _ => returned ⟨n, rfl⟩, ended⟩
              · exact ⟨fun same => (error_ne_ok same).elim,
                  (ih goodRest later after).2⟩
          · refine ⟨fun same => (error_ne_ok same).elim, ?_⟩
            rcases offerRow_cases opened with ⟨_, stored, same, rfl⟩ | ⟨missing, quiet, -⟩
            · cases same
            · exact keeps.ends (keeps.quiet quiet (keeps.opened goodItem start missing))

/-- The list of the store is read, or the call raises. -/
theorem listOffers_cases {r : Except Exn (List StoreOfferView)}
    (run : (ofState fun (t : Session W) =>
      let (answer, world) := sync.adapter.listOffers t.world
      (answer, { t with world := world })).Runs t r u) :
    ∃ w, sync.adapter.listOffers t.world = (r, w) ∧ u = { t with world := w } := by
  change ((sync.adapter.listOffers t.world).1,
    ({ t with world := (sync.adapter.listOffers t.world).2 } : Session W)) = (r, u) at run
  cases run
  exact ⟨_, rfl, rfl⟩

/-- An adoption keeps what its items keep. -/
theorem KeepsAdoption.adoptExistingOffers {I : Item → Prop} {V : StoreOfferView → Prop}
    {P Q : Session W → Prop} (keeps : sync.KeepsAdoption I V P Q) {r : Except Exn Adoption}
    (good : ∀ item ∈ sync.syncable t.db none, I item)
    (run : (sync.adoptExistingOffers).Runs t r u) (start : P t) :
    ((∃ adoption, r = .ok adoption) → P u) ∧ Q u := by
  unfold OfferSync.adoptExistingOffers at run
  rcases runs_bind.mp run with ⟨remotes, m, listed, rest⟩ | ⟨e, listed, rfl⟩
  · obtain ⟨w, answer, rfl⟩ := listOffers_cases listed
    obtain ⟨views, after⟩ := keeps.listed start answer
    rw [runs_get_bind] at rest
    rcases runs_bind.mp rest with ⟨adopted, n, items, rest⟩ | ⟨e, items, rfl⟩
    · have done := (keeps.adoptItems views good items after).1 ⟨adopted, rfl⟩
      rcases runs_bind.mp rest with ⟨⟨⟩, k, flushed, rest⟩ | ⟨e, flushed, rfl⟩
      · have done := keeps.quiet (quiet_flushSession flushed).1 done
        rw [runs_get_bind] at rest
        rcases runs_bind.mp rest with ⟨⟨⟩, k', flushed, rest⟩ | ⟨e, flushed, rfl⟩
        · have done := keeps.quiet (quiet_flushSession flushed).1 done
          obtain ⟨rfl, rfl⟩ := runs_pure.mp rest
          exact ⟨fun _ => done, keeps.ends done⟩
        · exact ⟨fun same => (error_ne_ok same).elim,
            keeps.ends (keeps.quiet (quiet_flushSession flushed).1 done)⟩
      · exact ⟨fun same => (error_ne_ok same).elim,
          keeps.ends (keeps.quiet (quiet_flushSession flushed).1 done)⟩
    · exact ⟨fun same => (error_ne_ok same).elim,
        (keeps.adoptItems views good items after).2⟩
  · obtain ⟨w, answer, rfl⟩ := listOffers_cases listed
    exact ⟨fun same => (error_ne_ok same).elim, keeps.unlisted start answer⟩

/-! ## The end of a session -/

/-- What a session leaves, from where its body ended. -/
inductive Ends {α : Type} (sync : OfferSync W) (db : Db) (r : Except Exn α) (u : Session W) :
    Left W α → Prop
  | committed {a v} (returned : r = .ok a) (quiet : sync.Quiet u v) :
      Ends sync db r u ⟨.ok a, v.db, v.world, v.trace⟩
  | rolledBack {e v} (quiet : sync.Quiet u v) : Ends sync db r u ⟨.error e, db, v.world, v.trace⟩

/-- A session runs its body and then commits or rolls back. -/
theorem sessionScope_spec {α : Type} (body : Prog Exn (Session W) α) (db : Db) (world : W)
    (trace : List Entry) :
    ∃ r u, body.Runs ⟨db, world, trace, []⟩ r u ∧
      sync.Ends db r u (sync.sessionScope body db world trace) := by
  unfold sessionScope
  generalize result : (do let a ← body; sync.flushSession; pure a : Prog Exn (Session W) α).exec
    ⟨db, world, trace, []⟩ = left
  obtain ⟨q, v⟩ := left
  rcases runs_bind.mp result with ⟨a, u, ran, rest⟩ | ⟨e, ran, rfl⟩
  · rcases runs_bind.mp rest with ⟨⟨⟩, v', flushed, rest⟩ | ⟨e, flushed, rfl⟩
    · obtain ⟨rfl, rfl⟩ := runs_pure.mp rest
      exact ⟨.ok a, u, ran, .committed rfl (quiet_flushSession flushed).1⟩
    · exact ⟨.ok a, u, ran, .rolledBack (quiet_flushSession flushed).1⟩
  · exact ⟨.error e, v, ran, .rolledBack (.refl _)⟩

/-- A session whose body keeps `P` leaves a database with `P` when it commits, and
the old database when it does not. -/
theorem Keeps.sessionScope {α : Type} {P Q : Session W → Prop} (keeps : sync.Keeps P Q)
    {body : Prog Exn (Session W) α} {db : Db} {world : W} {trace : List Entry}
    (kept : ∀ {r u}, body.Runs ⟨db, world, trace, []⟩ r u → ((∃ a, r = .ok a) → P u) ∧ Q u)
    {left : Left W α} (ended : left = sync.sessionScope body db world trace) :
    (∃ a stats, left.result = .ok a ∧ P ⟨left.db, left.world, left.trace, stats⟩) ∨
      ∃ e db' stats, left.result = .error e ∧ left.db = db ∧
        Q ⟨db', left.world, left.trace, stats⟩ := by
  obtain ⟨r, u, run, ends⟩ := sync.sessionScope_spec body db world trace
  obtain ⟨returned, raised⟩ := kept run
  rw [← ended] at ends
  cases ends with
  | @committed a v same quiet =>
      exact Or.inl ⟨a, v.stats, rfl, keeps.quiet quiet (returned ⟨a, same⟩)⟩
  | @rolledBack e v quiet =>
      exact Or.inr ⟨e, v.db, v.stats, rfl, rfl, keeps.quietEnd quiet raised⟩

end OfferSync

end FazerBridge
