import FazerBridge.Lib.Preserves
import FazerBridge.OfferSync.Mirror
import FazerBridge.Recorder
import FazerBridge.Worker

/-!
# The jobs of the worker

`build_jobs` of `app/worker.py`.  Each job is one session; a feed is what its source yields
while the job runs.  `Turn` is one session of the whole system: a job of the worker, or what
a reviewer or an operator does by hand.

Whatever a signal interrupts, an execution of the worker is a sequence of the sessions of its
jobs, each whole or rolled back (`exec_turns`).  Each table has one writer: it only changes
in a session of its owner that commits (`single_writer`).
-/

namespace FazerBridge

open Prog
open OfferSync (Session Left)

/-- The jobs of `build_jobs`. -/
inductive WorkerJob
  | supplierCatalogue (feed : Feed SupplierItem)
  | storeCatalogue (feed : Feed StoreCatalogItem)
  | matching
  | offers

/-- What a session of the system is for. -/
inductive Purpose
  /-- by hand, or a move of the world -/
  | act (action : Action)
  | job (job : WorkerJob)

namespace Service

variable {W : Type} (service : Service W)

/-- The body of `_match`. -/
def matchBody : Prog Exn (Session W) Unit :=
  Prog.ofState fun t =>
    match service.engine.run t.db true none with
    | .ok (db, _) => (.ok (), { t with db := db })
    | .error e => (.error (.database e), t)

def matchSession (bridge : Bridge W) : Left W Unit :=
  service.offers.sessionScope service.matchBody bridge.db bridge.world bridge.trace

/-- How a session of a job ends, and what it leaves. -/
def ended {α : Type} (left : Left W α) : Ending × Bridge W :=
  (match left.result with
    | .ok _ => .returned
    | .error _ => .raised, .left left)

/-- `_sync_supplier_catalogue`, `_sync_store_catalogue`, `_match` and `_sync_offers` -/
def runWorkerJob (bridge : Bridge W) : WorkerJob → Ending × Bridge W
  | .supplierCatalogue feed => ended (service.runJob (.supplierCatalogue feed) bridge)
  | .storeCatalogue feed => ended (service.runJob (.storeCatalogue feed) bridge)
  | .matching => ended (service.matchSession bridge)
  | .offers => ended (service.runJob .offers bridge)

/-- One session of the system. -/
inductive Turn (moves : W → W → Prop) (bridge : Bridge W) : Purpose → Bridge W → Prop
  | act {action bridge'} (step : service.Step moves bridge action bridge') :
      Turn moves bridge (.act action) bridge'
  | job (job : WorkerJob) : Turn moves bridge (.job job) (service.runWorkerJob bridge job).2

/-! ## What the bodies preserve -/

section Preserving

variable {service : Service W} {P : Session W → Prop}

/-- A flush preserves it. -/
theorem flushSession_preserves (keeps : service.offers.Keeps P P) :
    Preserves P service.offers.flushSession :=
  fun _ _ _ ran => keeps.quiet (OfferSync.quiet_flushSession ran).1

/-- The recorder only writes its own table. -/
theorem recorded_preserves (keeps : service.offers.Keeps P P) {kind : String}
    {block : Prog Exn (Session W) Unit} (kept : Preserves P block) :
    Preserves P (service.offers.recorded kind block) := by
  have closes : ∀ error, Preserves P (service.offers.closeRun kind error) :=
    fun error _ _ _ ran => keeps.quiet (OfferSync.quiet_closeRun ran)
  refine preserves_bind (flushSession_preserves keeps) fun _ => preserves_bind ?_ fun _ =>
    preserves_bind (closes none) fun _ => preserves_bind preserves_get fun _ => preserves_pure _
  exact preserves_tryCatch kept fun e => preserves_bind (closes _) fun _ => preserves_throw e

/-- The body of a job preserves what its block and the parts around it do. -/
theorem jobBody_preserves (keeps : service.offers.Keeps P P) {job : Recording W}
    (before : Preserves P job.before) (block : ∀ t, P t → Preserves P (job.block t))
    (after : Preserves P job.after) : Preserves P (service.jobBody job) :=
  preserves_bind before fun _ => preserves_get_bind fun t kept =>
    preserves_bind (recorded_preserves keeps (block t kept)) fun _ =>
      preserves_bind after fun _ => preserves_pure _

theorem raiseIf_preserves (raised : Option Exn) : Preserves P (raiseIf raised) := by
  unfold raiseIf
  split
  · exact preserves_throw _
  · exact preserves_pure _

/-- The body of a supplier pull preserves it if its writes do. -/
theorem supplierBody_preserves (keeps : service.offers.Keeps P P)
    (writes : ∀ {t : Session W} {suppliers supplierProducts stats}, P t →
      P { t with
          db := { t.db with suppliers := suppliers, supplierProducts := supplierProducts }
          stats := stats })
    (feed : Feed SupplierItem) :
    Preserves P (service.jobBody (service.recording (.supplierCatalogue feed))) := by
  refine jobBody_preserves keeps ?_ (fun t kept => ?_) (preserves_pure _)
  · refine preserves_get_bind fun t kept => preserves_ite (fun _ => preserves_pure _) fun _ => ?_
    exact preserves_bind (preserves_modify fun t kept => writes kept) fun _ =>
      flushSession_preserves keeps
  · exact preserves_bind (preserves_modify fun t kept => writes kept) fun _ =>
      preserves_bind (raiseIf_preserves feed.raised) fun _ =>
        preserves_bind (preserves_modify fun t kept => writes kept) fun _ =>
          preserves_bind (flushSession_preserves keeps) fun _ =>
            preserves_modify fun t kept => writes kept

/-- The body of a store crawl preserves it if its writes do. -/
theorem storeBody_preserves (keeps : service.offers.Keeps P P)
    (writes : ∀ {t : Session W} {storeProducts stats}, P t →
      P { t with db := { t.db with storeProducts := storeProducts }, stats := stats })
    (feed : Feed StoreCatalogItem) :
    Preserves P (service.jobBody (service.recording (.storeCatalogue feed))) := by
  have items : ∀ items, Preserves P (service.storeItems service.storeCatalog items) := by
    intro items
    induction items with
    | nil => exact preserves_pure _
    | cons item rest ih =>
        refine preserves_bind (flushSession_preserves keeps) fun _ => preserves_bind ?_ fun _ => ih
        refine preserves_ofState fun t kept => ?_
        dsimp only
        split
        · exact writes kept
        · exact kept
  exact jobBody_preserves keeps (preserves_pure _) (fun t kept => preserves_bind (items feed.items)
    fun _ => preserves_bind (raiseIf_preserves feed.raised) fun _ => flushSession_preserves keeps)
    (preserves_pure _)

/-- The session of the offers is a run and a reconciliation, committed together. -/
theorem offersBody_eq : service.jobBody (service.recording .offers) = (do
    let stats ← service.offers.run none false
    let _ ← service.offers.reconcileJobs 200
    pure stats) := by
  unfold jobBody recording
  simp only [pure_bind, bind_assoc, OfferSync.run_eq_recorded]

/-- The body of the offer job keeps what a run and a reconciliation keep. -/
theorem offersBody_keeps {Q : Session W → Prop} {I : OfferSync.Item → Prop} {t u : Session W}
    {r : Except Exn Stats}
    (items : service.offers.KeepsItems false (service.offers.now t.world) I P Q)
    (rows : service.offers.KeepsRows P Q)
    (good : ∀ item ∈ service.offers.syncable t.db none, I item)
    (run : (service.jobBody (service.recording .offers)).Runs t r u) (start : P t) :
    ((∃ stats, r = .ok stats) → P u) ∧ Q u := by
  rw [offersBody_eq] at run
  rcases runs_bind.mp run with ⟨stats, m, synced, rest⟩ | ⟨e, synced, rfl⟩
  · have kept := (items.run good synced start).1 ⟨stats, rfl⟩
    rcases runs_bind.mp rest with ⟨outcomes, n, reconciled, rest⟩ | ⟨e, reconciled, rfl⟩
    · obtain ⟨-, rfl⟩ := runs_pure.mp rest
      obtain ⟨after, ended⟩ := rows.reconcileJobs reconciled kept
      exact ⟨fun _ => after ⟨outcomes, rfl⟩, ended⟩
    · exact ⟨fun same => (error_ne_ok same).elim, (rows.reconcileJobs reconciled kept).2⟩
  · exact ⟨fun same => (error_ne_ok same).elim, (items.run good synced start).2⟩

end Preserving

/-! ## Who writes what -/

end Service

/-- Whose tables a session writes. -/
def Purpose.owner : Purpose → Option Owner
  | .act (.pullSupplier ..) | .job (.supplierCatalogue _) => some .supplierPull
  | .job (.storeCatalogue _) => some .storeCrawl
  | .act (.matchProducts ..) | .act (.approve ..) | .act (.reject ..) | .job .matching =>
    some .matching
  | .act (.price (.setPricing ..)) | .act (.price (.mapPrice ..)) => some .matching
  | .act .adopt | .act (.syncOffers ..) | .act (.reconcile _) | .job .offers => some .offerSync
  | .act (.price (.listOffers ..)) | .act .elapse => none

namespace OfferSync

variable {W : Type} {sync : OfferSync W} {owner : Owner} {db : Db} {t u : Session W}

/-- A quiet part touches no table but the runs and the rates. -/
theorem Quiet.same (quiet : sync.Quiet t u) (same : owner.Same db t.db) : owner.Same db u.db := by
  refine same.trans ?_
  cases owner with
  | supplierPull => exact quiet.supplierProducts
  | storeCrawl => exact quiet.storeProducts
  | matching => exact quiet.mappings
  | offerSync => exact ⟨quiet.offers, quiet.log⟩

/-- The tables of an owner in a session. -/
def Spares (owner : Owner) (db : Db) (t : Session W) : Prop := owner.Same db t.db

/-- The offer sync spares the tables of the others. -/
theorem keeps_spares : sync.Keeps (Spares owner db) (Spares owner db) where
  quiet := Quiet.same
  quietEnd := Quiet.same
  ends := id

/-- The offer sync leaves the tables of the others. -/
theorem spares_offers (other : owner ≠ .offerSync) {new : Db} (same : owner.Same db t.db)
    (rest : new.mappings = t.db.mappings ∧ new.supplierProducts = t.db.supplierProducts ∧
      new.storeProducts = t.db.storeProducts) : owner.Same db new := by
  refine same.trans ?_
  cases owner with
  | supplierPull => exact rest.2.1
  | storeCrawl => exact rest.2.2
  | matching => exact rest.1
  | offerSync => exact absurd rfl other

/-- The turn of an item spares them. -/
theorem items_spare (other : owner ≠ .offerSync) (dryRun : Bool) (now : Time) :
    sync.KeepsItems dryRun now (fun _ => True) (Spares owner db) (Spares owner db) where
  toKeeps := keeps_spares
  opened _ same _ := spares_offers other same ⟨rfl, rfl, rfl⟩
  synced _ same _ _ := spares_offers other same ⟨rfl, rfl, rfl⟩
  raised _ same _ _ := spares_offers other same ⟨rfl, rfl, rfl⟩

/-- The turn of a pending row spares them. -/
theorem rows_spare (other : owner ≠ .offerSync) :
    sync.KeepsRows (Spares owner db) (Spares owner db) where
  toKeeps := keeps_spares
  reconciled same _ _ _ _ := spares_offers other same ⟨rfl, rfl, rfl⟩
  raised same _ _ _ _ := spares_offers other same ⟨rfl, rfl, rfl⟩

/-- Adoption spares them. -/
theorem adoption_spares (other : owner ≠ .offerSync) :
    sync.KeepsAdoption (fun _ => True) (fun _ => True) (Spares owner db) (Spares owner db) where
  toKeeps := keeps_spares
  listed same _ := ⟨fun _ _ => trivial, same⟩
  unlisted same _ := same
  opened _ same _ := spares_offers other same ⟨rfl, rfl, rfl⟩
  adopted _ _ _ same _ := spares_offers other same ⟨rfl, rfl, rfl⟩

end OfferSync

namespace Service

open OfferSync

variable {W : Type} {service : Service W} {owner : Owner} {db : Db} {bridge : Bridge W}

/-- A session leaves the tables that its body leaves. -/
theorem session_spares {α : Type} {body : Prog Exn (Session W) α}
    (spares : Preserves (Spares owner bridge.db) body) :
    owner.Same bridge.db
      (service.offers.sessionScope body bridge.db bridge.world bridge.trace).db := by
  have keeps : service.offers.Keeps (Spares owner bridge.db) (Spares owner bridge.db) := keeps_spares
  rcases keeps.sessionScope (fun ran =>
    ⟨fun _ => spares _ _ _ ran (.refl ..), spares _ _ _ ran (.refl ..)⟩) rfl
    with ⟨a, stats, -, kept⟩ | ⟨e, db', stats, -, same, -⟩
  · exact kept
  · rw [same]
    exact .refl ..

/-! ### The sessions -/

/-- A supplier pull spares every table but its own. -/
theorem supplierJob_spares (feed : Feed SupplierItem) (other : owner ≠ .supplierPull) :
    owner.Same bridge.db (service.runJob (.supplierCatalogue feed) bridge).db := by
  refine session_spares (supplierBody_preserves keeps_spares (fun same => same.trans ?_) feed)
  cases owner with
  | supplierPull => exact absurd rfl other
  | storeCrawl | matching => rfl
  | offerSync => exact ⟨rfl, rfl⟩

/-- A store crawl spares every table but its own. -/
theorem storeJob_spares (feed : Feed StoreCatalogItem) (other : owner ≠ .storeCrawl) :
    owner.Same bridge.db (service.runJob (.storeCatalogue feed) bridge).db := by
  refine session_spares (storeBody_preserves keeps_spares (fun same => same.trans ?_) feed)
  cases owner with
  | storeCrawl => exact absurd rfl other
  | supplierPull | matching => rfl
  | offerSync => exact ⟨rfl, rfl⟩

/-- The offer job spares every table but its own. -/
theorem offersJob_spares (other : owner ≠ .offerSync) :
    owner.Same bridge.db (service.runJob .offers bridge).db :=
  session_spares fun _ _ _ ran start => (offersBody_keeps (items_spare other false _)
    (rows_spare other) (fun _ _ => trivial) ran start).2

/-- A change of pricing only writes its mapping. -/
theorem reprices_spares (other : owner ≠ .matching) {t u : Session W}
    (reprices : AdminApi.Reprices t u) (same : Spares owner db t) : Spares owner db u := by
  cases reprices with
  | kept => exact same
  | written => exact Owner.Same.trans same (withMappings_same other ..)

/-- A matching spares every table but its own. -/
theorem matchSession_spares (other : owner ≠ .matching) :
    owner.Same bridge.db (service.matchSession bridge).db := by
  refine session_spares (preserves_ofState fun t same => ?_)
  split
  · rename_i ran
    exact same.trans (matches_same other ran)
  · exact same

/-! ### Every session -/

/-- A session by hand spares the tables of the other writers. -/
theorem Step.spares {moves : W → W → Prop} {bridge' : Bridge W} {action : Action}
    (step : service.Step moves bridge action bridge')
    (other : (Purpose.act action).owner ≠ some owner) : owner.Same bridge.db bridge'.db := by
  have apart : ∀ {o}, (Purpose.act action).owner = some o → owner ≠ o :=
    fun owns same => other (same ▸ owns)
  have committed : ∀ {ε α : Type} {result : Except ε α} {written : α → Db},
      (∀ a, result = .ok a → owner.Same bridge.db (written a)) →
      owner.Same bridge.db (bridge.committed result written).db := by
    intro ε α result written same
    cases result with
    | ok a => exact same a rfl
    | error e => exact .refl ..
  cases step with
  | pullSupplier =>
      have other : owner ≠ .supplierPull := apart rfl
      cases owner with
      | supplierPull => exact absurd rfl other
      | storeCrawl | matching => rfl
      | offerSync => exact ⟨rfl, rfl⟩
  | matchProducts => exact committed fun out ran => matches_same (apart rfl) ran
  | approve => exact committed fun db approved => approve_same (apart rfl) approved
  | reject => exact committed fun db rejected => reject_same (apart rfl) rejected
  | adopt =>
      exact session_spares fun _ _ _ ran start => ((adoption_spares (apart rfl)).adoptExistingOffers
        (fun _ _ => trivial) ran start).2
  | syncOffers =>
      exact session_spares fun _ _ _ ran start => ((items_spare (apart rfl) _ _).run
        (fun _ _ => trivial) ran start).2
  | reconcile =>
      exact session_spares fun _ _ _ ran start =>
        ((rows_spare (apart rfl)).reconcileJobs ran start).2
  | @price source call priced =>
      cases call with
      | listOffers collation query =>
          exact session_spares fun _ _ _ ran start =>
            (AdminApi.PricingCall.quiet priced ran).same start
      | setPricing | mapPrice =>
          exact session_spares (AdminApi.PricingCall.preserves priced keeps_spares
            (reprices_spares (apart rfl)) _)
  | elapse moved => exact .refl ..

/-- Every session spares the tables of the other writers. -/
theorem Turn.spares {moves : W → W → Prop} {bridge' : Bridge W} {purpose : Purpose}
    (turn : service.Turn moves bridge purpose bridge')
    (other : purpose.owner ≠ some owner) : owner.Same bridge.db bridge'.db := by
  cases turn with
  | act step => exact step.spares other
  | job job =>
      have apart : ∀ {o}, (Purpose.job job).owner = some o → owner ≠ o :=
        fun owns same => other (same ▸ owns)
      cases job with
      | supplierCatalogue feed => exact supplierJob_spares feed (apart rfl)
      | storeCatalogue feed => exact storeJob_spares feed (apart rfl)
      | matching => exact matchSession_spares (apart rfl)
      | offers => exact offersJob_spares (apart rfl)

/-- The session commits, if the purpose opens one that can be rolled back. -/
def Succeeds (service : Service W) (bridge : Bridge W) : Purpose → Prop
  | .act action => service.Commits bridge action
  | .job job => (service.runWorkerJob bridge job).1 = .returned

/-- A session that is rolled back leaves the database as it was. -/
theorem session_rolledBack {α : Type} {body : Prog Exn (Session W) α}
    (failed : ¬ ∃ a, (service.offers.sessionScope body bridge.db bridge.world bridge.trace).result =
      .ok a) :
    (service.offers.sessionScope body bridge.db bridge.world bridge.trace).db = bridge.db := by
  cases result : (service.offers.sessionScope body bridge.db bridge.world bridge.trace).result with
  | ok a => exact absurd ⟨a, result⟩ failed
  | error e => exact sessionScope_failed result

theorem ended_returned_iff {α : Type} {left : Left W α} :
    (ended left).1 = .returned ↔ ∃ a, left.result = .ok a := by
  unfold ended
  cases left.result with
  | ok a => exact ⟨fun _ => ⟨a, rfl⟩, fun _ => rfl⟩
  | error e => exact ⟨fun same => (by cases same), fun same => (error_ne_ok same).elim⟩

/-- A session that does not commit leaves the database as it was. -/
theorem Turn.rolledBack {moves : W → W → Prop} {bridge' : Bridge W} {purpose : Purpose}
    (turn : service.Turn moves bridge purpose bridge')
    (fails : ¬ service.Succeeds bridge purpose) : bridge'.db = bridge.db := by
  cases turn with
  | act step =>
      cases step with
      | adopt | syncOffers | reconcile => exact session_rolledBack fails
      | price priced => exact session_rolledBack fun returned => fails ⟨_, priced, returned⟩
      | pullSupplier | matchProducts | approve | reject | elapse => exact absurd trivial fails
  | job job =>
      cases job with
      | supplierCatalogue | storeCatalogue | matching | offers =>
          exact session_rolledBack fun returned => fails (ended_returned_iff.mpr returned)

/-- Each table has one writer: in every run of sessions, by the worker and by hand, none of
which is a session of the owner that commits, the tables of the owner stay as they were. -/
theorem single_writer (service : Service W) (moves : W → W → Prop) (owner : Owner)
    {start bridge : Bridge W}
    (run : Relation.ReflTransGen (Runs.Allowed (service.Turn moves) fun bridge purpose =>
      purpose.owner = some owner → ¬ service.Succeeds bridge purpose) start bridge) :
    owner.Same start.db bridge.db := by
  have step : ∀ b purpose b', owner.Same start.db b.db →
      (purpose.owner = some owner → ¬ service.Succeeds b purpose) →
      service.Turn moves b purpose b' → owner.Same start.db b'.db := by
    intro b purpose b' before foreign turn
    by_cases own : purpose.owner = some owner
    · rw [turn.rolledBack (foreign own)]
      exact before
    · exact before.trans (turn.spares own)
  exact Runs.invariant step run (.refl ..)

end Service

/-! ## The worker -/

/-- What the jobs read. -/
structure Sources (W : Type) where
  /-- the supplier's catalogue -/
  supplier : W → Feed SupplierItem × W
  /-- what changed in the store's catalogue in the last 26 hours -/
  store : W → Feed StoreCatalogItem × W

namespace Service

variable {W : Type} (service : Service W)

/-- A job with what its source yields. -/
def fed {α : Type} (source : W → Feed α × W) (job : Feed α → WorkerJob) (bridge : Bridge W) :
    Ending × Bridge W :=
  let (feed, w) := source bridge.world
  service.runWorkerJob { bridge with world := w } (job feed)

def buildJobs (sources : Sources W) (catalogSyncMinutes priceStockSyncMinutes : ℤ) :
    List (Job (Bridge W)) :=
  [ { name := "supplier-catalogue"
      intervalSeconds := catalogSyncMinutes * 60
      run := service.fed sources.supplier .supplierCatalogue
      initialDelay := 5 },
    { name := "store-catalogue"
      intervalSeconds := max 6 catalogSyncMinutes * 60 * 4
      run := service.fed sources.store .storeCatalogue
      initialDelay := 120 },
    { name := "matching"
      intervalSeconds := catalogSyncMinutes * 60
      run := fun bridge => service.runWorkerJob bridge .matching
      initialDelay := 60 },
    { name := "offers"
      intervalSeconds := priceStockSyncMinutes * 60
      run := fun bridge => service.runWorkerJob bridge .offers
      initialDelay := 90 } ]

end Service

namespace Worker

variable {W : Type} (worker : Worker W)

/-- The worker of a database in its world. -/
def onBridge : Worker (Bridge W) where
  clock bridge :=
    let (now, w) := worker.clock bridge.world
    (now, { bridge with world := w })
  sleep seconds bridge := { bridge with world := worker.sleep seconds bridge.world }

/-- The jobs of a worker, wherever it is. -/
def Place.jobs : Place W → List (Job W)
  | .looping jobs | .ticking jobs | .sleeping jobs | .stopped jobs => jobs
  | .scanning _ done rest => done ++ rest
  | .running _ done job rest | .rescheduling _ done job rest => done ++ job :: rest

/-- The positions of the jobs that have run to their end, the latest first. -/
def State.finished (s : State W) : List ℕ :=
  match s.place with
  | .running .. => s.started.tail
  | _ => s.started

/-- The jobs at these positions have run, the latest first, one after the other. -/
inductive Ran (worker : Worker W) (runs : List (W → Ending × W)) (start : W) : List ℕ → W → Prop
  | start : Ran worker runs start [] start
  | clock {log w} (before : Ran worker runs start log w) : Ran worker runs start log (worker.clock w).2
  | sleep {log w} (seconds : ℚ) (before : Ran worker runs start log w) :
      Ran worker runs start log (worker.sleep seconds w)
  | job {log w i run} (before : Ran worker runs start log w) (at_ : runs[i]? = some run) :
      Ran worker runs start (i :: log) (run w).2

variable {worker}

/-- The jobs keep their places, and the world is where those that ran have left it. -/
structure Tells (worker : Worker W) (runs : List (W → Ending × W)) (start : W) (s : State W) :
    Prop where
  kept : s.place.jobs.map Job.run = runs
  ran : Ran worker runs start s.finished s.world
  current : ∀ {now done job rest}, s.place = .running now done job rest →
    s.started = done.length :: s.finished

/-- One step of the worker goes on with the story its runs tell. -/
theorem Tells.advance {runs : List (W → Ending × W)} {start : W} {s : State W} (pollSeconds : ℚ)
    (tells : Tells worker runs start s) : Tells worker runs start (worker.advance pollSeconds s) := by
  obtain ⟨same, ran, current⟩ := tells
  obtain ⟨place, stopping, w, started⟩ := s
  cases place with
  | looping jobs =>
      cases stopping with
      | false => exact ⟨same, ran, nofun⟩
      | true => exact ⟨same, ran, nofun⟩
  | ticking jobs => exact ⟨same, .clock ran, nofun⟩
  | scanning now done rest =>
      cases rest with
      | nil =>
          refine ⟨?_, ran, nofun⟩
          rw [← same]
          exact congrArg _ (List.append_nil done).symm
      | cons job rest =>
          unfold Worker.advance
          dsimp only
          split
          · refine ⟨?_, ran, fun here => by cases here; rfl⟩
            rw [← same]
            simp [Place.jobs, Job.started]
          · refine ⟨?_, ran, nofun⟩
            rw [← same]
            simp [Place.jobs]
  | running now done job rest =>
      have begun : started = done.length :: started.tail := current rfl
      have at_ : runs[done.length]? = some job.run := by
        rw [← same]
        simp [Place.jobs]
      refine ⟨?_, ?_, nofun⟩
      · rw [← same]
        simp [Worker.advance, Place.jobs, Job.ended]
      · have after := Ran.job ran at_
        change Ran worker runs start (done.length :: started.tail) (job.run w).2 at after
        rw [← begun] at after
        exact after
  | rescheduling now done job rest =>
      refine ⟨?_, .clock ran, nofun⟩
      rw [← same]
      simp [Worker.advance, Place.jobs, Job.released, Job.scheduleNext]
  | sleeping jobs => exact ⟨same, .sleep pollSeconds ran, nofun⟩
  | stopped jobs => exact ⟨same, ran, nofun⟩

/-- Whatever signals come, the jobs that were started ran to their end, one after the other, but
for the one that is running. -/
theorem Tells.exec {runs : List (W → Ending × W)} {start : W} {s : State W} (pollSeconds : ℚ)
    (tells : Tells worker runs start s) (events : List Event) :
    Tells worker runs start (worker.exec pollSeconds events s) := by
  induction events generalizing s with
  | nil => exact tells
  | cons event rest ih =>
      rw [exec_cons]
      cases event with
      | signal => exact ih ⟨tells.kept, tells.ran, tells.current⟩
      | work => exact ih (tells.advance pollSeconds)

end Worker

namespace Service

open Worker (onBridge)

variable {W : Type} (service : Service W)

/-- The body of the session of a job. -/
def jobProgram : WorkerJob → Prog Exn (Session W) Unit
  | .supplierCatalogue feed =>
    (fun _ => ()) <$> service.jobBody (service.recording (.supplierCatalogue feed))
  | .storeCatalogue feed =>
    (fun _ => ()) <$> service.jobBody (service.recording (.storeCatalogue feed))
  | .matching => (fun _ => ()) <$> service.matchBody
  | .offers => (fun _ => ()) <$> service.jobBody (service.recording .offers)

/-- A body that ran from its beginning to its end: what it wrote is committed, or the database
is as it was. -/
inductive Settles (program : Prog Exn (Session W) Unit) (bridge : Bridge W) :
    Ending → Bridge W → Prop
  | committed {u w} (ran : program.Runs (opening bridge) (.ok ()) u)
      (used : Relation.ReflTransGen service.offers.Uses u.world w) :
      Settles program bridge .returned ⟨u.db, w, u.trace⟩
  | rolledBack {r u w} (ran : program.Runs (opening bridge) r u)
      (used : Relation.ReflTransGen service.offers.Uses u.world w) :
      Settles program bridge .raised ⟨bridge.db, w, u.trace⟩

/-- The job at a position of `build_jobs`, with what its source yields, and the world after the
source was read. -/
def jobAt (sources : Sources W) (w : W) : ℕ → Option (WorkerJob × W)
  | 0 => some (.supplierCatalogue (sources.supplier w).1, (sources.supplier w).2)
  | 1 => some (.storeCatalogue (sources.store w).1, (sources.store w).2)
  | 2 => some (.matching, w)
  | 3 => some (.offers, w)
  | _ => none

/-- What the worker has done: the sessions of its jobs, at these positions, the latest first, each
of them whole or rolled back, and between two of them moves of the world. -/
inductive Worked (sources : Sources W) (moves : W → W → Prop) (start : Bridge W) :
    List ℕ → Bridge W → Prop
  | start : Worked sources moves start [] start
  | idle {log bridge w} (before : Worked sources moves start log bridge)
      (moved : moves bridge.world w) : Worked sources moves start log { bridge with world := w }
  | job {log bridge i job w ending bridge'} (before : Worked sources moves start log bridge)
      (at_ : jobAt sources bridge.world i = some (job, w))
      (turn : service.Turn moves { bridge with world := w } (.job job) bridge')
      (settles : service.Settles (service.jobProgram job) { bridge with world := w } ending bridge') :
      Worked sources moves start (i :: log) bridge'

variable {service}

/-- The world moves by itself while the worker reads its clock or sleeps. -/
structure Idles (worker : Worker W) (moves : W → W → Prop) : Prop where
  clock : ∀ w, moves w (worker.clock w).2
  sleep : ∀ seconds w, moves w (worker.sleep seconds w)

/-- A session commits the whole of what its body did, or nothing. -/
theorem sessionScope_settles {α : Type} (body : Prog Exn (Session W) α) (bridge : Bridge W) :
    let left := service.offers.sessionScope body bridge.db bridge.world bridge.trace
    service.Settles ((fun _ => ()) <$> body) bridge (ended left).1 (ended left).2 := by
  dsimp only
  unfold OfferSync.sessionScope
  generalize ran : (do
    let a ← body
    service.offers.flushSession
    pure a : Prog Exn (Session W) α).exec ⟨bridge.db, bridge.world, bridge.trace, []⟩ = outcome
  obtain ⟨q, v⟩ := outcome
  rcases runs_bind.mp ran with ⟨a, u, done, rest⟩ | ⟨e, raised, rfl⟩
  · have whole : ((fun _ => ()) <$> body).Runs (opening bridge) (.ok ()) u :=
      runs_map.mpr ⟨.ok a, done, rfl⟩
    rcases runs_bind.mp rest with ⟨⟨⟩, n, flushed, last⟩ | ⟨e, flushed, rfl⟩
    · obtain ⟨rfl, rfl⟩ := runs_pure.mp last
      obtain ⟨quiet, rfl⟩ := OfferSync.quiet_flushSession flushed
      exact .committed whole quiet.world
    · obtain ⟨quiet, rfl⟩ := OfferSync.quiet_flushSession flushed
      exact .rolledBack whole quiet.world
  · exact .rolledBack (runs_map.mpr ⟨.error e, raised, rfl⟩) .refl

/-- Every session of a job settles. -/
theorem runWorkerJob_settles (bridge : Bridge W) (job : WorkerJob) :
    service.Settles (service.jobProgram job) bridge (service.runWorkerJob bridge job).1
      (service.runWorkerJob bridge job).2 := by
  cases job with
  | supplierCatalogue | storeCatalogue | matching | offers => exact sessionScope_settles _ bridge

/-- A run of the job at a position is its session. -/
theorem jobAt_of_runs {sources : Sources W} {catalogSyncMinutes priceStockSyncMinutes : ℤ} {i : ℕ}
    {run : Bridge W → Ending × Bridge W}
    (at_ : ((service.buildJobs sources catalogSyncMinutes priceStockSyncMinutes).map Job.run)[i]? =
      some run) (bridge : Bridge W) :
    ∃ job w, jobAt sources bridge.world i = some (job, w) ∧
      run bridge = service.runWorkerJob { bridge with world := w } job := by
  match i with
  | 0 | 1 | 2 | 3 =>
      cases at_
      exact ⟨_, _, rfl, rfl⟩
  | i + 4 => cases at_

/-- Every execution of the worker, with signals at any point, is a sequence of the sessions of
the jobs it has run, one after the other, each of them whole or rolled back, and moves of the
world; the jobs it has run are those it has started, but for the one that is running. -/
theorem exec_turns (service : Service W) (worker : Worker W) (sources : Sources W)
    (moves : W → W → Prop) (idles : Idles worker moves)
    (catalogSyncMinutes priceStockSyncMinutes : ℤ) (pollSeconds : ℚ) (events : List Worker.Event)
    (bridge : Bridge W) :
    let s := worker.onBridge.exec pollSeconds events (worker.onBridge.atStart
      (service.buildJobs sources catalogSyncMinutes priceStockSyncMinutes) bridge)
    service.Worked sources moves bridge s.finished s.world ∧
      (s.started = s.finished ∨ ∃ now done job rest, s.place = .running now done job rest ∧
        s.started = done.length :: s.finished) := by
  have begins : Worker.Tells worker.onBridge
      ((service.buildJobs sources catalogSyncMinutes priceStockSyncMinutes).map Job.run) bridge
      (worker.onBridge.atStart
        (service.buildJobs sources catalogSyncMinutes priceStockSyncMinutes) bridge) :=
    ⟨rfl, .clock .start, nofun⟩
  obtain ⟨-, ran, current⟩ := begins.exec pollSeconds events
  intro s
  constructor
  · change Worker.Ran _ _ _ s.finished s.world at ran
    generalize s.finished = log, s.world = last at ran
    induction ran with
    | start => exact .start
    | clock _ ih => exact .idle ih (idles.clock _)
    | sleep seconds _ ih => exact .idle ih (idles.sleep seconds _)
    | @job log b i run _ at_ ih =>
        obtain ⟨job, w, read, session⟩ := jobAt_of_runs at_ b
        rw [session]
        exact .job ih read (.job job) (runWorkerJob_settles _ job)
  · cases place : s.place with
    | running now done job rest => exact .inr ⟨now, done, job, rest, rfl, current place⟩
    | looping | ticking | scanning | rescheduling | sleeping | stopped =>
        left
        unfold Worker.State.finished
        rw [place]

end Service

namespace EchoStore

/-- Its clock, in seconds. -/
def worker : Worker Time where
  clock w := (w / 1000000, w)
  sleep seconds w := w + (seconds * 1000000).floor

/-- A supplier with one product, and a store whose catalogue cannot be read. -/
def sources : Sources Time where
  supplier w := (⟨[sampleItem 1 ""], none⟩, w)
  store w := (⟨[], some (.other "ConnectTimeout: timed out")⟩, w)

/-- A signal comes in the last of four ticks. -/
def fourTicks : List Worker.Event :=
  List.replicate 33 .work ++ [.signal] ++ List.replicate 9 .work

/-- The worker after a poll every minute. -/
def afterFourTicks : Worker.State (Bridge Time) :=
  worker.onBridge.exec 60 fourTicks (worker.onBridge.atStart (service.buildJobs sources 60 15) start)

/-- Four jobs run, one tick after the other, and all of them finish. -/
theorem exec_turns_fourTicks : afterFourTicks.finished = [3, 1, 2, 0] ∧
    afterFourTicks.world.db.offers.rows.length = 2 ∧
    service.Worked sources (fun _ _ => True) start [3, 1, 2, 0] afterFourTicks.world := by
  have finished : afterFourTicks.finished = [3, 1, 2, 0] := by decide +kernel
  have worked := (Service.exec_turns service worker sources (fun _ _ => True)
    ⟨fun _ => trivial, fun _ _ => trivial⟩ 60 15 60 fourTicks start).1
  change service.Worked sources _ start afterFourTicks.finished afterFourTicks.world at worked
  rw [finished] at worked
  exact ⟨finished, by decide +kernel, worked⟩

/-- After a pull of the supplier. -/
def supplied : Bridge Time :=
  (service.runWorkerJob start (.supplierCatalogue ⟨[sampleItem 9 "Gris"], none⟩)).2

/-- A pause of a mapping that is not there. -/
def pauseNothing : AdminApi.PricingCall := .mapPrice 9 { pause := true }

def unpriced : Bridge Time :=
  .left (service.pricingSession (pricing settings) supplied pauseNothing)

/-- After one session of the offers. -/
def offered : Bridge Time := (service.runWorkerJob unpriced .offers).2

/-- A pull, a refused price change and a run of the offers leave the mappings alone. -/
theorem single_writer_offered : offered.db.offers.rows.length = 2 ∧
    offered.db.supplierProducts.rows.length = start.db.supplierProducts.rows.length + 1 ∧
    offered.db.mappings = start.db.mappings := by
  refine ⟨by decide +kernel, by decide +kernel, ?_⟩
  have asked : ¬ service.Succeeds supplied (.act (.price pauseNothing)) := by
    intro succeeds
    obtain ⟨source, priced, returned⟩ := succeeds
    obtain ⟨_, returned⟩ := returned
    cases returned
  have pulls : service.Turn (fun _ _ => False) start
      (.job (.supplierCatalogue ⟨[sampleItem 9 "Gris"], none⟩)) supplied := .job _
  have run := (Relation.ReflTransGen.single (r := Runs.Allowed (service.Turn fun _ _ => False)
    fun bridge purpose => purpose.owner = some .matching → ¬ service.Succeeds bridge purpose)
      ⟨_, fun owns => (by cases owns), pulls⟩).tail ⟨_, fun _ => asked, .act (.price rfl)⟩
  exact Service.single_writer service (fun _ _ => False) .matching
    (run.tail ⟨.job .offers, fun owns => (by cases owns), .job .offers⟩)

end EchoStore

end FazerBridge
