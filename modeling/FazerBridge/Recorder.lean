import FazerBridge.Service

/-!
# The jobs and their `sync_runs` rows

The three job bodies of `app/worker.py` that open a `SyncRunRecorder`: the
supplier pull, the store crawl and the offer sync, each in its `session_scope`.

The recorder writes the row of a failed run in the transaction of that run
(`recorded_raises`), and `session_scope` rolls that transaction back
(`runJob_raises`).
-/

namespace FazerBridge

open Prog

/-- What a source yields, and the exception that ends it, if there is one. -/
structure Feed (α : Type) where
  items : List α
  raised : Option Exn := none

/-! ## `SyncRunRecorder` -/

namespace OfferSync

variable {W : Type} (sync : OfferSync W)

/-- A `with SyncRunRecorder(...)` block that returns its statistics. -/
def recorded (kind : String) (block : Prog Exn (Session W) Unit) : Prog Exn (Session W) Stats := do
  sync.flushSession
  tryCatch block fun e => do
    sync.closeRun kind (some e)
    throw e
  sync.closeRun kind none
  let t ← get
  pure t.stats

/-- The block of an offer sync, for the session it was opened in. -/
def runBlock (count : Option ℕ) (dryRun : Bool) (t : Session W) : Prog Exn (Session W) Unit := do
  sync.syncItems dryRun (sync.now t.world) (sync.syncable t.db count)
  sync.flushSession

theorem run_eq_recorded (count : Option ℕ) (dryRun : Bool) :
    sync.run count dryRun =
      get >>= fun t => sync.recorded ("offers:" ++ sync.adapter.code) (sync.runBlock count dryRun t) :=
  rfl

variable {sync} {kind : String} {block : Prog Exn (Session W) Unit} {t u v : Session W}
  {r : Except Exn Stats}

/-- An exception in the block is an exception of the recorder, with a FAILED row
written on the way. -/
theorem recorded_raises {e : Exn} (run : (sync.recorded kind block).Runs t r v)
    (opens : sync.flushSession.Runs t (.ok ()) u) {w : Session W}
    (raises : block.Runs u (.error e) w) :
    (∃ e', r = .error e') ∧ v.db = { w.db with
      syncRuns := w.db.syncRuns ++
        [SyncRun.close kind w.stats (some e.text) (sync.now w.world)] } := by
  unfold recorded at run
  rcases runs_bind.mp run with ⟨⟨⟩, u', opened, rest⟩ | ⟨e', opened, rfl⟩
  · cases opened.symm.trans opens
    rcases runs_bind.mp rest with ⟨⟨⟩, w', returned, -⟩ | ⟨e', raised, rfl⟩
    · rcases runs_tryCatch.mp returned with ⟨⟨⟩, ran, -⟩ | ⟨_, _, -, handled⟩
      · cases ran.symm.trans raises
      · rcases runs_bind.mp handled with ⟨_, _, -, thrown⟩ | ⟨_, -, same⟩
        · cases (runs_throw.mp thrown).1
        · cases same
    · refine ⟨⟨e', rfl⟩, ?_⟩
      rcases runs_tryCatch.mp raised with ⟨_, _, same⟩ | ⟨_, _, ran, handled⟩
      · cases same
      · cases ran.symm.trans raises
        have written : ∀ {q : Except Exn Unit} {x : Session W},
            (sync.closeRun kind (some e)).Runs w q x → x.db = { w.db with
              syncRuns := w.db.syncRuns ++
                [SyncRun.close kind w.stats (some e.text) (sync.now w.world)] } := by
          intro q x closed
          rw [(quiet_flushSession (runs_modify_bind.mp closed)).2]
          rfl
        rcases runs_bind.mp handled with ⟨⟨⟩, x, closed, thrown⟩ | ⟨e', closed, -⟩
        · obtain ⟨-, rfl⟩ := runs_throw.mp thrown
          exact written closed
        · exact written closed
  · cases opened.symm.trans opens

/-- A recorder that returns has run its block and written a row about it. -/
theorem recorded_returns {stats : Stats} (run : (sync.recorded kind block).Runs t (.ok stats) v) :
    ∃ u w, sync.flushSession.Runs t (.ok ()) u ∧ block.Runs u (.ok ()) w ∧ stats = w.stats ∧
      v.db = { w.db with
        syncRuns := w.db.syncRuns ++ [SyncRun.close kind w.stats none (sync.now w.world)] } := by
  unfold recorded at run
  rcases runs_bind.mp run with ⟨⟨⟩, u, opened, rest⟩ | ⟨_, -, same⟩
  · rcases runs_bind.mp rest with ⟨⟨⟩, w, ran, rest⟩ | ⟨_, -, same⟩
    · rcases runs_tryCatch.mp ran with ⟨⟨⟩, ran, -⟩ | ⟨_, _, -, handled⟩
      · rcases runs_bind.mp rest with ⟨⟨⟩, x, closed, rest⟩ | ⟨_, -, same⟩
        · rw [runs_get_bind] at rest
          obtain ⟨same, rfl⟩ := runs_pure.mp rest
          cases same
          rw [(quiet_flushSession (runs_modify_bind.mp closed)).2]
          exact ⟨u, w, opened, ran, rfl, rfl⟩
        · cases same
      · rcases runs_bind.mp handled with ⟨_, _, -, thrown⟩ | ⟨_, -, same⟩
        · cases (runs_throw.mp thrown).1
        · cases same
    · cases same
  · cases same

end OfferSync

/-! ## The jobs -/

open OfferSync (Session Left)

/-- A job that opens a recorder: what it does before, the block for the session it
was opened in, and what it does after. -/
structure Recording (W : Type) where
  kind : String
  before : Prog Exn (Session W) Unit
  block : Session W → Prog Exn (Session W) Unit
  after : Prog Exn (Session W) Unit

/-- The jobs of the worker that leave a `sync_runs` row. -/
inductive SyncJob
  | supplierCatalogue (feed : Feed SupplierItem)
  | storeCatalogue (feed : Feed StoreCatalogItem)
  | offers

namespace Service

variable {W : Type} (service : Service W)

/-- `get_or_create_supplier`; a new supplier is flushed. -/
def openSupplier : Prog Exn (Session W) Unit := do
  let t ← get
  let suppliers := (SupplierCatalogSync.getOrCreateSupplier t.db.suppliers
    service.supplierCatalog.code).1
  if suppliers = t.db.suppliers then pure ()
  else do
    modify fun t => { t with db := { t.db with suppliers := suppliers } }
    service.offers.flushSession

/-- The end of a source. -/
def raiseIf (raised : Option Exn) : Prog Exn (Session W) Unit :=
  match raised with
  | some e => throw e
  | none => pure ()

/-- The session with the rows and counters of a pull. -/
def withPull (t : Session W) (pull : SupplierCatalogSync.Pull) : Session W :=
  { t with db := { t.db with supplierProducts := pull.rows }, stats := pull.stats }

/-- The block of `SupplierCatalogSync.run`; `opened` holds the rows before the pull. -/
def supplierBlock (feed : Feed SupplierItem) (opened : Session W) :
    Prog Exn (Session W) Unit := do
  let sync := service.supplierCatalog
  let supplierId := (SupplierCatalogSync.getOrCreateSupplier opened.db.suppliers sync.code).2
  let pull := feed.items.foldl (sync.upsert supplierId) ⟨opened.db.supplierProducts, [], []⟩
  modify fun t => withPull t pull
  raiseIf feed.raised
  modify fun t => withPull t (sync.missUnseen supplierId opened.db.supplierProducts.rows pull)
  service.offers.flushSession
  modify fun t => { t with stats := t.stats.bump .totalSeen pull.seen.length }

/-- The items of `StoreCatalogSync.run`; the query for each row flushes the one before. -/
def storeItems (sync : StoreCatalogSync) : List StoreCatalogItem → Prog Exn (Session W) Unit
  | [] => pure ()
  | item :: rest => do
    service.offers.flushSession
    Prog.ofState fun t =>
      let (rows, stats) := sync.upsert (t.db.storeProducts.table, t.stats) item
      match StoreProducts.flush rows with
      | .ok products =>
        (.ok (), { t with db := { t.db with storeProducts := products }, stats := stats })
      | .error e => (.error (.database e), t)
    storeItems sync rest

/-- The mirror of the store the offers are pushed to. -/
def storeCatalog : StoreCatalogSync := ⟨service.supplierCatalog.unicode, service.offers.adapter.code⟩

/-- The block of `StoreCatalogSync.run`. -/
def storeBlock (feed : Feed StoreCatalogItem) : Prog Exn (Session W) Unit := do
  service.storeItems service.storeCatalog feed.items
  raiseIf feed.raised
  service.offers.flushSession

/-- The job bodies. -/
def recording : SyncJob → Recording W
  | .supplierCatalogue feed =>
    { kind := "catalog:" ++ service.supplierCatalog.code
      before := service.openSupplier
      block := service.supplierBlock feed
      after := pure () }
  | .storeCatalogue feed =>
    { kind := "store-catalog:" ++ service.offers.adapter.code
      before := pure ()
      block := fun _ => service.storeBlock feed
      after := pure () }
  | .offers =>
    { kind := "offers:" ++ service.offers.adapter.code
      before := pure ()
      block := service.offers.runBlock none false
      after := do
        let _ ← service.offers.reconcileJobs 200
        pure () }

/-- A job body in its session. -/
def jobBody (job : Recording W) : Prog Exn (Session W) Stats := do
  job.before
  let t ← get
  let stats ← service.offers.recorded job.kind (job.block t)
  job.after
  pure stats

def runJob (job : SyncJob) (bridge : Bridge W) : Left W Stats :=
  service.offers.sessionScope (service.jobBody (service.recording job)) bridge.db bridge.world
    bridge.trace

/-- The session a job starts in. -/
def opening (bridge : Bridge W) : Session W := ⟨bridge.db, bridge.world, bridge.trace, []⟩

/-! ## What is left of a failed run -/

/-- The database records a run of this kind that failed with this exception. -/
def RecordsFailure (before after : Db) (kind : String) (e : Exn) : Prop :=
  ∃ row, after.syncRuns = before.syncRuns ++ [row] ∧ row.kind = kind ∧ row.state = .failed ∧
    row.error = some (String.ofList (e.text.toList.take 4000))

variable {service} {job : Recording W} {bridge : Bridge W} {e : Exn} {t u v : Session W}

/-- An exception in the block of a recorder is an exception of its job. -/
theorem jobBody_raises {r : Except Exn Stats} (run : (service.jobBody job).Runs t r v)
    {opened : Session W} (enters : job.before.Runs t (.ok ()) opened)
    (opens : service.offers.flushSession.Runs opened (.ok ()) u) {w : Session W}
    (raises : (job.block opened).Runs u (.error e) w) :
    ∃ e', r = .error e' := by
  unfold jobBody at run
  rcases runs_bind.mp run with ⟨⟨⟩, opened', entered, rest⟩ | ⟨e', entered, rfl⟩
  · cases entered.symm.trans enters
    rw [runs_get_bind] at rest
    rcases runs_bind.mp rest with ⟨stats, x, recorded, -⟩ | ⟨e', recorded, rfl⟩
    · obtain ⟨⟨e', same⟩, -⟩ := OfferSync.recorded_raises recorded opens raises
      cases same
    · exact ⟨e', rfl⟩
  · exact ⟨e', rfl⟩

/-- A session whose body raises leaves the database as it was. -/
theorem sessionScope_raises {α : Type} {body : Prog Exn (Session W) α}
    (raises : body.Runs (opening bridge) (.error e) v) :
    (service.offers.sessionScope body bridge.db bridge.world bridge.trace).db = bridge.db := by
  obtain ⟨r, u, run, ends⟩ :=
    service.offers.sessionScope_spec body bridge.db bridge.world bridge.trace
  cases run.symm.trans raises
  generalize service.offers.sessionScope body bridge.db bridge.world bridge.trace = left at ends
  cases ends with
  | committed returned quiet => cases returned
  | rolledBack quiet => rfl

/-- A session that returns leaves what its body wrote. -/
theorem sessionScope_returns {α : Type} {body : Prog Exn (Session W) α} {a : α}
    (returned : (service.offers.sessionScope body bridge.db bridge.world bridge.trace).result =
      .ok a) :
    ∃ u, body.Runs (opening bridge) (.ok a) u ∧
      (service.offers.sessionScope body bridge.db bridge.world bridge.trace).db = u.db := by
  unfold OfferSync.sessionScope at returned ⊢
  generalize result : (do
    let a ← body
    service.offers.flushSession
    pure a : Prog Exn (Session W) α).exec ⟨bridge.db, bridge.world, bridge.trace, []⟩ = left
    at returned ⊢
  obtain ⟨q, v⟩ := left
  rcases runs_bind.mp result with ⟨b, u, ran, rest⟩ | ⟨e, ran, rfl⟩
  · rcases runs_bind.mp rest with ⟨⟨⟩, v', flushed, rest⟩ | ⟨e, flushed, rfl⟩
    · obtain ⟨rfl, rfl⟩ := runs_pure.mp rest
      cases returned
      refine ⟨u, ran, ?_⟩
      rw [(OfferSync.quiet_flushSession flushed).2]
    · cases returned
  · cases returned

/-- A session that raises leaves the database as it was. -/
theorem sessionScope_failed {α : Type} {body : Prog Exn (Session W) α}
    (raised : (service.offers.sessionScope body bridge.db bridge.world bridge.trace).result =
      .error e) :
    (service.offers.sessionScope body bridge.db bridge.world bridge.trace).db = bridge.db := by
  obtain ⟨r, u, -, ends⟩ :=
    service.offers.sessionScope_spec body bridge.db bridge.world bridge.trace
  generalize service.offers.sessionScope body bridge.db bridge.world bridge.trace = left at *
  cases ends with
  | committed returned quiet => cases raised
  | rolledBack quiet => rfl

/-- A job whose block raises leaves the database as it was. -/
theorem runJob_raises {job : SyncJob} {opened w : Session W}
    (enters : (service.recording job).before.Runs (opening bridge) (.ok ()) opened)
    (opens : service.offers.flushSession.Runs opened (.ok ()) u)
    (raises : ((service.recording job).block opened).Runs u (.error e) w) :
    (service.runJob job bridge).db = bridge.db := by
  have run := runs_exec (service.jobBody (service.recording job)) (opening bridge)
  obtain ⟨e', result⟩ := jobBody_raises run enters opens raises
  rw [result] at run
  exact sessionScope_raises run

theorem not_recordsFailure {before after : Db} {kind : String} (same : after = before) :
    ¬ RecordsFailure before after kind e := by
  intro found
  obtain ⟨row, runs, -⟩ := found
  rw [same] at runs
  simpa using congrArg List.length runs

/-- No exception in the block of a recorder leaves a FAILED row. -/
theorem failure_not_recorded {job : SyncJob} {opened w : Session W}
    (enters : (service.recording job).before.Runs (opening bridge) (.ok ()) opened)
    (opens : service.offers.flushSession.Runs opened (.ok ()) u)
    (raises : ((service.recording job).block opened).Runs u (.error e) w) :
    ¬ RecordsFailure bridge.db (service.runJob job bridge).db (service.recording job).kind e :=
  not_recordsFailure (runJob_raises enters opens raises)

/-! ## What is left of a completed pull -/

theorem openSupplier_returns (run : (service.openSupplier).Runs t (.ok ()) u) :
    u.db = { t.db with
      suppliers := (SupplierCatalogSync.getOrCreateSupplier t.db.suppliers
        service.supplierCatalog.code).1 } := by
  unfold openSupplier at run
  rw [runs_get_bind] at run
  rcases runs_ite.mp run with ⟨known, done⟩ | ⟨-, created⟩
  · obtain ⟨-, rfl⟩ := runs_pure.mp done
    rw [known]
  · rw [(OfferSync.quiet_flushSession (runs_modify_bind.mp created)).2]

theorem supplierBlock_returns {feed : Feed SupplierItem} {opened : Session W}
    (run : (service.supplierBlock feed opened).Runs t (.ok ()) u) :
    let sync := service.supplierCatalog
    let supplierId := (SupplierCatalogSync.getOrCreateSupplier opened.db.suppliers sync.code).2
    let pull := sync.missUnseen supplierId opened.db.supplierProducts.rows
      (feed.items.foldl (sync.upsert supplierId) ⟨opened.db.supplierProducts, [], []⟩)
    feed.raised = none ∧ u.db = { t.db with supplierProducts := pull.rows } := by
  unfold supplierBlock at run
  dsimp only at run ⊢
  rcases runs_bind.mp (runs_modify_bind.mp run) with ⟨⟨⟩, m, raised, rest⟩ | ⟨_, -, same⟩
  · unfold raiseIf at raised
    split at raised
    · cases (runs_throw.mp raised).1
    · obtain ⟨-, rfl⟩ := runs_pure.mp raised
      rename_i unraised
      refine ⟨unraised, ?_⟩
      rcases runs_bind.mp (runs_modify_bind.mp rest) with ⟨⟨⟩, n, flushed, rest⟩ | ⟨_, -, same⟩
      · obtain ⟨-, rfl⟩ := runs_modify.mp rest
        rw [(OfferSync.quiet_flushSession flushed).2]
        rfl
      · cases same
  · cases same

end Service

namespace EchoStore

/-- A supplier that does not answer. -/
def unreachable : SyncJob := .supplierCatalogue ⟨[], some (.other "ConnectTimeout: timed out")⟩

/-- The session of its pull, with the supplier's row. -/
def pulling : Session Time :=
  { Service.opening start with db := { db with suppliers := [⟨1, "fazercards"⟩] } }

theorem unreachable_enters : (service.recording unreachable).before.Runs
    (Service.opening start) (.ok ()) pulling := rfl

theorem unreachable_raises : ((service.recording unreachable).block pulling).Runs pulling
    (.error (.other "ConnectTimeout: timed out")) pulling := rfl

theorem failure_not_recorded_unreachable :
    ¬ Service.RecordsFailure db (service.runJob unreachable start).db "catalog:fazercards"
      (.other "ConnectTimeout: timed out") :=
  Service.failure_not_recorded unreachable_enters rfl unreachable_raises

/-- Its pull is opened and fails, and no row says so. -/
theorem failure_lost : ¬ ∀ (job : SyncJob) (opened u w : Session Time) (e : Exn),
    (service.recording job).before.Runs (Service.opening start) (.ok ()) opened →
    service.offers.flushSession.Runs opened (.ok ()) u →
    ((service.recording job).block opened).Runs u (.error e) w →
    Service.RecordsFailure start.db (service.runJob job start).db
      (service.recording job).kind e :=
  fun recorded => Service.not_recordsFailure
    (Service.runJob_raises unreachable_enters rfl unreachable_raises)
    (recorded unreachable pulling pulling pulling _ unreachable_enters rfl unreachable_raises)

end EchoStore

end FazerBridge
