import FazerBridge.Lib.Runs
import FazerBridge.Service

/-!
# One create for one offer

A create the store accepted is outstanding for its row until the store reports
its job as finished and not succeeded (`outstanding`).  The row accounts for it by
its offer id or by its pending job (`Accounts`), and a row that does is never
created again.  The account is lost where an answer leads nowhere: a create
without offer id and job, a finished job that does not name its offer, a product
on which the store lists no offer.  `Tells` excludes these answers, one by one.
-/

namespace FazerBridge

/-! ## Creates in a trace -/

/-- A create for the row of mapping `k`. -/
def Entry.creates (k : ℕ) (entry : Entry) : Bool :=
  match entry.call with
  | .createOffer _ _ _ _ _ => entry.row.mappingId = k
  | _ => false

/-- What a call does to the outstanding create of a row. -/
def Entry.settles (k : ℕ) (entry : Entry) (before : Option String) : Option String :=
  match entry.call with
  | .createOffer _ _ _ _ (.ok job) => if entry.row.mappingId = k then some job.jobId else before
  | .getJob jobId (.ok job) =>
    if before = some jobId ∧ job.isFinished = true ∧ job.succeeded = false then none else before
  | _ => before

/-- The job of the last accepted create for a row, unless the store reported it as
finished and not succeeded. -/
def outstanding (k : ℕ) : List Entry → Option String
  | [] => none
  | entry :: older => entry.settles k (outstanding k older)

/-- No create for a row is called while one is outstanding. -/
def CreatesOnce (k : ℕ) : List Entry → Prop
  | [] => True
  | entry :: older => (entry.creates k = true → outstanding k older = none) ∧ CreatesOnce k older

instance CreatesOnce.decidable (k : ℕ) : (trace : List Entry) → Decidable (CreatesOnce k trace)
  | [] => inferInstanceAs (Decidable True)
  | _ :: older =>
    have := decidable k older
    inferInstanceAs (Decidable (_ ∧ _))

/-- The store lists an offer. -/
def listsOffer : Except Exn (List StoreOfferView) → Bool
  | .ok (_ :: _) => true
  | _ => false

/-- An answer that leads to the offer: a create names its offer or a job; the job
of an outstanding create names the offer once a reconciliation sees it done; a
product with an outstanding create has an offer. -/
def Entry.Tells (entry : Entry) (older : List Entry) : Prop :=
  match entry.call with
  | .createOffer _ _ _ _ (.ok job) =>
    (truthyId job.resourceId).isSome = true ∨ (truthyId (some job.jobId)).isSome = true
  | .getJob jobId (.ok job) => entry.phase = .reconciling → entry.row.offerExtId = none →
    outstanding entry.row.mappingId older = some jobId → job.succeeded = true →
      (truthyId job.resourceId).isSome = true
  | .offersForProduct _ answer => outstanding entry.row.mappingId older ≠ none →
    listsOffer answer = true
  | _ => True

instance (entry : Entry) (older : List Entry) : Decidable (entry.Tells older) :=
  match entry with
  | ⟨_, _, _, _, .createOffer _ _ _ _ (.ok _)⟩ => inferInstanceAs (Decidable (_ ∨ _))
  | ⟨_, _, _, _, .getJob _ (.ok _)⟩ => inferInstanceAs (Decidable (_ → _ → _ → _ → _))
  | ⟨_, _, _, _, .offersForProduct _ _⟩ => inferInstanceAs (Decidable (_ → _))
  | ⟨_, _, _, _, .createOffer _ _ _ _ (.error _)⟩ => inferInstanceAs (Decidable True)
  | ⟨_, _, _, _, .getJob _ (.error _)⟩ => inferInstanceAs (Decidable True)
  | ⟨_, _, _, _, .updateOffer _ _ _ _ _⟩ => inferInstanceAs (Decidable True)

def AllTell : List Entry → Prop
  | [] => True
  | entry :: older => entry.Tells older ∧ AllTell older

instance AllTell.decidable : (trace : List Entry) → Decidable (AllTell trace)
  | [] => inferInstanceAs (Decidable True)
  | _ :: older =>
    have := decidable older
    inferInstanceAs (Decidable (_ ∧ _))

theorem AllTell.of_suffix {old new : List Entry} (tell : AllTell new) (suffix : old <:+ new) :
    AllTell old := by
  obtain ⟨calls, rfl⟩ := suffix
  induction calls with
  | nil => exact tell
  | cons entry calls ih => exact ih tell.2

/-- Only a create for the row makes one outstanding. -/
theorem outstanding_of_cons {k : ℕ} {entry : Entry} {older : List Entry} {jobId : String}
    (other : entry.creates k = false)
    (after : outstanding k (entry :: older) = some jobId) : outstanding k older = some jobId := by
  obtain ⟨phase, row, target, time, call⟩ := entry
  cases call with
  | createOffer _ _ _ _ answer =>
      cases answer with
      | error _ => exact after
      | ok job =>
          have ne : row.mappingId ≠ k := by simpa [Entry.creates] using other
          simpa [outstanding, Entry.settles, ne] using after
  | updateOffer | offersForProduct => exact after
  | getJob _ answer =>
      cases answer with
      | error _ => exact after
      | ok job =>
          simp only [outstanding, Entry.settles] at after
          split at after
          · cases after
          · exact after

theorem createsOnce_cons {k : ℕ} {entry : Entry} {older : List Entry} (once : CreatesOnce k older)
    (other : entry.creates k = false) : CreatesOnce k (entry :: older) :=
  ⟨fun creates => (by rw [other] at creates; cases creates), once⟩

/-- Calls about other rows make nothing outstanding, and create nothing. -/
theorem outstanding_of_calls {k mappingId : ℕ} {old new : List Entry}
    (calls : OfferSync.Calls mappingId old new) (other : k ≠ mappingId) {jobId : String}
    (after : outstanding k new = some jobId) : outstanding k old = some jobId := by
  obtain ⟨entries, rfl, own⟩ := calls
  induction entries with
  | nil => exact after
  | cons entry entries ih =>
      refine ih (fun e mem => own e (List.mem_cons_of_mem _ mem)) (outstanding_of_cons ?_ after)
      have ne : entry.row.mappingId ≠ k := (own entry List.mem_cons_self).trans_ne other.symm
      unfold Entry.creates
      split
      · exact decide_eq_false ne
      · rfl

theorem createsOnce_of_calls {k mappingId : ℕ} {old new : List Entry}
    (calls : OfferSync.Calls mappingId old new) (other : k ≠ mappingId)
    (once : CreatesOnce k old) : CreatesOnce k new := by
  obtain ⟨entries, rfl, own⟩ := calls
  induction entries with
  | nil => exact once
  | cons entry entries ih =>
      refine ⟨fun creates => ?_, ih fun e mem => own e (List.mem_cons_of_mem _ mem)⟩
      have ne : entry.row.mappingId ≠ k := (own entry List.mem_cons_self).trans_ne other.symm
      unfold Entry.creates at creates
      split at creates
      · exact absurd (of_decide_eq_true creates) ne
      · cases creates

namespace OfferSync

variable {W : Type}

/-! ## One row -/

/-- The row leads to the offer of the create whose job is `jobId`. -/
def Accounts (offer : StoreOffer) (jobId : String) : Prop :=
  offer.offerExtId.isSome = true ∨ (offer.pendingJobId = some jobId ∧ jobId ≠ "")

/-- No create was repeated, and the row accounts for the outstanding one. -/
structure RowAccounts (s : RowState W) : Prop where
  once : CreatesOnce s.offer.mappingId s.trace
  accounts : ∀ jobId, outstanding s.offer.mappingId s.trace = some jobId → Accounts s.offer jobId

section Row

variable {sync : OfferSync W} {s t : RowState W} {phase : Phase}

/-- A call other than a create, after which the row still accounts for its offer. -/
theorem RowAccounts.asked (row : RowAccounts s) {call : Call} {world : W}
    (other : Entry.creates s.offer.mappingId
      ⟨phase, s.offer, s.target, sync.now s.world, call⟩ = false) :
    RowAccounts (s.asked sync phase call world) where
  once := createsOnce_cons row.once other
  accounts jobId after := row.accounts jobId (outstanding_of_cons other after)

/-- A row that knows its offer accounts for every create. -/
theorem RowAccounts.of_known (once : CreatesOnce s.offer.mappingId s.trace)
    (known : s.offer.offerExtId.isSome = true) : RowAccounts s where
  once := once
  accounts _ _ := Or.inl known

/-- A row without an outstanding create has nothing to account for. -/
theorem RowAccounts.of_none (once : CreatesOnce s.offer.mappingId s.trace)
    (settled : outstanding s.offer.mappingId s.trace = none) : RowAccounts s where
  once := once
  accounts jobId after := by rw [settled] at after; cases after

theorem RowAccounts.congr (row : RowAccounts s) (mappingId : t.offer.mappingId = s.offer.mappingId)
    (offer : t.offer.offerExtId = s.offer.offerExtId)
    (job : t.offer.pendingJobId = s.offer.pendingJobId) (trace : t.trace = s.trace) :
    RowAccounts t where
  once := by rw [mappingId, trace]; exact row.once
  accounts jobId after := by
    rw [mappingId, trace] at after
    unfold Accounts
    rw [offer, job]
    exact row.accounts jobId after

theorem Flushes.rowAccounts {q : Except Exn Unit} (flushed : sync.Flushes s q t)
    (row : RowAccounts s) : RowAccounts t := by
  obtain ⟨rfl, -⟩ := flushed
  exact row.congr rfl rfl rfl rfl

/-- The lookup by product accounts for an outstanding create, whatever the row said. -/
theorem FindsRemote.rowAccounts {r : Except Exn Bool} (finds : sync.FindsRemote phase s r t)
    (tell : AllTell t.trace) (once : CreatesOnce s.offer.mappingId s.trace) : RowAccounts t := by
  cases finds with
  | raised answer =>
      refine .of_none (createsOnce_cons once rfl) ?_
      by_contra pending
      cases tell.1 pending
  | nothing answer =>
      refine .of_none (createsOnce_cons once rfl) ?_
      by_contra pending
      cases tell.1 pending
  | found answer flushed =>
      exact flushed.rowAccounts (.of_known (createsOnce_cons once rfl) rfl)

theorem Resolves.rowAccounts {r : Except Exn Bool} (resolves : sync.Resolves phase s r t)
    (tell : AllTell t.trace) (row : RowAccounts s) : RowAccounts t := by
  cases resolves with
  | noJob pending finds => exact finds.rowAccounts tell row.once
  | lookupFailed | lookupRaised | unfinished => exact row.asked rfl
  | @failed jobId job w q t pending answer finished failed flushed =>
      refine flushed.rowAccounts ⟨createsOnce_cons row.once rfl, fun j after => ?_⟩
      -- the store reported the job, so what is still outstanding is another create
      have before := outstanding_of_cons rfl after
      rcases row.accounts j before with known | ⟨job_eq, -⟩
      · exact Or.inl known
      · obtain ⟨pending, -⟩ := truthyId_eq_some_iff.mp pending
        rw [pending] at job_eq
        cases job_eq
        have reported : outstanding s.offer.mappingId s.trace = some jobId ∧
            job.isFinished = true ∧ job.succeeded = false := ⟨before, finished, failed⟩
        simp only [RowState.set_offer, RowState.set_trace, RowState.asked_trace, rejected,
          outstanding, Entry.settles, if_pos reported] at after
        cases after
  | named pending answer finished succeeded named flushed =>
      exact flushed.rowAccounts (.of_known (createsOnce_cons row.once rfl) rfl)
  | unnamed pending answer finished succeeded unnamed finds =>
      exact finds.rowAccounts tell (createsOnce_cons row.once rfl)

theorem Updates.rowAccounts {desired : DesiredOffer} {now : Time}
    {priceChanged stockChanged activeChanged : Bool} {r : Except Exn StatKey}
    (updates : sync.Updates desired now priceChanged stockChanged activeChanged s r t)
    (known : s.offer.offerExtId.isSome = true) (row : RowAccounts s) : RowAccounts t := by
  cases updates with
  | nothing => exact row
  | raised => exact row.asked rfl
  | unwritten _ _ _ _ _ _ flushed | unpriced _ _ _ _ _ _ flushed =>
      exact flushed.rowAccounts (.of_known (createsOnce_cons row.once rfl) known)
  | priced _ _ _ _ _ flushed recorded =>
      have pushed := flushed.rowAccounts
        (.of_known (createsOnce_cons row.once rfl) known)
      exact recorded.rowAccounts (pushed.congr rfl rfl rfl rfl)

theorem RecordsCreate.rowAccounts {desired : DesiredOffer} {now calledAt : Time}
    {r : Except Exn StatKey} (records : sync.RecordsCreate desired now calledAt s r t)
    (row : RowAccounts s) : RowAccounts t := by
  have created : RowAccounts (s.set (createdRow desired now s.offer)) := row.congr rfl rfl rfl rfl
  cases records with
  | unwritten flushed => exact flushed.rowAccounts created
  | recorded flushed recorded =>
      exact recorded.rowAccounts ((flushed.rowAccounts created).congr rfl rfl rfl rfl)

/-- A row that leads nowhere has no outstanding create. -/
theorem RowAccounts.settled (row : RowAccounts s) (unknown : s.offer.offerExtId = none)
    (idle : truthyId s.offer.pendingJobId = none) :
    outstanding s.offer.mappingId s.trace = none := by
  by_contra pending
  obtain ⟨jobId, is⟩ := Option.ne_none_iff_exists'.mp pending
  rcases row.accounts jobId is with known | job
  · rw [unknown] at known
    cases known
  · rw [truthyId_eq_some_iff.mpr job] at idle
    cases idle

theorem Creates.rowAccounts {desired : DesiredOffer} {now : Time} {r : Except Exn StatKey}
    (creates : sync.Creates desired now s r t) (tell : AllTell t.trace)
    (unknown : s.offer.offerExtId = none) (idle : truthyId s.offer.pendingJobId = none)
    (row : RowAccounts s) : RowAccounts t := by
  have settled := row.settled unknown idle
  have once : ∀ {answer : Except Exn JobResult}, CreatesOnce s.offer.mappingId
      (⟨.creating, s.offer, s.target, sync.now s.world, .createOffer s.offer.productExtId
        desired.price desired.inventory desired.active answer⟩ :: s.trace) :=
    ⟨fun _ => settled, row.once⟩
  have conflict : ∀ {e w}, RowAccounts
      ((s.askedCreate sync desired (.error e) w).set { s.offer with pendingJobId := none }) :=
    .of_none once settled
  have accepted : ∀ {job w}, (truthyId (some job.jobId)).isSome = true → RowAccounts
      ((s.askedCreate sync desired (.ok job) w).set
        { s.offer with pendingJobId := truthyId (some job.jobId) }) := by
    intro job w pending
    obtain ⟨j, is⟩ := Option.isSome_iff_exists.mp pending
    obtain ⟨same, truthy⟩ := truthyId_eq_some_iff.mp is
    cases same
    refine ⟨once, fun jobId after => ?_⟩
    simp only [RowState.set_offer, RowState.set_trace, RowState.askedCreate, RowState.asked_trace,
      outstanding, Entry.settles, if_true, Option.some.injEq] at after
    subst after
    exact Or.inr ⟨is, truthy⟩
  cases creates with
  | raised => exact .of_none once settled
  | adoptRaised _ _ resolves | unadopted _ _ resolves => exact resolves.rowAccounts tell conflict
  | adopted _ _ resolves updates =>
      have tell' := tell.of_suffix updates.frame.trace.suffix
      exact updates.rowAccounts resolves.isSome (resolves.rowAccounts tell' conflict)
  | named named answer records => exact records.rowAccounts (.of_known once rfl)
  | resolveRaised _ pending _ resolves | refused _ pending _ resolves =>
      exact resolves.rowAccounts tell (accepted pending)
  | settled _ pending _ resolves _ records =>
      have tell' := tell.of_suffix records.frame.trace.suffix
      exact records.rowAccounts (resolves.rowAccounts tell' (accepted pending))
  | nameless unnamed jobless answer records =>
      have tell' := tell.of_suffix records.frame.trace.suffix
      rcases tell'.1 with named | job
      · rw [unnamed] at named
        cases named
      · rw [jobless] at job
        cases job

theorem Pushes.rowAccounts {desired : DesiredOffer} {now : Time}
    {priceChanged stockChanged activeChanged : Bool} {r : Except Exn StatKey}
    (pushes : sync.Pushes desired now priceChanged stockChanged activeChanged s r t)
    (tell : AllTell t.trace) (row : RowAccounts s) : RowAccounts t := by
  cases pushes with
  | resolveRaised _ _ resolves | awaiting _ _ resolves => exact resolves.rowAccounts tell row
  | resolved _ _ resolves updates =>
      have tell' := tell.of_suffix updates.frame.trace.suffix
      exact updates.rowAccounts resolves.isSome (resolves.rowAccounts tell' row)
  | creates unknown idle creates => exact creates.rowAccounts tell unknown idle row
  | updates known updates => exact updates.rowAccounts known row

theorem SyncsOne.rowAccounts {desired : DesiredOffer} {dryRun : Bool} {now : Time}
    {r : Except Exn StatKey} (syncs : sync.SyncsOne desired dryRun now s r t)
    (tell : AllTell t.trace) (row : RowAccounts s) : RowAccounts t := by
  cases syncs with
  | unchanged | dry => exact row
  | pushed _ _ pushes => exact pushes.rowAccounts tell row
  | raised _ _ _ pushes => exact pushes.rowAccounts tell row
  | @failed a m _ _ _ _ pushes flushed =>
      have tell' := tell.of_suffix flushed.frame.trace.suffix
      obtain ⟨mappingId, -, -, offer, job, -⟩ := failedCall_keeps a m.offer
      exact flushed.rowAccounts ((pushes.rowAccounts tell' row).congr mappingId offer job rfl)

theorem ReconcilesOne.rowAccounts {jobId : String} {r : Except Exn Reconciled}
    (reconciles : sync.ReconcilesOne jobId s r t) (tell : AllTell t.trace)
    (pending : s.offer.pendingJobId = some jobId) (row : RowAccounts s) : RowAccounts t := by
  cases reconciles with
  | raised | unknown | pending => exact row.asked rfl
  | @completed job w answer finished succeeded =>
      refine ⟨createsOnce_cons row.once rfl, fun j after => Or.inl ?_⟩
      have before := outstanding_of_cons rfl after
      change (if (truthyId job.resourceId).isSome && (truthyId s.offer.offerExtId).isNone then
        job.resourceId else s.offer.offerExtId).isSome = true
      split
      · rename_i named
        rw [Bool.and_eq_true] at named
        obtain ⟨id, is⟩ := Option.isSome_iff_exists.mp named.1
        rw [(truthyId_eq_some_iff.mp is).1]
        rfl
      · rename_i unnamed
        rcases row.accounts j before with known | ⟨job_eq, -⟩
        · exact known
        · rw [pending] at job_eq
          cases job_eq
          cases unknown : s.offer.offerExtId with
          | some id => rfl
          | none =>
              have named := tell.1 rfl unknown before succeeded
              rw [named, unknown] at unnamed
              exact absurd rfl unnamed
  | @failed job w answer finished failed =>
      refine ⟨createsOnce_cons row.once rfl, fun j after => ?_⟩
      have before := outstanding_of_cons rfl after
      rcases row.accounts j before with known | ⟨job_eq, -⟩
      · exact Or.inl known
      · rw [pending] at job_eq
        cases job_eq
        have reported : outstanding s.offer.mappingId s.trace = some jobId ∧
            job.isFinished = true ∧ job.succeeded = false := ⟨before, finished, failed⟩
        simp only [RowState.set_offer, RowState.set_trace, RowState.asked_trace, failedRow, rejected,
          outstanding, Entry.settles, if_pos reported] at after
        cases after

end Row

/-! ## A session -/

/-- No create was repeated, and the rows account for the outstanding ones. -/
structure DbAccounts (db : Db) (trace : List Entry) : Prop where
  once : ∀ k, CreatesOnce k trace
  accounts : ∀ k jobId, outstanding k trace = some jobId →
    ∃ offer, db.offers.find? k = some offer ∧ Accounts offer jobId

theorem DbAccounts.congr {db db' : Db} {trace : List Entry} (all : DbAccounts db trace)
    (offers : db'.offers = db.offers) : DbAccounts db' trace where
  once := all.once
  accounts k jobId pending := by rw [offers]; exact all.accounts k jobId pending

/-- A row written over one that accounts for no more than it does. -/
theorem DbAccounts.save {db : Db} {trace : List Entry} (all : DbAccounts db trace)
    {offer : StoreOffer} (accounts : ∀ jobId, outstanding offer.mappingId trace = some jobId →
      Accounts offer jobId) : DbAccounts { db with offers := db.offers.save offer } trace where
  once := all.once
  accounts k jobId pending := by
    by_cases same : k = offer.mappingId
    · subst same
      exact ⟨offer, Table.find?_save_self .., accounts jobId pending⟩
    · obtain ⟨o, found, leads⟩ := all.accounts k jobId pending
      exact ⟨o, (Table.find?_save_of_ne _ same).trans found, leads⟩

/-- A row of a mapping that has none has no outstanding create. -/
theorem DbAccounts.open_ {db : Db} {trace : List Entry} (all : DbAccounts db trace)
    {offer : StoreOffer} (missing : db.offers.find? offer.mappingId = none) :
    DbAccounts { db with offers := db.offers.save offer } trace :=
  all.save fun jobId pending => by
    obtain ⟨o, found, -⟩ := all.accounts _ jobId pending
    rw [missing] at found
    cases found

theorem openRow_rowAccounts {t : Session W} (all : DbAccounts t.db t.trace) {offer : StoreOffer}
    (found : t.db.offers.find? offer.mappingId = some offer) (target : String) :
    RowAccounts (openRow t offer target) where
  once := all.once _
  accounts jobId pending := by
    obtain ⟨o, found', leads⟩ := all.accounts _ jobId pending
    have same : some offer = some o := found.symm.trans found'
    cases same
    exact leads

/-- The calls of one row leave the account of the others as it is. -/
theorem DbAccounts.close {t : Session W} (all : DbAccounts t.db t.trace) {offer : StoreOffer}
    {target : String} {s : RowState W} (frame : Frame (openRow t offer target) s)
    (row : RowAccounts s) : DbAccounts (closeRow t s).db s.trace := by
  have once : ∀ k, CreatesOnce k s.trace := by
    intro k
    by_cases same : k = s.offer.mappingId
    · exact same ▸ row.once
    · exact createsOnce_of_calls (frame.mappingId ▸ frame.trace) same (all.once k)
  have others : ∀ k jobId, k ≠ s.offer.mappingId → outstanding k s.trace = some jobId →
      ∃ o, t.db.offers.find? k = some o ∧ Accounts o jobId := by
    intro k jobId other pending
    exact all.accounts k jobId
      (outstanding_of_calls (frame.mappingId ▸ frame.trace) other pending)
  refine ⟨once, fun k jobId pending => ?_⟩
  by_cases same : k = s.offer.mappingId
  · subst same
    exact ⟨s.offer, Table.find?_save_self .., row.accounts jobId pending⟩
  · obtain ⟨o, found, leads⟩ := others k jobId same pending
    exact ⟨o, (Table.find?_save_of_ne _ same).trans found, leads⟩

/-- A session that started from the calls `before`: if all answers so far tell, no
create was repeated and the rows account for the outstanding ones. -/
def SessionAccounts (before : List Entry) (t : Session W) : Prop :=
  before <:+ t.trace ∧ (AllTell t.trace → DbAccounts t.db t.trace)

/-- What is left of that when an exception ends the session. -/
def SessionCreatesOnce (before : List Entry) (t : Session W) : Prop :=
  before <:+ t.trace ∧ (AllTell t.trace → ∀ k, CreatesOnce k t.trace)

variable {sync : OfferSync W}

theorem keeps_sessionAccounts (sync : OfferSync W) (before : List Entry) :
    sync.Keeps (SessionAccounts before) (SessionCreatesOnce before) where
  quiet {t u} quiet all := by
    unfold SessionAccounts
    rw [quiet.trace]
    exact ⟨all.1, fun tell => (all.2 tell).congr quiet.offers⟩
  quietEnd {t u} quiet all := by
    unfold SessionCreatesOnce
    rw [quiet.trace]
    exact all
  ends all := ⟨all.1, fun tell => (all.2 tell).once⟩

/-- One row of a session, whatever its result. -/
theorem SessionAccounts.close {before : List Entry} {t : Session W}
    (all : SessionAccounts before t) {offer : StoreOffer} {target : String} {s : RowState W}
    (found : t.db.offers.find? offer.mappingId = some offer)
    (frame : Frame (openRow t offer target) s)
    (row : AllTell s.trace → RowAccounts (openRow t offer target) → RowAccounts s) :
    before <:+ s.trace ∧ (AllTell s.trace → DbAccounts (closeRow t s).db s.trace) := by
  have longer : t.trace <:+ s.trace := frame.trace.suffix
  refine ⟨all.1.trans longer, fun tell => ?_⟩
  have so_far := all.2 (tell.of_suffix longer)
  exact so_far.close frame (row tell (openRow_rowAccounts so_far found target))

theorem keepsItems_accounts (sync : OfferSync W) (before : List Entry) (dryRun : Bool)
    (now : Time) : sync.KeepsItems dryRun now (fun _ => True) (SessionAccounts before)
      (SessionCreatesOnce before) where
  toKeeps := keeps_sessionAccounts sync before
  opened _ all missing := ⟨all.1, fun tell => (all.2 tell).open_ missing⟩
  synced {item offer t price k s} _ all found syncs := by
    obtain ⟨-, key⟩ := Table.find?_eq_some_iff.mp found
    rw [← key] at found
    obtain ⟨longer, closed⟩ := all.close found syncs.frame fun tell row => syncs.rowAccounts tell row
    exact ⟨longer, fun tell => (closed tell).congr rfl⟩
  raised {item offer t price e s} _ all found syncs := by
    obtain ⟨-, key⟩ := Table.find?_eq_some_iff.mp found
    rw [← key] at found
    obtain ⟨longer, closed⟩ := all.close found syncs.frame fun tell row => syncs.rowAccounts tell row
    exact ⟨longer, fun tell => (closed tell).once⟩

theorem keepsRows_accounts (sync : OfferSync W) (before : List Entry) :
    sync.KeepsRows (SessionAccounts before) (SessionCreatesOnce before) where
  toKeeps := keeps_sessionAccounts sync before
  reconciled all found _ job reconciles :=
    all.close found reconciles.frame fun tell row => reconciles.rowAccounts tell job row
  raised all found _ job reconciles := by
    obtain ⟨longer, closed⟩ :=
      all.close found reconciles.frame fun tell row => reconciles.rowAccounts tell job row
    exact ⟨longer, fun tell => (closed tell).once⟩

theorem keepsAdoption_accounts (sync : OfferSync W) (before : List Entry) :
    sync.KeepsAdoption (fun _ => True) (fun _ => True) (SessionAccounts before)
      (SessionCreatesOnce before) where
  toKeeps := keeps_sessionAccounts sync before
  listed all _ := ⟨fun _ _ => trivial, all.1, fun tell => (all.2 tell).congr rfl⟩
  unlisted all _ := ⟨all.1, fun tell => (all.2 tell).once⟩
  opened _ all missing := ⟨all.1, fun tell => (all.2 tell).open_ missing⟩
  adopted _ _ _ all _ := ⟨all.1, fun tell => (all.2 tell).save fun _ _ => Or.inl rfl⟩

end OfferSync

/-! ## Every sequence of steps -/

open OfferSync

/-- An accepted create. -/
def Entry.created (entry : Entry) : Bool :=
  match entry.call with
  | .createOffer _ _ _ _ (.ok _) => true
  | _ => false

/-- Without an accepted create nothing becomes outstanding. -/
theorem outstanding_of_uncreated {k : ℕ} {calls older : List Entry} {jobId : String}
    (none_ : ∀ entry ∈ calls, entry.created = false)
    (after : outstanding k (calls ++ older) = some jobId) : outstanding k older = some jobId := by
  induction calls with
  | nil => exact after
  | cons entry calls ih =>
      refine ih (fun e mem => none_ e (List.mem_cons_of_mem _ mem)) ?_
      have refused := none_ entry List.mem_cons_self
      obtain ⟨phase, row, target, time, call⟩ := entry
      cases call with
      | createOffer _ _ _ _ answer =>
          cases answer with
          | error _ => exact after
          | ok job => cases refused
      | updateOffer | getJob | offersForProduct => exact outstanding_of_cons rfl after

namespace Service

variable {W : Type} (service : Service W)

/-- A session loses no create: every answer tells, and if an exception ends it then
the store accepted no create in it. -/
def LosesNoCreate {α : Type} (before : List Entry) (left : Left W α) : Prop :=
  AllTell left.trace ∧ (left.result.isOk = false →
    ∀ calls, left.trace = calls ++ before → ∀ entry ∈ calls, entry.created = false)

/-- No session loses a create. -/
def LosesNoCreates (bridge : Bridge W) : Action → Prop
  | .syncOffers count dryRun => LosesNoCreate bridge.trace (service.syncSession bridge count dryRun)
  | .reconcile count => LosesNoCreate bridge.trace (service.reconcileSession bridge count)
  | .adopt => LosesNoCreate bridge.trace (service.adoptSession bridge)
  | _ => True

variable {service}

theorem left_accounts {α : Type} {sync : OfferSync W} {bridge : Bridge W}
    (all : DbAccounts bridge.db bridge.trace) {body : Prog Exn (Session W) α}
    (kept : ∀ {r u}, body.Runs ⟨bridge.db, bridge.world, bridge.trace, []⟩ r u →
      SessionAccounts bridge.trace (⟨bridge.db, bridge.world, bridge.trace, []⟩ : Session W) →
      ((∃ a, r = .ok a) → SessionAccounts bridge.trace u) ∧ SessionCreatesOnce bridge.trace u)
    (loses : LosesNoCreate bridge.trace
      (sync.sessionScope body bridge.db bridge.world bridge.trace)) :
    DbAccounts (sync.sessionScope body bridge.db bridge.world bridge.trace).db
      (sync.sessionScope body bridge.db bridge.world bridge.trace).trace := by
  have open_ : SessionAccounts bridge.trace
      (⟨bridge.db, bridge.world, bridge.trace, []⟩ : Session W) :=
    ⟨List.suffix_rfl, fun _ => all⟩
  obtain ⟨tell, aborted⟩ := loses
  rcases (keeps_sessionAccounts sync bridge.trace).sessionScope (fun run => kept run open_)
    rfl with ⟨a, stats, -, -, done⟩ | ⟨e, db', stats, raised, same, ⟨calls, trace⟩, once⟩
  · exact done tell
  · refine ⟨once tell, fun k jobId pending => ?_⟩
    rw [same]
    -- the rollback brings the old rows back, and they account for the old creates
    refine all.accounts k jobId (outstanding_of_uncreated (aborted ?_ calls trace.symm) ?_)
    · rw [raised]; rfl
    · exact (congrArg (outstanding k) trace).trans pending

theorem step_accounts {moves : W → W → Prop} {bridge bridge' : Bridge W} {action : Action}
    (all : DbAccounts bridge.db bridge.trace) (loses : service.LosesNoCreates bridge action)
    (step : service.Step moves bridge action bridge') :
    DbAccounts bridge'.db bridge'.trace := by
  rcases step.cases with ⟨count, dryRun, rfl, rfl⟩ | ⟨count, rfl, rfl⟩ | ⟨rfl, rfl⟩ | apart
  · exact left_accounts all (fun run open_ => (keepsItems_accounts _ _ _ _).run
      (fun _ _ => trivial) run open_) loses
  · exact left_accounts all (fun run open_ => (keepsRows_accounts _ _).reconcileJobs run open_) loses
  · exact left_accounts all (fun run open_ => (keepsAdoption_accounts _ _).adoptExistingOffers
      (fun _ _ => trivial) run open_) loses
  · rw [apart.trace]
    exact all.congr apart.same.1

/-- As long as no session loses a create, none is repeated while it is
outstanding. -/
theorem creates_once (service : Service W) (moves : W → W → Prop) {start bridge : Bridge W}
    (silent : start.trace = [])
    (run : Relation.ReflTransGen (Runs.Allowed (service.Step moves) service.LosesNoCreates)
      start bridge) (k : ℕ) : CreatesOnce k bridge.trace := by
  have first : DbAccounts start.db start.trace := by
    rw [silent]
    exact ⟨fun _ => trivial, fun k jobId pending => nomatch pending⟩
  have step : ∀ (bridge : Bridge W) action bridge', DbAccounts bridge.db bridge.trace →
      service.LosesNoCreates bridge action → service.Step moves bridge action bridge' →
      DbAccounts bridge'.db bridge'.trace := fun _ _ _ all loses step => step_accounts all loses step
  exact (Runs.invariant step run first).once k

end Service

namespace EchoStore

/-- The store with jobs that never name their offer, where looking up the offers of
a product fails. -/
def forgetful : Adapter Time :=
  { adapter with
    offersForProduct := fun _ w => (.error (.api ⟨.apiError, "internal error", "g2a", some 500⟩), w)
    getJob := fun jobId w => (.ok (job jobId none), w) }

def forgetfulService : Service Time := { service with offers := offers settings forgetful }

/-- A run, a reconciliation, and another run. -/
def firstRun (service : Service Time) : Bridge Time := .left (service.syncSession start none false)

def reconciled (service : Service Time) : Bridge Time :=
  .left (service.reconcileSession (firstRun service) 200)

def secondRun (service : Service Time) : Bridge Time :=
  .left (service.syncSession (reconciled service) none false)

theorem secondRun_reached {service : Service Time} {guard : Bridge Time → Action → Prop}
    (first : guard start (.syncOffers none false))
    (second : guard (firstRun service) (.reconcile 200))
    (third : guard (reconciled service) (.syncOffers none false)) :
    Relation.ReflTransGen (Runs.Allowed (service.Step fun _ _ => True) guard) start
      (secondRun service) := by
  have one : Runs.Allowed (service.Step fun _ _ => True) guard start (firstRun service) :=
    ⟨_, first, .syncOffers⟩
  have two : Runs.Allowed (service.Step fun _ _ => True) guard (firstRun service)
    (reconciled service) := ⟨_, second, .reconcile⟩
  have three : Runs.Allowed (service.Step fun _ _ => True) guard (reconciled service)
    (secondRun service) := ⟨_, third, .syncOffers⟩
  exact .tail (.tail (.tail .refl one) two) three

-- only the kernel is to run the service
attribute [irreducible] firstRun reconciled secondRun

/-- A session that returns loses nothing when every answer tells. -/
theorem losesNoCreate_of_completed {α : Type} {before : List Entry} {left : Left Time α}
    (tell : AllTell left.trace) (completed : left.result.isOk = true) :
    Service.LosesNoCreate before left :=
  ⟨tell, fun raised => by rw [completed] at raised; cases raised⟩

theorem firstRun_losesNoCreate : service.LosesNoCreates start (.syncOffers none false) :=
  losesNoCreate_of_completed (by decide +kernel) (by decide +kernel)

theorem reconciled_losesNoCreate : service.LosesNoCreates (firstRun service) (.reconcile 200) :=
  losesNoCreate_of_completed (by decide +kernel) (by decide +kernel)

theorem secondRun_losesNoCreate :
    service.LosesNoCreates (reconciled service) (.syncOffers none false) :=
  losesNoCreate_of_completed (by decide +kernel) (by decide +kernel)

end EchoStore

/-- Every answer of the store that answers at once tells. -/
theorem creates_once_echo :
    (EchoStore.secondRun EchoStore.service).trace.any Entry.created = true ∧
      CreatesOnce 1 (EchoStore.secondRun EchoStore.service).trace :=
  ⟨by decide +kernel, Service.creates_once EchoStore.service (fun _ _ => True) (by rfl)
    (EchoStore.secondRun_reached EchoStore.firstRun_losesNoCreate EchoStore.reconciled_losesNoCreate
      EchoStore.secondRun_losesNoCreate) 1⟩

/-- A create whose job does not name the offer is forgotten when the lookup of the
product's offers fails, and the next run creates again. -/
theorem creates_twice : ¬ ∀ bridge, Relation.ReflTransGen
      (Runs.Allowed (EchoStore.forgetfulService.Step fun _ _ => True) fun _ _ => True)
      EchoStore.start bridge → CreatesOnce 1 bridge.trace :=
  Runs.not_invariant (EchoStore.secondRun_reached trivial trivial trivial) (by decide +kernel)

end FazerBridge
