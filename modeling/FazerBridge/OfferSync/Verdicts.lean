import FazerBridge.OfferSync.Deferrals

/-!
# The verdict on a create

`_create` calls a create failed when its job does not lead to an id while the row's state
is FAILED.  The state may be FAILED since an earlier attempt, and then a job that is merely
unfinished is taken for a refused one (`create_verdict_iff`).
-/

namespace FazerBridge

/-- The job is finished and has not succeeded. -/
def JobResult.refused (job : JobResult) : Bool := job.isFinished && !job.succeeded

theorem JobResult.refused_of_succeeded {job : JobResult} (succeeded : job.succeeded = true) :
    job.refused = false := by
  rw [JobResult.refused, succeeded, Bool.not_true, Bool.and_false]

namespace OfferSync

open Prog

variable {W : Type} {sync : OfferSync W} {s t : RowState W} {desired : DesiredOffer} {now : Time}

/-! ## What the store says -/

/-- The answer to a create, the report on its job where that is looked up, and the offers
on the product where they are listed. -/
structure Hearing where
  answer : JobResult
  report : Option JobResult
  listed : Option (List StoreOfferView)

namespace Hearing

/-- The report on the job is that it was refused. -/
def refusedLater (h : Hearing) : Bool := h.report.any JobResult.refused

/-- The store reported the job as finished and not succeeded. -/
def refused (h : Hearing) : Bool := h.answer.refused || h.refusedLater

/-- The id the store gives the offer. -/
def name (h : Hearing) : Option String :=
  (truthyId h.answer.resourceId).or
    (((h.report.filter JobResult.succeeded).bind fun job => truthyId job.resourceId).or
      (h.listed.bind fun views => views.head?.map StoreOfferView.offerExtId))

/-- The job was looked up, and was neither refused nor gave an id. -/
def undecided (h : Hearing) : Bool :=
  h.report.any (fun job => !job.refused) && h.name.isNone

end Hearing

/-- The answers to a create of which no call raises. -/
inductive Hears (sync : OfferSync W) (desired : DesiredOffer) (s : RowState W) : Hearing → Prop
  | direct {job w} (answer : sync.createAnswer desired s = (.ok job, w))
      (settled : (truthyId job.resourceId).isSome ∨ truthyId (some job.jobId) = none) :
      Hears sync desired s ⟨job, none, none⟩
  | looked {job w jobId report w'} (answer : sync.createAnswer desired s = (.ok job, w))
      (unnamed : truthyId job.resourceId = none) (pending : truthyId (some job.jobId) = some jobId)
      (reports : sync.adapter.getJob jobId w = (.ok report, w'))
      (told : report.succeeded = true → (truthyId report.resourceId).isSome) :
      Hears sync desired s ⟨job, some report, none⟩
  | listed {job w jobId report w' views w''} (answer : sync.createAnswer desired s = (.ok job, w))
      (unnamed : truthyId job.resourceId = none) (pending : truthyId (some job.jobId) = some jobId)
      (reports : sync.adapter.getJob jobId w = (.ok report, w'))
      (succeeded : report.succeeded = true) (untold : truthyId report.resourceId = none)
      (lists : sync.listing s w' = (.ok views, w'')) :
      Hears sync desired s ⟨job, some report, some views⟩

/-! ## A database that refuses nothing but a taken id -/

def Sound (sync : OfferSync W) : Prop := ∀ w, (sync.database w).1 = none

/-- No other row of the store holds the id of this one. -/
def RowState.Free (s : RowState W) : Prop := ∀ id, s.offer.offerExtId = some id → id ∉ s.others

theorem runs_flush (sound : sync.Sound) {r : Except Exn Unit} (run : sync.flush.Runs s r t) :
    t = s.after (sync.database s.world).2 ∧
      (s.Free ∧ r = .ok () ∨ ¬ s.Free ∧ r = .error (.database .integrityError)) := by
  have ran := runs_ofState.mp run
  have quiet := sound s.world
  rcases database : sync.database s.world with ⟨fault, world⟩
  rw [database] at quiet
  obtain rfl : fault = none := quiet
  simp only [database] at ran
  have free : s.Free ↔ ¬ s.offer.offerExtId.any (· ∈ s.others) = true := by
    unfold RowState.Free
    cases s.offer.offerExtId with
    | none => simp
    | some id => simp
  split at ran
  · cases ran
    exact ⟨rfl, .inr ⟨fun clear => free.mp clear ‹_›, rfl⟩⟩
  · cases ran
    exact ⟨rfl, .inl ⟨free.mpr ‹_›, rfl⟩⟩

/-- Remembering and recording write the row and the log, or fail on an id that is taken. -/
theorem runs_remember {keepPrice : Bool} {r : Except Exn Unit} (sound : sync.Sound)
    (run : (sync.remember desired now keepPrice).Runs s r t) :
    t = (s.set (remembered desired now keepPrice s.offer)).after (sync.database s.world).2 ∧
      (s.Free ∧ r = .ok () ∨ ¬ s.Free ∧ r = .error (.database .integrityError)) := by
  unfold remember at run
  rw [runs_edit_bind] at run
  exact runs_flush sound run

theorem runs_record {newPrice : ℚ} {oldPrice : Option ℚ} {calledAt : Time} {r : Except Exn Unit}
    (sound : sync.Sound) (run : (sync.record newPrice oldPrice calledAt).Runs s r t) :
    t = (s.logged sync newPrice oldPrice calledAt).after (sync.database s.world).2 ∧
      (s.Free ∧ r = .ok () ∨ ¬ s.Free ∧ r = .error (.database .integrityError)) := by
  unfold record at run
  rw [runs_modify_bind] at run
  exact runs_flush sound run

/-- Recording a create writes the desired values and one row of the log, or fails on an id
that is taken. -/
theorem recordCreate_exact {calledAt : Time} {r : Except Exn StatKey} (sound : sync.Sound)
    (run : (sync.recordCreate desired now calledAt).Runs s r t) :
    (s.Free ∧ r = .ok .created ∧ t.offer = createdRow desired now s.offer ∧
        ∃ row, t.log = s.log ++ [row]) ∨
      ¬ s.Free ∧ r = .error (.database .integrityError) := by
  unfold recordCreate at run
  rw [runs_edit_bind] at run
  rcases runs_bind.mp run with ⟨_, m, remembers, rest⟩ | ⟨e, remembers, rfl⟩
  · obtain ⟨rfl, ⟨free, -⟩ | ⟨-, refused⟩⟩ := runs_remember sound remembers
    · rcases runs_bind.mp rest with ⟨_, m, records, rest⟩ | ⟨e, records, rfl⟩
      · obtain ⟨rfl, -⟩ := runs_record sound records
        obtain ⟨rfl, rfl⟩ := runs_pure.mp rest
        exact .inl ⟨free, rfl, rfl, _, rfl⟩
      · obtain ⟨-, ⟨-, done⟩ | ⟨held, -⟩⟩ := runs_record sound records
        · cases done
        · exact absurd free held
    · cases refused
  · obtain ⟨-, ⟨-, done⟩ | ⟨held, refused⟩⟩ := runs_remember sound remembers
    · cases done
    · cases refused
      exact .inr ⟨held, rfl⟩

/-! ## Looking the job up -/

/-- What the lookup of a new job comes to. -/
inductive Lookup (s t : RowState W) (h : Hearing) : Except Exn Bool → Prop
  | refused (refused : h.refusedLater = true) (unnamed : h.name = none)
      (failed : t.offer.state = .failed) : Lookup s t h (.ok false)
  | undecided (refused : h.refusedLater = false) (unnamed : h.name = none)
      (undecided : h.undecided = true)
      (state : t.offer.state = s.offer.state) (free : t.Free) (log : t.log = s.log) :
      Lookup s t h (.ok false)
  | named {id} (refused : h.refusedLater = false) (named : h.name = some id)
      (free : id ∉ s.others) (held : t.Free) (log : t.log = s.log) : Lookup s t h (.ok true)
  | taken {id} (refused : h.refusedLater = false) (named : h.name = some id)
      (taken : id ∈ s.others) : Lookup s t h (.error (.database .integrityError))

/-- Setting an id, and the flush after it. -/
theorem runs_setId {id : String} {r : Except Exn Bool} (sound : sync.Sound)
    (run : (do
      edit fun offer => { offer with offerExtId := some id }
      sync.flush
      pure true : Prog Exn (RowState W) Bool).Runs s r t) :
    t.offer.offerExtId = some id ∧ t.others = s.others ∧ t.log = s.log ∧
      (id ∉ s.others ∧ r = .ok true ∨
        id ∈ s.others ∧ r = .error (.database .integrityError)) := by
  rw [runs_edit_bind] at run
  have free : (s.set { s.offer with offerExtId := some id }).Free ↔ id ∉ s.others := by
    constructor
    · intro clear
      exact clear id rfl
    · rintro clear _ ⟨⟩
      exact clear
  rcases runs_bind.mp run with ⟨_, m, flushed, rest⟩ | ⟨e, flushed, rfl⟩
  · obtain ⟨rfl, ⟨clear, -⟩ | ⟨-, refused⟩⟩ := runs_flush sound flushed
    · obtain ⟨rfl, rfl⟩ := runs_pure.mp rest
      exact ⟨rfl, rfl, rfl, .inl ⟨free.mp clear, rfl⟩⟩
    · cases refused
  · obtain ⟨rfl, ⟨-, done⟩ | ⟨held, refused⟩⟩ := runs_flush sound flushed
    · cases done
    · cases refused
      exact ⟨rfl, rfl, rfl, .inr ⟨not_not.mp (held ∘ free.mpr), rfl⟩⟩

variable {h : Hearing} {m : RowState W} {phase : Phase}

/-- The row that looks up its new job: without an id, and else as `s`. -/
structure Looking (s m : RowState W) (jobId : String) : Prop where
  pending : truthyId m.offer.pendingJobId = some jobId
  unknown : m.offer.offerExtId = none
  product : m.offer.productExtId = s.offer.productExtId
  state : m.offer.state = s.offer.state
  others : m.others = s.others
  log : m.log = s.log

theorem free_of_unknown (unknown : t.offer.offerExtId = none) : t.Free := by
  intro id held
  cases unknown.symm.trans held

theorem Lookup.of_setId {id : String} {r : Except Exn Bool} (refused : h.refusedLater = false)
    (named : h.name = some id) (others : m.others = s.others) (log : m.log = s.log)
    (known : t.offer.offerExtId = some id) (others' : t.others = m.others)
    (log' : t.log = m.log)
    (answered : id ∉ m.others ∧ r = .ok true ∨
      id ∈ m.others ∧ r = .error (.database .integrityError)) : Lookup s t h r := by
  rcases answered with ⟨free, rfl⟩ | ⟨taken, rfl⟩
  · refine .named refused named (others ▸ free) ?_ (log'.trans log)
    intro id' held
    cases known.symm.trans held
    rw [others']
    exact free
  · exact .taken refused named (others ▸ taken)

/-- A report that does not lead to the list of offers. -/
theorem lookup_reported {jobId : String} {report : JobResult} {w : W} {r : Except Exn Bool}
    {answer : JobResult} (sound : sync.Sound) (looking : Looking s m jobId)
    (unnamed : truthyId answer.resourceId = none)
    (reports : sync.adapter.getJob jobId m.world = (.ok report, w))
    (told : report.succeeded = true → (truthyId report.resourceId).isSome)
    (run : (sync.resolveOfferId phase).Runs m r t) :
    Lookup s t ⟨answer, some report, none⟩ r := by
  unfold resolveOfferId at run
  rw [runs_get_bind, looking.pending] at run
  rcases attempt_request_cases run with ⟨job, w, asked, rest⟩ | ⟨e, w, asked, -⟩ | ⟨e, w, -, asked, -⟩
  · cases reports.symm.trans asked
    rcases runs_ite.mp rest with ⟨finished, rest⟩ | ⟨unfinished, rest⟩
    · rw [runs_edit_bind] at rest
      rcases runs_ite.mp rest with ⟨succeeded, rest⟩ | ⟨failed, rest⟩
      · obtain ⟨id, named⟩ := Option.isSome_iff_exists.mp (told succeeded)
        rw [named] at rest
        obtain ⟨known, others, log, answered⟩ := runs_setId sound rest
        refine .of_setId ?_ ?_ looking.others looking.log known others log answered
        · exact JobResult.refused_of_succeeded succeeded
        · simp [Hearing.name, unnamed, Option.filter, succeeded, named]
      · rw [runs_edit_bind] at rest
        have refused : report.refused = true := by
          simpa [JobResult.refused, finished] using failed
        rcases runs_bind.mp rest with ⟨_, m', flushed, rest⟩ | ⟨e, flushed, rfl⟩
        · obtain ⟨rfl, -⟩ := runs_flush sound flushed
          obtain ⟨rfl, rfl⟩ := runs_pure.mp rest
          have failed : report.succeeded = false := by simpa using failed
          refine .refused refused ?_ rfl
          simp [Hearing.name, unnamed, Option.filter, failed]
        · obtain ⟨-, ⟨-, done⟩ | ⟨held, -⟩⟩ := runs_flush sound flushed
          · cases done
          · exact absurd (free_of_unknown looking.unknown) held
    · obtain ⟨rfl, rfl⟩ := runs_pure.mp rest
      have unrefused : report.refused = false := by
        simp only [Bool.not_eq_true] at unfinished
        simp [JobResult.refused, unfinished]
      have failed : report.succeeded = false := by
        by_contra succeeded
        exact unfinished (JobResult.isFinished_of_succeeded (Bool.not_eq_false _ ▸ succeeded))
      have nameless : (⟨answer, some report, none⟩ : Hearing).name = none := by
        simp [Hearing.name, unnamed, Option.filter, failed]
      refine .undecided unrefused nameless ?_ looking.state (free_of_unknown looking.unknown)
        looking.log
      rw [Hearing.undecided, nameless, Option.any_some, unrefused]
      rfl
  · cases reports.symm.trans asked
  · cases reports.symm.trans asked

/-- A report of a success without an id, and the offers the store then lists. -/
theorem lookup_listed {jobId : String} {report : JobResult} {w w' : W} {r : Except Exn Bool}
    {answer : JobResult} {views : List StoreOfferView} (sound : sync.Sound)
    (looking : Looking s m jobId) (unnamed : truthyId answer.resourceId = none)
    (reports : sync.adapter.getJob jobId m.world = (.ok report, w))
    (succeeded : report.succeeded = true) (untold : truthyId report.resourceId = none)
    (lists : sync.listing s w = (.ok views, w'))
    (run : (sync.resolveOfferId phase).Runs m r t) :
    Lookup s t ⟨answer, some report, some views⟩ r := by
  have unrefused := JobResult.refused_of_succeeded succeeded
  unfold resolveOfferId at run
  rw [runs_get_bind, looking.pending] at run
  rcases attempt_request_cases run with ⟨job, w, asked, rest⟩ | ⟨e, w, asked, -⟩ | ⟨e, w, -, asked, -⟩
  · cases reports.symm.trans asked
    rcases runs_ite.mp rest with ⟨-, rest⟩ | ⟨unfinished, -⟩
    · rw [runs_edit_bind] at rest
      rcases runs_ite.mp rest with ⟨-, rest⟩ | ⟨failed, -⟩
      · rw [untold] at rest
        unfold findRemote at rest
        rw [runs_get_bind] at rest
        have lists' : sync.adapter.offersForProduct m.offer.productExtId w = (.ok views, w') := by
          rw [looking.product]
          exact lists
        rcases request_cases rest with ⟨remote, w, asked, rest⟩ | ⟨e, w, asked, -⟩
        · cases lists'.symm.trans asked
          cases views with
          | nil =>
              obtain ⟨rfl, rfl⟩ := runs_pure.mp rest
              have nameless : (⟨answer, some report, some []⟩ : Hearing).name = none := by
                simp [Hearing.name, unnamed, Option.filter, succeeded, untold]
              refine .undecided unrefused nameless ?_ looking.state
                (free_of_unknown looking.unknown) looking.log
              rw [Hearing.undecided, nameless, Option.any_some, unrefused]
              rfl
          | cons view views =>
              obtain ⟨known, others, log, answered⟩ := runs_setId sound rest
              refine .of_setId unrefused ?_ looking.others looking.log known others log answered
              simp [Hearing.name, unnamed, Option.filter, succeeded, untold]
        · cases lists'.symm.trans asked
      · exact absurd succeeded failed
    · exact absurd (JobResult.isFinished_of_succeeded succeeded) unfinished
  · cases reports.symm.trans asked
  · cases reports.symm.trans asked

/-! ## The verdict -/

/-- The verdict of a create is "errors" exactly on a refused job, and every other create is
recorded as pushed, once. -/
structure Verdict (desired : DesiredOffer) (h : Hearing) (s : RowState W)
    (r : Except Exn StatKey) (t : RowState W) : Prop where
  errors : r = .ok .errors ↔ h.refused = true
  created : h.refused = false → r = .ok .created ∧ t.offer.pushedPrice = some desired.price ∧
    t.offer.pushedInventory = some desired.inventory ∧
    t.offer.pushedActive = some desired.active ∧ ∃ row, t.log = s.log ++ [row]

/-- The id the store gives is free; and where the lookup does not report the job as
refused, the answer to the create does so exactly if the row was FAILED before and the
lookup decides nothing. -/
structure Judgeable (s : RowState W) (h : Hearing) : Prop where
  free : ∀ id, h.name = some id → id ∉ s.others
  fresh : h.refusedLater = true ∨
    (h.answer.refused = true ↔ s.offer.state = .failed ∧ h.undecided = true)

theorem verdict_of_raised {e : Exn} : ¬ Verdict desired h s (.error e) t := by
  intro verdict
  cases refused : h.refused with
  | true => cases verdict.errors.mpr refused
  | false => cases (verdict.created refused).1

theorem verdict_of_errors : Verdict desired h s (.ok .errors) t ↔ h.refused = true := by
  constructor
  · intro verdict
    exact verdict.errors.mp rfl
  · intro refused
    refine ⟨iff_of_true rfl refused, fun unrefused => ?_⟩
    cases refused.symm.trans unrefused

/-- Recording a create leads to the right verdict if the id is free and the job was not
refused. -/
theorem verdict_of_recorded {calledAt : Time} {r : Except Exn StatKey} (sound : sync.Sound)
    (run : (sync.recordCreate desired now calledAt).Runs m r t) (log : m.log = s.log) :
    Verdict desired h s r t ↔ m.Free ∧ h.refused = false := by
  rcases recordCreate_exact sound run with ⟨free, rfl, row, logged⟩ | ⟨held, rfl⟩
  · rw [log] at logged
    constructor
    · intro verdict
      refine ⟨free, Bool.eq_false_iff.mpr fun refused => ?_⟩
      cases verdict.errors.mpr refused
    · intro found
      obtain ⟨-, unrefused⟩ := found
      refine ⟨iff_of_false (by simp) (by simp [unrefused]), fun _ => ⟨rfl, ?_⟩⟩
      rw [row]
      exact ⟨rfl, rfl, rfl, logged⟩
  · exact iff_of_false verdict_of_raised fun judged => held judged.1

/-- A create whose lookup reports no refusal and decides something, or follows no earlier
failure, is judged right if its own answer reports none. -/
theorem judgeable_iff (unrefused : h.refusedLater = false)
    (fresh : ¬ (s.offer.state = .failed ∧ h.undecided = true)) :
    Judgeable s h ↔ (∀ id, h.name = some id → id ∉ s.others) ∧ h.refused = false := by
  have answered : h.refused = h.answer.refused := by
    rw [Hearing.refused, unrefused, Bool.or_false]
  rw [answered]
  constructor
  · intro judgeable
    refine ⟨judgeable.free, Bool.eq_false_iff.mpr fun refused => ?_⟩
    rcases judgeable.fresh with later | same
    · cases unrefused.symm.trans later
    · exact fresh (same.mp refused)
  · intro found
    obtain ⟨free, refused⟩ := found
    exact ⟨free, .inr (iff_of_false (by simp [refused]) fresh)⟩

/-- The end of a create whose job was looked up. -/
theorem verdict_of_lookup {calledAt : Time} {b : Bool} {r : Except Exn StatKey}
    (sound : sync.Sound) (lookup : Lookup s m h (.ok b))
    (run : (do
      let t ← get
      if !b && t.offer.state = .failed then pure .errors
      else sync.recordCreate desired now calledAt : Prog Exn (RowState W) StatKey).Runs m r t) :
    Verdict desired h s r t ↔ Judgeable s h := by
  rw [runs_get_bind] at run
  generalize result : (Except.ok b : Except Exn Bool) = q at lookup
  cases lookup with
  | refused refused unnamed failed =>
      cases result
      rw [failed] at run
      obtain ⟨rfl, rfl⟩ := runs_pure.mp run
      rw [verdict_of_errors]
      refine iff_of_true ?_ ⟨fun id named => ?_, .inl refused⟩
      · rw [Hearing.refused, refused, Bool.or_true]
      · cases unnamed.symm.trans named
  | undecided unrefused unnamed undecided state free log =>
      cases result
      rw [state] at run
      have noId : ∀ id, h.name = some id → id ∉ s.others := by
        intro id named
        cases unnamed.symm.trans named
      by_cases failed : s.offer.state = .failed
      · rw [failed] at run
        obtain ⟨rfl, rfl⟩ := runs_pure.mp run
        rw [verdict_of_errors, Hearing.refused, unrefused, Bool.or_false]
        constructor
        · intro refused
          exact ⟨noId, .inr (iff_of_true refused ⟨failed, undecided⟩)⟩
        · intro judgeable
          rcases judgeable.fresh with later | same
          · cases unrefused.symm.trans later
          · exact same.mpr ⟨failed, undecided⟩
      · rw [if_neg (by simp [failed])] at run
        rw [verdict_of_recorded sound run log, judgeable_iff unrefused fun stale => failed stale.1]
        exact and_congr_left' (iff_of_true free noId)
  | @named id unrefused named free held log =>
      cases result
      rw [if_neg (by simp)] at run
      have decided : ¬ (s.offer.state = .failed ∧ h.undecided = true) := by
        intro found
        obtain ⟨-, undecided⟩ := found
        simp [Hearing.undecided, named] at undecided
      rw [verdict_of_recorded sound run log, judgeable_iff unrefused decided]
      refine and_congr_left' (iff_of_true held fun id' named' => ?_)
      cases named.symm.trans named'
      exact free
  | taken => cases result

/-- A create whose offer the lookup of its job names with a taken id. -/
theorem not_judgeable_of_lookup {e : Exn} (lookup : Lookup s m h (.error e)) :
    ¬ Judgeable s h := by
  intro judgeable
  generalize result : (Except.error e : Except Exn Bool) = q at lookup
  cases lookup with
  | refused => cases result
  | undecided => cases result
  | named => cases result
  | taken _ named taken => exact judgeable.free _ named taken

/-- The row after a create was accepted. -/
def RowState.accepted (sync : OfferSync W) (s : RowState W) (desired : DesiredOffer)
    (job : JobResult) (world : W) : RowState W :=
  (s.askedCreate sync desired (.ok job) world).set
    { s.offer with pendingJobId := truthyId (some job.jobId) }

theorem accepted_of_answer {job : JobResult} {w : W} {r : Except Exn StatKey}
    {f : Except ApiError JobResult → Prog Exn (RowState W) StatKey}
    {g : Unit → Prog Exn (RowState W) StatKey}
    (accepts : f (.ok job) = (edit fun offer =>
      { offer with pendingJobId := truthyId (some job.jobId) }) >>= g)
    (answer : sync.createAnswer desired s = (.ok job, w))
    (run : (attempt (sync.request .creating
      (.createOffer s.offer.productExtId desired.price desired.inventory desired.active)
      (sync.adapter.createOffer s.offer.productExtId desired.price desired.inventory
        desired.active)) >>= f).Runs s r t) :
    (g ()).Runs (s.accepted sync desired job w) r t := by
  rcases attempt_request_cases run with ⟨job', w', asked, rest⟩ | ⟨e, w', asked, -⟩ |
    ⟨e, w', -, asked, -⟩
  · cases answer.symm.trans asked
    rw [accepts, runs_edit_bind] at rest
    exact rest
  · cases answer.symm.trans asked
  · cases answer.symm.trans asked

theorem looking_of_accepted {job : JobResult} {w : W} {jobId : String}
    (pending : truthyId (some job.jobId) = some jobId) (unknown : s.offer.offerExtId = none) :
    Looking s (s.accepted sync desired job w) jobId where
  pending := by
    change truthyId (truthyId (some job.jobId)) = some jobId
    rw [truthyId_idem, pending]
  unknown := unknown
  product := rfl
  state := rfl
  others := rfl
  log := rfl

/-- The verdict of a create of which no call raises is right exactly if the id it is given
is free and no earlier failure decides in place of its job. -/
theorem create_verdict_iff (sound : sync.Sound) (unknown : s.offer.offerExtId = none)
    (heard : sync.Hears desired s h) {r : Except Exn StatKey}
    (run : (sync.create desired now).Runs s r t) :
    Verdict desired h s r t ↔ Judgeable s h := by
  unfold create at run
  rw [runs_get_bind] at run
  cases heard with
  | @direct job w answer settled =>
      have rest := accepted_of_answer rfl answer run
      have decided : ¬ (s.offer.state = .failed ∧
          (⟨job, none, none⟩ : Hearing).undecided = true) := by
        intro found
        obtain ⟨-, undecided⟩ := found
        cases undecided
      cases named : truthyId job.resourceId with
      | some id =>
          rw [named, runs_edit_bind] at rest
          have name : (⟨job, none, none⟩ : Hearing).name = some id := by simp [Hearing.name, named]
          refine (verdict_of_recorded (s := s) sound rest rfl).trans
            (.trans (and_congr_left' ?_) (judgeable_iff rfl decided).symm)
          rw [name]
          exact Iff.rfl
      | none =>
          rw [named] at settled rest
          have jobless : truthyId (some job.jobId) = none := by simpa using settled
          have name : (⟨job, none, none⟩ : Hearing).name = none := by simp [Hearing.name, named]
          rw [jobless] at rest
          refine (verdict_of_recorded (s := s) sound rest rfl).trans
            (.trans (and_congr_left' ?_) (judgeable_iff rfl decided).symm)
          rw [name]
          refine iff_of_true (free_of_unknown unknown) ?_
          intro id named'
          cases named'
  | @looked job w jobId report w' answer unnamed pending reports told =>
      have rest := accepted_of_answer rfl answer run
      rw [unnamed, pending] at rest
      rcases runs_bind.mp rest with ⟨b, m, resolves, rest⟩ | ⟨e, resolves, rfl⟩
      · exact verdict_of_lookup sound
          (lookup_reported sound (looking_of_accepted pending unknown) unnamed reports told resolves)
          rest
      · exact iff_of_false verdict_of_raised (not_judgeable_of_lookup
          (lookup_reported sound (looking_of_accepted pending unknown) unnamed reports told
            resolves))
  | @listed job w jobId report w' views w'' answer unnamed pending reports succeeded untold lists =>
      have rest := accepted_of_answer rfl answer run
      rw [unnamed, pending] at rest
      rcases runs_bind.mp rest with ⟨b, m, resolves, rest⟩ | ⟨e, resolves, rfl⟩
      · exact verdict_of_lookup sound
          (lookup_listed sound (looking_of_accepted pending unknown) unnamed reports succeeded
            untold lists resolves) rest
      · exact iff_of_false verdict_of_raised (not_judgeable_of_lookup
          (lookup_listed sound (looking_of_accepted pending unknown) unnamed reports succeeded
            untold lists resolves))

end OfferSync

namespace EchoStore

/-- The store while it works on its jobs. -/
def unhurried : Adapter Time :=
  { adapter with getJob := fun jobId w => (.ok ⟨jobId, "pending", none, []⟩, w) }

/-- The first product, after a create that failed. -/
def failedRow : OfferSync.RowState Time :=
  { firstRow with offer := { firstRow.offer with state := .failed } }

def created (adapter : Adapter Time) (row : OfferSync.RowState Time) :
    Except Exn StatKey × OfferSync.RowState Time :=
  ((offers settings adapter).create wanted 0).exec row

/-- What the store says to the create when it completes its job. -/
def completed : OfferSync.Hearing := ⟨job "1" none, some (job "1" (some "1")), none⟩

theorem hears_completed : (offers settings adapter).Hears wanted firstRow completed := by
  have told : (job "1" (some "1")).succeeded = true →
      (truthyId (job "1" (some "1")).resourceId).isSome := by decide
  have pending : truthyId (some (job "1" none).jobId) = some "1" := by decide
  exact .looked rfl rfl pending rfl told

/-- A create that the store completes is recorded as pushed. -/
theorem completed_recorded :
    OfferSync.Verdict wanted completed firstRow (created adapter firstRow).1
      (created adapter firstRow).2 := by
  refine (OfferSync.create_verdict_iff (fun _ => rfl) rfl hears_completed rfl).mpr ⟨?_, .inr ?_⟩
  · intro id _
    exact List.not_mem_nil
  · decide

/-- What the store says when it has not come to the job yet. -/
def unfinished : OfferSync.Hearing := ⟨job "1" none, some ⟨"1", "pending", none, []⟩, none⟩

/-- A create of an offer that failed before is called failed while its job is pending. -/
theorem unfinished_blamed :
    (offers settings unhurried).Hears wanted failedRow unfinished ∧
    (created unhurried failedRow).1 = .ok .errors ∧ unfinished.refused = false := by
  have told : (⟨"1", "pending", none, []⟩ : JobResult).succeeded = true →
      (truthyId none).isSome := by decide
  have pending : truthyId (some (job "1" none).jobId) = some "1" := by decide
  exact ⟨.looked rfl rfl pending rfl told, by decide +kernel, by decide⟩

end EchoStore

end FazerBridge
