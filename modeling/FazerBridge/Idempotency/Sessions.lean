import FazerBridge.Idempotency.Replays
import FazerBridge.Models

/-!
# The caller's session

`run_once` commits and rolls back the session it is given.  `runOnceIn` is the call on a
session that holds changes of the caller's own: its first commit writes them together
with the claim, or discards them with it, so none of them is pending when the call ends
(`runOnceIn_disturbs`).  On the records the call is that of
`FazerBridge.Idempotency.Replays` (`runOnceIn_eq`).
-/

namespace FazerBridge

namespace Idempotency

/-- A session: what is committed of the records and of the caller's tables, and the
caller's changes that are not; a change that violates a constraint answers `none`. -/
structure Session (W T : Type) where
  book : Book W
  tables : T
  pending : List (T → Option T)

/-- What a call on a session leaves unhandled. -/
inductive SessionError
  | thrown (error : Thrown)
  | database (error : DbError)
  /-- `.one()` finds no row -/
  | noResultFound
  deriving DecidableEq, Repr

section

variable {W T : Type}

/-- The tables after the changes, in the order they were made. -/
def applied : List (T → Option T) → T → Option T
  | [], tables => some tables
  | change :: changes, tables => (change tables).bind (applied changes)

/-- Commit a record with what is pending; `holds` says that the constraint of the record
does.  What cannot be committed is discarded. -/
def Session.commit (database : W → Option DbError × W) (id : String × String)
    (record : IdempotencyRecord Json) (holds : Bool) (s : Session W T) :
    Option DbError × Session W T :=
  match if holds then applied s.pending s.tables else none with
  | none => (some .integrityError, { s with pending := [] })
  | some tables =>
    match database s.book.world with
    | (some fault, world) =>
      (some fault, { s with book := { s.book with world := world }, pending := [] })
    | (none, world) => (none, ⟨{ s.book with world := world }.put id record, tables, []⟩)

variable (database : W → Option DbError × W)

/-- Commit a record that is there, and end with `result`. -/
def store (call : Attempt W) (record : IdempotencyRecord Json)
    (result : Except Thrown (Outcome Json)) (s : Session W T) :
    Except SessionError (Outcome Json) × Session W T :=
  match s.commit database call.id record true with
  | (none, s) => (result.mapError .thrown, s)
  | (some fault, s) => (.error (.database fault), s)

/-- `perform`, in a session. -/
def performIn (call : Attempt W) (record : IdempotencyRecord Json) (s : Session W T) :
    Except SessionError (Outcome Json) × Session W T :=
  match call.operation s.book.world with
  | (.error _, world) =>
    store database call { record with state := .failed } (.error (.raised .operation))
      { s with book := { s.book with world := world, ran := s.book.ran + 1 } }
  | (.ok result, world) =>
    store database call { record with state := .completed, response := some (storedForm result) }
      (.ok ⟨some result, false⟩)
      { s with book := { s.book with world := world, ran := s.book.ran + 1 } }

/-- `recover`, in a session. -/
def recoverIn (call : Attempt W) (onReplay : IdempotencyRecord Json → W → Except String Json × W)
    (existing : IdempotencyRecord Json) (s : Session W T) :
    Except SessionError (Outcome Json) × Session W T :=
  match onReplay existing s.book.world with
  | (.error message, world) =>
    (.error (.thrown (.onReplay message)), { s with book := { s.book with world := world } })
  | (.ok .null, world) =>
    performIn database call existing { s with book := { s.book with world := world } }
  | (.ok recovered, world) =>
    store database call { existing with state := .completed, response := some recovered }
      (.ok ⟨some recovered, true⟩) { s with book := { s.book with world := world } }

/-- `run_once` after its claim failed. -/
def replayIn (requestHash : Json → String) (call : Attempt W) (s : Session W T) :
    Except SessionError (Outcome Json) × Session W T :=
  match s.book.records call.id with
  | none => (.error .noResultFound, s)
  | some existing =>
    if existing.requestHash ≠ requestHash call.payload then
      (.error (.thrown (.raised .idempotencyConflict)), s)
    else
      match existing.state with
      | .completed => (.ok ⟨existing.response, true⟩, s)
      | .failed =>
        let record := { existing with state := .inProgress }
        match s.commit database call.id record true with
        | (none, s) => performIn database call record s
        | (some fault, s) => (.error (.database fault), s)
      | .inProgress =>
        match call.onReplay with
        | none => (.error (.thrown (.raised .operationInProgress)), s)
        | some onReplay => recoverIn database call onReplay existing s

/-- `run_once` -/
def runOnceIn (requestHash : Json → String) (call : Attempt W) (s : Session W T) :
    Except SessionError (Outcome Json) × Session W T :=
  let record := ⟨requestHash call.payload, .inProgress, none⟩
  match s.commit database call.id record (s.book.records call.id).isNone with
  | (none, s) => performIn database call record s
  | (some .integrityError, s) => replayIn database requestHash call s
  | (some fault, s) => (.error (.database fault), s)

/-! ## What becomes of the caller's changes -/

/-- The changes are as pending as they were, and nothing of them is committed. -/
structure Undisturbed (s s' : Session W T) : Prop where
  pending : s'.pending = s.pending
  tables : s'.tables = s.tables

/-- Nothing is pending, and these are the tables. -/
structure Settled (tables : T) (s : Session W T) : Prop where
  pending : s.pending = []
  tables : s.tables = tables

variable {database} {call : Attempt W} {book : Book W} {tables : T}

/-- A commit without pending changes leaves the tables alone. -/
theorem commit_settled {id : String × String} {record : IdempotencyRecord Json} {holds : Bool} :
    Settled tables ((Session.mk book tables []).commit database id record holds).2 := by
  unfold Session.commit
  cases holds with
  | false => exact ⟨rfl, rfl⟩
  | true =>
      rw [if_pos rfl, applied]
      dsimp only
      cases database book.world with
      | mk fault world => cases fault <;> exact ⟨rfl, rfl⟩

/-- Storing a result leaves nothing pending. -/
theorem store_settled {record : IdempotencyRecord Json} {result : Except Thrown (Outcome Json)} :
    Settled tables (store database call record result ⟨book, tables, []⟩).2 := by
  have settled : Settled tables
      ((Session.mk book tables []).commit database call.id record true).2 := commit_settled
  unfold store
  cases committed : (Session.mk book tables []).commit database call.id record true with
  | mk fault s =>
      rw [committed] at settled
      cases fault <;> exact settled

/-- Performing the operation leaves nothing pending. -/
theorem performIn_settled {record : IdempotencyRecord Json} :
    Settled tables (performIn database call record ⟨book, tables, []⟩).2 := by
  unfold performIn
  dsimp only
  cases call.operation book.world with
  | mk result world => cases result <;> exact store_settled

/-- Recovering leaves nothing pending. -/
theorem recoverIn_settled {onReplay : IdempotencyRecord Json → W → Except String Json × W}
    {existing : IdempotencyRecord Json} :
    Settled tables (recoverIn database call onReplay existing ⟨book, tables, []⟩).2 := by
  unfold recoverIn
  dsimp only
  cases onReplay existing book.world with
  | mk result world =>
      cases result with
      | error message => exact ⟨rfl, rfl⟩
      | ok value =>
          cases value with
          | null => exact performIn_settled
          | bool | number | string | array | object => exact store_settled

/-- Replaying leaves nothing pending. -/
theorem replayIn_settled {requestHash : Json → String} :
    Settled tables (replayIn database requestHash call ⟨book, tables, []⟩).2 := by
  unfold replayIn
  dsimp only
  cases book.records call.id with
  | none => exact ⟨rfl, rfl⟩
  | some existing =>
      dsimp only
      split
      · exact ⟨rfl, rfl⟩
      · cases existing.state with
        | completed => exact ⟨rfl, rfl⟩
        | failed =>
            have settled : Settled tables ((Session.mk book tables []).commit database call.id
                { existing with state := .inProgress } true).2 := commit_settled
            dsimp only
            cases committed : (Session.mk book tables []).commit database call.id
                { existing with state := .inProgress } true with
            | mk fault s =>
                rw [committed] at settled
                cases fault with
                | some fault => exact settled
                | none =>
                    obtain ⟨book', tables', pending⟩ := s
                    obtain rfl : pending = [] := settled.pending
                    obtain rfl : tables' = tables := settled.tables
                    exact performIn_settled
        | inProgress =>
            cases call.onReplay with
            | none => exact ⟨rfl, rfl⟩
            | some onReplay => exact recoverIn_settled

/-! ## What the call does to the records -/

/-- The end of a call, in a session without pending changes. -/
def inSession (tables : T) (ended : Except Thrown (Outcome Json) × Book W) :
    Except SessionError (Outcome Json) × Session W T :=
  (ended.1.mapError .thrown, ⟨ended.2, tables, []⟩)

section

variable (idle : ∀ w, database w = (none, w))

include idle

theorem commit_idle {id : String × String} {record : IdempotencyRecord Json} :
    (Session.mk book tables []).commit database id record true =
      (none, ⟨book.put id record, tables, []⟩) := by
  unfold Session.commit
  simp only [if_true, applied, idle]

/-- With nothing pending a result is stored as without a session. -/
theorem store_idle {record : IdempotencyRecord Json} {result : Except Thrown (Outcome Json)} :
    store database call record result ⟨book, tables, []⟩ =
      inSession tables (result, book.put call.id record) := by
  rw [store, commit_idle idle]
  rfl

/-- With nothing pending the operation is performed as without a session. -/
theorem performIn_idle {record : IdempotencyRecord Json} :
    performIn database call record ⟨book, tables, []⟩ =
      inSession tables (perform call record book) := by
  unfold performIn perform
  dsimp only
  cases call.operation book.world with
  | mk result world => cases result <;> exact store_idle idle

/-- With nothing pending a call recovers as without a session. -/
theorem recoverIn_idle {onReplay : IdempotencyRecord Json → W → Except String Json × W}
    {existing : IdempotencyRecord Json} :
    recoverIn database call onReplay existing ⟨book, tables, []⟩ =
      inSession tables (recover call onReplay existing book) := by
  unfold recoverIn recover
  dsimp only
  cases onReplay existing book.world with
  | mk result world =>
      cases result with
      | error message => rfl
      | ok value =>
          cases value with
          | null => exact performIn_idle idle
          | bool | number | string | array | object => exact store_idle idle

/-- With a database that never fails, a call whose claim meets a record, or whose
session's changes hold, returns and records what `runOnce` does. -/
theorem runOnceIn_eq (requestHash : Json → String) (s : Session W T)
    (holds : s.book.records call.id = none → (applied s.pending s.tables).isSome = true) :
    ∃ tables, runOnceIn database requestHash call s =
      inSession tables (runOnce requestHash call s.book) := by
  unfold runOnceIn runOnce Session.commit
  dsimp only
  cases found : s.book.records call.id with
  | none =>
      obtain ⟨tables, changed⟩ := Option.isSome_iff_exists.mp (holds found)
      rw [Option.isNone_none, if_pos rfl, changed]
      simp only [idle]
      exact ⟨tables, performIn_idle idle⟩
  | some existing =>
      rw [Option.isNone_some, if_neg Bool.false_ne_true]
      refine ⟨s.tables, ?_⟩
      unfold replayIn
      simp only [found]
      split
      · rfl
      · cases existing.state with
        | completed => rfl
        | failed =>
            dsimp only
            rw [commit_idle idle]
            exact performIn_idle idle
        | inProgress =>
            cases call.onReplay with
            | none => rfl
            | some onReplay => exact recoverIn_idle idle

end

/-! ## The caller's changes -/

variable {s : Session W T}

/-- The claim takes the caller's changes with it. -/
def Claims (database : W → Option DbError × W) (call : Attempt W) (s : Session W T) (tables : T) :
    Prop :=
  s.book.records call.id = none ∧ applied s.pending s.tables = some tables ∧
    (database s.book.world).1 = none

/-- Nothing of the caller's changes is pending after a call.  They are committed if the
key was free, they hold and the database takes them, and discarded otherwise. -/
theorem runOnceIn_disturbs (database : W → Option DbError × W) (requestHash : Json → String)
    (call : Attempt W) (s : Session W T) (some_ : s.pending ≠ []) :
    ¬ Undisturbed s (runOnceIn database requestHash call s).2 ∧
    (runOnceIn database requestHash call s).2.pending = [] ∧
    (∀ tables, Claims database call s tables →
      (runOnceIn database requestHash call s).2.tables = tables) ∧
    ((∀ tables, ¬ Claims database call s tables) →
      (runOnceIn database requestHash call s).2.tables = s.tables) := by
  suffices ended : (runOnceIn database requestHash call s).2.pending = [] ∧
      (∀ tables, Claims database call s tables →
        (runOnceIn database requestHash call s).2.tables = tables) ∧
      ((∀ tables, ¬ Claims database call s tables) →
        (runOnceIn database requestHash call s).2.tables = s.tables) from
    ⟨fun undisturbed => some_ (undisturbed.pending.symm.trans ended.1), ended⟩
  unfold runOnceIn Session.commit
  dsimp only
  by_cases free : s.book.records call.id = none
  · rw [free, Option.isNone_none, if_pos rfl]
    cases holds : applied s.pending s.tables with
    | none =>
        have settled : Settled s.tables
            (replayIn database requestHash call { s with pending := [] }).2 := replayIn_settled
        refine ⟨settled.pending, fun tables claims => ?_, fun _ => settled.tables⟩
        have violated := claims.2.1
        rw [holds] at violated
        cases violated
    | some tables =>
        cases answer : database s.book.world with
        | mk fault world =>
            cases fault with
            | none =>
                have settled : Settled tables (performIn database call
                    ⟨requestHash call.payload, .inProgress, none⟩
                    ⟨{ s.book with world := world }.put call.id
                      ⟨requestHash call.payload, .inProgress, none⟩, tables, []⟩).2 :=
                  performIn_settled
                refine ⟨settled.pending, fun tables' claims => ?_, fun unclaimed => ?_⟩
                · have same := claims.2.1
                  rw [holds] at same
                  cases same
                  exact settled.tables
                · exact absurd ⟨free, holds, congrArg Prod.fst answer⟩ (unclaimed tables)
            | some fault =>
                have unclaimed : ∀ tables', ¬ Claims database call s tables' := by
                  intro tables' claims
                  have taken := claims.2.2
                  rw [answer] at taken
                  cases taken
                cases fault with
                | integrityError =>
                    have settled : Settled s.tables (replayIn database requestHash call
                        { s with book := { s.book with world := world }, pending := [] }).2 :=
                      replayIn_settled
                    exact ⟨settled.pending, fun tables' claims => absurd claims (unclaimed tables'),
                      fun _ => settled.tables⟩
                | operationalError message =>
                    exact ⟨rfl, fun tables' claims => absurd claims (unclaimed tables'),
                      fun _ => rfl⟩
  · have taken : (s.book.records call.id).isNone = false := by
      rwa [← Bool.not_eq_true, Option.isNone_iff_eq_none]
    have settled : Settled s.tables
        (replayIn database requestHash call { s with pending := [] }).2 := replayIn_settled
    rw [taken, if_neg Bool.false_ne_true]
    exact ⟨settled.pending, fun tables claims => absurd claims.1 free, fun _ => settled.tables⟩

end

/-! ## A pending number -/

/-- A session with one pending change. -/
def counting (book : Book ℕ) : Session ℕ ℕ := ⟨book, 0, [fun n => some (n + 1)]⟩

/-- A call commits what its caller had pending. -/
theorem counting_disturbed :
    ¬ Undisturbed (counting noRecords)
      (runOnceIn (fun w => (none, w)) (fun _ => "digest") (answering order) (counting noRecords)).2 ∧
    (runOnceIn (fun w => (none, w)) (fun _ => "digest") (answering order)
      (counting noRecords)).2.pending = [] ∧
    (∀ tables, Claims (fun w => (none, w)) (answering order) (counting noRecords) tables →
      (runOnceIn (fun w => (none, w)) (fun _ => "digest") (answering order)
        (counting noRecords)).2.tables = tables) ∧
    ((∀ tables, ¬ Claims (fun w => (none, w)) (answering order) (counting noRecords) tables) →
      (runOnceIn (fun w => (none, w)) (fun _ => "digest") (answering order)
        (counting noRecords)).2.tables = 0) :=
  runOnceIn_disturbs (fun w => (none, w)) (fun _ => "digest") (answering order)
    (counting noRecords) (List.cons_ne_nil _ _)

/-- An operation that raises. -/
def raising : Attempt ℕ :=
  { answering .null with operation := fun n => (.error "ValueError", n + 1) }

/-- The change is committed by a call that raises, and discarded by a call that finds the
key taken. -/
theorem committed_and_discarded :
    (runOnceIn (fun w => (none, w)) (fun _ => "digest") raising (counting noRecords)).1 =
      .error (.thrown (.raised .operation)) ∧
    (runOnceIn (fun w => (none, w)) (fun _ => "digest") raising (counting noRecords)).2.tables = 1 ∧
    (runOnceIn (fun w => (none, w)) (fun _ => "digest") raising
      (counting (runOnce (fun _ => "digest") (answering order) noRecords).2)).2.pending = [] ∧
    (runOnceIn (fun w => (none, w)) (fun _ => "digest") raising
      (counting (runOnce (fun _ => "digest") (answering order) noRecords).2)).2.tables = 0 :=
  ⟨rfl, rfl, rfl, rfl⟩

end Idempotency

end FazerBridge
