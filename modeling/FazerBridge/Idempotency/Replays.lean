import FazerBridge.Idempotency
import FazerBridge.Lib.Json

/-!
# Calls one after the other

`run_once` as one caller at a time runs it, on JSON values (`runOnce`); every call is
a run of the steps of `FazerBridge.Idempotency` (`runOnce_steps`).

The first call returns the result of `operation` and stores a dict of it when it is
neither a dict nor a list; later calls return what is stored.  What comes from
`on_replay` is stored as it is.
-/

namespace FazerBridge

namespace Idempotency

/-- What a result is stored as. -/
def storedForm (result : Json) : Json :=
  if result.isContainer then result else .object [("value", result)]

/-- The arguments of a call; the null of `on_replay` is `None`. -/
structure Attempt (W : Type) where
  scope : String
  key : String
  payload : Json
  operation : W → Except String Json × W
  onReplay : Option (IdempotencyRecord Json → W → Except String Json × W) := none

/-- What a call leaves unhandled. -/
inductive Thrown
  | raised (error : Raised)
  /-- the exception of `on_replay` -/
  | onReplay (message : String)
  deriving DecidableEq, Repr

/-- The records, the world, and how often an operation ran. -/
structure Book (W : Type) where
  records : String × String → Option (IdempotencyRecord Json)
  world : W
  ran : ℕ

section

variable {W ι : Type}

/-- The key of the record. -/
def Attempt.id (call : Attempt W) : String × String := (call.scope, call.key)

/-- A call with the same scope, key and payload. -/
structure Attempt.Repeats (call first : Attempt W) : Prop where
  scope : call.scope = first.scope
  key : call.key = first.key
  payload : call.payload = first.payload

/-- Commit a record. -/
def Book.put (book : Book W) (id : String × String) (record : IdempotencyRecord Json) : Book W :=
  { book with records := Function.update book.records id (some record) }

@[simp] theorem Book.put_records (book : Book W) (id : String × String)
    (record : IdempotencyRecord Json) : (book.put id record).records id = some record :=
  Function.update_self ..

/-- Run the operation of a claimed key. -/
def perform (call : Attempt W) (record : IdempotencyRecord Json) (book : Book W) :
    Except Thrown (Outcome Json) × Book W :=
  match call.operation book.world with
  | (.error _, world) =>
    (.error (.raised .operation), { book with world := world, ran := book.ran + 1 }.put call.id
      { record with state := .failed })
  | (.ok result, world) =>
    (.ok ⟨some result, false⟩, { book with world := world, ran := book.ran + 1 }.put call.id
      { record with state := .completed, response := some (storedForm result) })

/-- Ask `on_replay` what became of an attempt that left no result. -/
def recover (call : Attempt W) (onReplay : IdempotencyRecord Json → W → Except String Json × W)
    (existing : IdempotencyRecord Json) (book : Book W) :
    Except Thrown (Outcome Json) × Book W :=
  match onReplay existing book.world with
  | (.error message, world) => (.error (.onReplay message), { book with world := world })
  | (.ok .null, world) => perform call existing { book with world := world }
  | (.ok recovered, world) =>
    (.ok ⟨some recovered, true⟩, { book with world := world }.put call.id
      { existing with state := .completed, response := some recovered })

/-- `run_once`, with `requestHash` for `request_hash`. -/
def runOnce (requestHash : Json → String) (call : Attempt W) (book : Book W) :
    Except Thrown (Outcome Json) × Book W :=
  let digest := requestHash call.payload
  match book.records call.id with
  | none =>
    let record := ⟨digest, .inProgress, none⟩
    perform call record (book.put call.id record)
  | some existing =>
    if existing.requestHash ≠ digest then (.error (.raised .idempotencyConflict), book)
    else
      match existing.state with
      | .completed => (.ok ⟨existing.response, true⟩, book)
      | .failed =>
        -- A recorded failure is safe to retry: no side effect landed.
        let record := { existing with state := .inProgress }
        perform call record (book.put call.id record)
      | .inProgress =>
        match call.onReplay with
        | none => (.error (.raised .operationInProgress), book)
        | some onReplay => recover call onReplay existing book

/-- Calls one after the other. -/
def runAll (requestHash : Json → String) :
    List (Attempt W) → Book W → List (Except Thrown (Outcome Json)) × Book W
  | [], book => ([], book)
  | call :: later, book =>
    let (outcome, book) := runOnce requestHash call book
    let (outcomes, book) := runAll requestHash later book
    (outcome :: outcomes, book)

/-- How a first call gets its value: from its operation, on a free key, after a
recorded failure or after an attempt of which `on_replay` found nothing; or from
`on_replay`. -/
inductive First (requestHash : Json → String) (call : Attempt W) (book : Book W) :
    Bool → Json → Prop
  | claimed {value} (free : book.records call.id = none)
      (done : (call.operation book.world).1 = .ok value) : First requestHash call book false value
  | retried {existing value} (taken : book.records call.id = some existing)
      (same : existing.requestHash = requestHash call.payload) (failed : existing.state = .failed)
      (done : (call.operation book.world).1 = .ok value) : First requestHash call book false value
  | unrecovered {existing onReplay world value} (taken : book.records call.id = some existing)
      (same : existing.requestHash = requestHash call.payload)
      (open_ : existing.state = .inProgress) (asked : call.onReplay = some onReplay)
      (nothing : onReplay existing book.world = (.ok .null, world))
      (done : (call.operation world).1 = .ok value) : First requestHash call book false value
  | recovered {existing onReplay world value} (taken : book.records call.id = some existing)
      (same : existing.requestHash = requestHash call.payload)
      (open_ : existing.state = .inProgress) (asked : call.onReplay = some onReplay)
      (found : onReplay existing book.world = (.ok value, world)) (some_ : value ≠ .null) :
      First requestHash call book true value

/-- The record of a completed call. -/
structure Book.Completed (book : Book W) (id : String × String) (digest : String)
    (stored : Json) : Prop where
  record : ∃ record, book.records id = some record ∧ record.requestHash = digest ∧
    record.state = .completed ∧ record.response = some stored

variable {requestHash : Json → String} {call : Attempt W} {book : Book W}

theorem perform_completed {record : IdempotencyRecord Json} {value : Json}
    (done : (call.operation book.world).1 = .ok value) :
    (perform call record book).1 = .ok ⟨some value, false⟩ ∧
      (perform call record book).2.ran = book.ran + 1 ∧
      (perform call record book).2.Completed call.id record.requestHash (storedForm value) := by
  rcases operated : call.operation book.world with ⟨result, world⟩
  rw [operated] at done
  obtain rfl : result = .ok value := done
  unfold perform
  rw [operated]
  exact ⟨rfl, rfl, ⟨_, Book.put_records .., rfl, rfl, rfl⟩⟩

/-- The value a call returned, and what is stored of it. -/
theorem First.runOnce {fromReplay : Bool} {value : Json}
    (first : First requestHash call book fromReplay value) :
    (runOnce requestHash call book).1 = .ok ⟨some value, fromReplay⟩ ∧
      (runOnce requestHash call book).2.ran = book.ran + (if fromReplay then 0 else 1) ∧
      (runOnce requestHash call book).2.Completed call.id (requestHash call.payload)
        (if fromReplay then value else storedForm value) := by
  unfold Idempotency.runOnce
  cases first with
  | claimed free done =>
      rw [free]
      exact perform_completed done
  | retried taken same failed done =>
      rw [taken]
      dsimp only
      rw [if_neg (not_not_intro same), failed, ← same]
      exact perform_completed done
  | unrecovered taken same open_ asked nothing done =>
      rw [taken]
      dsimp only
      rw [if_neg (not_not_intro same), open_, asked]
      dsimp only [recover]
      rw [nothing, ← same]
      exact perform_completed done
  | recovered taken same open_ asked found some_ =>
      rw [taken]
      dsimp only
      rw [if_neg (not_not_intro same), open_, asked]
      dsimp only [recover]
      rw [found, ← same]
      cases value with
      | null => exact absurd rfl some_
      | bool | number | string | array | object =>
          exact ⟨rfl, rfl, ⟨_, Book.put_records .., rfl, rfl, rfl⟩⟩

/-- A repeat of a completed call returns what is stored and changes nothing. -/
theorem runOnce_completed {later : Attempt W} {stored : Json} (repeats : later.Repeats call)
    (completed : book.Completed call.id (requestHash call.payload) stored) :
    runOnce requestHash later book = (.ok ⟨some stored, true⟩, book) := by
  obtain ⟨record, taken, same, state, response⟩ := completed.record
  have id : later.id = call.id := by rw [Attempt.id, repeats.scope, repeats.key, Attempt.id]
  unfold Idempotency.runOnce
  rw [id, taken, repeats.payload]
  dsimp only
  rw [if_neg (not_not_intro same), state, response]

theorem runAll_completed {later : List (Attempt W)} {stored : Json}
    (repeats : ∀ c ∈ later, c.Repeats call)
    (completed : book.Completed call.id (requestHash call.payload) stored) :
    runAll requestHash later book = (later.map fun _ => .ok ⟨some stored, true⟩, book) := by
  induction later with
  | nil => rfl
  | cons c later ih =>
      have now := runOnce_completed (repeats c List.mem_cons_self) completed
      have rest := ih fun c mem => repeats c (List.mem_cons_of_mem _ mem)
      simp only [runAll, now, rest, List.map_cons]

/-! ## A call as steps -/

/-- The call, as the callers of the step model are given it. -/
def Attempt.asCall (requestHash : Json → String) (call : Attempt W) : Call ι Json where
  digest := requestHash call.payload
  onReplay _ := call.onReplay.isSome
  response := storedForm

/-- Where a call leaves its caller; an exception of `on_replay` is a crash. -/
def ended : Except Thrown (Outcome Json) → Point Json
  | .ok outcome => .returned outcome
  | .error (.raised error) => .threw error
  | .error (.onReplay _) => .crashed

/-- The side effects that landed in a call. -/
def landed : Except Thrown (Outcome Json) → ℕ
  | .ok outcome => if outcome.replayed then 0 else 1
  | .error _ => 0

/-- What a call does to the shared state. -/
structure Calls [DecidableEq ι] (s : State ι Json) (i : ι) (call : Call ι Json)
    (outcome : Except Thrown (Outcome Json)) (record : Option (IdempotencyRecord Json))
    (s' : State ι Json) : Prop where
  run : Relation.ReflTransGen (Runs.Allowed (Step call) ReadStillHolds) s s'
  record : s'.record = record
  own : s'.point i = ended outcome
  others : ∀ j, j ≠ i → s'.point j = s.point j
  landings : s'.landings = s.landings + landed outcome

theorem Calls.after [DecidableEq ι] {s m s' : State ι Json} {i : ι} {call : Call ι Json}
    {outcome : Except Thrown (Outcome Json)} {record : Option (IdempotencyRecord Json)}
    (calls : Calls m i call outcome record s')
    (before : Relation.ReflTransGen (Runs.Allowed (Step call) ReadStillHolds) s m)
    (others : ∀ j, j ≠ i → m.point j = s.point j) (landings : m.landings = s.landings) :
    Calls s i call outcome record s' where
  run := before.trans calls.run
  record := calls.record
  own := calls.own
  others j other := (calls.others j other).trans (others j other)
  landings := by rw [calls.landings, landings]

theorem perform_steps [DecidableEq ι] (requestHash : Json → String) (call : Attempt W)
    (book : Book W) {s : State ι Json} {i : ι} {record : IdempotencyRecord Json}
    (at_ : s.point i = .operating) (taken : s.record = some record) :
    ∃ s', Calls s i (call.asCall requestHash) (perform call record book).1
      ((perform call record book).2.records call.id) s' := by
  unfold perform
  rcases call.operation book.world with ⟨_ | result, world⟩
  · have failed : Relation.ReflTransGen (Runs.Allowed (Step (call.asCall requestHash))
        ReadStillHolds) s _ := .single ⟨.fail i, trivial, .fail at_⟩
    have stored := failed.tail ⟨.storeFailure i, trivial, .storeFailure State.move_point_self taken⟩
    refine ⟨_, stored, (Book.put_records ..).symm, State.move_point_self, fun j other => ?_, rfl⟩
    exact (State.move_point_of_ne other).trans (State.move_point_of_ne other)
  · have lands : Relation.ReflTransGen (Runs.Allowed (Step (call.asCall requestHash))
        ReadStillHolds) s _ := .single ⟨.land i result, trivial, .land at_⟩
    have stored := lands.tail ⟨.storeResult i, trivial, .storeResult State.move_point_self taken⟩
    refine ⟨_, stored, (Book.put_records ..).symm, State.move_point_self, fun j other => ?_, rfl⟩
    exact (State.move_point_of_ne other).trans (State.move_point_of_ne other)

/-- A caller that finds the key taken goes where the record sends it. -/
theorem read_steps [DecidableEq ι] (call : Call ι Json) {s : State ι Json} {i : ι}
    {existing : IdempotencyRecord Json} (at_ : s.point i = .claiming)
    (taken : s.record = some existing) :
    Relation.ReflTransGen (Runs.Allowed (Step call) ReadStillHolds) s
      ((s.move i .conflicted).move i (afterRead call i existing)) := by
  have conflicted : Relation.ReflTransGen (Runs.Allowed (Step call) ReadStillHolds) s
      (s.move i .conflicted) := .single ⟨.conflict i, trivial, .conflict at_ taken⟩
  exact conflicted.tail ⟨.read i, trivial, .read State.move_point_self taken⟩

/-- What `on_replay` finds is whether the side effect has landed. -/
def Attempt.Truthful (call : Attempt W) (landings : ℕ) : Prop :=
  ∀ onReplay, call.onReplay = some onReplay → ∀ existing world value world',
    onReplay existing world = (.ok value, world') → (value = .null ↔ landings = 0)

/-- A caller that consults `on_replay` goes on to the operation or stores what it found. -/
theorem recover_steps [DecidableEq ι] (requestHash : Json → String) {call : Attempt W}
    {book : Book W} {s : State ι Json} {i : ι} {existing : IdempotencyRecord Json}
    {onReplay : IdempotencyRecord Json → W → Except String Json × W}
    (at_ : s.point i = .recovering) (found : book.records call.id = some existing)
    (taken : s.record = some existing) (open_ : existing.state = .inProgress)
    (idle : ∀ j, ¬ (s.point j).engaged) (asked : call.onReplay = some onReplay)
    (truthful : call.Truthful s.landings) :
    ∃ s', Calls s i (call.asCall requestHash) (recover call onReplay existing book).1
      ((recover call onReplay existing book).2.records call.id) s' := by
  unfold recover
  rcases answered : onReplay existing book.world with ⟨message | value, world⟩
  · have crashed : Relation.ReflTransGen (Runs.Allowed (Step (call.asCall requestHash))
        ReadStillHolds) s _ := .single ⟨.crash i, trivial, .crash⟩
    exact ⟨_, crashed, taken.trans found.symm, State.move_point_self,
      fun j other => State.move_point_of_ne other, rfl⟩
  · have finds := truthful onReplay asked existing book.world value world answered
    by_cases nothing : value = .null
    · subst nothing
      have goesOn : Relation.ReflTransGen (Runs.Allowed (Step (call.asCall requestHash))
          ReadStillHolds) s _ := .single ⟨.replayNone i, ⟨⟨existing, taken, open_⟩, idle⟩,
        .replayNone at_ (finds.mp rfl)⟩
      obtain ⟨s', calls⟩ := perform_steps requestHash call { book with world := world }
        (s := s.move i .operating) State.move_point_self taken
      exact ⟨s', calls.after goesOn (fun j other => State.move_point_of_ne other) rfl⟩
    · have happened : 0 < s.landings := by
        have landed : s.landings ≠ 0 := fun zero => nothing (finds.mpr zero)
        omega
      have finds' : Relation.ReflTransGen (Runs.Allowed (Step (call.asCall requestHash))
          ReadStillHolds) s _ := .single ⟨.replayFound i value, trivial, .replayFound at_ happened⟩
      have stored := finds'.tail ⟨.storeRecovered i, trivial,
        .storeRecovered State.move_point_self taken⟩
      cases value with
      | null => exact absurd rfl nothing
      | bool | number | string | array | object =>
          refine ⟨_, stored, (Book.put_records ..).symm, State.move_point_self,
            fun j other => ?_, rfl⟩
          exact (State.move_point_of_ne other).trans (State.move_point_of_ne other)

/-- A call that nobody interferes with is a run of steps. -/
theorem runOnce_steps [DecidableEq ι] (requestHash : Json → String) {call : Attempt W}
    {book : Book W} {s : State ι Json} {i : ι} (at_ : s.point i = .claiming)
    (record : s.record = book.records call.id) (idle : ∀ j, ¬ (s.point j).engaged)
    (truthful : call.Truthful s.landings) :
    ∃ s', Calls s i (call.asCall requestHash) (runOnce requestHash call book).1
      ((runOnce requestHash call book).2.records call.id) s' := by
  unfold Idempotency.runOnce
  cases found : book.records call.id with
  | none =>
      have claimed : Relation.ReflTransGen (Runs.Allowed (Step (call.asCall requestHash))
          ReadStillHolds) s _ := .single ⟨.claim i, trivial, .claim at_ (record.trans found)⟩
      obtain ⟨s', calls⟩ := perform_steps requestHash call
        (book.put call.id ⟨requestHash call.payload, .inProgress, none⟩)
        (s := { s.move i .operating with
          record := some ⟨requestHash call.payload, .inProgress, none⟩ }) State.move_point_self rfl
      exact ⟨s', calls.after claimed (fun j other => State.move_point_of_ne other) rfl⟩
  | some existing =>
      have taken : s.record = some existing := record.trans found
      have reads := read_steps (call.asCall requestHash) at_ taken
      have others : ∀ p j, j ≠ i → ((s.move i .conflicted).move i p).point j = s.point j :=
        fun p j other => (State.move_point_of_ne other).trans (State.move_point_of_ne other)
      have rests : ∀ p, ¬ p.engaged →
          ∀ j, ¬ (((s.move i .conflicted).move i p).point j).engaged := by
        intro p rests j engaged
        obtain ⟨other, -⟩ := engaged_of_move rests engaged
        rw [others p j other] at engaged
        exact idle j engaged
      dsimp only
      by_cases same : existing.requestHash = requestHash call.payload
      · rw [if_neg (not_not_intro same)]
        cases state : existing.state with
        | completed =>
            have goes : afterRead (call.asCall requestHash) i existing =
                .returned ⟨existing.response, true⟩ := by
              simp [afterRead, Attempt.asCall, same, state]
            rw [goes] at reads
            exact ⟨_, reads, taken.trans found.symm, State.move_point_self, others _, rfl⟩
        | failed =>
            have goes : afterRead (call.asCall requestHash) i existing = .retrying := by
              simp [afterRead, Attempt.asCall, same, state]
            rw [goes] at reads
            have retried := reads.tail ⟨.retry i, ⟨⟨existing, taken, state⟩, rests _ id⟩,
              .retry State.move_point_self taken⟩
            obtain ⟨s', calls⟩ := perform_steps requestHash call
              (book.put call.id { existing with state := .inProgress })
              (s := { ((s.move i .conflicted).move i .retrying).move i .operating with
                record := some { existing with state := .inProgress } }) State.move_point_self rfl
            refine ⟨s', calls.after retried (fun j other => ?_) rfl⟩
            exact (State.move_point_of_ne other).trans (others _ j other)
        | inProgress =>
            cases asked : call.onReplay with
            | none =>
                have goes : afterRead (call.asCall requestHash) i existing =
                    .threw .operationInProgress := by
                  simp [afterRead, Attempt.asCall, same, state, asked]
                rw [goes] at reads
                exact ⟨_, reads, taken.trans found.symm, State.move_point_self, others _, rfl⟩
            | some onReplay =>
                have goes : afterRead (call.asCall requestHash) i existing = .recovering := by
                  simp [afterRead, Attempt.asCall, same, state, asked]
                rw [goes] at reads
                obtain ⟨s', calls⟩ := recover_steps requestHash
                  (s := (s.move i .conflicted).move i .recovering) State.move_point_self found taken
                  state (rests _ id) asked truthful
                exact ⟨s', calls.after reads (others _) rfl⟩
      · rw [if_pos same]
        have goes : afterRead (call.asCall requestHash) i existing =
            .threw .idempotencyConflict := by
          simp [afterRead, Attempt.asCall, same]
        rw [goes] at reads
        exact ⟨_, reads, taken.trans found.symm, State.move_point_self, others _, rfl⟩

/-! ## What later calls return -/

theorem storedForm_eq_iff {value : Json} : storedForm value = value ↔ value.isContainer = true := by
  cases value <;> simp [storedForm, Json.isContainer]

/-- The first call runs the operation once, or takes the value from `on_replay`.  All
later calls run nothing, are replayed and return the same value exactly if it came from
`on_replay` or is an object or an array. -/
theorem replays_equal_iff {fromReplay : Bool} {value : Json}
    (first : First requestHash call book fromReplay value) :
    (runOnce requestHash call book).1 = .ok ⟨some value, fromReplay⟩ ∧
    (runOnce requestHash call book).2.ran = book.ran + (if fromReplay then 0 else 1) ∧
    ((∀ later : List (Attempt W), (∀ c ∈ later, c.Repeats call) →
        (runAll requestHash later (runOnce requestHash call book).2).2.ran =
          (runOnce requestHash call book).2.ran ∧
        ∀ outcome ∈ (runAll requestHash later (runOnce requestHash call book).2).1,
          outcome = .ok ⟨some value, true⟩) ↔
      fromReplay = true ∨ value.isContainer = true) := by
  obtain ⟨returned, ran, completed⟩ := first.runOnce
  have equal : (if fromReplay then value else storedForm value) = value ↔
      fromReplay = true ∨ value.isContainer = true := by
    cases fromReplay <;> simp [storedForm_eq_iff]
  refine ⟨returned, ran, ?_⟩
  rw [← equal]
  constructor
  · intro replayed
    have again := (replayed [call] fun c mem => List.mem_singleton.mp mem ▸ ⟨rfl, rfl, rfl⟩).2
    rw [runAll_completed (fun c mem => List.mem_singleton.mp mem ▸ ⟨rfl, rfl, rfl⟩) completed]
      at again
    have same := again _ (List.mem_singleton_self _)
    simpa using same
  · intro same later repeats
    rw [runAll_completed repeats completed]
    refine ⟨rfl, fun outcome mem => ?_⟩
    obtain ⟨_, -, rfl⟩ := List.mem_map.mp mem
    rw [same]

end

/-! ## An order and a number -/

/-- An operation that counts its calls and answers `result`. -/
def answering (result : Json) : Attempt ℕ where
  scope := "order"
  key := "k1"
  payload := .object [("quantity", .number "1")]
  operation n := (.ok result, n + 1)

theorem answering_repeats (result earlier : Json) :
    (answering result).Repeats (answering earlier) := ⟨rfl, rfl, rfl⟩

def noRecords : Book ℕ := ⟨fun _ => none, 0, 0⟩

def order : Json := .object [("order_id", .string "ord-1")]

/-- The order is returned by two later calls, whose operations would have answered a number. -/
theorem order_replayed :
    (runOnce (fun _ => "digest") (answering order) noRecords).1 = .ok ⟨some order, false⟩ ∧
    (runAll (fun _ => "digest") [answering (.number "7"), answering (.number "8")]
        (runOnce (fun _ => "digest") (answering order) noRecords).2).1 =
      [.ok ⟨some order, true⟩, .ok ⟨some order, true⟩] ∧
    (runAll (fun _ => "digest") [answering (.number "7"), answering (.number "8")]
        (runOnce (fun _ => "digest") (answering order) noRecords).2).2.ran = 1 := by
  have first : First (fun _ => "digest") (answering order) noRecords false order :=
    .claimed rfl rfl
  obtain ⟨returned, ran, later⟩ := replays_equal_iff first
  obtain ⟨noneRun, replayed⟩ := later.mpr (.inr rfl)
    [answering (.number "7"), answering (.number "8")] (by simp [answering_repeats])
  refine ⟨returned, ?_, noneRun.trans ran⟩
  exact List.eq_replicate_iff.mpr ⟨rfl, replayed⟩

/-- A number is not: the second call returns the dict that is stored. -/
theorem number_not_replayed :
    (runOnce (fun _ => "digest") (answering (.number "7")) noRecords).1 =
      .ok ⟨some (.number "7"), false⟩ ∧
    (runAll (fun _ => "digest") [answering (.number "7")]
        (runOnce (fun _ => "digest") (answering (.number "7")) noRecords).2).1 =
      [.ok ⟨some (.object [("value", .number "7")]), true⟩] ∧
    Json.object [("value", .number "7")] ≠ .number "7" := by
  refine ⟨rfl, rfl, fun same => ?_⟩
  cases same

end Idempotency

end FazerBridge
