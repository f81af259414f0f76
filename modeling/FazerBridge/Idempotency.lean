import Mathlib.Data.Nat.Notation
import Mathlib.Logic.Function.Basic
import FazerBridge.Lib.Runs

/-!
# The exactly-once guard

`run_once` of `app/services/idempotency.py`, run by any number of callers with
one scope, key and payload.  A caller is at one of the points between two of its
commits and reads (`Point`); one action takes one caller to its next point and
may change the shared record.  `landings` counts the side effects of `operation`.

An `operation` that raises has landed nothing, and `on_replay` finds the side
effect exactly when it has landed.

Callers reach `operation` in three ways: by the claim, by retrying a recorded
failure and by recovering an attempt that left no result.  The last two go by
what an earlier read said.  `lands_at_most_once` holds of the runs in which that
reading is still true and no other caller is between the claim and its result;
`slow_caller_and_recoverer_land_twice` is a run in which it is not.
-/

namespace FazerBridge

namespace Idempotency

variable {α ι : Type}

inductive RecordState
  | inProgress
  | completed
  | failed
  deriving DecidableEq, Repr

/-- The row of one (scope, key). -/
structure IdempotencyRecord (α : Type) where
  requestHash : String
  state : RecordState
  response : Option α
  deriving DecidableEq, Repr

structure Outcome (α : Type) where
  value : Option α
  replayed : Bool
  deriving DecidableEq, Repr

/-- What `run_once` raises. -/
inductive Raised
  /-- same key, different request body -/
  | idempotencyConflict
  /-- a concurrent attempt holds the key and there is no `on_replay` -/
  | operationInProgress
  /-- the exception of `operation` -/
  | operation
  deriving DecidableEq, Repr

/-- Where a caller stands in `run_once`. -/
inductive Point (α : Type)
  /-- before the claim -/
  | claiming
  /-- the claim hit the unique constraint -/
  | conflicted
  /-- read a failed record, about to take it over -/
  | retrying
  /-- read a record in progress, about to consult `on_replay` -/
  | recovering
  /-- `on_replay` found the side effect -/
  | recovered (value : α)
  /-- about to run `operation` -/
  | operating
  /-- `operation` returned -/
  | landed (result : α)
  /-- `operation` raised -/
  | raised
  | returned (outcome : Outcome α)
  | threw (error : Raised)
  | crashed
  deriving DecidableEq, Repr

/-- What the callers are given. -/
structure Call (ι α : Type) where
  /-- `request_hash(payload)` -/
  digest : String
  /-- whether the caller passes `on_replay` -/
  onReplay : ι → Bool
  /-- the stored form of a result: a dict or list as it is, else `{"value": result}` -/
  response : α → α

/-- The record, what has landed, and where each caller stands. -/
structure State (ι α : Type) where
  record : Option (IdempotencyRecord α)
  landings : ℕ
  point : ι → Point α

/-- Before anybody calls. -/
def State.init : State ι α := ⟨none, 0, fun _ => .claiming⟩

/-- Caller `i` goes to its next point. -/
def State.move [DecidableEq ι] (s : State ι α) (i : ι) (point : Point α) : State ι α :=
  { s with point := Function.update s.point i point }

/-- Where a caller goes that found the key taken. -/
def afterRead (call : Call ι α) (i : ι) (existing : IdempotencyRecord α) : Point α :=
  if existing.requestHash ≠ call.digest then .threw .idempotencyConflict
  else
    match existing.state with
    | .completed => .returned ⟨existing.response, true⟩
    | .failed => .retrying
    | .inProgress => if call.onReplay i then .recovering else .threw .operationInProgress

inductive Action (ι α : Type)
  | claim (i : ι)
  | conflict (i : ι)
  | read (i : ι)
  | retry (i : ι)
  | replayFound (i : ι) (value : α)
  | replayNone (i : ι)
  | storeRecovered (i : ι)
  | land (i : ι) (result : α)
  | fail (i : ι)
  | storeResult (i : ι)
  | storeFailure (i : ι)
  | crash (i : ι)

section Steps

variable [DecidableEq ι] (call : Call ι α)

/-- One commit, one read, one call of `on_replay` or `operation`, or a crash. -/
inductive Step : State ι α → Action ι α → State ι α → Prop
  | claim {s i} (at_ : s.point i = .claiming) (free : s.record = none) :
      Step s (.claim i)
        { s.move i .operating with record := some ⟨call.digest, .inProgress, none⟩ }
  | conflict {s i existing} (at_ : s.point i = .claiming) (taken : s.record = some existing) :
      Step s (.conflict i) (s.move i .conflicted)
  | read {s i existing} (at_ : s.point i = .conflicted) (taken : s.record = some existing) :
      Step s (.read i) (s.move i (afterRead call i existing))
  | retry {s i existing} (at_ : s.point i = .retrying) (taken : s.record = some existing) :
      Step s (.retry i)
        { s.move i .operating with record := some { existing with state := .inProgress } }
  | replayFound {s i value} (at_ : s.point i = .recovering) (happened : 0 < s.landings) :
      Step s (.replayFound i value) (s.move i (.recovered value))
  | replayNone {s i} (at_ : s.point i = .recovering) (nothing : s.landings = 0) :
      Step s (.replayNone i) (s.move i .operating)
  | storeRecovered {s i value existing} (at_ : s.point i = .recovered value)
      (taken : s.record = some existing) :
      Step s (.storeRecovered i)
        { s.move i (.returned ⟨some value, true⟩) with
          record := some { existing with state := .completed, response := some value } }
  | land {s i result} (at_ : s.point i = .operating) :
      Step s (.land i result) { s.move i (.landed result) with landings := s.landings + 1 }
  | fail {s i} (at_ : s.point i = .operating) : Step s (.fail i) (s.move i .raised)
  | storeResult {s i result existing} (at_ : s.point i = .landed result)
      (taken : s.record = some existing) :
      Step s (.storeResult i)
        { s.move i (.returned ⟨some result, false⟩) with
          record := some { existing with
            state := .completed, response := some (call.response result) } }
  | storeFailure {s i existing} (at_ : s.point i = .raised) (taken : s.record = some existing) :
      Step s (.storeFailure i)
        { s.move i (.threw .operation) with
          record := some { existing with state := .failed } }
  | crash {s i} : Step s (.crash i) (s.move i .crashed)

end Steps

/-- Between going on to `operation` and recording how it ended. -/
def Point.engaged : Point α → Prop
  | .operating | .landed _ | .raised => True
  | _ => False

/-- A caller that goes on to `operation` by what it read of an earlier attempt
does so while the record still says that and nobody else is engaged. -/
def ReadStillHolds (s : State ι α) : Action ι α → Prop
  | .retry _ => (∃ r, s.record = some r ∧ r.state = .failed) ∧ ∀ j, ¬ (s.point j).engaged
  | .replayNone _ => (∃ r, s.record = some r ∧ r.state = .inProgress) ∧ ∀ j, ¬ (s.point j).engaged
  | _ => True

/-! ## At most one landing -/

/-- One caller is engaged at a time; it has landed nothing before its `operation`
returns; and where a new attempt may start, nobody is engaged and nothing landed. -/
structure Exclusive (s : State ι α) : Prop where
  atMostOnce : s.landings ≤ 1
  alone : ∀ i j, (s.point i).engaged → (s.point j).engaged → i = j
  unlanded : ∀ i, s.point i = .operating ∨ s.point i = .raised → s.landings = 0
  unclaimed : s.record = none → s.landings = 0 ∧ ∀ i, ¬ (s.point i).engaged
  failed : ∀ r, s.record = some r → r.state = .failed →
    s.landings = 0 ∧ ∀ i, ¬ (s.point i).engaged

theorem Exclusive.init : Exclusive (State.init : State ι α) where
  atMostOnce := Nat.zero_le 1
  alone _ _ h := h.elim
  unlanded _ _ := rfl
  unclaimed _ := ⟨rfl, fun _ h => h⟩
  failed _ h := by cases h

section Preservation

variable [DecidableEq ι] {call : Call ι α} {s s' : State ι α} {i j : ι} {p : Point α}

@[simp] theorem State.move_record : (s.move i p).record = s.record := rfl

@[simp] theorem State.move_landings : (s.move i p).landings = s.landings := rfl

@[simp] theorem State.move_point_self : (s.move i p).point i = p := Function.update_self ..

theorem State.move_point_of_ne (other : j ≠ i) : (s.move i p).point j = s.point j :=
  Function.update_of_ne other ..

/-- After a move to a point that is not engaged, who is engaged was so before. -/
theorem engaged_of_move (idle : ¬ p.engaged) (engaged : ((s.move i p).point j).engaged) :
    j ≠ i ∧ (s.point j).engaged := by
  by_cases own : j = i
  · subst own
    rw [State.move_point_self] at engaged
    exact absurd engaged idle
  · rw [State.move_point_of_ne own] at engaged
    exact ⟨own, engaged⟩

theorem point_of_move (ne : p ≠ .operating) (ne' : p ≠ .raised)
    (at_ : (s.move i p).point j = .operating ∨ (s.move i p).point j = .raised) :
    s.point j = .operating ∨ s.point j = .raised := by
  by_cases own : j = i
  · subst own
    rw [State.move_point_self] at at_
    exact (at_.elim ne ne').elim
  · rwa [State.move_point_of_ne own] at at_

/-- Leaving for a point where nothing is engaged keeps the invariant. -/
theorem Exclusive.leave (inv : Exclusive s) (idle : ¬ p.engaged) : Exclusive (s.move i p) where
  atMostOnce := inv.atMostOnce
  alone j k hj hk := inv.alone j k (engaged_of_move idle hj).2 (engaged_of_move idle hk).2
  unlanded j at_ := inv.unlanded j
    (point_of_move (by rintro rfl; exact idle trivial) (by rintro rfl; exact idle trivial) at_)
  unclaimed free := ⟨(inv.unclaimed free).1, fun j h => (inv.unclaimed free).2 j
    (engaged_of_move idle h).2⟩
  failed r taken state := ⟨(inv.failed r taken state).1, fun j h => (inv.failed r taken state).2 j
    (engaged_of_move idle h).2⟩

omit [DecidableEq ι] in
/-- A record that names no failure may replace any record. -/
theorem Exclusive.withRecord {r : IdempotencyRecord α} (inv : Exclusive s)
    (state : r.state ≠ .failed) : Exclusive { s with record := some r } where
  atMostOnce := inv.atMostOnce
  alone := inv.alone
  unlanded := inv.unlanded
  unclaimed free := by cases free
  failed r' taken failed := by
    cases taken
    exact absurd failed state

/-- Going on to `operation` while nobody is engaged and nothing has landed. -/
theorem Exclusive.engage {r : IdempotencyRecord α} (unlanded : s.landings = 0)
    (nobody : ∀ j, ¬ (s.point j).engaged) (state : r.state = .inProgress) :
    Exclusive { s.move i .operating with record := some r } := by
  have only : ∀ j, ((s.move i .operating).point j).engaged → j = i := by
    intro j engaged
    by_contra other
    rw [State.move_point_of_ne other] at engaged
    exact nobody j engaged
  exact
    { atMostOnce := by simp [unlanded]
      alone := fun j k hj hk => (only j hj).trans (only k hk).symm
      unlanded := fun _ _ => unlanded
      unclaimed := fun free => by cases free
      failed := fun r' taken failed => by
        cases taken
        rw [state] at failed
        cases failed }

/-- The engaged caller goes from one engaged point to the next. -/
theorem Exclusive.advance (inv : Exclusive s) (engaged : (s.point i).engaged)
    {n : ℕ} (bound : n ≤ 1)
    (unlanded : p = .operating ∨ p = .raised → n = 0) :
    Exclusive { s.move i p with landings := n } := by
  have before : ∀ j, ((s.move i p).point j).engaged → (s.point j).engaged := by
    intro j h
    by_cases own : j = i
    · rw [own]
      exact engaged
    · rwa [State.move_point_of_ne own] at h
  exact
    { atMostOnce := bound
      alone := fun j k hj hk => inv.alone j k (before j hj) (before k hk)
      unlanded := fun j at_ => by
        by_cases own : j = i
        · subst own
          exact unlanded (by simpa using at_)
        · change (s.move i p).point j = _ ∨ (s.move i p).point j = _ at at_
          rw [State.move_point_of_ne own] at at_
          have hj : (s.point j).engaged := by rcases at_ with h | h <;> rw [h] <;> trivial
          exact absurd (inv.alone j i hj engaged) own
      unclaimed := fun free => absurd engaged ((inv.unclaimed free).2 i)
      failed := fun r taken state => absurd engaged ((inv.failed r taken state).2 i) }

omit [DecidableEq ι] in
theorem afterRead_idle (existing : IdempotencyRecord α) :
    ¬ (afterRead call i existing).engaged := by
  unfold afterRead
  split
  · exact id
  · cases existing.state with
    | completed => exact id
    | failed => exact id
    | inProgress =>
        dsimp only
        split <;> exact id

theorem exclusive_step {a : Action ι α} (inv : Exclusive s) (holds : ReadStillHolds s a)
    (step : Step call s a s') : Exclusive s' := by
  cases step with
  | claim at_ free => exact Exclusive.engage (inv.unclaimed free).1 (inv.unclaimed free).2 rfl
  | conflict at_ taken => exact inv.leave id
  | read at_ taken => exact inv.leave (afterRead_idle _)
  | retry at_ taken =>
      obtain ⟨⟨r, stored, failed⟩, nobody⟩ := holds
      exact Exclusive.engage (inv.failed r stored failed).1 nobody rfl
  | replayFound at_ happened => exact inv.leave id
  | @replayNone i at_ nothing =>
      obtain ⟨⟨r, stored, state⟩, nobody⟩ := holds
      have same : s.move i .operating = { s.move i .operating with record := some r } := by
        rw [← stored]; rfl
      rw [same]
      exact Exclusive.engage nothing nobody state
  | storeRecovered at_ taken => exact (inv.leave id).withRecord (by simp)
  | @land i result at_ =>
      have unlanded : s.landings = 0 := inv.unlanded i (Or.inl at_)
      exact inv.advance (by rw [at_]; trivial) (by omega) (by simp)
  | @fail i at_ =>
      have unlanded : s.landings = 0 := inv.unlanded i (Or.inl at_)
      exact inv.advance (by rw [at_]; trivial) inv.atMostOnce fun _ => unlanded
  | storeResult at_ taken => exact (inv.leave id).withRecord (by simp)
  | @storeFailure i existing at_ taken =>
      have unlanded : s.landings = 0 := inv.unlanded i (Or.inr at_)
      have own : (s.point i).engaged := by rw [at_]; trivial
      -- The caller that records the failure was the only one engaged.
      have nobody : ∀ j, ¬ ((s.move i (.threw .operation)).point j).engaged := by
        intro j engaged
        obtain ⟨other, before⟩ := engaged_of_move id engaged
        exact other (inv.alone j i before own)
      have left := inv.leave (i := i) (p := .threw .operation) id
      exact ⟨left.atMostOnce, left.alone, left.unlanded, fun free => (by cases free),
        fun _ _ _ => ⟨unlanded, nobody⟩⟩
  | crash => exact inv.leave id

/-- In every run in which each caller that goes on to `operation` by what it read
does so while that still holds, the side effect lands at most once. -/
theorem lands_at_most_once (call : Call ι α)
    (run : Relation.ReflTransGen (Runs.Allowed (Step call) ReadStillHolds) State.init s) :
    s.landings ≤ 1 :=
  (Runs.invariant (fun _ _ _ inv holds step => exclusive_step inv holds step) run
    Exclusive.init).atMostOnce

end Preservation

/-! ## Two callers -/

/-- Two callers with `on_replay`. -/
def pairCall : Call Bool Unit := ⟨"digest", fun _ => true, id⟩

/-- The first caller dies after its claim; the second one finds nothing bought,
goes on, and lands the side effect once. -/
theorem lands_at_most_once_after_crash :
    ∃ s : State Bool Unit,
      Relation.ReflTransGen (Runs.Allowed (Step pairCall) ReadStillHolds) State.init s ∧
        s.landings = 1 ∧ s.landings ≤ 1 := by
  have claimed : Relation.ReflTransGen (Runs.Allowed (Step pairCall) ReadStillHolds)
      State.init _ := .single ⟨.claim false, trivial, .claim rfl rfl⟩
  have crashed := claimed.tail ⟨.crash false, trivial, .crash⟩
  have conflicted := crashed.tail ⟨.conflict true, trivial, .conflict rfl rfl⟩
  have read := conflicted.tail ⟨.read true, trivial, .read rfl rfl⟩
  have nobody := read.tail ⟨.replayNone true,
    ⟨⟨_, rfl, rfl⟩, fun j => by cases j <;> exact id⟩, .replayNone rfl rfl⟩
  have landed := nobody.tail ⟨.land true (), trivial, .land rfl⟩
  exact ⟨_, landed, rfl, lands_at_most_once pairCall landed⟩

/-- The first caller is slow between its claim and its side effect; the second
one finds nothing bought yet and goes on, and both land. -/
theorem slow_caller_and_recoverer_land_twice :
    ∃ s : State Bool Unit,
      Relation.ReflTransGen (Runs.Allowed (Step pairCall) fun _ _ => True) State.init s ∧
        s.landings = 2 := by
  have claimed : Relation.ReflTransGen (Runs.Allowed (Step pairCall) fun _ _ => True)
      State.init _ := .single ⟨.claim false, trivial, .claim rfl rfl⟩
  have conflicted := claimed.tail ⟨.conflict true, trivial, .conflict rfl rfl⟩
  have read := conflicted.tail ⟨.read true, trivial, .read rfl rfl⟩
  have nobody := read.tail ⟨.replayNone true, trivial, .replayNone rfl rfl⟩
  have first := nobody.tail ⟨.land false (), trivial, .land rfl⟩
  have second := first.tail ⟨.land true (), trivial, .land rfl⟩
  exact ⟨_, second, rfl⟩

end Idempotency

end FazerBridge
