import Mathlib.Data.Rat.Floor
import FazerBridge.Lib.Metered
import FazerBridge.Lib.Runs

/-!
# The token bucket

`TokenBucket` of `app/http/ratelimit.py`.  The lock makes one refill with the attempt
after it one action; a caller of `acquire` sleeps between its attempts, and the others
go on meanwhile.  The clock is read in every action and does not go back; a sleep may
end at any time.  Times are seconds, exact.
-/

namespace FazerBridge

/-- What the constructor checked, and what the lock guards. -/
structure TokenBucket where
  rate : ℚ
  capacity : ℤ
  tokens : ℚ
  updated : ℚ
  rate_pos : 0 < rate
  capacity_pos : 1 ≤ capacity

namespace TokenBucket

/-- `__init__` -/
def new (rate : ℚ) (capacity : ℤ) (now : ℚ) : Except String TokenBucket :=
  if rate_pos : 0 < rate then
    .ok ⟨rate, max 1 capacity, (max 1 capacity : ℤ), now, rate_pos, le_max_left 1 capacity⟩
  else .error "rate must be positive"

/-- `_refill_locked` -/
def refill (bucket : TokenBucket) (now : ℚ) : TokenBucket :=
  let elapsed := now - bucket.updated
  if 0 < elapsed then
    { bucket with
      tokens := min bucket.capacity (bucket.tokens + elapsed * bucket.rate)
      updated := now }
  else bucket

/-- `try_acquire` -/
def tryAcquire (bucket : TokenBucket) (tokens now : ℚ) : Bool × TokenBucket :=
  let bucket := bucket.refill now
  if tokens ≤ bucket.tokens then (true, { bucket with tokens := bucket.tokens - tokens })
  else (false, bucket)

/-- One pass of the loop of `acquire`: the delay of the sleep after it, if there is one. -/
def acquirePass (bucket : TokenBucket) (tokens now : ℚ) : Option ℚ × TokenBucket :=
  let bucket := bucket.refill now
  if tokens ≤ bucket.tokens then (none, { bucket with tokens := bucket.tokens - tokens })
  else
    let deficit := tokens - bucket.tokens
    (some (deficit / bucket.rate), bucket)

/-! ## Callers -/

/-- The bucket, the last reading of its clock, what each sleeping caller of `acquire` has
waited, and the times at which a token was granted, newest first. -/
structure State where
  bucket : TokenBucket
  clock : ℚ
  waited : List ℚ
  granted : List ℚ

def State.start (bucket : TokenBucket) (now : ℚ) : State := ⟨bucket, now, [], []⟩

/-- What a caller does with the lock held; the clock is read in it. -/
inductive Action
  | tryAcquire (now : ℚ)
  /-- the first pass of a call of `acquire` -/
  | acquire (now : ℚ)
  /-- the next pass of one that slept -/
  | wake (before : List ℚ) (waited : ℚ) (after : List ℚ) (now : ℚ)

/-- A pass of `acquire` by a caller that waited for `waited`. -/
def State.pass (s : State) (others : List ℚ) (waited now : ℚ) : State :=
  match s.bucket.acquirePass 1 now with
  | (none, bucket) => ⟨bucket, now, others, now :: s.granted⟩
  | (some delay, bucket) => ⟨bucket, now, (waited + delay) :: others, s.granted⟩

/-- One action, for one token. -/
inductive Step : State → Action → State → Prop
  | tryAcquire {s now got bucket} (later : s.clock ≤ now)
      (tries : s.bucket.tryAcquire 1 now = (got, bucket)) :
      Step s (.tryAcquire now)
        ⟨bucket, now, s.waited, if got then now :: s.granted else s.granted⟩
  | acquire {s now} (later : s.clock ≤ now) : Step s (.acquire now) (s.pass s.waited 0 now)
  | wake {s before waited after now} (later : s.clock ≤ now)
      (sleeping : s.waited = before ++ waited :: after) :
      Step s (.wake before waited after now) (s.pass (before ++ after) waited now)

/-! ## The meter -/

/-- The bucket is a meter read at `now`. -/
def IsMeter (rate : ℚ) (capacity : ℤ) (bucket : TokenBucket) (now : ℚ) (granted : List ℚ) :
    Prop :=
  bucket.rate = rate ∧ bucket.capacity = capacity ∧ bucket.updated = now ∧
    Metered (capacity : ℚ) rate bucket.tokens now granted

variable {rate : ℚ} {capacity : ℤ} {bucket : TokenBucket} {now later : ℚ} {granted : List ℚ}

theorem IsMeter.refill (meter : IsMeter rate capacity bucket now granted) (order : now ≤ later) :
    IsMeter rate capacity (bucket.refill later) later granted := by
  obtain ⟨rfl, rfl, rfl, metered⟩ := meter
  unfold TokenBucket.refill
  dsimp only
  split
  · exact ⟨rfl, rfl, rfl, metered.refill bucket.rate_pos.le order⟩
  · rename_i still
    obtain rfl : later = bucket.updated := by linarith
    exact ⟨rfl, rfl, rfl, metered⟩

theorem IsMeter.take (meter : IsMeter rate capacity bucket now granted) (enough : 1 ≤ bucket.tokens) :
    IsMeter rate capacity { bucket with tokens := bucket.tokens - 1 } now (now :: granted) := by
  obtain ⟨rfl, rfl, read, metered⟩ := meter
  exact ⟨rfl, rfl, read, metered.grant bucket.rate_pos.le enough⟩

/-- The bucket of a state is a meter read when the clock was. -/
def State.IsMeter (rate : ℚ) (capacity : ℤ) (s : State) : Prop :=
  TokenBucket.IsMeter rate capacity s.bucket s.clock s.granted

theorem State.IsMeter.pass {s : State} (meter : s.IsMeter rate capacity) {others : List ℚ}
    {waited : ℚ} (order : s.clock ≤ now) : (s.pass others waited now).IsMeter rate capacity := by
  have refilled := TokenBucket.IsMeter.refill meter order
  unfold State.pass acquirePass
  dsimp only
  by_cases enough : 1 ≤ (s.bucket.refill now).tokens
  · rw [if_pos enough]
    exact refilled.take enough
  · rw [if_neg enough]
    exact refilled

theorem step_isMeter (s : State) (action : Action) (s' : State) (meter : s.IsMeter rate capacity)
    (_ : True) (step : Step s action s') : s'.IsMeter rate capacity := by
  cases step with
  | @tryAcquire now got bucket order tries =>
      have refilled := TokenBucket.IsMeter.refill meter order
      unfold tryAcquire at tries
      dsimp only at tries
      split at tries <;> cases tries
      · exact refilled.take ‹_›
      · exact refilled
  | acquire order => exact meter.pass order
  | wake order _ => exact meter.pass order

theorem new_isMeter {asked : ℤ} (built : new rate asked now = .ok bucket) :
    (State.start bucket now).IsMeter rate (max 1 asked) := by
  unfold new at built
  split at built
  · rename_i pos
    cases built
    have room : (0 : ℚ) ≤ (max 1 asked : ℤ) := by
      exact_mod_cast zero_le_one.trans (le_max_left 1 asked)
    exact ⟨rfl, rfl, rfl, .full room pos.le now⟩
  · cases built

/-- Whatever its callers do, the bucket holds its tokens within bounds and grants no more in
a window than its capacity and what flows in meanwhile. -/
theorem granted_bounded {asked : ℤ} {start : ℚ} (built : new rate asked start = .ok bucket)
    {s : State} (run : Relation.ReflTransGen (Runs.Allowed Step fun _ _ => True)
      (.start bucket start) s) :
    0 ≤ s.bucket.tokens ∧ s.bucket.tokens ≤ max 1 (asked : ℚ) ∧
      ∀ since till : ℚ, since ≤ till →
        (Metered.granted since till s.granted : ℚ) ≤ max 1 (asked : ℚ) + rate * (till - since) := by
  have meter : s.IsMeter rate (max 1 asked) :=
    Runs.invariant step_isMeter run (new_isMeter built)
  obtain ⟨-, -, -, metered⟩ := meter
  have capacity : ((max 1 asked : ℤ) : ℚ) = max 1 (asked : ℚ) := by push_cast; rfl
  rw [capacity] at metered
  exact ⟨metered.nonneg, metered.capped, metered.window⟩

/-- A bucket for two requests in reserve, and one a second. -/
def sample : TokenBucket := ⟨1, 2, 2, 0, by norm_num, by norm_num⟩

theorem sample_new : new 1 2 0 = .ok sample := by
  norm_num [new, sample]

def State.tried (s : State) (now : ℚ) : State where
  bucket := (s.bucket.tryAcquire 1 now).2
  clock := now
  waited := s.waited
  granted := if (s.bucket.tryAcquire 1 now).1 then now :: s.granted else s.granted

/-- The reserve is taken. -/
def drained : State :=
  ((State.start sample 0).tried 0).pass ((State.start sample 0).tried 0).waited 0 0

/-- A caller of `acquire` has to sleep, and another one tries in vain. -/
def asleep : State := (drained.pass drained.waited 0 (1 / 2)).tried (3 / 4)

/-- The sleeper gets the next token, and one caller comes when the bucket is full again. -/
def sampleRun : State := (asleep.pass [] (1 / 2) 1).tried 10

theorem sampleRun_granted : asleep.granted = [0, 0] ∧ asleep.waited = [1 / 2] ∧
    sampleRun.granted = [10, 1, 0, 0] := by decide +kernel

theorem sampleRun_run : Relation.ReflTransGen (Runs.Allowed Step fun _ _ => True)
    (.start sample 0) sampleRun := by
  have tries : ∀ (s : State) (now : ℚ), s.clock ≤ now → Runs.Allowed Step (fun _ _ => True) s
      (s.tried now) := fun s now later => ⟨.tryAcquire now, trivial, .tryAcquire later rfl⟩
  have drains : Runs.Allowed Step (fun _ _ => True) ((State.start sample 0).tried 0) drained :=
    ⟨.acquire 0, trivial, .acquire le_rfl⟩
  have sleeps : Runs.Allowed Step (fun _ _ => True) drained
      (drained.pass drained.waited 0 (1 / 2)) :=
    ⟨.acquire (1 / 2), trivial, .acquire (by decide +kernel)⟩
  have vain : Runs.Allowed Step (fun _ _ => True) (drained.pass drained.waited 0 (1 / 2)) asleep :=
    tries _ (3 / 4) (by decide +kernel)
  have woken : Runs.Allowed Step (fun _ _ => True) asleep (asleep.pass [] (1 / 2) 1) :=
    ⟨.wake [] (1 / 2) [] 1, trivial, .wake (by decide +kernel) sampleRun_granted.2.1⟩
  have start := Relation.ReflTransGen.single (tries (State.start sample 0) 0 le_rfl)
  have slept := ((start.tail drains).tail sleeps).tail vain
  exact (slept.tail woken).tail (tries _ 10 (by decide +kernel))

/-- Three tokens are granted in the first second, as many as the reserve and what flowed in. -/
theorem sampleRun_bounded : Metered.granted 0 1 sampleRun.granted = 3 ∧
    0 ≤ sampleRun.bucket.tokens ∧ sampleRun.bucket.tokens ≤ max 1 ((2 : ℤ) : ℚ) ∧
    ∀ since till : ℚ, since ≤ till →
      (Metered.granted since till sampleRun.granted : ℚ) ≤
        max 1 ((2 : ℤ) : ℚ) + 1 * (till - since) :=
  ⟨by decide +kernel, granted_bounded sample_new sampleRun_run⟩

end TokenBucket

end FazerBridge
