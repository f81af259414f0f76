import Mathlib.Algebra.Order.Ring.Rat
import Mathlib.Tactic.Common

/-!
# The scheduler

`Job` and `Worker` of `app/worker.py`.  A job is a function on the state `W` of the
world, in which its time passes; it ends by itself or by an `Exception`.

`tick` is the method of the source.  `State` is the worker in the middle of
`run_forever`, one place for each point at which a signal can come; `advance` is its
next step, and a tick is a sequence of such steps (`advances_tick`).
-/

namespace FazerBridge

/-- How a run of a job ends. -/
inductive Ending
  | returned
  /-- an `Exception` -/
  | raised
  deriving DecidableEq, Repr

structure Job (W : Type) where
  name : String
  intervalSeconds : ℚ
  run : W → Ending × W
  /-- Stagger the first run so a fresh container does not fire everything at once. -/
  initialDelay : ℚ := 0
  nextRunAt : ℚ := 0
  running : Bool := false
  failures : ℕ := 0

namespace Job

variable {W : Type} (job : Job W)

def due (now : ℚ) : Bool := !job.running && decide (job.nextRunAt ≤ now)

/-- Fixed delay from completion, not from start: a slow job backs itself off instead of
queueing up. -/
def scheduleNext (now : ℚ) : Job W := { job with nextRunAt := now + job.intervalSeconds }

/-- The job while it runs. -/
def started : Job W := { job with running := true }

/-- The job after a run that ended so. -/
def ended (ending : Ending) : Job W :=
  { job with failures := match ending with
      | .returned => 0
      | .raised => job.failures + 1 }

/-- The `finally` of a run. -/
def released (now : ℚ) : Job W := { job with running := false }.scheduleNext now

end Job

/-- What a worker is built with, besides its jobs. -/
structure Worker (W : Type) where
  clock : W → ℚ × W
  sleep : ℚ → W → W

/-- One run of the job at a position, with the worlds it began and ended in. -/
structure Span (W : Type) where
  job : ℕ
  before : W
  after : W
  ending : Ending

/-- What a tick leaves, and the runs of it, the latest first. -/
structure Ticked (W : Type) where
  jobs : List (Job W)
  world : W
  spans : List (Span W)

namespace Worker

variable {W : Type} (worker : Worker W)

/-- `__init__` -/
def new (jobs : List (Job W)) (w : W) : List (Job W) × W :=
  let (now, w) := worker.clock w
  (jobs.map fun job => { job with nextRunAt := now + job.initialDelay }, w)

/-- The loop of `tick`, after the jobs `done`. -/
def scan (now : ℚ) (done : List (Job W)) (spans : List (Span W)) :
    List (Job W) → W → Ticked W
  | [], w => ⟨done, w, spans⟩
  | job :: rest, w =>
    if job.due now then
      let (ending, finish) := job.run w
      let (reading, w') := worker.clock finish
      scan now (done ++ [(job.started.ended ending).released reading])
        (⟨done.length, w, finish, ending⟩ :: spans) rest w'
    else scan now (done ++ [job]) spans rest w

/-- `tick` -/
def tick (jobs : List (Job W)) (w : W) : Ticked W :=
  let (now, w) := worker.clock w
  worker.scan now [] [] jobs w

/-- The names `tick` returns. -/
def ran (jobs : List (Job W)) (ticked : Ticked W) : List String :=
  ticked.spans.reverse.filterMap fun span => jobs[span.job]?.map Job.name

/-! ## `run_forever` -/

/-- Where the worker is. -/
inductive Place (W : Type)
  /-- before the test of the loop -/
  | looping (jobs : List (Job W))
  /-- in `tick`, before it reads the clock -/
  | ticking (jobs : List (Job W))
  /-- before it looks at the first job of `rest` -/
  | scanning (now : ℚ) (done rest : List (Job W))
  /-- in the run of `job` -/
  | running (now : ℚ) (done : List (Job W)) (job : Job W) (rest : List (Job W))
  /-- after the run of `job`, before it is rescheduled -/
  | rescheduling (now : ℚ) (done : List (Job W)) (job : Job W) (rest : List (Job W))
  | sleeping (jobs : List (Job W))
  | stopped (jobs : List (Job W))

/-- A worker in `run_forever`, and the positions of the jobs it started, the latest first. -/
structure State (W : Type) where
  place : Place W
  stopping : Bool
  world : W
  started : List ℕ

/-- `request_stop` -/
def requestStop (s : State W) : State W := { s with stopping := true }

/-- The next step of the worker. -/
def advance (pollSeconds : ℚ) (s : State W) : State W :=
  match s.place with
  | .looping jobs => { s with place := if s.stopping then .stopped jobs else .ticking jobs }
  | .ticking jobs =>
    let (now, w) := worker.clock s.world
    { s with place := .scanning now [] jobs, world := w }
  | .scanning _ done [] => { s with place := .sleeping done }
  | .scanning now done (job :: rest) =>
    if job.due now then
      { s with
        place := .running now done job.started rest
        started := done.length :: s.started }
    else { s with place := .scanning now (done ++ [job]) rest }
  | .running now done job rest =>
    let (ending, w) := job.run s.world
    { s with place := .rescheduling now done (job.ended ending) rest, world := w }
  | .rescheduling now done job rest =>
    let (reading, w) := worker.clock s.world
    { s with place := .scanning now (done ++ [job.released reading]) rest, world := w }
  | .sleeping jobs => { s with place := .looping jobs, world := worker.sleep pollSeconds s.world }
  | .stopped _ => s

/-- What happens next: a step of the worker, or a signal. -/
inductive Event
  | work
  | signal
  deriving DecidableEq, Repr

def happen (pollSeconds : ℚ) (s : State W) : Event → State W
  | .work => worker.advance pollSeconds s
  | .signal => requestStop s

/-- An execution. -/
def exec (pollSeconds : ℚ) (events : List Event) (s : State W) : State W :=
  events.foldl (worker.happen pollSeconds) s

/-- The worker as `run_forever` begins. -/
def atStart (jobs : List (Job W)) (w : W) : State W :=
  let (jobs, w) := worker.new jobs w
  ⟨.looping jobs, false, w, []⟩

/-! ## A tick, step by step -/

variable {worker} {pollSeconds : ℚ}

theorem exec_cons (event : Event) (events : List Event) (s : State W) :
    worker.exec pollSeconds (event :: events) s =
      worker.exec pollSeconds events (worker.happen pollSeconds s event) := rfl

@[simp]
theorem happen_work (s : State W) :
    worker.happen pollSeconds s .work = worker.advance pollSeconds s := rfl

@[simp]
theorem happen_signal (s : State W) : worker.happen pollSeconds s .signal = requestStop s := rfl

theorem advances_scan (now : ℚ) (rest done : List (Job W)) (spans : List (Span W)) (w : W)
    (stopping : Bool) (started : List ℕ) :
    ∃ n, worker.exec pollSeconds (List.replicate n .work)
        ⟨.scanning now done rest, stopping, w, spans.map Span.job ++ started⟩ =
      ⟨.sleeping (worker.scan now done spans rest w).jobs, stopping,
        (worker.scan now done spans rest w).world,
        (worker.scan now done spans rest w).spans.map Span.job ++ started⟩ := by
  induction rest generalizing done spans w with
  | nil => exact ⟨1, rfl⟩
  | cons job rest ih =>
      by_cases due : job.due now = true
      · obtain ⟨n, ran⟩ := ih
          (done ++ [(job.started.ended (job.run w).1).released (worker.clock (job.run w).2).1])
          (⟨done.length, w, (job.run w).2, (job.run w).1⟩ :: spans) (worker.clock (job.run w).2).2
        refine ⟨n + 3, ?_⟩
        have first : worker.advance pollSeconds
            ⟨.scanning now done (job :: rest), stopping, w, spans.map Span.job ++ started⟩ =
            ⟨.running now done job.started rest, stopping, w,
              done.length :: (spans.map Span.job ++ started)⟩ := if_pos due
        rw [scan, if_pos due, ← ran, List.replicate_succ, exec_cons, happen_work, first]
        rfl
      · obtain ⟨n, ran⟩ := ih (done ++ [job]) spans w
        refine ⟨n + 1, ?_⟩
        have first : worker.advance pollSeconds
            ⟨.scanning now done (job :: rest), stopping, w, spans.map Span.job ++ started⟩ =
            ⟨.scanning now (done ++ [job]) rest, stopping, w,
              spans.map Span.job ++ started⟩ := if_neg due
        rw [scan, if_neg due, ← ran, List.replicate_succ, exec_cons, happen_work, first]

/-- A tick is what the worker does from its call to its end. -/
theorem advances_tick (jobs : List (Job W)) (w : W) (stopping : Bool) (started : List ℕ) :
    ∃ n, worker.exec pollSeconds (List.replicate n .work) ⟨.ticking jobs, stopping, w, started⟩ =
      ⟨.sleeping (worker.tick jobs w).jobs, stopping, (worker.tick jobs w).world,
        (worker.tick jobs w).spans.map Span.job ++ started⟩ := by
  have scanned : ∃ n, worker.exec pollSeconds (List.replicate n .work)
      ⟨.scanning (worker.clock w).1 [] jobs, stopping, (worker.clock w).2, started⟩ =
      ⟨.sleeping (worker.tick jobs w).jobs, stopping, (worker.tick jobs w).world,
        (worker.tick jobs w).spans.map Span.job ++ started⟩ :=
    advances_scan (worker.clock w).1 jobs [] [] (worker.clock w).2 stopping started
  obtain ⟨n, ran⟩ := scanned
  exact ⟨n + 1, ran⟩

/-- The worker of a world that is nothing but the time. -/
def wallClock : Worker ℚ where
  clock now := (now, now)
  sleep seconds now := now + seconds

end Worker

end FazerBridge
