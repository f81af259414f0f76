import FazerBridge.Worker
import Mathlib.Data.List.Forall2

/-!
# Spacing and isolation

A tick decides what is due by the reading it begins with and reschedules by later ones.
`Orderly` is what each run of a job keeps of the whole execution: the runs so far, the
latest first, and what the jobs remember of them.  `time` is any account of the time that
has passed in a world: for a clock given by its readings alone, the last of them.
-/

namespace FazerBridge

namespace Job

variable {W : Type}

/-- What no run changes of a job. -/
def fixed (job : Job W) : Job W := { job with nextRunAt := 0, running := false, failures := 0 }

/-- A job as it is built. -/
def Fresh (job : Job W) : Prop := job.running = false ∧ job.failures = 0

/-- A job that is due was scheduled for now or earlier. -/
theorem due_le {job : Job W} {now : ℚ} (due : job.due now = true) : job.nextRunAt ≤ now := by
  simp only [Job.due, Bool.and_eq_true, decide_eq_true_eq] at due
  exact due.2

end Job

namespace Worker

variable {W : Type} {worker : Worker W} {time : W → ℚ}

/-- A tick after `move`, added to what was before. -/
def tickAgain (worker : Worker W) (s : Ticked W) (move : W → W) : Ticked W :=
  let ticked := worker.tick s.jobs (move s.world)
  ⟨ticked.jobs, ticked.world, ticked.spans ++ s.spans⟩

/-- Ticks one after the other, with what happens before each. -/
def ticks (worker : Worker W) (moves : List (W → W)) (jobs : List (Job W)) (w : W) : Ticked W :=
  moves.foldl worker.tickAgain ⟨(worker.new jobs w).1, (worker.new jobs w).2, []⟩

/-- Time passes in every run and between the ticks, and the clock never goes back. -/
structure Passes (worker : Worker W) (time : W → ℚ) (jobs : List (Job W)) (moves : List (W → W)) :
    Prop where
  reads : ∀ w, time w ≤ (worker.clock w).1 ∧ (worker.clock w).1 ≤ time (worker.clock w).2
  runs : ∀ job ∈ jobs, ∀ w, time w ≤ time (job.run w).2
  moves : ∀ move ∈ moves, ∀ w, time w ≤ time (move w)

/-- How many of the last runs of a job failed, one after the other. -/
def streak (position : ℕ) (past : List (Span W)) : ℕ :=
  ((past.filter (·.job = position)).takeWhile (·.ending = .raised)).length

/-- The later run of a job begins its interval after the end of the earlier one. -/
def Spaced (time : W → ℚ) (jobs : List (Job W)) (later earlier : Span W) : Prop :=
  later.job = earlier.job → ∀ job, jobs[later.job]? = some job →
    time earlier.after + job.intervalSeconds ≤ time later.before

structure Orderly (time : W → ℚ) (jobs : List (Job W)) (s : Ticked W) : Prop where
  same : s.jobs.map Job.fixed = jobs.map Job.fixed
  idle : ∀ job ∈ s.jobs, job.running = false
  failures : ∀ position job, s.jobs[position]? = some job →
    job.failures = streak position s.spans
  waits : ∀ span ∈ s.spans, ∀ job, s.jobs[span.job]? = some job →
    time span.after + job.intervalSeconds ≤ job.nextRunAt
  past : ∀ span ∈ s.spans, time span.after ≤ time s.world
  spaced : s.spans.Pairwise (Spaced time jobs)

/-- A run of another job does not count. -/
theorem streak_cons_other {position : ℕ} {span : Span W} {past : List (Span W)}
    (other : span.job ≠ position) : streak position (span :: past) = streak position past := by
  simp [streak, other]

/-- A return ends the streak of its job, and a failure makes it longer. -/
theorem streak_cons_self (span : Span W) (past : List (Span W)) :
    streak span.job (span :: past) = match span.ending with
      | .returned => 0
      | .raised => streak span.job past + 1 := by
  cases ended : span.ending <;> simp [streak, ended]

namespace Orderly

variable {jobs : List (Job W)} {s : Ticked W}

/-- Time passes. -/
theorem moved (orderly : Orderly time jobs s) {w : W} (later : time s.world ≤ time w) :
    Orderly time jobs ⟨s.jobs, w, s.spans⟩ where
  same := orderly.same
  idle := orderly.idle
  failures := orderly.failures
  waits := orderly.waits
  past := fun span mem => (orderly.past span mem).trans later
  spaced := orderly.spaced

/-- The jobs keep their names and intervals. -/
theorem fixed_eq (orderly : Orderly time jobs s) {position : ℕ} {job : Job W}
    (at_position : s.jobs[position]? = some job) :
    jobs[position]?.map Job.fixed = some job.fixed := by
  have same := congrArg (·[position]?) orderly.same
  simpa [at_position] using same.symm

/-- One run of a job. -/
theorem runs (orderly : Orderly time jobs s) {position : ℕ} {job : Job W} {now reading : ℚ}
    {finish w : W} (ending : Ending) (at_position : s.jobs[position]? = some job)
    (due : job.due now = true) (begun : now ≤ time s.world)
    (finished : time s.world ≤ time finish) (read : time finish ≤ reading)
    (after : reading ≤ time w) :
    Orderly time jobs ⟨s.jobs.set position ((job.started.ended ending).released reading), w,
      ⟨position, s.world, finish, ending⟩ :: s.spans⟩ where
  same := by
    obtain ⟨bound, here⟩ := List.getElem?_eq_some_iff.mp at_position
    have bound' : position < (s.jobs.map Job.fixed).length := by rwa [List.length_map]
    have kept : ((job.started.ended ending).released reading).fixed =
        (s.jobs.map Job.fixed)[position] := by
      rw [List.getElem_map, here]
      rfl
    rw [List.map_set, kept, List.set_getElem_self, orderly.same]
  idle := by
    intro other mem
    rcases List.mem_or_eq_of_mem_set mem with mem | same
    · exact orderly.idle other mem
    · rw [same]
      rfl
  failures := by
    intro other_position other at_other
    by_cases same : position = other_position
    · subst same
      rw [List.getElem?_set_self (List.getElem?_eq_some_iff.mp at_position).1] at at_other
      cases at_other
      rw [streak_cons_self ⟨position, s.world, finish, ending⟩ s.spans,
        ← orderly.failures position job at_position]
      cases ending <;> rfl
    · rw [List.getElem?_set_ne same] at at_other
      rw [streak_cons_other same]
      exact orderly.failures other_position other at_other
  waits := by
    intro span mem other at_other
    have ends : time span.after ≤ reading := by
      rcases List.mem_cons.mp mem with same | mem
      · exact same ▸ read
      · exact (orderly.past span mem).trans (finished.trans read)
    by_cases same : position = span.job
    · rw [← same, List.getElem?_set_self (List.getElem?_eq_some_iff.mp at_position).1] at at_other
      cases at_other
      exact add_le_add_left ends _
    · rw [List.getElem?_set_ne same] at at_other
      rcases List.mem_cons.mp mem with eq | mem
      · exact absurd (congrArg Span.job eq).symm same
      · exact orderly.waits span mem other at_other
  past := by
    intro span mem
    rcases List.mem_cons.mp mem with same | mem
    · rw [same]
      exact read.trans after
    · exact (orderly.past span mem).trans (finished.trans (read.trans after))
  spaced := by
    refine List.pairwise_cons.mpr ⟨?_, orderly.spaced⟩
    intro earlier mem same original at_original
    have fixed := orderly.fixed_eq at_position
    simp only at at_original
    rw [at_original, Option.map_some] at fixed
    have interval : original.fixed.intervalSeconds = job.fixed.intervalSeconds := by
      rw [Option.some.inj fixed]
    change _ + original.fixed.intervalSeconds ≤ _
    rw [interval]
    have waited := orderly.waits earlier mem job (same ▸ at_position)
    exact waited.trans ((Job.due_le due).trans begun)

/-- A scan keeps the order, whatever its jobs do: each one that is due starts no earlier than it
was scheduled, and is scheduled anew when it ends. -/
theorem scans (orderly : Orderly time jobs s) {moves : List (W → W)}
    (passes : Passes worker time jobs moves) {now : ℚ} (begun : now ≤ time s.world)
    {done rest : List (Job W)} (here : s.jobs = done ++ rest) {spans past : List (Span W)}
    (before : s.spans = spans ++ past) :
    Orderly time jobs ⟨(worker.scan now done spans rest s.world).jobs,
      (worker.scan now done spans rest s.world).world,
      (worker.scan now done spans rest s.world).spans ++ past⟩ := by
  induction rest generalizing s done spans with
  | nil =>
      rw [List.append_nil] at here
      rw [scan, ← here, ← before]
      exact orderly
  | cons job rest ih =>
      by_cases due : job.due now = true
      · have at_position : s.jobs[done.length]? = some job := by
          rw [here, List.getElem?_append_right le_rfl, Nat.sub_self, List.getElem?_cons_zero]
        have known : ∃ original ∈ jobs, original.run = job.run := by
          have fixed := orderly.fixed_eq at_position
          obtain ⟨original, found, same⟩ := Option.map_eq_some_iff.mp fixed
          have run : original.fixed.run = job.fixed.run := by rw [same]
          exact ⟨original, List.mem_of_getElem? found, run⟩
        obtain ⟨original, mem, same⟩ := known
        have finished : time s.world ≤ time (job.run s.world).2 := same ▸ passes.runs original mem _
        have read := passes.reads (job.run s.world).2
        rw [scan, if_pos due]
        refine ih (orderly.runs (job.run s.world).1 at_position due begun finished read.1 read.2)
          (begun.trans (finished.trans (read.1.trans read.2))) ?_ ?_
        · rw [here, List.set_append_right _ _ le_rfl, Nat.sub_self, List.set_cons_zero,
            List.append_assoc]
          rfl
        · rw [before]
          rfl
      · rw [scan, if_neg due]
        refine ih orderly begun ?_ before
        rw [here, List.append_assoc]
        rfl

/-- A pause and a tick after it keep the order. -/
theorem tickAgain (orderly : Orderly time jobs s) {moves : List (W → W)}
    (passes : Passes worker time jobs moves) {move : W → W} (mem : move ∈ moves) :
    Orderly time jobs (worker.tickAgain s move) := by
  have read := passes.reads (move s.world)
  have later := passes.moves move mem s.world
  have ready := orderly.moved (later.trans (read.1.trans read.2))
  exact ready.scans passes read.2 (List.nil_append _).symm (List.nil_append _).symm

end Orderly

/-- Before its first tick the worker has run nothing. -/
theorem orderly_new {jobs : List (Job W)} (fresh : ∀ job ∈ jobs, job.Fresh) (w : W) :
    Orderly time jobs ⟨(worker.new jobs w).1, (worker.new jobs w).2, []⟩ where
  same := by
    simp only [Worker.new, List.map_map]
    rfl
  idle := by
    intro job mem
    obtain ⟨original, mem, built⟩ := List.mem_map.mp mem
    rw [← built]
    exact (fresh original mem).1
  failures := by
    intro position job found
    obtain ⟨original, mem, built⟩ := List.mem_map.mp (List.mem_of_getElem? found)
    rw [← built]
    exact (fresh original mem).2
  waits := fun span mem => by cases mem
  past := fun span mem => by cases mem
  spaced := List.Pairwise.nil

/-- The order is kept by every sequence of ticks. -/
theorem orderly_ticks {jobs : List (Job W)} {moves : List (W → W)}
    (passes : Passes worker time jobs moves) (fresh : ∀ job ∈ jobs, job.Fresh) (w : W) :
    Orderly time jobs (worker.ticks moves jobs w) := by
  have run : ∀ rest ⊆ moves, ∀ s : Ticked W, Orderly time jobs s →
      Orderly time jobs (rest.foldl worker.tickAgain s) := by
    intro rest within s orderly
    induction rest generalizing s with
    | nil => exact orderly
    | cons move rest ih =>
        exact ih (List.subset_of_cons_subset within) _
          (orderly.tickAgain passes (within List.mem_cons_self))
  exact run moves (List.Subset.refl _) _ (orderly_new fresh w)

/-! ## Isolation -/

/-- Two jobs that differ only in how their runs end, in worlds that no clock tells apart. -/
structure Alike (indistinct : W → W → Prop) (one other : Job W) : Prop where
  name : one.name = other.name
  intervalSeconds : one.intervalSeconds = other.intervalSeconds
  initialDelay : one.initialDelay = other.initialDelay
  running : one.running = other.running
  runs : ∀ w v, indistinct w v → indistinct (one.run w).2 (other.run v).2

/-- The same readings, whatever else differs. -/
structure Indistinct (worker : Worker W) (indistinct : W → W → Prop) (moves : List (W → W)) :
    Prop where
  reads : ∀ w v, indistinct w v → (worker.clock w).1 = (worker.clock v).1 ∧
    indistinct (worker.clock w).2 (worker.clock v).2
  moves : ∀ move ∈ moves, ∀ w v, indistinct w v → indistinct (move w) (move v)

/-- Alike, and to run at the same time. -/
def Together (indistinct : W → W → Prop) (one other : Job W) : Prop :=
  Alike indistinct one other ∧ one.nextRunAt = other.nextRunAt

/-- Two executions that no clock tells apart. -/
structure InStep (indistinct : W → W → Prop) (s t : Ticked W) : Prop where
  jobs : List.Forall₂ (Together indistinct) s.jobs t.jobs
  world : indistinct s.world t.world
  spans : s.spans.map Span.job = t.spans.map Span.job

section Isolation

variable {indistinct : W → W → Prop} {moves : List (W → W)}

/-- Jobs with the same schedule are due at the same time. -/
theorem Together.due {one other : Job W} (together : Together indistinct one other) (now : ℚ) :
    one.due now = other.due now := by
  rw [Job.due, Job.due, together.1.running, together.2]

/-- They stay together where one of them fails and the other returns. -/
theorem Together.ran {one other : Job W} (together : Together indistinct one other)
    (first second : Ending) (reading : ℚ) :
    Together indistinct ((one.started.ended first).released reading)
      ((other.started.ended second).released reading) := by
  obtain ⟨alike, next⟩ := together
  refine ⟨⟨alike.name, alike.intervalSeconds, alike.initialDelay, rfl, alike.runs⟩, ?_⟩
  exact congrArg (reading + ·) alike.intervalSeconds

/-- Scans of such jobs start the same ones, whatever each of them does and however it ends. -/
theorem inStep_scan (clocks : Indistinct worker indistinct moves) (now : ℚ)
    {rest rest' done done' : List (Job W)} {spans spans' : List (Span W)} {w v : W}
    (ahead : List.Forall₂ (Together indistinct) rest rest')
    (behind : List.Forall₂ (Together indistinct) done done') (same : indistinct w v)
    (ran : spans.map Span.job = spans'.map Span.job) :
    InStep indistinct (worker.scan now done spans rest w)
      (worker.scan now done' spans' rest' v) := by
  induction ahead generalizing done done' spans spans' w v with
  | nil => exact ⟨behind, same, ran⟩
  | @cons job other rest rest' together ahead ih =>
      rw [scan, scan, together.due now]
      split
      · have ends := together.1.runs w v same
        have reads := clocks.reads _ _ ends
        have next := together.ran (job.run w).1 (other.run v).1 (worker.clock (other.run v).2).1
        refine ih ?_ reads.2 ?_
        · rw [reads.1]
          exact List.rel_append behind (.cons next .nil)
        · rw [List.map_cons, List.map_cons, ran, behind.length_eq]
      · exact ih (List.rel_append behind (.cons together .nil)) same ran

theorem tick_eq (jobs : List (Job W)) (w : W) :
    worker.tick jobs w = worker.scan (worker.clock w).1 [] [] jobs (worker.clock w).2 := rfl

/-- Two workers that are in step stay so for another tick. -/
theorem inStep_tickAgain (clocks : Indistinct worker indistinct moves) {move : W → W}
    (mem : move ∈ moves) {s t : Ticked W} (together : InStep indistinct s t) :
    InStep indistinct (worker.tick s.jobs (move s.world)) (worker.tick t.jobs (move t.world)) ∧
      InStep indistinct (worker.tickAgain s move) (worker.tickAgain t move) := by
  have reads := clocks.reads _ _ (clocks.moves move mem _ _ together.world)
  have ticked : InStep indistinct (worker.tick s.jobs (move s.world))
      (worker.tick t.jobs (move t.world)) := by
    rw [tick_eq, tick_eq, reads.1]
    exact inStep_scan clocks _ together.jobs .nil reads.2 rfl
  refine ⟨ticked, ticked.jobs, ticked.world, ?_⟩
  rw [Worker.tickAgain, Worker.tickAgain, List.map_append, List.map_append, ticked.spans,
    together.spans]

/-- What the jobs do and how they end does not change when any of them runs. -/
theorem inStep_ticks (clocks : Indistinct worker indistinct moves) {jobs others : List (Job W)}
    (alike : List.Forall₂ (Alike indistinct) jobs others) {w v : W} (same : indistinct w v)
    {rest : List (W → W)} (within : rest ⊆ moves) :
    InStep indistinct (worker.ticks rest jobs w) (worker.ticks rest others v) := by
  have reads := clocks.reads w v same
  have built : InStep indistinct ⟨(worker.new jobs w).1, (worker.new jobs w).2, []⟩
      ⟨(worker.new others v).1, (worker.new others v).2, []⟩ := by
    refine ⟨?_, reads.2, rfl⟩
    refine List.forall₂_map_left_iff.mpr (List.forall₂_map_right_iff.mpr (alike.imp ?_))
    intro job other pair
    refine ⟨⟨pair.name, pair.intervalSeconds, pair.initialDelay, pair.running, pair.runs⟩, ?_⟩
    exact congrArg₂ (· + ·) reads.1 pair.initialDelay
  have run : ∀ s t : Ticked W, InStep indistinct s t →
      InStep indistinct (rest.foldl worker.tickAgain s) (rest.foldl worker.tickAgain t) := by
    intro s t together
    induction rest generalizing s t with
    | nil => exact together
    | cons move rest ih =>
        exact ih (List.subset_of_cons_subset within) _ _
          (inStep_tickAgain clocks (within List.mem_cons_self) together).2
  exact run _ _ built

/-- The schedules agree. -/
theorem InStep.nextRunAt {s t : Ticked W} (together : InStep indistinct s t) :
    s.jobs.map Job.nextRunAt = t.jobs.map Job.nextRunAt := by
  rcases s with ⟨jobs, _, _⟩
  rcases t with ⟨others, _, _⟩
  have each : List.Forall₂ (Together indistinct) jobs others := together.jobs
  clear together
  induction each with
  | nil => rfl
  | cons pair _ ih => exact congrArg₂ List.cons pair.2 ih

/-- The names of the runs of a tick do not tell two alike lists of jobs apart. -/
theorem InStep.ran_eq {s t : Ticked W} (together : InStep indistinct s t) {jobs others : List (Job W)}
    (alike : List.Forall₂ (Alike indistinct) jobs others) : ran jobs s = ran others t := by
  -- `ran` reads the names at the positions that ran.
  have names : jobs.map Job.name = others.map Job.name := by
    induction alike with
    | nil => rfl
    | cons pair _ ih => rw [List.map_cons, List.map_cons, pair.name, ih]
  have named : ∀ (list : List (Job W)) (ticked : Ticked W), ran list ticked =
      (ticked.spans.map Span.job).reverse.filterMap fun position =>
        (list.map Job.name)[position]? := by
    intro list ticked
    rw [← List.map_reverse, List.filterMap_map, Worker.ran]
    simp only [Function.comp_def, List.getElem?_map]
  rw [named, named, together.spans, names]

end Isolation

/-- What a sequence of ticks keeps: the spacing of the runs of one job, no job left marked as
running, the count of failures; and how the runs end decides neither which jobs run in a
tick nor when they run next. -/
theorem ticks_orderly (worker : Worker W) (time : W → ℚ) (jobs : List (Job W))
    (moves : List (W → W)) (w : W) (fresh : ∀ job ∈ jobs, job.Fresh)
    (passes : Passes worker time jobs moves) :
    (worker.ticks moves jobs w).spans.Pairwise (Spaced time jobs) ∧
      (∀ job ∈ (worker.ticks moves jobs w).jobs, job.running = false) ∧
      (∀ position job, (worker.ticks moves jobs w).jobs[position]? = some job →
        job.failures = streak position (worker.ticks moves jobs w).spans) ∧
      ∀ (indistinct : W → W → Prop) (others : List (Job W)) (v : W) (move : W → W),
        List.Forall₂ (Alike indistinct) jobs others → indistinct w v →
        Indistinct worker indistinct (move :: moves) →
        (worker.ticks moves jobs w).spans.map Span.job =
            (worker.ticks moves others v).spans.map Span.job ∧
          (worker.ticks moves jobs w).jobs.map Job.nextRunAt =
            (worker.ticks moves others v).jobs.map Job.nextRunAt ∧
          ran jobs (worker.tick (worker.ticks moves jobs w).jobs
              (move (worker.ticks moves jobs w).world)) =
            ran others (worker.tick (worker.ticks moves others v).jobs
              (move (worker.ticks moves others v).world)) := by
  have orderly := orderly_ticks passes fresh w
  refine ⟨orderly.spaced, orderly.idle, orderly.failures, ?_⟩
  intro indistinct others v move alike same clocks
  have together := inStep_ticks clocks alike same (List.subset_cons_self move moves)
  have next := (inStep_tickAgain clocks List.mem_cons_self together).1
  exact ⟨together.spans, together.nextRunAt, next.ran_eq alike⟩

/-- A job that always fails beside one that does not, and both of them healthy. -/
def failing : List (Job ℚ) :=
  [{ name := "bad", intervalSeconds := 1, run := fun now => (.raised, now + 3) },
   { name := "good", intervalSeconds := 1, run := fun now => (.returned, now) }]

def healthy : List (Job ℚ) :=
  [{ name := "bad", intervalSeconds := 1, run := fun now => (.returned, now + 3) },
   { name := "good", intervalSeconds := 1, run := fun now => (.returned, now) }]

def twoSeconds : List (ℚ → ℚ) := [(· + 2), (· + 2), (· + 2)]

/-- A job that always fails is held to its interval too. -/
theorem failing_orderly :
    (wallClock.ticks twoSeconds failing 0).spans.Pairwise (Spaced id failing) ∧
      (∀ job ∈ (wallClock.ticks twoSeconds failing 0).jobs, job.running = false) ∧
      (∀ position job, (wallClock.ticks twoSeconds failing 0).jobs[position]? = some job →
        job.failures = streak position (wallClock.ticks twoSeconds failing 0).spans) ∧
      (wallClock.ticks twoSeconds failing 0).jobs.map Job.nextRunAt =
        (wallClock.ticks twoSeconds healthy 0).jobs.map Job.nextRunAt := by
  have fresh : ∀ job ∈ failing, job.Fresh := by
    intro job mem
    rcases List.mem_pair.mp mem with rfl | rfl <;> exact ⟨rfl, rfl⟩
  have passes : Passes wallClock id failing twoSeconds := by
    refine ⟨fun w => ⟨le_rfl, le_rfl⟩, ?_, ?_⟩
    · intro job mem w
      rcases List.mem_pair.mp mem with rfl | rfl
      · exact le_add_of_nonneg_right (by decide +kernel)
      · exact le_rfl
    · intro move mem w
      have same : move = (· + 2) := by simpa [twoSeconds] using mem
      rw [same]
      exact le_add_of_nonneg_right (by decide +kernel)
  have alike : List.Forall₂ (Alike Eq) failing healthy :=
    .cons ⟨rfl, rfl, rfl, rfl, fun w v same => congrArg (· + 3) same⟩
      (.cons ⟨rfl, rfl, rfl, rfl, fun w v same => same⟩ .nil)
  have clocks : Indistinct wallClock Eq (id :: twoSeconds) :=
    ⟨fun w v same => ⟨same, same⟩, fun move _ w v same => congrArg move same⟩
  obtain ⟨spaced, idle, failures, isolated⟩ :=
    ticks_orderly wallClock id failing twoSeconds 0 fresh passes
  exact ⟨spaced, idle, failures, (isolated Eq healthy 0 id alike rfl clocks).2.1⟩

/-- The failing job keeps its own spacing and its count, and the other one runs all the same. -/
example : (wallClock.ticks twoSeconds failing 0).jobs.map Job.failures = [3, 0] := by
  decide +kernel

end Worker

end FazerBridge
