import FazerBridge.Worker

/-!
# Stopping

`request_stop` says that the worker is finishing the current job, but the loop of `tick`
does not look at the flag: every job that is still due at the reading of this tick is
started all the same.  `stops_iff` says at which points a signal does what it says.
-/

namespace FazerBridge

namespace Worker

variable {W : Type} {worker : Worker W} {pollSeconds : ℚ}

/-- In this tick a job would still be started. -/
def DueAhead (worker : Worker W) (s : State W) : Prop :=
  match s.place with
  | .ticking jobs => ∃ job ∈ jobs, job.due (worker.clock s.world).1 = true
  | .scanning now _ rest => ∃ job ∈ rest, job.due now = true
  | .running now _ _ rest => ∃ job ∈ rest, job.due now = true
  | .rescheduling now _ _ rest => ∃ job ∈ rest, job.due now = true
  | .looping _ | .sleeping _ | .stopped _ => False

/-- A stop requested here starts no job any more, and the loop exits. -/
structure Stops (worker : Worker W) (pollSeconds : ℚ) (s : State W) : Prop where
  started : ∀ after, (worker.exec pollSeconds after (requestStop s)).started = s.started
  exits : ∃ n, ∀ after, n ≤ after.count Event.work →
    ∃ jobs, (worker.exec pollSeconds after (requestStop s)).place = .stopped jobs

/-- The steps that a stopping worker still takes when no job is due. -/
def remaining (s : State W) : ℕ :=
  match s.place with
  | .ticking jobs => jobs.length + 4
  | .scanning _ _ rest => rest.length + 3
  | .running _ _ _ rest => rest.length + 5
  | .rescheduling _ _ _ rest => rest.length + 4
  | .sleeping _ => 2
  | .looping _ => 1
  | .stopped _ => 0

theorem stopped_of_remaining {s : State W} (none : remaining s = 0) :
    ∃ jobs, s.place = .stopped jobs := by
  rcases s with ⟨place, stopping, world, started⟩
  cases place <;> simp [remaining] at none ⊢

/-- What a signal and a step leave of a worker that stops with no job due. -/
structure Winds (worker : Worker W) (started : List ℕ) (s : State W) : Prop where
  stopping : s.stopping = true
  quiet : ¬ DueAhead worker s
  started : s.started = started

theorem Winds.signal {started : List ℕ} {s : State W} (winds : Winds worker started s) :
    Winds worker started (requestStop s) :=
  ⟨rfl, winds.quiet, winds.started⟩

theorem Winds.advance (pollSeconds : ℚ) {started : List ℕ} {s : State W}
    (winds : Winds worker started s) :
    Winds worker started (worker.advance pollSeconds s) ∧
      remaining (worker.advance pollSeconds s) = remaining s - 1 := by
  obtain ⟨stopping, quiet, same⟩ := winds
  rcases s with ⟨place, flag, world, begun⟩
  cases place with
  | looping jobs =>
      have turned : worker.advance pollSeconds ⟨.looping jobs, flag, world, begun⟩ =
          ⟨.stopped jobs, flag, world, begun⟩ := by
        simp only [Worker.advance]
        rw [if_pos stopping]
      rw [turned]
      exact ⟨⟨stopping, id, same⟩, rfl⟩
  | ticking jobs => exact ⟨⟨stopping, quiet, same⟩, rfl⟩
  | scanning now done rest =>
      cases rest with
      | nil => exact ⟨⟨stopping, id, same⟩, rfl⟩
      | cons job rest =>
          have past : job.due now ≠ true := fun due => quiet ⟨job, List.mem_cons_self, due⟩
          have turned : worker.advance pollSeconds
              ⟨.scanning now done (job :: rest), flag, world, begun⟩ =
              ⟨.scanning now (done ++ [job]) rest, flag, world, begun⟩ := if_neg past
          rw [turned]
          refine ⟨⟨stopping, ?_, same⟩, rfl⟩
          intro found
          obtain ⟨later, mem, due⟩ := found
          exact quiet ⟨later, List.mem_cons_of_mem job mem, due⟩
  | running now done job rest => exact ⟨⟨stopping, quiet, same⟩, rfl⟩
  | rescheduling now done job rest => exact ⟨⟨stopping, quiet, same⟩, rfl⟩
  | sleeping jobs => exact ⟨⟨stopping, id, same⟩, rfl⟩
  | stopped jobs => exact ⟨⟨stopping, id, same⟩, rfl⟩

theorem Winds.exec (pollSeconds : ℚ) {started : List ℕ} {s : State W} (winds : Winds worker started s)
    (after : List Event) :
    Winds worker started (worker.exec pollSeconds after s) ∧
      remaining (worker.exec pollSeconds after s) = remaining s - after.count Event.work := by
  induction after generalizing s with
  | nil => exact ⟨winds, rfl⟩
  | cons event after ih =>
      rw [exec_cons]
      cases event with
      | work =>
          obtain ⟨next, fewer⟩ := winds.advance pollSeconds
          obtain ⟨last, left⟩ := ih next
          refine ⟨last, ?_⟩
          rw [happen_work, left, fewer, List.count_cons_self]
          omega
      | signal =>
          obtain ⟨last, left⟩ := ih winds.signal
          exact ⟨last, left⟩

/-- The scan comes to the job that is due. -/
theorem starts_of_due (worker : Worker W) (pollSeconds now : ℚ) (rest done : List (Job W))
    (flag : Bool) (w : W)
    (begun : List ℕ) (due : ∃ job ∈ rest, job.due now = true) :
    ∃ n, (worker.exec pollSeconds (List.replicate n .work)
      ⟨.scanning now done rest, flag, w, begun⟩).started.length = begun.length + 1 := by
  induction rest generalizing done with
  | nil =>
      obtain ⟨job, mem, _⟩ := due
      cases mem
  | cons job rest ih =>
      by_cases now_due : job.due now = true
      · have first : worker.advance pollSeconds
            ⟨.scanning now done (job :: rest), flag, w, begun⟩ =
            ⟨.running now done job.started rest, flag, w, done.length :: begun⟩ :=
          if_pos now_due
        refine ⟨1, ?_⟩
        rw [List.replicate_one, exec_cons, happen_work, first]
        rfl
      · have later : ∃ job ∈ rest, job.due now = true := by
          obtain ⟨other, mem, other_due⟩ := due
          rcases List.mem_cons.mp mem with same | mem
          · exact absurd (same ▸ other_due) now_due
          · exact ⟨other, mem, other_due⟩
        obtain ⟨n, more⟩ := ih (done ++ [job]) later
        have first : worker.advance pollSeconds
            ⟨.scanning now done (job :: rest), flag, w, begun⟩ =
            ⟨.scanning now (done ++ [job]) rest, flag, w, begun⟩ := if_neg now_due
        refine ⟨n + 1, ?_⟩
        rw [List.replicate_succ, exec_cons, happen_work, first]
        exact more

theorem starts_of_dueAhead (pollSeconds : ℚ) {s : State W} (due : DueAhead worker s) :
    ∃ n, (worker.exec pollSeconds (List.replicate n .work) s).started.length =
      s.started.length + 1 := by
  rcases s with ⟨place, flag, world, begun⟩
  cases place with
  | looping | sleeping | stopped => exact due.elim
  | ticking jobs =>
      obtain ⟨n, more⟩ := starts_of_due worker pollSeconds (worker.clock world).1 jobs []
        flag (worker.clock world).2 begun due
      exact ⟨n + 1, more⟩
  | scanning now done rest => exact starts_of_due worker pollSeconds now rest done flag world begun due
  | running now done job rest =>
      obtain ⟨n, more⟩ := starts_of_due worker pollSeconds now rest (done ++ [_]) flag _ begun due
      exact ⟨n + 2, more⟩
  | rescheduling now done job rest =>
      obtain ⟨n, more⟩ := starts_of_due worker pollSeconds now rest (done ++ [_]) flag _ begun due
      exact ⟨n + 1, more⟩

/-- A stop does what it says exactly where no later job of the tick is due at the reading
the tick began with. -/
theorem stops_iff (worker : Worker W) (pollSeconds : ℚ) (jobs : List (Job W)) (w : W)
    (before : List Event) :
    Stops worker pollSeconds (worker.exec pollSeconds before (worker.atStart jobs w)) ↔
      ¬ DueAhead worker (worker.exec pollSeconds before (worker.atStart jobs w)) := by
  generalize worker.exec pollSeconds before (worker.atStart jobs w) = s
  constructor
  · intro stops due
    obtain ⟨n, more⟩ := starts_of_dueAhead pollSeconds
      (show DueAhead worker (requestStop s) from due)
    have same := stops.started (List.replicate n .work)
    rw [same] at more
    exact Nat.succ_ne_self _ more.symm
  · intro quiet
    have winds : Winds worker s.started (requestStop s) := ⟨rfl, quiet, rfl⟩
    refine ⟨fun after => (winds.exec pollSeconds after).1.started, remaining (requestStop s), ?_⟩
    intro after enough
    refine stopped_of_remaining ?_
    rw [(winds.exec pollSeconds after).2, Nat.sub_eq_zero_of_le enough]

/-- Two jobs that are due at the start. -/
def twoDue : List (Job ℚ) :=
  [{ name := "supplier-catalogue", intervalSeconds := 900, run := fun now => (.returned, now + 30) },
   { name := "matching", intervalSeconds := 900, run := fun now => (.returned, now + 10) }]

/-- A signal in the first of two due jobs does not keep the worker from the second. -/
theorem starts_after_signal :
    ¬ Stops wallClock 1 (wallClock.exec 1 (List.replicate 3 .work) (wallClock.atStart twoDue 0)) := by
  intro stops
  have same := stops.started (List.replicate 3 .work)
  revert same
  decide +kernel

end Worker

end FazerBridge
