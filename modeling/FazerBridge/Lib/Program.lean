import Mathlib.Tactic.Common

/-!
# Programs with state and exceptions

`Prog ε σ α` is a computation that reads and writes a state, and either returns
or raises; an exception keeps the state it was raised in.  `Runs x s r t` says
that `x` started in `s` ends in `t` with result `r`.  Each construct of a program
has one rule that takes its run apart.
-/

universe u

/-- A computation over `σ` that may raise an `ε`. -/
abbrev Prog (ε σ : Type u) : Type u → Type u := ExceptT ε (StateM σ)

theorem error_ne_ok {ε α : Type u} {e : ε} : ¬ ∃ a : α, (Except.error e : Except ε α) = .ok a := by
  intro found
  obtain ⟨_, ⟨⟩⟩ := found

namespace Prog

variable {ε σ α β : Type u} {s t : σ}

/-- The result and the final state of a program. -/
def exec (x : Prog ε σ α) (s : σ) : Except ε α × σ := StateT.run (ExceptT.run x) s

/-- `x` started in `s` ends in `t` with result `r`. -/
def Runs (x : Prog ε σ α) (s : σ) (r : Except ε α) (t : σ) : Prop := x.exec s = (r, t)

theorem runs_exec (x : Prog ε σ α) (s : σ) : x.Runs s (x.exec s).1 (x.exec s).2 := rfl

/-- What a fallible primitive does to the state. -/
def ofState (f : σ → Except ε α × σ) : Prog ε σ α := ExceptT.mk f

theorem runs_ofState {f : σ → Except ε α × σ} {r : Except ε α} :
    (ofState f).Runs s r t ↔ f s = (r, t) := Iff.rfl

theorem runs_pure {a : α} {r : Except ε α} :
    Runs (pure a : Prog ε σ α) s r t ↔ r = .ok a ∧ t = s := by
  change ((.ok a, s) : Except ε α × σ) = (r, t) ↔ _
  rw [Prod.mk.injEq]
  exact and_congr eq_comm eq_comm

theorem runs_throw {e : ε} {r : Except ε α} :
    Runs (throw e : Prog ε σ α) s r t ↔ r = .error e ∧ t = s := by
  change ((.error e, s) : Except ε α × σ) = (r, t) ↔ _
  rw [Prod.mk.injEq]
  exact and_congr eq_comm eq_comm

theorem runs_get {r : Except ε σ} : Runs (get : Prog ε σ σ) s r t ↔ r = .ok s ∧ t = s := by
  change ((.ok s, s) : Except ε σ × σ) = (r, t) ↔ _
  rw [Prod.mk.injEq]
  exact and_congr eq_comm eq_comm

theorem runs_modify {f : σ → σ} {r : Except ε PUnit} :
    Runs (modify f : Prog ε σ PUnit) s r t ↔ r = .ok ⟨⟩ ∧ t = f s := by
  change ((.ok ⟨⟩, f s) : Except ε PUnit × σ) = (r, t) ↔ _
  rw [Prod.mk.injEq]
  exact and_congr eq_comm eq_comm

/-- A sequence raises what its first part raises, or runs on from where that ends. -/
theorem runs_bind {x : Prog ε σ α} {f : α → Prog ε σ β} {r : Except ε β} :
    (x >>= f).Runs s r t ↔
      (∃ a m, x.Runs s (.ok a) m ∧ (f a).Runs m r t) ∨
        ∃ e, x.Runs s (.error e) t ∧ r = .error e := by
  have unfold_bind : (x >>= f).exec s =
      match x.exec s with
      | (.ok a, m) => (f a).exec m
      | (.error e, m) => (.error e, m) := by
    simp only [exec, ExceptT.run_bind, StateT.run_bind]
    cases StateT.run (ExceptT.run x) s with
    | mk result m => cases result <;> rfl
  unfold Runs
  rw [unfold_bind]
  cases x.exec s with
  | mk result m => cases result <;> simp [eq_comm, and_comm]

/-- A sequence goes on from where its first part returned. -/
theorem runs_bind_of_ok {x : Prog ε σ α} {f : α → Prog ε σ β} {r : Except ε β} {a : α} {m : σ}
    (first : x.Runs s (.ok a) m) : (x >>= f).Runs s r t ↔ (f a).Runs m r t := by
  rw [runs_bind]
  constructor
  · intro either
    rcases either with ⟨b, n, ran, rest⟩ | ⟨e, ran, -⟩
    · cases first.symm.trans ran
      exact rest
    · cases first.symm.trans ran
  · exact fun rest => .inl ⟨a, m, first, rest⟩

/-- Reading the state hands it on. -/
theorem runs_get_bind {f : σ → Prog ε σ β} {r : Except ε β} :
    ((get : Prog ε σ σ) >>= f).Runs s r t ↔ (f s).Runs s r t := by
  simp [runs_bind, runs_get]

theorem runs_modify_bind {g : σ → σ} {f : PUnit → Prog ε σ β} {r : Except ε β} :
    ((modify g : Prog ε σ PUnit) >>= f).Runs s r t ↔ (f ⟨⟩).Runs (g s) r t := by
  simp only [runs_bind, runs_modify, reduceCtorEq, false_and, exists_false, or_false]
  constructor
  · intro found
    obtain ⟨⟨⟩, _, ⟨-, rfl⟩, run⟩ := found
    exact run
  · exact fun run => ⟨⟨⟩, _, ⟨trivial, rfl⟩, run⟩

theorem runs_map {x : Prog ε σ α} {f : α → β} {r : Except ε β} :
    (f <$> x).Runs s r t ↔ ∃ q, x.Runs s q t ∧ r = q.map f := by
  have unfold_map : (f <$> x).exec s = ((x.exec s).1.map f, (x.exec s).2) := by
    unfold exec ExceptT.run StateT.run
    simp only [Functor.map, ExceptT.map, ExceptT.mk, bind, StateT.bind]
    cases x s with
    | mk result m => cases result <;> rfl
  unfold Runs
  rw [unfold_map]
  cases x.exec s with
  | mk result m => simp [and_comm, eq_comm]

/-- A handler sees the state the exception was raised in. -/
theorem runs_tryCatch {x : Prog ε σ α} {handle : ε → Prog ε σ α} {r : Except ε α} :
    (tryCatch x handle).Runs s r t ↔
      (∃ a, x.Runs s (.ok a) t ∧ r = .ok a) ∨
        ∃ e m, x.Runs s (.error e) m ∧ (handle e).Runs m r t := by
  have unfold_catch : (tryCatch x handle).exec s =
      match x.exec s with
      | (.ok a, m) => (.ok a, m)
      | (.error e, m) => (handle e).exec m := by
    unfold exec ExceptT.run StateT.run
    simp only [tryCatch, tryCatchThe, MonadExceptOf.tryCatch, ExceptT.tryCatch, ExceptT.mk, bind,
      StateT.bind]
    cases x s with
    | mk result m => cases result <;> rfl
  unfold Runs
  rw [unfold_catch]
  cases x.exec s with
  | mk result m => cases result <;> simp [eq_comm, and_comm]

theorem runs_ite {c : Prop} [Decidable c] {x y : Prog ε σ α} {r : Except ε α} :
    (if c then x else y).Runs s r t ↔ (c ∧ x.Runs s r t) ∨ (¬ c ∧ y.Runs s r t) := by
  by_cases h : c <;> simp [h]

end Prog
