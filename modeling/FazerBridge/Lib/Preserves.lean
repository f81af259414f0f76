import FazerBridge.Lib.Program

/-!
# What a program preserves

`Preserves P x` says that `x` keeps `P` however it ends.  The constructs of a program
preserve what their parts do, and a loop what its body does.
-/

universe u

namespace Prog

variable {ε σ α β : Type u} {P : σ → Prop}

/-- `x` keeps `P`, also when it raises. -/
def Preserves (P : σ → Prop) (x : Prog ε σ α) : Prop := 
  ∀ s t r, x.Runs s r t → P s → P t

theorem preserves_pure (a : α) : Preserves P (pure a : Prog ε σ α) := by
  intro s t r run start
  rw [(runs_pure.mp run).2]
  exact start

theorem preserves_throw (e : ε) : Preserves P (throw e : Prog ε σ α) := by
  intro s t r run start
  rw [(runs_throw.mp run).2]
  exact start

theorem preserves_get : Preserves P (get : Prog ε σ σ) := by
  intro s t r run start
  rw [(runs_get.mp run).2]
  exact start

theorem preserves_modify {f : σ → σ} (kept : ∀ s, P s → P (f s)) :
    Preserves P (modify f : Prog ε σ PUnit) := by
  intro s t r run start
  rw [(runs_modify.mp run).2]
  exact kept s start

theorem preserves_ofState {f : σ → Except ε α × σ} (kept : ∀ s, P s → P (f s).2) :
    Preserves P (ofState f) := by
  intro s t r run start
  rw [← show (f s).2 = t from congrArg Prod.snd (runs_ofState.mp run)]
  exact kept s start

theorem preserves_bind {x : Prog ε σ α} {f : α → Prog ε σ β} (first : Preserves P x)
    (second : ∀ a, Preserves P (f a)) : Preserves P (x >>= f) := by
  intro s t r run start
  rcases runs_bind.mp run with ⟨a, m, ran, rest⟩ | ⟨e, ran, -⟩
  · exact second a _ _ _ rest (first _ _ _ ran start)
  · exact first _ _ _ ran start

/-- A program that depends on the state it begins in. -/
theorem preserves_get_bind {f : σ → Prog ε σ α} (kept : ∀ s, P s → Preserves P (f s)) :
    Preserves P ((get : Prog ε σ σ) >>= f) := by
  intro s t r run start
  exact kept s start _ _ _ (runs_get_bind.mp run) start

theorem preserves_tryCatch {x : Prog ε σ α} {handle : ε → Prog ε σ α} (body : Preserves P x)
    (handler : ∀ e, Preserves P (handle e)) :
    Preserves P (tryCatch x handle) := by
  intro s t r run start
  rcases runs_tryCatch.mp run with ⟨a, ran, -⟩ | ⟨e, m, ran, handled⟩
  · exact body _ _ _ ran start
  · exact handler e _ _ _ handled (body _ _ _ ran start)

theorem preserves_ite {c : Prop} [Decidable c] {x y : Prog ε σ α} (yes : c → Preserves P x)
    (no : ¬ c → Preserves P y) : Preserves P (if c then x else y) := by
  intro s t r run start
  rcases runs_ite.mp run with ⟨holds, ran⟩ | ⟨fails, ran⟩
  · exact yes holds _ _ _ ran start
  · exact no fails _ _ _ ran start

end Prog
