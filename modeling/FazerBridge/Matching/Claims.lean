import FazerBridge.Matching.Candidates

/-!
# Claims on store products during a run

A run writes a store product into a mapping row and relies on its claim cache to
keep two rows from getting one product.  The cache covers the rows that are
`AUTO`, `APPROVED` or `PENDING` (`Cached`), and it does so from the start of a
run to its end (`start_cached`, `matchOne_cached`).  An `UNMATCHED` row keeps its
best guess and a `REJECTED` row the refused product, and neither is in the
cache; `run_completes_iff` says that these rows are all that can abort a run.
-/

namespace FazerBridge

namespace Db

variable {db : Db} {k : ℕ} {m : ProductMapping}

theorem existingMapping_eq_some_iff :
    db.existingMapping k = some m ↔ m ∈ db.mappings.rows ∧ m.supplierProductId = k := by
  constructor
  · intro found
    exact ⟨List.mem_of_find?_eq_some found, by simpa using List.find?_some found⟩
  · intro found
    obtain ⟨mem, rfl⟩ := found
    cases found : db.existingMapping m.supplierProductId with
    | none => simpa using List.find?_eq_none.mp found m mem
    | some n =>
        have same : n.supplierProductId = m.supplierProductId := by
          simpa using List.find?_some found
        rw [db.mappings.eq_of_supplier (List.mem_of_find?_eq_some found) mem same]

theorem existingMapping_eq_none_iff :
    db.existingMapping k = none ↔ ∀ m ∈ db.mappings.rows, m.supplierProductId ≠ k := by
  simp [existingMapping]

/-- A completed write changes the mapping table only, by one row. -/
theorem writeMapping_eq_ok {row : ProductMapping} {db' : Db}
    (written : db.writeMapping row = .ok db') :
    ∃ mappings, ProductMappings.flush (db.mappings.table.save row) = .ok mappings ∧
      db' = { db with mappings := mappings } := by
  unfold writeMapping at written
  split at written
  · cases written
  · split at written
    · rename_i mappings flushed
      cases written
      exact ⟨mappings, flushed, rfl⟩
    · cases written

end Db

namespace MatchingEngine

variable {engine : MatchingEngine} {db db' : Db} {claimed claimed' : List ℕ}
  {s : SupplierProduct} {outcome : MatchOutcome} {progress progress' : Progress}

/-! ## The row an outcome is written to -/

@[simp] theorem withOutcome_id (m : ProductMapping) : (withOutcome m outcome).id = m.id := rfl

@[simp] theorem withOutcome_supplierProductId (m : ProductMapping) :
    (withOutcome m outcome).supplierProductId = m.supplierProductId := rfl

@[simp] theorem withOutcome_storeCode (m : ProductMapping) :
    (withOutcome m outcome).storeCode = m.storeCode := rfl

@[simp] theorem withOutcome_storeProductId (m : ProductMapping) :
    (withOutcome m outcome).storeProductId = outcome.best.map Candidate.storeProductId := rfl

@[simp] theorem withOutcome_status (m : ProductMapping) :
    (withOutcome m outcome).status = outcome.status := rfl

@[simp] theorem targetRow_supplierProductId :
    (engine.targetRow db s).supplierProductId = s.id := by
  rw [targetRow]
  cases found : db.existingMapping s.id with
  | none => rfl
  | some m => exact (Db.existingMapping_eq_some_iff.mp found).2

/-- The written row goes over the row of `s` and over no other. -/
theorem targetRow_keyed {m : ProductMapping} (mem : m ∈ db.mappings.rows) :
    m.id = (engine.targetRow db s).id ↔ m.supplierProductId = s.id := by
  rw [targetRow]
  cases found : db.existingMapping s.id with
  | none =>
      refine iff_of_false (db.mappings.lt_nextId mem).ne ?_
      exact Db.existingMapping_eq_none_iff.mp found m mem
  | some n =>
      obtain ⟨nMem, nKey⟩ := Db.existingMapping_eq_some_iff.mp found
      constructor
      · intro same
        rw [db.mappings.eq_of_id mem nMem same, nKey]
      · intro same
        rw [db.mappings.eq_of_supplier mem nMem (same.trans nKey.symm), Option.getD_some]

/-! ## One supplier product -/

/-- What `apply` can do: leave a human decision, or write one row and its claim. -/
theorem apply_cases (applied : engine.apply db claimed s outcome = .ok (db', claimed')) :
    (db.isHumanDecision s = true ∧ db' = db ∧ claimed' = claimed) ∨
    (db.isHumanDecision s = false ∧
      (∃ mappings, ProductMappings.flush (db.mappings.table.save
          (withOutcome (engine.targetRow db s) outcome)) = .ok mappings ∧
        db' = { db with mappings := mappings }) ∧
      claimed' = claimOutcome claimed outcome) := by
  unfold apply at applied
  split at applied
  · rename_i human
    cases applied
    exact Or.inl ⟨human, rfl, rfl⟩
  · rename_i machine
    split at applied
    · rename_i written
      cases applied
      exact Or.inr ⟨by simpa using machine, Db.writeMapping_eq_ok written, rfl⟩
    · cases applied

theorem matchOne_cases (matched : engine.matchOne progress s = .ok progress') :
    engine.apply progress.db progress.claimed s
        (engine.evaluate progress.db progress.claimed s) =
      .ok (progress'.db, progress'.claimed) := by
  unfold matchOne at matched
  simp only at matched
  split at matched
  · rename_i applied
    cases matched
    exact applied
  · cases matched

/-- The products of the mappings that claim one are in the cache. -/
def Cached (engine : MatchingEngine) (db : Db) (claimed : List ℕ) : Prop :=
  ∀ m ∈ db.mappings.rows, m.storeCode = engine.storeCode → m.status ∈ claimingStatuses →
    ∀ g, m.storeProductId = some g → g ∈ claimed

theorem start_cached : engine.Cached db (engine.claimedStoreProducts db) := by
  intro m mem code status g target
  exact List.mem_filterMap.mpr ⟨m, by simp [mem, code, status], target⟩

/-- An outcome's own claim is cached with it. -/
theorem mem_claimOutcome {g : ℕ} (best : outcome.best.map Candidate.storeProductId = some g)
    (status : outcome.status = .auto ∨ outcome.status = .pending) :
    g ∈ claimOutcome claimed outcome := by
  obtain ⟨candidate, found, rfl⟩ := Option.map_eq_some_iff.mp best
  simp [claimOutcome, found, status]

theorem subset_claimOutcome : claimed ⊆ claimOutcome claimed outcome := by
  intro g mem
  unfold claimOutcome
  split
  · split
    · exact List.mem_insert_of_mem mem
    · exact mem
  · exact mem

/-- The engine never approves. -/
theorem evaluate_status_ne_approved :
    (engine.evaluate db claimed s).status ≠ .approved := by
  intro approved
  cases found : (engine.evaluate db claimed s).best with
  | none => rw [evaluate_status_none found] at approved; cases approved
  | some best => exact (evaluate_status_iff found .approved).mp approved

theorem matchOne_cached (cached : engine.Cached progress.db progress.claimed)
    (matched : engine.matchOne progress s = .ok progress') :
    engine.Cached progress'.db progress'.claimed := by
  obtain ⟨-, db_eq, claimed_eq⟩ | ⟨-, ⟨mappings, flushed, db_eq⟩, claimed_eq⟩ :=
    apply_cases (matchOne_cases matched)
  · rw [db_eq, claimed_eq]
    exact cached
  · rw [db_eq, claimed_eq]
    intro m mem code status g target
    have rows : mappings.rows = _ := congrArg Table.rows (ProductMappings.flush_eq_ok flushed)
    change m ∈ mappings.rows at mem
    rw [rows, Table.mem_save] at mem
    rcases mem with rfl | ⟨old, -⟩
    · have never : (engine.evaluate progress.db progress.claimed s).status ≠ .approved :=
        evaluate_status_ne_approved
      refine mem_claimOutcome target ?_
      simp only [withOutcome_status, claimingStatuses, List.mem_cons, List.not_mem_nil,
        or_false] at status
      tauto
    · exact subset_claimOutcome (cached m old code status g target)

/-! ## When a write goes through -/

/-- The store product `apply` is about to write for `s` is held by no other
mapping, whatever its status. -/
def TargetUnheld (engine : MatchingEngine) (progress : Progress) (s : SupplierProduct) : Prop :=
  progress.db.isHumanDecision s = false →
    ∀ best, (engine.evaluate progress.db progress.claimed s).best = some best →
      ∀ m ∈ progress.db.mappings.rows, m.supplierProductId ≠ s.id →
        m.storeCode = (engine.targetRow progress.db s).storeCode →
        m.storeProductId ≠ some best.storeProductId

/-- The best of the products `s` may be mapped to is not kept by a mapping that
claims nothing: one that is `UNMATCHED` or `REJECTED`, or of another store. -/
def Unblocked (engine : MatchingEngine) (progress : Progress) (s : SupplierProduct) : Prop :=
  progress.db.isHumanDecision s = false → 0 < engine.settings.matchMaxCandidates →
    ∀ p, Ranking.IsTop (fun p => (engine.scoreOf s p).1)
        (engine.eligible progress.db progress.claimed s) p →
      ¬ ∃ m ∈ progress.db.mappings.rows, m.supplierProductId ≠ s.id ∧
        m.storeCode = (engine.targetRow progress.db s).storeCode ∧
        m.storeProductId = some p.id ∧
        (m.status = .unmatched ∨ m.status = .rejected ∨ m.storeCode ≠ engine.storeCode)

theorem best_iff_isTop {c : Candidate} : (engine.evaluate db claimed s).best = some c ↔
    0 < engine.settings.matchMaxCandidates ∧
      ∃ p, engine.candidateOf s p = c ∧ Ranking.IsTop (fun p => (engine.scoreOf s p).1)
        (engine.eligible db claimed s) p := by
  rw [evaluate_best_iff, scored, Ranking.isTop_map]
  rfl

theorem targetUnheld_iff (cached : engine.Cached progress.db progress.claimed) :
    engine.TargetUnheld progress s ↔ engine.Unblocked progress s := by
  constructor
  · rintro unheld machine positive p top ⟨m, mem, other, code, target, -⟩
    exact unheld machine _ (best_iff_isTop.mpr ⟨positive, p, rfl, top⟩) m mem other code target
  · intro unblocked machine best found m mem other code target
    obtain ⟨positive, p, rfl, top⟩ := best_iff_isTop.mp found
    refine unblocked machine positive p top ⟨m, mem, other, code, target, ?_⟩
    by_contra claims
    obtain ⟨notUnmatched, notRejected, sameStore⟩ : m.status ≠ .unmatched ∧
        m.status ≠ .rejected ∧ m.storeCode = engine.storeCode := by simpa using claims
    have claiming : m.status ∈ claimingStatuses := by
      cases status : m.status <;> simp_all [claimingStatuses]
    -- The product is claimed, so `s` sees it only as its own current product.
    have held : p.id ∈ progress.claimed := cached m mem sameStore claiming _ target
    obtain ⟨-, visible, -⟩ := mem_eligible.mp top.mem
    have own := (isVisible_iff.mp visible).2.resolve_left (not_not.mpr held)
    obtain ⟨n, existing, current⟩ := Option.bind_eq_some_iff.mp own
    obtain ⟨nMem, nKey⟩ := Db.existingMapping_eq_some_iff.mp existing
    have row : engine.targetRow progress.db s = n := by rw [targetRow, existing, Option.getD_some]
    have same : m = n := progress.db.mappings.eq_of_sameTarget mem nMem
      ⟨by rw [code, row], target.trans current.symm, by simp [target]⟩
    exact other (same ▸ nKey)

/-- The foreign key of a written target holds. -/
theorem best_exists {best : Candidate} (found : (engine.evaluate db claimed s).best = some best) :
    (db.storeProducts.find? best.storeProductId).isSome := by
  obtain ⟨p, eligible, rfl⟩ := evaluate_best_eligible found
  have mem := (mem_shortlist (mem_eligible.mp eligible).1).1
  rw [show (engine.candidateOf s p).storeProductId = p.id from rfl, db.storeProducts.find?_id mem]
  rfl

/-- A product goes through exactly when its target is free. -/
theorem matchOne_ok_iff :
    (∃ progress', engine.matchOne progress s = .ok progress') ↔ engine.TargetUnheld progress s := by
  have goes : (∃ progress', engine.matchOne progress s = .ok progress') ↔
      ∃ out, engine.apply progress.db progress.claimed s
        (engine.evaluate progress.db progress.claimed s) = .ok out := by
    unfold matchOne
    simp only
    split <;> simp_all
  rw [goes]
  by_cases human : progress.db.isHumanDecision s = true
  · simp [apply, TargetUnheld, human]
  have machine : progress.db.isHumanDecision s = false := by simpa using human
  have written : (∃ out, engine.apply progress.db progress.claimed s
        (engine.evaluate progress.db progress.claimed s) = .ok out) ↔
      ∃ mappings, ProductMappings.flush (progress.db.mappings.table.save
        (withOutcome (engine.targetRow progress.db s)
          (engine.evaluate progress.db progress.claimed s))) = .ok mappings := by
    have foreignKey : ((engine.evaluate progress.db progress.claimed s).best.map
        Candidate.storeProductId).any
          (fun g => (progress.db.storeProducts.find? g).isNone) = false := by
      cases found : (engine.evaluate progress.db progress.claimed s).best with
      | none => rfl
      | some best => simpa [Option.isSome_iff_ne_none] using best_exists found
    unfold apply Db.writeMapping
    simp only [machine, withOutcome_storeProductId, foreignKey, Bool.false_eq_true, if_false]
    cases ProductMappings.flush (progress.db.mappings.table.save
      (withOutcome (engine.targetRow progress.db s)
        (engine.evaluate progress.db progress.claimed s))) <;> simp
  rw [written, ProductMappings.flush_save_ok_iff]
  · constructor
    · intro free _ best found m mem other code target
      refine free m mem ?_ ⟨code, ?_, by simp [target]⟩
      · exact fun same => other ((targetRow_keyed mem).mp same)
      · simp [found, target]
    · rintro unheld m mem other ⟨code, target, some_⟩
      cases found : (engine.evaluate progress.db progress.claimed s).best with
      | none => exact some_ (by simp [target, found])
      | some best =>
          refine unheld machine best found m mem ?_ code (by simp [target, found])
          exact fun own => other ((targetRow_keyed mem).mpr own)
  · intro m mem
    rw [withOutcome_id, withOutcome_supplierProductId, targetRow_supplierProductId]
    exact targetRow_keyed mem

/-! ## A whole run -/

/-- `P` holds before each product the run matches. -/
def AlongRun (engine : MatchingEngine) (P : Progress → SupplierProduct → Prop) :
    List SupplierProduct → Progress → Prop
  | [], _ => True
  | s :: rest, progress => P progress s ∧
      ∀ progress', engine.matchOne progress s = .ok progress' → AlongRun engine P rest progress'

theorem matchAll_ok_iff {products : List SupplierProduct}
    (cached : engine.Cached progress.db progress.claimed) :
    (engine.AlongRun engine.TargetUnheld products progress ∧
        ∃ final, engine.matchAll products progress = .ok final) ↔
      engine.AlongRun engine.Unblocked products progress := by
  induction products generalizing progress with
  | nil => simp [AlongRun, matchAll]
  | cons s rest ih =>
      simp only [AlongRun, matchAll]
      constructor
      · intro found
        obtain ⟨⟨unheld, later⟩, final, run⟩ := found
        refine ⟨(targetUnheld_iff cached).mp unheld, fun progress' matched => ?_⟩
        rw [matched] at run
        exact (ih (matchOne_cached cached matched)).mp ⟨later progress' matched, final, run⟩
      · intro found
        obtain ⟨unblocked, later⟩ := found
        have unheld := (targetUnheld_iff cached).mpr unblocked
        obtain ⟨progress', matched⟩ := matchOne_ok_iff.mpr unheld
        obtain ⟨rest_unheld, final, run⟩ :=
          (ih (matchOne_cached cached matched)).mpr (later progress' matched)
        refine ⟨⟨unheld, fun other again => ?_⟩, final, by rw [matched]; exact run⟩
        rw [matched] at again
        cases again
        exact rest_unheld

/-- A run completes, and writes no product that another mapping holds, exactly
when no product it examines is blocked by a mapping that claims nothing. -/
theorem run_completes_iff (engine : MatchingEngine) (db : Db) (onlyUnmapped : Bool)
    (limit : Option ℕ) :
    (engine.AlongRun engine.TargetUnheld (selected db onlyUnmapped limit) (engine.start db) ∧
        ∃ out, engine.run db onlyUnmapped limit = .ok out) ↔
      engine.AlongRun engine.Unblocked (selected db onlyUnmapped limit) (engine.start db) := by
  have cached : engine.Cached (engine.start db).db (engine.start db).claimed := start_cached
  rw [← matchAll_ok_iff cached]
  have ends : (∃ out, engine.run db onlyUnmapped limit = .ok out) ↔
      ∃ final, engine.matchAll (selected db onlyUnmapped limit) (engine.start db) = .ok final := by
    unfold run
    split <;> simp_all
  rw [ends]

end MatchingEngine

/-- Two supplier products whose best guess is one store product: the first one
stays `UNMATCHED` on it, and writing it for the second one aborts the run. -/
theorem run_aborts_on_unmatched_guess :
    ¬ ∃ out, sampleEngine.run (sampleDb ["Cyberpunk Chronicle", "Cyberpunk Encyclopedia"]
      ["Cyberpunk 2077"]) true none = .ok out := by
  have aborted : (sampleEngine.run (sampleDb ["Cyberpunk Chronicle", "Cyberpunk Encyclopedia"]
      ["Cyberpunk 2077"]) true none).isOk = false := by decide +kernel
  intro found
  obtain ⟨out, completed⟩ := found
  rw [completed] at aborted
  cases aborted

end FazerBridge
