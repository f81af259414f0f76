import FazerBridge.Matching.Claims
import FazerBridge.Matching.Shortlist

/-!
# Running the matcher twice

A completed run leaves `UNMATCHED` and `PENDING` rows to be looked at again.
The second run sees the claims of the whole first run, which the first run made
one after the other, so it can decide differently.  `rerun_unchanged_iff` says
when it does not: no product another row gave up in the first run takes the place
of a target, and a product that waits for review because of a near tie still has
a rival no row holds.

A decision reads the mapping table through the verdict on its own product and the
set of claims (`evaluate_congr`), and writing one changes the verdict of one
supplier product (`matchOne_frame`).  So a run decides on each product as if the
earlier ones had only claimed what it leaves them (`matchAll_verdict`).
-/

namespace FazerBridge

namespace Db

variable {db db' : Db} {claimed claimed' : List ℕ} {s : SupplierProduct} {p : StoreProduct}
  {k g : ℕ}

/-- What the mapping of a supplier product says: its status and its target. -/
def verdict (db : Db) (k : ℕ) : Option (MappingStatus × Option ℕ) :=
  (db.existingMapping k).map fun m => (m.status, m.storeProductId)

/-- The store product a verdict claims. -/
def claimOf : MappingStatus × Option ℕ → Option ℕ
  | (.auto, target) | (.pending, target) => target
  | _ => none

/-- What the row of `s` claims. -/
def given (db : Db) (s : SupplierProduct) : Option ℕ := (db.verdict s.id).bind claimOf

theorem verdict_eq_some_iff {v : MappingStatus × Option ℕ} : db.verdict k = some v ↔
    ∃ m ∈ db.mappings.rows, m.supplierProductId = k ∧ (m.status, m.storeProductId) = v := by
  simp only [Db.verdict, Option.map_eq_some_iff, existingMapping_eq_some_iff, and_assoc]

theorem mem_rejectedPairs_iff :
    g ∈ db.rejectedPairs k ↔ db.verdict k = some (.rejected, some g) := by
  rw [verdict_eq_some_iff]
  simp [rejectedPairs, and_assoc]

theorem current_eq_verdict :
    (db.existingMapping k).bind ProductMapping.storeProductId = (db.verdict k).bind Prod.snd := by
  cases found : db.existingMapping k <;> simp [Db.verdict, found]

theorem isHumanDecision_iff : db.isHumanDecision s = true ↔
    ∃ target, db.verdict s.id = some (.approved, target) ∨
      db.verdict s.id = some (.rejected, target) := by
  cases found : db.existingMapping s.id with
  | none => simp [isHumanDecision, Db.verdict, found]
  | some m => simp [isHumanDecision, Db.verdict, found, exists_or]

theorem isHumanDecision_congr (verdict : db'.verdict s.id = db.verdict s.id) :
    db'.isHumanDecision s = db.isHumanDecision s := by
  rw [Bool.eq_iff_iff, isHumanDecision_iff, isHumanDecision_iff, verdict]

theorem isVisible_congr (verdict : db'.verdict s.id = db.verdict s.id)
    (claims : ∀ g, g ∈ claimed' ↔ g ∈ claimed) :
    db'.isVisible claimed' s p = db.isVisible claimed s p := by
  rw [Bool.eq_iff_iff, MatchingEngine.isVisible_iff, MatchingEngine.isVisible_iff,
    current_eq_verdict, current_eq_verdict, mem_rejectedPairs_iff, mem_rejectedPairs_iff,
    verdict, claims]

end Db

namespace MatchingEngine

open Db

variable {engine : MatchingEngine} {db db' : Db} {claimed claimed' : List ℕ}
  {s first : SupplierProduct} {p q : StoreProduct} {outcome : MatchOutcome}
  {progress progress' final : Progress} {products rest : List SupplierProduct} {k : ℕ}

/-! ## A decision reads one verdict and the claims -/

theorem shortlist_congr (stores : db'.storeProducts = db.storeProducts) (parts : TitleParts) :
    engine.shortlist db' parts = engine.shortlist db parts := by
  unfold shortlist
  rw [stores]

theorem evaluate_congr (stores : db'.storeProducts = db.storeProducts)
    (verdict : db'.verdict s.id = db.verdict s.id) (claims : ∀ g, g ∈ claimed' ↔ g ∈ claimed) :
    engine.evaluate db' claimed' s = engine.evaluate db claimed s := by
  have eligible : engine.eligible db' claimed' s = engine.eligible db claimed s := by
    unfold MatchingEngine.eligible
    rw [shortlist_congr stores]
    refine List.filter_congr fun p _ => ?_
    rw [isVisible_congr verdict claims]
  unfold evaluate findCandidates
  rw [eligible]

/-- What an outcome says once it is written. -/
def saying (outcome : MatchOutcome) : MappingStatus × Option ℕ :=
  (outcome.status, outcome.best.map Candidate.storeProductId)

theorem mem_claimOutcome_iff {g : ℕ} :
    g ∈ claimOutcome claimed outcome ↔ g ∈ claimed ∨ claimOf (saying outcome) = some g := by
  unfold claimOutcome saying
  cases best : outcome.best with
  | none => cases status : outcome.status <;> simp [claimOf]
  | some c => cases status : outcome.status <;> simp [claimOf, List.mem_insert_iff, or_comm, eq_comm]

/-! ## A write changes one verdict -/

theorem verdict_save_self {mappings : ProductMappings} {outcome : MatchOutcome}
    (flushed : ProductMappings.flush (db.mappings.table.save
      (withOutcome (engine.targetRow db s) outcome)) = .ok mappings) :
    Db.verdict { db with mappings := mappings } s.id =
      some (saying outcome) := by
  rw [verdict_eq_some_iff]
  have rows : mappings.rows = _ := congrArg Table.rows (ProductMappings.flush_eq_ok flushed)
  refine ⟨withOutcome (engine.targetRow db s) outcome, ?_, targetRow_supplierProductId, rfl⟩
  change _ ∈ mappings.rows
  rw [rows]
  exact Table.mem_save.mpr (Or.inl rfl)

theorem verdict_save_of_ne {mappings : ProductMappings} {outcome : MatchOutcome}
    (flushed : ProductMappings.flush (db.mappings.table.save
      (withOutcome (engine.targetRow db s) outcome)) = .ok mappings) (other : k ≠ s.id) :
    Db.verdict { db with mappings := mappings } k = db.verdict k := by
  have rows : mappings.rows = _ := congrArg Table.rows (ProductMappings.flush_eq_ok flushed)
  ext v
  simp only [verdict_eq_some_iff, rows, Table.mem_save]
  constructor
  · intro found
    obtain ⟨m, rfl | ⟨old, -⟩, key, same⟩ := found
    · exact absurd (key.symm.trans targetRow_supplierProductId) other
    · exact ⟨m, old, key, same⟩
  · intro found
    obtain ⟨m, mem, key, same⟩ := found
    refine ⟨m, Or.inr ⟨mem, fun sameRow => ?_⟩, key, same⟩
    exact other (key.symm.trans ((targetRow_keyed mem).mp sameRow))

/-- Matching `s` leaves the catalogues and every other verdict as they are. -/
theorem matchOne_frame (matched : engine.matchOne progress s = .ok progress') :
    progress'.db.supplierProducts = progress.db.supplierProducts ∧
      progress'.db.storeProducts = progress.db.storeProducts ∧
      ∀ k, k ≠ s.id → progress'.db.verdict k = progress.db.verdict k := by
  obtain ⟨-, db_eq, -⟩ | ⟨-, ⟨mappings, flushed, db_eq⟩, -⟩ := apply_cases (matchOne_cases matched)
  · rw [db_eq]
    exact ⟨rfl, rfl, fun _ _ => rfl⟩
  · rw [db_eq]
    exact ⟨rfl, rfl, fun k other => verdict_save_of_ne flushed other⟩

/-- A product no human decided gets the verdict of its evaluation. -/
theorem matchOne_verdict (machine : progress.db.isHumanDecision s = false)
    (matched : engine.matchOne progress s = .ok progress') :
    progress'.db.verdict s.id =
        some (saying (engine.evaluate progress.db progress.claimed s)) ∧
      progress'.claimed = claimOutcome progress.claimed
        (engine.evaluate progress.db progress.claimed s) := by
  obtain ⟨human, -⟩ | ⟨-, ⟨mappings, flushed, db_eq⟩, claimed_eq⟩ :=
    apply_cases (matchOne_cases matched)
  · rw [human] at machine
    cases machine
  · rw [db_eq]
    exact ⟨verdict_save_self flushed, claimed_eq⟩

theorem matchAll_cons (run : engine.matchAll (s :: products) progress = .ok final) :
    ∃ progress', engine.matchOne progress s = .ok progress' ∧
      engine.matchAll products progress' = .ok final := by
  rw [matchAll] at run
  split at run
  · rename_i progress' matched
    exact ⟨progress', matched, run⟩
  · cases run

/-- A run leaves the catalogues as they are, and the verdict on every product it
does not examine. -/
theorem matchAll_frame (run : engine.matchAll products progress = .ok final) :
    final.db.supplierProducts = progress.db.supplierProducts ∧
      final.db.storeProducts = progress.db.storeProducts ∧
      ∀ k, k ∉ products.map SupplierProduct.id → final.db.verdict k = progress.db.verdict k := by
  induction products generalizing progress with
  | nil => cases run; exact ⟨rfl, rfl, fun _ _ => rfl⟩
  | cons s rest ih =>
      obtain ⟨progress', matched, run⟩ := matchAll_cons run
      obtain ⟨suppliers, stores, others⟩ := matchOne_frame matched
      obtain ⟨suppliers', stores', others'⟩ := ih run
      refine ⟨suppliers'.trans suppliers, stores'.trans stores, fun k outside => ?_⟩
      rw [List.map_cons, List.mem_cons, not_or] at outside
      exact (others' k outside.2).trans (others k outside.1)

/-! ## A run, product by product -/

/-- The claims a run comes to `s` with, if it starts with `claimed` and leaves `db`. -/
def claimsAt (db : Db) (claimed : List ℕ) (products : List SupplierProduct) (s : SupplierProduct) :
    List ℕ :=
  claimed ++ (products.takeWhile (·.id ≠ s.id)).filterMap db.given

@[simp] theorem claimsAt_self : claimsAt db claimed (s :: rest) s = claimed := by
  simp [claimsAt]

theorem claimsAt_congr (same : ∀ k, db'.verdict k = db.verdict k) :
    claimsAt db' claimed products s = claimsAt db claimed products s := by
  have given : db'.given = db.given := by
    funext t
    unfold Db.given
    rw [same]
  unfold claimsAt
  rw [given]

/-- The claim of the first product can be counted to those the run starts with. -/
theorem mem_claimsAt_cons (later : first.id ≠ s.id)
    (given : db.given first = claimOf (saying outcome)) (g : ℕ) :
    g ∈ claimsAt db (claimOutcome claimed outcome) rest s ↔
      g ∈ claimsAt db claimed (first :: rest) s := by
  unfold claimsAt
  rw [List.takeWhile_cons_of_pos (by simpa using later), List.mem_append, List.mem_append,
    mem_claimOutcome_iff, List.filterMap_cons, given]
  cases claim : claimOf (saying outcome) with
  | none => simp
  | some h => simp only [Option.some.injEq, List.mem_cons, or_assoc, eq_comm]

theorem given_of_verdict (verdict : db.verdict s.id = some (saying outcome)) :
    db.given s = claimOf (saying outcome) := by
  unfold Db.given
  rw [verdict, Option.bind_some]

/-- A run decides on each product with the claims it leaves to the earlier ones. -/
theorem matchAll_verdict (distinct : (products.map SupplierProduct.id).Nodup)
    (machine : ∀ s ∈ products, progress.db.isHumanDecision s = false)
    (run : engine.matchAll products progress = .ok final) :
    ∀ s ∈ products, final.db.verdict s.id =
      some (saying (engine.evaluate progress.db
        (claimsAt final.db progress.claimed products s) s)) := by
  induction products generalizing progress with
  | nil => simp
  | cons first rest ih =>
      obtain ⟨progress', matched, run⟩ := matchAll_cons run
      rw [List.map_cons, List.nodup_cons] at distinct
      obtain ⟨verdict, claimed⟩ := matchOne_verdict (machine first List.mem_cons_self) matched
      obtain ⟨-, stores, others⟩ := matchOne_frame matched
      obtain ⟨-, -, kept⟩ := matchAll_frame run
      have written := (kept _ distinct.1).trans verdict
      have apart : ∀ s ∈ rest, s.id ≠ first.id := fun s mem same =>
        distinct.1 (same ▸ List.mem_map_of_mem mem)
      intro s mem
      rcases List.mem_cons.mp mem with rfl | mem
      · rw [claimsAt_self, written]
      · have later := ih distinct.2 (fun t inRest => by
          rw [isHumanDecision_congr (others _ (apart t inRest))]
          exact machine t (List.mem_cons_of_mem _ inRest)) run s mem
        rw [later, claimed, evaluate_congr stores (others _ (apart s mem))
          (mem_claimsAt_cons (apart s mem).symm (given_of_verdict written))]

/-! ## A run that changes nothing -/

/-- A product whose verdict repeats can be written: its row holds its target. -/
theorem targetUnheld_of_repeats
    (repeats : progress.db.verdict s.id =
      some (saying (engine.evaluate progress.db progress.claimed s))) :
    engine.TargetUnheld progress s := by
  intro _ best found m mem other code target
  obtain ⟨n, nMem, nKey, held⟩ := verdict_eq_some_iff.mp repeats
  have current : n.storeProductId = some best.storeProductId := by
    have held : n.storeProductId = _ := congrArg Prod.snd held
    rw [held, saying, found, Option.map_some]
  have row : engine.targetRow progress.db s = n := by
    rw [targetRow, existingMapping_eq_some_iff.mpr ⟨nMem, nKey⟩, Option.getD_some]
  have same : m = n := progress.db.mappings.eq_of_sameTarget mem nMem
    ⟨by rw [code, row], target.trans current.symm, by simp [target]⟩
  exact other (same ▸ nKey)

/-- A run changes no verdict exactly when each evaluation repeats the verdict that is there. -/
theorem rerun_iff (distinct : (products.map SupplierProduct.id).Nodup)
    (machine : ∀ s ∈ products, progress.db.isHumanDecision s = false) :
    (∃ final, engine.matchAll products progress = .ok final ∧
        ∀ k, final.db.verdict k = progress.db.verdict k) ↔
      ∀ s ∈ products, progress.db.verdict s.id =
        some (saying (engine.evaluate progress.db
          (claimsAt progress.db progress.claimed products s) s)) := by
  constructor
  · rintro ⟨final, run, unchanged⟩ s mem
    have verdict := matchAll_verdict distinct machine run s mem
    rwa [unchanged, claimsAt_congr unchanged] at verdict
  · intro repeats
    induction products generalizing progress with
    | nil => exact ⟨progress, rfl, fun _ => rfl⟩
    | cons first rest ih =>
        rw [List.map_cons, List.nodup_cons] at distinct
        have own := repeats first List.mem_cons_self
        rw [claimsAt_self] at own
        obtain ⟨progress', matched⟩ := matchOne_ok_iff.mpr (targetUnheld_of_repeats own)
        obtain ⟨verdict, claimed⟩ := matchOne_verdict (machine first List.mem_cons_self) matched
        obtain ⟨-, stores, others⟩ := matchOne_frame matched
        have same : ∀ k, progress'.db.verdict k = progress.db.verdict k := by
          intro k
          by_cases here : k = first.id
          · rw [here, verdict, own]
          · exact others k here
        obtain ⟨final, run, unchanged⟩ := ih distinct.2
          (fun s mem => by
            rw [isHumanDecision_congr (same _)]
            exact machine s (List.mem_cons_of_mem _ mem))
          fun s mem => by
            have apart : first.id ≠ s.id := fun same => distinct.1 (same ▸ List.mem_map_of_mem mem)
            rw [same, repeats s (List.mem_cons_of_mem _ mem), claimed, claimsAt_congr same,
              evaluate_congr stores (same _)
                (mem_claimsAt_cons apart (given_of_verdict own))]
        refine ⟨final, by rw [matchAll, matched]; exact run, fun k => ?_⟩
        rw [unchanged, same]

/-! ## What the first run moved -/

/-- The claims a run that starts from `db` and leaves `db'` comes to `s` with. -/
def claimsOf (engine : MatchingEngine) (db db' : Db) (s : SupplierProduct) : List ℕ :=
  claimsAt db' (engine.claimedStoreProducts db) (selected db true none) s

/-- When the first run came to `s` another row held `p`; when a run on what it left comes to
`s`, none does. -/
def Freed (engine : MatchingEngine) (db db' : Db) (s : SupplierProduct) (p : StoreProduct) : Prop :=
  p.id ∈ engine.claimsOf db db' s ∧ (db.verdict s.id).bind Prod.snd ≠ some p.id ∧
    p.id ∉ engine.claimsOf db' db' s

/-- No freed product takes the place of the target `s` was given. -/
def Keeps (engine : MatchingEngine) (db db' : Db) (s : SupplierProduct) : Option ℕ → Prop
  | none => 0 < engine.settings.matchMaxCandidates →
      ∀ p ∈ engine.shortlist db (engine.supplierParts s), engine.Freed db db' s p →
        ¬ 0 < (engine.scoreOf s p).1
  | some g => ∀ q ∈ engine.shortlist db (engine.supplierParts s), q.id = g →
      ∀ p ∈ engine.shortlist db (engine.supplierParts s), engine.Freed db db' s p →
        0 < (engine.scoreOf s p).1 →
          Ranking.Beats (fun p => (engine.scoreOf s p).1)
            (engine.shortlist db (engine.supplierParts s)) q p

/-- If the target `g` of `s` scores enough to need no review, no row holds a product that comes
within 0.02 of it. -/
def KeepsRival (engine : MatchingEngine) (db db' : Db) (s : SupplierProduct) (g : ℕ) : Prop :=
  ∀ q ∈ engine.shortlist db (engine.supplierParts s), q.id = g →
    engine.settings.matchAutoAcceptScore ≤ (engine.scoreOf s q).1 →
      ∃ p ∈ engine.shortlist db (engine.supplierParts s), p.id ≠ g ∧
        p.id ∉ engine.claimsOf db' db' s ∧ 0 < (engine.scoreOf s p).1 ∧
        (engine.scoreOf s q).1 - 2 / 100 ≤ (engine.scoreOf s p).1

/-- What the first run moved does not touch the verdict it left on `s`. -/
def Stays (engine : MatchingEngine) (db db' : Db) (s : SupplierProduct) : Prop :=
  ∀ verdict ∈ db'.verdict s.id, engine.Keeps db db' s verdict.2 ∧
    (verdict.1 = .pending → ∀ g ∈ verdict.2, engine.KeepsRival db db' s g)

instance : Decidable (engine.Freed db db' s p) := inferInstanceAs (Decidable (_ ∧ _))

instance (target : Option ℕ) : Decidable (engine.Keeps db db' s target) :=
  match target with
  | none => inferInstanceAs (Decidable (_ → ∀ p ∈ engine.shortlist db _, _ → ¬ _))
  | some g => inferInstanceAs (Decidable (∀ q ∈ engine.shortlist db _, q.id = g →
      ∀ p ∈ engine.shortlist db _, _ → _ → Ranking.Beats _ _ q p))

instance (g : ℕ) : Decidable (engine.KeepsRival db db' s g) :=
  inferInstanceAs (Decidable (∀ q ∈ engine.shortlist db _, q.id = g → _ →
    ∃ p ∈ engine.shortlist db _, _))

instance : Decidable (engine.Stays db db' s) :=
  inferInstanceAs (Decidable (∀ verdict ∈ db'.verdict s.id, _ ∧ (_ → ∀ g ∈ verdict.2, _)))

/-! ## The top of what a product may be mapped to -/

/-- A row that no human decided refuses nothing. -/
theorem mem_eligible_machine (machine : db.isHumanDecision s = false) :
    p ∈ engine.eligible db claimed s ↔ p ∈ engine.shortlist db (engine.supplierParts s) ∧
      (p.id ∉ claimed ∨ (db.verdict s.id).bind Prod.snd = some p.id) ∧
      0 < (engine.scoreOf s p).1 := by
  have unrejected : p.id ∉ db.rejectedPairs s.id := by
    intro rejected
    rw [isHumanDecision_iff.mpr ⟨_, Or.inr (mem_rejectedPairs_iff.mp rejected)⟩] at machine
    cases machine
  rw [mem_eligible, isVisible_iff, current_eq_verdict]
  simp only [unrejected, not_false_eq_true, true_and]

/-- The first of the best products is the one that beats the others. -/
theorem isTop_eligible : Ranking.IsTop (fun p => (engine.scoreOf s p).1)
      (engine.eligible db claimed s) q ↔
    q ∈ engine.eligible db claimed s ∧ ∀ p ∈ engine.eligible db claimed s, p ≠ q →
      Ranking.Beats (fun p => (engine.scoreOf s p).1)
        (engine.shortlist db (engine.supplierParts s)) q p := by
  refine (Ranking.isTop_iff_beats (nodup_shortlist.filter _)).trans ?_
  refine and_congr_right fun top => forall₂_congr fun p mem => forall_congr' fun _ => ?_
  exact Ranking.beats_filter (List.mem_filter.mp top).2 (List.mem_filter.mp mem).2

theorem eq_of_eligible (left : p ∈ engine.eligible db claimed s)
    (right : q ∈ db.storeProducts.rows) (same : p.id = q.id) : p = q :=
  db.storeProducts.eq_of_id (mem_shortlist (mem_eligible.mp left).1).1 right same

/-- The near tie of a top product, in terms of products. -/
theorem nearTie_eligible (top : Ranking.IsTop (fun p => (engine.scoreOf s p).1)
      (engine.eligible db claimed s) q) :
    engine.NearTie (engine.scored db claimed s) (engine.candidateOf s q) ↔
      1 < engine.settings.matchMaxCandidates ∧ ∃ p ∈ engine.eligible db claimed s, p.id ≠ q.id ∧
        (engine.scoreOf s q).1 - 2 / 100 ≤ (engine.scoreOf s p).1 := by
  have rows : ∀ p ∈ engine.eligible db claimed s, p ∈ db.storeProducts.rows :=
    fun p mem => (mem_shortlist (mem_eligible.mp mem).1).1
  have nodup : (engine.scored db claimed s).Nodup :=
    (nodup_shortlist.filter _).map_on fun a left b right same =>
      eq_of_eligible left (rows b right) (congrArg Candidate.storeProductId same)
  have first : Ranking.IsTop Candidate.score (engine.scored db claimed s)
      (engine.candidateOf s q) := Ranking.isTop_map.mpr ⟨q, rfl, top⟩
  refine and_congr_right fun _ => (Ranking.hasRival_iff_exists nodup).trans ?_
  rw [and_iff_right first]
  constructor
  · intro found
    obtain ⟨c, mem, other, close⟩ := found
    obtain ⟨p, eligible, rfl⟩ := mem_scored.mp mem
    refine ⟨p, eligible, fun same => other ?_, close⟩
    rw [eq_of_eligible eligible (rows q top.mem) same]
  · intro found
    obtain ⟨p, eligible, other, close⟩ := found
    exact ⟨_, mem_scored.mpr ⟨p, eligible, rfl⟩,
      fun same => other (congrArg Candidate.storeProductId same), close⟩

/-! ## A second run -/

theorem run_eq_ok {onlyUnmapped : Bool} {limit : Option ℕ} {counters : Counters}
    (run : engine.run db onlyUnmapped limit = .ok (db', counters)) :
    ∃ final, engine.matchAll (selected db onlyUnmapped limit) (engine.start db) = .ok final ∧
      final.db = db' := by
  unfold MatchingEngine.run at run
  split at run
  · rename_i final matched
    cases run
    exact ⟨final, matched, rfl⟩
  · cases run

theorem selected_nodup (db : Db) :
    ((selected db true none).map SupplierProduct.id).Nodup :=
  db.supplierProducts.nodup.sublist (List.filter_sublist.map _)

theorem mem_selected : s ∈ selected db true none ↔
    s ∈ db.supplierProducts.rows ∧ s.isActive = true ∧
      ∀ status target, db.verdict s.id = some (status, target) →
        status = .unmatched ∨ status = .pending := by
  unfold selected limited Db.verdict
  cases found : db.existingMapping s.id <;> simp [found]

/-- A row that is looked at again was decided by no human. -/
theorem machine_of_selected : ∀ s ∈ selected db true none, db.isHumanDecision s = false := by
  intro s mem
  by_contra human
  obtain ⟨target, decided⟩ := isHumanDecision_iff.mp (by simpa using human)
  rcases decided with decided | decided
  all_goals
    rcases (mem_selected.mp mem).2.2 _ _ decided with status | status <;> cases status

/-- A row both runs look at: the first one wrote a verdict that is still open. -/
structure Reopened (engine : MatchingEngine) (db db' : Db) (s : SupplierProduct) : Prop where
  stores : db'.storeProducts = db.storeProducts
  machine : db.isHumanDecision s = false
  written : db'.verdict s.id =
    some (saying (engine.evaluate db (engine.claimsOf db db' s) s))
  undecided : (engine.evaluate db (engine.claimsOf db db' s) s).status = .unmatched ∨
    (engine.evaluate db (engine.claimsOf db db' s) s).status = .pending

namespace Reopened

variable (reopened : engine.Reopened db db' s)
include reopened

theorem machine' : db'.isHumanDecision s = false := by
  by_contra human
  obtain ⟨target, decided⟩ := isHumanDecision_iff.mp (by simpa using human)
  rw [reopened.written] at decided
  rcases reopened.undecided with status | status <;> simp [saying, status] at decided

/-- What the second run sees: the target, and what no row holds. -/
theorem mem_eligible' : p ∈ engine.eligible db' (engine.claimsOf db' db' s) s ↔
    p ∈ engine.shortlist db (engine.supplierParts s) ∧
      (p.id ∉ engine.claimsOf db' db' s ∨
        (engine.evaluate db (engine.claimsOf db db' s) s).best.map Candidate.storeProductId =
          some p.id) ∧
      0 < (engine.scoreOf s p).1 := by
  rw [mem_eligible_machine reopened.machine', shortlist_congr reopened.stores, reopened.written]
  rfl

/-- A freed product is one the second run sees and the first one did not. -/
theorem freed_iff (mem : p ∈ engine.shortlist db (engine.supplierParts s))
    (scores : 0 < (engine.scoreOf s p).1) : engine.Freed db db' s p ↔
      p.id ∉ engine.claimsOf db' db' s ∧ p ∉ engine.eligible db (engine.claimsOf db db' s) s := by
  rw [mem_eligible_machine reopened.machine]
  unfold Freed
  tauto

/-- With no target, nothing was visible, and nothing freed may be. -/
theorem keeps_none_iff
    (nothing : (engine.evaluate db (engine.claimsOf db db' s) s).best = none) :
    engine.Keeps db db' s none ↔
      (engine.evaluate db' (engine.claimsOf db' db' s) s).best = none := by
  have before := evaluate_best_eq_none_iff.mp nothing
  rw [evaluate_best_eq_none_iff]
  rcases Nat.eq_zero_or_pos engine.settings.matchMaxCandidates with zero | positive
  · simp [Keeps, zero]
  have unseen : engine.eligible db (engine.claimsOf db db' s) s = [] :=
    before.resolve_left positive.ne'
  rw [or_iff_right positive.ne', List.eq_nil_iff_forall_not_mem]
  constructor
  · intro keeps p seen
    obtain ⟨mem, visible, scores⟩ := reopened.mem_eligible'.mp seen
    rw [nothing] at visible
    refine keeps positive p mem ((reopened.freed_iff mem scores).mpr ⟨?_, by simp [unseen]⟩) scores
    exact visible.resolve_right (by simp)
  · intro none _ p mem freed scores
    refine none p (reopened.mem_eligible'.mpr ⟨mem, Or.inl ?_, scores⟩)
    exact ((reopened.freed_iff mem scores).mp freed).1

/-- The target stays on top when it beats what was freed: it has beaten the rest. -/
theorem keeps_some_iff
    (best : (engine.evaluate db (engine.claimsOf db db' s) s).best =
      some (engine.candidateOf s q)) (top : Ranking.IsTop (fun p => (engine.scoreOf s p).1)
        (engine.eligible db (engine.claimsOf db db' s) s) q) :
    engine.Keeps db db' s (some q.id) ↔ Ranking.IsTop (fun p => (engine.scoreOf s p).1)
      (engine.eligible db' (engine.claimsOf db' db' s) s) q := by
  obtain ⟨seen, beats⟩ := isTop_eligible.mp top
  obtain ⟨listed, -, scores⟩ := mem_eligible.mp seen
  have row := (mem_shortlist listed).1
  have target : ∀ p ∈ engine.shortlist db (engine.supplierParts s),
      (engine.evaluate db (engine.claimsOf db db' s) s).best.map Candidate.storeProductId =
        some p.id → p = q := by
    intro p mem same
    rw [best, Option.map_some, Option.some.injEq] at same
    exact db.storeProducts.eq_of_id (mem_shortlist mem).1 row same.symm
  rw [isTop_eligible, shortlist_congr reopened.stores, and_iff_right]
  · constructor
    · intro keeps p seen' other
      obtain ⟨mem, visible, passes⟩ := reopened.mem_eligible'.mp seen'
      by_cases before : p ∈ engine.eligible db (engine.claimsOf db db' s) s
      · exact beats p before other
      · refine keeps q listed rfl p mem ((reopened.freed_iff mem passes).mpr ⟨?_, before⟩) passes
        exact visible.resolve_right fun same => other (target p mem same)
    · intro beats' q' mem' same p mem freed passes
      obtain ⟨unheld, unseen⟩ := (reopened.freed_iff mem passes).mp freed
      rw [db.storeProducts.eq_of_id (mem_shortlist mem').1 row same]
      refine beats' p (reopened.mem_eligible'.mpr ⟨mem, Or.inl unheld, passes⟩) ?_
      exact fun same => unseen (same ▸ seen)
  · exact reopened.mem_eligible'.mpr ⟨listed, Or.inr (by rw [best]; rfl), scores⟩

/-- A rival that no row holds is one the second run sees. -/
theorem keepsRival_iff
    (best : (engine.evaluate db (engine.claimsOf db db' s) s).best =
      some (engine.candidateOf s q)) (mem : q ∈ engine.shortlist db (engine.supplierParts s)) :
    engine.KeepsRival db db' s q.id ↔
      (engine.settings.matchAutoAcceptScore ≤ (engine.scoreOf s q).1 →
        ∃ p ∈ engine.eligible db' (engine.claimsOf db' db' s) s, p.id ≠ q.id ∧
          (engine.scoreOf s q).1 - 2 / 100 ≤ (engine.scoreOf s p).1) := by
  constructor
  · intro keeps high
    obtain ⟨p, listed, other, unheld, passes, close⟩ := keeps q mem rfl high
    exact ⟨p, reopened.mem_eligible'.mpr ⟨listed, Or.inl unheld, passes⟩, other, close⟩
  · intro rival q' mem' same high
    rw [db.storeProducts.eq_of_id (mem_shortlist mem').1 (mem_shortlist mem).1 same] at high ⊢
    obtain ⟨p, seen, other, close⟩ := rival high
    obtain ⟨listed, visible, passes⟩ := reopened.mem_eligible'.mp seen
    refine ⟨p, listed, other, visible.resolve_right ?_, passes, close⟩
    rw [best]
    exact fun same => other (Option.some.inj same).symm

/-- With the same target the status repeats, but for a near tie that review waits for. -/
theorem status_iff
    (best : (engine.evaluate db (engine.claimsOf db db' s) s).best =
      some (engine.candidateOf s q))
    (top' : Ranking.IsTop (fun p => (engine.scoreOf s p).1)
      (engine.eligible db' (engine.claimsOf db' db' s) s) q) :
    ((engine.evaluate db (engine.claimsOf db db' s) s).status = .pending →
        engine.settings.matchAutoAcceptScore ≤ (engine.scoreOf s q).1 →
          ∃ p ∈ engine.eligible db' (engine.claimsOf db' db' s) s, p.id ≠ q.id ∧
            (engine.scoreOf s q).1 - 2 / 100 ≤ (engine.scoreOf s p).1) ↔
      (engine.evaluate db (engine.claimsOf db db' s) s).status =
        (engine.evaluate db' (engine.claimsOf db' db' s) s).status := by
  have positive := (evaluate_best_iff.mp best).1
  have earned := (evaluate_status_iff best _).mp rfl
  have undecided := reopened.undecided
  refine Iff.trans ?_ eq_comm
  rw [evaluate_status_iff (best_iff_isTop.mpr ⟨positive, q, rfl, top'⟩)]
  generalize (engine.evaluate db (engine.claimsOf db db' s) s).status = status at *
  rcases undecided with rfl | rfl
  · simpa [Earned] using earned
  · have tie := nearTie_eligible top'
    simp only [Earned, true_implies, tie, and_iff_right earned.1]
    exact forall_congr' fun high => (and_iff_right (earned.2 high).1).symm

/-- The verdict stays exactly when the second evaluation repeats it. -/
theorem stays_iff : engine.Stays db db' s ↔
    db'.verdict s.id = some (saying (engine.evaluate db' (engine.claimsOf db' db' s) s)) := by
  have stays : engine.Stays db db' s ↔
      engine.Keeps db db' s
          ((engine.evaluate db (engine.claimsOf db db' s) s).best.map Candidate.storeProductId) ∧
        ((engine.evaluate db (engine.claimsOf db db' s) s).status = .pending →
          ∀ g ∈ (engine.evaluate db (engine.claimsOf db db' s) s).best.map
            Candidate.storeProductId, engine.KeepsRival db db' s g) := by
    unfold Stays
    rw [reopened.written]
    simp only [Option.mem_def, Option.some.injEq, forall_eq']
    rfl
  rw [stays, reopened.written, Option.some.injEq, saying, saying, Prod.mk.injEq]
  cases best : (engine.evaluate db (engine.claimsOf db db' s) s).best with
  | none =>
      rw [Option.map_none, reopened.keeps_none_iff best, evaluate_status_none best]
      constructor
      · intro found
        obtain ⟨nothing, -⟩ := found
        rw [nothing, evaluate_status_none nothing]
        exact ⟨rfl, rfl⟩
      · intro found
        obtain ⟨-, same⟩ := found
        exact ⟨Option.map_eq_none_iff.mp same.symm, fun pending => by cases pending⟩
  | some c =>
      obtain ⟨positive, q, rfl, top⟩ := best_iff_isTop.mp best
      have listed := (mem_eligible.mp top.mem).1
      rw [Option.map_some]
      simp only [Option.mem_def, Option.some.injEq, forall_eq']
      rw [show (engine.candidateOf s q).storeProductId = q.id from rfl,
        reopened.keeps_some_iff best top, reopened.keepsRival_iff best listed]
      constructor
      · intro found
        obtain ⟨top', rival⟩ := found
        refine ⟨(reopened.status_iff best top').mp rival, ?_⟩
        rw [best_iff_isTop.mpr ⟨positive, q, rfl, top'⟩]
        rfl
      · intro found
        obtain ⟨status, target⟩ := found
        obtain ⟨c', best', same⟩ := Option.map_eq_some_iff.mp target.symm
        obtain ⟨-, q', rfl, top'⟩ := best_iff_isTop.mp best'
        have row' := (mem_shortlist (mem_eligible.mp top'.mem).1).1
        rw [reopened.stores] at row'
        rw [db.storeProducts.eq_of_id row' (mem_shortlist listed).1 same] at top'
        exact ⟨top', (reopened.status_iff best top').mpr status⟩

end Reopened

/-- What a second run looks at, the first one looked at. -/
theorem reopened_of_selected {counters : Counters}
    (ran : engine.run db true none = .ok (db', counters)) :
    ∀ s ∈ selected db' true none, engine.Reopened db db' s := by
  obtain ⟨final, matched, rfl⟩ := run_eq_ok ran
  obtain ⟨suppliers, stores, others⟩ := matchAll_frame matched
  intro s mem
  obtain ⟨row, active, again⟩ := mem_selected.mp mem
  rw [suppliers] at row
  have examined : s ∈ selected db true none := by
    by_contra skipped
    have outside : s.id ∉ (selected db true none).map SupplierProduct.id := by
      intro inside
      obtain ⟨t, tMem, same⟩ := List.mem_map.mp inside
      rw [db.supplierProducts.eq_of_key_eq (mem_selected.mp tMem).1 row same] at tMem
      exact skipped tMem
    refine skipped (mem_selected.mpr ⟨row, active, fun status target found => ?_⟩)
    exact again status target ((others _ outside).trans found)
  have written := matchAll_verdict (selected_nodup db) machine_of_selected matched s examined
  exact ⟨stores, machine_of_selected s examined, written, again _ _ written⟩

/-- After a completed run, a second run by a fresh engine completes with the same
status and target for every mapping exactly when what the first run moved touches no
verdict that is still open. -/
theorem rerun_unchanged_iff {counters : Counters}
    (ran : engine.run db true none = .ok (db', counters)) :
    (∃ db'' counters', engine.run db' true none = .ok (db'', counters') ∧
        ∀ k, db''.verdict k = db'.verdict k) ↔
      ∀ s ∈ selected db' true none, engine.Stays db db' s := by
  have second : (∃ db'' counters', engine.run db' true none = .ok (db'', counters') ∧
        ∀ k, db''.verdict k = db'.verdict k) ↔
      ∃ final, engine.matchAll (selected db' true none) (engine.start db') = .ok final ∧
        ∀ k, final.db.verdict k = (engine.start db').db.verdict k := by
    constructor
    · intro found
      obtain ⟨db'', counters', again, unchanged⟩ := found
      obtain ⟨final, matched, rfl⟩ := run_eq_ok again
      exact ⟨final, matched, unchanged⟩
    · intro found
      obtain ⟨final, matched, unchanged⟩ := found
      exact ⟨final.db, final.counters, by rw [MatchingEngine.run, matched], unchanged⟩
  rw [second, rerun_iff (selected_nodup db') machine_of_selected]
  exact forall₂_congr fun s mem => (reopened_of_selected ran s mem).stays_iff.symm

end MatchingEngine

/-- What a completed run leaves. -/
theorem run_afterRun {engine : MatchingEngine} {db : Db} {limit : Option ℕ}
    (completes : (engine.run db true limit).isOk = true) :
    ∃ counters, engine.run db true limit = .ok (afterRun engine db limit, counters) := by
  unfold afterRun
  cases ran : engine.run db true limit with
  | error e =>
      rw [ran] at completes
      cases completes
  | ok out => exact ⟨out.2, rfl⟩

/-- Two equal store products for one supplier product, and one for another: the first product
waits for review, and a second run leaves it waiting. -/
theorem rerun_keeps_pending :
    let db := sampleDb ["Cyberpunk 2077", "Portal 2"]
      ["Cyberpunk 2077 - Steam Key - GLOBAL", "Cyberpunk 2077 - Steam Key GLOBAL", "Portal 2"]
    let db' := afterRun sampleEngine db none
    db'.verdict 1 = some (.pending, some 1) ∧ db'.verdict 2 = some (.auto, some 3) ∧
      ∃ db'' counters', sampleEngine.run db' true none = .ok (db'', counters') ∧
        ∀ k, db''.verdict k = db'.verdict k := by
  have completes : (sampleEngine.run (sampleDb ["Cyberpunk 2077", "Portal 2"]
      ["Cyberpunk 2077 - Steam Key - GLOBAL", "Cyberpunk 2077 - Steam Key GLOBAL", "Portal 2"])
        true none).isOk = true := by decide +kernel
  obtain ⟨counters, ran⟩ := run_afterRun completes
  exact ⟨by decide +kernel, by decide +kernel,
    (MatchingEngine.rerun_unchanged_iff ran).mpr (by decide +kernel)⟩

/-- Two supplier products for two equal store products: the first one waits for
review, the second one takes the rival, and on the second run the first one is
accepted without the review. -/
theorem rerun_accepts_pending :
    let db := sampleDb ["Cyberpunk 2077", "Cyberpunk 2077"]
      ["Cyberpunk 2077 - Steam Key - GLOBAL", "Cyberpunk 2077 - Steam Key GLOBAL"]
    let db' := afterRun sampleEngine db none
    let db'' := afterRun sampleEngine db' none
    (sampleEngine.run db true none).isOk = true ∧ (sampleEngine.run db' true none).isOk = true ∧
      db'.verdict 1 = some (.pending, some 1) ∧ db''.verdict 1 = some (.auto, some 1) := by
  decide +kernel

end FazerBridge
