import FazerBridge.Matching.Gates
import FazerBridge.Matching.Rejections
import FazerBridge.Matching.Shortlist

/-!
# What the candidates are

A gated pair scores 0 and every other one between 0.075 and 1 (`score_bounds`).
The candidates of a fresh engine are the best of the shortlisted products that
may be offered, best first (`findCandidates_chosen`).  The claims are read by
store: a mapping of another store does not hide the product it points to.
-/

namespace FazerBridge

/-! ## Scores -/

/-- Two texts that do not mismatch match, or one of them is missing. -/
theorem match_or_unstated {left right : Option Text} (agree : statedMismatch left right = false) :
    statedMatch left right = true ∨ unstated left right = true := by
  revert agree
  unfold statedMismatch statedMatch unstated
  cases truthy left with
  | none => exact fun _ => .inr rfl
  | some l =>
      cases truthy right with
      | none => exact fun _ => .inr rfl
      | some r => exact fun agree => .inl (by simpa using agree)

/-- What passes the gates scores at least 0.075: half of the weights of region and platform. -/
theorem score_bounds {ratio : Text → Text → ℚ} (nonneg : ∀ a b, 0 ≤ ratio a b)
    {supplier store : TitleParts} (gates : PassesGates supplier store) :
    75 / 1000 ≤ (scorePair ratio supplier store).1 ∧ (scorePair ratio supplier store).1 ≤ 1 := by
  have tokens := jaccard_nonneg supplier.tokens store.tokens
  have sequence := nonneg supplier.core store.core
  unfold scorePair
  rw [if_neg (by simp [gates.denomination]), if_neg (by simp [gates.region]),
    if_neg (by simp [gates.platform]), if_neg (by simp [gates.edition])]
  dsimp only
  refine ⟨le_min (by norm_num) ?_, min_le_left _ _⟩
  have region : ∀ p q : Prop, [Decidable p] → [Decidable q] →
      (1 / 2 : ℚ) ≤ if p then 1 else if q then 1 / 2 else 6 / 10 := by
    intro p q _ _
    split_ifs <;> norm_num
  have platform : ∀ p q : Prop, [Decidable p] → [Decidable q] → p ∨ q →
      (1 / 2 : ℚ) ≤ if p then 1 else if q then 1 / 2 else 0 := by
    intro p q _ _ either
    split_ifs with first second
    · norm_num
    · exact le_rfl
    · exact absurd either (not_or.mpr ⟨first, second⟩)
  have regionScore := region (statedMatch supplier.region store.region = true)
    (unstated supplier.region store.region = true)
  have platformScore := platform (statedMatch supplier.platform store.platform = true)
    (unstated supplier.platform store.platform = true) (match_or_unstated gates.platform)
  unfold wTokenOverlap wSequence wRegion wPlatform
  linarith

namespace MatchingEngine

variable {engine : MatchingEngine} {db : Db} {s : SupplierProduct} {p : StoreProduct}

/-! ## The products that may be offered -/

/-- `s` may be offered `p`: the gates let them pass, `p` is not rejected for `s`, and another
mapping holds it only if the mapping of `s`, then one of another store, points to it too. -/
structure Offerable (engine : MatchingEngine) (db : Db) (s : SupplierProduct) (p : StoreProduct) :
    Prop where
  gates : engine.Gated s p
  unrejected : ∀ m ∈ db.mappings.rows, m.supplierProductId = s.id → m.status = .rejected →
    m.storeProductId ≠ some p.id
  unheld : engine.HeldByOther db claimingStatuses s p →
    ∃ m ∈ db.mappings.rows, m.supplierProductId = s.id ∧ m.storeCode ≠ engine.storeCode ∧
      m.storeProductId = some p.id

theorem existingMapping_target : (db.existingMapping s.id).bind ProductMapping.storeProductId =
      some p.id ↔
    ∃ m ∈ db.mappings.rows, m.supplierProductId = s.id ∧ m.storeProductId = some p.id := by
  rw [Option.bind_eq_some_iff]
  simp only [Db.existingMapping_eq_some_iff, and_assoc]

/-- A product another mapping of the store holds is not the target of a second one of the store. -/
theorem storeCode_ne_of_held {m : ProductMapping} (mem : m ∈ db.mappings.rows)
    (own : m.supplierProductId = s.id) (target : m.storeProductId = some p.id)
    (held : engine.HeldByOther db claimingStatuses s p) : m.storeCode ≠ engine.storeCode := by
  obtain ⟨n, there, code, other, target', -⟩ := held
  intro same
  have both := db.mappings.eq_of_sameTarget mem there
    ⟨same.trans code.symm, target.trans target'.symm, by simp [target]⟩
  exact other (both ▸ own)

theorem isVisible_claimed_iff : db.isVisible (engine.claimedStoreProducts db) s p = true ↔
    (∀ m ∈ db.mappings.rows, m.supplierProductId = s.id → m.status = .rejected →
      m.storeProductId ≠ some p.id) ∧
    (engine.HeldByOther db claimingStatuses s p →
      ∃ m ∈ db.mappings.rows, m.supplierProductId = s.id ∧ m.storeCode ≠ engine.storeCode ∧
        m.storeProductId = some p.id) := by
  rw [isVisible_iff, Db.mem_rejectedPairs]
  refine and_congr ?_ ?_
  · constructor
    · exact fun none m mem own rejected target => none ⟨m, mem, own, rejected, target⟩
    · rintro none ⟨m, mem, own, rejected, target⟩
      exact none m mem own rejected target
  · constructor
    · rintro (free | own) held
      · obtain ⟨n, there, code, -, target, claiming⟩ := held
        refine absurd (List.mem_filterMap.mpr ⟨n, List.mem_filter.mpr ⟨there, ?_⟩, target⟩) free
        exact decide_eq_true ⟨code, claiming⟩
      · obtain ⟨m, mem, own, target⟩ := existingMapping_target.mp own
        exact ⟨m, mem, own, storeCode_ne_of_held mem own target held, target⟩
    · intro unheld
      by_cases held : engine.HeldByOther db claimingStatuses s p
      · obtain ⟨m, mem, own, -, target⟩ := unheld held
        exact .inr (existingMapping_target.mpr ⟨m, mem, own, target⟩)
      · exact not_claimed_of_not_held held

/-- A fresh engine looks at the products that may be offered. -/
theorem mem_eligible_claimed_iff (nonneg : ∀ a b, 0 ≤ engine.ratio a b) :
    p ∈ engine.eligible db (engine.claimedStoreProducts db) s ↔
      p ∈ engine.shortlist db (engine.supplierParts s) ∧ engine.Offerable db s p := by
  rw [mem_eligible, isVisible_claimed_iff]
  refine and_congr_right fun _ => ?_
  constructor
  · intro found
    obtain ⟨⟨unrejected, unheld⟩, scored⟩ := found
    exact ⟨gates_of_scored scored, unrejected, unheld⟩
  · intro offerable
    exact ⟨⟨offerable.unrejected, offerable.unheld⟩, scored_of_gates nonneg offerable.gates⟩

/-- `found` are the best of the shortlisted products that may be offered to `s`. -/
structure Chosen (engine : MatchingEngine) (db : Db) (s : SupplierProduct)
    (found : List Candidate) : Prop where
  distinct : (found.map Candidate.storeProductId).Nodup
  descending : found.Pairwise fun a b => b.score ≤ a.score
  offerable : ∀ c ∈ found, ∃ p ∈ engine.shortlist db (engine.supplierParts s),
    engine.candidateOf s p = c ∧ engine.Offerable db s p
  best : ∀ p ∈ engine.shortlist db (engine.supplierParts s), engine.Offerable db s p →
    engine.candidateOf s p ∉ found → ∀ c ∈ found, (engine.scoreOf s p).1 ≤ c.score

theorem nodup_scored (claimed : List ℕ) :
    ((engine.scored db claimed s).map Candidate.storeProductId).Nodup := by
  have ids : (engine.scored db claimed s).map Candidate.storeProductId =
      (engine.eligible db claimed s).map StoreProduct.id := by
    rw [scored, List.map_map]
    rfl
  rw [ids]
  refine List.Nodup.map_on (fun p isP q isQ same => ?_) (nodup_shortlist.filter _)
  exact db.storeProducts.table.eq_of_key_eq (mem_shortlist (mem_eligible.mp isP).1).1
    (mem_shortlist (mem_eligible.mp isQ).1).1 same

theorem findCandidates_chosen (nonneg : ∀ a b, 0 ≤ engine.ratio a b) :
    engine.Chosen db s (engine.findCandidates db (engine.claimedStoreProducts db) s) := by
  rw [findCandidates_eq]
  refine ⟨?_, (Ranking.rank_pairwise _ _).sublist (List.take_sublist _ _), fun c kept => ?_,
    fun p listed offerable left c kept => ?_⟩
  · refine List.Nodup.sublist ((List.take_sublist _ _).map _) ?_
    exact ((Ranking.rank_perm _ _).map _).nodup_iff.mpr (nodup_scored _)
  · obtain ⟨p, eligible, same⟩ := mem_scored.mp (Ranking.mem_rank.mp (List.mem_of_mem_take kept))
    obtain ⟨listed, offerable⟩ := (mem_eligible_claimed_iff nonneg).mp eligible
    exact ⟨p, listed, same, offerable⟩
  · have eligible := (mem_eligible_claimed_iff nonneg).mpr ⟨listed, offerable⟩
    exact Ranking.score_le_of_not_mem_take (mem_scored.mpr ⟨p, eligible, rfl⟩) left kept

/-- A score is 0 exactly for conflicting titles, else from 0.075 to 1; and the candidates are the
best of the shortlisted products that may be offered. -/
theorem scores_and_candidates (unit : ∀ a b, 0 ≤ engine.ratio a b ∧ engine.ratio a b ≤ 1) :
    (∀ supplier store : TitleParts,
      ((scorePair engine.ratio supplier store).1 = 0 ↔ ¬ PassesGates supplier store) ∧
        (PassesGates supplier store → 75 / 1000 ≤ (scorePair engine.ratio supplier store).1 ∧
          (scorePair engine.ratio supplier store).1 ≤ 1)) ∧
      ∀ db s, engine.Chosen db s
        (engine.findCandidates db (engine.claimedStoreProducts db) s) :=
  have nonneg := fun a b => (unit a b).1
  ⟨fun _ _ => ⟨score_eq_zero_iff nonneg, score_bounds nonneg⟩,
    fun _ _ => findCandidates_chosen nonneg⟩

end MatchingEngine

namespace EchoStore

/-- With the standard library's ratio. -/
theorem scores_and_candidates_difflib :
    (∀ supplier store : TitleParts,
      ((scorePair sampleEngine.ratio supplier store).1 = 0 ↔ ¬ PassesGates supplier store) ∧
        (PassesGates supplier store → 75 / 1000 ≤ (scorePair sampleEngine.ratio supplier store).1 ∧
          (scorePair sampleEngine.ratio supplier store).1 ≤ 1)) ∧
      ∀ db s, sampleEngine.Chosen db s
        (sampleEngine.findCandidates db (sampleEngine.claimedStoreProducts db) s) :=
  MatchingEngine.scores_and_candidates fun a b =>
    ⟨Difflib.ratio_nonneg a b, Difflib.ratio_le_one a b⟩

/-- The second of two supplier products is mapped to the store product under another store. -/
def heldElsewhere : Db :=
  { db with
    mappings := ⟨⟨[{ mapping 2 with storeCode := "kinguin", storeProductId := some 1 }],
      by decide⟩, by decide, by decide⟩
    storeProducts := ⟨⟨[{ storeProduct 1 none with matchKey := "||".toList }], by decide⟩,
      by decide⟩ }

/-- It is a candidate of the first one all the same. -/
theorem candidate_held_elsewhere : ∃ s ∈ heldElsewhere.supplierProducts.rows,
    ∃ c ∈ sampleEngine.findCandidates heldElsewhere
        (sampleEngine.claimedStoreProducts heldElsewhere) s,
      ∃ m ∈ heldElsewhere.mappings.rows, m.supplierProductId ≠ s.id ∧ m.status = .auto ∧
        m.storeProductId = some c.storeProductId := by
  decide +kernel

end EchoStore

end FazerBridge
