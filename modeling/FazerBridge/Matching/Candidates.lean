import FazerBridge.CatalogSync
import FazerBridge.Difflib
import FazerBridge.Matching

/-!
# What `evaluate` decides

The decision of `MatchingEngine.evaluate`, in terms of the products `s` may be
mapped to rather than of the sorted list: the chosen product is the first one no
other beats (`evaluate_best_iff`), and the status depends on its score and on
whether another one comes within 0.02 of it (`evaluate_status_iff`).

`auto_clearWinner` is the near-tie rule for the products the engine looks at.
It does not hold for the whole catalogue (`nearTie_outside_shortlist`): the exact
bucket hides the products outside it, and a product waiting in the review queue
is hidden as if it were mapped.
-/

namespace FazerBridge

/-! ## The products a supplier product may be mapped to -/

theorem mem_recordFound {found rows : List StoreProduct} {p : StoreProduct}
    (mem : p ∈ recordFound found rows) : p ∈ found ∨ p ∈ rows := by
  induction rows generalizing found with
  | nil => exact Or.inl mem
  | cons row rows ih =>
      rw [recordFound, List.foldl_cons] at mem
      rcases ih mem with earlier | later
      · split at earlier
        · obtain ⟨r, hr, rfl⟩ := List.mem_map.mp earlier
          by_cases same : r.id = row.id
          · rw [if_pos same]
            exact Or.inr (by simp)
          · rw [if_neg same]
            exact Or.inl hr
        · rcases List.mem_append.mp earlier with old | new
          · exact Or.inl old
          · exact Or.inr (by simp [List.mem_singleton.mp new])
      · exact Or.inr (List.mem_cons_of_mem _ later)

namespace MatchingEngine

variable {engine : MatchingEngine} {db : Db} {claimed : List ℕ} {s : SupplierProduct}
  {p : StoreProduct} {c : Candidate}

theorem mem_anchoredProducts {rows found : List StoreProduct} {anchors : List Text}
    (mem : p ∈ anchoredProducts rows anchors found) : p ∈ found ∨ p ∈ rows := by
  induction anchors generalizing found with
  | nil => exact Or.inl mem
  | cons anchor anchors ih =>
      have recorded : p ∈ recordFound found
          ((rows.filter fun p => sqlLike ('%' :: anchor ++ ['%']) p.nameNormalized).take 400) →
          p ∈ found ∨ p ∈ rows := fun h =>
        (mem_recordFound h).imp_right fun hit => (List.mem_filter.mp (List.mem_of_mem_take hit)).1
      simp only [anchoredProducts] at mem
      split at mem
      · exact recorded mem
      · exact (ih mem).elim recorded Or.inr

/-- The shortlist is taken from this store's catalogue. -/
theorem mem_shortlist {parts : TitleParts} (mem : p ∈ engine.shortlist db parts) :
    p ∈ db.storeProducts.rows ∧ p.storeCode = engine.storeCode := by
  have inStore : p ∈ db.storeProducts.rows.filter (fun p => p.storeCode = engine.storeCode) := by
    simp only [shortlist] at mem
    split at mem
    · simpa using mem_anchoredProducts mem
    · exact List.mem_of_mem_filter mem
  simpa using inStore

theorem isVisible_iff : db.isVisible claimed s p = true ↔
    p.id ∉ db.rejectedPairs s.id ∧
      (p.id ∉ claimed ∨ (db.existingMapping s.id).bind ProductMapping.storeProductId = some p.id) := by
  simp [Db.isVisible]

theorem mem_eligible : p ∈ engine.eligible db claimed s ↔
    p ∈ engine.shortlist db (engine.supplierParts s) ∧ db.isVisible claimed s p = true ∧
      0 < (engine.scoreOf s p).1 := by
  simp [eligible]

/-- The candidates of `s`, in the order of the shortlist. -/
def scored (engine : MatchingEngine) (db : Db) (claimed : List ℕ) (s : SupplierProduct) :
    List Candidate :=
  (engine.eligible db claimed s).map (engine.candidateOf s)

theorem mem_scored : c ∈ engine.scored db claimed s ↔
    ∃ p ∈ engine.eligible db claimed s, engine.candidateOf s p = c :=
  List.mem_map

/-! ## The decision -/

/-- Another candidate comes within 0.02 of the top one `c`. -/
def NearTie (engine : MatchingEngine) (candidates : List Candidate) (c : Candidate) : Prop :=
  1 < engine.settings.matchMaxCandidates ∧
    Ranking.HasRival Candidate.score candidates c (c.score - 2 / 100)

/-- The status the top candidate `c` of `candidates` earns. -/
def Earned (engine : MatchingEngine) (candidates : List Candidate) (c : Candidate) :
    MappingStatus → Prop
  | .unmatched => c.score < engine.settings.matchReviewScore
  | .pending => engine.settings.matchReviewScore ≤ c.score ∧
      (engine.settings.matchAutoAcceptScore ≤ c.score → engine.NearTie candidates c)
  | .auto => engine.settings.matchReviewScore ≤ c.score ∧
      engine.settings.matchAutoAcceptScore ≤ c.score ∧ ¬ engine.NearTie candidates c
  | .approved | .rejected => False

theorem findCandidates_eq : engine.findCandidates db claimed s =
    (Ranking.rank Candidate.score (engine.scored db claimed s)).take
      engine.settings.matchMaxCandidates := rfl

/-- The best candidate is the top one, unless no candidate is kept at all. -/
theorem evaluate_best_iff : (engine.evaluate db claimed s).best = some c ↔
    0 < engine.settings.matchMaxCandidates ∧
      Ranking.IsTop Candidate.score (engine.scored db claimed s) c := by
  change (engine.findCandidates db claimed s).head? = some c ↔ _
  rw [findCandidates_eq, ← Ranking.head?_rank_iff]
  rcases Nat.eq_zero_or_pos engine.settings.matchMaxCandidates with zero | positive
  · simp [zero]
  · rw [Ranking.head?_take_rank positive]
    simp [positive]

theorem evaluate_best_eq_none_iff : (engine.evaluate db claimed s).best = none ↔
    engine.settings.matchMaxCandidates = 0 ∨ engine.eligible db claimed s = [] := by
  change (engine.findCandidates db claimed s).head? = none ↔ _
  rw [findCandidates_eq, List.head?_eq_none_iff, List.take_eq_nil_iff]
  have empty : Ranking.rank Candidate.score (engine.scored db claimed s) = [] ↔
      engine.eligible db claimed s = [] := by
    rw [← List.length_eq_zero_iff, (Ranking.rank_perm _ _).length_eq, scored, List.length_map,
      List.length_eq_zero_iff]
  rw [empty]

/-- The best candidate comes from a product the engine looked at. -/
theorem evaluate_best_eligible (best : (engine.evaluate db claimed s).best = some c) :
    ∃ p ∈ engine.eligible db claimed s, engine.candidateOf s p = c :=
  mem_scored.mp (evaluate_best_iff.mp best).2.mem

/-- The runner-up of the kept candidates decides whether there is a near tie. -/
theorem nearTie_iff (best : (engine.evaluate db claimed s).best = some c) :
    engine.NearTie (engine.scored db claimed s) c ↔
      ∃ second, (engine.findCandidates db claimed s)[1]? = some second ∧
        c.score - 2 / 100 ≤ second.score := by
  obtain ⟨-, top⟩ := evaluate_best_iff.mp best
  rw [NearTie, Ranking.second_rank_iff top, findCandidates_eq, List.getElem?_take]
  by_cases two : 1 < engine.settings.matchMaxCandidates <;> simp [two]

theorem evaluate_status_none (nothing : (engine.evaluate db claimed s).best = none) :
    (engine.evaluate db claimed s).status = .unmatched := by
  have empty : engine.findCandidates db claimed s = [] := List.head?_eq_none_iff.mp nothing
  change engine.decideStatus (engine.findCandidates db claimed s) = _
  rw [empty]
  rfl

/-- The status of the outcome is the one its best candidate earned. -/
theorem evaluate_status_iff (best : (engine.evaluate db claimed s).best = some c)
    (status : MappingStatus) :
    (engine.evaluate db claimed s).status = status ↔
      engine.Earned (engine.scored db claimed s) c status := by
  have tie := nearTie_iff best
  obtain ⟨others, found⟩ : ∃ others, engine.findCandidates db claimed s = c :: others :=
    List.head?_eq_some_iff.mp best
  change engine.decideStatus (engine.findCandidates db claimed s) = status ↔ _
  rw [found] at tie ⊢
  rw [List.getElem?_cons_succ] at tie
  cases others with
  | nil =>
      have clear : ¬ engine.NearTie (engine.scored db claimed s) c := by simp [tie]
      cases status <;> simp only [decideStatus, Earned] <;> grind
  | cons second others =>
      have rival : engine.NearTie (engine.scored db claimed s) c ↔
          c.score - 2 / 100 ≤ second.score := by simp [tie]
      cases status <;> simp only [decideStatus, Earned, rival] <;> grind

/-! ## The near-tie rule -/

/-- A mapping of another supplier product, with one of `statuses`, holds `p`. -/
def HeldByOther (engine : MatchingEngine) (db : Db) (statuses : List MappingStatus)
    (s : SupplierProduct) (p : StoreProduct) : Prop :=
  ∃ m ∈ db.mappings.rows, m.storeCode = engine.storeCode ∧ m.supplierProductId ≠ s.id ∧
    m.storeProductId = some p.id ∧ m.status ∈ statuses

/-- No other product of the store that passes the gates, is not rejected for `s`
and is not mapped to another supplier product comes within 0.02 of the best. -/
def ClearWinner (engine : MatchingEngine) (db : Db) (claimed : List ℕ) (s : SupplierProduct) :
    Prop :=
  ∀ best ∈ (engine.evaluate db claimed s).best, ∀ p ∈ db.storeProducts.rows,
    p.storeCode = engine.storeCode → p.id ≠ best.storeProductId →
    p.id ∉ db.rejectedPairs s.id → ¬ engine.HeldByOther db [.auto, .approved] s p →
    0 < (engine.scoreOf s p).1 → (engine.scoreOf s p).1 < best.score - 2 / 100

instance (statuses : List MappingStatus) (p : StoreProduct) :
    Decidable (engine.HeldByOther db statuses s p) :=
  inferInstanceAs (Decidable (∃ m ∈ db.mappings.rows, _))

instance : Decidable (engine.ClearWinner db claimed s) :=
  inferInstanceAs (Decidable (∀ best ∈ (engine.evaluate db claimed s).best,
    ∀ p ∈ db.storeProducts.rows, _))

/-- A product no other mapping claims is visible to a fresh engine. -/
theorem not_claimed_of_not_held (free : ¬ engine.HeldByOther db claimingStatuses s p) :
    p.id ∉ engine.claimedStoreProducts db ∨
      (db.existingMapping s.id).bind ProductMapping.storeProductId = some p.id := by
  by_contra hidden
  obtain ⟨claims, other⟩ := not_or.mp hidden
  rw [not_not, claimedStoreProducts, List.mem_filterMap] at claims
  obtain ⟨m, mem, target⟩ := claims
  simp only [List.mem_filter, decide_eq_true_eq] at mem
  refine free ⟨m, mem.1, mem.2.1, fun own => other ?_, target, mem.2.2⟩
  have found : db.existingMapping s.id = some m := by
    cases lookup : db.existingMapping s.id with
    | none => simpa [own] using List.find?_eq_none.mp lookup m mem.1
    | some n =>
        have same : n.supplierProductId = s.id := by simpa using List.find?_some lookup
        rw [db.mappings.eq_of_supplier (List.mem_of_find?_eq_some lookup) mem.1
          (same.trans own.symm)]
  rw [found]
  exact target

/-- An eligible product other than the best one sits at another place of the
candidate list. -/
theorem hasRival_of_eligible {t : ℚ}
    (top : Ranking.IsTop Candidate.score (engine.scored db claimed s) c)
    (eligible : p ∈ engine.eligible db claimed s) (other : p.id ≠ c.storeProductId)
    (close : t ≤ (engine.scoreOf s p).1) :
    Ranking.HasRival Candidate.score (engine.scored db claimed s) c t := by
  obtain ⟨before, after, split, earlier, later⟩ := top
  refine ⟨before, after, split, earlier, later, engine.candidateOf s p, ?_, close⟩
  have mem : engine.candidateOf s p ∈ before ++ c :: after := by
    rw [← split]
    exact mem_scored.mpr ⟨p, eligible, rfl⟩
  have ne : engine.candidateOf s p ≠ c := fun same => other (congrArg Candidate.storeProductId same)
  simpa [ne] using mem

/-- `AUTO` is given only when no other product the engine looked at comes within
0.02 of the chosen one. -/
theorem auto_clearWinner (two : 2 ≤ engine.settings.matchMaxCandidates)
    (auto : (engine.evaluate db claimed s).status = .auto) :
    ∃ best, (engine.evaluate db claimed s).best = some best ∧
      ∀ p ∈ engine.shortlist db (engine.supplierParts s), p.id ≠ best.storeProductId →
        p.id ∉ db.rejectedPairs s.id →
        (p.id ∉ claimed ∨
          (db.existingMapping s.id).bind ProductMapping.storeProductId = some p.id) →
        0 < (engine.scoreOf s p).1 → (engine.scoreOf s p).1 < best.score - 2 / 100 := by
  cases found : (engine.evaluate db claimed s).best with
  | none => rw [evaluate_status_none found] at auto; cases auto
  | some best =>
      refine ⟨best, rfl, fun p listed other notRejected unclaimed passes => ?_⟩
      obtain ⟨-, -, clear⟩ := (evaluate_status_iff found .auto).mp auto
      by_contra close
      have eligible : p ∈ engine.eligible db claimed s :=
        mem_eligible.mpr ⟨listed, isVisible_iff.mpr ⟨notRejected, unclaimed⟩, passes⟩
      exact clear ⟨two, hasRival_of_eligible (evaluate_best_iff.mp found).2 eligible other
        (not_lt.mp close)⟩

end MatchingEngine

/-! ## A sample catalogue -/

/-- The engine as deployed, on titles in ASCII. -/
def sampleEngine : MatchingEngine where
  settings := Settings.default
  storeCode := "g2a"
  unicode := Unicode.ascii
  ratio := Difflib.ratio
  enumerate := id

def emptyDb : Db where
  suppliers := []
  supplierProducts := Table.empty _
  storeProducts := StoreProducts.empty
  mappings := ProductMappings.empty
  offers := Table.empty _
  priceChangeLog := []
  fxRates := []
  syncRuns := []

def sampleItem (i : ℕ) (title : String) : SupplierItem where
  kind := .gameKey
  categoryExtId := "games"
  offerExtId := toString i
  name := title.toList
  price := 10
  stock := 5

/-- The database after one pull of both catalogues. -/
def sampleDb (supplierTitles storeTitles : List String) : Db :=
  let items := supplierTitles.mapIdx sampleItem
  let products := storeTitles.mapIdx fun i title =>
    { productExtId := toString i, name := title.toList : StoreCatalogItem }
  let supplierSync : SupplierCatalogSync :=
    ⟨Settings.default, Unicode.ascii, "fazercards", fun item => String.ofList item.name⟩
  let db := (supplierSync.run emptyDb 0 items).1
  match StoreCatalogSync.run ⟨Unicode.ascii, "g2a"⟩ db 0 products with
  | .ok (db, _) => db
  | .error _ => db

/-- A result known to be one, by the value it evaluates to. -/
theorem eq_ok_getD {ε α : Type} {r : Except ε α} {a : α} (ok : r.isOk = true) :
    r = .ok (r.toOption.getD a) := by
  cases r with
  | ok b => rfl
  | error e => cases ok

/-- The database a run leaves; an aborted run leaves the one it started from. -/
def afterRun (engine : MatchingEngine) (db : Db) (limit : Option ℕ) : Db :=
  match engine.run db true limit with
  | .ok (db, _) => db
  | .error _ => db

/-- Two editions of a game far enough apart to take the first one at once. -/
theorem auto_clearWinner_sample :
    let db := sampleDb ["Cyberpunk 2077"]
      ["Cyberpunk 2077 - Steam Key - GLOBAL", "Cyberpunk 2077 Phantom Liberty"]
    let s := { SupplierCatalogSync.newRow 1 1 (sampleItem 0 "Cyberpunk 2077") with
      name := "Cyberpunk 2077".toList }
    ∃ best, (sampleEngine.evaluate db [] s).best = some best ∧
      ∀ p ∈ sampleEngine.shortlist db (sampleEngine.supplierParts s),
        p.id ≠ best.storeProductId → p.id ∉ db.rejectedPairs s.id →
        (p.id ∉ ([] : List ℕ) ∨
          (db.existingMapping s.id).bind ProductMapping.storeProductId = some p.id) →
        0 < (sampleEngine.scoreOf s p).1 →
        (sampleEngine.scoreOf s p).1 < best.score - 2 / 100 :=
  MatchingEngine.auto_clearWinner (by decide) (by decide +kernel)

/-- The sole product of the exact bucket is taken at once although a product
outside the bucket scores the same; and the second product of a bucket is taken
at once while the first one waits for review under another supplier product. -/
theorem auto_nearTie_unseen :
    (let db := sampleDb ["Cyberpunk 2077"] ["Cyberpunk 2077", "Cyberpunk 2077 - GLOBAL"]
      ∃ s ∈ db.supplierProducts.rows,
        (sampleEngine.evaluate db (sampleEngine.claimedStoreProducts db) s).status = .auto ∧
          ¬ sampleEngine.ClearWinner db (sampleEngine.claimedStoreProducts db) s) ∧
    (let db := afterRun sampleEngine (sampleDb ["Cyberpunk 2077", "Cyberpunk 2077"]
        ["Cyberpunk 2077 - Steam Key - GLOBAL", "Cyberpunk 2077 - Steam Key GLOBAL"]) (some 1)
      ∃ s ∈ db.supplierProducts.rows,
        (sampleEngine.evaluate db (sampleEngine.claimedStoreProducts db) s).status = .auto ∧
          ¬ sampleEngine.ClearWinner db (sampleEngine.claimedStoreProducts db) s) := by
  decide +kernel

end FazerBridge
