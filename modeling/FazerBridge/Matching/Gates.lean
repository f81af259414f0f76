import FazerBridge.Lib.Runs
import FazerBridge.Matching.Rerun
import FazerBridge.OfferSync.Addressing

/-!
# The gates of a mapping

A pair that a hard gate refuses scores 0 (`gates_of_scored`), so what the engine maps
by itself is past the gates on the rows it read.  It does not look at an AUTO row
again, and both catalogue pulls may rewrite the titles of its products later: the
pairs the engine joined are kept here as they stood then (`Catalogues.joined`), and
an AUTO mapping is past the gates on that record of its products.
-/

namespace FazerBridge

/-! ## The hard gates -/

/-- No two stated face values, regions (other than GLOBAL), platforms or editions
differ. -/
structure PassesGates (supplier store : TitleParts) : Prop where
  denomination : denominationsConflict supplier.denomination store.denomination = false
  region : regionMismatch supplier.region store.region = false
  platform : statedMismatch supplier.platform store.platform = false
  edition : statedMismatch supplier.edition store.edition = false

instance (supplier store : TitleParts) : Decidable (PassesGates supplier store) :=
  decidable_of_iff
    (denominationsConflict supplier.denomination store.denomination = false ∧
      regionMismatch supplier.region store.region = false ∧
      statedMismatch supplier.platform store.platform = false ∧
      statedMismatch supplier.edition store.edition = false)
    ⟨fun ⟨denomination, region, platform, edition⟩ => ⟨denomination, region, platform, edition⟩,
      fun gates => ⟨gates.denomination, gates.region, gates.platform, gates.edition⟩⟩

theorem gates_of_scored {ratio : Text → Text → ℚ} {supplier store : TitleParts}
    (scored : 0 < (scorePair ratio supplier store).1) : PassesGates supplier store := by
  unfold scorePair at scored
  split at scored
  · exact absurd scored (lt_irrefl 0)
  rename_i denomination
  split at scored
  · exact absurd scored (lt_irrefl 0)
  rename_i region
  split at scored
  · exact absurd scored (lt_irrefl 0)
  rename_i platform
  split at scored
  · exact absurd scored (lt_irrefl 0)
  rename_i edition
  exact ⟨by simpa using denomination, by simpa using region, by simpa using platform,
    by simpa using edition⟩

theorem jaccard_nonneg (a b : List Text) : 0 ≤ jaccard a b := by
  unfold jaccard
  split
  · exact le_rfl
  · dsimp only
    positivity

/-- A pair that passes the gates scores. -/
theorem scored_of_gates {ratio : Text → Text → ℚ} (nonneg : ∀ a b, 0 ≤ ratio a b)
    {supplier store : TitleParts} (gates : PassesGates supplier store) :
    0 < (scorePair ratio supplier store).1 := by
  have tokens := jaccard_nonneg supplier.tokens store.tokens
  have sequence := nonneg supplier.core store.core
  unfold scorePair
  rw [if_neg (by simp [gates.denomination]), if_neg (by simp [gates.region]),
    if_neg (by simp [gates.platform]), if_neg (by simp [gates.edition])]
  dsimp only
  refine lt_min one_pos ?_
  unfold wTokenOverlap wSequence wRegion wPlatform
  have region : ∀ p q : Prop, [Decidable p] → [Decidable q] →
      (0 : ℚ) < if p then 1 else if q then 1 / 2 else 6 / 10 := by
    intro p q _ _
    split_ifs <;> norm_num
  have platform : ∀ p q : Prop, [Decidable p] → [Decidable q] →
      (0 : ℚ) ≤ if p then 1 else if q then 1 / 2 else 0 := by
    intro p q _ _
    split_ifs <;> norm_num
  have regionScore := region (statedMatch supplier.region store.region = true)
    (unstated supplier.region store.region = true)
  have platformScore := platform (statedMatch supplier.platform store.platform = true)
    (unstated supplier.platform store.platform = true)
  positivity

/-- A score of 0 is a gate's. -/
theorem score_eq_zero_iff {ratio : Text → Text → ℚ} (nonneg : ∀ a b, 0 ≤ ratio a b)
    {supplier store : TitleParts} :
    (scorePair ratio supplier store).1 = 0 ↔ ¬ PassesGates supplier store := by
  refine ⟨fun zero gates => (scored_of_gates nonneg gates).ne' zero, fun gated => ?_⟩
  unfold scorePair
  split
  · rfl
  rename_i denomination
  split
  · rfl
  rename_i region
  split
  · rfl
  rename_i platform
  split
  · rfl
  rename_i edition
  exact absurd ⟨by simpa using denomination, by simpa using region, by simpa using platform,
    by simpa using edition⟩ gated

/-! ## What the engine joins -/

namespace MatchingEngine

variable {engine : MatchingEngine} {db : Db} {claimed : List ℕ} {s : SupplierProduct}
  {progress progress' final : Progress}

/-- The gates let the two rows pass, as they stand. -/
def Gated (engine : MatchingEngine) (s : SupplierProduct) (p : StoreProduct) : Prop :=
  PassesGates (engine.supplierParts s) (engine.storeParts p)

instance (engine : MatchingEngine) (s : SupplierProduct) (p : StoreProduct) :
    Decidable (engine.Gated s p) := inferInstanceAs (Decidable (PassesGates _ _))

/-- The gates read titles and structured regions and platforms. -/
theorem Gated.congr {s' : SupplierProduct} {p p' : StoreProduct} (gated : engine.Gated s p)
    (supplier : s'.name = s.name ∧ s'.region = s.region ∧ s'.platform = s.platform)
    (store : p'.name = p.name ∧ p'.region = p.region ∧ p'.platform = p.platform) :
    engine.Gated s' p' := by
  obtain ⟨name, region, platform⟩ := supplier
  obtain ⟨name', region', platform'⟩ := store
  unfold Gated supplierParts storeParts
  rw [name, region, platform, name', region', platform']
  exact gated

/-- An outcome that is accepted without review is past the gates. -/
theorem evaluate_auto_gated (auto : (engine.evaluate db claimed s).status = .auto) :
    ∃ p ∈ db.storeProducts.rows, engine.Gated s p ∧
      (engine.evaluate db claimed s).best.map Candidate.storeProductId = some p.id := by
  cases best : (engine.evaluate db claimed s).best with
  | none => cases (evaluate_status_none best).symm.trans auto
  | some c =>
      obtain ⟨p, eligible, rfl⟩ := evaluate_best_eligible best
      obtain ⟨listed, -, scored⟩ := mem_eligible.mp eligible
      exact ⟨p, (mem_shortlist listed).1, gates_of_scored scored, rfl⟩

/-- The AUTO rows of a table that `old` does not have yet join gated rows. -/
def JoinsGated (engine : MatchingEngine) (old db : Db) : Prop :=
  ∀ m ∈ db.mappings.rows, m.status = .auto → m ∉ old.mappings.rows →
    ∃ s ∈ old.supplierProducts.rows, ∃ p ∈ old.storeProducts.rows,
      s.id = m.supplierProductId ∧ m.storeProductId = some p.id ∧ engine.Gated s p

theorem matchOne_joinsGated {old : Db} (mem : s ∈ old.supplierProducts.rows)
    (stores : progress.db.storeProducts = old.storeProducts)
    (matched : engine.matchOne progress s = .ok progress')
    (joins : engine.JoinsGated old progress.db) : engine.JoinsGated old progress'.db := by
  obtain ⟨-, same, -⟩ | ⟨-, ⟨mappings, flushed, same⟩, -⟩ := apply_cases (matchOne_cases matched)
  · rw [same]
    exact joins
  · rw [same]
    intro m row auto fresh
    have rows : mappings.rows = _ := congrArg Table.rows (ProductMappings.flush_eq_ok flushed)
    rw [rows, Table.mem_save] at row
    rcases row with rfl | ⟨kept, -⟩
    · obtain ⟨p, listed, gated, target⟩ := evaluate_auto_gated auto
      rw [stores] at listed
      exact ⟨s, mem, p, listed, targetRow_supplierProductId.symm, target, gated⟩
    · exact joins m kept auto fresh

theorem matchAll_joinsGated {old : Db} {products : List SupplierProduct}
    (listed : ∀ s ∈ products, s ∈ old.supplierProducts.rows)
    (stores : progress.db.storeProducts = old.storeProducts)
    (run : engine.matchAll products progress = .ok final)
    (joins : engine.JoinsGated old progress.db) : engine.JoinsGated old final.db := by
  induction products generalizing progress with
  | nil =>
      cases run
      exact joins
  | cons s rest ih =>
      obtain ⟨progress', matched, run⟩ := matchAll_cons run
      refine ih (fun s mem => listed s (List.mem_cons_of_mem _ mem)) ?_ run
        (matchOne_joinsGated (listed s List.mem_cons_self) stores matched joins)
      exact (matchOne_frame matched).2.1.trans stores

theorem selected_subset {onlyUnmapped : Bool} {count : Option ℕ}
    (mem : s ∈ selected db onlyUnmapped count) : s ∈ db.supplierProducts.rows := by
  unfold selected limited at mem
  split at mem
  · exact List.mem_of_mem_filter (List.mem_of_mem_take mem)
  · exact List.mem_of_mem_filter mem

/-- What a run joins by itself is past the gates. -/
theorem run_joinsGated {db' : Db} {onlyUnmapped : Bool} {count : Option ℕ} {counters : Counters}
    (run : engine.run db onlyUnmapped count = .ok (db', counters)) : engine.JoinsGated db db' := by
  obtain ⟨final, matched, rfl⟩ := run_eq_ok run
  exact matchAll_joinsGated (fun _ => selected_subset) rfl matched
    fun m row _ fresh => absurd row fresh

/-- The pairs of the AUTO rows that `old` does not have yet, as the rows of the two
products stand in `old`. -/
def newlyJoined (old db : Db) : List (SupplierProduct × StoreProduct) :=
  db.mappings.rows.filterMap fun m =>
    if m.status = .auto ∧ m ∉ old.mappings.rows then do
      let s ← old.supplierProducts.find? m.supplierProductId
      let p ← m.storeProductId.bind old.storeProducts.find?
      some (s, p)
    else none

theorem JoinsGated.newlyJoined {old : Db} (joins : engine.JoinsGated old db) {m : ProductMapping}
    (row : m ∈ db.mappings.rows) (auto : m.status = .auto) (fresh : m ∉ old.mappings.rows) :
    ∃ pair ∈ newlyJoined old db, pair.1.id = m.supplierProductId ∧
      m.storeProductId = some pair.2.id ∧ engine.Gated pair.1 pair.2 := by
  obtain ⟨s, sRow, p, pRow, supplier, store, gated⟩ := joins m row auto fresh
  refine ⟨(s, p), List.mem_filterMap.mpr ⟨m, row, ?_⟩, supplier, store, gated⟩
  have found := old.supplierProducts.find?_key sRow
  have found' := old.storeProducts.table.find?_key pRow
  rw [if_pos ⟨auto, fresh⟩, ← supplier, found, store]
  change (old.storeProducts.table.find? p.id).bind (fun p => some (s, p)) = some (s, p)
  rw [found']
  rfl

end MatchingEngine

/-! ## Runs of pulls, matches and pushes -/

/-- A bridge, and the pairs the engine joined by itself so far, with the rows of the
two products as the run read them. -/
structure Catalogues (W : Type) extends Bridge W where
  joined : List (SupplierProduct × StoreProduct)

inductive CatalogueAction
  | pullSupplier (now : Time) (items : List SupplierItem)
  | pullStore (now : Time) (items : List StoreCatalogItem)
  | matchProducts (count : Option ℕ)
  | syncOffers (count : Option ℕ) (dryRun : Bool)
  /-- no session, or one that is rolled back: the world moves -/
  | elapse

namespace OfferSync

variable {W : Type} {sync : OfferSync W}

/-- The session sees the mappings and catalogues of `db`. -/
def SameCatalogues (db : Db) (t : Session W) : Prop :=
  t.db.mappings = db.mappings ∧ t.db.supplierProducts = db.supplierProducts ∧
    t.db.storeProducts = db.storeProducts

theorem keepsItems_catalogues (db : Db) (dryRun : Bool) (now : Time) :
    sync.KeepsItems dryRun now (fun _ => True) (SameCatalogues db) (fun _ => True) where
  quiet quiet same := ⟨quiet.mappings.trans same.1, quiet.supplierProducts.trans same.2.1,
    quiet.storeProducts.trans same.2.2⟩
  quietEnd _ _ := trivial
  ends _ := trivial
  opened _ same _ := same
  synced _ same _ _ := same
  raised _ _ _ _ := trivial

/-- An offer sync leaves mappings and catalogues as they are. -/
theorem session_catalogues (sync : OfferSync W) (count : Option ℕ) (dryRun : Bool) (db : Db)
    (world : W) (trace : List Entry) {left : Left W Stats}
    (ended : left = sync.sessionScope (sync.run count dryRun) db world trace) :
    left.db.mappings = db.mappings ∧ left.db.supplierProducts = db.supplierProducts ∧
      left.db.storeProducts = db.storeProducts := by
  have keeps : sync.KeepsItems dryRun (sync.now world) (fun _ => True) (SameCatalogues db)
      (fun _ => True) := keepsItems_catalogues db dryRun (sync.now world)
  rcases keeps.toKeeps.sessionScope (fun run => keeps.run (fun _ _ => trivial) run ⟨rfl, rfl, rfl⟩)
    ended with ⟨_, _, -, same⟩ | ⟨_, _, _, -, same, -⟩
  · exact same
  · rw [same]
    exact ⟨rfl, rfl, rfl⟩

end OfferSync

namespace Service

variable {W : Type} (service : Service W) (storeCatalog : StoreCatalogSync)

/-- One of the jobs that run without a reviewer. -/
inductive CatalogueStep (state : Catalogues W) : CatalogueAction → Catalogues W → Prop
  | pullSupplier {now items} : CatalogueStep state (.pullSupplier now items)
      { state with db := (service.supplierCatalog.run state.db now items).1 }
  | pullStore {now items} : CatalogueStep state (.pullStore now items)
      { state with toBridge :=
          state.toBridge.committed (storeCatalog.run state.db now items) Prod.fst }
  | matchProducts {count db counters}
      (run : service.engine.run state.db true count = .ok (db, counters)) :
      CatalogueStep state (.matchProducts count)
        { state with
          db := db
          joined := state.joined ++ MatchingEngine.newlyJoined state.db db }
  | syncOffers {count dryRun} : CatalogueStep state (.syncOffers count dryRun)
      { state with toBridge := .left (service.syncSession state.toBridge count dryRun) }
  | elapse {w} : CatalogueStep state .elapse { state with world := w }

variable {service} {storeCatalog} {state state' : Catalogues W}

/-- Every AUTO mapping was joined on rows that pass the gates. -/
def JoinedGated (service : Service W) (state : Catalogues W) : Prop :=
  ∀ m ∈ state.db.mappings.rows, m.status = .auto → ∃ pair ∈ state.joined,
    pair.1.id = m.supplierProductId ∧ m.storeProductId = some pair.2.id ∧
      service.engine.Gated pair.1 pair.2

theorem JoinedGated.step (state : Catalogues W) (action : CatalogueAction) (state' : Catalogues W)
    (joined : service.JoinedGated state) (_ : True)
    (step : service.CatalogueStep storeCatalog state action state') : service.JoinedGated state' := by
  cases step with
  | pullSupplier => exact joined
  | @pullStore now items =>
      unfold JoinedGated
      cases ran : storeCatalog.run state.db now items with
      | error e => exact joined
      | ok out =>
          have same : out.1.mappings = state.db.mappings := by
            unfold StoreCatalogSync.run at ran
            dsimp only at ran
            split at ran <;> cases ran
            rfl
          change ∀ m ∈ out.1.mappings.rows, _
          rw [same]
          exact joined
  | @matchProducts count db counters run =>
      intro m row auto
      by_cases known : m ∈ state.db.mappings.rows
      · obtain ⟨pair, mem, own⟩ := joined m known auto
        exact ⟨pair, List.mem_append_left _ mem, own⟩
      · obtain ⟨pair, mem, own⟩ :=
          (MatchingEngine.run_joinsGated run).newlyJoined row auto known
        exact ⟨pair, List.mem_append_right _ mem, own⟩
  | @syncOffers count dryRun =>
      obtain ⟨same, -⟩ := service.offers.session_catalogues count dryRun state.db state.world
        state.trace rfl
      change ∀ m ∈ (service.syncSession state.toBridge count dryRun).db.mappings.rows, _
      rw [show (service.syncSession state.toBridge count dryRun).db.mappings = _ from same]
      exact joined
  | elapse => exact joined

/-- Every AUTO mapping an offer sync selects joins two products that passed the gates
as they stood when the engine joined them, and so passes them as long as no pull has
changed a title, region or platform of the two since. -/
theorem auto_passed_gates {start : Catalogues W}
    (unmapped : ∀ m ∈ start.db.mappings.rows, m.status ≠ .auto)
    (run : Relation.ReflTransGen
      (Runs.Allowed (service.CatalogueStep storeCatalog) fun _ _ => True) start state)
    (count : Option ℕ) : ∀ item ∈ service.offers.syncable state.db count,
    item.mapping.status = .auto → ∃ pair ∈ state.joined,
      pair.1.id = item.supplierProduct.id ∧ pair.2.id = item.storeProduct.id ∧
      service.engine.Gated pair.1 pair.2 ∧
      ((item.supplierProduct.name = pair.1.name ∧ item.supplierProduct.region = pair.1.region ∧
          item.supplierProduct.platform = pair.1.platform) →
        (item.storeProduct.name = pair.2.name ∧ item.storeProduct.region = pair.2.region ∧
          item.storeProduct.platform = pair.2.platform) →
        service.engine.Gated item.supplierProduct item.storeProduct) := by
  intro item mem auto
  have joined : service.JoinedGated state := Runs.invariant JoinedGated.step run
    fun m row auto => absurd auto (unmapped m row)
  obtain ⟨stored, opened⟩ := OfferSync.mem_syncable mem
  obtain ⟨-, supplier, store, -⟩ := OfferSync.itemOf_eq_some opened
  obtain ⟨productId, target, found⟩ := Option.bind_eq_some_iff.mp store
  obtain ⟨pair, recorded, own, own', gated⟩ := joined item.mapping stored auto
  have sameId := (Table.find?_eq_some_iff.mp supplier).2
  have sameId' := (Table.find?_eq_some_iff.mp found).2
  cases own'.symm.trans target
  exact ⟨pair, recorded, own.trans sameId.symm, sameId'.symm, gated, gated.congr⟩

end Service

/-! ## A card that changes its face value -/

namespace EchoStore

def storeCatalog : StoreCatalogSync := ⟨Unicode.ascii, "g2a"⟩

def card (title : String) : StoreCatalogItem := { productExtId := "1", name := title.toList }

/-- Before any job has run. -/
def blank : Catalogues Time := ⟨⟨emptyDb, 0, []⟩, []⟩

/-- The supplier's catalogue, and then the store's, with one card each. -/
def pulled : Catalogues Time :=
  { blank with db := (service.supplierCatalog.run emptyDb 0 [sampleItem 1 "Roblox 100 HKD"]).1 }

def restocked (state : Catalogues Time) (title : String) : Catalogues Time :=
  { state with toBridge :=
      state.toBridge.committed (storeCatalog.run state.db 0 [card title]) Prod.fst }

def matched : Db × MatchingEngine.Counters :=
  (service.engine.run (restocked pulled "Roblox 100 HKD").db true none).toOption.getD
    (emptyDb, ⟨0, 0, 0, 0⟩)

def joinedCards : Catalogues Time :=
  { restocked pulled "Roblox 100 HKD" with
    db := matched.1
    joined := (restocked pulled "Roblox 100 HKD").joined ++
      MatchingEngine.newlyJoined (restocked pulled "Roblox 100 HKD").db matched.1 }

theorem matches_ : service.engine.run (restocked pulled "Roblox 100 HKD").db true none = .ok matched :=
  eq_ok_getD (by decide +kernel)

theorem pulled_step : service.CatalogueStep storeCatalog blank
    (.pullSupplier 0 [sampleItem 1 "Roblox 100 HKD"]) pulled := .pullSupplier

theorem restocked_step (state : Catalogues Time) (title : String) :
    service.CatalogueStep storeCatalog state (.pullStore 0 [card title]) (restocked state title) :=
  .pullStore

-- only the kernel is to run the jobs
attribute [irreducible] pulled restocked matched

theorem joinedCards_step : service.CatalogueStep storeCatalog (restocked pulled "Roblox 100 HKD")
    (.matchProducts none) joinedCards := .matchProducts matches_

theorem joinedCards_reached : Relation.ReflTransGen
    (Runs.Allowed (service.CatalogueStep storeCatalog) fun _ _ => True) blank joinedCards :=
  .tail (.tail (.single ⟨_, trivial, pulled_step⟩) ⟨_, trivial, restocked_step pulled _⟩)
    ⟨_, trivial, joinedCards_step⟩

theorem blank_unmapped : ∀ m ∈ blank.db.mappings.rows, m.status ≠ .auto := by
  rintro m ⟨⟩

theorem joinedCards_selected : ∃ item ∈ service.offers.syncable joinedCards.db none,
    item.mapping.status = .auto := by decide +kernel

/-- The store renames the card, and the sync still pushes its offer. -/
theorem renamed_selected :
    ∃ item ∈ service.offers.syncable (restocked joinedCards "Roblox 350 HKD").db none,
      item.mapping.status = .auto ∧
        ¬ service.engine.Gated item.supplierProduct item.storeProduct := by decide +kernel

attribute [irreducible] joinedCards

end EchoStore

theorem auto_passed_gates_cards :
    (∃ item ∈ EchoStore.service.offers.syncable EchoStore.joinedCards.db none,
      item.mapping.status = .auto) ∧
    ∀ item ∈ EchoStore.service.offers.syncable EchoStore.joinedCards.db none,
      item.mapping.status = .auto → ∃ pair ∈ EchoStore.joinedCards.joined,
        pair.1.id = item.supplierProduct.id ∧ pair.2.id = item.storeProduct.id ∧
        EchoStore.service.engine.Gated pair.1 pair.2 ∧
        ((item.supplierProduct.name = pair.1.name ∧ item.supplierProduct.region = pair.1.region ∧
            item.supplierProduct.platform = pair.1.platform) →
          (item.storeProduct.name = pair.2.name ∧ item.storeProduct.region = pair.2.region ∧
            item.storeProduct.platform = pair.2.platform) →
          EchoStore.service.engine.Gated item.supplierProduct item.storeProduct) :=
  ⟨EchoStore.joinedCards_selected, Service.auto_passed_gates EchoStore.blank_unmapped
    EchoStore.joinedCards_reached none⟩

/-- After the renaming, an AUTO mapping the sync pushes joins two face values. -/
theorem auto_gated_until_renamed : ¬ ∀ state, Relation.ReflTransGen
    (Runs.Allowed (EchoStore.service.CatalogueStep EchoStore.storeCatalog) fun _ _ => True)
      EchoStore.blank state →
    ∀ item ∈ EchoStore.service.offers.syncable state.db none, item.mapping.status = .auto →
      EchoStore.service.engine.Gated item.supplierProduct item.storeProduct := by
  intro all
  obtain ⟨item, mem, auto, refused⟩ := EchoStore.renamed_selected
  exact refused (all _ (EchoStore.joinedCards_reached.tail
    ⟨_, trivial, EchoStore.restocked_step EchoStore.joinedCards _⟩) item mem auto)

end FazerBridge
