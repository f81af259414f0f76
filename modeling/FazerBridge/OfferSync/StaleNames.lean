import FazerBridge.OfferSync.Adoption

/-!
# When an adopted product is created again

An adoption takes over what the store lists exactly when no row of another selected mapping
names an adopted product.  For the one direction the store is one that lists its offers and
refuses every other call (`refusing`): it lets an adoption through (`Steady.runs_adoptItems`)
and a following run as well (`refused_syncItems`), which asks it to create on the product that
the row names.
-/

namespace FazerBridge

namespace OfferSync

open Prog

variable {W : Type} {sync : OfferSync W} {remotes : List StoreOfferView} {items : List Item}
  {price : Item → ℚ} {t u : Session W} {item : Item} {offers : Table StoreOffer.mappingId}

/-! ## What can be adopted -/

/-- No two of the items would hold the same offer of the store. -/
def Attachable (sync : OfferSync W) (remotes : List StoreOfferView) (items : List Item)
    (offers : Table StoreOffer.mappingId) : Prop :=
  ∀ a ∈ items, ∀ b ∈ items, a.mapping.id ≠ b.mapping.id →
    (sync.rowOf offers a).storeCode = (sync.rowOf offers b).storeCode →
    ∀ v w, listedOn remotes a.storeProduct.productExtId = some v →
      listedOn remotes b.storeProduct.productExtId = some w → v.offerExtId ≠ w.offerExtId

/-- The adopted offers fit the constraint of the database when they can be told apart. -/
theorem distinct_takenOver_iff (apart : Apart items) (bare : Bare offers) :
    Distinct (sync.takenOver remotes items offers) ↔ sync.Attachable remotes items offers := by
  constructor
  · intro distinct a memA b memB other code v w onA onB same
    have row : ∀ item ∈ items, ∀ {view},
        listedOn remotes item.storeProduct.productExtId = some view →
        adoptedRow view (sync.rowOf offers item) ∈ (sync.takenOver remotes items offers).rows ∧
          (adoptedRow view (sync.rowOf offers item)).mappingId = item.mapping.id :=
      fun item mem {view} on => Table.find?_eq_some_iff.mp (find?_takenOver apart mem on)
    refine distinct.apart (row a memA onA).1 (row b memB onB).1 ?_
      ⟨code, congrArg some same, Option.some_ne_none _⟩
    rw [(row a memA onA).2, (row b memB onB).2]
    exact other
  · intro attachable
    refine distinct_of_apart fun x memX y memY other same => ?_
    obtain ⟨a, memA, v, onA, rfl⟩ :=
      adopted_of_takenOver apart (fun offer mem => (bare offer mem).1) memX same.2.2
    obtain ⟨b, memB, w, onB, rfl⟩ := adopted_of_takenOver apart
      (fun offer mem => (bare offer mem).1) memY fun none => same.2.2 (same.2.1.trans none)
    have keys : (adoptedRow v (sync.rowOf offers a)).mappingId = a.mapping.id ∧
        (adoptedRow w (sync.rowOf offers b)).mappingId = b.mapping.id :=
      ⟨rowOf_mappingId, rowOf_mappingId⟩
    rw [keys.1, keys.2] at other
    exact attachable a memA b memB other same.1 v w onA onB (Option.some.inj same.2.1)

/-- What clashes before an adoption clashes after it. -/
theorem distinct_of_takenOver (idless : ∀ item ∈ items, (sync.rowOf offers item).offerExtId = none)
    (distinct : Distinct (sync.takenOver remotes items offers)) : Distinct offers := by
  have kept : ∀ o ∈ offers.rows, o.offerExtId ≠ none →
      o ∈ (sync.takenOver remotes items offers).rows := by
    intro o mem known
    have found := offers.find?_key mem
    refine (Table.find?_eq_some_iff.mp ((find?_takenOver_of_unlisted ?_).trans found)).1
    intro item selected own
    have idless := idless item selected
    rw [rowOf, own, found] at idless
    exact absurd idless known
  refine distinct_of_apart fun a memA b memB other same => ?_
  have knownB : b.offerExtId ≠ none := fun none => same.2.2 (same.2.1.trans none)
  exact distinct.apart (kept a memA same.2.2) (kept b memB knownB) other same

/-- On a working database the rows of an adoption are written. -/
theorem Steady.runs_adoptItems (steady : sync.Steady price) (apart : Apart items)
    (idless : ∀ item ∈ items, (sync.rowOf t.db.offers item).offerExtId = none)
    (distinct : Distinct (sync.takenOver remotes items t.db.offers)) :
    ∃ n, (sync.adoptItems remotes items).Runs t (.ok n)
      { t with db := { t.db with offers := sync.takenOver remotes items t.db.offers } } := by
  induction items generalizing t with
  | nil => exact ⟨0, runs_pure.mpr ⟨rfl, rfl⟩⟩
  | cons item rest ih =>
      have before : Distinct t.db.offers := distinct_of_takenOver idless distinct
      have idlessRest : ∀ other ∈ rest, (sync.rowOf t.db.offers other).offerExtId = none :=
        fun other mem => idless other (List.mem_cons_of_mem _ mem)
      unfold adoptItems takenOver
      unfold takenOver at distinct
      cases listed : listedOn remotes item.storeProduct.productExtId with
      | none =>
          rw [listed] at distinct
          exact ih apart.tail idlessRest distinct
      | some view =>
          rw [listed] at distinct
          have idlessLater : ∀ other ∈ rest,
              (sync.rowOf (sync.taken view item t.db.offers) other).offerExtId = none := by
            intro other mem
            rw [rowOf_taken_of_ne (apart.ne mem)]
            exact idlessRest other mem
          obtain ⟨n, later⟩ := ih
            (t := { t with db := { t.db with offers := sync.taken view item t.db.offers } })
            apart.tail idlessLater distinct
          have unknown : ¬ (sync.rowOf t.db.offers item).offerExtId = some view.offerExtId := by
            rw [idless item List.mem_cons_self]
            exact (Option.some_ne_none _).symm
          refine ⟨n + 1, (runs_bind_of_ok (steady.opens before)).mpr
            (runs_ite.mpr (.inr ⟨unknown, runs_modify_bind.mpr ?_⟩))⟩
          exact (runs_bind_of_ok later).mpr (runs_pure.mpr ⟨rfl, rfl⟩)

/-- On a working database an adoption that breaks no constraint is committed. -/
theorem Steady.adoption_commits (steady : sync.Steady price) {db : Db} {world : W}
    (bare : Bare db.offers) (listing : sync.adapter.listOffers world = (.ok remotes, world))
    (distinct : Distinct (sync.takenOver remotes (sync.syncable db none) db.offers)) :
    ∃ adoption, sync.sessionScope sync.adoptExistingOffers db world [] = ⟨.ok adoption,
      { db with offers := sync.takenOver remotes (sync.syncable db none) db.offers },
      world, []⟩ := by
  obtain ⟨n, adopts⟩ := steady.runs_adoptItems (t := ⟨db, world, [], []⟩) (nodup_syncable sync db none)
    (fun item _ => (bare.rowOf item).1) distinct
  have flushed := steady.flushes (t := ⟨{ db with
    offers := sync.takenOver remotes (sync.syncable db none) db.offers }, world, [], []⟩) distinct
  have ran : ∃ adoption, (sync.adoptExistingOffers).Runs ⟨db, world, [], []⟩ (.ok adoption)
      ⟨{ db with offers := sync.takenOver remotes (sync.syncable db none) db.offers },
        world, [], []⟩ := by
    unfold adoptExistingOffers
    apply Exists.intro
    rw [runs_bind_of_ok (a := remotes) (m := ⟨db, world, [], []⟩)]
    · rw [runs_get_bind, runs_bind_of_ok adopts, runs_bind_of_ok flushed, runs_get_bind]
      exact (runs_bind_of_ok flushed).mpr (runs_pure.mpr ⟨rfl, rfl⟩)
    · rw [runs_ofState]
      simp only [listing]
  obtain ⟨adoption, ran⟩ := ran
  exact ⟨adoption, (steady.sessionScope_eq ran).trans (leftBy_of_distinct distinct)⟩

/-! ## A store that refuses -/

/-- An error of the store that is no conflict. -/
def refusal : ApiError where
  kind := .apiError
  message := "refused"
  service := "store"
  statusCode := some 400

/-- The store lists `remotes` and refuses every other call; every item costs `cost`. -/
def refusing (code : String) (remotes : List StoreOfferView) (cost : ℚ) : OfferSync Unit where
  adapter := {
    code := code
    listOffers := fun w => (.ok remotes, w)
    offersForProduct := fun _ w => (.error (.api refusal), w)
    createOffer := fun _ _ _ _ w => (.error (.api refusal), w)
    updateOffer := fun _ _ _ _ w => (.error (.api refusal), w)
    getJob := fun _ w => (.error (.api refusal), w) }
  settings := Settings.default
  pricer := fun _ _ _ => pure cost
  now := fun _ => 0
  database := fun w => (none, w)

section Refusing

theorem refusing_steady (code : String) (remotes : List StoreOfferView) (cost : ℚ) :
    (refusing code remotes cost).Steady fun _ => cost :=
  ⟨fun _ _ => runs_pure.mpr ⟨rfl, rfl⟩, fun _ => rfl⟩

/-- A create was asked for on `p`. -/
def Asked (p : String) (trace : List Entry) : Prop :=
  ∃ entry ∈ trace, createdOn entry.call = some p

/-- What a refused call leaves: the row is as it was. -/
structure Unmoved (s m : RowState Unit) : Prop where
  offer : m.offer = s.offer
  others : m.others = s.others

variable (code : String) (remotes : List StoreOfferView) (cost : ℚ) (desired : DesiredOffer)
  (now : Time) (s : RowState Unit)

theorem refused_create : ∃ m, ((refusing code remotes cost).create desired now).Runs s
    (.error (.api refusal)) m ∧ Unmoved s m ∧ Asked s.offer.productExtId m.trace := by
  unfold create
  simp only [runs_get_bind]
  refine ⟨s.asked (refusing code remotes cost) .creating (.createOffer s.offer.productExtId
    desired.price desired.inventory desired.active (.error (.api refusal))) s.world, ?_, ⟨rfl, rfl⟩,
    _, List.mem_cons_self, rfl⟩
  refine (runs_bind_of_ok (runs_attempt.mpr (.inr (.inl
    ⟨refusal, runs_request.mpr ⟨rfl, rfl⟩, rfl⟩)))).mpr ?_
  exact runs_ite.mpr (.inr ⟨by decide, runs_throw.mpr ⟨rfl, rfl⟩⟩)

theorem refused_update (priceChanged stockChanged activeChanged : Bool) : ∃ r m,
    ((refusing code remotes cost).update desired now priceChanged stockChanged activeChanged).Runs
      s r m ∧ Unmoved s m ∧ (r = .error (.api refusal) ∨ ∃ k, r = .ok k) := by
  unfold update
  simp only [runs_get_bind, runs_ite]
  by_cases nothing : (!(priceChanged && (refusing code remotes cost).allows s || stockChanged ||
      activeChanged)) = true
  · exact ⟨_, s, .inl ⟨nothing, runs_pure.mpr ⟨rfl, rfl⟩⟩, ⟨rfl, rfl⟩, .inr ⟨_, rfl⟩⟩
  · exact ⟨_, s.asked _ .updating _ s.world, .inr ⟨nothing, runs_bind.mpr (.inr
      ⟨_, runs_request.mpr ⟨rfl, rfl⟩, rfl⟩)⟩, ⟨rfl, rfl⟩, .inl rfl⟩

/-- A row without a job is pushed as it is, and created where it has no id. -/
theorem refused_push (priceChanged stockChanged activeChanged : Bool)
    (idle : s.offer.pendingJobId = none) : ∃ r m,
    ((refusing code remotes cost).push desired now priceChanged stockChanged activeChanged).Runs
      s r m ∧ Unmoved s m ∧ (r = .error (.api refusal) ∨ ∃ k, r = .ok k) ∧
      (s.offer.offerExtId = none → Asked s.offer.productExtId m.trace) := by
  have calm : (s.offer.offerExtId.isNone && (truthyId s.offer.pendingJobId).isSome) = false := by
    rw [idle]
    exact Bool.and_false _
  have known : ∀ {r m}, (do
        let t ← get
        if t.offer.offerExtId.isNone then (refusing code remotes cost).create desired now
        else
          (refusing code remotes cost).update desired now priceChanged stockChanged activeChanged :
        Prog Exn (RowState Unit) StatKey).Runs s r m →
      ((refusing code remotes cost).push desired now priceChanged stockChanged
        activeChanged).Runs s r m := by
    intro r m run
    unfold push
    rw [runs_get_bind]
    simp only [calm, Bool.false_eq_true, if_false, pure_bind, if_true]
    exact run
  cases id : s.offer.offerExtId with
  | none =>
      obtain ⟨m, run, unmoved, asked⟩ := refused_create code remotes cost desired now s
      refine ⟨_, m, known (runs_get_bind.mpr (runs_ite.mpr (.inl ⟨?_, run⟩))), unmoved, .inl rfl,
        fun _ => asked⟩
      rw [id]
      rfl
  | some id' =>
      obtain ⟨r, m, run, unmoved, ended⟩ := refused_update code remotes cost desired now s
        priceChanged stockChanged activeChanged
      refine ⟨r, m, known (runs_get_bind.mpr (runs_ite.mpr (.inr ⟨?_, run⟩))), unmoved, ended,
        fun none => by cases none⟩
      rw [id]
      exact Bool.false_ne_true

theorem refused_syncOne (free : s.Free) (idle : s.offer.pendingJobId = none) : ∃ k m,
    ((refusing code remotes cost).syncOne desired false now).Runs s (.ok k) m ∧
      (s.offer.offerExtId = none → s.offer.pushedPrice ≠ some desired.price →
        Asked s.offer.productExtId m.trace) := by
  unfold syncOne
  simp only [runs_get_bind]
  by_cases same : Shows desired s.offer
  · exact ⟨_, s, runs_ite.mpr (.inl ⟨shows_iff.mp same, runs_pure.mpr ⟨rfl, rfl⟩⟩),
      fun _ differs => absurd same.1 differs⟩
  obtain ⟨r, m, pushed, unmoved, ended, asked⟩ := refused_push code remotes cost desired now s
    (decide (s.offer.pushedPrice ≠ some desired.price))
    (decide (s.offer.pushedInventory ≠ some desired.inventory))
    (decide (s.offer.pushedActive ≠ some desired.active)) idle
  simp only [runs_ite, shows_iff.not.mp same, Bool.false_eq_true, not_false_eq_true, true_and,
    false_and, false_or]
  rcases ended with rfl | ⟨k, rfl⟩
  · have kept : (m.set (failedCall refusal m.offer)).Free := by
      intro id held
      rw [failedCall, if_neg (by decide), unmoved.offer] at held
      rw [RowState.set, unmoved.others]
      exact free id held
    have flushed : (refusing code remotes cost).flush.Runs (m.set (failedCall refusal m.offer))
        (.ok ()) (m.set (failedCall refusal m.offer)) := by
      obtain ⟨left, ⟨-, done⟩ | ⟨taken, -⟩⟩ :=
        runs_flush (refusing_steady code remotes cost).sound (runs_exec (refusing code remotes
          cost).flush (m.set (failedCall refusal m.offer)))
      · exact Prod.ext done left
      · exact absurd kept taken
    refine ⟨.errors, m.set (failedCall refusal m.offer), (runs_bind_of_ok
      (runs_attempt.mpr (.inr (.inl ⟨_, pushed, rfl⟩)))).mpr ?_, fun unknown _ => asked unknown⟩
    exact runs_edit_bind.mpr ((runs_bind_of_ok flushed).mpr (runs_pure.mpr ⟨rfl, rfl⟩))
  · exact ⟨k, m, (runs_bind_of_ok (runs_attempt.mpr (.inl ⟨k, pushed, rfl⟩))).mpr
      (runs_pure.mpr ⟨rfl, rfl⟩), fun unknown _ => asked unknown⟩

theorem Asked.mono {p : String} {old new : List Entry} (asked : Asked p old)
    (adds : Adds (fun _ => True) old new) : Asked p new := by
  obtain ⟨entry, mem, creates⟩ := asked
  obtain ⟨calls, rfl, -⟩ := adds
  exact ⟨entry, List.mem_append_right _ mem, creates⟩

theorem adds_syncItem {sync : OfferSync W} {dryRun : Bool} {r : Except Exn Unit} {t u : Session W}
    {item : Item} (run : (sync.syncItem dryRun now item).Runs t r u) :
    Adds (fun _ => True) t.trace u.trace :=
  ((syncItem_spec run).adds fun _ syncs => syncs.frame.trace.adds.mono fun _ _ => trivial).1

/-- A run at the refusing store gets through, and asks for a create for every row without an
id whose price differs. -/
theorem refused_syncItems {t : Session Unit} {items : List Item} (apart : Apart items)
    (distinct : Distinct t.db.offers)
    (idle : ∀ item ∈ items, ((refusing code remotes cost).rowOf t.db.offers item).pendingJobId =
      none) : ∃ u, ((refusing code remotes cost).syncItems false now items).Runs t (.ok ()) u ∧
        Adds (fun _ => True) t.trace u.trace ∧ ∀ item ∈ items,
          ((refusing code remotes cost).rowOf t.db.offers item).offerExtId = none →
          ((refusing code remotes cost).rowOf t.db.offers item).pushedPrice ≠ some cost →
          Asked ((refusing code remotes cost).rowOf t.db.offers item).productExtId u.trace := by
  have steady := refusing_steady code remotes cost
  induction items generalizing t with
  | nil => exact ⟨t, runs_pure.mpr ⟨rfl, rfl⟩, .refl _, fun item mem => by cases mem⟩
  | cons item rest ih =>
      obtain ⟨k, m, synced, asked⟩ := refused_syncOne code remotes cost
        (wanted (fun _ => cost) item) now ((refusing code remotes cost).itemRow t item)
        (free_itemRow distinct) (idle item List.mem_cons_self)
      have first : ((refusing code remotes cost).syncItem false now item).Runs t (.ok ())
          (closed ((refusing code remotes cost).opened t item) (.ok k) m) :=
        (steady.runs_syncItem distinct).mpr ⟨.ok k, m, synced, rfl, rfl⟩
      have others : ∀ other ∈ rest, (refusing code remotes cost).rowOf
          (closed ((refusing code remotes cost).opened t item) (.ok k) m).db.offers other =
          (refusing code remotes cost).rowOf t.db.offers other :=
        fun other mem => steady.rowOf_syncItem distinct (apart.ne mem) first
      obtain ⟨u, later, adds, askedLater⟩ := ih apart.tail (steady.distinct_syncItem distinct first)
        fun other mem => (others other mem).symm ▸ idle other (List.mem_cons_of_mem _ mem)
      refine ⟨u, (runs_bind_of_ok first).mpr later, (adds_syncItem now first).trans adds, ?_⟩
      intro other mem unknown differs
      rcases List.mem_cons.mp mem with rfl | mem
      · exact (asked unknown differs).mono adds
      · have row := others other mem
        rw [← row] at unknown differs ⊢
        exact askedLater other mem unknown differs

end Refusing

/-! ## Exactly when -/

section Code

variable {V : Type} {other : OfferSync V}

/-- What is selected, and the blank rows, depend on the store's code only. -/
theorem syncable_of_code (code : other.adapter.code = sync.adapter.code) (db : Db)
    (count : Option ℕ) : other.syncable db count = sync.syncable db count := by
  unfold syncable itemOf
  rw [code]

theorem rowOf_of_code (code : other.adapter.code = sync.adapter.code) :
    other.rowOf offers item = sync.rowOf offers item := by
  unfold rowOf blank newOffer
  rw [code]

theorem attachable_of_code (code : other.adapter.code = sync.adapter.code) :
    other.Attachable remotes items offers ↔ sync.Attachable remotes items offers := by
  unfold Attachable
  simp only [rowOf_of_code code]

theorem namesNoListed_of_code (code : other.adapter.code = sync.adapter.code) {db : Db} :
    other.NamesNoListed remotes db ↔ sync.NamesNoListed remotes db := by
  unfold NamesNoListed
  rw [syncable_of_code code]

end Code

/-- A row that no offer was adopted for is as it was. -/
theorem rowOf_takenOver_of_unlisted {db : Db} (mem : item ∈ sync.syncable db none)
    (unlisted : ¬ Listed remotes item.storeProduct.productExtId) :
    sync.rowOf (sync.takenOver remotes (sync.syncable db none) offers) item =
      sync.rowOf offers item := by
  rw [rowOf, find?_takenOver_of_unlisted, rowOf]
  intro other mem' same
  cases eq_of_mappingId mem mem' same.symm
  exact listedOn_eq_none_iff.mpr unlisted

theorem Bare.idle_takenOver {db : Db} (bare : Bare offers) (mem : item ∈ sync.syncable db none) :
    (sync.rowOf (sync.takenOver remotes (sync.syncable db none) offers) item).pendingJobId =
      none := by
  by_cases listed : Listed remotes item.storeProduct.productExtId
  · obtain ⟨view, on⟩ := exists_listedOn listed
    rw [OfferSync.rowOf, find?_takenOver (nodup_syncable sync db none) mem on]
    exact (bare.rowOf item).2
  · rw [rowOf_takenOver_of_unlisted mem listed]
    exact (bare.rowOf item).2

theorem leftBy_trace {α : Type} {db : Db} {r : Except Exn α} : (leftBy db r u).trace = u.trace := by
  cases r with
  | error e => rfl
  | ok a =>
      by_cases distinct : Distinct u.db.offers
      · rw [leftBy_of_distinct distinct]
      · rw [leftBy_of_clash distinct]

/-- The refusing store is asked to create for a row that nothing was adopted for. -/
theorem refusing_asked {code : String} {cost : ℚ} {db : Db} (bare : Bare db.offers)
    (distinct : Distinct ((refusing code remotes cost).takenOver remotes
      ((refusing code remotes cost).syncable db none) db.offers))
    (mem : item ∈ (refusing code remotes cost).syncable db none)
    (unlisted : ¬ Listed remotes item.storeProduct.productExtId)
    (differs : ((refusing code remotes cost).rowOf db.offers item).pushedPrice ≠ some cost) :
    Asked ((refusing code remotes cost).rowOf db.offers item).productExtId
      ((refusing code remotes cost).runSession none false { db with
        offers := (refusing code remotes cost).takenOver remotes
          ((refusing code remotes cost).syncable db none) db.offers } () []).trace := by
  have steady := refusing_steady code remotes cost
  generalize adopted : ({ db with
    offers := (refusing code remotes cost).takenOver remotes
      ((refusing code remotes cost).syncable db none) db.offers } : Db) = after
  have items : (refusing code remotes cost).syncable after none =
      (refusing code remotes cost).syncable db none := by
    subst adopted
    exact SameSelection.syncable ⟨rfl, rfl, rfl⟩ none
  have offers : after.offers = (refusing code remotes cost).takenOver remotes
      ((refusing code remotes cost).syncable db none) db.offers := by
    subst adopted
    rfl
  have row : (refusing code remotes cost).rowOf after.offers item =
      (refusing code remotes cost).rowOf db.offers item := by
    rw [offers, rowOf_takenOver_of_unlisted mem unlisted]
  obtain ⟨u, looped, -, asked⟩ := refused_syncItems code remotes cost 0 (t := ⟨after, (), [], []⟩)
    (nodup_syncable (refusing code remotes cost) after none) (show Distinct after.offers from
      offers ▸ distinct) fun other mem' => by
        rw [items] at mem'
        exact offers ▸ bare.idle_takenOver mem'
  obtain ⟨runs, ran⟩ := steady.run_of_loop (t := ⟨after, (), [], []⟩) (offers ▸ distinct) looped
  rw [runSession, steady.sessionScope_eq ran, leftBy_trace, ← row]
  refine asked item (items ▸ mem) ?_ (row.symm ▸ differs)
  rw [row]
  exact (bare.rowOf item).1

/-- An adoption that returns takes over what the store lists, however the store answers
afterwards and the items are priced, exactly when no selected mapping that nothing is listed
for has a row naming the product of one that something is listed for; unless two mappings
share an offer, for then no adoption returns. -/
theorem takesOver_iff (sync : OfferSync W) {db : Db} (bare : Bare db.offers) :
    (∀ {V : Type} (other : OfferSync V) (world w : V) (trace : List Entry) (adoption : Adoption),
      other.adapter.code = sync.adapter.code →
      other.adapter.listOffers world = (.ok remotes, w) →
      (other.sessionScope other.adoptExistingOffers db world trace).result = .ok adoption →
      other.TakesOver remotes db (other.sessionScope other.adoptExistingOffers db world trace)) ↔
    (sync.Attachable remotes (sync.syncable db none) db.offers → sync.NamesNoListed remotes db) := by
  constructor
  · intro all attachable item mem unlisted row found other mem' listed same
    obtain ⟨cost, differs⟩ : ∃ cost, row.pushedPrice ≠ some cost := by
      cases row.pushedPrice with
      | none => exact ⟨0, (Option.some_ne_none 0).symm⟩
      | some q => exact ⟨q + 1, by simp⟩
    have code : (refusing sync.adapter.code remotes cost).adapter.code = sync.adapter.code := rfl
    have items := syncable_of_code code db none
    have distinct : Distinct ((refusing sync.adapter.code remotes cost).takenOver remotes
        ((refusing sync.adapter.code remotes cost).syncable db none) db.offers) := by
      refine (distinct_takenOver_iff (nodup_syncable _ db none) bare).mpr ?_
      rw [items]
      exact (attachable_of_code code).mpr attachable
    have here : (refusing sync.adapter.code remotes cost).rowOf db.offers item = row := by
      rw [rowOf, found, Option.getD_some]
    obtain ⟨adoption, left⟩ := (refusing_steady sync.adapter.code remotes cost).adoption_commits
      bare rfl distinct
    have takes := all (refusing sync.adapter.code remotes cost) () () [] adoption rfl rfl
      (by rw [left])
    rw [left] at takes
    obtain ⟨calls, split, respects⟩ := takes.follows none false () []
    rw [List.append_nil] at split
    obtain ⟨entry, sent, creates⟩ := refusing_asked bare distinct (items ▸ mem) unlisted
      (here.symm ▸ differs)
    rw [split] at sent
    rw [here, same] at creates
    exact (respects entry sent).creates other (items ▸ mem') creates listed
  · intro names V other world w trace adoption code listing returned
    obtain ⟨-, -, distinct⟩ := adopted_session bare listing returned
    have attachable := (distinct_takenOver_iff (nodup_syncable other db none) bare).mp distinct
    rw [attachable_of_code code, syncable_of_code code] at attachable
    exact ((namesNoListed_of_code code).mpr (names attachable)).takesOver bare listing returned

end OfferSync

namespace EchoStore

open OfferSync

/-- The store's one offer, on the second product. -/
def listedOffer : StoreOfferView where
  offerExtId := "offer-2"
  productExtId := "2"
  price := some 11
  inventorySize := 5
  status := "active"

/-- The store of an account that was populated by something else. -/
def takenAccount : OfferSync Time :=
  offers settings { adapter with listOffers := fun w => (.ok [listedOffer], w) }

theorem db_bare : Bare db.offers := fun _ mem => by cases mem

/-- Without rows there is nothing to name an adopted product. -/
theorem takesOver_db : takenAccount.TakesOver [listedOffer] db
    (takenAccount.sessionScope takenAccount.adoptExistingOffers db 0 []) :=
  (takesOver_iff takenAccount db_bare).mpr
    (fun _ _ _ _ row found => by cases (show (none : Option StoreOffer) = some row from found))
    takenAccount 0 0 [] ⟨1, 1, 0⟩ rfl rfl (by decide +kernel)

/-- The row of the first mapping was made when it pointed to the second product. -/
def remappedRow : StoreOffer := takenAccount.newOffer (mapping 1) (storeProduct 2 none)

def remappedDb : Db := { db with offers := ⟨[remappedRow], by decide⟩ }

/-- The second product has been adopted for its own mapping, and the run after that creates on
it again for the first one. -/
theorem adopted_product_recreated : Bare remappedDb.offers ∧
    (takenAccount.sessionScope takenAccount.adoptExistingOffers remappedDb 0 []).result =
      .ok ⟨1, 1, 0⟩ ∧
    ¬ takenAccount.TakesOver [listedOffer] remappedDb
      (takenAccount.sessionScope takenAccount.adoptExistingOffers remappedDb 0 []) := by
  refine ⟨?_, by decide +kernel, fun takes => ?_⟩
  · intro offer mem
    cases List.mem_singleton.mp mem
    exact ⟨rfl, rfl⟩
  obtain ⟨calls, split, respects⟩ := takes.follows none false 0 []
  have created : (takenAccount.runSession none false (takenAccount.sessionScope
      takenAccount.adoptExistingOffers remappedDb 0 []).db 0 []).trace.any
        (fun entry => createdOn entry.call = some "2") = true := by decide +kernel
  rw [split, List.append_nil] at created
  obtain ⟨entry, sent, creates⟩ := List.any_eq_true.mp created
  have selected : secondItem ∈ takenAccount.syncable remappedDb none :=
    List.mem_cons_of_mem firstItem List.mem_cons_self
  exact (respects entry sent).creates secondItem selected (of_decide_eq_true creates)
    ⟨listedOffer, List.mem_singleton_self _, rfl⟩

end EchoStore

end FazerBridge
