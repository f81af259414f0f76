import FazerBridge.Matching.Lookups

/-!
# Candidates and the order of a set

The anchors are a set of words sorted by their lengths alone, so words of one
length come in the order the process lists the set in, and only the first three
are looked up.  The orders differ by exchanges of two neighbours of one length, and an
exchange does not show where the rows of the one word begin with the rows of the other
(`Interchangeable`).  So the candidates do not depend on the order exactly if no such
exchange shows (`findCandidates_reproducible_iff`); there is none when no two anchors are
of one length (`findCandidates_of_lengths`).
-/

namespace FazerBridge

open Text Neighbours

namespace MatchingEngine

/-- A listing of a set has its elements. -/
def Lists (enumerate : List Text → List Text) : Prop := ∀ ws, (enumerate ws).Perm ws

/-- A word that may be an anchor. -/
def isAnchor (t : Text) : Bool := (4 ≤ t.length || isDigits t) && t ∉ editionWords

def anchorWords (parts : TitleParts) : List Text := parts.tokens.filter isAnchor

/-- An order the anchors may come in: longest first. -/
def Arranged (parts : TitleParts) (words : List Text) : Prop :=
  words.Perm (anchorWords parts) ∧ words.Pairwise fun a b => b.length ≤ a.length

instance (parts : TitleParts) (words : List Text) : Decidable (Arranged parts words) :=
  inferInstanceAs (Decidable (_ ∧ _))

variable {parts : TitleParts} {words words' : List Text} {enumerate : List Text → List Text}

theorem anchors_arranged (lists : Lists enumerate) : Arranged parts (parts.anchors enumerate) :=
  ⟨(Ranking.rank_perm _ _).trans ((lists parts.tokens).filter _), Ranking.rank_pairwise _ _⟩

theorem anchors_eq : parts.anchors enumerate =
    Ranking.rank List.length ((enumerate parts.tokens).filter isAnchor) := rfl

/-- Every order of the anchors is one some process has. -/
theorem exists_enumerate (arranged : Arranged parts words) :
    ∃ enumerate, Lists enumerate ∧ parts.anchors enumerate = words := by
  have anchors : ∀ t ∈ words, isAnchor t = true :=
    fun t mem => (List.mem_filter.mp (arranged.1.mem_iff.mp mem)).2
  have others : (parts.tokens.filter fun t => !isAnchor t).filter isAnchor = [] := by
    rw [List.filter_filter]
    exact List.filter_eq_nil_iff.mpr fun t _ => by simp
  refine ⟨fun ws => if ws = parts.tokens then words ++ ws.filter fun t => !isAnchor t else ws,
    fun ws => ?_, ?_⟩
  · dsimp only
    split
    · subst ws
      exact (arranged.1.append_right _).trans (List.filter_append_perm _ _)
    · exact List.Perm.refl ws
  · rw [anchors_eq, if_pos rfl, List.filter_append, List.filter_eq_self.mpr anchors, others,
      List.append_nil]
    exact arranged.2.insertionSort_eq

/-- Anchors of different lengths come in one order. -/
theorem arranged_unique (distinct : ((anchorWords parts).map List.length).Nodup)
    (arranged : Arranged parts words) (arranged' : Arranged parts words') : words = words' := by
  refine (arranged.1.trans arranged'.1.symm).eq_of_pairwise (fun a b isA isB le le' => ?_)
    arranged.2 arranged'.2
  exact List.inj_on_of_nodup_map distinct (arranged.1.mem_iff.mp isA)
    (arranged'.1.mem_iff.mp isB) (le_antisymm le' le)

theorem anchors_unique {enumerate' : List Text → List Text}
    (distinct : ((anchorWords parts).map List.length).Nodup) (lists : Lists enumerate)
    (lists' : Lists enumerate') : parts.anchors enumerate = parts.anchors enumerate' :=
  arranged_unique distinct (anchors_arranged lists) (anchors_arranged lists')

variable (engine : MatchingEngine) (db : Db) (claimed : List ℕ) (s : SupplierProduct)

/-- The products the first three of the words find and `s` may be mapped to. -/
def foundBy (words : List Text) : List StoreProduct :=
  (anchoredProducts (engine.catalogue db) (words.take 3) []).filter fun p =>
    db.isVisible claimed s p && decide (0 < (engine.scoreOf s p).1)

/-- The found products of one score, as far as the list has room for them. -/
def foundAt (words : List Text) (v : ℚ) : List StoreProduct :=
  Ranking.level (fun p => (engine.scoreOf s p).1) engine.settings.matchMaxCandidates
    (engine.foundBy db claimed s words) v

variable {engine} {db} {claimed} {s}

theorem shortlist_eq (enumerate : List Text → List Text) :
    { engine with enumerate := enumerate }.shortlist db parts =
      if ((engine.catalogue db).filter fun p => p.matchKey = parts.matchKey).isEmpty then
        anchoredProducts (engine.catalogue db) ((parts.anchors enumerate).take 3) []
      else (engine.catalogue db).filter fun p => p.matchKey = parts.matchKey := rfl

theorem findCandidates_shortlist (enumerate : List Text → List Text) :
    { engine with enumerate := enumerate }.findCandidates db claimed s =
      (Ranking.rank Candidate.score
        ((({ engine with enumerate := enumerate }.shortlist db (engine.supplierParts s)).filter
          fun p => db.isVisible claimed s p && decide (0 < (engine.scoreOf s p).1)).map
            (engine.candidateOf s))).take engine.settings.matchMaxCandidates := rfl

/-- With a product in the bucket the anchors are not looked up. -/
theorem findCandidates_of_bucket {p : StoreProduct} (mem : p ∈ engine.catalogue db)
    (key : p.matchKey = (engine.supplierParts s).matchKey)
    (enumerate enumerate' : List Text → List Text) :
    { engine with enumerate := enumerate }.findCandidates db claimed s =
      { engine with enumerate := enumerate' }.findCandidates db claimed s := by
  have bucket : ¬ ((engine.catalogue db).filter fun p =>
      p.matchKey = (engine.supplierParts s).matchKey).isEmpty = true := by
    rw [List.isEmpty_iff, List.filter_eq_nil_iff]
    exact fun none => none p mem (decide_eq_true key)
  rw [findCandidates_shortlist, findCandidates_shortlist, shortlist_eq, shortlist_eq,
    if_neg bucket, if_neg bucket]

/-- Anchors of different lengths are looked up in one order. -/
theorem findCandidates_of_lengths {enumerate' : List Text → List Text}
    (distinct : ((anchorWords (engine.supplierParts s)).map List.length).Nodup)
    (lists : Lists enumerate) (lists' : Lists enumerate') :
    { engine with enumerate := enumerate }.findCandidates db claimed s =
      { engine with enumerate := enumerate' }.findCandidates db claimed s := by
  rw [findCandidates_shortlist, findCandidates_shortlist, shortlist_eq, shortlist_eq,
    anchors_unique distinct lists lists']

theorem foundBy_rows {p : StoreProduct} (mem : p ∈ engine.foundBy db claimed s words) :
    p ∈ db.storeProducts.rows := by
  have found := mem_anchoredProducts (List.mem_of_mem_filter mem)
  exact List.mem_of_mem_filter (found.resolve_left List.not_mem_nil)

/-- The candidates when the bucket is empty. -/
theorem findCandidates_of_anchors
    (empty : ∀ p ∈ engine.catalogue db, p.matchKey ≠ (engine.supplierParts s).matchKey)
    (enumerate : List Text → List Text) :
    { engine with enumerate := enumerate }.findCandidates db claimed s =
      ((Ranking.rank (fun p => (engine.scoreOf s p).1) (engine.foundBy db claimed s
        ((engine.supplierParts s).anchors enumerate))).take
          engine.settings.matchMaxCandidates).map (engine.candidateOf s) := by
  have bucket : ((engine.catalogue db).filter fun p =>
      p.matchKey = (engine.supplierParts s).matchKey).isEmpty = true := by
    rw [List.isEmpty_iff, List.filter_eq_nil_iff]
    exact fun p mem key => empty p mem (of_decide_eq_true key)
  rw [findCandidates_shortlist, shortlist_eq, if_pos bucket, List.map_take]
  have sorted := List.map_insertionSort
    (fun p q : StoreProduct => (engine.scoreOf s q).1 ≤ (engine.scoreOf s p).1)
    (fun a b : Candidate => b.score ≤ a.score) (engine.candidateOf s)
    (engine.foundBy db claimed s ((engine.supplierParts s).anchors enumerate))
    fun p _ q _ => Iff.rfl
  exact congrArg (List.take _) sorted.symm

/-- Candidates of rows are the same when the rows are. -/
theorem map_candidateOf_inj {l l' : List StoreProduct} (rows : ∀ p ∈ l, p ∈ db.storeProducts.rows)
    (rows' : ∀ p ∈ l', p ∈ db.storeProducts.rows) :
    l.map (engine.candidateOf s) = l'.map (engine.candidateOf s) ↔ l = l' := by
  refine ⟨fun same => ?_, fun same => congrArg _ same⟩
  have read : ∀ {l : List StoreProduct}, (∀ p ∈ l, p ∈ db.storeProducts.rows) →
      (l.map (engine.candidateOf s)).map (fun c => db.storeProducts.find? c.storeProductId) =
        l.map some := by
    intro l rows
    rw [List.map_map]
    exact List.map_congr_left fun p mem => db.storeProducts.table.find?_key (rows p mem)
  exact List.map_injective_iff.mpr (Option.some_injective _)
    ((read rows).symm.trans ((congrArg _ same).trans (read rows')))

/-- Every process finds the same candidates exactly when a product is in the bucket, or all
orders of the anchors find the same at every score. -/
theorem findCandidates_iff_foundAt :
    (∀ enumerate enumerate', Lists enumerate → Lists enumerate' →
      { engine with enumerate := enumerate }.findCandidates db claimed s =
        { engine with enumerate := enumerate' }.findCandidates db claimed s) ↔
    (∃ p ∈ engine.catalogue db, p.matchKey = (engine.supplierParts s).matchKey) ∨
      ∀ words words', Arranged (engine.supplierParts s) words →
        Arranged (engine.supplierParts s) words' →
          ∀ v, engine.foundAt db claimed s words v = engine.foundAt db claimed s words' v := by
  by_cases some_ : ∃ p ∈ engine.catalogue db, p.matchKey = (engine.supplierParts s).matchKey
  · refine iff_of_true (fun enumerate enumerate' _ _ => ?_) (.inl some_)
    obtain ⟨p, mem, key⟩ := some_
    exact findCandidates_of_bucket mem key enumerate enumerate'
  · rw [or_iff_right some_]
    have empty : ∀ p ∈ engine.catalogue db, p.matchKey ≠ (engine.supplierParts s).matchKey :=
      fun p mem key => some_ ⟨p, mem, key⟩
    have kept : ∀ words, ∀ p ∈ (Ranking.rank (fun p => (engine.scoreOf s p).1)
        (engine.foundBy db claimed s words)).take engine.settings.matchMaxCandidates,
        p ∈ db.storeProducts.rows :=
      fun words p mem => foundBy_rows (Ranking.mem_rank.mp (List.mem_of_mem_take mem))
    have found : ∀ enumerate enumerate',
        { engine with enumerate := enumerate }.findCandidates db claimed s =
            { engine with enumerate := enumerate' }.findCandidates db claimed s ↔
          ∀ v, engine.foundAt db claimed s ((engine.supplierParts s).anchors enumerate) v =
            engine.foundAt db claimed s ((engine.supplierParts s).anchors enumerate') v := by
      intro enumerate enumerate'
      rw [findCandidates_of_anchors empty, findCandidates_of_anchors empty,
        map_candidateOf_inj (kept _) (kept _)]
      exact Ranking.take_rank_eq_iff
    constructor
    · intro reproducible words words' arranged arranged'
      obtain ⟨enumerate, lists, rfl⟩ := exists_enumerate arranged
      obtain ⟨enumerate', lists', rfl⟩ := exists_enumerate arranged'
      exact (found enumerate enumerate').mp (reproducible enumerate enumerate' lists lists')
    · intro same enumerate enumerate' lists lists'
      exact (found enumerate enumerate').mpr
        (same _ _ (anchors_arranged lists) (anchors_arranged lists'))

/-! ## Exchanges of two words -/

variable (engine) (db) (claimed) (s)

/-- The store's products of score `v` that `s` may be mapped to. -/
def pool (v : ℚ) : List StoreProduct :=
  (engine.catalogue db).filter fun p =>
    db.isVisible claimed s p && decide (0 < (engine.scoreOf s p).1) &&
      decide ((engine.scoreOf s p).1 = v)

/-- Those of a better score. -/
def better (v : ℚ) : List StoreProduct :=
  (engine.catalogue db).filter fun p =>
    db.isVisible claimed s p && decide (0 < (engine.scoreOf s p).1) &&
      decide (v < (engine.scoreOf s p).1)

/-- The places left for score `v` behind the better products that contain a word that is
looked up, and the ones of score `v` that contain a word of `before`. -/
def room (words before : List Text) (v : ℚ) : ℕ :=
  engine.settings.matchMaxCandidates -
    ((engine.better db claimed s v).countP (containsAny (lookedUp (engine.catalogue db) [] words)) +
      (engine.pool db claimed s v).countP (containsAny before))

/-- Whether `a` or `b` is looked up first after `before` does not show at score `v`: as far as
there is room, the products of the one begin with those of the other, and a word that is not
looked up after the other one brings nothing new. -/
structure Interchangeable (before : List Text) (a b : Text) (rest : List Text) (v : ℚ) : Prop where
  either : Begins (engine.room db claimed s (before ++ a :: b :: rest) before v)
      (addedBy (engine.pool db claimed s v) before a)
      (addedBy (engine.pool db claimed s v) before b) ∨
    Begins (engine.room db claimed s (before ++ a :: b :: rest) before v)
      (addedBy (engine.pool db claimed s v) before b)
      (addedBy (engine.pool db claimed s v) before a)
  first : ¬ LooksOn (engine.catalogue db) (before ++ [a]) →
    Begins (engine.room db claimed s (before ++ a :: b :: rest) before v)
      (addedBy (engine.pool db claimed s v) before b)
      (addedBy (engine.pool db claimed s v) before a)
  second : ¬ LooksOn (engine.catalogue db) (before ++ [b]) →
    Begins (engine.room db claimed s (before ++ a :: b :: rest) before v)
      (addedBy (engine.pool db claimed s v) before a)
      (addedBy (engine.pool db claimed s v) before b)

variable {engine} {db} {claimed} {s}

/-- No word has 400 rows of its own. -/
def Few (engine : MatchingEngine) (db : Db) (words : List Text) : Prop :=
  ∀ word ∈ words, (engine.catalogue db).countP (anchorHits word) < 400

instance (words : List Text) : Decidable (Few engine db words) :=
  inferInstanceAs (Decidable (∀ word ∈ words, _))

theorem foundBy_eq (few : Few engine db words) :
    engine.foundBy db claimed s words =
      inTurn ((engine.catalogue db).filter fun p =>
          db.isVisible claimed s p && decide (0 < (engine.scoreOf s p).1)) []
        (lookedUp (engine.catalogue db) [] words) := by
  have unique : ∀ p ∈ engine.catalogue db, ∀ q ∈ engine.catalogue db, p.id = q.id → p = q :=
    fun a isA b isB => db.storeProducts.table.eq_of_key_eq (List.mem_of_mem_filter isA)
      (List.mem_of_mem_filter isB)
  rw [foundBy, anchoredProducts_eq unique (db.storeProducts.table.nodup_rows.filter _) few,
    filter_inTurn]

/-- What is found at one score. -/
theorem foundAt_eq (few : Few engine db words) (v : ℚ) :
    engine.foundAt db claimed s words v =
      (inTurn (engine.pool db claimed s v) [] (lookedUp (engine.catalogue db) [] words)).take
        (engine.settings.matchMaxCandidates - (engine.foundBy db claimed s words).countP
          fun p => v < (engine.scoreOf s p).1) := by
  rw [foundAt, Ranking.level]
  congr 1
  rw [foundBy_eq few, filter_inTurn, List.filter_filter, pool]
  simp only [Bool.and_comm]

theorem countP_foundBy (few : Few engine db words) (v : ℚ) :
    (engine.foundBy db claimed s words).countP (fun p => v < (engine.scoreOf s p).1) =
      (engine.better db claimed s v).countP
        (containsAny (lookedUp (engine.catalogue db) [] words)) := by
  rw [List.countP_eq_length_filter, foundBy_eq few, filter_inTurn, length_inTurn_nil,
    List.filter_filter, better]
  simp only [Bool.and_comm]

variable {before rest : List Text} {a b : Text} {v : ℚ}

/-- What is looked up after `before`, with two words first. -/
theorem foundAt_exchange (few : Few engine db (before ++ a :: b :: rest))
    (looksOn : LooksOn (engine.catalogue db) before) {r : ℕ}
    (left : engine.settings.matchMaxCandidates -
      (engine.foundBy db claimed s (before ++ a :: b :: rest)).countP
        (fun p => v < (engine.scoreOf s p).1) = r) :
    engine.foundAt db claimed s (before ++ a :: b :: rest) v =
      (inTurn (engine.pool db claimed s v) [] before).take r ++
        (if LooksOn (engine.catalogue db) (before ++ [a]) then
          merge (addedBy (engine.pool db claimed s v) before a)
              (addedBy (engine.pool db claimed s v) before b) ++
            inTurn (engine.pool db claimed s v) (before ++ [a, b])
              (lookedUp (engine.catalogue db) (before ++ [a, b]) rest)
        else addedBy (engine.pool db claimed s v) before a).take
          (r - (engine.pool db claimed s v).countP (containsAny before)) := by
  have words : lookedUp (engine.catalogue db) [] _ = _ :=
    lookedUp_append before (a :: b :: rest) looksOn
  rw [List.nil_append] at words
  rw [foundAt_eq few, left, words, lookedUp, if_pos looksOn, inTurn_append, List.take_append,
    length_inTurn_nil, List.nil_append, inTurn, lookedUp]
  congr 2
  split
  · rw [inTurn, ← List.append_assoc, addedBy_append, List.append_assoc before]
    rfl
  · rw [inTurn, List.append_nil]

/-- An exchange does not show at a score above which it does not show. -/
theorem foundAt_exchange_iff (few : Few engine db (before ++ a :: b :: rest))
    (looksOn : LooksOn (engine.catalogue db) before)
    (above : ∀ w, v < w → engine.foundAt db claimed s (before ++ a :: b :: rest) w =
      engine.foundAt db claimed s (before ++ b :: a :: rest) w) :
    engine.foundAt db claimed s (before ++ a :: b :: rest) v =
        engine.foundAt db claimed s (before ++ b :: a :: rest) v ↔
      engine.Interchangeable db claimed s before a b rest v := by
  have few' : Few engine db (before ++ b :: a :: rest) := fun word mem =>
    few word (((List.Perm.swap a b rest).append_left before).mem_iff.mp mem)
  have same := Ranking.room_eq above
  have places : engine.settings.matchMaxCandidates -
      (engine.foundBy db claimed s (before ++ a :: b :: rest)).countP
        (fun p => v < (engine.scoreOf s p).1) -
        (engine.pool db claimed s v).countP (containsAny before) =
      engine.room db claimed s (before ++ a :: b :: rest) before v := by
    rw [room, countP_foundBy few, Nat.sub_sub]
  have nodup : ∀ word, (addedBy (engine.pool db claimed s v) before word).Nodup := fun word =>
    ((db.storeProducts.table.nodup_rows.filter _).filter _).filter _
  have swapped : (before ++ [b, a]).Perm (before ++ [a, b]) :=
    (List.Perm.swap a b []).append_left before
  have stop : ∀ first second : Text, ¬ LooksOn (engine.catalogue db) (before ++ [first]) →
      (before ++ [first, second]).Perm (before ++ [a, b]) →
        lookedUp (engine.catalogue db) (before ++ [a, b]) rest = [] := by
    intro first second stops perm
    refine lookedUp_of_not fun on => stops ?_
    have both := (looksOn_perm perm).mpr on
    rw [← List.singleton_append, ← List.append_assoc] at both
    exact both.of_append
  rw [foundAt_exchange few looksOn rfl, foundAt_exchange few' looksOn same.symm,
    List.append_cancel_left_eq, places, inTurn_perm swapped, lookedUp_perm swapped]
  split_ifs with onA onB onB
  · rw [take_merge_comm (nodup a) (nodup b)]
    exact ⟨fun either => ⟨either, fun off => absurd onA off, fun off => absurd onB off⟩,
      fun interchangeable => interchangeable.either⟩
  · rw [stop b a onB swapped, inTurn, List.append_nil, eq_comm, take_merge_left (nodup b)]
    exact ⟨fun begins => ⟨.inl begins, fun off => absurd onA off, fun _ => begins⟩,
      fun interchangeable => interchangeable.second onB⟩
  · rw [stop a b onA (.refl _), inTurn, List.append_nil, take_merge_left (nodup a)]
    exact ⟨fun begins => ⟨.inr begins, fun _ => begins, fun off => absurd onB off⟩,
      fun interchangeable => interchangeable.first onA⟩
  · rw [take_eq_iff]
    exact ⟨fun begins => ⟨.inl begins.1, fun _ => begins.2, fun _ => begins.1⟩,
      fun interchangeable => ⟨interchangeable.second onB, interchangeable.first onA⟩⟩

/-- Words with the same rows may change places. -/
theorem interchangeable_of_rows
    (same : ∀ p ∈ engine.catalogue db, anchorHits a p = anchorHits b p) :
    engine.Interchangeable db claimed s before a b rest v := by
  have added : addedBy (engine.pool db claimed s v) before a =
      addedBy (engine.pool db claimed s v) before b :=
    List.filter_congr fun p mem => by rw [same p (List.mem_of_mem_filter mem)]
  have begins : ∀ n, Begins n (addedBy (engine.pool db claimed s v) before a)
      (addedBy (engine.pool db claimed s v) before a) := fun n => List.prefix_rfl
  refine ⟨?_, ?_, ?_⟩ <;> rw [← added]
  · exact .inl (begins _)
  · exact fun _ => begins _
  · exact fun _ => begins _

/-- Where the search has stopped before, the two words are not looked up. -/
theorem foundAt_exchange_of_stop (few : Few engine db (before ++ a :: b :: rest))
    (stops : ¬ LooksOn (engine.catalogue db) before) :
    engine.foundAt db claimed s (before ++ a :: b :: rest) v =
      engine.foundAt db claimed s (before ++ b :: a :: rest) v := by
  have few' : Few engine db (before ++ b :: a :: rest) := fun word mem =>
    few word (((List.Perm.swap a b rest).append_left before).mem_iff.mp mem)
  have unread : ∀ words, lookedUp (engine.catalogue db) [] (before ++ words) =
      lookedUp (engine.catalogue db) [] before := fun words => lookedUp_stops before words stops
  rw [foundAt_eq few, foundAt_eq few', countP_foundBy few, countP_foundBy few', unread, unread]

theorem arranged_exchange {parts : TitleParts} {words words' : List Text}
    (exchange : Transposed List.length words words') (arranged : Arranged parts words) :
    Arranged parts words' :=
  ⟨exchange.perm.symm.trans arranged.1, exchange.descending arranged.2⟩

/-- Every process finds the same candidates exactly when a product is in the bucket, or no two
anchors of one length that may follow each other show which of them was first. -/
theorem findCandidates_reproducible_iff
    (few : Few engine db (anchorWords (engine.supplierParts s))) :
    (∀ enumerate enumerate', Lists enumerate → Lists enumerate' →
      { engine with enumerate := enumerate }.findCandidates db claimed s =
        { engine with enumerate := enumerate' }.findCandidates db claimed s) ↔
    (∃ p ∈ engine.catalogue db, p.matchKey = (engine.supplierParts s).matchKey) ∨
      ∀ before a b rest, Arranged (engine.supplierParts s) (before ++ a :: b :: rest) →
        a.length = b.length → LooksOn (engine.catalogue db) before →
          ∀ v, engine.Interchangeable db claimed s before a b rest v := by
  rw [findCandidates_iff_foundAt]
  refine or_congr_right ⟨fun same before a b rest arranged equal looksOn v => ?_,
    fun interchangeable words words' arranged arranged' => ?_⟩
  · have few' : Few engine db (before ++ a :: b :: rest) :=
      fun word mem => few word (arranged.1.mem_iff.mp mem)
    have exchanged := arranged_exchange (.mk before a b rest equal) arranged
    exact (foundAt_exchange_iff few' looksOn fun w _ => same _ _ arranged exchanged w).mp
      (same _ _ arranged exchanged v)
  · -- the one order is some exchanges away from the other
    have exchanges := exchanges_of_perm (arranged'.1.trans arranged.1.symm) arranged'.2 arranged.2
    induction exchanges using Relation.ReflTransGen.head_induction_on with
    | refl => exact fun v => rfl
    | @head words words₂ exchange _ ih =>
        have arranged₂ := arranged_exchange exchange arranged
        intro v
        refine Eq.trans ?_ (ih arranged₂ v)
        obtain ⟨before, a, b, rest, equal⟩ := exchange
        have few' : Few engine db (before ++ a :: b :: rest) :=
          fun word mem => few word (arranged.1.mem_iff.mp mem)
        by_cases looksOn : LooksOn (engine.catalogue db) before
        · exact Ranking.levels_eq (fun v above => (foundAt_exchange_iff few' looksOn above).mpr
            (interchangeable before a b rest arranged equal looksOn v)) v
        · exact foundAt_exchange_of_stop few' looksOn

end MatchingEngine

namespace EchoStore

/-- Two anchors of one length, that stand in the same products of the store. -/
def bothWords : Db := sampleDb ["Alpha Bravo"] ["Alpha Bravo Quest", "Quest", "Alpha Bravo Tale"]

open MatchingEngine in
/-- Whichever of the two a process looks up first, it finds the same. -/
theorem candidates_of_both_words : ∃ s ∈ bothWords.supplierProducts.rows,
    anchorWords (sampleEngine.supplierParts s) = ["alpha".toList, "bravo".toList] ∧
      ∀ enumerate enumerate', MatchingEngine.Lists enumerate → MatchingEngine.Lists enumerate' →
        { sampleEngine with enumerate := enumerate }.findCandidates bothWords
            (sampleEngine.claimedStoreProducts bothWords) s =
          { sampleEngine with enumerate := enumerate' }.findCandidates bothWords
            (sampleEngine.claimedStoreProducts bothWords) s := by
  have read : ∃ s ∈ bothWords.supplierProducts.rows,
      anchorWords (sampleEngine.supplierParts s) = ["alpha".toList, "bravo".toList] ∧
        Few sampleEngine bothWords (anchorWords (sampleEngine.supplierParts s)) ∧
        ∀ p ∈ sampleEngine.catalogue bothWords,
          anchorHits "alpha".toList p = anchorHits "bravo".toList p := by decide +kernel
  obtain ⟨s, mem, anchors, few, same⟩ := read
  refine ⟨s, mem, anchors, (findCandidates_reproducible_iff few).mpr (.inr ?_)⟩
  intro before a b rest arranged equal looksOn v
  have words : ∀ word ∈ before ++ a :: b :: rest,
      word = "alpha".toList ∨ word = "bravo".toList := by
    intro word isWord
    have anchor := arranged.1.mem_iff.mp isWord
    rw [anchors] at anchor
    simpa using anchor
  refine interchangeable_of_rows fun p isRow => ?_
  have shared := same p isRow
  rcases words a (by simp) with rfl | rfl <;> rcases words b (by simp) with rfl | rfl
  · rfl
  · exact shared
  · exact shared.symm
  · rfl

/-- Four anchors of one length; the store has words of the first of them only. -/
def fourWords : Db := sampleDb ["Alpha Bravo Candy Delta"] ["Alpha Quest"]

open MatchingEngine in
/-- A process that lists sets backwards does not look up the first anchor. -/
theorem candidates_by_listing : Lists id ∧ Lists List.reverse ∧
    ∃ s ∈ fourWords.supplierProducts.rows,
      (∀ anchor ∈ anchorWords (sampleEngine.supplierParts s),
        ((sampleEngine.catalogue fourWords).filter (anchorHits anchor)).length < 400) ∧
      { sampleEngine with enumerate := id }.findCandidates fourWords
          (sampleEngine.claimedStoreProducts fourWords) s ≠
        { sampleEngine with enumerate := List.reverse }.findCandidates fourWords
          (sampleEngine.claimedStoreProducts fourWords) s :=
  ⟨fun ws => List.Perm.refl ws, fun ws => List.reverse_perm ws, by decide +kernel⟩

end EchoStore

end FazerBridge
