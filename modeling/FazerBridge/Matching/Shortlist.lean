import FazerBridge.Matching.Candidates
import FazerBridge.Text.Words

/-!
# What the shortlist finds

The bucket of a store product is keyed by its title alone, while the engine looks
up the key of the parts it compares, which take the region and platform fields of
the API first.  A product whose compared parts are those of the supplier product
is therefore found exactly when its title says the same as the fields, or when the
bucket is empty and the first anchor reaches it among its 400 rows
(`mem_shortlist_iff`).
-/

namespace FazerBridge

open Text

/-! ## Words of a title -/

theorem prefix_of_mem_splitFrom {acc t w : Text} (mem : w ∈ splitFrom acc t) :
    w <:+: acc.reverse ++ t := by
  induction t generalizing acc with
  | nil =>
      rw [splitFrom] at mem
      split at mem
      · cases mem
      · rw [List.mem_singleton.mp mem, List.append_nil]
  | cons c t ih =>
      rw [splitFrom] at mem
      split at mem
      · have rest : splitFrom [] t = split t := rfl
        have later : w ∈ splitFrom [] t → w <:+: acc.reverse ++ c :: t := by
          intro mem
          have found := ih mem
          rw [List.reverse_nil, List.nil_append] at found
          exact (found.trans (List.suffix_cons c t).isInfix).trans
            (List.suffix_append acc.reverse (c :: t)).isInfix
        split at mem
        · exact later mem
        · rcases List.mem_cons.mp mem with rfl | mem
          · exact (List.prefix_append _ _).isInfix
          · exact later mem
      · have found := ih mem
        rwa [List.reverse_cons, List.append_assoc] at found

/-- A word of a text stands in it. -/
theorem isInfix_of_mem_split {t w : Text} (mem : w ∈ split t) : w <:+: t :=
  prefix_of_mem_splitFrom mem

theorem tokens_eq (u : Unicode) (title : Text) : (parseTitle u title).tokens =
    ((split (parseTitle u title).core).filter fun t => 1 < t.length || isDigits t).dedup := rfl

/-- A token stands in the core name. -/
theorem isInfix_of_mem_tokens {u : Unicode} {title t : Text}
    (mem : t ∈ (parseTitle u title).tokens) : t <:+: (parseTitle u title).core := by
  rw [tokens_eq] at mem
  exact isInfix_of_mem_split (List.mem_of_mem_filter (List.mem_dedup.mp mem))

theorem sqlLike_any (pattern s : Text) :
    sqlLike ('%' :: pattern) s = s.tails.any (sqlLike pattern) := by
  cases s <;> simp [sqlLike]

theorem sqlLike_append (pattern rest : Text) :
    sqlLike (pattern ++ ['%']) (pattern ++ rest) = true := by
  induction pattern with
  | nil =>
      rw [List.nil_append, List.nil_append, sqlLike_any]
      exact List.any_eq_true.mpr ⟨[], by simp, rfl⟩
  | cons c pattern ih =>
      rw [List.cons_append, List.cons_append]
      by_cases wild : c = '%'
      · rw [wild, sqlLike_any]
        refine List.any_eq_true.mpr ⟨pattern ++ rest, ?_, ih⟩
        exact (List.mem_tails _ _).mpr (List.suffix_cons '%' _)
      · simp [sqlLike, wild, ih]

/-- `LIKE` with wildcards at both ends finds what contains the word. -/
theorem sqlLike_of_isInfix {word text : Text} (stands : word <:+: text) :
    sqlLike ('%' :: word ++ ['%']) text = true := by
  obtain ⟨before, after, rfl⟩ := stands
  rw [List.cons_append, sqlLike_any]
  refine List.any_eq_true.mpr ⟨word ++ after, ?_, sqlLike_append word after⟩
  rw [List.append_assoc]
  exact (List.mem_tails _ _).mpr (List.suffix_append before _)

/-! ## Buckets -/

theorem firstAlias_mem {table : Aliases} {found : Text → Bool} {name : Text}
    (is : firstAlias table found = some name) : name ∈ table.map Prod.fst := by
  obtain ⟨entry, isEntry, rfl⟩ := Option.map_eq_some_iff.mp is
  exact List.mem_map_of_mem (List.mem_of_find?_eq_some isEntry)

theorem platformNames : ∀ name ∈ platformPatterns.map Prod.fst, name ≠ [] ∧ '|' ∉ name := by
  decide

theorem regionNames : ∀ name ∈ regionAliases.map Prod.fst, name ≠ [] := by decide

/-- An optional text that is not the empty one. -/
def Stated (text : Option Text) : Prop := text ≠ some []

theorem getD_injective {a b : Option Text} (statedA : Stated a) (statedB : Stated b)
    (same : a.getD [] = b.getD []) : a = b := by
  cases a with
  | none =>
      cases b with
      | none => rfl
      | some text => exact absurd (congrArg some same.symm) statedB
  | some text =>
      cases b with
      | none => exact absurd (congrArg some same) statedA
      | some text' => exact congrArg some same

/-- A platform and a region can be read off a key: no platform's name has a bar. -/
theorem bar_injective {a b r s : Text} (noBar : '|' ∉ a) (noBar' : '|' ∉ b)
    (same : a ++ '|' :: r = b ++ '|' :: s) : a = b ∧ r = s := by
  induction a generalizing b with
  | nil =>
      cases b with
      | nil => exact ⟨rfl, List.tail_eq_of_cons_eq same⟩
      | cons c b => exact absurd (List.head_eq_of_cons_eq same ▸ List.mem_cons_self) noBar'
  | cons c a ih =>
      cases b with
      | nil => exact absurd (List.head_eq_of_cons_eq same ▸ List.mem_cons_self) noBar
      | cons d b =>
          rw [List.cons_append, List.cons_append, List.cons.injEq] at same
          obtain ⟨rfl, rest⟩ := same
          obtain ⟨rfl, rfl⟩ := ih (fun mem => noBar (List.mem_cons_of_mem _ mem))
            (fun mem => noBar' (List.mem_cons_of_mem _ mem)) rest
          exact ⟨rfl, rfl⟩

variable {u : Unicode} {title : Text} {region platform : Option Text}

theorem extractPlatform_name {text name : Text} (is : extractPlatform u text = some name) :
    name ≠ [] ∧ '|' ∉ name :=
  platformNames name (firstAlias_mem is)

theorem extractRegion_name {text name : Text} (is : extractRegion u text = some name) :
    name ≠ [] :=
  regionNames name (firstAlias_mem is)

/-- The platform the parts state has a name from the table. -/
theorem parseTitleWith_platform {name : Text}
    (is : (parseTitleWith u title region platform).platform = some name) :
    name ≠ [] ∧ '|' ∉ name := by
  change (extractPlatform u (platform.getD [])).orElse (fun _ => extractPlatform u title) =
    some name at is
  cases fields : extractPlatform u (platform.getD []) with
  | some stated =>
      rw [fields] at is
      exact extractPlatform_name (fields.trans is)
  | none =>
      rw [fields] at is
      exact extractPlatform_name is

theorem parseTitleWith_region_stated :
    Stated (parseTitleWith u title region platform).region := by
  intro is
  obtain ⟨r, stated, resolved⟩ := Option.map_eq_some_iff.mp is
  cases code : extractRegion u r with
  | some name =>
      rw [code, Option.getD_some] at resolved
      exact extractRegion_name code resolved
  | none =>
      rw [code, Option.getD_none] at resolved
      rw [resolved] at stated
      simp [truthy] at stated

theorem bar_not_mem {stated : Option Text}
    (names : ∀ name, stated = some name → name ≠ [] ∧ '|' ∉ name) : '|' ∉ stated.getD [] := by
  cases stated with
  | none => exact List.not_mem_nil
  | some name => exact (names name rfl).2

theorem stated_of_names {stated : Option Text}
    (names : ∀ name, stated = some name → name ≠ [] ∧ '|' ∉ name) : Stated stated :=
  fun is => (names [] is).1 rfl

/-- The title's own key is the key of the parts when the title says what the fields say. -/
theorem matchKey_eq_iff :
    (parseTitle u title).matchKey = (parseTitleWith u title region platform).matchKey ↔
      (parseTitle u title).platform = (parseTitleWith u title region platform).platform ∧
        (parseTitle u title).region = (parseTitleWith u title region platform).region := by
  have core : (parseTitleWith u title region platform).core = (parseTitle u title).core := rfl
  have denomination : (parseTitleWith u title region platform).denomination =
    (parseTitle u title).denomination := rfl
  constructor
  · intro same
    unfold TitleParts.matchKey at same
    rw [core, denomination] at same
    simp only [List.append_assoc, List.cons_append, List.append_cancel_left_eq,
      List.cons.injEq, true_and] at same
    have own : ∀ name, (parseTitle u title).platform = some name → name ≠ [] ∧ '|' ∉ name :=
      fun name is => extractPlatform_name is
    have parts : ∀ name, (parseTitleWith u title region platform).platform = some name →
        name ≠ [] ∧ '|' ∉ name := fun name is => parseTitleWith_platform is
    obtain ⟨platforms, rest⟩ := bar_injective (bar_not_mem own) (bar_not_mem parts) same
    refine ⟨getD_injective (stated_of_names own) (stated_of_names parts) platforms,
      getD_injective (fun is => extractRegion_name is rfl) parseTitleWith_region_stated ?_⟩
    exact List.append_cancel_right rest
  · intro found
    obtain ⟨platforms, regions⟩ := found
    unfold TitleParts.matchKey
    rw [core, denomination, platforms, regions]

/-! ## The mirrored catalogue -/

/-- A store product as the crawl writes it. -/
def Titled (u : Unicode) (p : StoreProduct) : Prop :=
  p.nameNormalized = (parseTitle u p.name).core ∧ p.matchKey = (parseTitle u p.name).matchKey

/-- The store products after some crawls. -/
inductive Mirrored (u : Unicode) : StoreProducts → Prop
  | empty : Mirrored u .empty
  | crawl {db db' : Db} {items : List StoreCatalogItem} {stats : Stats}
      (before : Mirrored u db.storeProducts) (sync : StoreCatalogSync)
      (sameUnicode : sync.unicode = u) (now : Time)
      (ran : sync.run db now items = .ok (db', stats)) : Mirrored u db'.storeProducts

theorem titled_upsert {sync : StoreCatalogSync} {progress : Table StoreProduct.id × Stats}
    (titled : ∀ p ∈ progress.1.rows, Titled sync.unicode p) (item : StoreCatalogItem) :
    ∀ p ∈ (sync.upsert progress item).1.rows, Titled sync.unicode p := by
  have applied : ∀ id, Titled sync.unicode (sync.apply id item) := fun id => ⟨rfl, rfl⟩
  intro p mem
  unfold StoreCatalogSync.upsert at mem
  split at mem
  all_goals
    rcases Table.mem_save.mp mem with rfl | ⟨mem, -⟩
    · exact applied _
    · exact titled p mem

theorem titled_foldl {sync : StoreCatalogSync} (items : List StoreCatalogItem)
    {progress : Table StoreProduct.id × Stats}
    (titled : ∀ p ∈ progress.1.rows, Titled sync.unicode p) :
    ∀ p ∈ (items.foldl sync.upsert progress).1.rows, Titled sync.unicode p := by
  induction items generalizing progress with
  | nil => exact titled
  | cons item items ih => exact ih (titled_upsert titled item)

theorem Mirrored.titled {products : StoreProducts} (mirrored : Mirrored u products) :
    ∀ p ∈ products.rows, Titled u p := by
  induction mirrored with
  | empty => exact fun p mem => absurd mem List.not_mem_nil
  | @crawl db db' items stats before sync sameUnicode now ran ih =>
      unfold StoreCatalogSync.run StoreProducts.flush at ran
      dsimp only at ran
      split at ran
      · rename_i products flushed
        split at flushed
        · cases flushed
          cases ran
          subst sameUnicode
          exact titled_foldl items ih
        · cases flushed
      · cases ran

/-! ## Rows found -/

/-- Recording rows of a catalogue: the new ones go to the end. -/
theorem recordFound_eq {rows found hits : List StoreProduct}
    (unique : ∀ p ∈ rows, ∀ q ∈ rows, p.id = q.id → p = q) (known : ∀ p ∈ found, p ∈ rows)
    (listed : ∀ p ∈ hits, p ∈ rows) (nodup : hits.Nodup) :
    recordFound found hits = found ++ hits.filter (· ∉ found) := by
  induction hits generalizing found with
  | nil => simp [recordFound]
  | cons row hits ih =>
      have here := listed row List.mem_cons_self
      have later : ∀ p ∈ hits, p ∈ rows := fun p mem => listed p (List.mem_cons_of_mem _ mem)
      obtain ⟨fresh, nodup⟩ := List.nodup_cons.mp nodup
      have any : found.any (·.id = row.id) = true ↔ row ∈ found := by
        rw [List.any_eq_true]
        constructor
        · intro found
          obtain ⟨p, mem, same⟩ := found
          exact unique p (known p mem) row here (of_decide_eq_true same) ▸ mem
        · exact fun mem => ⟨row, mem, decide_eq_true rfl⟩
      unfold recordFound
      rw [List.foldl_cons]
      by_cases mem : row ∈ found
      · have kept : found.map (fun r => if r.id = row.id then row else r) = found := by
          refine (List.map_congr_left fun r isFound => ?_).trans (List.map_id found)
          split
          · exact (unique r (known r isFound) row here ‹_›).symm
          · rfl
        rw [if_pos (any.mpr mem), kept, List.filter_cons_of_neg (by simpa using mem)]
        exact ih known later nodup
      · rw [if_neg (fun is => mem (any.mp is)), List.filter_cons_of_pos (by simpa using mem)]
        have known' : ∀ p ∈ found ++ [row], p ∈ rows := by
          intro p isFound
          rcases List.mem_append.mp isFound with isFound | isFound
          · exact known p isFound
          · exact List.mem_singleton.mp isFound ▸ here
        refine (ih known' later nodup).trans ?_
        rw [List.append_assoc, List.singleton_append]
        congr 2
        refine List.filter_congr fun p isHit => ?_
        have other : p ≠ row := fun same => fresh (same ▸ isHit)
        simp [other]

/-- Which place of a filtered list an element has. -/
theorem mem_take_filter_iff {α : Type} [DecidableEq α] {l : List α} {a : α} {f : α → Bool}
    (nodup : l.Nodup) (mem : a ∈ l) (passes : f a = true) (n : ℕ) :
    a ∈ (l.filter f).take n ↔ (l.takeWhile (· ≠ a)).countP f < n := by
  obtain ⟨before, after, rfl, first⟩ := List.eq_append_cons_of_mem mem
  have unique : a ∉ after := (List.nodup_cons.mp (List.nodup_append.mp nodup).2.1).1
  have earlier : ∀ b ∈ before, decide (b ≠ a) = true :=
    fun b isBefore => decide_eq_true fun same => first (same ▸ isBefore)
  have upTo : (before ++ a :: after).takeWhile (· ≠ a) = before := by
    rw [List.takeWhile_append_of_pos earlier, List.takeWhile_cons_of_neg (by simp), List.append_nil]
  rw [upTo, List.filter_append, List.filter_cons_of_pos passes, List.countP_eq_length_filter,
    List.take_append]
  constructor
  · intro taken
    rcases List.mem_append.mp taken with early | late
    · exact absurd (List.mem_of_mem_filter (List.mem_of_mem_take early)) first
    · by_contra full
      rw [Nat.sub_eq_zero_of_le (not_lt.mp full), List.take_zero] at late
      cases late
  · intro room
    refine List.mem_append_right _ ?_
    obtain ⟨k, more⟩ := Nat.exists_eq_succ_of_ne_zero (Nat.sub_ne_zero_of_lt room)
    rw [more, List.take_succ_cons]
    exact List.mem_cons_self

namespace MatchingEngine

/-- The rows an anchor matches. -/
def anchorHits (anchor : Text) (p : StoreProduct) : Bool :=
  sqlLike ('%' :: anchor ++ ['%']) p.nameNormalized

variable {rows found : List StoreProduct} {anchors : List Text} {p : StoreProduct}

/-- A row that is found stays found. -/
theorem mem_anchoredProducts_of_found
    (unique : ∀ p ∈ rows, ∀ q ∈ rows, p.id = q.id → p = q) (nodup : rows.Nodup)
    (known : ∀ p ∈ found, p ∈ rows) (mem : p ∈ found) :
    p ∈ anchoredProducts rows anchors found := by
  induction anchors generalizing found with
  | nil => exact mem
  | cons anchor anchors ih =>
      have listed : ∀ q ∈ (rows.filter (anchorHits anchor)).take 400, q ∈ rows :=
        fun q hit => List.mem_of_mem_filter (List.mem_of_mem_take hit)
      have recorded := recordFound_eq unique known listed
        ((nodup.filter _).sublist (List.take_sublist _ _))
      have kept : p ∈ recordFound found ((rows.filter (anchorHits anchor)).take 400) := by
        rw [recorded]
        exact List.mem_append_left _ mem
      simp only [anchoredProducts]
      split
      · exact kept
      · refine ih (fun q isFound => ?_) kept
        exact (mem_recordFound isFound).elim (known q) (listed q)

/-- A row that the first anchor matches is found when it is among its first 400 rows. -/
theorem mem_anchoredProducts_iff {anchor : Text}
    (unique : ∀ p ∈ rows, ∀ q ∈ rows, p.id = q.id → p = q) (nodup : rows.Nodup) (mem : p ∈ rows)
    (hit : anchorHits anchor p = true) :
    p ∈ anchoredProducts rows (anchor :: anchors) [] ↔
      (rows.takeWhile (· ≠ p)).countP (anchorHits anchor) < 400 := by
  rw [← mem_take_filter_iff nodup mem hit]
  have listed : ∀ q ∈ (rows.filter (anchorHits anchor)).take 400, q ∈ rows :=
    fun q hit => List.mem_of_mem_filter (List.mem_of_mem_take hit)
  have recorded : recordFound [] ((rows.filter (anchorHits anchor)).take 400) =
      (rows.filter (anchorHits anchor)).take 400 := by
    rw [recordFound_eq unique (fun q none => absurd none List.not_mem_nil) listed
      ((nodup.filter _).sublist (List.take_sublist _ _))]
    simp
  change p ∈ (if 400 ≤ (recordFound [] ((rows.filter (anchorHits anchor)).take 400)).length then
    recordFound [] ((rows.filter (anchorHits anchor)).take 400)
    else anchoredProducts rows anchors
      (recordFound [] ((rows.filter (anchorHits anchor)).take 400))) ↔ _
  rw [recorded]
  split
  · rfl
  · rename_i short
    constructor
    · intro _
      have all : (rows.filter (anchorHits anchor)).take 400 = rows.filter (anchorHits anchor) := by
        refine List.take_of_length_le (not_lt.mp fun more => short ?_)
        rw [List.length_take]
        omega
      rw [all]
      exact List.mem_filter.mpr ⟨mem, hit⟩
    · exact mem_anchoredProducts_of_found unique nodup listed

variable {engine : MatchingEngine} {db : Db} {s : SupplierProduct} {parts : TitleParts}

/-- The store's own rows. -/
def catalogue (engine : MatchingEngine) (db : Db) : List StoreProduct :=
  db.storeProducts.rows.filter fun p => p.storeCode = engine.storeCode

theorem nodup_anchoredProducts
    (unique : ∀ p ∈ rows, ∀ q ∈ rows, p.id = q.id → p = q) (nodup : rows.Nodup)
    (known : ∀ p ∈ found, p ∈ rows) (distinct : found.Nodup) :
    (anchoredProducts rows anchors found).Nodup := by
  induction anchors generalizing found with
  | nil => exact distinct
  | cons anchor anchors ih =>
      have listed : ∀ q ∈ (rows.filter (anchorHits anchor)).take 400, q ∈ rows :=
        fun q hit => List.mem_of_mem_filter (List.mem_of_mem_take hit)
      have hits : ((rows.filter (anchorHits anchor)).take 400).Nodup :=
        (nodup.filter _).sublist (List.take_sublist _ _)
      have recorded : (recordFound found ((rows.filter (anchorHits anchor)).take 400)).Nodup := by
        rw [recordFound_eq unique known listed hits, List.nodup_append]
        refine ⟨distinct, hits.filter _, fun a isFound b isNew same => ?_⟩
        exact of_decide_eq_true (List.mem_filter.mp isNew).2 (same ▸ isFound)
      simp only [anchoredProducts]
      split
      · exact recorded
      · refine ih (fun q isFound => ?_) recorded
        exact (mem_recordFound isFound).elim (known q) (listed q)

theorem nodup_shortlist : (engine.shortlist db parts).Nodup := by
  have nodup : (engine.catalogue db).Nodup := db.storeProducts.table.nodup_rows.filter _
  have unique : ∀ p ∈ engine.catalogue db, ∀ q ∈ engine.catalogue db, p.id = q.id → p = q :=
    fun a isA b isB => db.storeProducts.table.eq_of_key_eq (List.mem_of_mem_filter isA)
      (List.mem_of_mem_filter isB)
  unfold shortlist
  dsimp only
  split
  · exact nodup_anchoredProducts unique nodup (fun p none => absurd none List.not_mem_nil)
      List.nodup_nil
  · exact nodup.filter _

/-- The bucket of `parts` is empty, and the first anchor matches `p` among its first 400 rows. -/
def Anchored (engine : MatchingEngine) (db : Db) (parts : TitleParts) (p : StoreProduct) : Prop :=
  (∀ q ∈ engine.catalogue db, q.matchKey ≠ parts.matchKey) ∧
    ∃ anchor, (parts.anchors engine.enumerate).head? = some anchor ∧
      ((engine.catalogue db).takeWhile (· ≠ p)).countP (anchorHits anchor) < 400

theorem anchorHits_of_mem_anchors (lists : ∀ ws, (engine.enumerate ws).Perm ws)
    (titled : Titled engine.unicode p) {anchor : Text}
    (mem : anchor ∈ (engine.storeParts p).anchors engine.enumerate) :
    anchorHits anchor p = true := by
  have token := (lists _).mem_iff.mp (List.mem_of_mem_filter (Ranking.mem_rank.mp mem))
  unfold anchorHits
  rw [titled.1]
  exact sqlLike_of_isInfix (isInfix_of_mem_tokens token)

/-- A store product with the compared parts of the supplier product is shortlisted exactly when
its title alone states the platform and the region of the parts, or no product of the store has
their key and the first anchor reaches it. -/
theorem mem_shortlist_iff (lists : ∀ ws, (engine.enumerate ws).Perm ws)
    (mirrored : Mirrored engine.unicode db.storeProducts) (mem : p ∈ db.storeProducts.rows)
    (own : p.storeCode = engine.storeCode) (same : engine.storeParts p = engine.supplierParts s) :
    p ∈ engine.shortlist db (engine.supplierParts s) ↔
      ((parseTitle engine.unicode p.name).platform = (engine.storeParts p).platform ∧
          (parseTitle engine.unicode p.name).region = (engine.storeParts p).region) ∨
        engine.Anchored db (engine.supplierParts s) p := by
  have titled := mirrored.titled p mem
  have row : p ∈ engine.catalogue db := List.mem_filter.mpr ⟨mem, decide_eq_true own⟩
  have unique : ∀ p ∈ engine.catalogue db, ∀ q ∈ engine.catalogue db, p.id = q.id → p = q :=
    fun a isA b isB => db.storeProducts.table.eq_of_key_eq (List.mem_of_mem_filter isA)
      (List.mem_of_mem_filter isB)
  have nodup : (engine.catalogue db).Nodup := db.storeProducts.table.nodup_rows.filter _
  have bucket : p.matchKey = (engine.supplierParts s).matchKey ↔
      (parseTitle engine.unicode p.name).platform = (engine.storeParts p).platform ∧
        (parseTitle engine.unicode p.name).region = (engine.storeParts p).region := by
    rw [titled.2, ← same]
    exact matchKey_eq_iff
  rw [← bucket, ← same]
  change p ∈ (if ((engine.catalogue db).filter fun q =>
      q.matchKey = (engine.storeParts p).matchKey).isEmpty then
    anchoredProducts (engine.catalogue db)
      (((engine.storeParts p).anchors engine.enumerate).take 3) []
    else (engine.catalogue db).filter fun q => q.matchKey = (engine.storeParts p).matchKey) ↔ _
  split
  · rename_i empty
    rw [List.isEmpty_iff, List.filter_eq_nil_iff] at empty
    simp only [decide_eq_true_eq] at empty
    rw [or_iff_right (empty p row), Anchored, and_iff_right empty]
    cases anchors : (engine.storeParts p).anchors engine.enumerate with
    | nil => simp [anchoredProducts]
    | cons anchor rest =>
        have hit := anchorHits_of_mem_anchors lists titled (anchors ▸ List.mem_cons_self)
        rw [List.take_succ_cons, mem_anchoredProducts_iff unique nodup row hit]
        simp
  · rename_i some_
    rw [List.isEmpty_iff, List.filter_eq_nil_iff] at some_
    simp only [decide_eq_true_eq] at some_
    rw [List.mem_filter, and_iff_right row, decide_eq_true_eq]
    exact (or_iff_left fun anchored => some_ anchored.1).symm

end MatchingEngine

namespace EchoStore

/-- A game key for Europe; the supplier states the region beside the title. -/
def europeanItem : SupplierItem := { sampleItem 1 "Portal" with region := some "EU".toList }

def europeanPull : SupplierCatalogSync :=
  ⟨Settings.default, Unicode.ascii, "fazercards", fun item => String.ofList item.name⟩

def europeanKey : SupplierProduct :=
  europeanPull.apply (SupplierCatalogSync.newRow 1 1 europeanItem) europeanItem

/-- The store states the region of the first product beside the title, of the second in it. -/
def crawled : Except DbError (Db × Stats) :=
  StoreCatalogSync.run ⟨Unicode.ascii, "g2a"⟩ emptyDb 0
    [{ productExtId := "1", name := "Portal".toList, region := some "EU".toList },
      { productExtId := "2", name := "Portal Europe".toList }]

def crawledDb : Db := (crawled.toOption.getD (emptyDb, [])).1

/-- The product of the store with this place in its crawl. -/
def crawledProduct (i : ℕ) : StoreProduct :=
  (crawledDb.storeProducts.rows[i]?).getD (StoreCatalogSync.apply ⟨Unicode.ascii, "g2a"⟩ 0
    { productExtId := "", name := [] })

theorem mirrored_crawled : Mirrored sampleEngine.unicode crawledDb.storeProducts := by
  have ok : crawled.isOk = true := by decide +kernel
  exact .crawl .empty ⟨Unicode.ascii, "g2a"⟩ rfl 0 (eq_ok_getD (a := (emptyDb, [])) ok)

/-- A product whose title states its region. -/
theorem shortlisted_titled :
    crawledProduct 1 ∈ sampleEngine.shortlist crawledDb (sampleEngine.supplierParts europeanKey) :=
  (MatchingEngine.mem_shortlist_iff (fun ws => List.Perm.refl ws) mirrored_crawled
    (by decide +kernel) (by decide +kernel) (by decide +kernel)).mpr (.inl (by decide +kernel))

/-- The product with the same region beside its title has the same parts and is not found. -/
theorem not_shortlisted_field :
    europeanKey ∈ (europeanPull.run emptyDb 0 [europeanItem]).1.supplierProducts.rows ∧
      Mirrored sampleEngine.unicode crawledDb.storeProducts ∧
      crawledProduct 0 ∈ crawledDb.storeProducts.rows ∧
      (crawledProduct 0).storeCode = sampleEngine.storeCode ∧
      sampleEngine.storeParts (crawledProduct 0) = sampleEngine.supplierParts europeanKey ∧
      crawledProduct 0 ∉
        sampleEngine.shortlist crawledDb (sampleEngine.supplierParts europeanKey) :=
  ⟨by decide +kernel, mirrored_crawled, by decide +kernel, by decide +kernel, by decide +kernel,
    by decide +kernel⟩

end EchoStore

end FazerBridge
