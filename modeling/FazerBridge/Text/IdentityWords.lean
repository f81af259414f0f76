import FazerBridge.Text.Packaging

/-!
# The words of the product's name

`parse_title` is to keep every word that is not packaging.  It loses one where a phrase
forms only after another was struck, where "steam gift" takes the gift of a gift card, where
a key word stands in a word next to a point, and where the tail of the core is any two
letters: it keeps the name exactly if none of this happens (`keepsName_iff`).

Each of these can be told from the words of the title.  Between words that stay each stretch
of packaging is stripped on its own, so a phrase takes such a word only if it comes together
with it once the stretches around were stripped of the phrases before it.
-/

namespace FazerBridge

namespace CoreName

open Text Striking

variable {u : Unicode} {title : Text} {w : Text} {ws p : List Text} {i j : ℕ}

/-! ## What is packaging -/

/-- The phrases that a replace strikes, and the key words. -/
def packagingPhrases : List (List Text) := packagingWords ++ keyWords.map fun k => [k]

def protectedWords : List (List Text) := protectedPhrases.map split

/-- The phrase stands in the words from place `j` on. -/
def OccursAt (p ws : List Text) (j : ℕ) : Prop := p <+: ws.drop j

instance : Decidable (OccursAt p ws j) := inferInstanceAs (Decidable (_ <+: _))

/-- The word at place `i` is part of an occurrence of a packaging phrase. -/
def Covered (ws : List Text) (i : ℕ) : Prop :=
  ∃ p ∈ packagingPhrases, ∃ j, j ≤ i ∧ i < j + p.length ∧ OccursAt p ws j

instance : Decidable (Covered ws i) := inferInstanceAs (Decidable (∃ p ∈ packagingPhrases, _))

/-- The two-letter aliases of a region. -/
def tailAliases (region : Option Text) : List Text :=
  ((regionAliases.filter fun entry => region = some entry.1).flatMap Prod.snd).filter
    fun a => a.length = 2

/-- The word is not packaging, and not a two-letter alias of the region at the end. -/
structure Identifies (u : Unicode) (title : Text) (t : PlacedWord) : Prop where
  stands : t ∈ (numberedWords u title).zipIdx
  uncovered : ¬ Covered (numberedWords u title) t.2
  inner : ¬ (t.2 + 1 = (numberedWords u title).length ∧ t.1 ∈ tailAliases (extractRegion u title))

/-- The words of the name and of the protected phrases survive. -/
structure KeepsName (u : Unicode) (title : Text) : Prop where
  words : ∀ t, Identifies u title t → t ∈ survivors u title
  phrases : ∀ p ∈ protectedWords, ∀ j, OccursAt p (numberedWords u title) j →
    ∀ t ∈ p.zipIdx j, t ∈ survivors u title

/-- A word of the name, or the gift of a gift card. -/
def Wanted (u : Unicode) (title : Text) (t : PlacedWord) : Prop :=
  Identifies u title t ∨
    (t.1 = "gift".toList ∧ (numberedWords u title)[t.2 + 1]? = some "card".toList)

instance : DecidablePred (Identifies u title) := fun t =>
  decidable_of_iff (t ∈ (numberedWords u title).zipIdx ∧ ¬ Covered (numberedWords u title) t.2 ∧
    ¬ (t.2 + 1 = (numberedWords u title).length ∧ t.1 ∈ tailAliases (extractRegion u title)))
    ⟨fun ⟨stands, uncovered, inner⟩ => ⟨stands, uncovered, inner⟩,
      fun name => ⟨name.stands, name.uncovered, name.inner⟩⟩

instance : DecidablePred (Wanted u title) := fun t =>
  inferInstanceAs (Decidable (Identifies u title t ∨ _))

/-- The words of the title, each stretch between wanted ones stripped of the phrases. -/
def stretches (u : Unicode) (title : Text) (ps : List (List Text)) : List PlacedWord :=
  strikeBetween Prod.fst (Wanted u title) ps [] (numberedWords u title).zipIdx

/-- What is left of words that stand alone. -/
def remainder (ws : List Text) : List Text :=
  (strikeAll id packagingWords ws).filter fun w => w ∉ keyWords

/-- None of the four ways to lose a word of the name is open. -/
structure Undisturbed (u : Unicode) (title : Text) : Prop where
  /-- No phrase comes together with a wanted word once the stretches between these were
  stripped of the phrases before it. -/
  unformed : ∀ earlier p later, packagingWords = earlier ++ p :: later →
    ∀ copy ∈ hits Prod.fst p (stretches u title earlier), ∀ t ∈ copy, ¬ Wanted u title t
  /-- No word contains a key word without being one. -/
  keyless : ∀ w ∈ numberedWords u title, keyParts w = [w] ∨ w ∈ keyWords
  /-- With a region, a word of the name that ends in two letters is not the last to remain,
  or is all that remains and at most three characters long. -/
  tail : (extractRegion u title).isSome → ∀ t, Identifies u title t → tailParts t.1 = [t.1] ∨
    remainder ((numberedWords u title).drop (t.2 + 1)) ≠ [] ∨
    (remainder ((numberedWords u title).take t.2) = [] ∧ t.1.length ≤ 3)

/-! ## The vocabulary -/

/-- The pattern of the key words leaves nothing of one. -/
theorem keyParts_of_keyWord : ∀ w ∈ keyWords, keyParts w = [] := by decide +kernel

/-- The two-letter aliases of all regions. -/
def shortAliases : List Text := (regionAliases.flatMap Prod.snd).filter fun a => a.length = 2

/-- The two-letter aliases hide no key word. -/
theorem keyless_shortAliases : ∀ w ∈ shortAliases, keyParts w = [w] := by decide +kernel

/-- What the phrases that are struck look like. -/
structure Phrase (p : List Text) : Prop where
  keyless : ∀ w ∈ p, '-' ∉ w → keyParts w = [w] ∨ w ∈ keyWords
  whole : "giftcard".toList ∉ p
  pass : "pass".toList ∉ p
  game : "game".toList ∈ p → p = ["game".toList, "of".toList, "the".toList, "year".toList]
  card : "card".toList ∈ p → p = ["prepaid".toList, "card".toList] ∨
    p = ["key".toList, "card".toList]

-- one evaluation of the whole vocabulary
/-- Every phrase that is struck looks like that. -/
theorem phrase_packaging : ∀ p ∈ packagingWords, Phrase p := by
  have all : ∀ p ∈ packagingWords, (∀ w ∈ p, '-' ∉ w → keyParts w = [w] ∨ w ∈ keyWords) ∧
      "giftcard".toList ∉ p ∧ "pass".toList ∉ p ∧
      ("game".toList ∈ p → p = ["game".toList, "of".toList, "the".toList, "year".toList]) ∧
      ("card".toList ∈ p → p = ["prepaid".toList, "card".toList] ∨
        p = ["key".toList, "card".toList]) := by decide +kernel
  intro p mem
  obtain ⟨keyless, whole, pass, game, card⟩ := all p mem
  exact ⟨keyless, whole, pass, game, card⟩

/-- A word of a packaging phrase hides no key word. -/
theorem keyless_packaging (isPhrase : p ∈ packagingPhrases) (mem : w ∈ p) (dashless : '-' ∉ w) :
    keyParts w = [w] ∨ w ∈ keyWords := by
  rcases List.mem_append.mp isPhrase with struck | single
  · exact (phrase_packaging p struck).keyless w mem dashless
  · obtain ⟨k, isKey, rfl⟩ := List.mem_map.mp single
    obtain rfl := List.mem_singleton.mp mem
    exact .inr isKey

/-- Neither pattern touches a word of a protected phrase. -/
theorem kept_protected : ∀ p ∈ protectedWords, ∀ w ∈ p, keyParts w = [w] ∧ tailParts w = [w] := by
  decide +kernel

/-- The protected phrases. -/
theorem protected_cases : ∀ p ∈ protectedWords, p = ["game".toList, "pass".toList] ∨
    p = ["gift".toList, "card".toList] ∨ p = ["giftcard".toList] := by decide

theorem mem_shortAliases {region : Option Text} (mem : w ∈ tailAliases region) :
    w ∈ shortAliases := by
  obtain ⟨isAlias, short⟩ := List.mem_filter.mp mem
  obtain ⟨entry, isEntry, isAlias⟩ := List.mem_flatMap.mp isAlias
  exact List.mem_filter.mpr
    ⟨List.mem_flatMap.mpr ⟨entry, (List.mem_filter.mp isEntry).1, isAlias⟩, short⟩

/-! ## Places -/

/-- The words of an occurrence are those of its phrase. -/
theorem getElem_of_occursAt (occurs : OccursAt p ws j) (start : j ≤ i) (end_ : i < j + p.length) :
    ws[i]? = p[i - j]? := by
  obtain ⟨rest, parts⟩ := occurs
  have place : (ws.drop j)[i - j]? = ws[i]? := by rw [List.getElem?_drop, Nat.add_sub_cancel' start]
  rw [← place, ← parts, List.getElem?_append_left (by omega)]

/-- The words of an occurrence stand at their places. -/
theorem mem_of_occursAt {t : PlacedWord} (occurs : OccursAt p ws j) (mem : t ∈ p.zipIdx j) :
    t ∈ ws.zipIdx := by
  have word := List.mem_zipIdx_iff_le_and_getElem?_sub.mp mem
  have place := List.mem_zipIdx mem
  rw [List.mem_zipIdx_iff_getElem?, getElem_of_occursAt occurs place.1 place.2.1, word.2]

/-- A placed word is the word of its place. -/
theorem eq_of_place {s t : PlacedWord} (stands : s ∈ ws.zipIdx) (stands' : t ∈ ws.zipIdx)
    (same : s.2 = t.2) : s = t := by
  rw [List.mem_zipIdx_iff_getElem?] at stands stands'
  rw [same, stands'] at stands
  exact Prod.ext (Option.some.inj stands).symm same

theorem mem_of_stands {t : PlacedWord} (stands : t ∈ ws.zipIdx) : t.1 ∈ ws :=
  List.mem_of_getElem? (List.mem_zipIdx_iff_getElem?.mp stands)

theorem occursAt_pair {x y : Text} (first : ws[i]? = some x) (second : ws[i + 1]? = some y) :
    OccursAt [x, y] ws i := by
  obtain ⟨fits, rfl⟩ := List.getElem?_eq_some_iff.mp first
  obtain ⟨fits', rfl⟩ := List.getElem?_eq_some_iff.mp second
  rw [OccursAt, List.drop_eq_getElem_cons fits, List.drop_eq_getElem_cons fits']
  exact ⟨_, rfl⟩

/-- A key word is an occurrence of itself. -/
theorem covered_of_keyWord {t : PlacedWord} (stands : t ∈ ws.zipIdx) (isKey : t.1 ∈ keyWords) :
    Covered ws t.2 := by
  refine ⟨[t.1], List.mem_append_right _ (List.mem_map_of_mem isKey), t.2, Nat.le_refl _,
    Nat.lt_succ_self _, ?_⟩
  obtain ⟨fits, word⟩ := List.getElem?_eq_some_iff.mp (List.mem_zipIdx_iff_getElem?.mp stands)
  rw [OccursAt, List.drop_eq_getElem_cons fits, word]
  exact ⟨_, rfl⟩

/-- Packaging hides no key word. -/
theorem keyless_of_covered {t : PlacedWord} (covered : Covered (numberedWords u title) t.2)
    (stands : t ∈ (numberedWords u title).zipIdx) : keyParts t.1 = [t.1] ∨ t.1 ∈ keyWords := by
  obtain ⟨p, isPhrase, j, start, end_, occurs⟩ := covered
  have word := List.mem_zipIdx_iff_getElem?.mp stands
  rw [getElem_of_occursAt occurs start end_] at word
  exact keyless_packaging isPhrase (List.mem_of_getElem? word)
    (dash_not_mem t.1 (mem_of_stands stands))

/-- The words before a place, and those after it. -/
theorem around_place {t : PlacedWord} (stands : t ∈ ws.zipIdx) : ∃ before after,
    ws.zipIdx = before ++ t :: after ∧ before.map Prod.fst = ws.take t.2 ∧
      after.map Prod.fst = ws.drop (t.2 + 1) := by
  obtain ⟨before, after, parts⟩ := List.append_of_mem stands
  obtain ⟨vs, rest, rfl, early, late⟩ := List.zipIdx_eq_append_iff.mp parts
  obtain ⟨w, rest, rfl, rfl, after_eq⟩ := List.zipIdx_eq_cons_iff.mp late.symm
  refine ⟨before, after, parts, ?_, ?_⟩
  · rw [early, List.zipIdx_map_fst]
    simp
  · rw [after_eq, List.zipIdx_map_fst]
    simp

/-! ## What is struck -/

/-- What `_strip_noise` strikes of a title. -/
def struckWords (u : Unicode) (title : Text) : List (List PlacedWord) :=
  struck Prod.fst packagingWords (numberedWords u title).zipIdx

/-- Each word of the title is left or struck. -/
theorem perm_struck : (numberedWords u title).zipIdx.Perm
    (unstruck u title ++ (struckWords u title).flatten) :=
  perm_strikeAll Prod.fst packagingWords_ne_nil _

theorem stands_of_unstruck {t : PlacedWord} (mem : t ∈ unstruck u title) :
    t ∈ (numberedWords u title).zipIdx :=
  perm_struck.mem_iff.mpr (List.mem_append_left _ mem)

theorem stands_of_struck {hit : List PlacedWord} {t : PlacedWord} (isHit : hit ∈ struckWords u title)
    (mem : t ∈ hit) : t ∈ (numberedWords u title).zipIdx :=
  perm_struck.mem_iff.mpr (List.mem_append_right _ (List.mem_flatten_of_mem isHit mem))

/-- A word of the title is left, or an occurrence took it. -/
theorem unstruck_or_struck {t : PlacedWord} (stands : t ∈ (numberedWords u title).zipIdx) :
    t ∈ unstruck u title ∨ ∃ hit ∈ struckWords u title, t ∈ hit := by
  rcases List.mem_append.mp (perm_struck.mem_iff.mp stands) with left | removed
  · exact .inl left
  · exact .inr (List.mem_flatten.mp removed)

theorem nodup_unstruck : (unstruck u title).Nodup := by
  have nodup : (numberedWords u title).zipIdx.Nodup :=
    List.Nodup.of_map Prod.snd (List.nodup_zipIdx_map_snd _)
  exact nodup.sublist (strikeAll_sublist Prod.fst packagingWords _)

/-- What an occurrence took is not left. -/
theorem not_unstruck_of_struck {hit : List PlacedWord} {t : PlacedWord}
    (isHit : hit ∈ struckWords u title) (mem : t ∈ hit) : t ∉ unstruck u title := by
  have nodup : (numberedWords u title).zipIdx.Nodup :=
    List.Nodup.of_map Prod.snd (List.nodup_zipIdx_map_snd _)
  have apart := List.disjoint_of_nodup_append (perm_struck.nodup_iff.mp nodup)
  exact fun left => apart left (List.mem_flatten_of_mem isHit mem)

/-! ## What survives -/

/-- A word that is left survives the pattern of the key words whole, if it hides none. -/
theorem mem_unkeyed {t : PlacedWord} (mem : t ∈ unstruck u title) (kept : keyParts t.1 = [t.1]) :
    t ∈ unkeyed u title := by
  refine List.mem_flatMap.mpr ⟨t, mem, ?_⟩
  rw [kept]
  exact List.mem_singleton_self t

/-- What the pattern of the key words leaves is part of a word that was left. -/
theorem origin_of_unkeyed {t : PlacedWord} (mem : t ∈ unkeyed u title) :
    ∃ s ∈ unstruck u title, s.2 = t.2 ∧ t.1 ∈ keyParts s.1 := by
  obtain ⟨s, left, mem⟩ := List.mem_flatMap.mp mem
  obtain ⟨part, isPart, rfl⟩ := List.mem_map.mp mem
  exact ⟨s, left, rfl, isPart⟩

theorem isWord_of_unkeyed {t : PlacedWord} (mem : t ∈ unkeyed u title) : IsWord t.1 := by
  obtain ⟨s, -, -, part⟩ := origin_of_unkeyed mem
  exact isWord_of_mem_split t.1 part

/-- Only the last word can lose its tail. -/
theorem mem_cutTail {ts : List PlacedWord} {t : PlacedWord} (mem : t ∈ ts)
    (kept : t ∈ ts.getLast? → tailParts t.1 = [t.1]) : t ∈ cutTail ts := by
  rcases List.eq_nil_or_concat ts with rfl | ⟨before, last, rfl⟩
  · cases mem
  · rw [List.concat_eq_append] at mem kept ⊢
    rw [cutTail, List.dropLast_concat, List.getLast?_concat]
    rcases List.mem_append.mp mem with early | isLast
    · exact List.mem_append_left _ early
    · obtain rfl := List.mem_singleton.mp isLast
      refine List.mem_append_right _ (List.mem_flatMap.mpr ⟨t, List.mem_singleton_self t, ?_⟩)
      rw [kept List.getLast?_concat]
      exact List.mem_singleton_self t

/-- A word survives unless it is the last one and the tail that is cut is its own. -/
theorem mem_survivors {t : PlacedWord} (mem : t ∈ unkeyed u title)
    (kept : Tailed u title → t ∈ (unkeyed u title).getLast? → tailParts t.1 = [t.1]) :
    t ∈ survivors u title := by
  unfold survivors
  split
  · exact mem_cutTail mem (kept ‹_›)
  · exact mem

/-- What survives comes from a word that was left, whole or cut. -/
theorem origin_of_survivor {t : PlacedWord} (mem : t ∈ survivors u title) :
    ∃ s ∈ unkeyed u title, s.2 = t.2 ∧ (t.1 = s.1 ∨ t.1.length < s.1.length) := by
  have cut : t ∈ cutTail (unkeyed u title) →
      ∃ s ∈ unkeyed u title, s.2 = t.2 ∧ (t.1 = s.1 ∨ t.1.length < s.1.length) := by
    intro mem
    rcases List.mem_append.mp mem with early | cutOff
    · exact ⟨t, List.dropLast_subset _ early, rfl, .inl rfl⟩
    · obtain ⟨s, isLast, cutOff⟩ := List.mem_flatMap.mp cutOff
      obtain ⟨part, isPart, rfl⟩ := List.mem_map.mp cutOff
      have mem := List.mem_of_getLast? (Option.mem_toList.mp isLast)
      refine ⟨s, mem, rfl, ?_⟩
      rcases tailParts_cases (isWord_of_unkeyed mem) with whole | shorter
      · rw [whole] at isPart
        exact .inl (List.mem_singleton.mp isPart)
      · exact .inr (shorter part isPart)
  unfold survivors at mem
  split at mem
  · exact cut mem
  · exact ⟨t, mem, rfl, .inl rfl⟩

/-- A struck word does not survive. -/
theorem not_survives_of_struck {hit : List PlacedWord} {t : PlacedWord}
    (isHit : hit ∈ struckWords u title) (mem : t ∈ hit) : t ∉ survivors u title := by
  intro survives
  obtain ⟨s, left, place, -⟩ := origin_of_survivor survives
  obtain ⟨r, unstruck, place', -⟩ := origin_of_unkeyed left
  have same : r = t := eq_of_place (stands_of_unstruck unstruck) (stands_of_struck isHit mem)
    (place'.trans place)
  exact not_unstruck_of_struck isHit mem (same ▸ unstruck)

/-- The patterns of a title whose words hide no key word only drop key words. -/
theorem unkeyed_eq (keyless : ∀ w ∈ numberedWords u title, keyParts w = [w] ∨ w ∈ keyWords) :
    unkeyed u title = (unstruck u title).filter fun t => t.1 ∉ keyWords := by
  have general : ∀ ts : List PlacedWord, (∀ t ∈ ts, keyParts t.1 = [t.1] ∨ t.1 ∈ keyWords) →
      keyed ts = ts.filter fun t => t.1 ∉ keyWords := by
    intro ts keyless
    induction ts with
    | nil => rfl
    | cons t ts ih =>
        have rest := ih fun s mem => keyless s (List.mem_cons_of_mem t mem)
        have step : keyed (t :: ts) = (keyParts t.1).map (fun part => (part, t.2)) ++ keyed ts := rfl
        rw [step, rest]
        by_cases isKey : t.1 ∈ keyWords
        · rw [keyParts_of_keyWord t.1 isKey, List.filter_cons_of_neg (by simpa using isKey)]
          rfl
        · rw [(keyless t List.mem_cons_self).resolve_right isKey,
            List.filter_cons_of_pos (by simpa using isKey)]
          rfl
  exact general _ fun t mem => keyless t.1 (mem_of_stands (stands_of_unstruck mem))

/-! ## Protected phrases -/

/-- The places of the words go up. -/
theorem ordered_zipIdx (ws : List Text) : ws.zipIdx.Pairwise fun s t => s.2 < t.2 := by
  have places := List.pairwise_lt_range' (s := 0) (n := ws.length)
  rw [← List.zipIdx_map_snd, List.pairwise_map] at places
  exact places

section Neighbours

variable {left : List PlacedWord} {a b x : PlacedWord}

/-- Where two words follow each other, only the second can stand at the next place. -/
theorem eq_next (ordered : left.Pairwise fun s t => s.2 < t.2) (together : [a, b] <:+: left)
    (mem : x ∈ left) (next : x.2 = a.2 + 1) : x = b := by
  obtain ⟨before, after, rfl⟩ := together
  simp only [List.append_assoc, List.cons_append, List.nil_append, List.pairwise_append,
    List.pairwise_cons, List.mem_cons] at ordered
  obtain ⟨-, ⟨aBefore, bBefore, -⟩, early⟩ := ordered
  simp only [List.append_assoc, List.cons_append, List.nil_append, List.mem_append,
    List.mem_cons] at mem
  rcases mem with mem | rfl | rfl | mem
  · have := early x mem a (.inl rfl)
    omega
  · omega
  · rfl
  · have := bBefore x mem
    have := aBefore b (.inl rfl)
    omega

/-- Where two words follow each other, only the first can stand at the place before. -/
theorem eq_previous (ordered : left.Pairwise fun s t => s.2 < t.2) (together : [a, b] <:+: left)
    (mem : x ∈ left) (next : x.2 + 1 = b.2) : x = a := by
  obtain ⟨before, after, rfl⟩ := together
  simp only [List.append_assoc, List.cons_append, List.nil_append, List.pairwise_append,
    List.pairwise_cons, List.mem_cons] at ordered
  obtain ⟨-, ⟨aBefore, bBefore, -⟩, early⟩ := ordered
  simp only [List.append_assoc, List.cons_append, List.nil_append, List.mem_append,
    List.mem_cons] at mem
  rcases mem with mem | rfl | rfl | mem
  · have := early x mem a (.inl rfl)
    have := aBefore b (.inl rfl)
    omega
  · rfl
  · omega
  · have := bBefore x mem
    omega

end Neighbours

/-- The word is part of an occurrence of a protected phrase. -/
def Protected (u : Unicode) (title : Text) (t : PlacedWord) : Prop :=
  ∃ p ∈ protectedWords, ∃ j, OccursAt p (numberedWords u title) j ∧ t ∈ p.zipIdx j

/-- A word of a protected phrase, with its neighbour. -/
theorem protected_cases_of {t : PlacedWord} (isProtected : Protected u title t) :
    t.1 = "giftcard".toList ∨ t.1 = "pass".toList ∨
    (t.1 = "game".toList ∧ Protected u title ("pass".toList, t.2 + 1)) ∨
    (t.1 = "gift".toList ∧ (numberedWords u title)[t.2 + 1]? = some "card".toList) ∨
    (t.1 = "card".toList ∧ ∃ i, i + 1 = t.2 ∧ Protected u title ("gift".toList, i)) := by
  obtain ⟨p, isPhrase, j, occurs, mem⟩ := isProtected
  rcases protected_cases p isPhrase with rfl | rfl | rfl
  · rcases List.mem_cons.mp mem with rfl | mem
    · refine .inr (.inr (.inl ⟨rfl, _, isPhrase, j, occurs, ?_⟩))
      exact List.mem_cons_of_mem _ (List.mem_singleton_self _)
    · obtain rfl := List.mem_singleton.mp mem
      exact .inr (.inl rfl)
  · rcases List.mem_cons.mp mem with rfl | mem
    · refine .inr (.inr (.inr (.inl ⟨rfl, ?_⟩)))
      have place := getElem_of_occursAt (i := j + 1) occurs (Nat.le_succ j) (by simp)
      rw [place, Nat.add_sub_cancel_left]
      rfl
    · obtain rfl := List.mem_singleton.mp mem
      exact .inr (.inr (.inr (.inr ⟨rfl, j, rfl, _, isPhrase, j, occurs, List.mem_cons_self⟩)))
  · obtain rfl := List.mem_singleton.mp mem
    exact .inl rfl

/-- As long as the protected words are all there, a struck occurrence takes none of them but
the gift of a gift card. -/
theorem spared_protected {left hit : List PlacedWord} {t : PlacedWord}
    (sub : left.Sublist (numberedWords u title).zipIdx) (there : ∀ t, Protected u title t → t ∈ left)
    (isHit : hit ∈ struckWords u title) (together : hit <:+: left)
    (giftCards : ∀ t ∈ hit, t.1 = "gift".toList →
      (numberedWords u title)[t.2 + 1]? ≠ some "card".toList)
    (mem : t ∈ hit) : ¬ Protected u title t := by
  intro isProtected
  have ordered := (ordered_zipIdx (numberedWords u title)).sublist sub
  have isPhrase : hit.map Prod.fst ∈ packagingWords := (struck_together Prod.fst isHit).1
  have apart := phrase_packaging _ isPhrase
  have word : t.1 ∈ hit.map Prod.fst := List.mem_map_of_mem mem
  rcases protected_cases_of isProtected with whole | pass | ⟨game, next⟩ | ⟨gift, card⟩ |
    ⟨card, i, place, previous⟩
  · exact apart.whole (whole ▸ word)
  · exact apart.pass (pass ▸ word)
  · obtain ⟨a, rest, rfl, first, spells⟩ := List.map_eq_cons_iff.mp (apart.game (game ▸ word))
    obtain ⟨b, rest, rfl, second, spells⟩ := List.map_eq_cons_iff.mp spells
    -- "game" stands first in "game of the year" only
    have isFirst : t = a := by
      rcases List.mem_cons.mp mem with same | mem
      · exact same
      · have later : t.1 ∈ (b :: rest).map Prod.fst := List.mem_map_of_mem mem
        rw [List.map_cons, second, spells, game] at later
        exact absurd later (by decide)
    have pair : [a, b] <:+: left := by
      have start : [a, b] <+: a :: b :: rest := ⟨rest, rfl⟩
      exact start.isInfix.trans together
    have same := eq_next ordered pair (there _ next) (by rw [isFirst])
    have other : "pass".toList ≠ "of".toList := by decide
    rw [← same] at second
    exact other second
  · exact giftCards t mem gift card
  · have shape : ∃ x, x ≠ "gift".toList ∧ x ≠ "card".toList ∧
        hit.map Prod.fst = [x, "card".toList] := by
      rcases apart.card (card ▸ word) with spells | spells
      · exact ⟨_, by decide, by decide, spells⟩
      · exact ⟨_, by decide, by decide, spells⟩
    obtain ⟨x, notGift, notCard, spells⟩ := shape
    obtain ⟨a, rest, rfl, first, spells⟩ := List.map_eq_cons_iff.mp spells
    obtain ⟨b, rest, rfl, second, spells⟩ := List.map_eq_cons_iff.mp spells
    obtain rfl := List.map_eq_nil_iff.mp spells
    have isSecond : t = b := by
      rcases List.mem_cons.mp mem with same | mem
      · rw [same, first] at card
        exact absurd card notCard
      · exact List.mem_singleton.mp mem
    have same := eq_previous ordered together (there _ previous) (by rw [place, isSecond])
    rw [← same] at first
    exact notGift first.symm

/-! ## The last word -/

/-- Only a word of two letters or more has a tail to lose. -/
theorem two_le_of_tailParts (word : IsWord w) (cut : tailParts w ≠ [w]) : 2 ≤ w.length := by
  rcases w with _ | ⟨a, _ | ⟨b, w⟩⟩
  · exact absurd rfl word.1
  · refine absurd ?_ cut
    exact split_word word
  · simp

/-- A last word of two letters leaves a text of more than three characters, if another word
stands before it. -/
theorem three_lt_join (words : ∀ v ∈ ws, IsWord v) (long : 2 ≤ w.length) :
    3 < (join (ws ++ [w])).length ↔ ws ≠ [] ∨ 3 < w.length := by
  rcases ws with _ | ⟨v, ws⟩
  · exact ⟨.inr, fun more => more.resolve_left (absurd rfl)⟩
  · have first : 0 < (join (v :: ws)).length := by
      have inFirst := List.length_pos_iff.mpr (words v List.mem_cons_self).1
      cases ws with
      | nil => exact inFirst
      | cons v' ws =>
          rw [join_cons (List.cons_ne_nil v' ws), List.length_append]
          omega
    rw [join_concat (List.cons_ne_nil v ws), List.length_append, List.length_cons]
    refine iff_of_true (by omega) (.inl (List.cons_ne_nil v ws))

/-- What is left of placed words is what is left of the words. -/
theorem map_remainder (ts : List PlacedWord) :
    ((strikeAll Prod.fst packagingWords ts).filter fun t => t.1 ∉ keyWords).map Prod.fst =
      remainder (ts.map Prod.fst) := by
  rw [remainder, ← map_strikeAll, List.filter_map]
  rfl

section Last

variable {t : PlacedWord}

/-- What is left around a word of the name is what is left of the words on either side. -/
theorem unkeyed_around (keyless : ∀ w ∈ numberedWords u title, keyParts w = [w] ∨ w ∈ keyWords)
    (spared : ∀ hit ∈ struckWords u title, ∀ t ∈ hit, ¬ Wanted u title t)
    (name : Identifies u title t) : ∃ early late, unkeyed u title = early ++ t :: late ∧
      early.map Prod.fst = remainder ((numberedWords u title).take t.2) ∧
      late.map Prod.fst = remainder ((numberedWords u title).drop (t.2 + 1)) := by
  obtain ⟨before, after, parts, beforeWords, afterWords⟩ := around_place name.stands
  have left : unstruck u title = strikeAll Prod.fst packagingWords before ++
      t :: strikeAll Prod.fst packagingWords after := by
    rw [struckWords, parts] at spared
    rw [unstruck, parts]
    have wanted : Wanted u title t := .inl name
    exact (strikeAll_around Prod.fst packagingWords_ne_nil wanted spared).1
  have notKey : t.1 ∉ keyWords := fun isKey => name.uncovered (covered_of_keyWord name.stands isKey)
  refine ⟨_, _, ?_, (map_remainder before).trans (congrArg remainder beforeWords),
    (map_remainder after).trans (congrArg remainder afterWords)⟩
  rw [unkeyed_eq keyless, left, List.filter_append, List.filter_cons_of_pos (by simpa using notKey)]

/-- No word is left twice. -/
theorem nodup_unkeyed (keyless : ∀ w ∈ numberedWords u title, keyParts w = [w] ∨ w ∈ keyWords) :
    (unkeyed u title).Nodup := by
  rw [unkeyed_eq keyless]
  exact nodup_unstruck.filter _

theorem eq_nil_of_isLast {early late : List PlacedWord} (nodup : (early ++ t :: late).Nodup)
    (isLast : t ∈ (early ++ t :: late).getLast?) : late = [] := by
  rcases List.eq_nil_or_concat late with none_ | ⟨before, last, rfl⟩
  · exact none_
  · rw [List.concat_eq_append, ← List.cons_append, ← List.append_assoc,
      List.getLast?_concat] at isLast
    obtain rfl := Option.some.inj isLast
    rw [List.nodup_append, List.nodup_cons, List.concat_eq_append] at nodup
    exact absurd (List.mem_append_right _ (List.mem_singleton_self _)) nodup.2.1.1

end Last

/-! ## The name is kept -/

/-- Wanted words are struck exactly if a phrase comes together with one between the stretches. -/
theorem spared_iff : (∀ hit ∈ struckWords u title, ∀ t ∈ hit, ¬ Wanted u title t) ↔
    ∀ earlier p later, packagingWords = earlier ++ p :: later →
      ∀ copy ∈ hits Prod.fst p (stretches u title earlier), ∀ t ∈ copy, ¬ Wanted u title t := by
  unfold struckWords stretches
  exact struck_spares_iff Prod.fst packagingWords_ne_nil _

/-- If none of the four ways is open, every word of the name survives. -/
theorem keepsName_of_undisturbed (undisturbed : Undisturbed u title) : KeepsName u title := by
  have spared := spared_iff.mpr undisturbed.unformed
  have keyless := undisturbed.keyless
  constructor
  · intro t name
    have left : t ∈ unstruck u title := by
      rcases unstruck_or_struck name.stands with left | ⟨hit, isHit, mem⟩
      · exact left
      · exact absurd (.inl name) (spared hit isHit t mem)
    have kept : keyParts t.1 = [t.1] := by
      rcases keyless t.1 (mem_of_stands name.stands) with kept | isKey
      · exact kept
      · exact absurd (covered_of_keyWord name.stands isKey) name.uncovered
    refine mem_survivors (mem_unkeyed left kept) fun tailed isLast => ?_
    obtain ⟨early, late, parts, earlyWords, lateWords⟩ := unkeyed_around keyless spared name
    have nodup := nodup_unkeyed keyless
    have size := tailed.2
    rw [parts] at isLast nodup size
    obtain rfl := eq_nil_of_isLast nodup isLast
    rcases undisturbed.tail tailed.1 t name with whole | more | ⟨alone, short⟩
    · exact whole
    · exact absurd lateWords.symm more
    · rw [alone, List.map_eq_nil_iff] at earlyWords
      rw [earlyWords] at size
      exact absurd size (Nat.not_lt_of_le short)
  · intro p isPhrase j occurs t mem
    have left : t ∈ unstruck u title := by
      refine mem_strikeAll_of_spared Prod.fst packagingWords_ne_nil
        (K := Protected u title) ?_ ?_ t ⟨p, isPhrase, j, occurs, mem⟩
      · intro s isProtected
        obtain ⟨q, -, k, occurs, mem⟩ := isProtected
        exact mem_of_occursAt occurs mem
      · intro left sub there hit isHit together s
        exact spared_protected sub there isHit together fun t mem gift card =>
          spared hit isHit t mem (.inr ⟨gift, card⟩)
    have word : t.1 ∈ p := List.mem_of_getElem? (List.mem_zipIdx_iff_le_and_getElem?_sub.mp mem).2
    obtain ⟨kept, whole⟩ := kept_protected p isPhrase t.1 word
    exact mem_survivors (mem_unkeyed left kept) fun _ _ => whole

/-- A word that hides a key word does not survive whole. -/
theorem keyless_of_keepsName (keeps : KeepsName u title) :
    ∀ w ∈ numberedWords u title, keyParts w = [w] ∨ w ∈ keyWords := by
  intro w mem
  obtain ⟨i, place⟩ := List.mem_iff_getElem?.mp mem
  have stands : (w, i) ∈ (numberedWords u title).zipIdx := List.mem_zipIdx_iff_getElem?.mpr place
  by_cases covered : Covered (numberedWords u title) i
  · exact keyless_of_covered covered stands
  · by_contra hidden
    rw [not_or] at hidden
    have survives := keeps.words (w, i) ⟨stands, covered, fun alias_ =>
      hidden.1 (keyless_shortAliases w (mem_shortAliases alias_.2))⟩
    obtain ⟨s, left, place, whole⟩ := origin_of_survivor survives
    obtain ⟨r, unstruck, place', part⟩ := origin_of_unkeyed left
    obtain rfl : r = (w, i) :=
      eq_of_place (stands_of_unstruck unstruck) stands (place'.trans place)
    have shorter := ((keyParts_cases (isWord_numberedWords w mem)).resolve_left hidden.1) s.1 part
    rcases whole with same | shorter'
    · exact absurd (same ▸ shorter) (Nat.lt_irrefl _)
    · exact absurd shorter' (Nat.not_lt_of_lt shorter)

/-- A word that survives was not struck. -/
theorem spared_of_keepsName (keeps : KeepsName u title) :
    ∀ hit ∈ struckWords u title, ∀ t ∈ hit, ¬ Wanted u title t := by
  intro hit isHit t mem wanted
  rcases wanted with name | ⟨gift, card⟩
  · exact not_survives_of_struck isHit mem (keeps.words t name)
  · refine not_survives_of_struck isHit mem (keeps.phrases ["gift".toList, "card".toList]
      (by decide) t.2 ?_ t ?_)
    · apply occursAt_pair _ card
      rw [List.mem_zipIdx_iff_getElem?.mp (stands_of_struck isHit mem), gift]
    · rw [← gift]
      exact List.mem_cons_self

/-- If the name is kept, none of the four ways was open. -/
theorem undisturbed_of_keepsName (keeps : KeepsName u title) : Undisturbed u title := by
  have keyless := keyless_of_keepsName keeps
  have spared := spared_of_keepsName keeps
  refine ⟨spared_iff.mp spared, keyless, ?_⟩
  intro region t name
  by_contra lost
  rw [not_or, not_or, not_not, not_and, Nat.not_le] at lost
  obtain ⟨cut, last, more⟩ := lost
  obtain ⟨early, late, parts, earlyWords, lateWords⟩ := unkeyed_around keyless spared name
  rw [last, List.map_eq_nil_iff] at lateWords
  rw [lateWords] at parts
  have nodup := nodup_unkeyed keyless
  have words : ∀ t ∈ unkeyed u title, IsWord t.1 := fun t mem => isWord_of_unkeyed mem
  rw [parts] at nodup words
  have word := words t (List.mem_append_right _ (List.mem_singleton_self t))
  have tailed : Tailed u title := by
    refine ⟨region, ?_⟩
    rw [parts, List.map_append]
    refine (three_lt_join ?_ (two_le_of_tailParts word cut)).mpr ?_
    · intro v mem
      obtain ⟨s, before, rfl⟩ := List.mem_map.mp mem
      exact words s (List.mem_append_left _ before)
    · rw [earlyWords]
      exact Decidable.or_iff_not_imp_left.mpr fun none_ => more (not_not.mp none_)
  have survives := keeps.words t name
  rw [survivors, if_pos tailed, parts, cutTail, List.dropLast_concat, List.getLast?_concat,
    Option.toList_some, List.flatMap_singleton] at survives
  rcases List.mem_append.mp survives with before | cutOff
  · exact List.disjoint_of_nodup_append nodup before (List.mem_singleton_self t)
  · obtain ⟨part, isPart, same⟩ := List.mem_map.mp cutOff
    have shorter := ((tailParts_cases word).resolve_left cut) part isPart
    rw [← same] at shorter
    exact Nat.lt_irrefl _ shorter

/-- What survives stands in the order of the title. -/
theorem ordered_survivors : (survivors u title).Pairwise fun s t => s.2 ≤ t.2 := by
  have ordered : (unstruck u title).Pairwise fun s t => s.2 < t.2 :=
    (ordered_zipIdx _).sublist (strikeAll_sublist Prod.fst packagingWords _)
  have ordered' : (unkeyed u title).Pairwise fun s t => s.2 ≤ t.2 := by
    refine List.pairwise_flatMap.mpr ⟨?_, ordered.imp ?_⟩
    · intro t _
      exact List.pairwise_map.mpr (List.pairwise_of_forall fun _ _ => Nat.le_refl _)
    · intro s t earlier x mem y mem'
      obtain ⟨_, -, rfl⟩ := List.mem_map.mp mem
      obtain ⟨_, -, rfl⟩ := List.mem_map.mp mem'
      exact Nat.le_of_lt earlier
  unfold survivors
  split
  · rcases List.eq_nil_or_concat (unkeyed u title) with empty | ⟨before, last, parts⟩
    · rw [empty]
      exact .nil
    · rw [List.concat_eq_append] at parts
      rw [parts] at ordered' ⊢
      obtain ⟨early, -, between⟩ := List.pairwise_append.mp ordered'
      rw [cutTail, List.dropLast_concat, List.getLast?_concat, Option.toList_some,
        List.flatMap_singleton]
      refine List.pairwise_append.mpr ⟨early, ?_, ?_⟩
      · exact List.pairwise_map.mpr (List.pairwise_of_forall fun _ _ => Nat.le_refl _)
      · intro s mem t mem'
        obtain ⟨_, -, rfl⟩ := List.mem_map.mp mem'
        exact between s mem last (List.mem_singleton_self last)
  · exact ordered'

/-- The core spells what survives of the title, in its order; and the words of the name and
the protected phrases survive exactly if none of the four ways to lose them is taken. -/
theorem keepsName_iff (u : Unicode) (title : Text) :
    split (parseTitle u title).core = (survivors u title).map Prod.fst ∧
      (survivors u title).Pairwise (fun s t => s.2 ≤ t.2) ∧
      (KeepsName u title ↔ Undisturbed u title) :=
  ⟨split_core, ordered_survivors, undisturbed_of_keepsName, keepsName_of_undisturbed⟩

/-- The tail of "among us" is taken for that of a region. -/
theorem among_lost : ¬ KeepsName .ascii "Among Us Europe".toList := by
  intro keeps
  have survives := keeps.words ("us".toList, 1)
    ⟨by decide +kernel, by decide +kernel, by decide +kernel⟩
  exact absurd survives (by decide +kernel)

end CoreName

end FazerBridge
