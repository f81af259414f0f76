import FazerBridge.Difflib
import FazerBridge.Matching.Gates
import FazerBridge.Text.Floats
import FazerBridge.Text.Search

/-!
# Titles that end in a qualifier

A title "p - a" with a spelling of a region, a platform or an edition at its end.  Its
words are those of p and those of a (`titleWords_qualified`), but an extractor takes the
first entry of its table that any of them state, so an entry that p's own words state
hides the ones listed after it (`firstStated_eq_iff`).
-/

namespace FazerBridge

open Text

/-! ## The first entry of a table -/

section Table

variable {table : Aliases} {first second : Text}

/-- The place of a key in the table. -/
def place (table : Aliases) (key : Text) : ℕ := table.findIdx (·.1 = key)

/-- One of the entry's spellings, of more than `least` letters, stands in the words. -/
def States (least : ℕ) (ws : List Text) (entry : Text × List Text) : Prop :=
  ∃ spelling ∈ entry.2, least < spelling.length ∧ split spelling <:+: ws

instance (least : ℕ) (ws : List Text) (entry : Text × List Text) :
    Decidable (States least ws entry) :=
  inferInstanceAs (Decidable (∃ _ ∈ _, _ ∧ _))

/-- The first entry that the words state, or the one the ending states. -/
def firstStated (table : Aliases) (least : ℕ) (ws : List Text) (ending : Option Text) :
    Option Text :=
  (table.find? fun entry => decide (States least ws entry ∨ some entry.1 = ending)).map Prod.fst

/-- No entry listed up to the earlier of the two is stated by the words. -/
def Undisturbed (table : Aliases) (least : ℕ) (ws : List Text) (first second : Text) : Prop :=
  ∀ entry ∈ table.take (min (place table first) (place table second) + 1), ¬ States least ws entry

instance (table : Aliases) (least : ℕ) (ws : List Text) (first second : Text) :
    Decidable (Undisturbed table least ws first second) :=
  inferInstanceAs (Decidable (∀ _ ∈ _, ¬ _))

theorem mem_of_firstStated {least : ℕ} {ws : List Text} {ending : Option Text} {key : Text}
    (found : firstStated table least ws ending = some key) : key ∈ table.map Prod.fst := by
  obtain ⟨entry, stated, rfl⟩ := Option.map_eq_some_iff.mp found
  exact List.mem_map_of_mem (List.mem_of_find?_eq_some stated)

/-- A key other than the ending's is stated by the words. -/
theorem exists_states {least : ℕ} {ws : List Text} {key : Text}
    (found : firstStated table least ws (some first) = some key) (other : key ≠ first) :
    ∃ entry ∈ table, entry.1 = key ∧ States least ws entry := by
  obtain ⟨entry, stated, rfl⟩ := Option.map_eq_some_iff.mp found
  have own := List.find?_some stated
  rw [decide_eq_true_iff, Option.some_inj, or_iff_left other] at own
  exact ⟨entry, List.mem_of_find?_eq_some stated, rfl, own⟩

theorem firstStated_isSome (least : ℕ) (ws : List Text) (listed : first ∈ table.map Prod.fst) :
    ∃ key, firstStated table least ws (some first) = some key := by
  obtain ⟨entry, mem, rfl⟩ := List.mem_map.mp listed
  have found : (table.find? fun e => decide (States least ws e ∨ some e.1 = some entry.1)).isSome :=
    List.find?_isSome.mpr ⟨entry, mem, by simp⟩
  obtain ⟨other, stated⟩ := Option.isSome_iff_exists.mp found
  exact ⟨other.1, by rw [firstStated, stated]; rfl⟩

/-- Two endings are told apart exactly if the words do not state an entry first. -/
theorem firstStated_eq_iff {least : ℕ} {ws : List Text} (keys : (table.map Prod.fst).Nodup)
    (firstListed : first ∈ table.map Prod.fst) (secondListed : second ∈ table.map Prod.fst) :
    firstStated table least ws (some first) = firstStated table least ws (some second) ↔
      ¬ (first ≠ second ∧ Undisturbed table least ws first second) := by
  induction table with
  | nil => cases firstListed
  | cons entry table ih =>
      obtain ⟨fresh, keys⟩ := List.nodup_cons.mp keys
      by_cases stated : States least ws entry
      · -- the words state the entry, whatever the endings are
        refine iff_of_true (by simp [firstStated, stated]) fun ⟨_, clear⟩ => ?_
        exact clear entry (by simp) stated
      -- the other ending is found behind the entry, so under another key
      have behind : ∀ {key : Text}, key ≠ entry.1 → key ∈ (entry :: table).map Prod.fst →
          key ∈ table.map Prod.fst ∧ firstStated (entry :: table) least ws (some key) =
            firstStated table least ws (some key) := by
        intro key other listed
        refine ⟨(List.mem_cons.mp listed).resolve_left other, ?_⟩
        simp [firstStated, stated, Ne.symm other]
      have here : firstStated (entry :: table) least ws (some entry.1) = some entry.1 := by
        simp [firstStated]
      have apart : ∀ {key : Text}, key ≠ entry.1 → key ∈ (entry :: table).map Prod.fst →
          firstStated (entry :: table) least ws (some key) ≠ some entry.1 := by
        intro key other listed same
        rw [(behind other listed).2] at same
        exact fresh (mem_of_firstStated same)
      have clear : ∀ {n : ℕ}, n = 0 → ∀ e ∈ (entry :: table).take (n + 1), ¬ States least ws e := by
        rintro _ rfl e mem
        obtain rfl : e = entry := by simpa using mem
        exact stated
      by_cases firstHere : first = entry.1
      · subst firstHere
        by_cases secondHere : second = entry.1
        · exact iff_of_true (by rw [secondHere]) fun ⟨other, _⟩ => other secondHere.symm
        · refine iff_of_false (fun same => apart secondHere secondListed (same ▸ here))
            (not_not.mpr ⟨Ne.symm secondHere, clear (by simp [place, List.findIdx_cons])⟩)
      by_cases secondHere : second = entry.1
      · subst secondHere
        exact iff_of_false (fun same => apart firstHere firstListed (same.trans here))
          (not_not.mpr ⟨firstHere, clear (by simp [place, List.findIdx_cons])⟩)
      obtain ⟨firstListed, firstSame⟩ := behind firstHere firstListed
      obtain ⟨secondListed, secondSame⟩ := behind secondHere secondListed
      have places : Undisturbed (entry :: table) least ws first second ↔
          Undisturbed table least ws first second := by
        have next : ∀ {key : Text}, key ≠ entry.1 →
            place (entry :: table) key = place table key + 1 := by
          intro key other
          simp [place, List.findIdx_cons, Ne.symm other]
        unfold Undisturbed
        rw [next firstHere, next secondHere, Nat.add_min_add_right, List.take_succ_cons,
          List.forall_mem_cons, and_iff_right stated]
      rw [firstSame, secondSame, ih keys firstListed secondListed, places]

end Table

/-! ## Words of a title -/

/-- The words an extractor searches a title for. -/
def titleWords (u : Unicode) (t : Text) : List Text := split (basicNormalize u t)

/-- `p + " - " + a` -/
def qualified (p a : Text) : Text := p ++ " - ".toList ++ a

/-- What `basic_normalize` does to a lower case title, before the words are told
apart. -/
def spacedOut (t : Text) : Text :=
  (Text.replace ['&'] " and ".toList t).map fun c => if isKept c then c else ' '

theorem replace_append (new x y : Text) (c : Char) :
    Text.replace [c] new (x ++ y) = Text.replace [c] new x ++ Text.replace [c] new y := by
  have one : ∀ t, Text.replace [c] new t = t.flatMap fun d => if d = c then new else [d] := by
    intro t
    induction t with
    | nil => rfl
    | cons d t ih =>
        rw [Text.replace] at ih ⊢
        rw [replaceFrom]
        by_cases same : d = c
        · simp [same, ih]
        · simp [same, Ne.symm same, ih]
  rw [one, one, one, List.flatMap_append]

theorem spacedOut_append (x y : Text) : spacedOut (x ++ y) = spacedOut x ++ spacedOut y := by
  rw [spacedOut, replace_append, List.map_append]
  rfl

variable {u : Unicode} {p a : Text}

theorem titleWords_eq (u : Unicode) (t : Text) :
    titleWords u t = split (spacedOut (u.lower (stripAccents u t))) :=
  split_join isWord_of_mem_split

theorem basicNormalize_eq (u : Unicode) (t : Text) : basicNormalize u t = join (titleWords u t) := by
  rw [titleWords_eq]
  rfl

theorem isWord_titleWords (u : Unicode) (t : Text) : ∀ w ∈ titleWords u t, IsWord w :=
  isWord_of_mem_split

/-- A padded spelling in a padded title. -/
theorem isIn_title (some_ : a ≠ []) (joined : join (split a) = a) (t : Text) :
    isIn (pad a) (pad (basicNormalize u t)) = true ↔ split a <:+: titleWords u t := by
  have words : split a ≠ [] := by
    intro none_
    rw [none_] at joined
    exact some_ joined.symm
  rw [basicNormalize_eq, ← joined, split_join isWord_of_mem_split]
  exact isIn_pad_join words isWord_of_mem_split (isWord_titleWords u t)

/-- A spelling the extractors look for: words of kept characters, and no face value. -/
structure IsQualifier (a : Text) : Prop where
  some_ : a ≠ []
  kept : a.all (fun c => isKept c || c == ' ') = true
  joined : join (split a) = a
  plain : PlainEnding (' ' :: a)

def spellings (table : Aliases) : List Text := table.flatMap Prod.snd

theorem isQualifier_spelling :
    ∀ a ∈ spellings (regionAliases ++ platformPatterns ++ editionAliases), IsQualifier a := by
  have facts : ∀ a ∈ spellings (regionAliases ++ platformPatterns ++ editionAliases), a ≠ [] ∧
      a.all (fun c => isKept c || c == ' ') = true ∧ join (split a) = a ∧
      PlainEnding (' ' :: a) := by
    simp only [plainEnding_iff, spellings, regionAliases, platformPatterns, editionAliases, aliases,
      currencyCodes, currencySymbols, faceValueWords, monthWords, List.map_cons, List.map_nil,
      String.reduceToList]
    decide +kernel
  intro a mem
  obtain ⟨some_, kept, joined, plain⟩ := facts a mem
  exact ⟨some_, kept, joined, plain⟩

namespace IsQualifier

variable (qualifier : IsQualifier a) (lawful : u.Lawful)

include qualifier

theorem spacedOut : spacedOut a = a := by
  have kept : ∀ c ∈ a, isKept c = true ∨ c = ' ' := by simpa using qualifier.kept
  have rest : ∀ t : Text, (∀ c ∈ t, isKept c = true ∨ c = ' ') → FazerBridge.spacedOut t = t := by
    intro t
    induction t with
    | nil => exact fun _ => rfl
    | cons c t ih =>
        intro kept
        have first : FazerBridge.spacedOut [c] = [c] := by
          rcases kept c List.mem_cons_self with own | rfl
          · have other : c ≠ '&' := by
              rintro rfl
              cases own
            simp [FazerBridge.spacedOut, Text.replace, replaceFrom, own, Ne.symm other]
          · rfl
        rw [← List.singleton_append, spacedOut_append, first,
          ih fun d mem => kept d (List.mem_cons_of_mem _ mem)]
  exact rest a kept

include lawful

/-- The words of the title are the product's and the qualifier's. -/
theorem titleWords_qualified (p : Text) :
    titleWords u (qualified p a) = titleWords u p ++ split a := by
  have dashed_ : qualified p a = p ++ dashed (' ' :: a) := by simp [qualified, dashed]
  have raw : stripAccents u (qualified p a) = stripAccents u p ++ dashed (' ' :: a) := by
    rw [dashed_, stripAccents_append, lawful.stripAccents qualifier.plain.dashed_ascii]
  have lowered : ('-' :: ' ' :: a).map Char.toLower = '-' :: ' ' :: a := by
    rw [List.map_cons, qualifier.plain.lowered]
    rfl
  have ending : FazerBridge.spacedOut (dashed (' ' :: a)) = ' ' :: ' ' :: ' ' :: a := by
    have blanks : FazerBridge.spacedOut [' ', '-', ' '] = [' ', ' ', ' '] := by decide
    have cut : dashed (' ' :: a) = [' ', '-', ' '] ++ a := rfl
    rw [cut, spacedOut_append, blanks, qualifier.spacedOut]
    rfl
  rw [titleWords_eq, raw, dashed, lawful.lower_blank, lawful.lower_of_lowered
    (fun c mem => qualifier.plain.dashed_ascii c (List.mem_cons_of_mem _ mem)) lowered,
    ← dashed, spacedOut_append, ending, split_append_blank, split_blank, split_blank, titleWords_eq]

/-- The qualifier does not change the face value. -/
theorem extractDenomination_qualified (p : Text) :
    extractDenomination u (qualified p a) = extractDenomination u p := by
  have dashed_ : qualified p a = p ++ dashed (' ' :: a) := by simp [qualified, dashed]
  rw [dashed_, qualifier.plain.extractDenomination lawful]

end IsQualifier

/-! ## Spellings across the ending -/

/-- An ending of `v` other than `v` itself starts `w`. -/
def Overlaps (v w : List Text) : Prop := ∃ x ∈ v.tail.tails, x ≠ [] ∧ x <+: w

instance (v w : List Text) : Decidable (Overlaps v w) :=
  inferInstanceAs (Decidable (∃ _ ∈ _, _ ∧ _))

variable {v ws ending : List Text}

theorem infix_append_cases (within : v <:+: ws ++ ending) : v <:+: ws ∨ v <:+: ending ∨
    ∃ x y, x ≠ [] ∧ y ≠ [] ∧ v = x ++ y ∧ x <:+ ws ∧ y <+: ending := by
  obtain ⟨before, after, same⟩ := within
  rcases List.append_eq_append_iff.mp same with ⟨rest, rfl, rfl⟩ | ⟨y, cut, rfl⟩
  · exact .inl ⟨before, rest, rfl⟩
  rcases List.append_eq_append_iff.mp cut with ⟨x, rfl, rfl⟩ | ⟨y', rfl, rfl⟩
  · by_cases none_ : x = []
    · exact .inr (.inl ⟨[], after, by simp [none_]⟩)
    by_cases none_' : y = []
    · exact .inl ⟨before, [], by simp [none_']⟩
    exact .inr (.inr ⟨x, y, none_, none_', rfl, List.suffix_append .., List.prefix_append ..⟩)
  · exact .inr (.inl ⟨y', after, rfl⟩)

theorem overlaps_of_append {x y : List Text} (some_ : x ≠ []) (some_' : y ≠ [])
    (prefix_ : y <+: ending) : Overlaps (x ++ y) ending := by
  obtain ⟨w, x, rfl⟩ := List.exists_cons_of_ne_nil some_
  exact ⟨y, by simp, some_', prefix_⟩

theorem infix_append_iff (apart : ¬ Overlaps v ending) :
    v <:+: ws ++ ending ↔ v <:+: ws ∨ v <:+: ending := by
  constructor
  · intro within
    rcases infix_append_cases within with own | own | ⟨x, y, some_, some_', rfl, -, prefix_⟩
    · exact .inl own
    · exact .inr own
    · exact absurd (overlaps_of_append some_ some_' prefix_) apart
  · intro either
    rcases either with own | own
    · exact List.infix_append_of_infix_left own
    · exact List.infix_append_of_infix_right own

theorem mem_spellings {table : Aliases} {entry : Text × List Text} {a : Text}
    (mem : entry ∈ table) (spelled : a ∈ entry.2) : a ∈ spellings table :=
  List.mem_flatMap.mpr ⟨entry, mem, spelled⟩

theorem mem_spellings_append {table table' : Aliases} {a : Text} :
    a ∈ spellings (table ++ table') ↔ a ∈ spellings table ∨ a ∈ spellings table' := by
  rw [spellings, List.flatMap_append, List.mem_append]
  rfl

theorem firstAlias_eq {table : Aliases} {least : ℕ} {found : Text → Bool} {stated : Option Text}
    (same : ∀ entry ∈ table,
      (∃ b ∈ entry.2, found b = true) ↔ States least ws entry ∨ some entry.1 = stated) :
    firstAlias table found = firstStated table least ws stated := by
  unfold firstAlias firstStated
  congr 1
  refine List.find?_congr fun entry mem => ?_
  rw [Bool.eq_iff_iff, List.any_eq_true, decide_eq_true_iff]
  exact same entry mem

/-! ## The extractors -/

/-- No spelling of the table stands in the words of `a`, or reaches into them. -/
def Quiet (table : Aliases) (a : Text) : Prop :=
  ∀ b ∈ spellings table, ¬ split b <:+: split a ∧ ¬ Overlaps (split b) (split a)

instance (table : Aliases) (a : Text) : Decidable (Quiet table a) :=
  inferInstanceAs (Decidable (∀ _ ∈ _, _ ∧ _))

/-- A spelling of an entry stands in the words of another's spelling only if the two are
one. -/
def Distinct (table : Aliases) : Prop :=
  ∀ entry ∈ table, ∀ b ∈ entry.2, ∀ other ∈ table, ∀ a ∈ other.2,
    split b <:+: split a → entry.1 = other.1

instance (table : Aliases) : Decidable (Distinct table) :=
  inferInstanceAs (Decidable (∀ _ ∈ _, ∀ _ ∈ _, ∀ _ ∈ _, ∀ _ ∈ _, _ → _))

/-- The last word of a spelling. -/
def lastWord (a : Text) : Text := (split a).getLastD []

/-- What the spellings of the three tables have to do with each other. -/
structure Vocabulary : Prop where
  editions : ∀ a ∈ spellings (regionAliases ++ platformPatterns), Quiet editionAliases a
  platforms : ∀ a ∈ spellings (regionAliases ++ editionAliases), Quiet platformPatterns a
  regions : ∀ a ∈ spellings (platformPatterns ++ editionAliases), Quiet regionAliases a
  distinct : Distinct regionAliases ∧ Distinct platformPatterns ∧ Distinct editionAliases
  region_apart : ∀ b ∈ spellings regionAliases, ∀ a ∈ spellings regionAliases,
    ¬ Overlaps (split b) (split a)
  platform_apart : ∀ b ∈ spellings platformPatterns, ∀ a ∈ spellings platformPatterns,
    Overlaps (split b) (split a) → b = "ea app".toList ∧ a = "app store".toList
  edition_apart : ∀ b ∈ spellings editionAliases, ∀ a ∈ spellings editionAliases,
    ¬ Overlaps (split b) (split a)
  -- aliases of two letters, which are compared with the last word
  short_whole : ∀ b ∈ spellings regionAliases, b.length ≤ 2 → ' ' ∉ b
  short_quiet : ∀ b ∈ spellings regionAliases, b.length ≤ 2 →
    ∀ a ∈ spellings (platformPatterns ++ editionAliases), endsWith b (lastWord a) = false
  short_distinct : ∀ entry ∈ regionAliases, ∀ b ∈ entry.2, b.length ≤ 2 →
    ∀ other ∈ regionAliases, ∀ a ∈ other.2, endsWith b (lastWord a) = true → entry.1 = other.1
  short_own : ∀ a ∈ spellings regionAliases, a.length ≤ 2 → endsWith a (lastWord a) = true

theorem isQualifier_of_mem : ∀ table ∈ [regionAliases, platformPatterns, editionAliases],
    ∀ b ∈ spellings table, IsQualifier b := by
  intro table mem b spelled
  refine isQualifier_spelling b (List.mem_flatMap.mpr ?_)
  obtain ⟨entry, among, own⟩ := List.mem_flatMap.mp spelled
  refine ⟨entry, ?_, own⟩
  simp only [List.mem_cons, List.not_mem_nil, or_false] at mem
  rcases mem with rfl | rfl | rfl <;> simp [among]

section Extractors

variable {table : Aliases} {entry : Text × List Text}
  (spelled : ∀ b ∈ spellings table, IsQualifier b)

include spelled

theorem states_iff (mem : entry ∈ table) (ws : List Text) :
    States 0 ws entry ↔ ∃ b ∈ entry.2, split b <:+: ws :=
  exists_congr fun b => and_congr_right fun own => and_iff_right <|
    List.length_pos_iff.mpr (spelled b (mem_spellings mem own)).some_

/-- The words before a quiet ending decide. -/
theorem exists_infix_quiet (mem : entry ∈ table) (quiet : Quiet table a) (ws : List Text) :
    (∃ b ∈ entry.2, split b <:+: ws ++ split a) ↔ States 0 ws entry := by
  rw [states_iff spelled mem]
  refine exists_congr fun b => and_congr_right fun own => ?_
  obtain ⟨outside, apart⟩ := quiet b (mem_spellings mem own)
  rw [infix_append_iff apart, or_iff_left outside]

/-- So do they and the entry the ending spells, where no spelling reaches into it. -/
theorem exists_infix_own (distinct : Distinct table) (mem : entry ∈ table)
    {own : Text × List Text} (ownMem : own ∈ table) (keys : (table.map Prod.fst).Nodup)
    (ending : a ∈ own.2) {ws : List Text}
    (cut : ∀ b ∈ entry.2, split b <:+: ws ++ split a → split b <:+: ws ∨ split b <:+: split a) :
    (∃ b ∈ entry.2, split b <:+: ws ++ split a) ↔
      States 0 ws entry ∨ some entry.1 = some own.1 := by
  rw [states_iff spelled mem, Option.some_inj]
  constructor
  · intro found
    obtain ⟨b, stated, within⟩ := found
    exact (cut b stated within).imp (fun before => ⟨b, stated, before⟩)
      fun inside => distinct entry mem b stated own ownMem a ending inside
  · intro either
    rcases either with ⟨b, stated, before⟩ | same
    · exact ⟨b, stated, List.infix_append_of_infix_left before⟩
    · obtain rfl : entry = own := List.inj_on_of_nodup_map keys mem ownMem same
      exact ⟨a, ending, List.infix_append_right⟩

end Extractors

/-- The platform the ending states: behind "ea" the words "app store" are read as
"ea app". -/
def endingPlatform (ws : List Text) (key a : Text) : Text :=
  if a = "app store".toList ∧ ws.getLast? = some "ea".toList then "origin".toList else key

/-- The words "app store" behind "ea". -/
theorem infix_eaApp (ws : List Text) :
    split "ea app".toList <:+: ws ++ split "app store".toList ↔
      split "ea app".toList <:+: ws ∨ ws.getLast? = some "ea".toList := by
  have words : split "ea app".toList = ["ea".toList, "app".toList] ∧
      split "app store".toList = ["app".toList, "store".toList] := by decide
  have outside : ¬ split "ea app".toList <:+: split "app store".toList := by decide
  constructor
  · intro within
    rcases infix_append_cases within with own | own | ⟨x, y, some_, some_', cut, suffix, prefix_⟩
    · exact .inl own
    · exact absurd own outside
    · right
      obtain ⟨w, x, rfl⟩ := List.exists_cons_of_ne_nil some_
      obtain ⟨v, y, rfl⟩ := List.exists_cons_of_ne_nil some_'
      rw [words.1, List.cons_append] at cut
      obtain ⟨rfl, rest⟩ := List.cons.inj cut
      have short := congrArg List.length rest
      simp only [List.length_cons, List.length_nil, List.length_append] at short
      obtain rfl : x = [] := List.length_eq_zero_iff.mp (by omega)
      obtain ⟨before, rfl⟩ := suffix
      simp
  · intro either
    rcases either with own | last
    · exact List.infix_append_of_infix_left own
    · obtain ⟨before, rfl⟩ := List.getLast?_eq_some_iff.mp last
      rw [words.1, words.2]
      exact ⟨before, ["store".toList], by simp⟩

theorem platform_keys : (platformPatterns.map Prod.fst).Nodup := by decide

theorem isQualifier_platform : ∀ b ∈ spellings platformPatterns, IsQualifier b :=
  isQualifier_of_mem _ (by simp)

theorem isQualifier_region : ∀ b ∈ spellings regionAliases, IsQualifier b :=
  isQualifier_of_mem _ (by simp)

theorem isQualifier_edition : ∀ b ∈ spellings editionAliases, IsQualifier b :=
  isQualifier_of_mem _ (by simp)

/-- Two searches that agree up to a common hit find the same. -/
theorem find?_upTo {α : Type} {l later : List α} {x : α} {f g : α → Bool}
    (same : ∀ y ∈ l, f y = g y) (hit : f x = true) (hit' : g x = true) :
    (l ++ x :: later).find? f = (l ++ x :: later).find? g := by
  rw [List.find?_append, List.find?_append, List.find?_congr same, List.find?_cons_of_pos hit,
    List.find?_cons_of_pos hit']

/-- "ea app" hides "app store", which is listed behind it. -/
theorem firstAlias_eaApp (vocabulary : Vocabulary) {ws : List Text}
    (last : ws.getLast? = some "ea".toList) {found : Text → Bool}
    (same : ∀ b ∈ spellings platformPatterns,
      found b = true ↔ split b <:+: ws ++ split "app store".toList) :
    firstAlias platformPatterns found =
      firstStated platformPatterns 0 ws (some "origin".toList) := by
  have cut : platformPatterns = platformPatterns.take 5 ++ ("origin".toList,
      ["origin".toList, "ea app".toList, "ea play".toList]) :: platformPatterns.drop 6 := by decide
  have before : ∀ entry ∈ platformPatterns.take 5, entry.1 ≠ "origin".toList ∧ ∀ b ∈ entry.2,
      b ≠ "ea app".toList ∧ ¬ split b <:+: split "app store".toList := by decide
  have store : "app store".toList ∈ spellings platformPatterns := by decide
  have app : "ea app".toList ∈ spellings platformPatterns := by decide
  unfold firstAlias firstStated
  rw [cut]
  congr 1
  apply find?_upTo
  · intro entry early
    have mem : entry ∈ platformPatterns := List.mem_of_mem_take early
    obtain ⟨other, outside⟩ := before entry early
    rw [Bool.eq_iff_iff, List.any_eq_true, decide_eq_true_iff, Option.some_inj,
      or_iff_left other, states_iff isQualifier_platform mem]
    refine exists_congr fun b => and_congr_right fun own => ?_
    rw [same b (mem_spellings mem own), infix_append_iff, or_iff_left (outside b own).2]
    exact fun reaches => (outside b own).1
      (vocabulary.platform_apart b (mem_spellings mem own) _ store reaches).1
  · have read := (same _ app).mpr ((infix_eaApp ws).mpr (.inr last))
    exact List.any_eq_true.mpr ⟨_, by simp, read⟩
  · simp

theorem edition_keys : (editionAliases.map Prod.fst).Nodup := by decide

theorem region_keys : (regionAliases.map Prod.fst).Nodup := by decide +kernel

section Lawful

variable (lawful : u.Lawful)

include lawful

/-- The padded searches of the platforms and the editions. -/
theorem firstAlias_qualified {table : Aliases} (spelled : ∀ b ∈ spellings table, IsQualifier b)
    (qualifier : IsQualifier a) {stated : Option Text}
    (same : ∀ entry ∈ table, (∃ b ∈ entry.2, split b <:+: titleWords u p ++ split a) ↔
      States 0 (titleWords u p) entry ∨ some entry.1 = stated) :
    firstAlias table (fun b => isIn (pad b) (pad (basicNormalize u (qualified p a)))) =
      firstStated table 0 (titleWords u p) stated := by
  apply firstAlias_eq
  intro entry mem
  rw [← same entry mem]
  refine exists_congr fun b => and_congr_right fun own => ?_
  have spelling := spelled b (mem_spellings mem own)
  rw [isIn_title spelling.some_ spelling.joined, qualifier.titleWords_qualified lawful]

theorem firstAlias_quiet {table : Aliases} (spelled : ∀ b ∈ spellings table, IsQualifier b)
    (qualifier : IsQualifier a) (quiet : Quiet table a) :
    firstAlias table (fun b => isIn (pad b) (pad (basicNormalize u (qualified p a)))) =
      firstStated table 0 (titleWords u p) none :=
  firstAlias_qualified lawful spelled qualifier fun entry mem => by
    rw [exists_infix_quiet spelled mem quiet]
    simp

variable (vocabulary : Vocabulary)

include vocabulary

theorem extractPlatform_qualified {entry : Text × List Text} (mem : entry ∈ platformPatterns)
    (ending : a ∈ entry.2) : extractPlatform u (qualified p a) = firstStated platformPatterns 0
      (titleWords u p) (some (endingPlatform (titleWords u p) entry.1 a)) := by
  have qualifier := isQualifier_platform a (mem_spellings mem ending)
  unfold endingPlatform
  split
  · rename_i eaApp
    obtain ⟨rfl, last⟩ := eaApp
    refine firstAlias_eaApp vocabulary last fun b spelled => ?_
    have spelling := isQualifier_platform b spelled
    rw [isIn_title spelling.some_ spelling.joined, qualifier.titleWords_qualified lawful]
  · rename_i other
    refine firstAlias_qualified lawful isQualifier_platform qualifier fun e among => ?_
    refine exists_infix_own isQualifier_platform vocabulary.distinct.2.1 among mem platform_keys
      ending fun b own within => ?_
    by_cases reaches : Overlaps (split b) (split a)
    · obtain ⟨rfl, rfl⟩ := vocabulary.platform_apart b (mem_spellings among own) a
        (mem_spellings mem ending) reaches
      exact .inl (((infix_eaApp _).mp within).resolve_right fun last => other ⟨rfl, last⟩)
    · exact (infix_append_iff reaches).mp within

theorem extractEdition_qualified {entry : Text × List Text} (mem : entry ∈ editionAliases)
    (ending : a ∈ entry.2) : extractEdition u (qualified p a) =
      firstStated editionAliases 0 (titleWords u p) (some entry.1) := by
  have qualifier := isQualifier_edition a (mem_spellings mem ending)
  refine firstAlias_qualified lawful isQualifier_edition qualifier fun e among => ?_
  exact exists_infix_own isQualifier_edition vocabulary.distinct.2.2 among mem edition_keys ending
    fun b own => (infix_append_iff (vocabulary.edition_apart b (mem_spellings among own) a
      (mem_spellings mem ending))).mp

theorem extractEdition_quiet (qualifier : IsQualifier a)
    (mem : a ∈ spellings regionAliases ∨ a ∈ spellings platformPatterns) :
    extractEdition u (qualified p a) = firstStated editionAliases 0 (titleWords u p) none :=
  firstAlias_quiet lawful isQualifier_edition qualifier
    (vocabulary.editions a (mem_spellings_append.mpr mem))

theorem extractPlatform_quiet (qualifier : IsQualifier a)
    (mem : a ∈ spellings regionAliases ∨ a ∈ spellings editionAliases) :
    extractPlatform u (qualified p a) = firstStated platformPatterns 0 (titleWords u p) none :=
  firstAlias_quiet lawful isQualifier_platform qualifier
    (vocabulary.platforms a (mem_spellings_append.mpr mem))

/-! ### Regions -/

omit lawful vocabulary in
/-- At the end of a text, a short alias is compared with the last word. -/
theorem endsWith_blank {b : Text} (whole : ' ' ∉ b) (x w : Text) :
    endsWith b (x ++ ' ' :: w) = endsWith b w := by
  have suffix : b <:+ x ++ ' ' :: w ↔ b <:+ w := by
    constructor
    · intro suffix
      rcases suffix_append_cases suffix with within | ⟨y, -, -, rfl⟩
      · rcases List.suffix_cons_iff.mp within with rfl | within
        · exact absurd List.mem_cons_self whole
        · exact within
      · exact absurd (by simp) whole
    · exact fun suffix => (suffix.trans (List.suffix_cons ' ' w)).trans (List.suffix_append x _)
  unfold endsWith
  by_cases own : b <:+ w
  · have start : startsWord ((x ++ ' ' :: w).reverse.drop b.length) =
        startsWord (w.reverse.drop b.length) := by
      have short : b.length ≤ w.reverse.length := by simpa using own.length_le
      rw [List.reverse_append, List.reverse_cons, List.append_assoc,
        List.drop_append_of_le_length short]
      cases w.reverse.drop b.length <;> rfl
    rw [start, List.isSuffixOf_iff_suffix.mpr own, List.isSuffixOf_iff_suffix.mpr (suffix.mpr own)]
  · rw [Bool.eq_false_iff.mpr (List.isSuffixOf_iff_suffix.not.mpr own),
      Bool.eq_false_iff.mpr (List.isSuffixOf_iff_suffix.not.mpr (suffix.not.mpr own))]
    rfl

omit lawful vocabulary in
theorem join_concat (ws : List Text) (w : Text) :
    join (ws ++ [w]) = w ∨ ∃ x, join (ws ++ [w]) = x ++ ' ' :: w := by
  induction ws with
  | nil => exact .inl rfl
  | cons v ws ih =>
      right
      have step : join (v :: (ws ++ [w])) = v ++ ' ' :: join (ws ++ [w]) := by
        rw [join]
        simp
      rw [List.cons_append, step]
      rcases ih with last | ⟨x, last⟩
      · exact ⟨v, by rw [last]⟩
      · exact ⟨v ++ ' ' :: x, by rw [last]; simp⟩

omit lawful vocabulary in
/-- What `extract_region` looks for: a short alias at the end, a longer one anywhere. -/
theorem extractRegion_eq (u : Unicode) (t : Text) : extractRegion u t =
    firstAlias regionAliases fun b =>
      if b.length ≤ 2 then endsWith b (join ((titleWords u t).drop ((titleWords u t).length - 3)))
      else isIn (pad b) (pad (basicNormalize u t)) := rfl

omit vocabulary in
/-- The end of a title with a qualifier. -/
theorem endsWith_qualified {b : Text} (whole : ' ' ∉ b) (qualifier : IsQualifier a) (p : Text) :
    endsWith b (join ((titleWords u (qualified p a)).drop
      ((titleWords u (qualified p a)).length - 3))) = endsWith b (lastWord a) := by
  have words : split a ≠ [] := by
    intro none_
    have joined := qualifier.joined
    rw [none_] at joined
    exact qualifier.some_ joined.symm
  obtain ⟨ws, w, same⟩ : ∃ ws w, split a = ws ++ [w] :=
    ⟨_, _, (List.dropLast_append_getLast words).symm⟩
  have own : lastWord a = w := by simp [lastWord, same]
  obtain ⟨early, cut⟩ : ∃ early, (titleWords u (qualified p a)).drop
      ((titleWords u (qualified p a)).length - 3) = early ++ [w] := by
    rw [qualifier.titleWords_qualified lawful, same, ← List.append_assoc,
      List.drop_append_of_le_length]
    · exact ⟨_, rfl⟩
    · simp only [List.length_append, List.length_singleton]
      omega
  rw [cut, own]
  rcases join_concat early w with last | ⟨x, last⟩
  · rw [last]
  · rw [last, endsWith_blank whole]

/-- A region is stated by the last word, or by a longer alias anywhere. -/
theorem extractRegion_of {stated : Option Text} (qualifier : IsQualifier a)
    (long : ∀ entry ∈ regionAliases, ∀ b ∈ entry.2, 2 < b.length →
      split b <:+: titleWords u p ++ split a →
        split b <:+: titleWords u p ∨ some entry.1 = stated)
    (short : ∀ entry ∈ regionAliases, ∀ b ∈ entry.2, b.length ≤ 2 →
      endsWith b (lastWord a) = true → some entry.1 = stated)
    (own : ∀ entry ∈ regionAliases, some entry.1 = stated → a ∈ entry.2 ∧
      (a.length ≤ 2 → endsWith a (lastWord a) = true)) :
    extractRegion u (qualified p a) = firstStated regionAliases 2 (titleWords u p) stated := by
  rw [extractRegion_eq]
  apply firstAlias_eq
  intro entry mem
  constructor
  · intro found
    obtain ⟨b, spelled, found⟩ := found
    split at found
    · rename_i two
      rw [endsWith_qualified lawful
        (vocabulary.short_whole b (mem_spellings mem spelled) two) qualifier] at found
      exact .inr (short entry mem b spelled two found)
    · rename_i longer
      have spelling := isQualifier_region b (mem_spellings mem spelled)
      rw [isIn_title spelling.some_ spelling.joined,
        qualifier.titleWords_qualified lawful] at found
      exact (long entry mem b spelled (by omega) found).imp
        (fun before => ⟨b, spelled, by omega, before⟩) id
  · intro either
    rcases either with ⟨b, spelled, longer, before⟩ | ends
    · refine ⟨b, spelled, ?_⟩
      have spelling := isQualifier_region b (mem_spellings mem spelled)
      rw [if_neg (by omega), isIn_title spelling.some_ spelling.joined,
        qualifier.titleWords_qualified lawful]
      exact List.infix_append_of_infix_left before
    · obtain ⟨spelled, last⟩ := own entry mem ends
      refine ⟨a, spelled, ?_⟩
      split
      · rename_i two
        rw [endsWith_qualified lawful
          (vocabulary.short_whole a (mem_spellings mem spelled) two) qualifier]
        exact last two
      · rw [isIn_title qualifier.some_ qualifier.joined, qualifier.titleWords_qualified lawful]
        exact List.infix_append_right

theorem extractRegion_qualified {entry : Text × List Text} (mem : entry ∈ regionAliases)
    (ending : a ∈ entry.2) : extractRegion u (qualified p a) =
      firstStated regionAliases 2 (titleWords u p) (some entry.1) := by
  have spelled := mem_spellings mem ending
  refine extractRegion_of lawful vocabulary (isQualifier_region a spelled) ?_ ?_ ?_
  · intro e among b own _ within
    have apart := vocabulary.region_apart b (mem_spellings among own) a spelled
    exact ((infix_append_iff apart).mp within).imp id fun inside =>
      congrArg some (vocabulary.distinct.1 e among b own entry mem a ending inside)
  · intro e among b own two last
    exact congrArg some (vocabulary.short_distinct e among b own two entry mem a ending last)
  · intro e among same
    obtain rfl : e = entry :=
      List.inj_on_of_nodup_map region_keys among mem (Option.some.inj same)
    exact ⟨ending, vocabulary.short_own a spelled⟩

theorem extractRegion_quiet (qualifier : IsQualifier a)
    (quiet : a ∈ spellings platformPatterns ∨ a ∈ spellings editionAliases) :
    extractRegion u (qualified p a) = firstStated regionAliases 2 (titleWords u p) none := by
  have mem := mem_spellings_append.mpr quiet
  refine extractRegion_of lawful vocabulary qualifier ?_ ?_ nofun
  · intro e among b own _ within
    obtain ⟨outside, apart⟩ := vocabulary.regions a mem b (mem_spellings among own)
    exact .inl (((infix_append_iff apart).mp within).resolve_right outside)
  · intro e among b own two last
    rw [vocabulary.short_quiet b (mem_spellings among own) two a mem] at last
    cases last

end Lawful

theorem vocabulary : Vocabulary := by
  constructor <;>
    simp only [Quiet, Distinct, spellings, regionAliases, platformPatterns, editionAliases, aliases,
      List.map_cons, List.map_nil, String.reduceToList] <;>
    decide +kernel

/-! ## The gates -/

theorem statedMismatch_self (x : Option Text) : statedMismatch x x = false := by
  unfold statedMismatch
  cases truthy x <;> simp

theorem denominationsConflict_self (x : Option Denomination) :
    denominationsConflict x x = false := by
  unfold denominationsConflict
  cases x with
  | none => rfl
  | some d =>
      obtain ⟨amount, currency⟩ := d
      have near : (floatDistance amount amount).any
          (fun distance => toFloat (1 / 1000) < distance) = false :=
        Bool.eq_false_iff.mpr (not_farApart_self amount)
      simp only [near, Bool.false_or]
      cases truthy currency <;> simp

theorem statedMismatch_some {first second : Text} (some_ : first ≠ []) (some_' : second ≠ []) :
    statedMismatch (some first) (some second) = true ↔ first ≠ second := by
  simp [statedMismatch, truthy, Option.filter, some_, some_']

/-- The score of the two titles is 0. -/
def QualifierGated (u : Unicode) (ratio : Text → Text → ℚ) (p a b : Text) : Prop :=
  (scorePair ratio (parseTitle u (qualified p a)) (parseTitle u (qualified p b))).1 = 0

instance (u : Unicode) (ratio : Text → Text → ℚ) (p a b : Text) :
    Decidable (QualifierGated u ratio p a b) :=
  inferInstanceAs (Decidable (_ = _))

/-- Neither key is empty, so two stated entries mismatch if they are different. -/
theorem firstStated_mismatch {table : Aliases} (least : ℕ) (ws : List Text) {first second : Text}
    (keys : (table.map Prod.fst).Nodup) (nonempty : [] ∉ table.map Prod.fst)
    (firstListed : first ∈ table.map Prod.fst) (secondListed : second ∈ table.map Prod.fst) :
    statedMismatch (firstStated table least ws (some first))
      (firstStated table least ws (some second)) = true ↔
        first ≠ second ∧ Undisturbed table least ws first second := by
  obtain ⟨key, found⟩ := firstStated_isSome least ws firstListed
  obtain ⟨key', found'⟩ := firstStated_isSome least ws secondListed
  have some_ : key ≠ [] := fun none_ => nonempty (none_ ▸ mem_of_firstStated found)
  have some_' : key' ≠ [] := fun none_ => nonempty (none_ ▸ mem_of_firstStated found')
  rw [← not_iff_not, ← firstStated_eq_iff keys firstListed secondListed, found, found',
    statedMismatch_some some_ some_', not_not, Option.some_inj]

variable (lawful : u.Lawful) {ratio : Text → Text → ℚ} (nonneg : ∀ a b, 0 ≤ ratio a b)
  {b : Text}

include lawful nonneg

/-- Two qualifiers leave the face value as it is, so one of the three other gates
refuses. -/
theorem qualifierGated_iff (qualifier : IsQualifier a) (qualifier' : IsQualifier b) :
    QualifierGated u ratio p a b ↔
      (regionMismatch (extractRegion u (qualified p a)) (extractRegion u (qualified p b)) = true ∨
        statedMismatch (extractPlatform u (qualified p a))
          (extractPlatform u (qualified p b)) = true ∨
        statedMismatch (extractEdition u (qualified p a))
          (extractEdition u (qualified p b)) = true) := by
  have amounts : denominationsConflict (extractDenomination u (qualified p a))
      (extractDenomination u (qualified p b)) = false := by
    rw [qualifier.extractDenomination_qualified lawful,
      qualifier'.extractDenomination_qualified lawful, denominationsConflict_self]
  rw [QualifierGated, score_eq_zero_iff nonneg]
  constructor
  · intro gated
    by_contra passed
    simp only [not_or, Bool.not_eq_true] at passed
    exact gated ⟨amounts, passed.1, passed.2.1, passed.2.2⟩
  · rintro (mismatch | mismatch | mismatch) gates
    · exact Bool.eq_false_iff.mp gates.region mismatch
    · exact Bool.eq_false_iff.mp gates.platform mismatch
    · exact Bool.eq_false_iff.mp gates.edition mismatch

omit lawful nonneg in
/-- GLOBAL is listed first. -/
theorem firstStated_ne_global {ws : List Text} {first second key : Text}
    (clear : Undisturbed regionAliases 2 ws first second) (other : key ≠ globalRegion) :
    firstStated regionAliases 2 ws (some key) ≠ some globalRegion := by
  have place_ : ∀ entry ∈ regionAliases, entry.1 = globalRegion → entry ∈ regionAliases.take 1 := by
    decide +kernel
  intro found
  obtain ⟨entry, mem, same, stated⟩ := exists_states found (Ne.symm other)
  exact clear entry ((List.take_subset_take_left _ (by omega)) (place_ entry mem same)) stated

/-- Two regions, neither of them GLOBAL. -/
theorem regions_gated_iff {e f : Text × List Text} (eMem : e ∈ regionAliases) (aMem : a ∈ e.2)
    (fMem : f ∈ regionAliases) (bMem : b ∈ f.2) (apart : e.1 ≠ f.1) (eLocal : e.1 ≠ globalRegion)
    (fLocal : f.1 ≠ globalRegion) :
    QualifierGated u ratio p a b ↔ Undisturbed regionAliases 2 (titleWords u p) e.1 f.1 := by
  have spelled := mem_spellings eMem aMem
  have spelled' := mem_spellings fMem bMem
  have qualifier := isQualifier_region a spelled
  have qualifier' := isQualifier_region b spelled'
  have mismatch := firstStated_mismatch 2 (titleWords u p) region_keys
    (by decide) (List.mem_map_of_mem eMem) (List.mem_map_of_mem fMem)
  rw [qualifierGated_iff lawful nonneg qualifier qualifier',
    extractEdition_quiet lawful vocabulary qualifier (.inl spelled),
    extractEdition_quiet lawful vocabulary qualifier' (.inl spelled'),
    extractPlatform_quiet lawful vocabulary qualifier (.inl spelled),
    extractPlatform_quiet lawful vocabulary qualifier' (.inl spelled'),
    extractRegion_qualified lawful vocabulary eMem aMem,
    extractRegion_qualified lawful vocabulary fMem bMem]
  simp only [regionMismatch, Bool.and_eq_true, decide_eq_true_eq, mismatch, statedMismatch_self,
    Bool.false_eq_true, or_false]
  exact ⟨fun gated => gated.1.1.2, fun clear => ⟨⟨⟨apart, clear⟩, firstStated_ne_global clear eLocal⟩,
    firstStated_ne_global clear fLocal⟩⟩

/-- Two platforms. -/
theorem platforms_gated_iff {e f : Text × List Text} (eMem : e ∈ platformPatterns)
    (aMem : a ∈ e.2) (fMem : f ∈ platformPatterns) (bMem : b ∈ f.2) :
    QualifierGated u ratio p a b ↔
      endingPlatform (titleWords u p) e.1 a ≠ endingPlatform (titleWords u p) f.1 b ∧
        Undisturbed platformPatterns 0 (titleWords u p)
          (endingPlatform (titleWords u p) e.1 a) (endingPlatform (titleWords u p) f.1 b) := by
  have spelled := mem_spellings eMem aMem
  have spelled' := mem_spellings fMem bMem
  have qualifier := isQualifier_platform a spelled
  have qualifier' := isQualifier_platform b spelled'
  have listed : ∀ (key c : Text), key ∈ platformPatterns.map Prod.fst →
      endingPlatform (titleWords u p) key c ∈ platformPatterns.map Prod.fst := by
    intro key c mem
    unfold endingPlatform
    split
    · decide
    · exact mem
  have mismatch := firstStated_mismatch 0 (titleWords u p) platform_keys
    (by decide) (listed _ a (List.mem_map_of_mem eMem)) (listed _ b (List.mem_map_of_mem fMem))
  rw [qualifierGated_iff lawful nonneg qualifier qualifier',
    extractEdition_quiet lawful vocabulary qualifier (.inr spelled),
    extractEdition_quiet lawful vocabulary qualifier' (.inr spelled'),
    extractRegion_quiet lawful vocabulary qualifier (.inl spelled),
    extractRegion_quiet lawful vocabulary qualifier' (.inl spelled'),
    extractPlatform_qualified lawful vocabulary eMem aMem,
    extractPlatform_qualified lawful vocabulary fMem bMem]
  simp only [regionMismatch, mismatch, statedMismatch_self, Bool.false_and, Bool.false_eq_true,
    or_false, false_or]

/-- Two editions. -/
theorem editions_gated_iff {e f : Text × List Text} (eMem : e ∈ editionAliases) (aMem : a ∈ e.2)
    (fMem : f ∈ editionAliases) (bMem : b ∈ f.2) (apart : e.1 ≠ f.1) :
    QualifierGated u ratio p a b ↔ Undisturbed editionAliases 0 (titleWords u p) e.1 f.1 := by
  have spelled := mem_spellings eMem aMem
  have spelled' := mem_spellings fMem bMem
  have qualifier := isQualifier_edition a spelled
  have qualifier' := isQualifier_edition b spelled'
  have mismatch := firstStated_mismatch 0 (titleWords u p) edition_keys
    (by decide) (List.mem_map_of_mem eMem) (List.mem_map_of_mem fMem)
  rw [qualifierGated_iff lawful nonneg qualifier qualifier',
    extractRegion_quiet lawful vocabulary qualifier (.inr spelled),
    extractRegion_quiet lawful vocabulary qualifier' (.inr spelled'),
    extractPlatform_quiet lawful vocabulary qualifier (.inr spelled),
    extractPlatform_quiet lawful vocabulary qualifier' (.inr spelled'),
    extractEdition_qualified lawful vocabulary eMem aMem,
    extractEdition_qualified lawful vocabulary fMem bMem]
  simp only [regionMismatch, mismatch, statedMismatch_self, Bool.false_and, Bool.false_eq_true,
    false_or, and_iff_right apart]

omit lawful nonneg in
/-- Titles that end in two different qualifiers score 0 exactly if the product's own
words state no entry of the table up to the earlier of the two. -/
theorem qualifiers_gated_iff (u : Unicode) (lawful : u.Lawful) (ratio : Text → Text → ℚ)
    (nonneg : ∀ x y, 0 ≤ ratio x y) (p : Text) :
    (∀ e ∈ regionAliases, ∀ a ∈ e.2, ∀ f ∈ regionAliases, ∀ b ∈ f.2, e.1 ≠ f.1 →
      e.1 ≠ globalRegion → f.1 ≠ globalRegion →
        (QualifierGated u ratio p a b ↔ Undisturbed regionAliases 2 (titleWords u p) e.1 f.1)) ∧
    (∀ e ∈ platformPatterns, ∀ a ∈ e.2, ∀ f ∈ platformPatterns, ∀ b ∈ f.2, e.1 ≠ f.1 →
      (QualifierGated u ratio p a b ↔
        endingPlatform (titleWords u p) e.1 a ≠ endingPlatform (titleWords u p) f.1 b ∧
          Undisturbed platformPatterns 0 (titleWords u p)
            (endingPlatform (titleWords u p) e.1 a) (endingPlatform (titleWords u p) f.1 b))) ∧
    ∀ e ∈ editionAliases, ∀ a ∈ e.2, ∀ f ∈ editionAliases, ∀ b ∈ f.2, e.1 ≠ f.1 →
      (QualifierGated u ratio p a b ↔ Undisturbed editionAliases 0 (titleWords u p) e.1 f.1) :=
  ⟨fun _ eMem _ aMem _ fMem _ bMem apart eLocal fLocal =>
      regions_gated_iff lawful nonneg eMem aMem fMem bMem apart eLocal fLocal,
    fun _ eMem _ aMem _ fMem _ bMem _ => platforms_gated_iff lawful nonneg eMem aMem fMem bMem,
    fun _ eMem _ aMem _ fMem _ bMem apart =>
      editions_gated_iff lawful nonneg eMem aMem fMem bMem apart⟩

omit lawful nonneg in
theorem minecraft_gated :
    QualifierGated Unicode.ascii Difflib.ratio "Minecraft".toList "us".toList "europe".toList ∧
      QualifierGated Unicode.ascii Difflib.ratio "Minecraft".toList "xbox".toList "gog".toList ∧
      QualifierGated Unicode.ascii Difflib.ratio "Minecraft".toList "gold".toList "deluxe".toList := by
  obtain ⟨regions, platforms, editions⟩ := qualifiers_gated_iff Unicode.ascii
    Unicode.ascii_lawful Difflib.ratio Difflib.ratio_nonneg "Minecraft".toList
  refine ⟨(regions ("US".toList, ["united states".toList, "usa".toList, "us".toList]) ?_ _ ?_
      ("EU".toList, ["europe".toList, "european union".toList, "eu".toList]) ?_ _ ?_ ?_ ?_ ?_).mpr ?_,
    (platforms ("xbox".toList, ["xbox".toList, "xbl".toList, "microsoft store".toList,
      "windows store".toList]) ?_ _ ?_ ("gog".toList, ["gog".toList]) ?_ _ ?_ ?_).mpr ?_,
    (editions ("gold".toList, ["gold".toList]) ?_ _ ?_ ("deluxe".toList, ["deluxe".toList])
      ?_ _ ?_ ?_).mpr ?_⟩ <;> decide +kernel

omit lawful nonneg in
/-- The product's own name states the region, the platform or the edition first. -/
theorem own_name_not_gated :
    ¬ QualifierGated Unicode.ascii Difflib.ratio "Counter-Strike: Global Offensive".toList
        "us".toList "europe".toList ∧
      ¬ QualifierGated Unicode.ascii Difflib.ratio "Epic Battle Simulator".toList
        "origin".toList "gog".toList ∧
      ¬ QualifierGated Unicode.ascii Difflib.ratio "Ultimate Chicken Horse".toList
        "deluxe".toList "gold".toList := by
  decide +kernel

end FazerBridge
