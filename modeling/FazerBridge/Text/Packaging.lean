import FazerBridge.Lib.Striking
import FazerBridge.Text.Search

/-!
# The core name, word by word

`_strip_noise` works on padded text.  On the words of the title each of its replaces strikes
one phrase, and the two patterns after them work on single words: `survivors` is what is
left, each word with its place in the title, and spells the core (`split_core`).
-/

namespace FazerBridge

namespace Text

open Striking

variable {w x y : Text} {p ws : List Text}

/-! ## Characters -/

theorem mem_of_mem_splitFrom {c : Char} {acc t : Text} (mem : w ∈ splitFrom acc t) (char : c ∈ w) :
    c ∈ acc ∨ c ∈ t := by
  induction t generalizing acc with
  | nil =>
      rw [splitFrom] at mem
      split at mem
      · cases mem
      · rw [List.mem_singleton.mp mem] at char
        exact .inl (List.mem_reverse.mp char)
  | cons d t ih =>
      have later : ∀ acc, w ∈ splitFrom acc t → c ∈ acc ∨ c ∈ d :: t := by
        intro acc mem
        exact (ih mem).imp_right (List.mem_cons_of_mem d)
      rw [splitFrom] at mem
      split at mem
      · split at mem
        · exact .inr ((later [] mem).resolve_left List.not_mem_nil)
        · rcases List.mem_cons.mp mem with rfl | mem
          · exact .inl (List.mem_reverse.mp char)
          · exact .inr ((later [] mem).resolve_left List.not_mem_nil)
      · rcases later (d :: acc) mem with here | there
        · rcases List.mem_cons.mp here with rfl | before
          · exact .inr List.mem_cons_self
          · exact .inl before
        · exact .inr there

/-- The characters of the words are those of the text. -/
theorem mem_of_mem_split {c : Char} {t : Text} (mem : w ∈ split t) (char : c ∈ w) : c ∈ t :=
  (mem_of_mem_splitFrom mem char).resolve_left List.not_mem_nil

/-- A character of joined words is a blank or one of a word. -/
theorem mem_join {c : Char} (mem : c ∈ join ws) : c = ' ' ∨ ∃ w ∈ ws, c ∈ w := by
  induction ws with
  | nil => cases mem
  | cons w ws ih =>
      cases ws with
      | nil => exact .inr ⟨w, List.mem_cons_self, mem⟩
      | cons v ws =>
          rcases List.mem_append.mp mem with here | mem
          · exact .inr ⟨w, List.mem_cons_self, here⟩
          · rcases List.mem_cons.mp mem with blank | mem
            · exact .inl blank
            · refine (ih mem).imp_right fun found => ?_
              obtain ⟨x, isWord, char⟩ := found
              exact ⟨x, List.mem_cons_of_mem w isWord, char⟩

/-- A replace brings in only characters of the new text. -/
theorem mem_of_mem_replaceFrom {c : Char} {old new : Text} {n : ℕ} {t : Text}
    (mem : c ∈ replaceFrom old new n t) : c ∈ new ∨ c ∈ t := by
  induction t generalizing n with
  | nil => cases n <;> cases mem
  | cons d t ih =>
      have later : ∀ {n}, c ∈ replaceFrom old new n t → c ∈ new ∨ c ∈ d :: t := by
        intro n mem
        exact (ih mem).imp_right (List.mem_cons_of_mem d)
      cases n with
      | succ n => exact later mem
      | zero =>
          rw [replaceFrom] at mem
          split at mem
          · rcases List.mem_append.mp mem with here | mem
            · exact .inl here
            · exact later mem
          · rcases List.mem_cons.mp mem with rfl | mem
            · exact .inr List.mem_cons_self
            · exact later mem

/-! ## One replace -/

theorem replaceFrom_skip (old new x t : Text) :
    replaceFrom old new x.length (x ++ t) = replaceFrom old new 0 t := by
  induction x with
  | nil => rfl
  | cons c x ih => exact ih

/-- A pattern that starts with a blank does not start in a word. -/
theorem replaceFrom_word (old new t : Text) (whole : ' ' ∉ w) :
    replaceFrom (' ' :: old) new 0 (w ++ t) = w ++ replaceFrom (' ' :: old) new 0 t := by
  induction w with
  | nil => rfl
  | cons c w ih =>
      have other : c ≠ ' ' := by
        rintro rfl
        exact whole List.mem_cons_self
      have absent : (' ' :: old).isPrefixOf (c :: w ++ t) = false := by
        simp [List.isPrefixOf, other.symm]
      rw [List.cons_append] at absent ⊢
      rw [replaceFrom, absent, if_neg Bool.false_ne_true,
        ih fun mem => whole (List.mem_cons_of_mem c mem)]
      rfl

theorem spaced_append (vs ws : List Text) : spaced (vs ++ ws) = spaced vs ++ spaced ws :=
  List.flatMap_append

/-- Replacing a padded phrase by a blank strikes its words. -/
theorem replace_spaced (some_ : p ≠ []) (words : ∀ v ∈ p, IsWord v) (words' : ∀ w ∈ ws, IsWord w) :
    Text.replace (pad (join p)) [' '] (' ' :: spaced ws) = ' ' :: spaced (strike id p ws) := by
  rw [pad_join some_, Text.replace, strike]
  induction size : ws.length using Nat.strong_induction_on generalizing ws with
  | _ n ih =>
    -- the word after an occurrence is copied
    have copies : ∀ rest : List Text, rest.length ≤ n → (∀ w ∈ rest, IsWord w) →
        replaceFrom (' ' :: spaced p) [' '] 0 (spaced rest) = spaced (strikeFrom id p 1 rest) := by
      intro rest short words''
      cases rest with
      | nil => rfl
      | cons r rest =>
          have word := words'' r List.mem_cons_self
          rw [spaced_cons, replaceFrom_word _ _ _ word.2,
            ih rest.length short (fun w mem => words'' w (List.mem_cons_of_mem r mem)) rfl,
            strikeFrom, spaced_cons]
    cases ws with
    | nil =>
        obtain ⟨v, p, rfl⟩ := List.exists_cons_of_ne_nil some_
        have absent : (' ' :: spaced (v :: p)).isPrefixOf [' '] = false := by
          obtain ⟨c, v, rfl⟩ := List.exists_cons_of_ne_nil (words v List.mem_cons_self).1
          rfl
        have empty : spaced [] = [] := rfl
        rw [strikeFrom, empty, replaceFrom, absent]
        rfl
    | cons w ws =>
        by_cases occurs : p <+: w :: ws
        · have found : (' ' :: spaced p).isPrefixOf (' ' :: spaced (w :: ws)) = true := by
            rw [List.isPrefixOf_iff_prefix, List.cons_prefix_cons, prefix_spaced words words']
            exact ⟨rfl, occurs⟩
          have struck : strikeFrom id p 0 (w :: ws) =
              strikeFrom id p 1 ((w :: ws).drop p.length) := by
            obtain ⟨k, size'⟩ := Nat.exists_eq_add_of_lt (List.length_pos_iff.mpr some_)
            rw [Nat.zero_add] at size'
            rw [strikeFrom, List.map_id, if_pos occurs, size', strikeFrom_succ]
            rfl
          obtain ⟨rest, parts⟩ := occurs
          have skip : replaceFrom (' ' :: spaced p) [' '] (' ' :: spaced p).length.pred
              (spaced (w :: ws)) = replaceFrom (' ' :: spaced p) [' '] 0 (spaced rest) := by
            rw [← parts, spaced_append]
            exact replaceFrom_skip _ _ _ _
          have dropped : (w :: ws).drop p.length = rest := by rw [← parts, List.drop_left]
          rw [struck, dropped, replaceFrom, found, if_pos rfl]
          refine congrArg (' ' :: ·) (skip.trans (copies rest ?_ ?_))
          · rw [← size, ← parts, List.length_append]
            exact Nat.le_add_left _ _
          · intro v mem
            exact words' v (parts ▸ List.mem_append_right p mem)
        · have absent : (' ' :: spaced p).isPrefixOf (' ' :: spaced (w :: ws)) = false := by
            rw [Bool.eq_false_iff, ne_eq, List.isPrefixOf_iff_prefix, List.cons_prefix_cons,
              prefix_spaced words words']
            exact fun found => occurs found.2
          rw [replaceFrom, absent, if_neg Bool.false_ne_true, strikeFrom, List.map_id, if_neg occurs,
            spaced_cons, spaced_cons, replaceFrom_word _ _ _ (words' w List.mem_cons_self).2,
            ih ws.length (by simp [← size]) (fun v mem => words' v (List.mem_cons_of_mem w mem)) rfl]

/-! ## All phrases -/

/-- Replacing one padded phrase after the other strikes their words in that order. -/
theorem replaceAll_spaced {phrases : List Text}
    (spelt : ∀ phrase ∈ phrases, join (split phrase) = phrase ∧ split phrase ≠ [])
    (words : ∀ w ∈ ws, IsWord w) :
    phrases.foldl (fun result phrase => Text.replace (pad phrase) [' '] result)
        (' ' :: spaced ws) = ' ' :: spaced (strikeAll id (phrases.map split) ws) := by
  induction phrases generalizing ws with
  | nil => rfl
  | cons phrase phrases ih =>
      obtain ⟨joined, some_⟩ := spelt phrase List.mem_cons_self
      have first := replace_spaced some_ (fun w mem => isWord_of_mem_split w mem) words
      rw [joined] at first
      rw [List.foldl_cons, first, ih (fun q mem => spelt q (List.mem_cons_of_mem phrase mem)) ?_]
      · rfl
      · intro w mem
        exact words w ((strikeFrom_sublist id (split phrase) 0 ws).subset mem)

end Text

namespace CoreName

open Text Striking

/-- What `_strip_noise` removes by a replace, in its order. -/
def packaging : List Text :=
  (noisePhrases.filter fun p => p ∉ protectedPhrases) ++ platformPatterns.flatMap Prod.snd ++
    ((regionAliases.flatMap Prod.snd).filter fun a => 2 < a.length) ++
    editionAliases.flatMap Prod.snd ++ ["edition".toList]

/-- Each phrase is the words it splits into. -/
theorem packaging_spelt : ∀ phrase ∈ packaging, join (split phrase) = phrase ∧ split phrase ≠ [] := by
  decide +kernel

def packagingWords : List (List Text) := packaging.map split

theorem packagingWords_ne_nil : ∀ p ∈ packagingWords, p ≠ [] := by
  intro p mem
  obtain ⟨phrase, isPhrase, rfl⟩ := List.mem_map.mp mem
  exact (packaging_spelt phrase isPhrase).2

/-! ## The patterns -/

def keyWords : List Text := ["key", "keys", "code", "codes"].map String.toList

/-- What the pattern of the key words leaves of a word. -/
def keyParts (w : Text) : List Text := split (dropKeyWords 0 [] w)

/-- What the pattern of the tail leaves of the last word. -/
def tailParts (w : Text) : List Text := split (dropTail w)

variable {w : Text} {ws : List Text}

/-- What stands before counts only for its last character. -/
theorem dropKeyWords_congr {n : ℕ} {b b' t : Text} (same : startsWord b = startsWord b') :
    dropKeyWords n b t = dropKeyWords n b' t := by
  induction t generalizing n b b' with
  | nil => cases n <;> rfl
  | cons c t ih =>
      cases n with
      | succ n => exact ih rfl
      | zero =>
          rw [dropKeyWords, dropKeyWords, same]
          split
          · exact congrArg (' ' :: ·) (ih rfl)
          · exact congrArg (c :: ·) (ih rfl)

theorem keyWords_blankless : ∀ k ∈ keyWords, ' ' ∉ k := by decide

/-- The test for a key word does not see past a blank. -/
theorem find_keyWord_append_blank (b x t : Text) :
    (keyWords.find? fun k => startsWord b && k.isPrefixOf (x ++ ' ' :: t) &&
        startsWord ((x ++ ' ' :: t).drop k.length)) =
      keyWords.find? fun k => startsWord b && k.isPrefixOf x && startsWord (x.drop k.length) := by
  refine List.find?_congr fun k mem => ?_
  have same : k.isPrefixOf (x ++ ' ' :: t) = k.isPrefixOf x := by
    rw [Bool.eq_iff_iff, List.isPrefixOf_iff_prefix, List.isPrefixOf_iff_prefix]
    exact prefix_append_blank (keyWords_blankless k mem)
  rw [same]
  cases found : k.isPrefixOf x with
  | false => simp
  | true =>
      have fits := (List.isPrefixOf_iff_prefix.mp found).length_le
      rw [List.drop_append_of_le_length fits]
      cases x.drop k.length with
      | nil => simp [startsWord]
      | cons c rest => rfl

/-- The pattern of the key words works on the two sides of a blank apart. -/
theorem dropKeyWords_append_blank {n : ℕ} {b x t : Text} (whole : ' ' ∉ x) (short : n ≤ x.length) :
    dropKeyWords n b (x ++ ' ' :: t) = dropKeyWords n b x ++ ' ' :: dropKeyWords 0 [] t := by
  have vocabulary : ["key", "keys", "code", "codes"].map String.toList = keyWords := rfl
  induction x generalizing n b with
  | nil =>
      obtain rfl : n = 0 := Nat.le_zero.mp short
      have absent : (keyWords.find? fun k => startsWord b && k.isPrefixOf ([] ++ ' ' :: t) &&
          startsWord (([] ++ ' ' :: t).drop k.length)) = none := by
        rw [find_keyWord_append_blank]
        cases startsWord b <;> rfl
      have step : dropKeyWords 0 b (' ' :: t) = ' ' :: dropKeyWords 0 (' ' :: b) t := by
        rw [List.nil_append] at absent
        rw [dropKeyWords, vocabulary, absent]
      exact step.trans (congrArg (' ' :: ·) (dropKeyWords_congr rfl))
  | cons c x ih =>
      have whole' : ' ' ∉ x := fun mem => whole (List.mem_cons_of_mem c mem)
      cases n with
      | succ n => exact ih whole' (Nat.le_of_succ_le_succ short)
      | zero =>
          have same := find_keyWord_append_blank b (c :: x) t
          rw [List.cons_append] at same
          rw [List.cons_append, dropKeyWords, dropKeyWords, vocabulary, same]
          cases found : keyWords.find? fun k => startsWord b && k.isPrefixOf (c :: x) &&
              startsWord ((c :: x).drop k.length) with
          | none => exact congrArg (c :: ·) (ih whole' (Nat.zero_le _))
          | some k =>
              have occurs := List.find?_some found
              simp only [Bool.and_eq_true, List.isPrefixOf_iff_prefix] at occurs
              have fits := occurs.1.2.length_le
              rw [List.length_cons] at fits
              exact congrArg (' ' :: ·) (ih whole' (by omega))

/-- The pattern of the key words works on each word alone. -/
theorem split_dropKeyWords_join (words : ∀ w ∈ ws, IsWord w) :
    split (dropKeyWords 0 [] (join ws)) = ws.flatMap keyParts := by
  induction ws with
  | nil => rfl
  | cons w ws ih =>
      cases ws with
      | nil => simp [join, keyParts]
      | cons v ws =>
          rw [join, dropKeyWords_append_blank (words w List.mem_cons_self).2 (Nat.zero_le _),
            split_append_blank, ih fun w' mem => words w' (List.mem_cons_of_mem w mem)]
          · rfl
          · exact List.cons_ne_nil v ws

/-- A spaced text splits into its words. -/
theorem split_blank_spaced (words : ∀ w ∈ ws, IsWord w) : split (' ' :: spaced ws) = ws := by
  have alone : ∀ ws : List Text, (∀ w ∈ ws, IsWord w) → split (spaced ws) = ws := by
    intro ws words
    induction ws with
    | nil => rfl
    | cons w ws ih =>
        rw [spaced_cons, split_append_blank, split_word (words w List.mem_cons_self),
          ih fun v mem => words v (List.mem_cons_of_mem w mem)]
        rfl
  exact (split_append_blank [] (spaced ws)).trans (alone ws words)

theorem split_collapse (t : Text) : split (collapse t) = split t :=
  split_join fun w mem => isWord_of_mem_split w mem

/-- `_strip_noise` is one replace after the other, and then the pattern of the key words. -/
theorem stripNoise_eq (t : Text) : stripNoise t = collapse (dropKeyWords 0 [] (collapse
    (packaging.foldl (fun result phrase => Text.replace (pad phrase) [' '] result) (pad t)))) := by
  unfold stripNoise packaging
  simp only [List.foldl_append, List.foldl_cons, List.foldl_nil]

/-- `_strip_noise`, word by word. -/
theorem stripNoise_join (words : ∀ w ∈ ws, IsWord w) :
    stripNoise (join ws) = join ((strikeAll id packagingWords ws).flatMap keyParts) := by
  cases ws with
  | nil =>
      have nothing : strikeAll id packagingWords ([] : List Text) = [] :=
        List.sublist_nil.mp (strikeAll_sublist id packagingWords [])
      rw [nothing]
      decide +kernel
  | cons w ws =>
      have left : ∀ v ∈ strikeAll id packagingWords (w :: ws), IsWord v := by
        intro v mem
        exact words v ((strikeAll_sublist id packagingWords (w :: ws)).subset mem)
      rw [stripNoise_eq, pad_join (List.cons_ne_nil w ws), replaceAll_spaced packaging_spelt words]
      unfold collapse
      change join (split (dropKeyWords 0 [] (join (split (' ' :: spaced
        (strikeAll id packagingWords (w :: ws))))))) = _
      rw [split_blank_spaced left, split_dropKeyWords_join left]

/-- What the pattern leaves are words. -/
theorem isWord_keyParts : ∀ v ∈ ws.flatMap keyParts, IsWord v := by
  intro v mem
  obtain ⟨w, -, part⟩ := List.mem_flatMap.mp mem
  exact isWord_of_mem_split v part

theorem join_cons (some_ : ws ≠ []) : join (w :: ws) = w ++ ' ' :: join ws := by
  cases ws with
  | nil => exact absurd rfl some_
  | cons v ws => rfl

theorem join_concat (some_ : ws ≠ []) : join (ws ++ [w]) = join ws ++ ' ' :: w := by
  induction ws with
  | nil => exact absurd rfl some_
  | cons v ws ih =>
      cases ws with
      | nil => rfl
      | cons v' ws =>
          have some' := List.cons_ne_nil v' ws
          rw [List.cons_append, join_cons (List.append_ne_nil_of_left_ne_nil some' [w]), ih some',
            join_cons some', List.append_assoc, List.cons_append]

/-- The tail is cut off the last word alone. -/
theorem split_dropTail_join (words : ∀ v ∈ ws, IsWord v) (word : IsWord w) :
    split (dropTail (join (ws ++ [w]))) = ws ++ tailParts w := by
  cases ws with
  | nil => rfl
  | cons v ws =>
      have before : split (join (v :: ws)) = v :: ws := split_join words
      have reversed : (join (v :: ws) ++ ' ' :: w).reverse =
          w.reverse ++ ' ' :: (join (v :: ws)).reverse := by simp
      have kept : split (join (v :: ws) ++ ' ' :: w) = v :: ws ++ split w := by
        rw [split_append_blank, before]
      rw [join_concat (List.cons_ne_nil v ws), tailParts]
      unfold dropTail
      rw [reversed]
      rcases tail : w.reverse with _ | ⟨a, _ | ⟨b, rest⟩⟩
      · exact absurd (List.reverse_eq_nil_iff.mp tail) word.1
      · have blank : Char.isLower ' ' = false := by decide
        simp [blank, kept]
      · have same : startsWord (rest ++ ' ' :: (join (v :: ws)).reverse) = startsWord rest := by
          cases rest with
          | nil => rfl
          | cons c rest => rfl
        simp only [List.cons_append, same]
        split
        · have parts : (rest ++ ' ' :: (join (v :: ws)).reverse).reverse =
              join (v :: ws) ++ ' ' :: rest.reverse := by simp
          rw [split_collapse, split_collapse, parts, split_append_blank, before]
          rfl
        · exact kept

/-! ## Lengths -/

/-- A word is no longer than the text it is in. -/
theorem length_le_of_mem_split {t : Text} (mem : w ∈ split t) : w.length ≤ t.length := by
  have general : ∀ (t acc : Text), w ∈ splitFrom acc t → w.length ≤ acc.length + t.length := by
    intro t
    induction t with
    | nil =>
        intro acc mem
        rw [splitFrom] at mem
        split at mem
        · cases mem
        · rw [List.mem_singleton.mp mem, List.length_reverse]
          exact Nat.le_add_right _ _
    | cons c t ih =>
        intro acc mem
        rw [List.length_cons]
        rw [splitFrom] at mem
        split at mem
        · split at mem
          · exact (ih [] mem).trans (by rw [List.length_nil]; omega)
          · rcases List.mem_cons.mp mem with rfl | mem
            · simp
            · exact (ih [] mem).trans (by rw [List.length_nil]; omega)
        · have later := ih (c :: acc) mem
          rw [List.length_cons] at later
          omega
  simpa using general t [] mem

/-- One step of the pattern: a key word is dropped, or a character kept. -/
theorem dropKeyWords_step (b : Text) (c : Char) (t : Text) :
    (∃ k ∈ keyWords, k <+: c :: t ∧
      dropKeyWords 0 b (c :: t) = ' ' :: dropKeyWords (k.length - 1) (c :: b) t) ∨
    dropKeyWords 0 b (c :: t) = c :: dropKeyWords 0 (c :: b) t := by
  have vocabulary : ["key", "keys", "code", "codes"].map String.toList = keyWords := rfl
  rw [dropKeyWords, vocabulary]
  cases found : keyWords.find? fun k => startsWord b && k.isPrefixOf (c :: t) &&
      startsWord ((c :: t).drop k.length) with
  | none => exact .inr rfl
  | some k =>
      have occurs := List.find?_some found
      simp only [Bool.and_eq_true, List.isPrefixOf_iff_prefix] at occurs
      exact .inl ⟨k, List.mem_of_find?_eq_some found, occurs.1.2, rfl⟩

/-- The pattern of the key words makes no text longer. -/
theorem length_dropKeyWords {n : ℕ} {b t : Text} (short : n ≤ t.length) :
    (dropKeyWords n b t).length + n ≤ t.length := by
  induction t generalizing n b with
  | nil =>
      obtain rfl : n = 0 := Nat.le_zero.mp short
      exact Nat.le_refl 0
  | cons c t ih =>
      rw [List.length_cons] at short ⊢
      cases n with
      | succ n => exact Nat.succ_le_succ (ih (Nat.le_of_succ_le_succ short))
      | zero =>
          rcases dropKeyWords_step b c t with ⟨k, -, occurs, step⟩ | step
          · have fits := occurs.length_le
            rw [List.length_cons] at fits
            have rest := ih (b := c :: b) (n := k.length - 1) (by omega)
            rw [step, List.length_cons]
            omega
          · rw [step, List.length_cons]
            exact Nat.succ_le_succ (ih (Nat.zero_le _))

/-- It leaves a text as it is, or makes it shorter. -/
theorem dropKeyWords_cases (b t : Text) :
    dropKeyWords 0 b t = t ∨ (dropKeyWords 0 b t).length < t.length := by
  induction t generalizing b with
  | nil => exact .inl rfl
  | cons c t ih =>
      rcases dropKeyWords_step b c t with ⟨k, isKey, occurs, step⟩ | step
      · have long : ∀ k ∈ keyWords, 3 ≤ k.length := by decide
        have fits := occurs.length_le
        rw [List.length_cons] at fits
        have rest := length_dropKeyWords (b := c :: b) (n := k.length - 1) (t := t) (by omega)
        have three := long k isKey
        rw [step, List.length_cons, List.length_cons]
        exact .inr (by omega)
      · rw [step]
        rcases ih (c :: b) with same | shorter
        · exact .inl (congrArg (c :: ·) same)
        · exact .inr (Nat.succ_lt_succ shorter)

/-- What the pattern leaves of a word is the word itself, or shorter. -/
theorem keyParts_cases (word : IsWord w) :
    keyParts w = [w] ∨ ∀ part ∈ keyParts w, part.length < w.length := by
  rcases dropKeyWords_cases [] w with same | shorter
  · exact .inl ((congrArg split same).trans (split_word word))
  · exact .inr fun part mem => (length_le_of_mem_split mem).trans_lt shorter

/-- The pattern of the tail leaves a word as it is, or only shorter parts. -/
theorem tailParts_cases (word : IsWord w) :
    tailParts w = [w] ∨ ∀ part ∈ tailParts w, part.length < w.length := by
  have whole : split w = [w] := split_word word
  unfold tailParts dropTail
  rcases tail : w.reverse with _ | ⟨a, _ | ⟨b, rest⟩⟩
  · exact .inl whole
  · exact .inl whole
  · dsimp only
    split
    · have size := congrArg List.length tail
      simp only [List.length_reverse, List.length_cons] at size
      refine .inr fun part mem => ?_
      have short := length_le_of_mem_split (split_collapse _ ▸ mem)
      rw [List.length_reverse] at short
      omega
    · exact .inl whole

/-! ## The words of a title -/

/-- A word with its place in the title. -/
abbrev PlacedWord := Text × ℕ

/-- The parts of each word that the pattern of the key words leaves, at its place. -/
def keyed (ts : List PlacedWord) : List PlacedWord :=
  ts.flatMap fun t => (keyParts t.1).map fun part => (part, t.2)

/-- The words with what the pattern of the tail leaves of the last one. -/
def cutTail (ts : List PlacedWord) : List PlacedWord :=
  ts.dropLast ++ ts.getLast?.toList.flatMap fun t => (tailParts t.1).map fun part => (part, t.2)

section Title

variable (u : Unicode) (title : Text)

/-- The words of the normalised title after the roman numerals. -/
def numberedWords : List Text :=
  split (roman.foldl (fun s entry => Text.replace entry.1 entry.2 s) (pad (basicNormalize u title)))

/-- The words that no replace strikes. -/
def unstruck : List PlacedWord :=
  strikeAll Prod.fst packagingWords (numberedWords u title).zipIdx

def unkeyed : List PlacedWord := keyed (unstruck u title)

/-- The tail of the core is looked at. -/
def Tailed : Prop :=
  (extractRegion u title).isSome ∧ 3 < (join ((unkeyed u title).map Prod.fst)).length

instance : Decidable (Tailed u title) := inferInstanceAs (Decidable (_ ∧ _))

/-- What is left of the title. -/
def survivors : List PlacedWord :=
  if Tailed u title then cutTail (unkeyed u title) else unkeyed u title

end Title

variable {u : Unicode} {title : Text}

theorem isWord_numberedWords : ∀ w ∈ numberedWords u title, IsWord w := isWord_of_mem_split

theorem map_keyed (ts : List PlacedWord) :
    (keyed ts).map Prod.fst = (ts.map Prod.fst).flatMap keyParts := by
  induction ts with
  | nil => rfl
  | cons t ts ih =>
      rw [keyed, List.flatMap_cons, List.map_append, List.map_map, List.map_cons,
        List.flatMap_cons, ← ih]
      exact congrArg (· ++ _) (List.map_id _)

/-- What is left of the placed words is what `_strip_noise` leaves of the title. -/
theorem map_unkeyed : (unkeyed u title).map Prod.fst =
    (strikeAll id packagingWords (numberedWords u title)).flatMap keyParts := by
  rw [unkeyed, map_keyed, unstruck, map_strikeAll, List.zipIdx_map_fst]

/-- The tail is cut off the last word. -/
theorem map_cutTail {ts : List PlacedWord} (words : ∀ w ∈ ts.map Prod.fst, IsWord w) :
    split (dropTail (join (ts.map Prod.fst))) = (cutTail ts).map Prod.fst := by
  rcases List.eq_nil_or_concat ts with rfl | ⟨before, last, rfl⟩
  · rfl
  · rw [List.concat_eq_append, List.map_append] at words ⊢
    rw [cutTail, List.dropLast_concat, List.getLast?_concat, List.map_append]
    have cut := split_dropTail_join (fun v mem => words v (List.mem_append_left _ mem))
      (words last.1 (List.mem_append_right _ (List.mem_singleton_self _)))
    refine cut.trans (congrArg (_ ++ ·) ?_)
    simp only [Option.toList_some, List.flatMap_singleton, List.map_map]
    exact (List.map_id _).symm

/-- The core spells what is left of the title. -/
theorem split_core : split (parseTitle u title).core = (survivors u title).map Prod.fst := by
  have words : ∀ w ∈ (unkeyed u title).map Prod.fst, IsWord w := by
    rw [map_unkeyed]
    exact isWord_keyParts
  have stripped : stripNoise (collapse (roman.foldl
      (fun s entry => Text.replace entry.1 entry.2 s) (pad (basicNormalize u title)))) =
        join ((unkeyed u title).map Prod.fst) := by
    rw [map_unkeyed]
    exact stripNoise_join isWord_numberedWords
  have core : (parseTitle u title).core =
      if (extractRegion u title).isSome ∧ 3 < (stripNoise (collapse (roman.foldl
          (fun s entry => Text.replace entry.1 entry.2 s)
          (pad (basicNormalize u title))))).length then
        dropTail (stripNoise (collapse (roman.foldl
          (fun s entry => Text.replace entry.1 entry.2 s) (pad (basicNormalize u title)))))
      else stripNoise (collapse (roman.foldl
        (fun s entry => Text.replace entry.1 entry.2 s) (pad (basicNormalize u title)))) := rfl
  rw [core, stripped]
  by_cases tailed : Tailed u title
  · have tailed' := tailed
    unfold Tailed at tailed'
    rw [survivors, if_pos tailed, if_pos tailed', map_cutTail words]
  · have tailed' := tailed
    unfold Tailed at tailed'
    rw [survivors, if_neg tailed, if_neg tailed', split_join words]

/-- No word of a title has a dash. -/
theorem dash_not_mem : ∀ w ∈ numberedWords u title, '-' ∉ w := by
  intro w mem dash
  have normalized : '-' ∉ basicNormalize u title := by
    intro dash
    rcases mem_join dash with blank | ⟨v, isWord, dash⟩
    · cases blank
    · obtain ⟨c, -, same⟩ := List.mem_map.mp (mem_of_mem_split isWord dash)
      split at same
      · rename_i kept
        rw [same] at kept
        exact absurd kept (by decide)
      · cases same
  have numerals : ∀ entries : List (Text × Text), (∀ entry ∈ entries, '-' ∉ entry.2) →
      ∀ t : Text, '-' ∉ t →
        '-' ∉ entries.foldl (fun s entry => Text.replace entry.1 entry.2 s) t := by
    intro entries dashless
    induction entries with
    | nil => exact fun _ absent => absent
    | cons entry entries ih =>
        intro t absent
        refine ih (fun e mem => dashless e (List.mem_cons_of_mem entry mem)) _ fun dash => ?_
        rcases mem_of_mem_replaceFrom dash with new | old
        · exact dashless entry List.mem_cons_self new
        · exact absent old
  refine numerals roman (by decide) _ ?_ (mem_of_mem_split mem dash)
  simp [pad, normalized]

end CoreName

end FazerBridge
