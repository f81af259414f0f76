import FazerBridge.Text.Words

/-!
# Searches

`search` tries a pattern position by position.  What stands before the match may be
skipped (`search_skip`), and what stands after a title may be cut off where every
pattern stops (`search_append`).  The face value patterns stop at a blank that no
digit follows, so a qualifier after " - " does not change a face value
(`extractDenomination_append`).
-/

namespace FazerBridge

namespace Text

variable {α : Type} {p : Text → Text → Option α} {before t x z : Text}

theorem search_cons (p : Text → Text → Option α) (before : Text) (c : Char) (cs : Text) :
    search p before (c :: cs) = (p before (c :: cs)).or (search p (c :: before) cs) := by
  rw [search]
  cases p before (c :: cs) <;> rfl

theorem search_of_match {a : α} (found : p before t = some a) : search p before t = some a := by
  cases t with
  | nil => exact found
  | cons c cs => rw [search_cons, found, Option.some_or]

/-- Positions without a match are passed over. -/
theorem search_skip (fails : ∀ b y, y <:+ x → y ≠ [] → p b (y ++ t) = none) :
    search p before (x ++ t) = search p (x.reverse ++ before) t := by
  induction x generalizing before with
  | nil => rfl
  | cons c cs ih =>
      have first : p before (c :: (cs ++ t)) = none :=
        fails before (c :: cs) List.suffix_rfl (List.cons_ne_nil c cs)
      have rest : ∀ b y, y <:+ cs → y ≠ [] → p b (y ++ t) = none := fun b y suffix =>
        fails b y (suffix.trans (List.suffix_cons c cs))
      rw [List.cons_append, search_cons, first, Option.none_or, ih rest]
      simp

/-- A pattern that fails at every position is not found. -/
theorem search_eq_none (fails : ∀ b s, s <:+ t → p b s = none) : search p before t = none := by
  have skipped : search p before (t ++ []) = search p (t.reverse ++ before) [] :=
    search_skip fun b y suffix _ => by rw [List.append_nil]; exact fails b y suffix
  rw [List.append_nil] at skipped
  rw [skipped]
  exact fails _ [] (List.nil_suffix)

/-- A match is a match at some position. -/
theorem exists_of_search {a : α} (found : search p before t = some a) :
    ∃ b s, s <:+ t ∧ p b s = some a := by
  by_contra none_
  push Not at none_
  induction t generalizing before with
  | nil => exact none_ before [] List.suffix_rfl found
  | cons c cs ih =>
      rw [search_cons, Option.or_eq_some_iff] at found
      rcases found with found | ⟨-, found⟩
      · exact none_ before (c :: cs) List.suffix_rfl found
      · exact ih found fun b s suffix => none_ b s (suffix.trans (List.suffix_cons c cs))

/-- A match at some position makes the search succeed. -/
theorem search_isSome (found : (p (x.reverse ++ before) t).isSome = true) :
    (search p before (x ++ t)).isSome = true := by
  induction x generalizing before with
  | nil =>
      obtain ⟨a, same⟩ := Option.isSome_iff_exists.mp found
      have first : search p before t = some a := search_of_match same
      rw [List.nil_append, first]
      rfl
  | cons c cs ih =>
      rw [List.cons_append, search_cons, Option.isSome_or, ih (by simpa using found), Bool.or_true]

/-- The part after `x` has no match and does not change those that start in `x`. -/
theorem search_append_map {g : α → α}
    (same : ∀ b y, y <:+ x → y ≠ [] → p b (y ++ z) = (p b y).map g)
    (ending : ∀ b, p b [] = none) (after : ∀ b s, s <:+ z → p b s = none) :
    search p before (x ++ z) = (search p before x).map g := by
  induction x generalizing before with
  | nil =>
      rw [List.nil_append, search_eq_none after, search, ending]
      rfl
  | cons c cs ih =>
      have first : p before (c :: (cs ++ z)) = (p before (c :: cs)).map g :=
        same before (c :: cs) List.suffix_rfl (List.cons_ne_nil c cs)
      have rest : ∀ b y, y <:+ cs → y ≠ [] → p b (y ++ z) = (p b y).map g := fun b y suffix =>
        same b y (suffix.trans (List.suffix_cons c cs))
      rw [List.cons_append, search_cons, search_cons, first, ih rest]
      cases p before (c :: cs) <;> rfl

/-- A pattern that does not see what follows is found in a text if it is found before that. -/
theorem search_append (same : ∀ b y, y <:+ x → y ≠ [] → p b (y ++ z) = p b y)
    (ending : ∀ b, p b [] = none) (after : ∀ b s, s <:+ z → p b s = none) :
    search p before (x ++ z) = search p before x := by
  have mapped : search p before (x ++ z) = (search p before x).map id := search_append_map
    (fun b y suffix some_ => by rw [same b y suffix some_, Option.map_id, id]) ending after
  rwa [Option.map_id, id] at mapped

/-- A suffix starts in the second part, or some way into the first. -/
theorem suffix_append_cases {y s : Text} (suffix : s <:+ x ++ y) :
    s <:+ y ∨ ∃ x', x' ≠ [] ∧ x' <:+ x ∧ s = x' ++ y := by
  obtain ⟨before, same⟩ := suffix
  rcases List.append_eq_append_iff.mp same with ⟨x', rfl, rfl⟩ | ⟨c, -, rfl⟩
  · cases x' with
    | nil => exact .inl List.suffix_rfl
    | cons c x' => exact .inr ⟨_, List.cons_ne_nil c x', List.suffix_append .., rfl⟩
  · exact .inl (List.suffix_append ..)

theorem findSome?_congr {β γ : Type} {f g : β → Option γ} {l : List β} (same : ∀ b ∈ l, f b = g b) :
    l.findSome? f = l.findSome? g := by
  induction l with
  | nil => rfl
  | cons b l ih =>
      rw [List.findSome?_cons, List.findSome?_cons, same b List.mem_cons_self,
        ih fun b mem => same b (List.mem_cons_of_mem _ mem)]

/-! ## Runs of a class of characters -/

theorem takeWhile_congr {P Q : Char → Bool} (same : ∀ c ∈ t, P c = Q c) :
    t.takeWhile P = t.takeWhile Q := by
  induction t with
  | nil => rfl
  | cons c t ih =>
      rw [List.takeWhile_cons, List.takeWhile_cons, same c List.mem_cons_self,
        ih fun d mem => same d (List.mem_cons_of_mem _ mem)]

theorem takeWhile_append_stop {P : Char → Bool} {c : Char} (stop : P c = false) (y r : Text) :
    (y ++ c :: r).takeWhile P = y.takeWhile P := by
  induction y with
  | nil => simp [stop]
  | cons d ds ih => by_cases digit : P d <;> simp [digit, ih]

theorem dropWhile_append_stop {P : Char → Bool} {c : Char} (stop : P c = false) (y r : Text) :
    (y ++ c :: r).dropWhile P = y.dropWhile P ++ c :: r := by
  induction y with
  | nil => simp [stop]
  | cons d ds ih => by_cases digit : P d <;> simp [digit, ih]

end Text

open Text

/-! ## The tables on ASCII -/

def IsAscii (t : Text) : Prop := ∀ c ∈ t, c.toNat < 128

-- the bounded quantifier, not the one over all characters
instance (t : Text) : Decidable (IsAscii t) := List.decidableBAll _ _

/-- What Python's tables say of ASCII characters, and of a text on both sides of a
blank: no final-sigma rule reaches over it, and no lower case letter is a digit. -/
structure Unicode.Lawful (u : Unicode) : Prop where
  nfkd : ∀ c : Char, c.toNat < 128 → u.nfkd c = [c]
  combining : ∀ c : Char, c.toNat < 128 → u.combining c = false
  lower : ∀ t, IsAscii t → u.lower t = t.map Char.toLower
  upper : ∀ t, IsAscii t → u.upper t = t.map Char.toUpper
  lower_blank : ∀ x y, u.lower (x ++ ' ' :: y) = u.lower x ++ ' ' :: u.lower y
  lower_decimal : ∀ t, ∀ c ∈ u.lower t, u.isDecimal c = true → ∃ d ∈ t, u.isDecimal d = true
  isDecimal : ∀ c : Char, c.toNat < 128 → u.isDecimal c = c.isDigit
  digitValue : ∀ c : Char, c.isDigit → u.digitValue c = c.toNat - '0'.toNat
  isWord : ∀ c : Char, c.toNat < 128 → u.isWord c = (c.isAlphanum || c == '_')
  isSpace_blank : u.isSpace ' ' = true
  isSpace_visible : ∀ c : Char, c.toNat < 128 → 32 < c.toNat → u.isSpace c = false

/-- The tables of ASCII are lawful. -/
theorem Unicode.ascii_lawful : Unicode.ascii.Lawful where
  nfkd _ _ := rfl
  combining _ _ := rfl
  lower _ _ := rfl
  upper _ _ := rfl
  lower_blank x y := by simp [Unicode.ascii]
  lower_decimal t c mem digit := by
    obtain ⟨d, among, rfl⟩ := List.mem_map.mp mem
    refine ⟨d, among, ?_⟩
    change d.isDigit = true
    change d.toLower.isDigit = true at digit
    unfold Char.toLower at digit
    split at digit
    · rename_i upper
      obtain ⟨low, high⟩ := upper
      simp only [Char.isDigit, Bool.and_eq_true, decide_eq_true_eq, UInt32.le_iff_toNat_le,
        ge_iff_le, UInt32.toNat_add] at low high digit ⊢
      have a : ('A'.val).toNat = 65 := rfl
      have z : ('Z'.val).toNat = 90 := rfl
      have nine : ('9'.val).toNat = 57 := rfl
      have gap : ('a'.val - 'A'.val).toNat = 32 := rfl
      omega
    · exact digit
  isDecimal _ _ := rfl
  digitValue _ _ := rfl
  isWord _ _ := rfl
  isSpace_blank := rfl
  isSpace_visible c _ visible := by
    simp only [Unicode.ascii, Char.isWhitespace, Bool.or_eq_false_iff, decide_eq_false_iff_not]
    refine ⟨⟨⟨?_, ?_⟩, ?_⟩, ?_⟩ <;> rintro rfl <;> revert visible <;> decide

variable {u : Unicode} {w y r : Text}

theorem stripAccents_append (u : Unicode) (x y : Text) :
    stripAccents u (x ++ y) = stripAccents u x ++ stripAccents u y := by
  simp [stripAccents]

namespace Unicode.Lawful

variable (lawful : u.Lawful)

include lawful

/-- ASCII has no accents. -/
theorem stripAccents {t : Text} (ascii : IsAscii t) : stripAccents u t = t := by
  induction t with
  | nil => rfl
  | cons c t ih =>
      have own := ascii c List.mem_cons_self
      have rest := ih fun d mem => ascii d (List.mem_cons_of_mem _ mem)
      simp only [FazerBridge.stripAccents] at rest ⊢
      simp [lawful.nfkd c own, lawful.combining c own, rest]

theorem lower_of_lowered {t : Text} (ascii : IsAscii t) (lowered : t.map Char.toLower = t) :
    u.lower t = t := (lawful.lower t ascii).trans lowered

end Unicode.Lawful

/-! ## Patterns that stop at a blank -/

/-- A word starts a text exactly if it starts its first word. -/
theorem prefix_append_blank (whole : ' ' ∉ w) : w <+: y ++ ' ' :: r ↔ w <+: y := by
  induction w generalizing y with
  | nil => simp
  | cons c w ih =>
      have other : c ≠ ' ' := fun same => whole (same ▸ List.mem_cons_self)
      cases y with
      | nil => simp [other]
      | cons d y =>
          rw [List.cons_append, List.cons_prefix_cons, List.cons_prefix_cons,
            ih fun mem => whole (List.mem_cons_of_mem _ mem)]

/-- What stands behind a title: a blank, a dash, and anything. -/
def dashed (a : Text) : Text := ' ' :: '-' :: a

/-- No part of `w` from some position on starts like " -" or is a part of it. -/
def Undashed (w : Text) : Prop := ∀ v ∈ w.tails, v ≠ [] → ¬ v <+: [' ', '-'] ∧ ¬ [' ', '-'] <+: v

instance (w : Text) : Decidable (Undashed w) := inferInstanceAs (Decidable (∀ _ ∈ _, _ → _))

/-- A word without a dash starts a title exactly if it starts what stands before the dash. -/
theorem prefix_append_undashed (undashed : Undashed w) :
    w <+: y ++ dashed r ↔ w <+: y := by
  induction w generalizing y with
  | nil => simp
  | cons c w ih =>
      cases y with
      | nil =>
          obtain ⟨short, long⟩ := undashed _ ((List.mem_tails _ _).mpr List.suffix_rfl)
            (List.cons_ne_nil c w)
          refine iff_of_false (fun within => ?_) (by simp)
          rcases List.prefix_or_prefix_of_prefix within (show [' ', '-'] <+: _ from ⟨r, rfl⟩) with
            shorter | longer
          · exact short shorter
          · exact long longer
      | cons d y =>
          rw [List.cons_append, List.cons_prefix_cons, List.cons_prefix_cons, ih fun v mem =>
            undashed v ((List.mem_tails _ _).mpr
              (((List.mem_tails _ _).mp mem).trans (List.suffix_cons c w)))]

/-- A word is in a text exactly if it is on one side of a blank. -/
theorem infix_append_blank (some_ : w ≠ []) (whole : ' ' ∉ w) :
    w <:+: y ++ ' ' :: r ↔ w <:+: y ∨ w <:+: r := by
  induction y with
  | nil =>
      obtain ⟨c, w, rfl⟩ := List.exists_cons_of_ne_nil some_
      have other : c ≠ ' ' := fun same => whole (same ▸ List.mem_cons_self)
      simp [List.infix_cons_iff, other]
  | cons d y ih =>
      rw [List.cons_append, List.infix_cons_iff, List.infix_cons_iff, ih, or_assoc,
        ← List.cons_append, prefix_append_blank whole]

theorem amountAt_nil : amountAt u [] = none := by simp [amountAt]

theorem amountAt_stop {c : Char} (stop : u.isDecimal c = false) (r : Text) :
    amountAt u (c :: r) = none := by simp [amountAt, stop]

/-- What follows an amount stays behind it. -/
theorem amountAt_append {c : Char} (stop : u.isDecimal c = false) (point : c ≠ '.')
    (comma : c ≠ ',') (y r : Text) :
    amountAt u (y ++ c :: r) = (amountAt u y).map fun found => (found.1, found.2 ++ c :: r) := by
  unfold amountAt
  rw [takeWhile_append_stop stop, dropWhile_append_stop stop]
  by_cases empty : (y.takeWhile u.isDecimal).isEmpty
  · simp [empty]
  · cases rest : y.dropWhile u.isDecimal with
    | nil => simp [empty, point, comma]
    | cons d ds =>
        simp only [List.cons_append, takeWhile_append_stop stop, dropWhile_append_stop stop, empty]
        by_cases fraction : (d = '.' ∨ d = ',') ∧ !(ds.takeWhile u.isDecimal).isEmpty
        · simp only [if_pos fraction, Bool.false_eq_true, if_false, Option.map_some]
        · simp only [if_neg fraction, Bool.false_eq_true, if_false, Option.map_some,
            List.cons_append]

/-- A code is read up to a blank. -/
theorem codeAt_append_blank (y r : Text) :
    codeAt (y ++ ' ' :: r) = (codeAt y).map fun found => (found.1, found.2 ++ ' ' :: r) := by
  have blankless : ∀ code ∈ currencyCodes, ' ' ∉ code := by decide
  have same : ∀ code ∈ currencyCodes, code.isPrefixOf (y ++ ' ' :: r) = code.isPrefixOf y := by
    intro code mem
    rw [Bool.eq_iff_iff, List.isPrefixOf_iff_prefix, List.isPrefixOf_iff_prefix]
    exact prefix_append_blank (blankless code mem)
  have found : currencyCodes.find? (fun code => code.isPrefixOf (y ++ ' ' :: r)) =
      currencyCodes.find? fun code => code.isPrefixOf y := List.find?_congr same
  unfold codeAt
  rw [found]
  cases stated : currencyCodes.find? fun code => code.isPrefixOf y with
  | none => rfl
  | some code =>
      have prefix_ : code.isPrefixOf y := by simpa using List.find?_some stated
      have short := (List.isPrefixOf_iff_prefix.mp prefix_).length_le
      simp [List.drop_append_of_le_length short]

/-! ## A dash after a blank

Behind the blank of " - " no pattern of a face value goes on. -/

section Dash

variable (lawful : u.Lawful) {a : Text}

include lawful

/-- An amount ends before the dash. -/
theorem amountAt_dashed (y a : Text) : amountAt u (y ++ dashed a) =
    (amountAt u y).map fun found => (found.1, found.2 ++ dashed a) :=
  amountAt_append (by rw [lawful.isDecimal _ (by decide)]; decide) (by decide) (by decide) y _

/-- Skipping blanks leads to the dash, or to what stood there before it. -/
theorem dropSpace_dashed (y a : Text) :
    (y.dropWhile u.isSpace = [] ∧ (y ++ dashed a).dropWhile u.isSpace = '-' :: a) ∨
      (y.dropWhile u.isSpace ≠ [] ∧
        (y ++ dashed a).dropWhile u.isSpace = y.dropWhile u.isSpace ++ dashed a) := by
  have dash : u.isSpace '-' = false := lawful.isSpace_visible _ (by decide) (by decide)
  induction y with
  | nil =>
      left
      simp [dashed, lawful.isSpace_blank, dash]
  | cons c y ih =>
      by_cases space : u.isSpace c
      · simpa [space] using ih
      · right
        simp [space]

theorem amountAt_dropSpace_dashed (y a : Text) :
    amountAt u ((y ++ dashed a).dropWhile u.isSpace) =
      (amountAt u (y.dropWhile u.isSpace)).map fun found => (found.1, found.2 ++ dashed a) := by
  have dash : u.isDecimal '-' = false := by rw [lawful.isDecimal _ (by decide)]; decide
  rcases dropSpace_dashed lawful y a with ⟨none_, skipped⟩ | ⟨-, skipped⟩
  · rw [none_, skipped, amountAt_stop dash, amountAt_nil]
    rfl
  · rw [skipped, amountAt_dashed lawful]

theorem wordEnds_dashed (y a : Text) : wordEnds u (y ++ dashed a) = wordEnds u y := by
  cases y with
  | nil =>
      have blank : u.isWord ' ' = false := by rw [lawful.isWord _ (by decide)]; decide
      simp [wordEnds, dashed, blank]
  | cons c y => rfl

/-- A symbol with its amount stands before the dash. -/
theorem symbolAmount_dashed (symbol : Char) (b : Text) {y : Text} (some_ : y ≠ []) (a : Text) :
    symbolAmount u symbol b (y ++ dashed a) = symbolAmount u symbol b y := by
  obtain ⟨c, cs, rfl⟩ := List.exists_cons_of_ne_nil some_
  simp only [symbolAmount, List.cons_append, amountAt_dropSpace_dashed lawful, Option.map_map]
  rfl

/-- An amount with its symbol stands before the dash. -/
theorem amountSymbol_dashed {symbol : Char} (other : symbol ≠ '-') (b y a : Text) :
    amountSymbol u symbol b (y ++ dashed a) = amountSymbol u symbol b y := by
  simp only [amountSymbol, amountAt_dashed lawful]
  cases amountAt u y with
  | none => rfl
  | some found =>
      obtain ⟨amount, rest⟩ := found
      simp only [Option.map_some, Option.bind_eq_bind, Option.bind_some]
      rcases dropSpace_dashed lawful rest a with ⟨none_, skipped⟩ | ⟨some_, skipped⟩
      · rw [none_, skipped]
        simp [other.symm]
      · rw [skipped]
        obtain ⟨c, cs, same⟩ := List.exists_cons_of_ne_nil some_
        rw [same]
        rfl

omit lawful in
theorem codeAt_dashed (y a : Text) :
    codeAt (y ++ dashed a) = (codeAt y).map fun found => (found.1, found.2 ++ dashed a) :=
  codeAt_append_blank y _

/-- An amount with its currency code stands before the dash. -/
theorem amountCode_dashed (b y a : Text) : amountCode u b (y ++ dashed a) = amountCode u b y := by
  simp only [amountCode, amountAt_dashed lawful]
  cases amountAt u y with
  | none => rfl
  | some found =>
      obtain ⟨amount, rest⟩ := found
      simp only [Option.map_some, Option.bind_eq_bind, Option.bind_some]
      rcases dropSpace_dashed lawful rest a with ⟨none_, skipped⟩ | ⟨some_, skipped⟩
      · have dash : codeAt ('-' :: a) = none := rfl
        rw [none_, skipped, dash]
        rfl
      · rw [skipped, codeAt_dashed]
        cases codeAt (rest.dropWhile u.isSpace) with
        | none => rfl
        | some code =>
            simp only [Option.map_some, Option.bind_some, wordEnds_dashed lawful]

/-- A currency code with its amount stands before the dash. -/
theorem codeAmount_dashed (b y a : Text) : codeAmount u b (y ++ dashed a) = codeAmount u b y := by
  simp only [codeAmount, codeAt_dashed]
  cases codeAt y with
  | none => rfl
  | some code =>
      simp only [Option.map_some, Option.bind_eq_bind, Option.bind_some,
        amountAt_dropSpace_dashed lawful]
      cases amountAt u (code.2.dropWhile u.isSpace) with
      | none => rfl
      | some found => rfl

/-- A number with a word after it stands before the dash. -/
theorem bareNumber_dashed (b y a : Text) : bareNumber u b (y ++ dashed a) =
    (bareNumber u b y).map fun found => (found.1, found.2.1, found.2.2 ++ dashed a) := by
  have blank : u.isDecimal ' ' = false := by rw [lawful.isDecimal _ (by decide)]; decide
  unfold bareNumber
  simp only [dashed, takeWhile_append_stop blank, dropWhile_append_stop blank]
  rw [show List.dropWhile u.isDecimal y ++ ' ' :: '-' :: a =
    List.dropWhile u.isDecimal y ++ dashed a from rfl, wordEnds_dashed lawful]
  split <;> rfl

/-- A word of face values stands before the dash. -/
theorem faceValueWord_dashed (b y a : Text) :
    faceValueWord u b (y ++ dashed a) = faceValueWord u b y := by
  have undashed : ∀ w ∈ faceValueWords, Undashed w := by decide
  have same : ∀ w ∈ faceValueWords,
      (w.isPrefixOf (y ++ dashed a) && wordEnds u ((y ++ dashed a).drop w.length)) =
        (w.isPrefixOf y && wordEnds u (y.drop w.length)) := by
    intro w mem
    by_cases prefix_ : w <+: y
    · rw [List.drop_append_of_le_length prefix_.length_le, wordEnds_dashed lawful,
        List.isPrefixOf_iff_prefix.mpr prefix_,
        List.isPrefixOf_iff_prefix.mpr ((prefix_append_undashed (undashed w mem)).mpr prefix_)]
    · have longer : ¬ w <+: y ++ dashed a :=
        (prefix_append_undashed (undashed w mem)).not.mpr prefix_
      rw [Bool.eq_false_iff.mpr (List.isPrefixOf_iff_prefix.not.mpr prefix_),
        Bool.eq_false_iff.mpr (List.isPrefixOf_iff_prefix.not.mpr longer)]
      rfl
  have any_same : (faceValueWords.any fun w =>
      w.isPrefixOf (y ++ dashed a) && wordEnds u ((y ++ dashed a).drop w.length)) =
        faceValueWords.any fun w => w.isPrefixOf y && wordEnds u (y.drop w.length) := by
    rw [Bool.eq_iff_iff, List.any_eq_true, List.any_eq_true]
    exact exists_congr fun w => and_congr_right fun mem => by rw [same w mem]
  unfold faceValueWord
  rw [any_same]

end Dash

/-! ## An ending without a face value -/

/-- Behind a dash, lower case ASCII that states no face value and no word that makes a
number one. -/
structure PlainEnding (a : Text) : Prop where
  ascii : IsAscii a
  lowered : a.map Char.toLower = a
  symbols : ∀ c ∈ dashed a, ∀ entry ∈ currencySymbols, c ≠ entry.1
  digits : ∀ s ∈ (dashed a).tails, ∀ c ∈ s.head?, c.isDigit → s.length = 1
  codes : ∀ s ∈ (dashed a).tails, ∀ code ∈ currencyCodes, code <+: s → ∀ c ∈ s, ¬ c.isDigit
  words : ∀ s ∈ (dashed a).tails, ∀ w ∈ faceValueWords, ¬ w <+: s
  months : ∀ w ∈ monthWords, ¬ w <:+: (dashed a).take 12

/-- What makes an ending plain can be tested. -/
theorem plainEnding_iff (a : Text) : PlainEnding a ↔
    IsAscii a ∧ a.map Char.toLower = a ∧ (∀ entry ∈ currencySymbols, entry.1 ∉ dashed a) ∧
      (∀ s ∈ (dashed a).tails, s.head?.any Char.isDigit → s.length = 1) ∧
      (∀ s ∈ (dashed a).tails, s.any Char.isDigit → ∀ code ∈ currencyCodes, ¬ code <+: s) ∧
      (∀ s ∈ (dashed a).tails, ∀ w ∈ faceValueWords, ¬ w <+: s) ∧
      ∀ w ∈ monthWords, ¬ w <:+: (dashed a).take 12 := by
  constructor
  · intro plain
    refine ⟨plain.ascii, plain.lowered, fun entry among mem => plain.symbols _ mem entry among rfl,
      fun s mem digit => ?_, fun s mem digit code among prefix_ => ?_, plain.words, plain.months⟩
    · obtain ⟨c, head, own⟩ := (Option.any_eq_true _ _).mp digit
      exact plain.digits s mem c head own
    · obtain ⟨c, own, digit⟩ := List.any_eq_true.mp digit
      exact plain.codes s mem code among prefix_ c own digit
  · intro found
    obtain ⟨ascii, lowered, symbols, digits, codes, words, months⟩ := found
    refine ⟨ascii, lowered, fun c mem entry among same => symbols entry among (same ▸ mem),
      fun s mem c head digit => ?_, fun s mem code among prefix_ c own digit => ?_, words, months⟩
    · exact digits s mem ((Option.any_eq_true _ _).mpr ⟨c, head, digit⟩)
    · exact codes s mem (List.any_eq_true.mpr ⟨c, own, digit⟩) code among prefix_

instance (a : Text) : Decidable (PlainEnding a) := decidable_of_iff' _ (plainEnding_iff a)

namespace PlainEnding

variable {a s : Text} (plain : PlainEnding a) (lawful : u.Lawful)

include plain

theorem dashed_ascii : IsAscii (dashed a) := by
  intro c mem
  rcases List.mem_cons.mp mem with rfl | mem
  · decide
  rcases List.mem_cons.mp mem with rfl | mem
  · decide
  exact plain.ascii c mem

include lawful

/-- An amount in the ending is its last character. -/
theorem amountAt (suffix : s <:+ dashed a) :
    FazerBridge.amountAt u s = none ∨ ∃ q, FazerBridge.amountAt u s = some (q, []) := by
  cases s with
  | nil => exact .inl amountAt_nil
  | cons c s =>
      by_cases digit : u.isDecimal c
      · right
        rw [lawful.isDecimal c (plain.dashed_ascii c (suffix.mem List.mem_cons_self))] at digit
        have last := plain.digits _ ((List.mem_tails _ _).mpr suffix) c rfl digit
        obtain rfl : s = [] := by simpa using last
        rw [← lawful.isDecimal c (plain.dashed_ascii c (suffix.mem List.mem_cons_self))] at digit
        simp [FazerBridge.amountAt, digit]
      · exact .inl (amountAt_stop (by simpa using digit) s)

omit lawful in
/-- A plain ending has no symbol with an amount. -/
theorem symbolAmount {entry : Char × Text} (mem : entry ∈ currencySymbols) (b : Text)
    (suffix : s <:+ dashed a) : symbolAmount u entry.1 b s = none := by
  cases s with
  | nil => rfl
  | cons c s =>
      have other := plain.symbols c (suffix.mem List.mem_cons_self) entry mem
      simp [FazerBridge.symbolAmount, other]

/-- A plain ending has no amount with a symbol. -/
theorem amountSymbol (symbol : Char) (b : Text) (suffix : s <:+ dashed a) :
    amountSymbol u symbol b s = none := by
  rcases plain.amountAt lawful suffix with found | ⟨q, found⟩ <;>
    simp [FazerBridge.amountSymbol, found]

/-- A plain ending has no amount with a currency code. -/
theorem amountCode (b : Text) (suffix : s <:+ dashed a) : amountCode u b s = none := by
  have nothing : codeAt [] = none := rfl
  rcases plain.amountAt lawful suffix with found | ⟨q, found⟩ <;>
    simp [FazerBridge.amountCode, found, nothing]

/-- A plain ending has no currency code with an amount. -/
theorem codeAmount (b : Text) (suffix : s <:+ dashed a) : codeAmount u b s = none := by
  unfold FazerBridge.codeAmount codeAt
  cases stated : currencyCodes.find? fun code => code.isPrefixOf s with
  | none => rfl
  | some code =>
      have prefix_ : code <+: s := by simpa using List.find?_some stated
      have digitless := plain.codes s ((List.mem_tails _ _).mpr suffix) code
        (List.mem_of_find?_eq_some stated) prefix_
      have none_ : FazerBridge.amountAt u ((s.drop code.length).dropWhile u.isSpace) = none := by
        have part : (s.drop code.length).dropWhile u.isSpace <:+ s :=
          (List.dropWhile_suffix _).trans (List.drop_suffix _ _)
        generalize (s.drop code.length).dropWhile u.isSpace = rest at part
        cases rest with
        | nil => exact amountAt_nil
        | cons c rest =>
            have mem := part.mem List.mem_cons_self
            refine amountAt_stop ?_ rest
            rw [lawful.isDecimal c (plain.dashed_ascii c (suffix.mem mem))]
            simpa using digitless c mem
      simp [none_]

/-- A plain ending has no bare number. -/
theorem bareNumber (b : Text) (suffix : s <:+ dashed a) : bareNumber u b s = none := by
  have short : (s.takeWhile u.isDecimal).length ≤ 1 := by
    cases s with
    | nil => simp
    | cons c s =>
        by_cases digit : u.isDecimal c
        · rw [lawful.isDecimal c (plain.dashed_ascii c (suffix.mem List.mem_cons_self))] at digit
          have last := plain.digits _ ((List.mem_tails _ _).mpr suffix) c rfl digit
          exact (List.takeWhile_prefix _).length_le.trans last.le
        · simp [digit]
  unfold FazerBridge.bareNumber
  rw [if_neg]
  omega

omit lawful in
/-- A plain ending has no word of face values. -/
theorem faceValueWord (u : Unicode) (b : Text) (suffix : s <:+ dashed a) :
    faceValueWord u b s = none := by
  have absent : (faceValueWords.any fun w => w.isPrefixOf s && wordEnds u (s.drop w.length)) =
      false := by
    rw [List.any_eq_false]
    intro w mem
    have other := plain.words s ((List.mem_tails _ _).mpr suffix) w mem
    simp [other]
  unfold FazerBridge.faceValueWord
  rw [absent]
  simp

/-- A plain ending does not change what symbols say. -/
theorem symbolDenomination (x : Text) :
    symbolDenomination u (x ++ dashed a) = symbolDenomination u x := by
  have undashed : ∀ entry ∈ currencySymbols, entry.1 ≠ '-' := by decide
  unfold FazerBridge.symbolDenomination
  refine findSome?_congr fun entry mem => ?_
  have first : search (FazerBridge.symbolAmount u entry.1) [] (x ++ dashed a) =
      search (FazerBridge.symbolAmount u entry.1) [] x :=
    search_append (fun b y _ some_ => symbolAmount_dashed lawful _ _ some_ a) (fun _ => rfl)
      fun b _ suffix => plain.symbolAmount mem b suffix
  have second : search (FazerBridge.amountSymbol u entry.1) [] (x ++ dashed a) =
      search (FazerBridge.amountSymbol u entry.1) [] x :=
    search_append (fun b y _ _ => amountSymbol_dashed lawful (undashed entry mem) b y a)
      (fun b => by simp [FazerBridge.amountSymbol, amountAt_nil])
      fun b _ suffix => plain.amountSymbol lawful _ b suffix
  rw [first, second]

theorem search_amountCode (x : Text) : search (FazerBridge.amountCode u) [] (x ++ dashed a) =
    search (FazerBridge.amountCode u) [] x :=
  search_append (fun b y _ _ => amountCode_dashed lawful b y a)
    (fun b => by simp [FazerBridge.amountCode, amountAt_nil])
    fun b _ suffix => plain.amountCode lawful b suffix

theorem search_codeAmount (x : Text) : search (FazerBridge.codeAmount u) [] (x ++ dashed a) =
    search (FazerBridge.codeAmount u) [] x :=
  search_append (fun b y _ _ => codeAmount_dashed lawful b y a) (fun _ => rfl)
    fun b _ suffix => plain.codeAmount lawful b suffix

theorem search_faceValueWord (x : Text) :
    search (FazerBridge.faceValueWord u) [] (x ++ dashed a) =
      search (FazerBridge.faceValueWord u) [] x := by
  have ending : ∀ b, FazerBridge.faceValueWord u b [] = none := by
    intro b
    have absent : (faceValueWords.any fun w => w.isPrefixOf [] && wordEnds u (List.drop w.length [])) =
        false := rfl
    unfold FazerBridge.faceValueWord
    rw [absent]
    simp
  exact search_append (fun b y _ _ => faceValueWord_dashed lawful b y a) ending
    fun b _ suffix => plain.faceValueWord u b suffix

omit lawful in
/-- The ending brings no month word near a number. -/
theorem isIn_following {w : Text} (mem : w ∈ monthWords) (rest : Text) :
    isIn w ((rest ++ dashed a).take 12) = isIn w (rest.take 12) := by
  have facts : ∀ w ∈ monthWords, w ≠ [] ∧ ' ' ∉ w := by decide
  obtain ⟨some_, whole⟩ := facts w mem
  rw [Bool.eq_iff_iff, isIn_iff, isIn_iff, List.take_append]
  obtain room | ⟨n, room⟩ : 12 - rest.length = 0 ∨ ∃ n, 12 - rest.length = n + 1 := by
    cases h : 12 - rest.length with
    | zero => exact .inl rfl
    | succ n => exact .inr ⟨n, rfl⟩
  · rw [room, List.take_zero, List.append_nil]
  · have cut : (dashed a).take (12 - rest.length) = ' ' :: ('-' :: a).take n := by
      rw [room]
      rfl
    rw [cut, infix_append_blank some_ whole]
    refine or_iff_left fun within => plain.months w mem ?_
    have shorter : (dashed a).take (12 - rest.length) <+: (dashed a).take 12 :=
      List.take_prefix_take_left (Nat.sub_le 12 rest.length)
    rw [cut] at shorter
    exact within.trans ((List.suffix_cons ' ' _).isInfix.trans shorter.isInfix)

/-- A plain ending does not change what bare numbers say. -/
theorem bareDenomination (x : Text) : bareDenomination u (x ++ dashed a) = bareDenomination u x := by
  unfold FazerBridge.bareDenomination
  rw [search_append_map (fun b y _ _ => bareNumber_dashed lawful b y a)
      (fun b => by simp [FazerBridge.bareNumber]) fun b _ suffix => plain.bareNumber lawful b suffix,
    plain.search_faceValueWord lawful]
  cases search (FazerBridge.bareNumber u) [] x with
  | none => rfl
  | some found =>
      obtain ⟨digits, before, rest⟩ := found
      have months : (monthWords.any fun w => isIn w ((rest ++ dashed a).take 12) ||
          isIn w (before.take 12).reverse) =
            monthWords.any fun w => isIn w (rest.take 12) || isIn w (before.take 12).reverse := by
        rw [Bool.eq_iff_iff, List.any_eq_true, List.any_eq_true]
        exact exists_congr fun w => and_congr_right fun mem => by rw [plain.isIn_following mem]
      simp only [Option.map_some, Option.bind_eq_bind, Option.bind_some, months]

/-- The ending does not change the face value of a title. -/
theorem extractDenomination (p : Text) :
    extractDenomination u (p ++ dashed a) = extractDenomination u p := by
  have raw : stripAccents u (p ++ dashed a) = stripAccents u p ++ dashed a := by
    rw [stripAccents_append, lawful.stripAccents plain.dashed_ascii]
  have lower : u.lower (stripAccents u p ++ dashed a) = u.lower (stripAccents u p) ++ dashed a := by
    have lowered : ('-' :: a).map Char.toLower = '-' :: a := by
      rw [List.map_cons, plain.lowered]
      rfl
    rw [dashed, lawful.lower_blank, lawful.lower_of_lowered
      (fun c mem => plain.dashed_ascii c (List.mem_cons_of_mem _ mem)) lowered]
  unfold FazerBridge.extractDenomination
  simp only [raw, lower, plain.symbolDenomination lawful, plain.search_amountCode lawful,
    plain.search_codeAmount lawful, plain.bareDenomination lawful]

end PlainEnding

end FazerBridge
