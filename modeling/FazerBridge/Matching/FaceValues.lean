import FazerBridge.Difflib
import FazerBridge.Matching
import FazerBridge.Text.Floats
import FazerBridge.Text.Search

/-!
# Face values with and without thousands separators

`extract_denomination` reads one comma or point as a decimal point.  An amount
spelled without separators is read as the float next to it (`search_plain`).  One with
separators is not: the search takes the last group for the whole amount, or the last two as
an amount with three decimals, so what it reads is below 1000 (`search_grouped`).

Two amounts of cents are told apart as long as they are different floats (`farApart_iff`).
-/

namespace FazerBridge

open Text

/-! ## Spelled amounts -/

/-- A decimal amount: digits, or a group of digits and groups of three, and at most
two decimals. -/
structure Amount where
  head : Text
  groups : List Text
  fraction : Text
  head_digits : head ≠ [] ∧ ∀ c ∈ head, c.isDigit
  group_digits : ∀ g ∈ groups, g.length = 3 ∧ ∀ c ∈ g, c.isDigit
  leading : groups ≠ [] → head.length ≤ 3 ∧ head.head? ≠ some '0'
  fraction_digits : fraction.length ≤ 2 ∧ ∀ c ∈ fraction, c.isDigit

namespace Amount

/-- The decimals behind their point. -/
def decimals (fraction : Text) : Text := if fraction.isEmpty then [] else '.' :: fraction

/-- The amount in a title, a comma between two groups. -/
def spelled (m : Amount) : Text := m.head ++ (m.groups.flatMap (',' :: ·) ++ decimals m.fraction)

def value (m : Amount) : ℚ := decimalOf Unicode.ascii (m.head ++ m.groups.flatten) m.fraction

end Amount

/-- `p m c s` -/
def faceValueTitle (p : Text) (m : Amount) (c s : Text) : Text :=
  p ++ ' ' :: (m.spelled ++ ' ' :: (c ++ ' ' :: s))

/-! ## Reading digits -/

variable {u : Unicode}

theorem readDigits_append (u : Unicode) (x y : Text) :
    readDigits u (x ++ y) = readDigits u x * 10 ^ y.length + readDigits u y := by
  have from_ : ∀ (y : Text) (n : ℕ), y.foldl (fun n c => 10 * n + u.digitValue c) n =
      n * 10 ^ y.length + y.foldl (fun n c => 10 * n + u.digitValue c) 0 := by
    intro y
    induction y with
    | nil => simp
    | cons c y ih =>
        intro n
        rw [List.foldl_cons, List.foldl_cons, ih, ih (10 * 0 + _), List.length_cons, pow_succ]
        ring
  rw [readDigits, List.foldl_append, from_]
  rfl

theorem readDigits_cons (u : Unicode) (c : Char) (x : Text) :
    readDigits u (c :: x) = u.digitValue c * 10 ^ x.length + readDigits u x := by
  rw [← List.singleton_append, readDigits_append]
  simp [readDigits]

theorem toNat_of_isDigit {c : Char} (digit : c.isDigit) : '0'.toNat ≤ c.toNat ∧ c.toNat ≤ 57 := by
  simp only [Char.isDigit, Bool.and_eq_true, decide_eq_true_eq, UInt32.le_iff_toNat_le,
    ge_iff_le] at digit
  exact digit

theorem toNat_lt_of_isDigit {c : Char} (digit : c.isDigit) : c.toNat < 128 :=
  (toNat_of_isDigit digit).2.trans_lt (by norm_num)

section Lawful

variable (lawful : u.Lawful)

include lawful

theorem isDecimal_of_isDigit {c : Char} (digit : c.isDigit) : u.isDecimal c = true :=
  (lawful.isDecimal c (toNat_lt_of_isDigit digit)).trans digit

theorem digitValue_lt {c : Char} (digit : c.isDigit) : u.digitValue c < 10 := by
  rw [lawful.digitValue c digit]
  have range := toNat_of_isDigit digit
  have zero : '0'.toNat = 48 := rfl
  omega

theorem readDigits_lt {x : Text} (digits : ∀ c ∈ x, c.isDigit) : readDigits u x < 10 ^ x.length := by
  induction x with
  | nil => simp [readDigits]
  | cons c x ih =>
      have first := digitValue_lt lawful (digits c List.mem_cons_self)
      have rest := ih fun d mem => digits d (List.mem_cons_of_mem _ mem)
      rw [readDigits_cons, List.length_cons, pow_succ]
      nlinarith

theorem readDigits_ascii {x : Text} (digits : ∀ c ∈ x, c.isDigit) :
    readDigits u x = readDigits Unicode.ascii x := by
  induction x with
  | nil => rfl
  | cons c x ih =>
      rw [readDigits_cons, readDigits_cons, lawful.digitValue c (digits c List.mem_cons_self),
        ih fun d mem => digits d (List.mem_cons_of_mem _ mem)]
      rfl

/-- Three decimals are less than one by a thousandth. -/
theorem fraction_le {x : Text} (digits : ∀ c ∈ x, c.isDigit) (short : x.length ≤ 3) :
    (readDigits u x : ℚ) / 10 ^ x.length ≤ 1 - 1 / 1000 := by
  have power : (10 : ℚ) ^ x.length ≤ 10 ^ 3 := pow_le_pow_right₀ (by norm_num) short
  have below : (readDigits u x : ℚ) + 1 ≤ 10 ^ x.length := by
    exact_mod_cast readDigits_lt lawful digits
  rw [div_le_iff₀ (by positivity)]
  linarith

/-- An amount with at most three digits on each side is below 1000. -/
theorem decimalOf_le {whole fraction : Text} (digits : ∀ c ∈ whole, c.isDigit)
    (short : whole.length ≤ 3) (digits' : ∀ c ∈ fraction, c.isDigit)
    (short' : fraction.length ≤ 3) : decimalOf u whole fraction ≤ 1000 - 1 / 1000 := by
  have below : readDigits u whole < 10 ^ 3 :=
    (readDigits_lt lawful digits).trans_le (Nat.pow_le_pow_right (by norm_num) short)
  have whole_le : (readDigits u whole : ℚ) ≤ 999 := by
    have : readDigits u whole ≤ 999 := by omega
    exact_mod_cast this
  have fraction_le := fraction_le lawful digits' short'
  unfold decimalOf
  linarith

end Lawful

namespace Amount

/-! ## The value of an amount -/

/-- An amount is a number of cents. -/
theorem value_cents (m : Amount) : ∃ cents : ℤ, m.value * 100 = cents := by
  obtain ⟨short, -⟩ := m.fraction_digits
  have scaled : ∃ k : ℕ, (100 : ℚ) / 10 ^ m.fraction.length = k := by
    interval_cases m.fraction.length
    · exact ⟨100, by norm_num⟩
    · exact ⟨10, by norm_num⟩
    · exact ⟨1, by norm_num⟩
  obtain ⟨k, scale⟩ := scaled
  refine ⟨readDigits Unicode.ascii (m.head ++ m.groups.flatten) * 100 +
    readDigits Unicode.ascii m.fraction * k, ?_⟩
  rw [value, decimalOf]
  push_cast
  rw [← scale]
  ring

theorem value_nonneg (m : Amount) : 0 ≤ m.value := by
  unfold value decimalOf
  positivity

/-- Two amounts that differ, differ by a cent at least. -/
theorem cent_apart {m n : Amount} (apart : m.value ≠ n.value) : 1 / 100 ≤ |m.value - n.value| := by
  obtain ⟨k, mCents⟩ := m.value_cents
  obtain ⟨l, nCents⟩ := n.value_cents
  have other : k - l ≠ 0 := by
    intro same
    have equal : (k : ℚ) = l := by exact_mod_cast sub_eq_zero.mp same
    rw [← mCents, ← nCents] at equal
    exact apart (mul_right_cancel₀ (by norm_num) equal)
  have cents : (1 : ℚ) ≤ |((k - l : ℤ) : ℚ)| := by exact_mod_cast Int.one_le_abs other
  have scaled : m.value - n.value = ((k - l : ℤ) : ℚ) / 100 := by
    push_cast
    rw [← mCents, ← nCents]
    ring
  rw [scaled, abs_div, abs_of_pos (by norm_num : (0 : ℚ) < 100)]
  linarith

/-- An amount with a separator is 1000 or more. -/
theorem le_value (m : Amount) (grouped : m.groups ≠ []) : 1000 ≤ m.value := by
  obtain ⟨some_, digits⟩ := m.head_digits
  obtain ⟨c, rest, head⟩ := List.exists_cons_of_ne_nil some_
  have first : 1 ≤ Unicode.ascii.digitValue c := by
    have digit := digits c (head ▸ List.mem_cons_self)
    have leading : c ≠ '0' := fun zero => (m.leading grouped).2 (by rw [head, zero]; rfl)
    have other : c.toNat ≠ '0'.toNat := fun same => leading (Char.toNat_inj.mp same)
    have range := toNat_of_isDigit digit
    change 1 ≤ c.toNat - '0'.toNat
    omega
  have long : 3 ≤ (rest ++ m.groups.flatten).length := by
    obtain ⟨g, groups, same⟩ := List.exists_cons_of_ne_nil grouped
    have three := (m.group_digits g (same ▸ List.mem_cons_self)).1
    rw [same, List.flatten_cons, List.length_append, List.length_append]
    omega
  have whole : 1000 ≤ readDigits Unicode.ascii (m.head ++ m.groups.flatten) := by
    rw [head, List.cons_append, readDigits_cons]
    have power : 10 ^ 3 ≤ 10 ^ (rest ++ m.groups.flatten).length :=
      Nat.pow_le_pow_right (by norm_num) long
    nlinarith
  have fraction : 0 ≤ (readDigits Unicode.ascii m.fraction : ℚ) / 10 ^ m.fraction.length := by
    positivity
  have whole' : (1000 : ℚ) ≤ readDigits Unicode.ascii (m.head ++ m.groups.flatten) := by
    exact_mod_cast whole
  rw [value, decimalOf]
  linarith

/-! ## Its spelling -/

/-- The characters of a spelled amount. -/
def IsAmountChar (c : Char) : Prop := c.isDigit ∨ c = ',' ∨ c = '.'

theorem isAmountChar_spelled (m : Amount) : ∀ c ∈ m.spelled, IsAmountChar c := by
  intro c mem
  rcases List.mem_append.mp mem with mem | mem
  · exact .inl (m.head_digits.2 c mem)
  rcases List.mem_append.mp mem with mem | mem
  · obtain ⟨g, group, mem⟩ := List.mem_flatMap.mp mem
    rcases List.mem_cons.mp mem with rfl | mem
    · exact .inr (.inl rfl)
    · exact .inl ((m.group_digits g group).2 c mem)
  · unfold decimals at mem
    split at mem
    · cases mem
    · rcases List.mem_cons.mp mem with rfl | mem
      · exact .inr (.inr rfl)
      · exact .inl (m.fraction_digits.2 c mem)

/-- No run of digits is longer than three. -/
def ShortRuns (t : Text) : Prop := ∀ z, z <:+ t → (z.takeWhile Char.isDigit).length ≤ 3

theorem shortRuns_short {t : Text} (short : t.length ≤ 3) : ShortRuns t := fun _ suffix =>
  ((List.takeWhile_prefix _).length_le.trans suffix.length_le).trans short

theorem ShortRuns.append {g t : Text} {c : Char} (short : g.length ≤ 3)
    (stop : c.isDigit = false) (runs : ShortRuns t) : ShortRuns (g ++ c :: t) := by
  intro z suffix
  rcases suffix_append_cases suffix with within | ⟨g', -, part, rfl⟩
  · rcases List.suffix_cons_iff.mp within with rfl | within
    · simp [stop]
    · exact runs z within
  · rw [takeWhile_append_stop stop]
    exact shortRuns_short short g' part

theorem shortRuns_spelled (m : Amount) (grouped : m.groups ≠ []) : ShortRuns m.spelled := by
  have ending : ∀ g : Text, g.length ≤ 3 → ShortRuns (g ++ decimals m.fraction) := by
    intro g short
    unfold decimals
    split
    · rw [List.append_nil]
      exact shortRuns_short short
    · exact .append short rfl (shortRuns_short (m.fraction_digits.1.trans (by norm_num)))
  have groups : ∀ groups : List Text, (∀ g ∈ groups, g.length = 3) → ∀ g : Text, g.length ≤ 3 →
      ShortRuns (g ++ (groups.flatMap (',' :: ·) ++ decimals m.fraction)) := by
    intro groups
    induction groups with
    | nil => exact fun _ => ending
    | cons h groups ih =>
        intro three g short
        have rest := ih (fun g mem => three g (List.mem_cons_of_mem _ mem)) h
          (three h List.mem_cons_self).le
        simpa using ShortRuns.append (c := ',') short rfl rest
  exact groups m.groups (fun g mem => (m.group_digits g mem).1) m.head (m.leading grouped).1

section Lawful

variable {u : Unicode} (lawful : u.Lawful)

include lawful

/-- Digits and decimals that nothing follows are read as one amount. -/
theorem amountAt_plain {x fraction : Text} (some_ : x ≠ []) (digits : ∀ c ∈ x, c.isDigit)
    (digits' : ∀ c ∈ fraction, c.isDigit) :
    amountAt u (x ++ decimals fraction) = some (readAmount u x fraction, []) := by
  have all : x.takeWhile u.isDecimal = x ∧ x.dropWhile u.isDecimal = [] := by
    refine ⟨List.takeWhile_eq_self_iff.mpr ?_, List.dropWhile_eq_nil_iff.mpr ?_⟩ <;>
      exact fun c mem => isDecimal_of_isDigit lawful (digits c mem)
  have all' : fraction.takeWhile u.isDecimal = fraction ∧ fraction.dropWhile u.isDecimal = [] := by
    refine ⟨List.takeWhile_eq_self_iff.mpr ?_, List.dropWhile_eq_nil_iff.mpr ?_⟩ <;>
      exact fun c mem => isDecimal_of_isDigit lawful (digits' c mem)
  have point : u.isDecimal '.' = false := by rw [lawful.isDecimal _ (by decide)]; decide
  cases fraction with
  | nil => simp [decimals, amountAt, all, some_]
  | cons c fraction =>
      change amountAt u (x ++ '.' :: c :: fraction) = _
      unfold amountAt
      rw [takeWhile_append_stop point, dropWhile_append_stop point, all.1, all.2]
      simp [some_, all']

/-- What is read from a position of an amount with separators is below 1000. -/
theorem amountAt_lt {m : Amount} (grouped : m.groups ≠ []) {z : Text} (suffix : z <:+ m.spelled)
    {x : WithTop ℚ} {rest : Text} (found : amountAt u z = some (x, rest)) :
    ∃ q ≤ 1000 - 1 / 1000, 0 ≤ q ∧ x = toFloat q := by
  have ascii : ∀ c ∈ z, c.toNat < 128 := by
    intro c mem
    rcases m.isAmountChar_spelled c (suffix.mem mem) with digit | rfl | rfl
    · exact toNat_lt_of_isDigit digit
    · decide
    · decide
  have digits : ∀ {x : Text}, x <:+ z → ∀ c ∈ x.takeWhile u.isDecimal, c.isDigit := by
    intro x part c mem
    have decimal := List.mem_takeWhile_imp mem
    rwa [lawful.isDecimal c (ascii c (part.mem ((List.takeWhile_prefix _).mem mem)))] at decimal
  have short : ∀ {x : Text}, x <:+ z → (x.takeWhile u.isDecimal).length ≤ 3 := by
    intro x part
    rw [takeWhile_congr fun c mem => lawful.isDecimal c (ascii c (part.mem mem))]
    exact m.shortRuns_spelled grouped x (part.trans suffix)
  have read : ∀ fraction : Text, (∀ c ∈ fraction, c.isDigit) → fraction.length ≤ 3 →
      ∃ q ≤ (1000 : ℚ) - 1 / 1000, 0 ≤ q ∧
        readAmount u (z.takeWhile u.isDecimal) fraction = toFloat q := by
    intro fraction digits' short'
    refine ⟨_, decimalOf_le lawful (digits List.suffix_rfl) (short List.suffix_rfl) digits' short',
      ?_, rfl⟩
    unfold decimalOf
    positivity
  unfold amountAt at found
  dsimp only at found
  split at found
  · cases found
  · split at found
    · rename_i d ds after
      have part : ds <:+ z := (List.suffix_cons d ds).trans (after ▸ List.dropWhile_suffix _)
      split at found <;> cases found
      · exact read _ (digits part) (short part)
      · exact read [] nofun (Nat.zero_le 3)
    · cases found
      exact read [] nofun (Nat.zero_le 3)

end Lawful

end Amount

/-! ## The title -/

/-- No digit and no currency symbol in the title's characters, as the code decomposes
them. -/
def NoFaceValue (u : Unicode) (t : Text) : Prop :=
  ∀ c ∈ stripAccents u t, u.isDecimal c = false ∧ ∀ entry ∈ currencySymbols, c ≠ entry.1

theorem amountAt_suffix {t : Text} {q : WithTop ℚ} {rest : Text}
    (found : amountAt u t = some (q, rest)) : rest <:+ t := by
  unfold amountAt at found
  dsimp only at found
  split at found
  · cases found
  · split at found
    · rename_i d ds after
      have part : d :: ds <:+ t := after ▸ List.dropWhile_suffix _
      split at found <;> cases found
      · exact (List.dropWhile_suffix _).trans ((List.suffix_cons d ds).trans part)
      · exact List.dropWhile_suffix _
    · cases found
      exact List.nil_suffix

/-- No symbol, no symbol's amount. -/
theorem symbolDenomination_eq_none {t : Text}
    (plain : ∀ c ∈ t, ∀ entry ∈ currencySymbols, c ≠ entry.1) : symbolDenomination u t = none := by
  unfold symbolDenomination
  rw [List.findSome?_eq_none_iff]
  intro entry mem
  have first : search (symbolAmount u entry.1) [] t = none := search_eq_none fun b s suffix => by
    cases s with
    | nil => rfl
    | cons c s => simp [symbolAmount, plain c (suffix.mem List.mem_cons_self) entry mem]
  have second : search (amountSymbol u entry.1) [] t = none := search_eq_none fun b s suffix => by
    unfold amountSymbol
    cases found : amountAt u s with
    | none => rfl
    | some found' =>
        obtain ⟨q, rest⟩ := found'
        have part := (List.dropWhile_suffix u.isSpace).trans
          ((amountAt_suffix found).trans suffix)
        simp only [Option.bind_eq_bind, Option.bind_some]
        generalize rest.dropWhile u.isSpace = rest' at part
        cases rest' with
        | nil => rfl
        | cons c rest' => simp [plain c (part.mem List.mem_cons_self) entry mem]
  rw [first, second]
  rfl

theorem currencyCodes_lower :
    ∀ code ∈ currencyCodes, code ≠ [] ∧ ∀ c ∈ code, c.isLower = true := by
  simp [currencyCodes]

theorem toNat_of_isLower {c : Char} (letter : c.isLower) : 97 ≤ c.toNat ∧ c.toNat ≤ 122 := by
  simp only [Char.isLower, Bool.and_eq_true, decide_eq_true_eq, UInt32.le_iff_toNat_le,
    ge_iff_le] at letter
  exact letter

/-- A letter is not read as a part of an amount. -/
theorem not_isAmountChar {c : Char} (letter : c.isLower) : ¬ Amount.IsAmountChar c := by
  have range := toNat_of_isLower letter
  intro either
  rcases either with digit | rfl | rfl
  · have := (toNat_of_isDigit digit).2
    omega
  · cases letter
  · cases letter

/-- Where no digit stands, no amount starts. -/
theorem amountCode_stop {c : Char} (stop : u.isDecimal c = false) (b r : Text) :
    amountCode u b (c :: r) = none := by
  simp [amountCode, amountAt_stop stop]

/-- The characters of amounts and codes are ASCII, and lower case. -/
theorem toLower_of_amountChar {c : Char} (char : Amount.IsAmountChar c ∨ c.isLower) :
    c.toNat < 128 ∧ c.toLower = c := by
  have range : c.toNat < 65 ∨ 97 ≤ c.toNat ∧ c.toNat ≤ 122 := by
    rcases char with (digit | rfl | rfl) | letter
    · exact .inl ((toNat_of_isDigit digit).2.trans_lt (by norm_num))
    · exact .inl (by decide)
    · exact .inl (by decide)
    · exact .inr (toNat_of_isLower letter)
  refine ⟨by omega, ?_⟩
  unfold Char.toLower
  split
  · rename_i upper
    obtain ⟨low, high⟩ := upper
    change 65 ≤ c.toNat at low
    change c.toNat ≤ 90 at high
    omega
  · rfl

section Title

variable (lawful : u.Lawful) {code : Text} (known : code ∈ currencyCodes)

theorem codeAt_amountChar {c : Char} (char : Amount.IsAmountChar c) (r : Text) :
    codeAt (c :: r) = none := by
  unfold codeAt
  rw [Option.map_eq_none_iff, List.find?_eq_none]
  intro code mem prefix_
  obtain ⟨some_, letters⟩ := currencyCodes_lower code mem
  obtain ⟨d, rest, rfl⟩ := List.exists_cons_of_ne_nil some_
  rw [List.isPrefixOf_iff_prefix, List.cons_prefix_cons] at prefix_
  exact not_isAmountChar (letters d List.mem_cons_self) (prefix_.1 ▸ char)

include known

theorem codeAt_code (r : Text) : codeAt (code ++ ' ' :: r) = some (code, ' ' :: r) := by
  have alone : ∀ code ∈ currencyCodes, codeAt code = some (code, []) := by decide
  rw [codeAt_append_blank, alone code known]
  rfl

include lawful

/-- From a position in the amount, the amount is read if nothing of it is left over
before the code. -/
theorem amountCode_amount {z : Text} (chars : ∀ c ∈ z, Amount.IsAmountChar c) (b r : Text) :
    amountCode u b (z ++ ' ' :: (code ++ ' ' :: r)) =
      (amountAt u z).bind fun found =>
        if found.2 = [] then some (found.1, some (code.map Char.toUpper)) else none := by
  have blank : u.isDecimal ' ' = false := by rw [lawful.isDecimal _ (by decide)]; decide
  obtain ⟨some_, letters⟩ := currencyCodes_lower code known
  have ascii : IsAscii code := fun c mem =>
    (toNat_of_isLower (letters c mem)).2.trans_lt (by norm_num)
  unfold amountCode
  rw [amountAt_append blank (by decide) (by decide)]
  cases found : amountAt u z with
  | none => rfl
  | some found' =>
      obtain ⟨q, rest⟩ := found'
      simp only [Option.map_some, Option.bind_eq_bind, Option.bind_some]
      cases rest with
      | nil =>
          obtain ⟨c, cs, same⟩ := List.exists_cons_of_ne_nil some_
          have own : c ∈ code := same ▸ List.mem_cons_self
          have skipped : (' ' :: (code ++ ' ' :: r)).dropWhile u.isSpace = code ++ ' ' :: r := by
            rw [same]
            have stop := lawful.isSpace_visible c (ascii c own)
              ((by norm_num : 32 < 97).trans_le (toNat_of_isLower (letters c own)).1)
            simp [lawful.isSpace_blank, stop]
          have word : wordEnds u (' ' :: r) = true := by
            simp [wordEnds, lawful.isWord ' ' (by decide)]
          rw [List.nil_append, skipped, codeAt_code known]
          simp [word, lawful.upper code ascii]
      | cons c rest =>
          have char := chars c ((amountAt_suffix found).mem List.mem_cons_self)
          have stop : u.isSpace c = false := by
            rcases char with digit | rfl | rfl
            · exact lawful.isSpace_visible c (toNat_lt_of_isDigit digit)
                ((by decide : 32 < '0'.toNat).trans_le (toNat_of_isDigit digit).1)
            · exact lawful.isSpace_visible _ (by decide) (by decide)
            · exact lawful.isSpace_visible _ (by decide) (by decide)
          have skipped : (c :: rest ++ ' ' :: (code ++ ' ' :: r)).dropWhile u.isSpace =
              c :: (rest ++ ' ' :: (code ++ ' ' :: r)) := by simp [stop]
          rw [skipped, codeAt_amountChar char]
          simp

/-- What the search reads from an amount without separators. -/
theorem search_plain {m : Amount} (plain : m.groups = []) (b r : Text) :
    search (amountCode u) b (m.spelled ++ ' ' :: (code ++ ' ' :: r)) =
      some (toFloat m.value, some (code.map Char.toUpper)) := by
  have spelled : m.spelled = m.head ++ Amount.decimals m.fraction := by
    simp [Amount.spelled, plain]
  have value : toFloat m.value = readAmount u m.head m.fraction := by
    rw [Amount.value, plain, List.flatten_nil, List.append_nil, readAmount, decimalOf, decimalOf,
      readDigits_ascii lawful m.head_digits.2, readDigits_ascii lawful m.fraction_digits.2]
  apply search_of_match
  rw [amountCode_amount lawful known m.isAmountChar_spelled, spelled,
    Amount.amountAt_plain lawful m.head_digits.1 m.head_digits.2 m.fraction_digits.2, value]
  rfl

/-- The last group of an amount with separators is read, or a longer part of it. -/
theorem search_grouped {m : Amount} (grouped : m.groups ≠ []) (b r : Text)
    (digitless : ∀ c ∈ r, u.isDecimal c = false) :
    ∃ q ≤ (1000 : ℚ) - 1 / 1000, 0 ≤ q ∧
      search (amountCode u) b (m.spelled ++ ' ' :: (code ++ ' ' :: r)) =
        some (toFloat q, some (code.map Char.toUpper)) := by
  obtain ⟨groups, g, split_⟩ : ∃ groups g, m.groups = groups ++ [g] :=
    ⟨_, _, (List.dropLast_append_getLast grouped).symm⟩
  obtain ⟨three, digits⟩ := m.group_digits g (split_ ▸ List.mem_append_right _ List.mem_cons_self)
  have some_ : g ≠ [] := List.ne_nil_of_length_pos (by omega)
  have spelled : m.spelled =
      (m.head ++ groups.flatMap (',' :: ·) ++ [',']) ++ (g ++ Amount.decimals m.fraction) := by
    simp [Amount.spelled, split_]
  have read : ∀ b', amountCode u b' (g ++ Amount.decimals m.fraction ++ ' ' :: (code ++ ' ' :: r)) =
      some (readAmount u g m.fraction, some (code.map Char.toUpper)) := by
    intro b'
    rw [amountCode_amount lawful known fun c mem =>
        m.isAmountChar_spelled c (spelled ▸ List.mem_append_right _ mem),
      Amount.amountAt_plain lawful some_ digits m.fraction_digits.2]
    rfl
  have found : (search (amountCode u) b (m.spelled ++ ' ' :: (code ++ ' ' :: r))).isSome := by
    rw [spelled, List.append_assoc]
    apply search_isSome
    rw [read]
    rfl
  obtain ⟨denomination, same⟩ := Option.isSome_iff_exists.mp found
  obtain ⟨b', y, suffix, own⟩ := exists_of_search same
  rcases suffix_append_cases suffix with behind | ⟨z, -, part, rfl⟩
  · -- no digit stands behind the amount
    cases y with
    | nil => simp [amountCode, amountAt_nil] at own
    | cons d y =>
        rw [amountCode_stop] at own
        · cases own
        · have mem := behind.mem List.mem_cons_self
          rcases List.mem_cons.mp mem with rfl | mem
          · rw [lawful.isDecimal _ (by decide)]
            decide
          rcases List.mem_append.mp mem with mem | mem
          · have letter := (currencyCodes_lower code known).2 d mem
            rw [lawful.isDecimal d ((toNat_of_isLower letter).2.trans_lt (by norm_num))]
            simpa using fun digit => not_isAmountChar letter (.inl digit)
          rcases List.mem_cons.mp mem with rfl | mem
          · rw [lawful.isDecimal _ (by decide)]
            decide
          · exact digitless d mem
  · rw [amountCode_amount lawful known fun c mem => m.isAmountChar_spelled c (part.mem mem)] at own
    obtain ⟨⟨x, rest⟩, amount, told⟩ := Option.bind_eq_some_iff.mp own
    dsimp only at told
    split at told <;> cases told
    obtain ⟨q, below, nonneg, rfl⟩ := Amount.amountAt_lt lawful grouped part amount
    exact ⟨q, below, nonneg, same⟩

/-! ## The face value of a title -/

/-- The title as the patterns read it. -/
theorem lower_title (p s : Text) (m : Amount) :
    stripAccents u (faceValueTitle p m code s) =
        stripAccents u p ++ ' ' :: (m.spelled ++ ' ' :: (code ++ ' ' :: stripAccents u s)) ∧
      u.lower (stripAccents u (faceValueTitle p m code s)) =
        u.lower (stripAccents u p) ++
          ' ' :: (m.spelled ++ ' ' :: (code ++ ' ' :: u.lower (stripAccents u s))) := by
  have chars : ∀ c ∈ m.spelled ++ ' ' :: code,
      c = ' ' ∨ Amount.IsAmountChar c ∨ c.isLower := by
    intro c mem
    rcases List.mem_append.mp mem with mem | mem
    · exact .inr (.inl (m.isAmountChar_spelled c mem))
    · exact (List.mem_cons.mp mem).imp id fun mem => .inr ((currencyCodes_lower code known).2 c mem)
  have ascii : IsAscii (m.spelled ++ ' ' :: code) := by
    intro c mem
    rcases chars c mem with rfl | char
    · decide
    · exact (toLower_of_amountChar char).1
  have lowered : (m.spelled ++ ' ' :: code).map Char.toLower = m.spelled ++ ' ' :: code := by
    refine (List.map_congr_left fun c mem => ?_).trans (List.map_id _)
    rcases chars c mem with rfl | char
    · rfl
    · exact (toLower_of_amountChar char).2
  have title : faceValueTitle p m code s =
      p ++ ([' '] ++ ((m.spelled ++ ' ' :: code) ++ ([' '] ++ s))) := by
    simp [faceValueTitle]
  have raw : stripAccents u (faceValueTitle p m code s) =
      stripAccents u p ++ ' ' :: ((m.spelled ++ ' ' :: code) ++ ' ' :: stripAccents u s) := by
    have blank : stripAccents u [' '] = [' '] := by
      simp [stripAccents, lawful.nfkd, lawful.combining]
    rw [title, stripAccents_append, stripAccents_append, stripAccents_append u (m.spelled ++ _),
      stripAccents_append u _ s, blank, lawful.stripAccents ascii]
    rfl
  refine ⟨by simpa using raw, ?_⟩
  rw [raw, lawful.lower_blank, lawful.lower_blank, lawful.lower_of_lowered ascii lowered]
  simp

omit known in
/-- Lower casing brings no digit. -/
theorem NoFaceValue.lower {t : Text} (plain : NoFaceValue u t) :
    ∀ c ∈ u.lower (stripAccents u t), u.isDecimal c = false := by
  intro c mem
  by_contra digit
  obtain ⟨d, among, decimal⟩ := lawful.lower_decimal _ c mem (by simpa using digit)
  rw [(plain d among).1] at decimal
  cases decimal

variable {p s : Text} (pPlain : NoFaceValue u p) (sPlain : NoFaceValue u s)

include pPlain sPlain

/-- The face value of the title is what the search reads from the amount on. -/
theorem extractDenomination_title (m : Amount) {found : Denomination}
    (read : search (amountCode u) ((u.lower (stripAccents u p) ++ [' ']).reverse ++ [])
      (m.spelled ++ ' ' :: (code ++ ' ' :: u.lower (stripAccents u s))) = some found) :
    extractDenomination u (faceValueTitle p m code s) = some found := by
  obtain ⟨raw, lowered⟩ := lower_title lawful known p s m
  have symbols : symbolDenomination u (stripAccents u (faceValueTitle p m code s)) = none := by
    have foreign : ∀ entry ∈ currencySymbols, entry.1 ≠ ' ' ∧ entry.1 ≠ ',' ∧ entry.1 ≠ '.' ∧
      entry.1.isDigit = false ∧ entry.1.isLower = false := by decide
    apply symbolDenomination_eq_none
    rw [raw]
    intro c mem entry among same
    obtain ⟨blank, comma, point, digit, letter⟩ := foreign entry among
    rw [← same] at blank comma point digit letter
    rcases List.mem_append.mp mem with mem | mem
    · exact (pPlain c mem).2 entry among same
    rcases List.mem_cons.mp mem with rfl | mem
    · exact blank rfl
    rcases List.mem_append.mp mem with mem | mem
    · rcases m.isAmountChar_spelled c mem with own | own | own
      · rw [digit] at own
        cases own
      · exact comma own
      · exact point own
    rcases List.mem_cons.mp mem with rfl | mem
    · exact blank rfl
    rcases List.mem_append.mp mem with mem | mem
    · rw [(currencyCodes_lower code known).2 c mem] at letter
      cases letter
    rcases List.mem_cons.mp mem with rfl | mem
    · exact blank rfl
    · exact (sPlain c mem).2 entry among same
  have first : search (amountCode u) [] (u.lower (stripAccents u (faceValueTitle p m code s))) =
      some found := by
    have before : ∀ c ∈ u.lower (stripAccents u p) ++ [' '], u.isDecimal c = false := by
      intro c mem
      rcases List.mem_append.mp mem with mem | mem
      · exact pPlain.lower lawful c mem
      · obtain rfl := List.mem_singleton.mp mem
        rw [lawful.isDecimal _ (by decide)]
        decide
    rw [lowered, ← List.singleton_append, ← List.append_assoc, search_skip]
    · exact read
    · intro b y suffix some_
      obtain ⟨c, y, rfl⟩ := List.exists_cons_of_ne_nil some_
      exact amountCode_stop (before c (suffix.mem List.mem_cons_self)) b _
  unfold extractDenomination
  simp only [symbols, first]
  rfl

/-- An amount without separators is read as it is stated. -/
theorem extractDenomination_plain {m : Amount} (plain : m.groups = []) :
    extractDenomination u (faceValueTitle p m code s) =
      some (toFloat m.value, some (code.map Char.toUpper)) :=
  extractDenomination_title lawful known pPlain sPlain m (search_plain lawful known plain _ _)

/-- An amount with separators is read as one below 1000. -/
theorem extractDenomination_grouped {m : Amount} (grouped : m.groups ≠ []) :
    ∃ q ≤ (1000 : ℚ) - 1 / 1000, 0 ≤ q ∧ extractDenomination u (faceValueTitle p m code s) =
      some (toFloat q, some (code.map Char.toUpper)) := by
  obtain ⟨q, below, nonneg, read⟩ := search_grouped lawful known grouped
    ((u.lower (stripAccents u p) ++ [' ']).reverse ++ []) _ (sPlain.lower lawful)
  exact ⟨q, below, nonneg, extractDenomination_title lawful known pPlain sPlain m read⟩

end Title

/-! ## The gate -/

/-- The title states its amount, and the gate tells it from one that states `n`. -/
def AmountGated (u : Unicode) (ratio : Text → Text → ℚ) (p c s : Text) (m n : Amount) : Prop :=
  extractDenomination u (faceValueTitle p m c s) =
      some (toFloat m.value, some (c.map Char.toUpper)) ∧
    scorePair ratio (parseTitle u (faceValueTitle p m c s))
      (parseTitle u (faceValueTitle p n c s)) = (0, ["denomination mismatch".toList])

/-- Where the amounts are read, the gate compares their floats. -/
theorem denominationsConflict_read {m n : Amount} (currency : Text) (apart : m.value ≠ n.value) :
    denominationsConflict (some (toFloat m.value, some currency))
      (some (toFloat n.value, some currency)) = true ↔ toFloat m.value ≠ toFloat n.value := by
  rw [← farApart_iff m.value_nonneg n.value_nonneg (Amount.cent_apart apart), FarApart]
  simp only [denominationsConflict]
  cases truthy (some currency) <;> simp

/-- No other gate gives the reason of this one. -/
theorem conflict_of_reason {ratio : Text → Text → ℚ} {supplier store : TitleParts}
    (gated : scorePair ratio supplier store = (0, ["denomination mismatch".toList])) :
    denominationsConflict supplier.denomination store.denomination = true := by
  by_contra pass
  unfold scorePair at gated
  rw [if_neg pass] at gated
  split at gated
  · cases gated
  split at gated
  · cases gated
  split at gated
  · cases gated
  -- two reasons at least, and the gate gives one
  have long := congrArg (fun scored => scored.2.length) gated
  simp only [List.length_append, List.length_cons, List.length_nil] at long
  omega

/-- Two stated amounts are told apart exactly if both are written without separators and
are not one float. -/
theorem amounts_gated_iff (u : Unicode) (lawful : u.Lawful) (ratio : Text → Text → ℚ)
    (p c s : Text) (pPlain : NoFaceValue u p) (sPlain : NoFaceValue u s)
    (known : c ∈ currencyCodes) (m n : Amount) (apart : m.value ≠ n.value) :
    AmountGated u ratio p c s m n ∧ AmountGated u ratio p c s n m ↔
      m.groups = [] ∧ n.groups = [] ∧ toFloat m.value ≠ toFloat n.value := by
  have read_iff : ∀ x : Amount, extractDenomination u (faceValueTitle p x c s) =
      some (toFloat x.value, some (c.map Char.toUpper)) ↔ x.groups = [] := by
    intro x
    refine ⟨fun read => ?_, fun plain => extractDenomination_plain lawful known pPlain sPlain plain⟩
    by_contra grouped
    obtain ⟨q, below, nonneg, other⟩ :=
      extractDenomination_grouped lawful known pPlain sPlain grouped
    rw [other] at read
    have same : toFloat q = toFloat x.value := congrArg Prod.fst (Option.some.inj read)
    have less : toFloat q < toFloat x.value :=
      toFloat_lt_toFloat nonneg (by linarith) (by linarith [x.le_value grouped])
    exact absurd same less.ne
  have conflict_iff : ∀ x y : Amount, x.value ≠ y.value → x.groups = [] → y.groups = [] →
      (denominationsConflict (parseTitle u (faceValueTitle p x c s)).denomination
        (parseTitle u (faceValueTitle p y c s)).denomination = true ↔
          toFloat x.value ≠ toFloat y.value) := by
    intro x y differ xPlain yPlain
    change denominationsConflict (extractDenomination u _) (extractDenomination u _) = true ↔ _
    rw [(read_iff x).mpr xPlain, (read_iff y).mpr yPlain, denominationsConflict_read _ differ]
  have gated : ∀ x y : Amount, x.value ≠ y.value → x.groups = [] → y.groups = [] →
      toFloat x.value ≠ toFloat y.value → AmountGated u ratio p c s x y := by
    intro x y differ xPlain yPlain floats
    refine ⟨(read_iff x).mpr xPlain, ?_⟩
    unfold scorePair
    rw [if_pos ((conflict_iff x y differ xPlain yPlain).mpr floats)]
  constructor
  · intro ⟨first, second⟩
    have mPlain := (read_iff m).mp first.1
    have nPlain := (read_iff n).mp second.1
    exact ⟨mPlain, nPlain, (conflict_iff m n apart mPlain nPlain).mp
      (conflict_of_reason first.2)⟩
  · intro ⟨mPlain, nPlain, floats⟩
    exact ⟨gated m n apart mPlain nPlain floats, gated n m apart.symm nPlain mPlain floats.symm⟩

namespace Amount

/-- An amount of digits only. -/
def whole (head : Text) (some_ : head ≠ []) (digits : ∀ c ∈ head, c.isDigit) : Amount :=
  ⟨head, [], [], ⟨some_, digits⟩, nofun, nofun, ⟨Nat.zero_le 2, nofun⟩⟩

/-- 1 -/
def one : Amount := whole ['1'] (by simp) (by simp)

/-- 50 -/
def fifty : Amount := whole "50".toList (by simp) (by simp)

/-- 1,000 -/
def thousand : Amount where
  head := ['1']
  groups := ["000".toList]
  fraction := []
  head_digits := by simp
  group_digits := by simp
  leading _ := by simp
  fraction_digits := ⟨Nat.zero_le 2, nofun⟩

end Amount

theorem noFaceValue_giftCard : NoFaceValue Unicode.ascii "Gift Card".toList := by
  simp [NoFaceValue, stripAccents, Unicode.ascii, currencySymbols]

theorem noFaceValue_global : NoFaceValue Unicode.ascii "Global".toList := by
  simp [NoFaceValue, stripAccents, Unicode.ascii, currencySymbols]

theorem gift_card_amounts_gated_iff :
    AmountGated Unicode.ascii Difflib.ratio "Gift Card".toList "usd".toList "Global".toList
        .one .fifty ∧
      AmountGated Unicode.ascii Difflib.ratio "Gift Card".toList "usd".toList "Global".toList
        .fifty .one ↔
      Amount.one.groups = [] ∧ Amount.fifty.groups = [] ∧
        toFloat Amount.one.value ≠ toFloat Amount.fifty.value :=
  amounts_gated_iff Unicode.ascii Unicode.ascii_lawful Difflib.ratio _ _ _
    noFaceValue_giftCard noFaceValue_global (by decide) _ _ (by decide +kernel)

/-- 1,000 is read as 1, and the two titles pass for one product. -/
theorem thousand_read_as_one :
    NoFaceValue Unicode.ascii "Gift Card".toList ∧ NoFaceValue Unicode.ascii "Global".toList ∧
      "usd".toList ∈ currencyCodes ∧ Amount.thousand.value = 1000 ∧ Amount.one.value = 1 ∧
      faceValueTitle "Gift Card".toList .thousand "usd".toList "Global".toList =
        "Gift Card 1,000 usd Global".toList ∧
      extractDenomination Unicode.ascii "Gift Card 1,000 usd Global".toList =
        some (1, some "USD".toList) ∧
      (scorePair Difflib.ratio (parseTitle Unicode.ascii "Gift Card 1,000 usd Global".toList)
        (parseTitle Unicode.ascii "Gift Card 1 usd Global".toList)).1 = 2821 / 3400 ∧
      ¬ AmountGated Unicode.ascii Difflib.ratio "Gift Card".toList "usd".toList "Global".toList
        .thousand .one := by
  have title : faceValueTitle "Gift Card".toList .thousand "usd".toList "Global".toList =
      "Gift Card 1,000 usd Global".toList := by decide
  have read : extractDenomination Unicode.ascii "Gift Card 1,000 usd Global".toList =
      some (1, some "USD".toList) := by decide +kernel
  have value : Amount.thousand.value = 1000 := by decide +kernel
  refine ⟨noFaceValue_giftCard, noFaceValue_global, by decide, value, by decide +kernel, title,
    read, by decide +kernel, fun gated => ?_⟩
  have stated := gated.1
  rw [title, read, value] at stated
  have other : (1 : WithTop ℚ) ≠ toFloat 1000 := by decide +kernel
  exact other (congrArg Prod.fst (Option.some.inj stated))

end FazerBridge
