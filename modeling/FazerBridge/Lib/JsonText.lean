import FazerBridge.Lib.Json
import Mathlib.Data.Int.Notation
import Mathlib.Data.List.Basic
import Mathlib.Tactic.Common

/-!
# What a JSON text says

Two flat objects with the same keys print alike only if they are equal.  Each
part of the text can be read off its front: an escape tells its character
(`unescape`), a closing quote ends a string, and a number goes on to the next
comma or brace.
-/

namespace FazerBridge.Json

/-! ## Escapes -/

def hexValue (c : Char) : ℕ := if c.isDigit then c.toNat - 48 else c.toNat - 87

/-- The number four hexadecimal digits write. -/
def unitValue (a b c d : Char) : ℕ :=
  hexValue a * 4096 + hexValue b * 256 + hexValue c * 16 + hexValue d

/-- The first character between the quotes, and the text after it. -/
def unescape : List Char → Option (Char × List Char)
  | '"' :: _ => none
  | '\\' :: 'n' :: rest => some ('\n', rest)
  | '\\' :: 'r' :: rest => some ('\r', rest)
  | '\\' :: 't' :: rest => some ('\t', rest)
  | '\\' :: 'b' :: rest => some (Char.ofNat 8, rest)
  | '\\' :: 'f' :: rest => some (Char.ofNat 12, rest)
  | '\\' :: 'u' :: a :: b :: c :: d :: rest =>
    let unit := unitValue a b c d
    if 55296 ≤ unit ∧ unit < 56320 then
      match rest with
      | '\\' :: 'u' :: a :: b :: c :: d :: rest =>
        some (Char.ofNat (65536 + (unit - 55296) * 1024 + (unitValue a b c d - 56320)), rest)
      | _ => none
    else some (Char.ofNat unit, rest)
  | '\\' :: c :: rest => some (c, rest)
  | c :: rest => some (c, rest)
  | [] => none

theorem hexValue_digitChar : ∀ {n : ℕ}, n < 16 → hexValue (Nat.digitChar n) = n := by
  decide

/-- The digits of a unit. -/
theorem unitValue_digits {n : ℕ} (small : n < 65536) :
    unitValue (Nat.digitChar (n / 4096 % 16)) (Nat.digitChar (n / 256 % 16))
      (Nat.digitChar (n / 16 % 16)) (Nat.digitChar (n % 16)) = n := by
  have digit : ∀ m, hexValue (Nat.digitChar (m % 16)) = m % 16 :=
    fun m => hexValue_digitChar (Nat.mod_lt m (by decide))
  rw [unitValue, digit, digit, digit, digit]
  omega

theorem unescape_unit {n : ℕ} (small : n < 65536) (whole : ¬ (55296 ≤ n ∧ n < 56320))
    (rest : List Char) : unescape (escapeUnit n ++ rest) = some (Char.ofNat n, rest) := by
  simp only [escapeUnit, List.map_cons, List.map_nil, List.cons_append, List.nil_append, unescape,
    unitValue_digits small]
  rw [if_neg whole]

theorem unescape_units {high low : ℕ} (first : 55296 ≤ high ∧ high < 56320) (second : low < 65536)
    (rest : List Char) :
    unescape (escapeUnit high ++ (escapeUnit low ++ rest)) =
      some (Char.ofNat (65536 + (high - 55296) * 1024 + (low - 56320)), rest) := by
  have small : high < 65536 := by omega
  simp only [escapeUnit, List.map_cons, List.map_nil, List.cons_append, List.nil_append, unescape,
    unitValue_digits small, unitValue_digits second]
  rw [if_pos first]

/-- A character is read back from its escape. -/
theorem unescape_escapeChar (c : Char) (rest : List Char) :
    unescape (escapeChar c ++ rest) = some (c, rest) := by
  have code : Char.ofNat c.toNat = c := Char.ofNat_toNat c
  have valid : c.toNat < 55296 ∨ 57344 ≤ c.toNat ∧ c.toNat < 1114112 := by
    have := c.valid
    simp only [UInt32.isValidChar, Nat.isValidChar, Char.toNat] at this ⊢
    omega
  unfold escapeChar
  split
  · rename_i same
    rw [same]
    rfl
  split
  · rename_i same
    rw [same]
    rfl
  split
  · rename_i same
    rw [same]
    rfl
  split
  · rename_i same
    rw [same]
    rfl
  split
  · rename_i same
    rw [same]
    rfl
  split
  · rename_i same
    rw [← code, same]
    rfl
  split
  · rename_i same
    rw [← code, same]
    rfl
  split
  · rename_i quote backslash _ _ _ _ _ _
    rw [List.singleton_append, unescape]
    · exact quote
    all_goals
      intros
      contradiction
  split
  · rename_i small
    rw [unescape_unit small (by omega), code]
  · rename_i large
    have number : 65536 + (55296 + (c.toNat - 65536) / 1024 - 55296) * 1024 +
        (56320 + (c.toNat - 65536) % 1024 - 56320) = c.toNat := by omega
    rw [List.append_assoc, unescape_units (by omega) (by omega), number, code]

/-- What stands between two quotes, and what follows them. -/
theorem escaped_injective {a b r s : List Char}
    (same : a.flatMap escapeChar ++ '"' :: r = b.flatMap escapeChar ++ '"' :: s) :
    a = b ∧ r = s := by
  induction a generalizing b with
  | nil =>
      cases b with
      | nil => exact ⟨rfl, List.tail_eq_of_cons_eq same⟩
      | cons d b =>
          rw [List.flatMap_cons, List.append_assoc] at same
          have read := (congrArg unescape same).trans (unescape_escapeChar d _)
          cases read
  | cons c a ih =>
      rw [List.flatMap_cons, List.append_assoc] at same
      have read := (unescape_escapeChar c _).symm.trans (congrArg unescape same)
      cases b with
      | nil => cases read
      | cons d b =>
          rw [List.flatMap_cons, List.append_assoc, unescape_escapeChar, Option.some.injEq,
            Prod.mk.injEq] at read
          obtain ⟨rfl, rest⟩ := read
          obtain ⟨rfl, rfl⟩ := ih rest
          exact ⟨rfl, rfl⟩

theorem toList_quote (text : String) :
    (quote text).toList = '"' :: (text.toList.flatMap escapeChar ++ ['"']) := by
  simp [quote]

theorem quote_injective {a b : String} {r s : List Char}
    (same : (quote a).toList ++ r = (quote b).toList ++ s) : a = b ∧ r = s := by
  rw [toList_quote, toList_quote] at same
  rw [List.cons_append, List.cons_append, List.append_assoc, List.append_assoc] at same
  have between := List.tail_eq_of_cons_eq same
  obtain ⟨texts, rests⟩ := escaped_injective between
  exact ⟨String.toList_injective texts, rests⟩

/-! ## Values that contain no others -/

/-- What a JSON number is written with. -/
def Numeral (text : String) : Prop := ∀ c ∈ text.toList, c.isDigit ∨ c = '-'

/-- A missing value, a text or a number. -/
inductive Flat : Json → Prop
  | null : Flat .null
  | string (text : String) : Flat (.string text)
  | number {text : String} (numeral : Numeral text) : Flat (.number text)

/-- What follows a value of an object. -/
def Ends (c : Char) : Prop := c = ',' ∨ c = '\x7d'

theorem ends_comma : Ends ',' := .inl rfl

theorem ends_brace : Ends '\x7d' := .inr rfl

theorem numeral_injective {a b r s : List Char} {c d : Char} (ha : ∀ x ∈ a, x.isDigit ∨ x = '-')
    (hb : ∀ x ∈ b, x.isDigit ∨ x = '-') (hc : Ends c) (hd : Ends d)
    (same : a ++ c :: r = b ++ d :: s) : a = b ∧ c :: r = d :: s := by
  have apart : ∀ {x y : Char}, (x.isDigit ∨ x = '-') → Ends y → x ≠ y := by
    rintro x y numeral ends rfl
    rcases ends with rfl | rfl <;> rcases numeral with digit | same
    · exact absurd digit (by decide)
    · exact absurd same (by decide)
    · exact absurd digit (by decide)
    · exact absurd same (by decide)
  induction a generalizing b with
  | nil =>
      cases b with
      | nil => exact ⟨rfl, same⟩
      | cons y b => exact absurd (List.head_eq_of_cons_eq same).symm (apart (hb y (by simp)) hc)
  | cons x a ih =>
      cases b with
      | nil => exact absurd (List.head_eq_of_cons_eq same) (apart (ha x (by simp)) hd)
      | cons y b =>
          rw [List.cons_append, List.cons_append, List.cons.injEq] at same
          obtain ⟨rfl, rest⟩ := same
          obtain ⟨rfl, rests⟩ := ih (fun z mem => ha z (List.mem_cons_of_mem _ mem))
            (fun z mem => hb z (List.mem_cons_of_mem _ mem)) rest
          exact ⟨rfl, rests⟩

/-- A flat value and what follows it. -/
theorem Flat.injective {a b : Json} {r s : List Char} {c d : Char} (flatA : Flat a) (flatB : Flat b)
    (hc : Ends c) (hd : Ends d)
    (same : (dumps a).toList ++ c :: r = (dumps b).toList ++ d :: s) :
    a = b ∧ c :: r = d :: s := by
  have noNumber : ∀ {text : String} {x e : Char} {t u : List Char}, Numeral text → Ends e →
      (x = 'n' ∨ x = '"') → text.toList ++ e :: t ≠ x :: u := by
    intro text x e t u numeral ends quoted same
    cases chars : text.toList with
    | nil =>
        rw [chars] at same
        have first := List.head_eq_of_cons_eq same
        rcases ends with rfl | rfl <;> rcases quoted with rfl | rfl <;> cases first
    | cons y ys =>
        rw [chars] at same
        have first := List.head_eq_of_cons_eq same
        rcases numeral y (by rw [chars]; exact List.mem_cons_self) with digit | rfl
        · rw [first] at digit
          rcases quoted with rfl | rfl <;> exact absurd digit (by decide)
        · rcases quoted with rfl | rfl <;> cases first
  cases flatA with
  | null =>
      cases flatB with
      | null => exact ⟨rfl, List.append_cancel_left same⟩
      | string text =>
          rw [dumps, dumps, toList_quote] at same
          cases List.head_eq_of_cons_eq same
      | number numeral => exact absurd same.symm (noNumber numeral hd (.inl rfl))
  | string text =>
      cases flatB with
      | null =>
          rw [dumps, dumps, toList_quote] at same
          cases List.head_eq_of_cons_eq same
      | string text' =>
          rw [dumps, dumps] at same
          obtain ⟨rfl, rests⟩ := quote_injective same
          exact ⟨rfl, rests⟩
      | number numeral =>
          rw [dumps, dumps, toList_quote] at same
          exact absurd same.symm (noNumber numeral hd (.inr rfl))
  | number numeral =>
      cases flatB with
      | null => exact absurd same (noNumber numeral hc (.inl rfl))
      | string text =>
          rw [dumps, dumps, toList_quote] at same
          exact absurd same (noNumber numeral hc (.inr rfl))
      | number numeral' =>
          rw [dumps, dumps] at same
          obtain ⟨texts, rests⟩ := numeral_injective numeral numeral' hc hd same
          rw [String.toList_injective texts]
          exact ⟨rfl, rests⟩

/-! ## Objects -/

theorem intercalated_cons (key : String) (a : Json) (x : String × Json)
    (f : List (String × Json)) :
    (String.intercalate ", " (dumpsFields ((key, a) :: x :: f))).toList =
      (quote key ++ ": ").toList ++ ((dumps a).toList ++
        ',' :: ' ' :: (String.intercalate ", " (dumpsFields (x :: f))).toList) := by
  rw [dumpsFields, dumpsFields, String.intercalate_cons_cons, String.toList_append,
    String.toList_append, String.toList_append, List.append_assoc, List.append_assoc]
  rfl

theorem intercalated_injective {f g : List (String × Json)}
    (keys : f.map Prod.fst = g.map Prod.fst) (flatF : ∀ x ∈ f, Flat x.2)
    (flatG : ∀ x ∈ g, Flat x.2)
    (same : (String.intercalate ", " (dumpsFields f)).toList ++ ['\x7d'] =
      (String.intercalate ", " (dumpsFields g)).toList ++ ['\x7d']) : f = g := by
  induction f generalizing g with
  | nil => exact (List.map_eq_nil_iff.mp keys.symm).symm
  | cons x f ih =>
      cases g with
      | nil => cases keys
      | cons y g =>
          obtain ⟨key, a⟩ := x
          obtain ⟨key', b⟩ := y
          rw [List.map_cons, List.map_cons, List.cons.injEq] at keys
          obtain ⟨rfl, keys⟩ := keys
          have flatA : Flat a := flatF _ List.mem_cons_self
          have flatB : Flat b := flatG _ List.mem_cons_self
          cases f with
          | nil =>
              rw [List.map_eq_nil_iff.mp keys.symm] at same ⊢
              simp only [dumpsFields, String.intercalate_singleton, String.toList_append,
                List.append_assoc, List.append_cancel_left_eq] at same
              obtain ⟨rfl, -⟩ := Flat.injective flatA flatB ends_brace ends_brace same
              rfl
          | cons x' f =>
              cases g with
              | nil => cases keys
              | cons y' g =>
                  rw [intercalated_cons, intercalated_cons,
                    List.append_assoc (quote key ++ ": ").toList,
                    List.append_assoc (quote key ++ ": ").toList] at same
                  have values := List.append_cancel_left same
                  rw [List.append_assoc, List.append_assoc, List.cons_append, List.cons_append,
                    List.cons_append, List.cons_append] at values
                  obtain ⟨rfl, rests⟩ := Flat.injective flatA flatB ends_comma ends_comma values
                  rw [List.cons.injEq, List.cons.injEq] at rests
                  rw [ih keys (fun z mem => flatF z (List.mem_cons_of_mem _ mem))
                    (fun z mem => flatG z (List.mem_cons_of_mem _ mem)) rests.2.2]

/-- Flat objects with the same keys and the same text are equal. -/
theorem object_injective {f g : List (String × Json)}
    (keys : f.map Prod.fst = g.map Prod.fst) (flatF : ∀ x ∈ f, Flat x.2)
    (flatG : ∀ x ∈ g, Flat x.2) (same : dumps (.object f) = dumps (.object g)) : f = g := by
  have texts := congrArg String.toList same
  simp only [dumps, String.toList_append, List.append_assoc, List.append_cancel_left_eq] at texts
  exact intercalated_injective keys flatF flatG texts

/-- The text of a whole number. -/
theorem numeral_int (n : ℤ) : Numeral n.repr := by
  intro c mem
  rw [Int.repr_eq_if] at mem
  split at mem
  · rw [Nat.toList_repr] at mem
    exact .inl (Nat.isDigit_of_mem_toDigits (by decide) (by decide) mem)
  · rw [String.toList_append, Nat.toList_repr] at mem
    rcases List.mem_append.mp mem with sign | mem
    · exact .inr (by simpa using sign)
    · exact .inl (Nat.isDigit_of_mem_toDigits (by decide) (by decide) mem)

end FazerBridge.Json
