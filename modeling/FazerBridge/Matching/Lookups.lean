import FazerBridge.Lib.Neighbours
import FazerBridge.Matching.Shortlist

/-!
# Which words are looked up

`_shortlist` looks up one word after the other, three of them at most, and stops when 400
rows are found.  As long as no word has 400 rows of its own, what it finds are the rows of
the words that are looked up, each row under the first word that it contains
(`anchoredProducts_eq`).
-/

namespace FazerBridge

open Neighbours

namespace MatchingEngine

/-- The row contains one of the words. -/
def containsAny (words : List Text) (p : StoreProduct) : Bool :=
  words.any fun word => anchorHits word p

/-- After these words another one is looked up. -/
def LooksOn (rows : List StoreProduct) (before : List Text) : Prop :=
  before.length < 3 ∧ rows.countP (containsAny before) < 400

instance (rows : List StoreProduct) (before : List Text) : Decidable (LooksOn rows before) :=
  inferInstanceAs (Decidable (_ ∧ _))

/-- The words that are looked up, of some that follow `before`. -/
def lookedUp (rows : List StoreProduct) : List Text → List Text → List Text
  | _, [] => []
  | before, word :: rest =>
    if LooksOn rows before then word :: lookedUp rows (before ++ [word]) rest else []

/-- The rows with the word that contain none of the words before it. -/
def addedBy (rows : List StoreProduct) (before : List Text) (word : Text) : List StoreProduct :=
  rows.filter fun p => anchorHits word p && !containsAny before p

/-- The rows of some words that follow `before`, one word after the other. -/
def inTurn (rows : List StoreProduct) : List Text → List Text → List StoreProduct
  | _, [] => []
  | before, word :: rest => addedBy rows before word ++ inTurn rows (before ++ [word]) rest

variable {rows found : List StoreProduct} {before before' words rest : List Text} {a b : Text}
  {p : StoreProduct}

@[simp] theorem containsAny_nil : containsAny [] p = false := rfl

@[simp] theorem containsAny_append (before after : List Text) (p : StoreProduct) :
    containsAny (before ++ after) p = (containsAny before p || containsAny after p) := by
  rw [containsAny, List.any_append]
  rfl

@[simp] theorem containsAny_cons (word : Text) (words : List Text) (p : StoreProduct) :
    containsAny (word :: words) p = (anchorHits word p || containsAny words p) := by
  rw [containsAny, List.any_cons]
  rfl

/-- The order of the words does not matter. -/
theorem containsAny_perm (perm : before.Perm before') : containsAny before = containsAny before' :=
  funext fun _ => perm.any_eq

theorem looksOn_nil : LooksOn rows [] := by
  have none : rows.countP (containsAny []) = 0 := List.countP_eq_zero.mpr fun p _ => by simp
  rw [LooksOn, none]
  exact ⟨by simp, by simp⟩

/-- What stops the search goes on to stop it. -/
theorem LooksOn.of_append (looksOn : LooksOn rows (before ++ rest)) : LooksOn rows before := by
  obtain ⟨short, few⟩ := looksOn
  rw [List.length_append] at short
  refine ⟨by omega, lt_of_le_of_lt (List.countP_mono_left fun p _ contains => ?_) few⟩
  rw [containsAny_append, contains, Bool.true_or]

/-- Nor does it matter for going on. -/
theorem looksOn_perm (perm : before.Perm before') : LooksOn rows before ↔ LooksOn rows before' := by
  rw [LooksOn, LooksOn, perm.length_eq, containsAny_perm perm]

/-! ## The words -/

/-- A search that found enough looks up nothing more. -/
theorem lookedUp_of_not (stops : ¬ LooksOn rows before) : lookedUp rows before words = [] := by
  cases words with
  | nil => rfl
  | cons word rest => exact if_neg stops

/-- While the search goes on, every word is looked up. -/
theorem lookedUp_append (words rest : List Text) (looksOn : LooksOn rows (before ++ words)) :
    lookedUp rows before (words ++ rest) = words ++ lookedUp rows (before ++ words) rest := by
  induction words generalizing before with
  | nil => rw [List.append_nil, List.nil_append, List.nil_append]
  | cons word words ih =>
      have whole : before ++ word :: words = before ++ [word] ++ words := by simp
      rw [whole] at looksOn ⊢
      rw [List.cons_append, lookedUp, if_pos looksOn.of_append.of_append, ih looksOn,
        List.cons_append]

/-- Where the search stops, nothing later is looked up. -/
theorem lookedUp_stops (words rest : List Text) (stops : ¬ LooksOn rows (before ++ words)) :
    lookedUp rows before (words ++ rest) = lookedUp rows before words := by
  induction words generalizing before with
  | nil =>
      rw [List.append_nil] at stops
      rw [lookedUp_of_not stops, lookedUp_of_not stops]
  | cons word words ih =>
      have whole : before ++ word :: words = before ++ [word] ++ words := by simp
      rw [whole] at stops
      rw [List.cons_append, lookedUp, lookedUp, ih stops]

/-- What is looked up next depends on the words before, not on their order. -/
theorem lookedUp_perm (perm : before.Perm before') (words : List Text) :
    lookedUp rows before words = lookedUp rows before' words := by
  induction words generalizing before before' with
  | nil => rfl
  | cons word words ih =>
      rw [lookedUp, lookedUp, ih (perm.append_right [word])]
      simp only [looksOn_perm perm]

/-! ## Their rows -/

/-- The rows come word by word. -/
theorem inTurn_append (before words rest : List Text) :
    inTurn rows before (words ++ rest) =
      inTurn rows before words ++ inTurn rows (before ++ words) rest := by
  induction words generalizing before with
  | nil => rw [List.append_nil, List.nil_append, inTurn, List.nil_append]
  | cons word words ih =>
      rw [List.cons_append, inTurn, inTurn, ih, List.append_assoc, List.append_assoc,
        List.singleton_append]

/-- What a word adds does not depend on the order of the words before. -/
theorem inTurn_perm (perm : before.Perm before') (words : List Text) :
    inTurn rows before words = inTurn rows before' words := by
  induction words generalizing before before' with
  | nil => rfl
  | cons word words ih =>
      rw [inTurn, inTurn, addedBy, addedBy, containsAny_perm perm, ih (perm.append_right [word])]

/-- Filtering the rows before the search or after it is the same. -/
theorem filter_inTurn (f : StoreProduct → Bool) (words : List Text) :
    (inTurn rows before words).filter f = inTurn (rows.filter f) before words := by
  induction words generalizing before with
  | nil => rfl
  | cons word words ih =>
      rw [inTurn, inTurn, List.filter_append, ih, addedBy, addedBy, List.filter_filter,
        List.filter_filter]
      simp only [Bool.and_comm]

/-- Every row with one of the words is listed once. -/
theorem length_inTurn (words : List Text) :
    (inTurn rows before words).length + rows.countP (containsAny before) =
      rows.countP (containsAny (before ++ words)) := by
  induction words generalizing before with
  | nil => rw [inTurn, List.length_nil, Nat.zero_add, List.append_nil]
  | cons word words ih =>
      have whole : before ++ word :: words = before ++ [word] ++ words := by simp
      have more : rows.countP (containsAny (before ++ [word])) =
          (addedBy rows before word).length + rows.countP (containsAny before) := by
        rw [addedBy, ← List.countP_eq_length_filter]
        clear ih
        induction rows with
        | nil => rfl
        | cons p rows ih =>
            rw [List.countP_cons, List.countP_cons, List.countP_cons, ih, containsAny_append,
              containsAny_cons, containsAny_nil, Bool.or_false]
            cases containsAny before p <;> cases anchorHits word p <;> simp <;> omega
      rw [inTurn, List.length_append, whole, ← ih, more]
      omega

/-- Each row that contains a word comes once. -/
theorem length_inTurn_nil (words : List Text) :
    (inTurn rows [] words).length = rows.countP (containsAny words) := by
  have none : rows.countP (containsAny []) = 0 := List.countP_eq_zero.mpr fun p _ => by simp
  have listed : (inTurn rows [] words).length + _ = _ := length_inTurn words
  rwa [none, Nat.add_zero, List.nil_append] at listed

/-- The rows of two words that follow each other are merged. -/
theorem addedBy_append (before : List Text) (a b : Text) :
    addedBy rows before a ++ addedBy rows (before ++ [a]) b =
      merge (addedBy rows before a) (addedBy rows before b) := by
  rw [merge]
  congr 1
  change rows.filter _ = (rows.filter _).filter _
  rw [List.filter_filter]
  refine List.filter_congr fun p mem => ?_
  have here : p ∈ addedBy rows before a ↔ anchorHits a p = true ∧ containsAny before p = false := by
    rw [addedBy, List.mem_filter, Bool.and_eq_true, Bool.not_eq_true']
    exact and_iff_right mem
  rw [containsAny_append, containsAny_cons, containsAny_nil, Bool.or_false]
  simp only [here]
  cases containsAny before p <;> cases anchorHits a p <;> cases anchorHits b p <;> rfl

/-! ## The search -/

/-- What is left of the search, with `before` looked up. -/
theorem anchoredProducts_from (unique : ∀ p ∈ rows, ∀ q ∈ rows, p.id = q.id → p = q)
    (nodup : rows.Nodup) (few : ∀ word ∈ words, rows.countP (anchorHits word) < 400)
    (known : ∀ p, p ∈ found ↔ p ∈ rows ∧ containsAny before p = true) (distinct : found.Nodup)
    (more : rows.countP (containsAny before) < 400) :
    anchoredProducts rows (words.take (3 - before.length)) found =
      found ++ inTurn rows before (lookedUp rows before words) := by
  induction words generalizing before found with
  | nil => simp [anchoredProducts, lookedUp, inTurn]
  | cons word words ih =>
      rcases Nat.lt_or_ge before.length 3 with short | full
      · have left : 3 - before.length = (3 - (before ++ [word]).length) + 1 := by
          rw [List.length_append, List.length_singleton]
          omega
        have all : (rows.filter (anchorHits word)).take 400 = rows.filter (anchorHits word) := by
          refine List.take_of_length_le ?_
          rw [← List.countP_eq_length_filter]
          exact (few word List.mem_cons_self).le
        have added : (rows.filter (anchorHits word)).filter (· ∉ found) =
            addedBy rows before word := by
          rw [addedBy, List.filter_filter]
          refine List.filter_congr fun p mem => ?_
          simp only [known, mem, true_and]
          cases containsAny before p <;> cases anchorHits word p <;> rfl
        have recorded : recordFound found ((rows.filter (anchorHits word)).take 400) =
            found ++ addedBy rows before word := by
          rw [all, recordFound_eq unique (fun p mem => ((known p).mp mem).1)
            (fun p mem => List.mem_of_mem_filter mem) (nodup.filter _), added]
        have known' : ∀ p, p ∈ found ++ addedBy rows before word ↔
            p ∈ rows ∧ containsAny (before ++ [word]) p = true := by
          intro p
          rw [List.mem_append, known, addedBy, List.mem_filter, containsAny_append,
            containsAny_cons, containsAny_nil, Bool.or_false, ← and_or_left]
          cases containsAny before p <;> cases anchorHits word p <;> simp
        have distinct' : (found ++ addedBy rows before word).Nodup := by
          refine List.nodup_append.mpr ⟨distinct, nodup.filter _, fun p isFound q isAdded => ?_⟩
          rintro rfl
          have fresh := (List.mem_filter.mp isAdded).2
          rw [((known p).mp isFound).2] at fresh
          simp at fresh
        have count : (found ++ addedBy rows before word).length =
            rows.countP (containsAny (before ++ [word])) := by
          rw [List.countP_eq_length_filter]
          refine ((List.perm_ext_iff_of_nodup distinct' (nodup.filter _)).mpr fun p => ?_).length_eq
          rw [known', List.mem_filter]
        have looksOn : LooksOn rows before := ⟨short, more⟩
        rw [left, List.take_succ_cons, lookedUp, if_pos looksOn, inTurn, ← List.append_assoc]
        change (if 400 ≤ (recordFound found ((rows.filter (anchorHits word)).take 400)).length then
          recordFound found ((rows.filter (anchorHits word)).take 400)
          else anchoredProducts rows (words.take (3 - (before ++ [word]).length))
            (recordFound found ((rows.filter (anchorHits word)).take 400))) = _
        rw [recorded, count]
        split
        · rename_i enough
          have stops : ¬ LooksOn rows (before ++ [word]) := fun on => absurd on.2 (not_lt.mpr enough)
          rw [lookedUp_of_not stops, inTurn, List.append_nil]
        · rename_i less
          exact ih (fun word mem => few word (List.mem_cons_of_mem _ mem)) known' distinct'
            (not_le.mp less)
      · have stops : ¬ LooksOn rows before := fun on => absurd on.1 (not_lt.mpr full)
        rw [lookedUp_of_not stops, Nat.sub_eq_zero_of_le full, List.take_zero, inTurn,
          List.append_nil, anchoredProducts]

/-- What the search finds. -/
theorem anchoredProducts_eq (unique : ∀ p ∈ rows, ∀ q ∈ rows, p.id = q.id → p = q)
    (nodup : rows.Nodup) (few : ∀ word ∈ words, rows.countP (anchorHits word) < 400) :
    anchoredProducts rows (words.take 3) [] = inTurn rows [] (lookedUp rows [] words) := by
  have search : anchoredProducts rows _ [] = _ :=
    anchoredProducts_from unique nodup few (fun p => by simp) List.nodup_nil looksOn_nil.2
  simpa using search

end MatchingEngine

end FazerBridge
