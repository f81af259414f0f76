import FazerBridge.Text

/-!
# Words

`split` and `join` between a text and its words.  The extractors search a padded
spelling in a padded title; on the words this is an infix (`isIn_pad_join`).
-/

namespace FazerBridge

namespace Text

/-- Not empty, and without a blank. -/
def IsWord (w : Text) : Prop := w ≠ [] ∧ ' ' ∉ w

instance (w : Text) : Decidable (IsWord w) := inferInstanceAs (Decidable (_ ∧ _))

variable {v w x y : Text} {vs ws : List Text}

/-! ## Splitting -/

theorem splitFrom_append_blank (acc a b : Text) :
    splitFrom acc (a ++ ' ' :: b) = splitFrom acc a ++ splitFrom [] b := by
  induction a generalizing acc with
  | nil => by_cases empty : acc.isEmpty <;> simp [splitFrom, empty]
  | cons c cs ih =>
      by_cases blank : c = ' '
      · by_cases empty : acc.isEmpty <;> simp [splitFrom, blank, empty, ih]
      · simp [splitFrom, blank, ih]

/-- A blank parts the words before it from those after it. -/
theorem split_append_blank (a b : Text) : split (a ++ ' ' :: b) = split a ++ split b :=
  splitFrom_append_blank [] a b

@[simp] theorem split_nil : split [] = [] := rfl

@[simp] theorem split_blank (b : Text) : split (' ' :: b) = split b := rfl

theorem splitFrom_of_not_mem (whole : ' ' ∉ w) (acc : Text) :
    splitFrom acc w = splitFrom (w.reverse ++ acc) [] := by
  induction w generalizing acc with
  | nil => rfl
  | cons c cs ih =>
      obtain ⟨first, rest⟩ := not_or.mp (List.mem_cons.not.mp whole)
      have step : splitFrom acc (c :: cs) = splitFrom (c :: acc) cs := by
        rw [splitFrom, if_neg (Ne.symm first)]
      rw [step, ih rest, List.reverse_cons, List.append_assoc, List.singleton_append]

/-- A word is its only word. -/
theorem split_word (word : IsWord w) : split w = [w] := by
  rw [split, splitFrom_of_not_mem word.2]
  simp [splitFrom, word.1]

/-- Words that are joined come apart again. -/
theorem split_join (words : ∀ w ∈ ws, IsWord w) : split (join ws) = ws := by
  induction ws with
  | nil => rfl
  | cons w ws ih =>
      have word := words w List.mem_cons_self
      cases ws with
      | nil => exact split_word word
      | cons v ws =>
          rw [join, split_append_blank, split_word word,
            ih fun w mem => words w (List.mem_cons_of_mem _ mem)]
          · rfl
          · simp

theorem isWord_of_mem_splitFrom {acc t : Text} (whole : ' ' ∉ acc) :
    ∀ w ∈ splitFrom acc t, IsWord w := by
  induction t generalizing acc with
  | nil =>
      intro w mem
      rw [splitFrom] at mem
      split at mem
      · cases mem
      · rename_i some_
        rw [List.mem_singleton.mp mem]
        exact ⟨by simpa using some_, by simpa using whole⟩
  | cons c cs ih =>
      intro w mem
      rw [splitFrom] at mem
      split at mem
      · split at mem
        · exact ih List.not_mem_nil w mem
        · rename_i some_
          rcases List.mem_cons.mp mem with rfl | mem
          · exact ⟨by simpa using some_, by simpa using whole⟩
          · exact ih List.not_mem_nil w mem
      · rename_i other
        exact ih (List.mem_cons.not.mpr (not_or.mpr ⟨Ne.symm other, whole⟩)) w mem

/-- What a text splits into are words. -/
theorem isWord_of_mem_split {t : Text} : ∀ w ∈ split t, IsWord w :=
  isWord_of_mem_splitFrom List.not_mem_nil

/-! ## Words in a row -/

/-- The words, each with a blank after it. -/
def spaced (ws : List Text) : Text := ws.flatMap (· ++ [' '])

theorem spaced_cons (w : Text) (ws : List Text) : spaced (w :: ws) = w ++ ' ' :: spaced ws := by
  simp [spaced]

/-- Padding joined words puts a blank around each. -/
theorem pad_join (some_ : ws ≠ []) : pad (join ws) = ' ' :: spaced ws := by
  induction ws with
  | nil => exact absurd rfl some_
  | cons w ws ih =>
      cases ws with
      | nil => simp [join, pad, spaced]
      | cons v ws =>
          have rest : join (v :: ws) ++ [' '] = spaced (v :: ws) :=
            List.cons.inj (ih (List.cons_ne_nil v ws)) |>.2
          rw [spaced_cons, ← rest, join]
          · simp [pad]
          · simp

/-- `in` of Python, of texts. -/
theorem isIn_iff : isIn v w = true ↔ v <:+: w := by
  simp only [isIn, List.any_eq_true, List.mem_tails, List.isPrefixOf_iff_prefix,
    List.infix_iff_prefix_suffix]
  exact ⟨fun ⟨t, suffix, prefix_⟩ => ⟨t, prefix_, suffix⟩,
    fun ⟨t, prefix_, suffix⟩ => ⟨t, suffix, prefix_⟩⟩

/-- The first words of two texts are read up to their blanks. -/
theorem prefix_word (whole : ' ' ∉ v) (whole' : ' ' ∉ w) :
    v ++ ' ' :: x <+: w ++ ' ' :: y ↔ v = w ∧ x <+: y := by
  induction v generalizing w with
  | nil =>
      cases w with
      | nil => simp
      | cons d w =>
          have other : ' ' ≠ d := fun same => whole' (same ▸ List.mem_cons_self)
          simp [other]
  | cons c v ih =>
      have other : c ≠ ' ' := fun same => whole (same ▸ List.mem_cons_self)
      cases w with
      | nil => simp [other]
      | cons d w =>
          rw [List.cons_append, List.cons_append, List.cons_prefix_cons,
            ih (fun mem => whole (List.mem_cons_of_mem _ mem))
              (fun mem => whole' (List.mem_cons_of_mem _ mem)), List.cons.injEq, and_assoc]

/-- A phrase starts a spaced text exactly if its words start the words of the text. -/
theorem prefix_spaced (words : ∀ v ∈ vs, IsWord v) (words' : ∀ w ∈ ws, IsWord w) :
    spaced vs <+: spaced ws ↔ vs <+: ws := by
  induction vs generalizing ws with
  | nil => simp [spaced]
  | cons v vs ih =>
      cases ws with
      | nil => simp [spaced]
      | cons w ws =>
          rw [spaced_cons, spaced_cons, prefix_word (words v List.mem_cons_self).2
            (words' w List.mem_cons_self).2, ih (fun v mem => words v (List.mem_cons_of_mem _ mem))
              (fun w mem => words' w (List.mem_cons_of_mem _ mem)), List.cons_prefix_cons]

/-- A text that starts with a blank does not start within a word. -/
theorem blank_infix_word (whole : ' ' ∉ w) :
    ' ' :: x <:+: w ++ y ↔ ' ' :: x <:+: y := by
  induction w with
  | nil => rfl
  | cons c w ih =>
      have other : ' ' ≠ c := fun same => whole (same ▸ List.mem_cons_self)
      rw [List.cons_append, List.infix_cons_iff, List.cons_prefix_cons,
        ih fun mem => whole (List.mem_cons_of_mem _ mem)]
      simp [other]

/-- A padded phrase is in a padded text exactly if its words stand together in it. -/
theorem infix_spaced (words : ∀ v ∈ vs, IsWord v) (words' : ∀ w ∈ ws, IsWord w) :
    ' ' :: spaced vs <:+: ' ' :: spaced ws ↔ vs <:+: ws := by
  induction ws with
  | nil =>
      rw [List.infix_nil, List.infix_cons_iff, List.cons_prefix_cons]
      cases vs <;> simp [spaced]
  | cons w ws ih =>
      have rest : ∀ w ∈ ws, IsWord w := fun w mem => words' w (List.mem_cons_of_mem _ mem)
      rw [List.infix_cons_iff, List.cons_prefix_cons, prefix_spaced words words', spaced_cons,
        blank_infix_word (words' w List.mem_cons_self).2, ih rest, List.infix_cons_iff]
      simp

/-- A padded spelling is in a padded text if its words are words in a row of it. -/
theorem isIn_pad_join (some_ : vs ≠ []) (words : ∀ v ∈ vs, IsWord v)
    (words' : ∀ w ∈ ws, IsWord w) : isIn (pad (join vs)) (pad (join ws)) = true ↔ vs <:+: ws := by
  rw [isIn_iff, pad_join some_]
  cases ws with
  | nil =>
      refine ⟨fun within => ?_, fun within => absurd (List.infix_nil.mp within) some_⟩
      obtain ⟨v, vs, rfl⟩ := List.exists_cons_of_ne_nil some_
      obtain ⟨nonempty, whole⟩ := words v List.mem_cons_self
      obtain ⟨c, rest, rfl⟩ := List.exists_cons_of_ne_nil nonempty
      have among : c ∈ [' ', ' '] := within.subset (by simp [spaced_cons])
      have blank : ' ' = c := by simpa [eq_comm] using among
      exact absurd (blank ▸ List.mem_cons_self) whole
  | cons w ws => rw [pad_join (List.cons_ne_nil w ws), infix_spaced words words']

end Text

end FazerBridge
