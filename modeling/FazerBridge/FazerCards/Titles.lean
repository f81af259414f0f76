import FazerBridge.FazerCards
import FazerBridge.Text.Search

/-!
# Two offers of one category

`composeName` takes an offer into a title in three ways, by which of the two names
contains the other.  Two offers of a category get one title when both occur in the
category, or when one is the category with the other after it (`composeName_ne_iff`).
-/

namespace FazerBridge

open Text

namespace FazerCardsAdapter

/-- A name, trimmed and lower-cased. -/
def folded (u : Unicode) (name : Text) : Text := u.lower (strip u name)

/-- The title of an offer of a category that has a name, both of them folded. -/
def foldedTitle (category offer : Text) : Text :=
  if isIn category offer then offer
  else if isIn offer category then category
  else category ++ ' ' :: offer

/-- `offer` is the category with `other` after it, and `other` alone gets the category
put before it. -/
def Repeats (category offer other : Text) : Prop :=
  offer = category ++ ' ' :: other ∧ ¬ category <:+: other ∧ ¬ other <:+: category

/-- Not both offers occur in the category, and neither repeats it before the other. -/
def Distinguishes (category offer other : Text) : Prop :=
  ¬ (offer <:+: category ∧ other <:+: category) ∧ ¬ Repeats category offer other ∧
    ¬ Repeats category other offer

instance (category offer other : Text) : Decidable (Distinguishes category offer other) :=
  inferInstanceAs (Decidable (¬ (_ ∧ _) ∧ ¬ (_ ∧ _) ∧ ¬ (_ ∧ _)))

theorem lower_composeName {u : Unicode} (lawful : u.Lawful) {category : Option Text} {offer : Text}
    (stated : strip u (category.getD []) ≠ []) (named : strip u offer ≠ []) :
    u.lower (composeName u category (some offer)) =
      foldedTitle (folded u (category.getD [])) (folded u offer) := by
  unfold composeName foldedTitle folded
  simp only [Option.getD_some, List.isEmpty_iff, if_neg named, if_neg stated]
  split
  · rfl
  · split
    · rfl
    · exact lawful.lower_blank _ _

theorem lower_composeName_blank {u : Unicode} {category : Option Text} {offer : Text}
    (blank : strip u (category.getD []) = []) (named : strip u offer ≠ []) :
    u.lower (composeName u category (some offer)) = folded u offer := by
  unfold composeName folded
  simp only [Option.getD_some, List.isEmpty_iff, if_neg named, if_pos blank]

/-! ## The three ways -/

theorem foldedTitle_cases (category offer : Text) :
    (category <:+: offer ∧ foldedTitle category offer = offer) ∨
      (¬ category <:+: offer ∧ offer <:+: category ∧ foldedTitle category offer = category) ∨
      (¬ category <:+: offer ∧ ¬ offer <:+: category ∧
        foldedTitle category offer = category ++ ' ' :: offer) := by
  unfold foldedTitle
  by_cases containing : category <:+: offer
  · exact .inl ⟨containing, if_pos (isIn_iff.mpr containing)⟩
  · rw [if_neg (isIn_iff.not.mpr containing)]
    by_cases contained : offer <:+: category
    · exact .inr (.inl ⟨containing, contained, if_pos (isIn_iff.mpr contained)⟩)
    · exact .inr (.inr ⟨containing, contained, if_neg (isIn_iff.not.mpr contained)⟩)

theorem eq_of_contained {a b : Text} (within : a <:+: b) (within' : b <:+: a) : a = b :=
  within.eq_of_length (le_antisymm within.length_le within'.length_le)

/-- A text with more after it occurs in no part of the text. -/
theorem longer_not_within (category other : Text) : ¬ category ++ ' ' :: other <:+: category := by
  intro within
  have short := within.length_le
  rw [List.length_append, List.length_cons] at short
  omega

theorem category_within (category other : Text) : category <:+: category ++ ' ' :: other :=
  (List.prefix_append category _).isInfix

variable {category offer other : Text}

/-- The offer that contains the category keeps its name. -/
theorem foldedTitle_ne_of_containing (differ : offer ≠ other) (containing : category <:+: offer)
    (title : foldedTitle category offer = offer) :
    foldedTitle category offer ≠ foldedTitle category other ↔
      Distinguishes category offer other := by
  have unrepeated : ¬ Repeats category other offer := fun repeats => repeats.2.1 containing
  rcases foldedTitle_cases category other with
    ⟨containing', title'⟩ | ⟨alone, within, title'⟩ | ⟨alone, apart, title'⟩
  · rw [title, title']
    have unrepeated' : ¬ Repeats category offer other := fun repeats => repeats.2.1 containing'
    refine ⟨fun _ => ⟨fun both => differ ?_, unrepeated', unrepeated⟩, fun _ => differ⟩
    exact (eq_of_contained both.1 containing).trans (eq_of_contained containing' both.2)
  · rw [title, title']
    have unrepeated' : ¬ Repeats category offer other := fun repeats => repeats.2.2 within
    constructor
    · intro ne
      exact ⟨fun both => ne (eq_of_contained both.1 containing), unrepeated', unrepeated⟩
    · intro distinguishes same
      exact distinguishes.1 ⟨same ▸ List.infix_refl offer, within⟩
  · rw [title, title']
    constructor
    · intro ne
      exact ⟨fun both => apart both.2, fun repeats => ne repeats.1, unrepeated⟩
    · intro distinguishes same
      exact distinguishes.2.1 ⟨same, alone, apart⟩

theorem distinguishes_comm :
    Distinguishes category offer other ↔ Distinguishes category other offer := by
  unfold Distinguishes
  constructor
  · intro distinguishes
    exact ⟨fun both => distinguishes.1 both.symm, distinguishes.2.2, distinguishes.2.1⟩
  · intro distinguishes
    exact ⟨fun both => distinguishes.1 both.symm, distinguishes.2.2, distinguishes.2.1⟩

theorem foldedTitle_ne_iff (differ : offer ≠ other) :
    foldedTitle category offer ≠ foldedTitle category other ↔
      Distinguishes category offer other := by
  rcases foldedTitle_cases category offer with
    ⟨containing, title⟩ | ⟨alone, within, title⟩ | ⟨alone, apart, title⟩
  · exact foldedTitle_ne_of_containing differ containing title
  all_goals
    rcases foldedTitle_cases category other with
      ⟨containing', title'⟩ | ⟨alone', within', title'⟩ | ⟨alone', apart', title'⟩
    · rw [ne_comm, distinguishes_comm]
      exact foldedTitle_ne_of_containing differ.symm containing' title'
  · -- both occur in the category
    rw [title, title']
    exact ⟨fun ne => absurd rfl ne, fun distinguishes => absurd ⟨within, within'⟩ distinguishes.1⟩
  · rw [title, title']
    refine ⟨fun _ => ⟨fun both => apart' both.2, ?_, fun repeats => repeats.2.2 within⟩, ?_⟩
    · intro found
      obtain ⟨rfl, -⟩ := found
      exact longer_not_within category other within
    · intro _ same
      refine longer_not_within category other ?_
      rw [← same]
  · rw [title, title']
    refine ⟨fun _ => ⟨fun both => apart both.1, fun repeats => repeats.2.2 within', ?_⟩, ?_⟩
    · intro found
      obtain ⟨rfl, -⟩ := found
      exact longer_not_within category offer within'
    · intro _ same
      refine longer_not_within category offer ?_
      rw [same]
  · -- the category stands before both
    rw [title, title']
    refine ⟨fun _ => ⟨fun both => apart both.1, ?_, ?_⟩, fun _ same => differ ?_⟩
    · intro found
      obtain ⟨rfl, -⟩ := found
      exact alone (category_within category other)
    · intro found
      obtain ⟨rfl, -⟩ := found
      exact alone' (category_within category offer)
    · exact (List.cons.inj (List.append_cancel_left same)).2

/-- Two offers of a category that differ get two titles exactly if the category is blank
or distinguishes them. -/
theorem composeName_ne_iff (u : Unicode) (lawful : u.Lawful) {category : Option Text}
    {offer other : Text} (named : strip u offer ≠ []) (named' : strip u other ≠ [])
    (differ : folded u offer ≠ folded u other) :
    u.lower (composeName u category (some offer)) ≠ u.lower (composeName u category (some other)) ↔
      strip u (category.getD []) = [] ∨
        Distinguishes (folded u (category.getD [])) (folded u offer) (folded u other) := by
  by_cases blank : strip u (category.getD []) = []
  · rw [lower_composeName_blank blank named, lower_composeName_blank blank named']
    exact ⟨fun _ => .inl blank, fun _ => differ⟩
  · rw [lower_composeName lawful blank named, lower_composeName lawful blank named',
      foldedTitle_ne_iff differ]
    exact ⟨.inr, fun either => either.resolve_left blank⟩

/-! ## Months of a game pass -/

/-- Two durations that do not occur in the category. -/
theorem durations_told_apart :
    Unicode.ascii.lower (composeName .ascii (some "Xbox Game Pass".toList)
        (some "6 Months".toList)) ≠
      Unicode.ascii.lower (composeName .ascii (some "Xbox Game Pass".toList)
        (some "12 Months".toList)) ↔
    strip .ascii ((some "Xbox Game Pass".toList).getD []) = [] ∨
      Distinguishes (folded .ascii ((some "Xbox Game Pass".toList).getD []))
        (folded .ascii "6 Months".toList) (folded .ascii "12 Months".toList) :=
  composeName_ne_iff .ascii Unicode.ascii_lawful (by decide) (by decide) (by decide)

/-- A category that ends with one duration contains the other. -/
theorem two_in_twelve_months :
    strip .ascii "12 Months".toList ≠ [] ∧ strip .ascii "2 Months".toList ≠ [] ∧
    folded .ascii "12 Months".toList ≠ folded .ascii "2 Months".toList ∧
    composeName .ascii (some "Xbox Game Pass 12 Months".toList) (some "12 Months".toList) =
      composeName .ascii (some "Xbox Game Pass 12 Months".toList) (some "2 Months".toList) := by
  decide

end FazerCardsAdapter

end FazerBridge
