import Mathlib.Data.List.Sort
import Mathlib.Order.Defs.LinearOrder

/-!
# Ranking a list by a score

`rank score l` lists `l` best first and keeps the order of equal scores, which
is what a stable sort on a descending key does.

* `IsTop score l a`: `a` is the first element of `l` that no other one beats.
  `head?_rank_iff` says the head of the ranking is exactly that element.
* `Beats score l a b`: `a` comes before `b` in the ranking.  Where no element is repeated,
  `isTop_iff_beats` and `hasRival_iff_exists` speak of elements instead of positions.
* `HasRival score l a t`: another position of `l` than the top one `a` scores at
  least `t`.  `second_rank_iff` says the runner-up of the ranking decides it.
* `level score n l v`: the elements of score `v` that the first `n` places of the
  ranking have room for.  `take_rank_eq_iff` says the levels decide those places, and
  `levels_eq` compares them best score first.
-/

namespace Ranking

variable {α β : Type*} [LinearOrder β] {score : α → β}

/-- `l`, best first; equal scores keep their order. -/
def rank (score : α → β) (l : List α) : List α :=
  l.insertionSort fun a b => score b ≤ score a

/-- `a` is the first element of `l` with the largest score. -/
def IsTop (score : α → β) (l : List α) (a : α) : Prop :=
  ∃ before after, l = before ++ a :: after ∧
    (∀ x ∈ before, score x < score a) ∧ ∀ x ∈ after, score x ≤ score a

/-- `a` scores more than `b`, or the same and stands before it in `l`. -/
def Beats (score : α → β) (l : List α) (a b : α) : Prop :=
  score b < score a ∨ score b = score a ∧ [a, b].Sublist l

instance [DecidableEq α] (l : List α) (a b : α) : Decidable (Beats score l a b) :=
  inferInstanceAs (Decidable (_ ∨ _))

/-- `a` tops `l` and some other position of `l` scores at least `t`. -/
def HasRival (score : α → β) (l : List α) (a : α) (t : β) : Prop :=
  ∃ before after, l = before ++ a :: after ∧
    (∀ x ∈ before, score x < score a) ∧ (∀ x ∈ after, score x ≤ score a) ∧
    ∃ b ∈ before ++ after, t ≤ score b

theorem rank_perm (score : α → β) (l : List α) : (rank score l).Perm l :=
  List.perm_insertionSort _ l

@[simp] theorem mem_rank {l : List α} {a : α} : a ∈ rank score l ↔ a ∈ l :=
  (rank_perm score l).mem_iff

@[simp] theorem rank_nil : rank score [] = [] := rfl

/-- The ranking never ascends. -/
theorem rank_pairwise (score : α → β) (l : List α) :
    (rank score l).Pairwise fun a b => score b ≤ score a := by
  have : Std.Total fun a b : α => score b ≤ score a := ⟨fun a b => le_total (score b) (score a)⟩
  have : IsTrans α fun a b => score b ≤ score a := ⟨fun _ _ _ hab hbc => le_trans hbc hab⟩
  exact List.pairwise_insertionSort _ l

theorem IsTop.mem {l : List α} {a : α} (top : IsTop score l a) : a ∈ l := by
  obtain ⟨before, after, rfl, -, -⟩ := top
  simp

theorem IsTop.le {l : List α} {a : α} (top : IsTop score l a) {b : α} (mem : b ∈ l) :
    score b ≤ score a := by
  obtain ⟨before, after, rfl, earlier, later⟩ := top
  rcases List.mem_append.mp mem with hb | hb
  · exact (earlier b hb).le
  · rcases List.mem_cons.mp hb with rfl | hb
    · exact le_rfl
    · exact later b hb

/-- Prepending an element that the old top beats keeps the top. -/
theorem IsTop.cons_of_lt {l : List α} {a x : α} (top : IsTop score l a)
    (beaten : score x < score a) : IsTop score (x :: l) a := by
  obtain ⟨before, after, rfl, earlier, later⟩ := top
  refine ⟨x :: before, after, rfl, ?_, later⟩
  intro y hy
  rcases List.mem_cons.mp hy with rfl | hy
  · exact beaten
  · exact earlier y hy

/-- Prepending an element that beats or ties everything makes it the top. -/
theorem IsTop.cons_self {l : List α} {x : α} (best : ∀ y ∈ l, score y ≤ score x) :
    IsTop score (x :: l) x :=
  ⟨[], l, rfl, by simp, best⟩

/-- The top is unique. -/
theorem IsTop.unique {l : List α} {a b : α} (ha : IsTop score l a) (hb : IsTop score l b) :
    a = b := by
  induction l with
  | nil => simpa using ha.mem
  | cons x l ih =>
      obtain ⟨before, after, eq, earlier, later⟩ := ha
      obtain ⟨before', after', eq', earlier', later'⟩ := hb
      rcases before with _ | ⟨y, before⟩ <;> rcases before' with _ | ⟨y', before'⟩
      · simp only [List.nil_append, List.cons.injEq] at eq eq'
        exact eq.1.symm.trans eq'.1
      · simp only [List.nil_append, List.cons_append, List.cons.injEq] at eq eq'
        obtain ⟨rfl, rfl⟩ := eq
        obtain ⟨rfl, rfl⟩ := eq'
        exact absurd (later b (by simp)) (not_le.mpr (earlier' _ (by simp)))
      · simp only [List.nil_append, List.cons_append, List.cons.injEq] at eq eq'
        obtain ⟨rfl, rfl⟩ := eq'
        obtain ⟨rfl, rfl⟩ := eq
        exact absurd (later' a (by simp)) (not_le.mpr (earlier _ (by simp)))
      · simp only [List.cons_append, List.cons.injEq] at eq eq'
        exact ih ⟨before, after, eq.2, fun z hz => earlier z (by simp [hz]), later⟩
          ⟨before', after', eq'.2, fun z hz => earlier' z (by simp [hz]), later'⟩

/-- In a list without repetitions the top is what beats all the others. -/
theorem isTop_iff_beats {l : List α} {a : α} (nodup : l.Nodup) :
    IsTop score l a ↔ a ∈ l ∧ ∀ b ∈ l, b ≠ a → Beats score l a b := by
  constructor
  · intro found
    obtain ⟨before, after, rfl, earlier, later⟩ := found
    refine ⟨by simp, fun b mem other => ?_⟩
    rcases List.mem_append.mp mem with front | back
    · exact Or.inl (earlier b front)
    · have behind : b ∈ after := (List.mem_cons.mp back).resolve_left other
      refine (later b behind).lt_or_eq.imp_right fun same => ⟨same, ?_⟩
      exact ((List.singleton_sublist.mpr behind).cons_cons a).trans (List.sublist_append_right _ _)
  · intro found
    obtain ⟨mem, beats⟩ := found
    obtain ⟨before, after, rfl⟩ := List.append_of_mem mem
    obtain ⟨-, nodupBack, disjoint⟩ := List.nodup_append.mp nodup
    have other : ∀ b ∈ before, b ≠ a := fun b front => disjoint b front a (by simp)
    refine ⟨before, after, rfl, fun b front => ?_, fun b back => ?_⟩
    · refine (beats b (by simp [front]) (other b front)).resolve_right fun tie => ?_
      -- `a` is not in front of itself, so `b` would have to stand behind it
      obtain ⟨left, right, split, inFront, behind⟩ := List.sublist_append_iff.mp tie.2
      cases left with
      | nil =>
          rw [List.nil_append] at split
          subst split
          exact disjoint b front b (behind.subset (by simp)) rfl
      | cons c left =>
          obtain ⟨rfl, -⟩ := List.cons.inj split
          exact other a (inFront.subset (by simp)) rfl
    · have ne : b ≠ a := fun same => (List.nodup_cons.mp nodupBack).1 (same ▸ back)
      rcases beats b (by simp [back]) ne with below | ⟨same, -⟩
      · exact below.le
      · exact same.le

/-- In a list without repetitions a rival is another element. -/
theorem hasRival_iff_exists {l : List α} {a : α} {t : β} (nodup : l.Nodup) :
    HasRival score l a t ↔ IsTop score l a ∧ ∃ b ∈ l, b ≠ a ∧ t ≤ score b := by
  constructor
  · intro found
    obtain ⟨before, after, rfl, earlier, later, b, mem, close⟩ := found
    refine ⟨⟨before, after, rfl, earlier, later⟩, b, ?_, fun same => ?_, close⟩
    · rcases List.mem_append.mp mem with front | back
      · simp [front]
      · simp [back]
    · exact (List.nodup_cons.mp (List.nodup_middle.mp nodup)).1 (same ▸ mem)
  · intro found
    obtain ⟨⟨before, after, rfl, earlier, later⟩, b, mem, other, close⟩ := found
    exact ⟨before, after, rfl, earlier, later, b, by simpa [other] using mem, close⟩

/-- Dropping other elements changes nothing between two that stay. -/
theorem beats_filter {l : List α} {f : α → Bool} {a b : α} (left : f a = true)
    (right : f b = true) : Beats score (l.filter f) a b ↔ Beats score l a b := by
  refine or_congr_right (and_congr_right fun _ => ⟨fun order => ?_, fun order => ?_⟩)
  · exact order.trans List.filter_sublist
  · have kept := order.filter f
    rwa [List.filter_cons_of_pos left, List.filter_cons_of_pos right, List.filter_nil] at kept

/-- The top of a mapped list is the image of the top. -/
theorem isTop_map {γ : Type*} {f : γ → α} {l : List γ} {b : α} :
    IsTop score (l.map f) b ↔ ∃ a, f a = b ∧ IsTop (fun x => score (f x)) l a := by
  constructor
  · intro found
    obtain ⟨before, after, split, earlier, later⟩ := found
    obtain ⟨before', rest, rfl, rfl, tail⟩ := List.map_eq_append_iff.mp split
    obtain ⟨a, after', rfl, rfl, rfl⟩ := List.map_eq_cons_iff.mp tail
    exact ⟨a, rfl, before', after', rfl, fun x hx => earlier _ (List.mem_map_of_mem hx),
      fun x hx => later _ (List.mem_map_of_mem hx)⟩
  · intro found
    obtain ⟨a, rfl, before, after, rfl, earlier, later⟩ := found
    refine ⟨before.map f, after.map f, by simp, ?_, ?_⟩
    · intro y hy
      obtain ⟨x, hx, rfl⟩ := List.mem_map.mp hy
      exact earlier x hx
    · intro y hy
      obtain ⟨x, hx, rfl⟩ := List.mem_map.mp hy
      exact later x hx

/-- The head of the ranking is a top. -/
theorem isTop_of_head?_rank {l : List α} {a : α} (head : (rank score l).head? = some a) :
    IsTop score l a := by
  induction l generalizing a with
  | nil => simp at head
  | cons x l ih =>
      change (List.orderedInsert _ x (rank score l)).head? = some a at head
      cases hl : rank score l with
      | nil =>
          rw [hl] at head
          have nothing : l = [] := by
            have := (rank_perm score l).length_eq
            rw [hl] at this
            exact List.length_eq_zero_iff.mp this.symm
          subst nothing
          simp only [List.orderedInsert_nil, List.head?_cons, Option.some.injEq] at head
          subst head
          exact IsTop.cons_self (by simp)
      | cons b rest =>
          have top := ih (a := b) (by rw [hl]; rfl)
          rw [hl, List.orderedInsert_cons] at head
          by_cases hx : score b ≤ score x
          · simp only [hx, if_true, List.head?_cons, Option.some.injEq] at head
            subst head
            exact IsTop.cons_self fun y hy => (top.le hy).trans hx
          · simp only [hx, if_false, List.head?_cons, Option.some.injEq] at head
            subst head
            exact top.cons_of_lt (not_le.mp hx)

theorem head?_rank_iff {l : List α} {a : α} :
    (rank score l).head? = some a ↔ IsTop score l a := by
  refine ⟨isTop_of_head?_rank, fun top => ?_⟩
  cases hl : rank score l with
  | nil =>
      have : a ∈ rank score l := mem_rank.mpr top.mem
      rw [hl] at this
      simp at this
  | cons b rest =>
      have htop : IsTop score l b := isTop_of_head?_rank (by rw [hl]; rfl)
      rw [List.head?_cons, htop.unique top]

/-- The rest of the ranking is the rest of the list. -/
theorem rank_tail_perm {before after : List α} {a : α} {rest : List α}
    (ranked : rank score (before ++ a :: after) = a :: rest) : rest.Perm (before ++ after) := by
  have perm := rank_perm score (before ++ a :: after)
  rw [ranked] at perm
  exact (List.perm_cons a).mp (perm.trans List.perm_middle)

/-- A runner-up with score `t` or more exists exactly when the second place of
the ranking has one. -/
theorem second_rank_iff {l : List α} {a : α} {t : β} (top : IsTop score l a) :
    HasRival score l a t ↔ ∃ c, (rank score l)[1]? = some c ∧ t ≤ score c := by
  have head := head?_rank_iff.mpr top
  cases ranked : rank score l with
  | nil => rw [ranked] at head; simp at head
  | cons a' rest =>
      rw [ranked, List.head?_cons, Option.some.injEq] at head
      subst head
      have descending := rank_pairwise score l
      rw [ranked, List.pairwise_cons] at descending
      constructor
      · intro found
        obtain ⟨before, after, rfl, -, -, b, hb, ht⟩ := found
        have mem : b ∈ rest := (rank_tail_perm ranked).mem_iff.mpr hb
        cases rest with
        | nil => simp at mem
        | cons c rest =>
            refine ⟨c, rfl, ht.trans ?_⟩
            rcases List.mem_cons.mp mem with rfl | mem
            · exact le_rfl
            · exact (List.pairwise_cons.mp descending.2).1 b mem
      · intro found
        obtain ⟨c, second, ht⟩ := found
        obtain ⟨before, after, rfl, earlier, later⟩ := top
        have mem : c ∈ rest := List.mem_of_getElem? (i := 0) (by simpa using second)
        exact ⟨before, after, rfl, earlier, later, c,
          (rank_tail_perm ranked).mem_iff.mp mem, ht⟩

/-- The head of a ranking cut to `n` places. -/
theorem head?_take_rank {l : List α} {n : ℕ} (pos : 0 < n) :
    ((rank score l).take n).head? = (rank score l).head? := by
  rw [List.head?_take, if_neg (by omega)]

/-- What the first places leave out scores no more than what they keep. -/
theorem score_le_of_not_mem_take {n : ℕ} {l : List α} {a b : α} (mem : a ∈ l)
    (left : a ∉ (rank score l).take n) (kept : b ∈ (rank score l).take n) :
    score a ≤ score b := by
  have split := List.take_append_drop n (rank score l)
  have descending := rank_pairwise score l
  rw [← split, List.pairwise_append] at descending
  have listed : a ∈ (rank score l).take n ++ (rank score l).drop n :=
    split.symm ▸ mem_rank.mpr mem
  exact descending.2.2 b kept a ((List.mem_append.mp listed).resolve_left left)

/-! ## Levels -/

/-- The elements of score `v`, as far as those with a better score leave room. -/
def level (score : α → β) (n : ℕ) (l : List α) (v : β) : List α :=
  (l.filter fun a => score a = v).take (n - l.countP fun a => v < score a)

/-- A ranking keeps the order of equal scores. -/
theorem filter_rank (l : List α) (v : β) :
    (rank score l).filter (fun a => score a = v) = l.filter fun a => score a = v := by
  induction l with
  | nil => rfl
  | cons x l ih =>
      have inserted : ∀ s : List α,
          (s.orderedInsert (fun a b => score b ≤ score a) x).filter (fun a => score a = v) =
            (x :: s).filter fun a => score a = v := by
        intro s
        induction s with
        | nil => rfl
        | cons b s step =>
            rw [List.orderedInsert_cons]
            split
            · rfl
            · rename_i above
              rw [List.filter_cons, step]
              by_cases here : score x = v
              · have other : ¬ score b = v := fun same => above (by rw [same, here])
                simp [here, other]
              · by_cases there : score b = v <;> simp [here, there]
      refine (inserted (rank score l)).trans ?_
      rw [List.filter_cons, List.filter_cons, ih]

/-- The first places of a descending list, one score at a time. -/
theorem filter_take {l : List α} (descending : l.Pairwise fun a b => score b ≤ score a) (n : ℕ)
    (v : β) : (l.take n).filter (fun a => score a = v) = level score n l v := by
  unfold level
  induction l generalizing n with
  | nil => simp
  | cons x l ih =>
      obtain ⟨first, descending⟩ := List.pairwise_cons.mp descending
      cases n with
      | zero => simp
      | succ n =>
          rw [List.take_succ_cons, List.filter_cons, List.filter_cons, List.countP_cons, ih descending]
          rcases lt_trichotomy v (score x) with above | here | below
          · simp only [above.ne', above, decide_true, decide_false, Bool.false_eq_true, if_true,
              if_false, Nat.add_sub_add_right]
          · subst here
            have none : l.countP (fun a => score x < score a) = 0 :=
              List.countP_eq_zero.mpr fun a mem => by simpa using first a mem
            simp only [lt_irrefl, decide_true, decide_false, Bool.false_eq_true, if_true,
              if_false, Nat.add_zero]
            rw [none, Nat.sub_zero, Nat.sub_zero, List.take_succ_cons]
          · have none : l.filter (fun a => score a = v) = [] :=
              List.filter_eq_nil_iff.mpr fun a mem same =>
                absurd below (not_lt.mpr ((of_decide_eq_true same) ▸ first a mem))
            simp only [below.ne, decide_false, Bool.false_eq_true, if_false, none, List.take_nil]

/-- A descending list is known by its scores, one at a time. -/
theorem eq_of_filter_eq {l l' : List α} (descending : l.Pairwise fun a b => score b ≤ score a)
    (descending' : l'.Pairwise fun a b => score b ≤ score a)
    (same : ∀ v, l.filter (fun a => score a = v) = l'.filter fun a => score a = v) : l = l' := by
  induction l generalizing l' with
  | nil =>
      cases l' with
      | nil => rfl
      | cons y l' =>
          have here := same (score y)
          rw [List.filter_nil, List.filter_cons_of_pos (by simp)] at here
          cases here
  | cons x l ih =>
      have front := same (score x)
      rw [List.filter_cons_of_pos (by simp)] at front
      cases l' with
      | nil => cases front
      | cons y l' =>
          obtain ⟨first, rest⟩ := List.pairwise_cons.mp descending
          obtain ⟨first', rest'⟩ := List.pairwise_cons.mp descending'
          have atMost : score x ≤ score y := by
            have mem : x ∈ (y :: l').filter fun a => score a = score x :=
              front ▸ List.mem_cons_self
            rcases List.mem_cons.mp (List.mem_of_mem_filter mem) with rfl | mem
            · exact le_rfl
            · exact first' x mem
          have atLeast : score y ≤ score x := by
            have mem : y ∈ (x :: l).filter fun a => score a = score y := by
              rw [same (score y), List.filter_cons_of_pos (by simp)]
              exact List.mem_cons_self
            rcases List.mem_cons.mp (List.mem_of_mem_filter mem) with rfl | mem
            · exact le_rfl
            · exact first y mem
          have equal := le_antisymm atLeast atMost
          rw [List.filter_cons_of_pos (by simpa using equal), List.cons.injEq] at front
          obtain ⟨rfl, -⟩ := front
          refine congrArg (x :: ·) (ih rest rest' fun v => ?_)
          have here := same v
          rw [List.filter_cons, List.filter_cons] at here
          split at here
          · exact List.tail_eq_of_cons_eq here
          · exact here

theorem level_rank (n : ℕ) (l : List α) (v : β) :
    level score n (rank score l) v = level score n l v := by
  unfold level
  rw [filter_rank, (rank_perm score l).countP_eq]

/-- Two rankings have the same first places when the lists have the same levels. -/
theorem take_rank_eq_iff {n : ℕ} {l l' : List α} :
    (rank score l).take n = (rank score l').take n ↔
      ∀ v, level score n l v = level score n l' v := by
  constructor
  · intro same v
    rw [← level_rank n l, ← level_rank n l', ← filter_take (rank_pairwise score l),
      ← filter_take (rank_pairwise score l'), same]
  · intro levels
    refine eq_of_filter_eq ((rank_pairwise score l).sublist (List.take_sublist _ _))
      ((rank_pairwise score l').sublist (List.take_sublist _ _)) fun v => ?_
    rw [filter_take (rank_pairwise score l), filter_take (rank_pairwise score l'), level_rank,
      level_rank, levels]

/-- How many of the first places of a descending list the better scores take. -/
theorem countP_take {l : List α} (descending : l.Pairwise fun a b => score b ≤ score a) (n : ℕ)
    (v : β) : (l.take n).countP (fun a => v < score a) = min n (l.countP fun a => v < score a) := by
  induction l generalizing n with
  | nil => simp
  | cons x l ih =>
      obtain ⟨first, descending⟩ := List.pairwise_cons.mp descending
      cases n with
      | zero => simp
      | succ n =>
          rw [List.take_succ_cons, List.countP_cons, List.countP_cons, ih descending]
          by_cases better : v < score x
          · rw [if_pos (decide_eq_true better)]
            omega
          · have none : l.countP (fun a => v < score a) = 0 :=
              List.countP_eq_zero.mpr fun a mem => by
                simpa using (first a mem).trans (not_lt.mp better)
            rw [none, if_neg (by simpa using not_lt.mp better)]
            omega

/-- Lists with the same levels above `v` leave the same room at `v`. -/
theorem room_eq {n : ℕ} {l l' : List α} {v : β}
    (above : ∀ w, v < w → level score n l w = level score n l' w) :
    n - l.countP (fun a => v < score a) = n - l'.countP fun a => v < score a := by
  have better : ∀ l : List α, ∀ w,
      (((rank score l).take n).filter fun a => v < score a).filter (fun a => score a = w) =
        if v < w then level score n l w else [] := by
    intro l w
    rw [← level_rank, ← filter_take (rank_pairwise score l), List.filter_filter]
    split
    · rename_i above
      refine List.filter_congr fun a _ => ?_
      rw [Bool.and_eq_left_iff_imp, decide_eq_true_eq, decide_eq_true_eq]
      exact fun same => same ▸ above
    · rename_i below
      refine List.filter_eq_nil_iff.mpr fun a _ both => ?_
      rw [Bool.and_eq_true, decide_eq_true_eq, decide_eq_true_eq] at both
      exact below (both.1 ▸ both.2)
  have descending : ∀ l : List α, (((rank score l).take n).filter fun a => v < score a).Pairwise
      fun a b => score b ≤ score a := fun l =>
    ((rank_pairwise score l).sublist (List.take_sublist n _)).sublist List.filter_sublist
  have same := eq_of_filter_eq (descending l) (descending l') fun w => by
    rw [better, better]
    split
    · exact above w ‹_›
    · rfl
  have taken := congrArg List.length same
  rw [← List.countP_eq_length_filter, ← List.countP_eq_length_filter,
    countP_take (rank_pairwise score l), countP_take (rank_pairwise score l'),
    (rank_perm score l).countP_eq, (rank_perm score l').countP_eq] at taken
  omega

/-- The levels are the same if each is where all above it are. -/
theorem levels_eq {n : ℕ} {l l' : List α}
    (step : ∀ v, (∀ w, v < w → level score n l w = level score n l' w) →
      level score n l v = level score n l' v) (v : β) :
    level score n l v = level score n l' v := by
  -- the induction is on the number of elements with a better score
  generalize better : (l ++ l').countP (fun a => v < score a) = k
  induction k using Nat.strong_induction_on generalizing v with
  | _ k ih =>
      refine step v fun w above => ?_
      by_cases present : ∃ a ∈ l ++ l', score a = w
      · obtain ⟨a, mem, rfl⟩ := present
        refine ih _ ?_ (score a) rfl
        rw [← better]
        obtain ⟨before, after, split⟩ := List.append_of_mem mem
        have fewer : ∀ s : List α, s.countP (fun b => score a < score b) ≤
            s.countP fun b => v < score b := fun s =>
          List.countP_mono_left fun b _ better =>
            decide_eq_true (above.trans (of_decide_eq_true better))
        have front := fewer before
        have back := fewer after
        rw [split, List.countP_append, List.countP_append, List.countP_cons, List.countP_cons,
          if_pos (decide_eq_true above), if_neg (by simp)]
        omega
      · have absent : ∀ s : List α, (∀ a ∈ s, a ∈ l ++ l') → level score n s w = [] := by
          intro s part
          have none : s.filter (fun a => score a = w) = [] :=
            List.filter_eq_nil_iff.mpr fun a mem same =>
              present ⟨a, part a mem, of_decide_eq_true same⟩
          rw [level, none, List.take_nil]
        rw [absent l fun a => List.mem_append_left l', absent l' fun a => List.mem_append_right l]

end Ranking
