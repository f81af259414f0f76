import FazerBridge.Lib.Ranking
import Mathlib.Logic.Relation

/-!
# Neighbours that change places

Two orders of one descending list differ by exchanges of neighbours with equal scores
(`exchanges_of_perm`).

`merge l l'` is `l` and then what `l'` adds to it, and `Begins n l l'` says that `l` begins
`l'` as far as there are `n` places.  Two lists may be merged in either order exactly if one
begins the other (`take_merge_comm`), and the one that is added may be left out exactly if it
begins the other (`take_merge_left`).
-/

namespace Neighbours

/-! ## Exchanges -/

section Transposed

variable {α β : Type*} {score : α → β} {l l' : List α}

/-- Two neighbours of equal score change places. -/
inductive Transposed (score : α → β) : List α → List α → Prop
  | mk (x : List α) (a b : α) (y : List α) (equal : score a = score b) :
      Transposed score (x ++ a :: b :: y) (x ++ b :: a :: y)

theorem Transposed.perm (exchange : Transposed score l l') : l.Perm l' := by
  obtain ⟨x, a, b, y, -⟩ := exchange
  exact (List.Perm.swap b a y).append_left x

theorem Transposed.cons (exchange : Transposed score l l') (c : α) :
    Transposed score (c :: l) (c :: l') := by
  obtain ⟨x, a, b, y, equal⟩ := exchange
  exact .mk (c :: x) a b y equal

variable [LinearOrder β]

/-- Neighbours of equal score descend in either order. -/
theorem Transposed.descending (exchange : Transposed score l l')
    (descending : l.Pairwise fun a b => score b ≤ score a) :
    l'.Pairwise fun a b => score b ≤ score a := by
  obtain ⟨x, a, b, y, equal⟩ := exchange
  rw [List.pairwise_append, List.pairwise_cons, List.pairwise_cons] at descending ⊢
  obtain ⟨front, ⟨first, second, rest⟩, across⟩ := descending
  have mem : ∀ c, c ∈ b :: a :: y ↔ c ∈ a :: b :: y :=
    fun c => (List.Perm.swap a b y).mem_iff
  refine ⟨front, ⟨?_, fun c later => first c (List.mem_cons_of_mem b later), rest⟩, ?_⟩
  · intro c later
    rcases List.mem_cons.mp later with rfl | later
    · exact equal.le
    · exact second c later
  · exact fun d isFront c later => across d isFront c ((mem c).mp later)

omit [LinearOrder β] in
/-- What has the score of all before it comes to the front. -/
theorem exchanges_to_front (x : List α) (c : α) (y : List α)
    (equal : ∀ a ∈ x, score a = score c) :
    Relation.ReflTransGen (Transposed score) (x ++ c :: y) (c :: (x ++ y)) := by
  induction x with
  | nil => exact .refl
  | cons a x ih =>
      have moved := ih fun b mem => equal b (List.mem_cons_of_mem a mem)
      have lifted : Relation.ReflTransGen (Transposed score) (a :: (x ++ c :: y))
          (a :: c :: (x ++ y)) := moved.lift (a :: ·) fun _ _ exchange => exchange.cons a
      exact lifted.tail (.mk [] a c (x ++ y) (equal a List.mem_cons_self))

/-- Two orders of a descending list are some exchanges apart. -/
theorem exchanges_of_perm (perm : l.Perm l')
    (descending : l.Pairwise fun a b => score b ≤ score a)
    (descending' : l'.Pairwise fun a b => score b ≤ score a) :
    Relation.ReflTransGen (Transposed score) l' l := by
  induction l generalizing l' with
  | nil =>
      rw [perm.nil_eq]
  | cons c l ih =>
      obtain ⟨first, rest⟩ := List.pairwise_cons.mp descending
      obtain ⟨x, y, rfl⟩ := List.append_of_mem (perm.subset List.mem_cons_self)
      have others : l.Perm (x ++ y) := (List.perm_cons c).mp (perm.trans List.perm_middle)
      -- what stands before `c` has its score: `c` is the best of all
      have equal : ∀ a ∈ x, score a = score c := by
        intro a mem
        have below := first a (others.mem_iff.mpr (List.mem_append_left y mem))
        have above := (List.pairwise_append.mp descending').2.2 a mem c List.mem_cons_self
        exact le_antisymm below above
      have kept : (x ++ y).Pairwise fun a b => score b ≤ score a :=
        descending'.sublist ((List.Sublist.refl x).append (List.sublist_cons_self c y))
      have tails := (ih others rest kept).lift (c :: ·) fun _ _ exchange => exchange.cons c
      exact (exchanges_to_front x c y equal).trans tails

end Transposed

/-! ## Places -/

section Places

variable {α : Type*} {l l' rest : List α} {n : ℕ}

/-- `l` begins `l'`, as far as there are `n` places. -/
def Begins (n : ℕ) (l l' : List α) : Prop := l.take n <+: l'.take n

/-- Whatever is as long as there are places fills them. -/
theorem take_append_of_le (full : n ≤ l.length) : (l ++ rest).take n = l.take n := by
  rw [List.take_append, Nat.sub_eq_zero_of_le full, List.take_zero, List.append_nil]

/-- A list that begins another one either fills the places or is a part of it. -/
theorem Begins.cases (begins : Begins n l l') :
    l.take n = l'.take n ∧ n ≤ l.length ∧ n ≤ l'.length ∨ l <+: l' := by
  rcases Nat.lt_or_ge l.length n with short | full
  · rw [Begins, List.take_of_length_le short.le] at begins
    exact .inr (begins.trans (List.take_prefix n l'))
  · have long := begins.length_le
    rw [List.length_take, List.length_take, Nat.min_eq_left full] at long
    have full' : n ≤ l'.length := long.trans (Nat.min_le_right _ _)
    refine .inl ⟨begins.eq_of_length ?_, full, full'⟩
    rw [List.length_take, List.length_take, Nat.min_eq_left full, Nat.min_eq_left full']

theorem begins_of_take_eq {z : List α} (same : (l ++ rest).take n = z.take n) :
    Begins n l z := by
  rw [Begins, ← same, List.take_append]
  exact List.prefix_append _ _

theorem take_eq_iff : l.take n = l'.take n ↔ Begins n l l' ∧ Begins n l' l := by
  unfold Begins
  constructor
  · intro same
    rw [same]
    exact ⟨List.prefix_rfl, List.prefix_rfl⟩
  · intro ⟨begins, begins'⟩
    exact begins.eq_of_length (le_antisymm begins.length_le begins'.length_le)

end Places

/-! ## Merging -/

section Merge

variable {α : Type*} [DecidableEq α] {l l' : List α} {n : ℕ}

/-- `l`, and what `l'` adds to it. -/
def merge (l l' : List α) : List α := l ++ l'.filter (· ∉ l)

theorem merge_of_begins (nodup : l'.Nodup) (begins : l <+: l') :
    merge l l' = l' ∧ merge l' l = l' := by
  obtain ⟨r, rfl⟩ := begins
  have apart := (List.nodup_append.mp nodup).2.2
  constructor
  · have own : l.filter (· ∉ l) = [] :=
      List.filter_eq_nil_iff.mpr fun a mem => by simpa using mem
    have others : r.filter (· ∉ l) = r :=
      List.filter_eq_self.mpr fun a mem => by simpa using fun isFirst => apart a isFirst a mem rfl
    rw [merge, List.filter_append, own, others, List.nil_append]
  · have known : l.filter (· ∉ l ++ r) = [] :=
      List.filter_eq_nil_iff.mpr fun a mem => by simp [mem]
    rw [merge, known, List.append_nil]

/-- Two lists may be merged in either order exactly if one begins the other. -/
theorem take_merge_comm (nodup : l.Nodup) (nodup' : l'.Nodup) (rest : List α) :
    (merge l l' ++ rest).take n = (merge l' l ++ rest).take n ↔
      Begins n l l' ∨ Begins n l' l := by
  constructor
  · intro same
    have first : Begins n l (merge l' l ++ rest) := by
      rw [merge, List.append_assoc] at same
      exact begins_of_take_eq same
    have second : Begins n l' (merge l' l ++ rest) := by
      rw [merge, List.append_assoc]
      exact begins_of_take_eq rfl
    exact List.prefix_or_prefix_of_prefix first second
  · have oneWay : ∀ {a b : List α}, b.Nodup → Begins n a b →
        (merge a b ++ rest).take n = (merge b a ++ rest).take n := by
      intro a b distinct begins
      rcases begins.cases with ⟨same, full, full'⟩ | part
      · rw [merge, merge, List.append_assoc, List.append_assoc, take_append_of_le full,
          take_append_of_le full', same]
      · rw [(merge_of_begins distinct part).1, (merge_of_begins distinct part).2]
    intro begins
    rcases begins with begins | begins
    · exact oneWay nodup' begins
    · exact (oneWay nodup begins).symm

/-- What is added to `l'` may stand alone exactly if `l'` begins it. -/
theorem take_merge_left (nodup : l.Nodup) :
    l.take n = (merge l' l).take n ↔ Begins n l' l := by
  constructor
  · intro same
    exact begins_of_take_eq same.symm
  · intro begins
    rcases begins.cases with ⟨same, full, -⟩ | part
    · rw [merge, take_append_of_le full, same]
    · rw [(merge_of_begins nodup part).1]

end Merge

end Neighbours
