import Mathlib.Data.List.Infix
import Mathlib.Data.List.Perm.Basic
import Mathlib.Data.List.Nodup
import Mathlib.Data.Nat.Notation
import Mathlib.Tactic.Common

/-!
# Striking phrases from a list

`strike` removes the occurrences of a phrase from left to right.  An occurrence that follows
right on one just removed stays, as each takes the separator after it along.  `strikeAll`
does so for one phrase after the other, and `struck` lists what it removes: together they
are the list that was given (`perm_strikeAll`).

Between elements that stay each stretch is struck on its own (`strikeAll_between`).  So
whether some elements stay can be told from the stretches between them
(`struck_spares_iff`).
-/

namespace FazerBridge

namespace Striking

variable {α β : Type} [DecidableEq β] (f : α → β) (p : List β)

/-- The counter is 0 where an occurrence may start, and 1 at the element after one; above
that it tells how much of an occurrence is left. -/
def strikeFrom : ℕ → List α → List α
  | _, [] => []
  | 0, t :: ts =>
    if p <+: (t :: ts).map f then strikeFrom p.length ts else t :: strikeFrom 0 ts
  | 1, t :: ts => t :: strikeFrom 0 ts
  | n + 2, _ :: ts => strikeFrom (n + 1) ts

def strike (ts : List α) : List α := strikeFrom f p 0 ts

/-- The occurrences that are removed. -/
def hitsFrom : ℕ → List α → List (List α)
  | _, [] => []
  | 0, t :: ts =>
    if p <+: (t :: ts).map f then (t :: ts).take p.length :: hitsFrom p.length ts
    else hitsFrom 0 ts
  | 1, _ :: ts => hitsFrom 0 ts
  | n + 2, _ :: ts => hitsFrom (n + 1) ts

def hits (ts : List α) : List (List α) := hitsFrom f p 0 ts

/-- Remove one phrase after the other. -/
def strikeAll (ps : List (List β)) (ts : List α) : List α :=
  ps.foldl (fun left p => strike f p left) ts

/-- What `strikeAll` removes. -/
def struck : List (List β) → List α → List (List α)
  | [], _ => []
  | p :: ps, ts => hits f p ts ++ struck ps (strike f p ts)

/-- Strike in each stretch between the elements of `K`, as if nothing stood around it. -/
def strikeBetween (K : α → Prop) [DecidablePred K] (ps : List (List β)) : List α → List α → List α
  | stretch, [] => strikeAll f ps stretch
  | stretch, t :: ts =>
    if K t then strikeAll f ps stretch ++ t :: strikeBetween K ps [] ts
    else strikeBetween K ps (stretch ++ [t]) ts

/-! ## One phrase -/

theorem map_strikeFrom (n : ℕ) (ts : List α) :
    (strikeFrom f p n ts).map f = strikeFrom id p n (ts.map f) := by
  fun_induction strikeFrom f p n ts with
  | case1 => rfl
  | case2 t ts occurs ih =>
      rw [ih, List.map_cons, strikeFrom, List.map_id]
      exact (if_pos occurs).symm
  | case3 t ts absent ih =>
      rw [List.map_cons, ih, List.map_cons, strikeFrom, List.map_id]
      exact (if_neg absent).symm
  | case4 t ts ih =>
      rw [List.map_cons, ih]
      rfl
  | case5 n t ts ih => exact ih

/-- What stays, what is removed, and the rest of an occurrence before. -/
theorem perm_strikeFrom (some_ : p ≠ []) (n : ℕ) (ts : List α) :
    ts.Perm (ts.take (n - 1) ++ (strikeFrom f p n ts ++ (hitsFrom f p n ts).flatten)) := by
  have long : 0 < p.length := List.length_pos_iff.mpr some_
  fun_induction strikeFrom f p n ts with
  | case1 => simp [hitsFrom]
  | case2 t ts occurs ih =>
      have head : (t :: ts).take p.length = t :: ts.take (p.length - 1) := by
        cases size : p.length with
        | zero => omega
        | succ n => rfl
      rw [hitsFrom, if_pos occurs, head, List.flatten_cons]
      exact (ih.cons t).trans (List.perm_append_comm_assoc (t :: ts.take (p.length - 1)) _ _)
  | case3 t ts absent ih =>
      rw [hitsFrom, if_neg absent]
      exact ih.cons t
  | case4 t ts ih => exact ih.cons t
  | case5 n t ts ih => exact ih.cons t

theorem strikeFrom_sublist (n : ℕ) (ts : List α) : (strikeFrom f p n ts).Sublist ts := by
  fun_induction strikeFrom f p n ts with
  | case1 => exact .slnil
  | case2 t ts occurs ih => exact ih.cons t
  | case3 t ts absent ih => exact ih.cons_cons t
  | case4 t ts ih => exact ih.cons_cons t
  | case5 n t ts ih => exact ih.cons t

theorem hitsFrom_together {hit : List α} (n : ℕ) (ts : List α) (mem : hit ∈ hitsFrom f p n ts) :
    hit.map f = p ∧ hit <:+: ts := by
  fun_induction hitsFrom f p n ts with
  | case1 => cases mem
  | case2 t ts occurs ih =>
      rcases List.mem_cons.mp mem with rfl | later
      · refine ⟨?_, (List.take_prefix _ _).isInfix⟩
        rw [List.map_take]
        exact (List.prefix_iff_eq_take.mp occurs).symm
      · exact ⟨(ih later).1, (ih later).2.trans (List.suffix_cons t ts).isInfix⟩
  | case3 t ts absent ih => exact ⟨(ih mem).1, (ih mem).2.trans (List.suffix_cons t ts).isInfix⟩
  | case4 t ts ih => exact ⟨(ih mem).1, (ih mem).2.trans (List.suffix_cons t ts).isInfix⟩
  | case5 n t ts ih => exact ⟨(ih mem).1, (ih mem).2.trans (List.suffix_cons t ts).isInfix⟩

/-- What is left of an occurrence may as well be dropped. -/
theorem strikeFrom_succ (n : ℕ) (ts : List α) :
    strikeFrom f p (n + 1) ts = strikeFrom f p 1 (ts.drop n) := by
  induction n generalizing ts with
  | zero => rfl
  | succ n ih =>
      cases ts with
      | nil => rfl
      | cons t ts => exact ih ts

theorem perm_strike (some_ : p ≠ []) (ts : List α) :
    ts.Perm (strike f p ts ++ (hits f p ts).flatten) := perm_strikeFrom f p some_ 0 ts

/-! ## One phrase after the other -/

variable {ps : List (List β)}

theorem map_strikeAll (ps : List (List β)) (ts : List α) :
    (strikeAll f ps ts).map f = strikeAll id ps (ts.map f) := by
  induction ps generalizing ts with
  | nil => rfl
  | cons p ps ih => exact (ih _).trans (congrArg (strikeAll id ps) (map_strikeFrom f p 0 ts))

theorem strikeAll_sublist (ps : List (List β)) (ts : List α) :
    (strikeAll f ps ts).Sublist ts := by
  induction ps generalizing ts with
  | nil => exact .refl ts
  | cons p ps ih => exact (ih _).trans (strikeFrom_sublist f p 0 ts)

theorem perm_strikeAll (some_ : ∀ p ∈ ps, p ≠ []) (ts : List α) :
    ts.Perm (strikeAll f ps ts ++ (struck f ps ts).flatten) := by
  induction ps generalizing ts with
  | nil => simp [strikeAll, struck]
  | cons p ps ih =>
      have first := perm_strike f p (some_ p List.mem_cons_self) ts
      have rest := ih (fun q mem => some_ q (List.mem_cons_of_mem p mem)) (strike f p ts)
      rw [struck, List.flatten_append]
      refine first.trans ((rest.append_right _).trans ?_)
      rw [List.append_assoc]
      exact List.perm_append_comm.append_left _

/-- A removed occurrence spells a phrase, and stood together when its turn came. -/
theorem struck_together {hit ts : List α} (mem : hit ∈ struck f ps ts) :
    hit.map f ∈ ps ∧ ∃ left, left.Sublist ts ∧ hit <:+: left := by
  induction ps generalizing ts with
  | nil => cases mem
  | cons p ps ih =>
      rcases List.mem_append.mp mem with now | later
      · obtain ⟨spells, together⟩ := hitsFrom_together f p 0 ts now
        exact ⟨spells ▸ List.mem_cons_self, ts, .refl ts, together⟩
      · obtain ⟨spells, left, sub, together⟩ := ih later
        exact ⟨List.mem_cons_of_mem p spells, left,
          sub.trans (strikeFrom_sublist f p 0 ts), together⟩

/-- Elements stay if no occurrence takes one of them as long as they are all there. -/
theorem mem_strikeAll_of_spared (some_ : ∀ p ∈ ps, p ≠ []) {K : α → Prop} {ts : List α}
    (there : ∀ a, K a → a ∈ ts)
    (spared : ∀ left, left.Sublist ts → (∀ a, K a → a ∈ left) →
      ∀ hit ∈ struck f ps ts, hit <:+: left → ∀ a ∈ hit, ¬ K a) :
    ∀ a, K a → a ∈ strikeAll f ps ts := by
  induction ps generalizing ts with
  | nil => exact there
  | cons p ps ih =>
      have sub : (strike f p ts).Sublist ts := strikeFrom_sublist f p 0 ts
      refine ih (fun q mem => some_ q (List.mem_cons_of_mem p mem)) ?_ ?_
      · intro a kept
        have mem := (perm_strike f p (some_ p List.mem_cons_self) ts).mem_iff.mp (there a kept)
        rcases List.mem_append.mp mem with stays | removed
        · exact stays
        · obtain ⟨hit, isHit, member⟩ := List.mem_flatten.mp removed
          exact absurd kept (spared ts (.refl ts) there hit (List.mem_append_left _ isHit)
            (hitsFrom_together f p 0 ts isHit).2 a member)
      · intro left sub' kept hit mem
        exact spared left (sub'.trans sub) kept hit (List.mem_append_right _ mem)

/-! ## Around elements that stay -/

section Around

variable {K : α → Prop} {t : α} {before after : List α}

/-- An element that no occurrence takes parts the list. -/
theorem strikeFrom_around (some_ : p ≠ []) (stays : K t) (n : ℕ) (short : n ≤ before.length + 1)
    (spared : ∀ hit ∈ hitsFrom f p n (before ++ t :: after), ∀ a ∈ hit, ¬ K a) :
    strikeFrom f p n (before ++ t :: after) = strikeFrom f p n before ++ t :: strikeFrom f p 0 after ∧
      hitsFrom f p n (before ++ t :: after) = hitsFrom f p n before ++ hitsFrom f p 0 after := by
  have long : 0 < p.length := List.length_pos_iff.mpr some_
  -- an occurrence that takes no element of `K` ends before `t`
  have fits : ∀ before : List α, (∀ a ∈ (before ++ t :: after).take p.length, ¬ K a) →
      p.length ≤ before.length := by
    intro before free
    by_contra longer
    refine free t ?_ stays
    rw [List.take_append]
    refine List.mem_append_right _ ?_
    have more : p.length - before.length = (p.length - before.length - 1) + 1 := by omega
    rw [more, List.take_succ_cons]
    exact List.mem_cons_self
  induction before generalizing n with
  | nil =>
      rcases n with _ | _ | n
      · have absent : ¬ p <+: (t :: after).map f := by
          intro occurs
          rw [List.nil_append, hitsFrom, if_pos occurs] at spared
          have none_ := fits [] (spared _ List.mem_cons_self)
          exact absurd none_ (Nat.not_le_of_lt long)
        exact ⟨if_neg absent, if_neg absent⟩
      · exact ⟨rfl, rfl⟩
      · exact absurd short (by simp)
  | cons b before ih =>
      rcases n with _ | _ | n
      · rw [List.cons_append] at spared ⊢
        by_cases occurs : p <+: (b :: (before ++ t :: after)).map f
        · rw [hitsFrom, if_pos occurs] at spared
          have short' := fits (b :: before) (spared _ List.mem_cons_self)
          have occurs' : p <+: (b :: before).map f := by
            refine List.prefix_of_prefix_length_le occurs ?_ (by simpa using short')
            exact ⟨(t :: after).map f, by simp⟩
          obtain ⟨left, removed⟩ := ih p.length short' fun hit mem =>
            spared hit (List.mem_cons_of_mem _ mem)
          have same : (b :: (before ++ t :: after)).take p.length = (b :: before).take p.length := by
            rw [← List.cons_append, List.take_append_of_le_length short']
          rw [strikeFrom, hitsFrom, strikeFrom, hitsFrom, if_pos occurs, if_pos occurs,
            if_pos occurs', if_pos occurs', left, removed, same]
          exact ⟨rfl, rfl⟩
        · have absent : ¬ p <+: (b :: before).map f := by
            intro occurs'
            refine occurs (occurs'.trans ⟨(t :: after).map f, ?_⟩)
            simp
          rw [hitsFrom, if_neg occurs] at spared
          obtain ⟨left, removed⟩ := ih 0 (Nat.zero_le _) spared
          rw [strikeFrom, hitsFrom, strikeFrom, hitsFrom, if_neg occurs, if_neg occurs,
            if_neg absent, if_neg absent, left, removed]
          exact ⟨rfl, rfl⟩
      · obtain ⟨left, removed⟩ := ih 0 (Nat.zero_le _) spared
        exact ⟨congrArg (b :: ·) left, removed⟩
      · exact ih (n + 1) (Nat.le_of_succ_le_succ short) spared

theorem strikeAll_around (some_ : ∀ p ∈ ps, p ≠ []) (stays : K t)
    (spared : ∀ hit ∈ struck f ps (before ++ t :: after), ∀ a ∈ hit, ¬ K a) :
    strikeAll f ps (before ++ t :: after) = strikeAll f ps before ++ t :: strikeAll f ps after ∧
      ∀ hit ∈ struck f ps after, ∀ a ∈ hit, ¬ K a := by
  induction ps generalizing before after with
  | nil =>
      refine ⟨rfl, fun hit mem => ?_⟩
      cases mem
  | cons p ps ih =>
      obtain ⟨left, removed⟩ := strikeFrom_around f p (some_ p List.mem_cons_self) stays 0
        (Nat.zero_le _) fun hit mem => spared hit (List.mem_append_left _ mem)
      have rest : ∀ hit ∈ struck f ps (strike f p before ++ t :: strike f p after),
          ∀ a ∈ hit, ¬ K a := by
        intro hit mem
        refine spared hit (List.mem_append_right _ ?_)
        rw [strike, left]
        exact mem
      obtain ⟨left', spared'⟩ := ih (fun q mem => some_ q (List.mem_cons_of_mem p mem)) rest
      constructor
      · refine Eq.trans ?_ left'
        exact congrArg (strikeAll f ps) left
      · intro hit mem
        rcases List.mem_append.mp mem with now | later
        · refine spared hit (List.mem_append_left _ ?_)
          rw [hits, removed]
          exact List.mem_append_right _ now
        · exact spared' hit later

variable [DecidablePred K]

theorem strikeAll_between (some_ : ∀ p ∈ ps, p ≠ []) (stretch ts : List α)
    (spared : ∀ hit ∈ struck f ps (stretch ++ ts), ∀ a ∈ hit, ¬ K a) :
    strikeAll f ps (stretch ++ ts) = strikeBetween f K ps stretch ts := by
  induction ts generalizing stretch with
  | nil => rw [List.append_nil, strikeBetween]
  | cons t ts ih =>
      rw [strikeBetween]
      split
      · rename_i stays
        obtain ⟨left, spared'⟩ := strikeAll_around f some_ stays spared
        have rest : strikeAll f ps ts = strikeBetween f K ps [] ts := ih [] spared'
        rw [left, rest]
      · have moved : stretch ++ t :: ts = stretch ++ [t] ++ ts := by simp
        rw [moved] at spared ⊢
        exact ih (stretch ++ [t]) spared

theorem struck_append (ps qs : List (List β)) (ts : List α) :
    struck f (ps ++ qs) ts = struck f ps ts ++ struck f qs (strikeAll f ps ts) := by
  induction ps generalizing ts with
  | nil => rfl
  | cons p ps ih =>
      rw [List.cons_append, struck, ih, struck, List.append_assoc]
      rfl

/-- Elements stay exactly if no phrase comes together with one of them, each in its turn, in
the list whose stretches between them were struck on their own. -/
theorem struck_spares_iff (some_ : ∀ p ∈ ps, p ≠ []) (ts : List α) :
    (∀ hit ∈ struck f ps ts, ∀ a ∈ hit, ¬ K a) ↔
      ∀ earlier p later, ps = earlier ++ p :: later →
        ∀ hit ∈ hits f p (strikeBetween f K earlier [] ts), ∀ a ∈ hit, ¬ K a := by
  constructor
  · intro spared earlier p later parts hit mem
    rw [parts, struck_append] at spared
    have left : strikeAll f earlier ts = strikeBetween f K earlier [] ts :=
      strikeAll_between f (fun q isPhrase => some_ q (parts ▸ List.mem_append_left _ isPhrase))
        [] ts fun hit mem => spared hit (List.mem_append_left _ mem)
    rw [← left] at mem
    exact spared hit (List.mem_append_right _ (List.mem_append_left _ mem))
  · intro alone
    induction ps using List.reverseRecOn with
    | nil =>
        intro hit mem
        cases mem
    | append_singleton ps p ih =>
        have some' : ∀ q ∈ ps, q ≠ [] := fun q mem => some_ q (List.mem_append_left _ mem)
        have spared := ih some' fun earlier q later parts =>
          alone earlier q (later ++ [p]) (by rw [parts]; simp)
        have left : strikeAll f ps ts = strikeBetween f K ps [] ts :=
          strikeAll_between f some' [] ts spared
        intro hit mem
        rw [struck_append] at mem
        rcases List.mem_append.mp mem with now | last
        · exact spared hit now
        · rw [struck, struck, List.append_nil] at last
          refine alone ps p [] rfl hit ?_
          rw [← left]
          exact last

end Around

end Striking

end FazerBridge
