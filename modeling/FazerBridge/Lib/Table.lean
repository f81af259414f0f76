import Mathlib.Data.List.Nodup
import Mathlib.Data.List.Basic
import Mathlib.Tactic.Common

/-!
# Tables with a primary key

A `Table key` is a list of rows no two of which share a key, so a table with two
rows of one key cannot be built.  `find?` reads a row, `save` writes one: over
the row with its key if there is one, else at the end.  `ensure` writes a row only
where there is none.
-/

universe u v

/-- A number above all of a list. -/
theorem Table.lt_foldr_max {ids : List ℕ} {i : ℕ} (mem : i ∈ ids) : i < ids.foldr max 0 + 1 := by
  induction ids with
  | nil => cases mem
  | cons j ids ih =>
      refine Nat.lt_succ_of_le ?_
      rcases List.mem_cons.mp mem with rfl | mem
      · exact Nat.le_max_left _ _
      · exact Nat.le_trans (Nat.le_of_lt_succ (ih mem)) (Nat.le_max_right _ _)

/-- Rows in storage order, no two with the same key. -/
structure Table {α : Type u} {κ : Type v} (key : α → κ) where
  rows : List α
  nodup : (rows.map key).Nodup

namespace Table

variable {α : Type u} {κ : Type v} {key : α → κ} [DecidableEq κ]

/-- The table without rows. -/
def empty (key : α → κ) : Table key := ⟨[], List.nodup_nil⟩

instance : Inhabited (Table key) := ⟨empty key⟩

/-- The row stored under `k`. -/
def find? (t : Table key) (k : κ) : Option α :=
  t.rows.find? fun a => key a = k

/-- The rows with `a` in the place of the row of its key. -/
def overwrite (key : α → κ) (a : α) (rows : List α) : List α :=
  rows.map fun x => if key x = key a then a else x

theorem map_key_overwrite (a : α) (rows : List α) :
    (overwrite key a rows).map key = rows.map key := by
  rw [overwrite, List.map_map]
  refine List.map_congr_left fun x _ => ?_
  by_cases h : key x = key a <;> simp [h]

/-- Write `a`: over the row with its key, or as a new last row. -/
def save (t : Table key) (a : α) : Table key :=
  if h : key a ∈ t.rows.map key then
    ⟨overwrite key a t.rows, by rw [map_key_overwrite]; exact t.nodup⟩
  else
    ⟨t.rows ++ [a], by
      rw [List.map_append, List.nodup_append]
      refine ⟨t.nodup, by simp, ?_⟩
      rintro k hk k' hk' rfl
      simp only [List.map_cons, List.map_nil, List.mem_singleton] at hk'
      exact h (hk' ▸ hk)⟩

omit [DecidableEq κ] in
/-- Two rows of a table with one key are one row. -/
theorem eq_of_key_eq (t : Table key) {a b : α} (ha : a ∈ t.rows) (hb : b ∈ t.rows)
    (same : key a = key b) : a = b :=
  List.inj_on_of_nodup_map t.nodup ha hb same

theorem find?_eq_some_iff {t : Table key} {k : κ} {a : α} :
    t.find? k = some a ↔ a ∈ t.rows ∧ key a = k := by
  constructor
  · intro h
    exact ⟨List.mem_of_find?_eq_some h, by simpa using List.find?_some h⟩
  · intro found
    obtain ⟨mem, rfl⟩ := found
    cases found : t.find? (key a) with
    | none => simpa using List.find?_eq_none.mp found a mem
    | some b =>
        have hb := List.mem_of_find?_eq_some found
        have same : key b = key a := by simpa using List.find?_some found
        rw [t.eq_of_key_eq hb mem same]

theorem find?_eq_none_iff {t : Table key} {k : κ} :
    t.find? k = none ↔ ∀ a ∈ t.rows, key a ≠ k := by
  rw [find?, List.find?_eq_none]
  simp

theorem find?_key (t : Table key) {a : α} (mem : a ∈ t.rows) : t.find? (key a) = some a :=
  find?_eq_some_iff.mpr ⟨mem, rfl⟩

/-- After a write a row is either the written one or an old one of another key. -/
theorem mem_save {t : Table key} {a x : α} :
    x ∈ (t.save a).rows ↔ x = a ∨ (x ∈ t.rows ∧ key x ≠ key a) := by
  unfold save
  split
  · rename_i present
    obtain ⟨b, hb, same⟩ := List.mem_map.mp present
    simp only [overwrite, List.mem_map]
    constructor
    · intro found
      obtain ⟨y, hy, rfl⟩ := found
      by_cases h : key y = key a
      · simp [h]
      · simp [h, hy]
    · intro either
      rcases either with rfl | ⟨hx, ne⟩
      · exact ⟨b, hb, by simp [same]⟩
      · exact ⟨x, hx, by simp [ne]⟩
  · rename_i absent
    simp only [List.mem_append, List.mem_singleton]
    constructor
    · intro either
      rcases either with hx | rfl
      · exact Or.inr ⟨hx, fun same => absent (same ▸ List.mem_map_of_mem hx)⟩
      · exact Or.inl rfl
    · intro either
      rcases either with rfl | ⟨hx, -⟩
      · exact Or.inr rfl
      · exact Or.inl hx

@[simp] theorem find?_save_self (t : Table key) (a : α) : (t.save a).find? (key a) = some a :=
  find?_eq_some_iff.mpr ⟨mem_save.mpr (Or.inl rfl), rfl⟩

/-- A write leaves the rows of other keys as they are. -/
theorem find?_save_of_ne (t : Table key) {a : α} {k : κ} (ne : k ≠ key a) :
    (t.save a).find? k = t.find? k := by
  cases found : t.find? k with
  | none =>
      rw [find?_eq_none_iff] at found ⊢
      intro x hx
      rcases mem_save.mp hx with rfl | ⟨hx, -⟩
      · exact ne.symm
      · exact found x hx
  | some b =>
      obtain ⟨mem, rfl⟩ := find?_eq_some_iff.mp found
      exact find?_eq_some_iff.mpr ⟨mem_save.mpr (Or.inr ⟨mem, ne⟩), rfl⟩

/-- A write over an existing row keeps every row's place. -/
theorem rows_save_of_mem {t : Table key} {a b : α} (mem : b ∈ t.rows) (same : key b = key a) :
    (t.save a).rows = overwrite key a t.rows := by
  have present : key a ∈ t.rows.map key := same ▸ List.mem_map_of_mem mem
  simp only [save, present, dif_pos]

omit [DecidableEq κ] in
theorem eq_of_rows_eq {t u : Table key} (same : t.rows = u.rows) : t = u := by
  cases t
  cases u
  cases same
  rfl

/-- A row written as it is stored. -/
theorem save_of_mem {t : Table key} {a : α} (mem : a ∈ t.rows) : t.save a = t := by
  refine eq_of_rows_eq ((rows_save_of_mem mem rfl).trans ?_)
  refine (List.map_congr_left fun x hx => ?_).trans (List.map_id t.rows)
  split
  · exact (t.eq_of_key_eq hx mem ‹_›).symm
  · rfl

/-- The second of two writes over one row is the one that stays. -/
theorem save_save {t : Table key} {a b c : α} (mem : c ∈ t.rows) (first : key c = key a)
    (second : key a = key b) : (t.save a).save b = t.save b := by
  have written : a ∈ (t.save a).rows := mem_save.mpr (.inl rfl)
  apply eq_of_rows_eq
  rw [rows_save_of_mem written second, rows_save_of_mem mem first,
    rows_save_of_mem mem (first.trans second), overwrite, overwrite, overwrite, List.map_map]
  refine List.map_congr_left fun x _ => ?_
  by_cases own : key x = key a
  · rw [Function.comp_apply, if_pos own, if_pos second, if_pos (own.trans second)]
  · rw [Function.comp_apply, if_neg own]

/-- A write of a new key goes to the end. -/
theorem rows_save_of_not_mem {t : Table key} {a : α} (absent : ∀ b ∈ t.rows, key b ≠ key a) :
    (t.save a).rows = t.rows ++ [a] := by
  have missing : key a ∉ t.rows.map key := by
    intro h
    obtain ⟨b, hb, same⟩ := List.mem_map.mp h
    exact absent b hb same
  simp only [save, missing, dif_neg, not_false_eq_true]

/-- A write keeps a second key, when no other row has its value. -/
theorem nodup_map_save {β : Type*} {f : α → β} {t : Table key} {a : α}
    (nodup : (t.rows.map f).Nodup) (free : ∀ b ∈ t.rows, key b ≠ key a → f b ≠ f a) :
    ((t.save a).rows.map f).Nodup := by
  rw [List.nodup_map_iff_inj_on (List.Nodup.of_map key (t.save a).nodup)]
  intro b hb c hc same
  rcases mem_save.mp hb with rfl | ⟨bOld, bNe⟩ <;> rcases mem_save.mp hc with rfl | ⟨cOld, cNe⟩
  · rfl
  · exact absurd same.symm (free c cOld cNe)
  · exact absurd same (free b bOld bNe)
  · exact List.inj_on_of_nodup_map nodup bOld cOld same

/-- A write over a row with the same second value keeps the second values. -/
theorem map_save_of_mem {β : Type*} {f : α → β} {t : Table key} {a b : α} (mem : b ∈ t.rows)
    (same : key b = key a) (value : f b = f a) : (t.save a).rows.map f = t.rows.map f := by
  rw [rows_save_of_mem mem same, overwrite, List.map_map]
  refine List.map_congr_left fun x hx => ?_
  by_cases h : key x = key a
  · rw [Function.comp_apply, if_pos h, ← value, t.eq_of_key_eq hx mem (h.trans same.symm)]
  · rw [Function.comp_apply, if_neg h]

omit [DecidableEq κ] in
theorem nodup_rows (t : Table key) : t.rows.Nodup := List.Nodup.of_map key t.nodup

/-! ## Rows that are written once -/

/-- Write `a`, unless its key has a row. -/
def ensure (t : Table key) (a : α) : Table key :=
  if (t.find? (key a)).isSome then t else t.save a

theorem ensure_of_isSome {t : Table key} {a : α} (there : (t.find? (key a)).isSome) :
    t.ensure a = t := if_pos there

theorem ensure_of_eq_none {t : Table key} {a : α} (missing : t.find? (key a) = none) :
    t.ensure a = t.save a := by
  rw [ensure, missing, Option.isSome_none, if_neg Bool.false_ne_true]

@[simp] theorem find?_ensure_self (t : Table key) (a : α) :
    (t.ensure a).find? (key a) = some ((t.find? (key a)).getD a) := by
  cases found : t.find? (key a) with
  | none => rw [ensure_of_eq_none found, find?_save_self, Option.getD_none]
  | some b => rw [ensure_of_isSome (by rw [found]; rfl), found, Option.getD_some]

theorem find?_ensure_of_ne (t : Table key) {a : α} {k : κ} (ne : k ≠ key a) :
    (t.ensure a).find? k = t.find? k := by
  unfold ensure
  split
  · rfl
  · exact t.find?_save_of_ne ne

theorem mem_ensure {t : Table key} {a x : α} (mem : x ∈ (t.ensure a).rows) :
    x = a ∨ x ∈ t.rows := by
  unfold ensure at mem
  split at mem
  · exact .inr mem
  · exact (mem_save.mp mem).imp_right And.left

theorem rows_ensure_of_eq_none {t : Table key} {a : α} (missing : t.find? (key a) = none) :
    (t.ensure a).rows = t.rows ++ [a] := by
  rw [ensure_of_eq_none missing, rows_save_of_not_mem (find?_eq_none_iff.mp missing)]

/-- A row that is there can be written before or after another one is ensured. -/
theorem ensure_save {t : Table key} {a b : α} (there : (t.find? (key a)).isSome)
    (other : key a ≠ key b) : (t.save a).ensure b = (t.ensure b).save a := by
  cases found : t.find? (key b) with
  | some c =>
      have kept : (t.save a).find? (key b) = some c := by
        rw [t.find?_save_of_ne other.symm, found]
      rw [ensure_of_isSome (by rw [kept]; rfl), ensure_of_isSome (by rw [found]; rfl)]
  | none =>
      have kept : (t.save a).find? (key b) = none := by
        rw [t.find?_save_of_ne other.symm, found]
      obtain ⟨c, at_⟩ := Option.isSome_iff_exists.mp there
      obtain ⟨mem, same⟩ := find?_eq_some_iff.mp at_
      have mem' : c ∈ (t.ensure b).rows := by
        rw [rows_ensure_of_eq_none found]
        exact List.mem_append_left _ mem
      apply eq_of_rows_eq
      rw [rows_ensure_of_eq_none kept, rows_save_of_mem mem same, rows_save_of_mem mem' same,
        rows_ensure_of_eq_none found, overwrite, overwrite, List.map_append, List.map_singleton,
        if_neg other.symm]

/-- Ensure every row of a list, the first one first. -/
def ensureAll (t : Table key) : List α → Table key
  | [] => t
  | a :: as => (t.ensure a).ensureAll as

theorem isSome_find?_ensure {t : Table key} {a : α} {k : κ} (there : (t.find? k).isSome) :
    ((t.ensure a).find? k).isSome := by
  by_cases same : k = key a
  · rw [same, find?_ensure_self]
    rfl
  · rw [t.find?_ensure_of_ne same]
    exact there

theorem isSome_find?_ensureAll {t : Table key} {as : List α} {k : κ}
    (there : (t.find? k).isSome) : ((t.ensureAll as).find? k).isSome := by
  induction as generalizing t with
  | nil => exact there
  | cons a as ih => exact ih (isSome_find?_ensure there)

theorem find?_ensureAll_of_not_mem {t : Table key} {as : List α} {k : κ}
    (absent : k ∉ as.map key) : (t.ensureAll as).find? k = t.find? k := by
  induction as generalizing t with
  | nil => rfl
  | cons a as ih =>
      rw [List.map_cons, List.mem_cons, not_or] at absent
      rw [ensureAll, ih absent.2, t.find?_ensure_of_ne absent.1]

theorem mem_ensureAll {t : Table key} {as : List α} {x : α} (mem : x ∈ (t.ensureAll as).rows) :
    x ∈ as ∨ x ∈ t.rows := by
  induction as generalizing t with
  | nil => exact .inr mem
  | cons a as ih =>
      rcases ih mem with mem | mem
      · exact .inl (List.mem_cons_of_mem _ mem)
      · rcases mem_ensure mem with rfl | mem
        · exact .inl List.mem_cons_self
        · exact .inr mem

/-- Nothing that is there is moved. -/
theorem prefix_ensureAll {t : Table key} {as : List α} : t.rows <+: (t.ensureAll as).rows := by
  induction as generalizing t with
  | nil => exact List.prefix_refl _
  | cons a as ih =>
      have first : t.rows <+: (t.ensure a).rows := by
        cases found : t.find? (key a) with
        | some b =>
            have kept : t.ensure a = t := ensure_of_isSome (by rw [found]; rfl)
            exact kept.symm ▸ List.prefix_refl _
        | none =>
            rw [rows_ensure_of_eq_none found]
            exact List.prefix_append _ _
      exact first.trans ih

/-- `ensure_save`, for a list of rows. -/
theorem ensureAll_save {t : Table key} {a : α} {as : List α} (there : (t.find? (key a)).isSome)
    (absent : key a ∉ as.map key) : (t.save a).ensureAll as = (t.ensureAll as).save a := by
  induction as generalizing t with
  | nil => rfl
  | cons b as ih =>
      rw [List.map_cons, List.mem_cons, not_or] at absent
      rw [ensureAll, ensureAll, ensure_save there absent.1,
        ih (isSome_find?_ensure there) absent.2]

/-- The rows that were missing, after those that were there. -/
theorem rows_ensureAll {t : Table key} {as : List α} (distinct : (as.map key).Nodup) :
    (t.ensureAll as).rows = t.rows ++ as.filter fun a => (t.find? (key a)).isNone := by
  induction as generalizing t with
  | nil => rw [List.filter_nil, List.append_nil]; rfl
  | cons a as ih =>
      rw [List.map_cons, List.nodup_cons] at distinct
      have later : as.filter (fun b => ((t.ensure a).find? (key b)).isNone) =
          as.filter fun b => (t.find? (key b)).isNone := by
        refine List.filter_congr fun b mem => ?_
        rw [t.find?_ensure_of_ne fun same => distinct.1 (same ▸ List.mem_map_of_mem mem)]
      rw [ensureAll, ih distinct.2, later]
      cases found : t.find? (key a) with
      | some c => rw [List.filter_cons_of_neg (by rw [found]; exact Bool.false_ne_true),
          ensure_of_isSome (by rw [found]; rfl)]
      | none => rw [List.filter_cons_of_pos (by rw [found]; rfl), rows_ensure_of_eq_none found,
          List.append_assoc, List.singleton_append]

end Table
