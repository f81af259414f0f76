import Mathlib.Data.List.Nodup
import Mathlib.Tactic.Common

/-!
# Delivery to a server that remembers keys

A server keeps a ledger of the operations it performed, each under the key it came with; a
request may be lost on the way, performed, or answered from the ledger.  Whatever is lost,
the requests of one key and operation add at most one entry (`Delivers.trans`), and a server
that only performs under new keys never performs two operations under one (`Delivers.unique`).
-/

universe u v w

/-- What the requests of one operation under one key did to a ledger, the latest first. -/
inductive Delivers {κ : Type u} {ω : Type v} (key : κ) (operation : ω) (before : List (κ × ω)) :
    List (κ × ω) → Prop
  | kept : Delivers key operation before before
  | performed (new : ∀ entry ∈ before, entry.1 ≠ key) :
      Delivers key operation before ((key, operation) :: before)

namespace Delivers

variable {κ : Type u} {ω : Type v} {key : κ} {operation : ω} {a b c : List (κ × ω)}

/-- One request after the other. -/
theorem trans (first : Delivers key operation a b) (second : Delivers key operation b c) :
    Delivers key operation a c := by
  cases first with
  | kept => exact second
  | performed new =>
      cases second with
      | kept => exact .performed new
      | performed again => exact absurd rfl (again _ List.mem_cons_self)

theorem suffix (delivers : Delivers key operation a b) : a <:+ b := by
  cases delivers with
  | kept => exact List.suffix_rfl
  | performed new => exact List.suffix_cons _ _

theorem unique (delivers : Delivers key operation a b) (unique : (a.map Prod.fst).Nodup) :
    (b.map Prod.fst).Nodup := by
  cases delivers with
  | kept => exact unique
  | performed new =>
      refine List.nodup_cons.mpr ⟨fun mem => ?_, unique⟩
      obtain ⟨entry, there, same⟩ := List.mem_map.mp mem
      exact new entry there same

theorem mem (delivers : Delivers key operation a b) {entry : κ × ω} (there : entry ∈ b) :
    entry ∈ a ∨ entry = (key, operation) := by
  cases delivers with
  | kept => exact .inl there
  | performed new => exact (List.mem_cons.mp there).symm

end Delivers
