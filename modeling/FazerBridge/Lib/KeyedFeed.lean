import Mathlib.Data.List.Basic
import Mathlib.Order.Lattice
import Mathlib.Tactic.Common

/-!
# Feeds of keyed items

A feed is a list of items, several of which may share a key; a mirror that upserts a feed
holds the last item of each key, and what it held of the other keys (`Absorbs`).

A `History` is a source whose items bear the time of their last change.  It is read while
it changes: a `Crawl` takes its time, and shows what changed since the beginning of its
window.  A mirror is `Fresh` as of a time if nothing it holds is older than that.  A crawl
whose window begins no later than the last time the mirror was fresh at makes it fresh
again (`Fresh.absorbs`), and so does a full crawl (`fresh_of_full`); one that is cut short
does no harm (`Fresh.absorbs_read`).
-/

universe u v w

namespace KeyedFeed

variable {α : Type u} {κ : Type v} [DecidableEq κ] (key : α → κ)

/-- The last item of a feed with a key. -/
def last (feed : List α) (k : κ) : Option α := feed.reverse.find? fun a => key a = k

variable {key} {feed : List α} {k : κ} {a : α}

theorem mem_of_last (found : last key feed k = some a) : a ∈ feed ∧ key a = k :=
  ⟨List.mem_reverse.mp (List.mem_of_find?_eq_some found), by simpa using List.find?_some found⟩

theorem last_eq_none_iff : last key feed k = none ↔ ∀ a ∈ feed, key a ≠ k := by
  simp [last, List.find?_eq_none]

theorem last_append (first second : List α) (k : κ) :
    last key (first ++ second) k = (last key second k).or (last key first k) := by
  rw [last, List.reverse_append, List.find?_append]
  rfl

theorem last_map {β : Type w} (f : β → α) (feed : List β) (k : κ) :
    last key (feed.map f) k = (last (key ∘ f) feed k).map f := by
  rw [last, last, ← List.map_reverse, List.find?_map]
  rfl

variable (key) in
/-- What a feed does to what a mirror holds: `holds k a` says that it holds `a` for `k`. -/
structure Absorbs (feed : List α) (holds holds' : κ → α → Prop) : Prop where
  listed : ∀ {k a}, last key feed k = some a → holds' k a
  unlisted : ∀ {k a}, last key feed k = none → holds k a → holds' k a

section History

variable {τ : Type w} [LinearOrder τ]

/-- A source of keyed items that change in time. -/
structure History (α : Type u) (κ : Type v) (τ : Type w) [LinearOrder τ] where
  shown : τ → κ → Option α
  /-- when the item was last changed -/
  stamp : α → τ
  /-- what is new at `t` was changed since `s` -/
  stamped : ∀ {s t k a}, s ≤ t → shown t k = some a → shown s k ≠ some a → s ≤ stamp a

variable (history : History α κ τ) {s t : τ} {window : τ → Prop}
  {holds holds' : κ → α → Prop}

variable (key) in
/-- A feed that was read from `t` on: each of its items was shown then or later. -/
def History.Read (t : τ) (feed : List α) : Prop :=
  ∀ a ∈ feed, ∃ u, t ≤ u ∧ history.shown u (key a) = some a

variable (key) in
/-- A crawl that began at `t`: no product that was there when it began and changed within the
window is left out. -/
structure History.Crawl (window : τ → Prop) (t : τ) (feed : List α) : Prop where
  read : history.Read key t feed
  complete : ∀ {k a}, history.shown t k = some a → window (history.stamp a) →
    ∃ b ∈ feed, key b = k

/-- What the mirror holds of each item that was there at `t` was shown at `t` or later. -/
def History.Fresh (t : τ) (holds : κ → α → Prop) : Prop :=
  ∀ k a, history.shown t k = some a → ∃ u b, t ≤ u ∧ history.shown u k = some b ∧ holds k b

variable {history}

theorem History.Read.fresh_at (read : history.Read key t feed)
    (absorbs : Absorbs key feed holds holds') {b : α} (mem : b ∈ feed) :
    ∃ u c, t ≤ u ∧ history.shown u (key b) = some c ∧ holds' (key b) c := by
  cases found : last key feed (key b) with
  | none => exact absurd rfl (last_eq_none_iff.mp found b mem)
  | some c =>
      obtain ⟨mem', own⟩ := mem_of_last found
      obtain ⟨u, later, shown⟩ := read c mem'
      exact ⟨u, c, later, own ▸ shown, absorbs.listed found⟩

/-- A feed that was read later takes nothing away, however much it leaves out. -/
theorem History.Fresh.absorbs_read (fresh : history.Fresh s holds) (later : s ≤ t)
    (read : history.Read key t feed) (absorbs : Absorbs key feed holds holds') :
    history.Fresh s holds' := by
  intro k a shown
  by_cases listed : ∃ b ∈ feed, key b = k
  · obtain ⟨b, mem, rfl⟩ := listed
    obtain ⟨u, c, after, found⟩ := read.fresh_at absorbs mem
    exact ⟨u, c, later.trans after, found⟩
  · obtain ⟨u, b, after, shown', holding⟩ := fresh k a shown
    have none_ : last key feed k = none :=
      last_eq_none_iff.mpr fun b mem same => listed ⟨b, mem, same⟩
    exact ⟨u, b, after, shown', absorbs.unlisted none_ holding⟩

/-- A window that reaches back to a time the mirror was fresh at loses nothing. -/
theorem History.Fresh.absorbs (fresh : history.Fresh s holds) (later : s ≤ t)
    (wide : ∀ u, s ≤ u → window u) (crawl : history.Crawl key window t feed)
    (absorbs : Absorbs key feed holds holds') : history.Fresh t holds' := by
  intro k a shown
  by_cases listed : ∃ b ∈ feed, key b = k
  · obtain ⟨b, mem, rfl⟩ := listed
    exact crawl.read.fresh_at absorbs mem
  · -- the item did not change since `s`, so it was there then, and nothing came after it
    have old : ∀ u, s ≤ u → u ≤ t → history.shown u k = some a := by
      intro u after before
      by_contra new
      exact listed (crawl.complete shown (wide _ (le_trans after (history.stamped before shown new))))
    obtain ⟨u, b, after, shown', holding⟩ := fresh k a (old s le_rfl later)
    have none_ : last key feed k = none :=
      last_eq_none_iff.mpr fun b mem same => listed ⟨b, mem, same⟩
    rcases le_total t u with next | before
    · exact ⟨u, b, next, shown', absorbs.unlisted none_ holding⟩
    · rw [old u after before, Option.some.injEq] at shown'
      exact ⟨t, a, le_rfl, shown, absorbs.unlisted none_ (shown' ▸ holding)⟩

/-- A crawl with no window makes any mirror fresh. -/
theorem History.Crawl.fresh_of_full (crawl : history.Crawl key window t feed)
    (wide : ∀ u, window u) (absorbs : Absorbs key feed holds holds') : history.Fresh t holds' := by
  intro k a shown
  obtain ⟨b, mem, rfl⟩ := crawl.complete shown (wide _)
  exact crawl.read.fresh_at absorbs mem

end History

end KeyedFeed
