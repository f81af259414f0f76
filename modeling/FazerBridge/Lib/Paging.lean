import Mathlib.Data.List.Infix
import Mathlib.Order.Basic
import Mathlib.Tactic.Common

/-!
# Loops over pages

A loop asks for a page in a state, yields what is on it, and goes on in the next state,
stops or fails; `walk` is the loop on a bounded number of turns.

Two rules are about honest servers: a chain of pages, and a list cut into pages of one
size, are walked to their end (`Leads.walk`, `Cuts.walk`).  A third is about a list that
changes while it is read, over calls that may fail: a loop that ended by itself missed
nothing, as long as the list only grew at its end (`Lists.walk`).  Against any server, a loop
whose every turn lowers a measure ends (`Lowers.walk_ends`).
-/

universe u v w

/-- What a loop does after a page. -/
inductive Onward (S E : Type u)
  | go (next : S)
  | stop
  | fail (error : E)

/-- What a turn makes of the answer: what it yields, and how the loop goes on. -/
structure Turn (S A E : Type u) where
  yields : List A
  onward : Onward S E

/-- A turn that was made, in its state and its world. -/
structure Turned (S A W : Type u) where
  state : S
  world : W
  yields : List A

inductive Halt (E : Type u)
  | done
  | failed (error : E)
  /-- the turns did not suffice -/
  | unfinished

/-- The turns of a loop, in their order, and how it ended. -/
structure Walk (S A E W : Type u) where
  turns : List (Turned S A W)
  halt : Halt E
  world : W

namespace Walk

variable {S A E W : Type u}

def yielded (walk : Walk S A E W) : List A := walk.turns.flatMap Turned.yields

/-- The states in which the loop asked for a page. -/
def asked (walk : Walk S A E W) : List S := walk.turns.map Turned.state

/-- After one more turn at the front. -/
def after (turned : Turned S A W) (walk : Walk S A E W) : Walk S A E W :=
  { walk with turns := turned :: walk.turns }

@[simp]
theorem yielded_after (turned : Turned S A W) (walk : Walk S A E W) :
    (walk.after turned).yielded = turned.yields ++ walk.yielded := by
  simp [yielded, after]

@[simp]
theorem asked_after (turned : Turned S A W) (walk : Walk S A E W) :
    (walk.after turned).asked = turned.state :: walk.asked := rfl

@[simp]
theorem halt_after (turned : Turned S A W) (walk : Walk S A E W) :
    (walk.after turned).halt = walk.halt := rfl

end Walk

namespace Paging

variable {S A E W : Type u}

/-- The loop, on so many turns. -/
def walk (turn : S → W → Turn S A E × W) : ℕ → S → W → Walk S A E W
  | 0, _, w => ⟨[], .unfinished, w⟩
  | fuel + 1, s, w =>
    let (made, w') := turn s w
    match made.onward with
    | .go next => (walk turn fuel next w').after ⟨s, w, made.yields⟩
    | .stop => ⟨[⟨s, w, made.yields⟩], .done, w'⟩
    | .fail error => ⟨[⟨s, w, made.yields⟩], .failed error, w'⟩

variable {turn : S → W → Turn S A E × W} {s next : S} {w : W}

theorem walk_go (fuel : ℕ) (go : (turn s w).1.onward = .go next) :
    walk turn (fuel + 1) s w =
      (walk turn fuel next (turn s w).2).after ⟨s, w, (turn s w).1.yields⟩ := by
  rw [walk]
  simp only [go]

theorem walk_stop (fuel : ℕ) (stop : (turn s w).1.onward = .stop) :
    walk turn (fuel + 1) s w = ⟨[⟨s, w, (turn s w).1.yields⟩], .done, (turn s w).2⟩ := by
  rw [walk]
  simp only [stop]

theorem walk_fail (fuel : ℕ) {error : E} (fail : (turn s w).1.onward = .fail error) :
    walk turn (fuel + 1) s w = ⟨[⟨s, w, (turn s w).1.yields⟩], .failed error, (turn s w).2⟩ := by
  rw [walk]
  simp only [fail]

/-- The yields of every turn are those of the answer it got. -/
theorem yields_of_mem {fuel : ℕ} {turned : Turned S A W}
    (mem : turned ∈ (walk turn fuel s w).turns) :
    turned.yields = (turn turned.state turned.world).1.yields := by
  induction fuel generalizing s w with
  | zero => cases mem
  | succ fuel ih =>
      cases onward : (turn s w).1.onward with
      | go next =>
          rw [walk_go fuel onward] at mem
          rcases List.mem_cons.mp mem with rfl | mem
          · rfl
          · exact ih mem
      | stop =>
          rw [walk_stop fuel onward] at mem
          rw [List.mem_singleton.mp mem]
      | fail error =>
          rw [walk_fail fuel onward] at mem
          rw [List.mem_singleton.mp mem]

/-- What every turn keeps of the world, the loop keeps, with what is so of every yield. -/
theorem walk_keeps {Inv : W → Prop} {P : A → Prop}
    (step : ∀ s w, Inv w → Inv (turn s w).2 ∧ ∀ a ∈ (turn s w).1.yields, P a) (fuel : ℕ) (s : S)
    {w : W} (inv : Inv w) :
    Inv (walk turn fuel s w).world ∧ ∀ a ∈ (walk turn fuel s w).yielded, P a := by
  induction fuel generalizing s w with
  | zero => exact ⟨inv, fun a mem => by cases mem⟩
  | succ fuel ih =>
      obtain ⟨kept, yields⟩ := step s w inv
      have last : ∀ halt : Halt E, ∀ a ∈ (⟨[⟨s, w, (turn s w).1.yields⟩], halt, (turn s w).2⟩ :
          Walk S A E W).yielded, P a := by
        intro halt a mem
        exact yields a (by simpa [Walk.yielded] using mem)
      cases onward : (turn s w).1.onward with
      | go next =>
          rw [walk_go fuel onward]
          obtain ⟨kept', yields'⟩ := ih next kept
          refine ⟨kept', fun a mem => ?_⟩
          rw [Walk.yielded_after] at mem
          exact (List.mem_append.mp mem).elim (yields a) (yields' a)
      | stop =>
          rw [walk_stop fuel onward]
          exact ⟨kept, last .done⟩
      | fail error =>
          rw [walk_fail fuel onward]
          exact ⟨kept, last (.failed error)⟩

/-! ## A server that hands out a chain of pages -/

/-- From the state on, the pages hold `items` and the last of so many turns stops. -/
inductive Leads (turn : S → W → Turn S A E × W) : ℕ → S → List A → Prop
  | last {s : S} {chunk : List A} :
    (∀ w, (turn s w).1 = ⟨chunk, .stop⟩) → Leads turn 1 s chunk
  | more {turns : ℕ} {s next : S} {chunk rest : List A} :
    (∀ w, (turn s w).1 = ⟨chunk, .go next⟩) → Leads turn turns next rest →
      Leads turn (turns + 1) s (chunk ++ rest)

/-- The loop yields the whole chain, in its order, and stops. -/
theorem Leads.walk {turns fuel : ℕ} {items : List A} (leads : Leads turn turns s items)
    (enough : turns ≤ fuel) (w : W) :
    (Paging.walk turn fuel s w).yielded = items ∧ (Paging.walk turn fuel s w).halt = .done := by
  induction leads generalizing fuel w with
  | @last s chunk answers =>
      obtain ⟨fuel, rfl⟩ := Nat.exists_eq_add_of_le' enough
      have stop : (turn s w).1.onward = .stop := by rw [answers]
      rw [walk_stop fuel stop, answers]
      exact ⟨List.append_nil chunk, rfl⟩
  | @more turns s next chunk rest answers leads ih =>
      obtain ⟨fuel, rfl⟩ := Nat.exists_eq_add_of_le' (Nat.le_of_add_left_le enough)
      have go : (turn s w).1.onward = .go next := by rw [answers]
      obtain ⟨yields, done⟩ := ih (Nat.le_of_succ_le_succ enough) (turn s w).2
      rw [walk_go fuel go, answers, Walk.yielded_after, Walk.halt_after]
      exact ⟨congrArg (chunk ++ ·) yields, done⟩

/-! ## A server that cuts a list into pages -/

/-- A turn yields its page, and goes on to the next one only while the page is full; a loop
for all pages stops only when nothing is left. -/
def Cut (all : Prop) (state : ℕ → S) (size : ℕ) (items : List A) (page : ℕ)
    (made : Turn S A E) : Prop :=
  made.yields = (items.drop (page * size)).take size ∧
    (made.onward = .go (state (page + 1)) ∧ (page + 1) * size ≤ items.length ∨
      made.onward = .stop ∧ (all → items.length ≤ (page + 1) * size))

/-- Whenever it is asked for a page, the server cuts it from one list. -/
def Cuts (turn : S → W → Turn S A E × W) (state : ℕ → S) (size : ℕ) (items : List A) : Prop :=
  ∀ page w, Cut True state size items page (turn (state page) w).1

/-- The loop yields the rest of the list, in its order, and stops. -/
theorem Cuts.walk {state : ℕ → S} {size : ℕ} {items : List A} (cuts : Cuts turn state size items)
    (pos : 0 < size) (page : ℕ) {fuel : ℕ} (enough : items.length - page * size < fuel)
    (w : W) :
    (Paging.walk turn fuel (state page) w).yielded = items.drop (page * size) ∧
      (Paging.walk turn fuel (state page) w).halt = .done := by
  induction fuel generalizing page w with
  | zero => exact absurd enough (Nat.not_lt_zero _)
  | succ fuel ih =>
      have next_page : (page + 1) * size = page * size + size := Nat.succ_mul page size
      obtain ⟨yields, ⟨go, full⟩ | ⟨stop, last⟩⟩ := cuts page w
      · obtain ⟨rest, done⟩ := ih (page + 1) (by omega) (turn (state page) w).2
        rw [walk_go fuel go, Walk.yielded_after, Walk.halt_after]
        refine ⟨?_, done⟩
        calc (turn (state page) w).1.yields ++ (Paging.walk turn fuel (state (page + 1)) _).yielded
            = (items.drop (page * size)).take size ++ (items.drop (page * size)).drop size := by
              rw [yields, rest, List.drop_drop, next_page]
          _ = items.drop (page * size) := List.take_append_drop size _
      · have short : (items.drop (page * size)).length ≤ size := by
          have last := last trivial
          rw [List.length_drop]
          omega
        rw [walk_stop fuel stop]
        refine ⟨?_, rfl⟩
        calc [(turn (state page) w).1.yields].flatten = (turn (state page) w).1.yields :=
              List.append_nil _
          _ = items.drop (page * size) := by rw [yields, List.take_of_length_le short]

/-! ## A list that changes while it is read -/

section Changing

variable {τ : Type v} [Preorder τ] {κ : Type w}

/-- Under an invariant, what a turn gets is a page of what is listed at some time of the turn,
unless it fails. -/
structure Lists (turn : S → W → Turn S A E × W) (all : Prop) (state : ℕ → S) (size : ℕ)
    (Inv : W → Prop) (time : W → τ) (listing : τ → List A) : Prop where
  keeps : ∀ page {w}, Inv w → Inv (turn (state page) w).2
  answers : ∀ page {w}, Inv w → ∃ t, time w ≤ t ∧ t ≤ time (turn (state page) w).2 ∧
    ((∃ error, (turn (state page) w).1.onward = .fail error) ∨
      Cut all state size (listing t) page (turn (state page) w).1)

variable {all : Prop} {state : ℕ → S} {size : ℕ} {Inv : W → Prop} {time : W → τ}
  {listing : τ → List A}

/-- Time goes on. -/
theorem Lists.le (lists : Lists turn all state size Inv time listing) (inv : Inv w) (page : ℕ) :
    time w ≤ time (turn (state page) w).2 := by
  obtain ⟨t, after, before, -⟩ := lists.answers page inv
  exact after.trans before

/-- A key of a list that grew is on the page, or after it. -/
theorem mem_page_or_rest {key : A → κ} {before after : List A} {a : A} {page : ℕ}
    (grown : before.map key <+: after.map key) (mem : a ∈ before.drop (page * size)) :
    key a ∈ ((after.drop (page * size)).take size).map key ∨
      key a ∈ (after.drop ((page + 1) * size)).map key := by
  have there : key a ∈ (before.map key).drop (page * size) := by
    rw [← List.map_drop]
    exact List.mem_map_of_mem mem
  have left : key a ∈ (after.drop (page * size)).map key := by
    rw [List.map_drop]
    exact (grown.drop _).subset there
  rw [← List.take_append_drop size (after.drop (page * size)), List.map_append, List.drop_drop,
    ← Nat.succ_mul] at left
  exact List.mem_append.mp left

/-- Everything that was yielded was listed at some time; and if the list only grew at its end,
everything that was there at first was yielded, under its key. -/
theorem Lists.walk (lists : Lists turn all state size Inv time listing) (key : A → κ) (page : ℕ)
    {fuel : ℕ} (inv : Inv w) (done : (Paging.walk turn fuel (state page) w).halt = .done) :
    let walked := Paging.walk turn fuel (state page) w
    Inv walked.world ∧ time w ≤ time walked.world ∧
      (∀ a ∈ walked.yielded, ∃ t, time w ≤ t ∧ t ≤ time walked.world ∧ a ∈ listing t) ∧
      (all → (∀ t u, time w ≤ t → t ≤ u → u ≤ time walked.world →
          (listing t).map key <+: (listing u).map key) →
        ∀ a ∈ (listing (time w)).drop (page * size), ∃ b ∈ walked.yielded, key b = key a) := by
  induction fuel generalizing page w with
  | zero => cases done
  | succ fuel ih =>
      obtain ⟨t, after, before, failed | ⟨yields, onward⟩⟩ := lists.answers page inv
      · obtain ⟨error, fail⟩ := failed
        rw [walk_fail fuel fail] at done
        cases done
      · have kept := lists.keeps page inv
        have listed : ∀ a ∈ (turn (state page) w).1.yields, a ∈ listing t := by
          intro a mem
          rw [yields] at mem
          exact List.mem_of_mem_drop (List.mem_of_mem_take mem)
        rcases onward with ⟨go, full⟩ | ⟨stop, last⟩
        · rw [walk_go fuel go] at done ⊢
          obtain ⟨kept, later, sound, complete⟩ := ih (page + 1) kept done
          refine ⟨kept, (lists.le inv page).trans later, fun a mem => ?_, fun every grown a mem => ?_⟩
          · rw [Walk.yielded_after] at mem
            rcases List.mem_append.mp mem with first | rest
            · exact ⟨t, after, before.trans later, listed a first⟩
            · obtain ⟨u, after', before', mem⟩ := sound a rest
              exact ⟨u, (lists.le inv page).trans after', before', mem⟩
          · rw [Walk.yielded_after]
            have rest := complete every fun t u after' le before' =>
              grown t u ((lists.le inv page).trans after') le before'
            rcases mem_page_or_rest (grown _ _ le_rfl after (before.trans later)) mem with first | left
            · obtain ⟨b, mem, same⟩ := List.mem_map.mp first
              exact ⟨b, List.mem_append_left _ (yields ▸ mem), same⟩
            · have left : key a ∈ ((listing (time (turn (state page) w).2)).drop
                  ((page + 1) * size)).map key := by
                rw [List.map_drop] at left ⊢
                exact ((grown _ _ after before later).drop _).subset left
              obtain ⟨b, mem, same⟩ := List.mem_map.mp left
              obtain ⟨c, yielded, same'⟩ := rest b mem
              exact ⟨c, List.mem_append_right _ yielded, same'.trans same⟩
        · rw [walk_stop fuel stop]
          have mem_yielded : ∀ a, a ∈ (⟨[⟨state page, w, (turn (state page) w).1.yields⟩],
              .done, (turn (state page) w).2⟩ : Walk S A E W).yielded ↔
                a ∈ (turn (state page) w).1.yields := by
            simp [Walk.yielded]
          refine ⟨kept, lists.le inv page, fun a mem => ?_, fun every grown a mem => ?_⟩
          · exact ⟨t, after, before, listed a ((mem_yielded a).mp mem)⟩
          · have nothing : (listing t).drop ((page + 1) * size) = [] :=
              List.drop_eq_nil_of_le (last every)
            rcases mem_page_or_rest (grown _ _ le_rfl after before) mem with first | left
            · obtain ⟨b, mem, same⟩ := List.mem_map.mp first
              exact ⟨b, (mem_yielded b).mpr (yields ▸ mem), same⟩
            · rw [nothing] at left
              cases left

end Changing

/-! ## Any server -/

/-- What holds in the first state and what a turn keeps holds in every state the loop asks
in; and two of these stand as a turn and what came before relate them. -/
theorem asked_spec {Inv : S → Prop} {T : S → S → Prop}
    (trans : ∀ {s t u}, T s t → T t u → T s u)
    (step : ∀ {s w next}, Inv s → (turn s w).1.onward = .go next → Inv next ∧ T s next)
    (fuel : ℕ) (start : Inv s) (w : W) :
    (∀ t ∈ (walk turn fuel s w).asked, Inv t) ∧ (walk turn fuel s w).asked.Pairwise T ∧
      ∀ t ∈ (walk turn fuel s w).asked, t = s ∨ T s t := by
  induction fuel generalizing s w with
  | zero => simp [walk, Walk.asked]
  | succ fuel ih =>
      have alone : (∀ t ∈ [s], Inv t) ∧ [s].Pairwise T ∧ ∀ t ∈ [s], t = s ∨ T s t :=
        ⟨fun t mem => List.mem_singleton.mp mem ▸ start, List.pairwise_singleton T s,
          fun t mem => .inl (List.mem_singleton.mp mem)⟩
      cases onward : (turn s w).1.onward with
      | go next =>
          obtain ⟨kept, related⟩ := step start onward
          obtain ⟨every, pairwise, later⟩ := ih kept (turn s w).2
          have ahead : ∀ t ∈ (walk turn fuel next (turn s w).2).asked, T s t := by
            intro t mem
            rcases later t mem with rfl | after
            · exact related
            · exact trans related after
          rw [walk_go fuel onward, Walk.asked_after]
          refine ⟨?_, List.pairwise_cons.mpr ⟨ahead, pairwise⟩, ?_⟩
          · intro t mem
            rcases List.mem_cons.mp mem with rfl | mem
            · exact start
            · exact every t mem
          · intro t mem
            rcases List.mem_cons.mp mem with rfl | mem
            · exact .inl rfl
            · exact .inr (ahead t mem)
      | stop =>
          rw [walk_stop fuel onward]
          exact alone
      | fail error =>
          rw [walk_fail fuel onward]
          exact alone

/-- A turn keeps the invariant and lowers the measure. -/
structure Lowers (turn : S → W → Turn S A E × W) (Inv : S → Prop) (measure : S → ℕ) : Prop where
  inv : ∀ {s w next}, Inv s → (turn s w).1.onward = .go next → Inv next
  lower : ∀ {s w next}, Inv s → (turn s w).1.onward = .go next → measure next < measure s

/-- Whatever the server answers, the loop ends, and asks no more often than the measure
says. -/
theorem Lowers.walk_ends {Inv : S → Prop} {measure : S → ℕ} (lowers : Lowers turn Inv measure)
    (fuel : ℕ) (start : Inv s) (enough : measure s < fuel) (w : W) :
    (walk turn fuel s w).halt ≠ .unfinished ∧
      (walk turn fuel s w).asked.length ≤ measure s + 1 := by
  induction fuel generalizing s w with
  | zero => exact absurd enough (Nat.not_lt_zero _)
  | succ fuel ih =>
      cases onward : (turn s w).1.onward with
      | go next =>
          have lower := lowers.lower start onward
          obtain ⟨ends, few⟩ := ih (lowers.inv start onward)
            (Nat.lt_of_lt_of_le lower (Nat.le_of_lt_succ enough)) (turn s w).2
          rw [walk_go fuel onward, Walk.halt_after, Walk.asked_after]
          exact ⟨ends, Nat.succ_le_succ (Nat.le_trans few lower)⟩
      | stop =>
          rw [walk_stop fuel onward]
          refine ⟨?_, Nat.le_add_left 1 _⟩
          intro unfinished
          cases unfinished
      | fail error =>
          rw [walk_fail fuel onward]
          refine ⟨?_, Nat.le_add_left 1 _⟩
          intro unfinished
          cases unfinished

end Paging
