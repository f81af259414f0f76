import FazerBridge.FazerCards
import FazerBridge.Lib.Paging
import Mathlib.Data.Finset.Card

/-!
# The lists of the supplier

`_paged` of `app/suppliers/fazercards.py`.  The cursor is the server's; a set of the
cursors so far is all that keeps the loop from going in a circle, and the measure is what
this set still lacks (`paged_ends`).
-/

namespace FazerBridge

/-- What a set keeps a value under. -/
inductive Hashed (N : Type)
  | none
  /-- a number, or the truth value equal to it -/
  | number (value : N)
  | text (text : String)
  deriving DecidableEq, Repr

/-- The value of a parameter of a GET. -/
inductive Param
  | int (value : ℕ)
  | value (json : Json)
  deriving Repr

abbrev Params := List (String × Param)

/-- The adapter with what its lists need. -/
structure ListingAdapter (W N : Type) extends FazerCardsAdapter W where
  /-- `client.get`; a body without content is `None` -/
  get : String → Params → W → Except Exn Json × W
  /-- what a number of JSON is equal to -/
  number : String → N

/-- Where `_paged` is: its cursor, and the cursors it has seen. -/
structure PagedState (N : Type) where
  cursor : Option Json
  seen : List (Hashed N)

namespace ListingAdapter

variable {W N : Type} [DecidableEq N] (adapter : ListingAdapter W N)

def apiPrefix : String := "/api/v2"

def pageSize : ℕ := 200

omit [DecidableEq N] in
/-- `hash(value)`; a list or a dict cannot be hashed. -/
def hash : Json → Option (Hashed N)
  | .null => some .none
  | .bool value => some (.number (adapter.number (if value then "1" else "0")))
  | .number text => some (.number (adapter.number text))
  | .string text => some (.text text)
  | .array _ | .object _ => none

def params (cursor : Option Json) : Params :=
  ("limit", .int pageSize) :: (cursor.map fun cursor => ("cursor", Param.value cursor)).toList

/-- How the loop goes on after a body. -/
def onward (seen : List (Hashed N)) (body : List (String × Json)) :
    Onward (PagedState N) SupplierError :=
  match (Json.get body "meta").or (.object []) with
  | .object page =>
    let next := Json.get page "next_cursor"
    if (Json.get page "has_more").truthy = false ∨ next.truthy = false then .stop
    else
      match adapter.hash next with
      | none => .fail (.exn (.other "TypeError: unhashable type"))
      | some key => if key ∈ seen then .stop else .go ⟨some next, key :: seen⟩
  | value => .fail (.exn (.other
      ("AttributeError: " ++ value.typeName ++ " object has no attribute get")))

/-- What a turn makes of an answer. -/
def read (path key : String) (seen : List (Hashed N)) (answer : Except Exn Json) :
    Turn (PagedState N) Json SupplierError :=
  match answer with
  | .error e => ⟨[], .fail (.exn e)⟩
  | .ok payload =>
    match adapter.unwrap (some payload) ("GET " ++ path) with
    | .error e => ⟨[], .fail e⟩
    | .ok body =>
      match FazerCardsAdapter.entries ((Json.get body key).or (.array [])) with
      | none => ⟨[], .fail (.exn (.other "TypeError: object is not iterable"))⟩
      | some items => ⟨items, adapter.onward seen body⟩

def turn (path key : String) (s : PagedState N) (w : W) :
    Turn (PagedState N) Json SupplierError × W :=
  let (answer, w) := adapter.get (apiPrefix ++ path) (params s.cursor) w
  (adapter.read path key s.seen answer, w)

/-- Walk a cursor-paginated list endpoint: `_paged`, on so many requests. -/
def paged (path key : String) (fuel : ℕ) (w : W) : Walk (PagedState N) Json SupplierError W :=
  Paging.walk (adapter.turn path key) fuel ⟨none, []⟩ w

/-! ## Any server -/

/-- The cursor a payload names next, if it names one that a set can keep. -/
def nextCursor (payload : Json) : Option (Hashed N) :=
  match payload with
  | .object body =>
    match (Json.get body "meta").or (.object []) with
    | .object page => adapter.hash (Json.get page "next_cursor")
    | _ => none
  | _ => none

/-- The items on the page of an answer. -/
def itemsOf (path key : String) (answer : Except Exn Json) : List Json :=
  match answer with
  | .error _ => []
  | .ok payload =>
    match adapter.unwrap (some payload) ("GET " ++ path) with
    | .error _ => []
    | .ok body => (FazerCardsAdapter.entries ((Json.get body key).or (.array []))).getD []

variable {adapter} {path key : String}

/-- An answer yields its items, whatever was seen before it. -/
theorem yields_read (seen : List (Hashed N)) (answer : Except Exn Json) :
    (adapter.read path key seen answer).yields = adapter.itemsOf path key answer := by
  unfold itemsOf read
  cases answer with
  | error e => rfl
  | ok payload =>
      cases unwrapped : adapter.unwrap (some payload) ("GET " ++ path) with
      | error e => simp only [unwrapped]
      | ok body =>
          simp only [unwrapped]
          cases FazerCardsAdapter.entries ((Json.get body key).or (.array [])) with
          | none => rfl
          | some items => rfl

omit [DecidableEq N] in
/-- What is unwrapped was an object. -/
theorem unwrap_ok {payload : Json} {context : String} {body : List (String × Json)}
    (read : adapter.unwrap (some payload) context = .ok body) : payload = .object body := by
  unfold FazerCardsAdapter.unwrap at read
  cases payload with
  | object fields =>
      simp only [Option.getD_some] at read
      split at read
      · exfalso
        revert read
        cases terminalCodes.lookup (adapter.refusalCode fields) with
        | none => simp
        | some error => simp
      · cases read
        rfl
  | null | bool | number | string | array => cases read

/-- The loop goes on only with a cursor of the answer that it has not seen. -/
theorem go_read {seen : List (Hashed N)} {answer : Except Exn Json} {next : PagedState N}
    (go : (adapter.read path key seen answer).onward = .go next) :
    ∃ payload cursor new, answer = .ok payload ∧ adapter.nextCursor payload = some new ∧
      adapter.hash cursor = some new ∧ new ∉ seen ∧ next = ⟨some cursor, new :: seen⟩ := by
  unfold read at go
  cases answer with
  | error e => cases go
  | ok payload =>
      cases unwrapped : adapter.unwrap (some payload) ("GET " ++ path) with
      | error e =>
          simp only [unwrapped] at go
          cases go
      | ok body =>
          have object := unwrap_ok unwrapped
          subst object
          simp only [unwrapped] at go
          cases entries : FazerCardsAdapter.entries ((Json.get body key).or (.array [])) with
          | none =>
              simp only [entries] at go
              cases go
          | some items =>
              simp only [entries, onward] at go
              cases meta_ : (Json.get body "meta").or (.object []) with
              | object page =>
                  simp only [meta_] at go
                  split at go
                  · cases go
                  · cases hashed : adapter.hash (Json.get page "next_cursor") with
                    | none =>
                        simp only [hashed] at go
                        cases go
                    | some new =>
                        simp only [hashed] at go
                        split at go
                        · cases go
                        · rename_i fresh
                          cases go
                          refine ⟨_, _, new, rfl, ?_, hashed, fresh, rfl⟩
                          simp only [nextCursor, meta_, hashed]
              | null | bool | number | string | array =>
                  simp only [meta_] at go
                  cases go

/-- The cursor of a request, as a set keeps it. -/
def cursorKey (adapter : ListingAdapter W N) (s : PagedState N) : Option (Hashed N) :=
  s.cursor.bind adapter.hash

/-- The cursors seen are different ones of `C`, and the one of the request is one of them. -/
structure SeenOf (adapter : ListingAdapter W N) (C : Finset (Hashed N)) (s : PagedState N) :
    Prop where
  nodup : s.seen.Nodup
  within : ∀ key ∈ s.seen, key ∈ C
  current : ∀ key, adapter.cursorKey s = some key → key ∈ s.seen

/-- The later request has a cursor that was not seen at the earlier one. -/
def Later (adapter : ListingAdapter W N) (earlier later : PagedState N) : Prop :=
  earlier.seen ⊆ later.seen ∧ ∃ new, adapter.cursorKey later = some new ∧ new ∉ earlier.seen

omit [DecidableEq N] in
/-- A later state of a later one is later. -/
theorem Later.trans {s t u : PagedState N} (first : adapter.Later s t) (second : adapter.Later t u) :
    adapter.Later s u := by
  obtain ⟨new, current, fresh⟩ := second.2
  exact ⟨List.Subset.trans first.1 second.1, new, current, fun mem => fresh (first.1 mem)⟩

/-- All cursors the server ever names are of `C`. -/
def DrawnFrom (adapter : ListingAdapter W N) (path : String) (C : Finset (Hashed N)) : Prop :=
  ∀ params w payload, (adapter.get (apiPrefix ++ path) params w).1 = .ok payload →
    ∀ key, adapter.nextCursor payload = some key → key ∈ C

/-- A request that goes on has seen one more cursor. -/
theorem step_turn {C : Finset (Hashed N)} (drawn : adapter.DrawnFrom path C)
    {s next : PagedState N} {w : W} (seen : adapter.SeenOf C s)
    (go : (adapter.turn path key s w).1.onward = .go next) :
    adapter.SeenOf C next ∧ adapter.Later s next ∧ next.seen.length = s.seen.length + 1 := by
  obtain ⟨payload, cursor, new, answered, named, hashed, fresh, rfl⟩ := go_read go
  have key_new : adapter.cursorKey ⟨some cursor, new :: s.seen⟩ = some new := hashed
  refine ⟨⟨List.nodup_cons.mpr ⟨fresh, seen.nodup⟩, ?_, ?_⟩, ⟨?_, new, key_new, fresh⟩, rfl⟩
  · intro key mem
    rcases List.mem_cons.mp mem with rfl | mem
    · exact drawn _ w payload answered key named
    · exact seen.within key mem
  · intro key current
    rw [key_new] at current
    exact Option.some.inj current ▸ List.mem_cons_self
  · exact List.subset_cons_self new s.seen

/-- No more cursors are seen than there are. -/
theorem SeenOf.length_le {C : Finset (Hashed N)} {s : PagedState N} (seen : adapter.SeenOf C s) :
    s.seen.length ≤ C.card := by
  rw [← List.toFinset_card_of_nodup seen.nodup]
  refine Finset.card_le_card fun key mem => seen.within key (List.mem_toFinset.mp mem)

/-- Against any server whose cursors are of a finite set, the walk ends, on at most one
request more than there are cursors; no cursor is sent twice, and every page yields its
items as they are. -/
theorem paged_ends (adapter : ListingAdapter W N) (path key : String) (C : Finset (Hashed N))
    (drawn : adapter.DrawnFrom path C) (fuel : ℕ) (enough : C.card < fuel) (w : W) :
    (adapter.paged path key fuel w).halt ≠ .unfinished ∧
      (adapter.paged path key fuel w).asked.length ≤ C.card + 1 ∧
      ((adapter.paged path key fuel w).asked.filterMap adapter.cursorKey).Nodup ∧
      ∀ turned ∈ (adapter.paged path key fuel w).turns, turned.yields =
        adapter.itemsOf path key
          (adapter.get (apiPrefix ++ path) (params turned.state.cursor) turned.world).1 := by
  have start : adapter.SeenOf C ⟨none, []⟩ :=
    ⟨List.nodup_nil, fun key mem => (List.not_mem_nil mem).elim,
      fun key current => (Option.some_ne_none key current.symm).elim⟩
  have lowers : Paging.Lowers (adapter.turn path key) (adapter.SeenOf C)
      fun s => C.card - s.seen.length := by
    refine ⟨fun seen go => (step_turn drawn seen go).1, ?_⟩
    intro s w next seen go
    obtain ⟨kept, -, longer⟩ := step_turn drawn seen go
    have room := kept.length_le
    omega
  obtain ⟨ends, few⟩ := lowers.walk_ends fuel start enough w
  obtain ⟨every, pairwise, -⟩ := Paging.asked_spec (T := adapter.Later) Later.trans
    (fun seen go => ⟨(step_turn drawn seen go).1, (step_turn drawn seen go).2.1⟩) fuel start w
  refine ⟨ends, few, ?_, ?_⟩
  · have apart := pairwise.imp_of_mem (S := fun s t => ∀ one, adapter.cursorKey s = some one →
        ∀ other, adapter.cursorKey t = some other → one ≠ other) ?_
    · exact apart.filterMap adapter.cursorKey (fun s t apart => apart)
    · intro s t mem _ later one current other next same
      obtain ⟨new, named, fresh⟩ := later.2
      rw [named] at next
      cases next
      exact fresh (same ▸ (every s mem).current one current)
  · intro turned mem
    exact (Paging.yields_of_mem mem).trans (yields_read _ _)

/-- An adapter over a given `client.get`. -/
def listing (get : String → Params → W → Except Exn Json × W) : ListingAdapter W String where
  unicode := .ascii
  retry := .default
  apiKey := some "fc_test"
  loads _ := .null
  strOther _ := ""
  decimal _ := none
  reasonPhrase _ := ""
  acquire := id
  send _ _ w := (.other "", w)
  draw w := (0, w)
  sleep _ := id
  get := get
  number := id

/-- A server that goes in a circle of two cursors, with a new item each time. -/
def circling : ListingAdapter ℕ String :=
  listing fun _ _ n => (.ok (.object
    [("items", .array [.number (toString n)]),
      ("meta", .object [("has_more", .bool true),
        ("next_cursor", .string (if n % 2 = 0 then "a" else "b"))])]), n + 1)

/-- A supplier whose two cursors lead to each other is asked three times. -/
theorem circling_ends :
    circling.DrawnFrom "/giftcards" {.text "a", .text "b"} ∧
      (circling.paged "/giftcards" "items" 3 0).halt ≠ .unfinished ∧
      (circling.paged "/giftcards" "items" 3 0).asked.length ≤ 3 ∧
      ((circling.paged "/giftcards" "items" 3 0).asked.filterMap circling.cursorKey).Nodup := by
  have drawn : circling.DrawnFrom "/giftcards" {.text "a", .text "b"} := by
    intro params n payload answered key named
    cases answered
    have known : circling.nextCursor (.object
        [("items", .array [.number (toString n)]),
          ("meta", .object [("has_more", .bool true),
            ("next_cursor", .string (if n % 2 = 0 then "a" else "b"))])]) =
        some (.text (if n % 2 = 0 then "a" else "b")) := rfl
    rw [known] at named
    cases named
    split <;> simp
  obtain ⟨ends, few, different, -⟩ := paged_ends circling "/giftcards" "items"
    {.text "a", .text "b"} drawn 3 (by decide) 0
  exact ⟨drawn, ends, few, different⟩

/-! ## An honest server -/

/-- The answers to requests with the cursor: a page of `items`, and the cursor of the next
page if there is one. -/
def HandsOut (adapter : ListingAdapter W N) (path key : String) (cursor : Option Json)
    (items : List Json) (next : Option String) : Prop :=
  ∀ w, ∃ body page,
    (adapter.get (apiPrefix ++ path) (params cursor) w).1 = .ok (.object body) ∧
    body.lookup "ok" ≠ some (.bool false) ∧
    (Json.get body key).or (.array []) = .array items ∧
    (Json.get body "meta").or (.object []) = .object page ∧
    (Json.get page "has_more").truthy = next.isSome ∧
    ∀ cursor, next = some cursor → Json.get page "next_cursor" = .string cursor

/-- A chain of pages: each cursor, and the page it leads to. -/
def Chained (adapter : ListingAdapter W N) (path key : String) :
    Option Json → List Json → List (String × List Json) → Prop
  | cursor, items, [] => adapter.HandsOut path key cursor items none
  | cursor, items, link :: links =>
    adapter.HandsOut path key cursor items (some link.1) ∧
      adapter.Chained path key (some (.string link.1)) link.2 links

/-- An answer that hands out a cursor goes on to it, unless it was seen. -/
theorem read_handsOut {cursor : Option Json} {items : List Json} {next : Option String}
    (hands : adapter.HandsOut path key cursor items next) (seen : List (Hashed N)) (w : W) :
    ∃ body page, (adapter.turn path key ⟨cursor, seen⟩ w).1 = ⟨items, adapter.onward seen body⟩ ∧
      (Json.get body "meta").or (.object []) = .object page ∧
      (Json.get page "has_more").truthy = next.isSome ∧
      ∀ cursor, next = some cursor → Json.get page "next_cursor" = .string cursor := by
  obtain ⟨body, page, answered, fine, listed, paged, more, named⟩ := hands w
  refine ⟨body, page, ?_, paged, more, named⟩
  have unwrapped : adapter.unwrap (some (.object body)) ("GET " ++ path) = .ok body := by
    unfold FazerCardsAdapter.unwrap
    simp only [Option.getD_some]
    exact if_neg Bool.false_ne_true
  change adapter.read path key seen (adapter.get (apiPrefix ++ path) (params cursor) w).1 = _
  rw [answered, read]
  simp only [unwrapped, listed, FazerCardsAdapter.entries]

/-- A chain of pages with distinct cursors is read to its end. -/
theorem leads_chained {links : List (String × List Json)} {cursor : Option Json}
    {items : List Json} {seen : List (Hashed N)}
    (chained : adapter.Chained path key cursor items links)
    (nonempty : ∀ link ∈ links, link.1 ≠ "") (distinct : (links.map Prod.fst).Nodup)
    (fresh : ∀ link ∈ links, Hashed.text link.1 ∉ seen) :
    Paging.Leads (adapter.turn path key) (links.length + 1) ⟨cursor, seen⟩
      (items ++ links.flatMap Prod.snd) := by
  induction links generalizing cursor items seen with
  | nil =>
      rw [List.flatMap_nil, List.append_nil]
      refine .last fun w => ?_
      obtain ⟨body, page, turned, paged, more, -⟩ := read_handsOut chained seen w
      rw [turned, onward]
      simp only [paged, more]
      rfl
  | cons link links ih =>
      obtain ⟨hands, chained⟩ := chained
      obtain ⟨apart, distinct⟩ := List.nodup_cons.mp distinct
      have unseen : ∀ other ∈ links, Hashed.text other.1 ∉ .text link.1 :: seen := by
        intro other mem old
        rcases List.mem_cons.mp old with same | old
        · rw [← Hashed.text.inj same] at apart
          exact apart (List.mem_map_of_mem mem)
        · exact fresh other (List.mem_cons_of_mem _ mem) old
      have later := ih chained (fun other mem => nonempty other (List.mem_cons_of_mem _ mem))
        distinct unseen
      rw [List.flatMap_cons]
      refine .more (fun w => ?_) later
      obtain ⟨body, page, turned, paged, more, named⟩ := read_handsOut hands seen w
      have text : link.1 ≠ "" := nonempty link List.mem_cons_self
      have new : Hashed.text link.1 ∉ seen := fresh link List.mem_cons_self
      have full : (Json.string link.1).truthy = true := by simp [Json.truthy, text]
      rw [turned, onward]
      simp [paged, more, named link.1 rfl, full, hash, new]

end ListingAdapter

end FazerBridge
