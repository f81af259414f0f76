import FazerBridge.FazerCards.Lists
import Mathlib.Data.List.Forall2

/-!
# The lists of the store

`iter_catalog` and `list_offers` of `app/stores/g2a.py`, over what `client.get` answers.
The store cuts its records into pages by number; a page that is not full is the last, and
so is one that the total says is.  `lists_complete` is about these two and about the
supplier's `_paged`.
-/

namespace FazerBridge

namespace Json

/-- The number of a literal without point and exponent. -/
def intOf (text : String) : ℤ :=
  let value (digits : List Char) : ℕ := digits.foldl (fun n c => 10 * n + (c.toNat - 48)) 0
  match text.toList with
  | '-' :: digits => -value digits
  | digits => value digits

/-- The value, if it is an `int`; Python's truth values are. -/
def asInt : Json → Option ℤ
  | .bool value => some (if value then 1 else 0)
  | .number text =>
    if text.toList.all fun c => c = '-' || c.isDigit then some (intOf text) else none
  | .null | .string _ | .array _ | .object _ => none

/-- The text of a field of type `str | None`. -/
def asText : Json → Option Text
  | .string text => some text.toList
  | .null | .bool _ | .number _ | .array _ | .object _ => none

end Json

/-- What a `G2AAdapter` lists with. -/
structure G2AAdapter (W : Type) where
  /-- `client.get` -/
  get : String → Params → W → Except Exn Json × W
  /-- `str(value)` -/
  str : Json → String
  /-- `int(value)`, or the exception -/
  int : Json → Except Exn ℤ
  /-- `Decimal(text)`, if it is a number -/
  decimal : String → Option ℚ

/-- Where `iter_catalog` is. -/
structure CatalogState where
  page : ℕ
  seen : ℕ

namespace G2AAdapter

variable {W : Type} (adapter : G2AAdapter W)

/-- Fixed by the API, not a choice. -/
def productsPageSize : ℕ := 20

def offersPageSize : ℕ := 100

/-- `_dec` -/
def dec (value : Json) : Option ℚ :=
  match value with
  | .null | .string "" => none
  | value => adapter.decimal (adapter.str value)

def noAttribute (value : Json) : Exn :=
  .other ("AttributeError: " ++ value.typeName ++ " object has no attribute get")

/-- The dict a value is used as. -/
def fields (value : Json) : Except Exn (List (String × Json)) :=
  match value with
  | .object fields => .ok fields
  | value => .error (noAttribute value)

/-- `_parse_catalog_item` -/
def parseCatalogItem (doc : Json) : Except Exn (Option StoreCatalogItem) := do
  let doc ← fields doc
  let productId := Json.get doc "id"
  let name := Json.get doc "name"
  if productId.truthy = false ∨ name.truthy = false then return none
  let _qty ← adapter.int ((Json.get doc "qty").or (.number "0"))
  let limits ← fields ((Json.get doc "priceLimit").or (.object []))
  return some
    { productExtId := adapter.str productId
      name := (adapter.str name).toList
      region := (Json.get doc "region").asText
      platform := (Json.get doc "platform").asText
      priceLimitMin := adapter.dec (Json.get limits "min")
      priceLimitMax := adapter.dec (Json.get limits "max") }

/-- `_parse_offer` -/
def parseOffer (row : Json) : Except Exn (Option StoreOfferView) := do
  let row ← fields row
  let offerId := Json.get row "id"
  let product ← fields ((Json.get row "product").or (.object []))
  let productId := Json.get product "id"
  if offerId.truthy = false ∨ productId.truthy = false then return none
  let inventory ← fields ((Json.get row "inventory").or (.object []))
  let size ← adapter.int ((Json.get inventory "size").or (.number "0"))
  return some
    { offerExtId := adapter.str offerId
      productExtId := adapter.str productId
      price := adapter.dec (Json.get row "price")
      inventorySize := size
      status := adapter.str ((Json.get row "status").or (.string "unknown")) }

/-- The loop over the records of a page: what it yields, and what ends it early. -/
def yieldAll {A : Type} (parse : Json → Except Exn (Option A)) : List Json → List A × Option Exn
  | [] => ([], none)
  | record :: records =>
    match parse record with
    | .error e => ([], some e)
    | .ok item =>
      let (items, error) := yieldAll parse records
      (item.toList ++ items, error)

/-- `isinstance(total, int) and seen >= total` -/
def reached (total : Json) (seen : ℕ) : Prop := ∃ n, total.asInt = some n ∧ n ≤ seen

instance (total : Json) (seen : ℕ) : Decidable (reached total seen) :=
  decidable_of_iff (total.asInt.any fun n => n ≤ (seen : ℤ)) (by simp [reached, Option.any_eq_true])

/-! ## The catalogue -/

def catalogParams (updatedSince : Option String) (includeOutOfStock : Bool) (page : ℕ) : Params :=
  ("page", .int page) ::
    ("includeOutOfStock", .value (.string (if includeOutOfStock then "true" else "false"))) ::
    (updatedSince.map fun time => ("updatedAtFrom", Param.value (.string time))).toList

/-- What a turn of `iter_catalog` makes of an answer. -/
def readCatalog (maxPages : Option ℕ) (s : CatalogState) (answer : Except Exn Json) :
    Turn CatalogState StoreCatalogItem Exn :=
  match answer with
  | .error e => ⟨[], .fail e⟩
  | .ok payload =>
    match payload.or (.object []) with
    | .object body =>
      match FazerCardsAdapter.entries ((Json.get body "docs").or (.array [])) with
      | none => ⟨[], .fail (.other "TypeError: object is not iterable")⟩
      | some [] => ⟨[], .stop⟩
      | some docs =>
        match yieldAll adapter.parseCatalogItem docs with
        | (items, some e) => ⟨items, .fail e⟩
        | (items, none) =>
          let seen := s.seen + docs.length
          ⟨items,
            if reached (Json.get body "total") seen then .stop
            else if docs.length < productsPageSize then .stop
            else if ∃ cap ∈ maxPages, cap < s.page + 1 then .stop
            else .go ⟨s.page + 1, seen⟩⟩
    | value => ⟨[], .fail (noAttribute value)⟩

def catalogTurn (updatedSince : Option String) (includeOutOfStock : Bool) (maxPages : Option ℕ)
    (s : CatalogState) (w : W) : Turn CatalogState StoreCatalogItem Exn × W :=
  let (answer, w) :=
    adapter.get "/v1/products" (catalogParams updatedSince includeOutOfStock s.page) w
  (adapter.readCatalog maxPages s answer, w)

/-- `iter_catalog`, on so many requests; `updated_since` is the text it is sent as. -/
def iterCatalog (updatedSince : Option String) (includeOutOfStock : Bool) (maxPages : Option ℕ)
    (fuel : ℕ) (w : W) : Walk CatalogState StoreCatalogItem Exn W :=
  Paging.walk (adapter.catalogTurn updatedSince includeOutOfStock maxPages) fuel ⟨1, 0⟩ w

/-! ## The offers -/

def offersParams (offerType : String) (active : Option Bool) (page : ℕ) : Params :=
  ("page", .int page) :: ("itemsPerPage", .int offersPageSize) ::
    ("type[]", .value (.string offerType)) ::
    (active.map fun active =>
      ("active", Param.value (.string (if active then "true" else "false")))).toList

/-- What a turn of `list_offers` makes of an answer. -/
def readOffers (page : ℕ) (answer : Except Exn Json) : Turn ℕ StoreOfferView Exn :=
  match answer with
  | .error e => ⟨[], .fail e⟩
  | .ok payload =>
    match payload.or (.object []) with
    | .object body =>
      match FazerCardsAdapter.entries ((Json.get body "data").or (.array [])) with
      | none => ⟨[], .fail (.other "TypeError: object is not iterable")⟩
      | some rows =>
        match yieldAll adapter.parseOffer rows with
        | (views, some e) => ⟨views, .fail e⟩
        | (views, none) =>
          match (Json.get body "meta").or (.object []) with
          | .object page_ =>
            ⟨views,
              if rows.length < offersPageSize then .stop
              else if reached (Json.get page_ "totalResults") (page * offersPageSize) then .stop
              else .go (page + 1)⟩
          | value => ⟨views, .fail (noAttribute value)⟩
    | value => ⟨[], .fail (noAttribute value)⟩

def offersTurn (offerType : String) (active : Option Bool) (page : ℕ) (w : W) :
    Turn ℕ StoreOfferView Exn × W :=
  let (answer, w) := adapter.get "/v1/offers" (offersParams offerType active page) w
  (adapter.readOffers page answer, w)

/-- `list_offers`, on so many requests. -/
def listOffers (offerType : String) (active : Option Bool) (fuel : ℕ) (w : W) :
    Walk ℕ StoreOfferView Exn W :=
  Paging.walk (adapter.offersTurn offerType active) fuel 1 w

/-! ## An honest store -/

/-- The page that begins after so many pages. -/
def pageOf (size page : ℕ) (records : List Json) : List Json := (records.drop (page * size)).take size

/-- The total, if the store sends one that is an `int`. -/
def Counts (total : Json) (records : List Json) : Prop :=
  ∀ n, total.asInt = some n → n = records.length

def ServesCatalog (adapter : G2AAdapter W) (updatedSince : Option String)
    (includeOutOfStock : Bool) (records : List Json) : Prop :=
  ∀ page w, ∃ body,
    (adapter.get "/v1/products" (catalogParams updatedSince includeOutOfStock (page + 1)) w).1 =
      .ok (.object body) ∧
    (Json.get body "docs").or (.array []) = .array (pageOf productsPageSize page records) ∧
    Counts (Json.get body "total") records

def ServesOffers (adapter : G2AAdapter W) (offerType : String) (active : Option Bool)
    (records : List Json) : Prop :=
  ∀ page w, ∃ body page_,
    (adapter.get "/v1/offers" (offersParams offerType active (page + 1)) w).1 =
      .ok (.object body) ∧
    (Json.get body "data").or (.array []) = .array (pageOf offersPageSize page records) ∧
    (Json.get body "meta").or (.object []) = .object page_ ∧
    Counts (Json.get page_ "totalResults") records

/-- Every record is one, and parsed. -/
def Parses {A : Type} (parse : Json → Except Exn (Option A)) : List Json → List A → Prop :=
  List.Forall₂ fun record item => parse record = .ok (some item)

variable {adapter}

/-- Records that parse are all yielded. -/
theorem yieldAll_parses {A : Type} {parse : Json → Except Exn (Option A)} {records : List Json}
    {items : List A} (parses : Parses parse records items) :
    yieldAll parse records = (items, none) := by
  induction parses with
  | nil => rfl
  | cons parsed _ ih =>
      rw [yieldAll, parsed]
      simp only [ih]
      rfl

/-- A page of the records parses to that page of the items. -/
theorem Parses.page {A : Type} {parse : Json → Except Exn (Option A)} {records : List Json}
    {items : List A} (parses : Parses parse records items) (size page : ℕ) :
    Parses parse (pageOf size page records) ((items.drop (page * size)).take size) :=
  List.forall₂_take _ (List.forall₂_drop _ parses)

/-- A total that counts the records is only reached with all of them. -/
theorem reached_le {total : Json} {records : List Json} {seen : ℕ} (counts : Counts total records)
    (done : reached total seen) : records.length ≤ seen := by
  obtain ⟨n, known, le⟩ := done
  rw [counts n known] at le
  exact_mod_cast le

/-- The length of a page: full, or what is left. -/
theorem length_pageOf (size page : ℕ) (records : List Json) :
    (pageOf size page records).length = min size (records.length - page * size) := by
  rw [pageOf, List.length_take, List.length_drop]

theorem or_array (items : List Json) : (Json.array items).or (.array []) = .array items := by
  cases items <;> rfl

/-- The loop of `iter_catalog` before a page. -/
def catalogAt (page : ℕ) : CatalogState := ⟨page + 1, page * productsPageSize⟩

theorem or_object (fields : List (String × Json)) :
    (Json.object fields).or (.object []) = .object fields := by
  cases fields <;> rfl

/-- An answered page of the catalogue yields its items, and asks for the next page unless it is
short, the total is reached or the cap is. -/
theorem readCatalog_page {maxPages : Option ℕ} {s : CatalogState} {body : List (String × Json)}
    {docs : List Json} {items : List StoreCatalogItem}
    (listed : (Json.get body "docs").or (.array []) = .array docs)
    (parses : Parses adapter.parseCatalogItem docs items) :
    adapter.readCatalog maxPages s (.ok (.object body)) =
      ⟨items,
        if docs.length = 0 ∨ reached (Json.get body "total") (s.seen + docs.length) ∨
          docs.length < productsPageSize then .stop
        else if ∃ cap ∈ maxPages, cap < s.page + 1 then .stop
        else .go ⟨s.page + 1, s.seen + docs.length⟩⟩ := by
  rw [readCatalog]
  simp only [or_object, listed, FazerCardsAdapter.entries]
  cases parses with
  | nil => rfl
  | @cons doc item docs items parsed parses =>
      simp only [yieldAll_parses (.cons parsed parses), List.length_cons, Nat.succ_ne_zero, false_or]
      by_cases done : reached (Json.get body "total") (s.seen + (docs.length + 1))
      · rw [if_pos done, if_pos (.inl done)]
      · rw [if_neg done]
        simp only [done, false_or]

/-- A page of the catalogue; without a cap on the pages, none is left out. -/
theorem cut_catalog {maxPages : Option ℕ} {body : List (String × Json)} {records : List Json}
    {items : List StoreCatalogItem} {page : ℕ}
    (docs : (Json.get body "docs").or (.array []) = .array (pageOf productsPageSize page records))
    (counts : Counts (Json.get body "total") records)
    (parses : Parses adapter.parseCatalogItem records items) :
    Paging.Cut (maxPages = none) catalogAt productsPageSize items page
      (adapter.readCatalog maxPages (catalogAt page) (.ok (.object body))) := by
  have length := length_pageOf productsPageSize page records
  have same : records.length = items.length := parses.length_eq
  have next_page : (page + 1) * productsPageSize = page * productsPageSize + productsPageSize :=
    Nat.succ_mul page productsPageSize
  have size : 0 < productsPageSize := Nat.succ_pos 19
  rw [readCatalog_page docs (parses.page productsPageSize page)]
  refine ⟨rfl, ?_⟩
  simp only
  split
  · rename_i done
    refine .inr ⟨rfl, fun _ => ?_⟩
    rcases done with empty | done | short
    · omega
    · have all := reached_le counts done
      simp only [catalogAt] at all
      omega
    · omega
  · rename_i more
    have long := (not_or.mp (not_or.mp more).2).2
    have full : (pageOf productsPageSize page records).length = productsPageSize := by omega
    split
    · rename_i capped
      obtain ⟨cap, given, -⟩ := capped
      refine .inr ⟨rfl, fun uncapped => ?_⟩
      rw [uncapped] at given
      cases given
    · refine .inl ⟨?_, by omega⟩
      simp only [full, catalogAt, next_page]

/-- The requests of the catalogue walk its pages. -/
theorem cuts_catalog {updatedSince : Option String} {includeOutOfStock : Bool}
    {records : List Json} {items : List StoreCatalogItem}
    (serves : adapter.ServesCatalog updatedSince includeOutOfStock records)
    (parses : Parses adapter.parseCatalogItem records items) :
    Paging.Cuts (adapter.catalogTurn updatedSince includeOutOfStock none) catalogAt
      productsPageSize items := by
  intro page w
  obtain ⟨body, answered, docs, counts⟩ := serves page w
  have made : (adapter.catalogTurn updatedSince includeOutOfStock none (catalogAt page) w).1 =
      adapter.readCatalog none (catalogAt page) (.ok (.object body)) :=
    congrArg (adapter.readCatalog none (catalogAt page)) answered
  have cut : Paging.Cut _ _ _ _ _ (adapter.readCatalog none _ _) := cut_catalog docs counts parses
  obtain ⟨yields, onward⟩ := cut
  rw [made]
  exact ⟨yields, onward.imp_right fun stop => ⟨stop.1, fun _ => stop.2 rfl⟩⟩

/-- An answered page of offers yields its views, and asks for the next page unless it is short
or the total is reached. -/
theorem readOffers_page {page : ℕ} {body page_ : List (String × Json)} {rows : List Json}
    {views : List StoreOfferView} (listed : (Json.get body "data").or (.array []) = .array rows)
    (known : (Json.get body "meta").or (.object []) = .object page_)
    (parses : Parses adapter.parseOffer rows views) :
    adapter.readOffers page (.ok (.object body)) =
      ⟨views,
        if rows.length < offersPageSize ∨
          reached (Json.get page_ "totalResults") (page * offersPageSize) then .stop
        else .go (page + 1)⟩ := by
  rw [readOffers]
  simp only [or_object, listed, known, FazerCardsAdapter.entries, yieldAll_parses parses]
  by_cases short : rows.length < offersPageSize
  · rw [if_pos short, if_pos (.inl short)]
  · simp only [short, if_false, false_or]

/-- A page of the offers. -/
theorem cut_offers {body page_ : List (String × Json)} {records : List Json}
    {views : List StoreOfferView} {page : ℕ}
    (rows : (Json.get body "data").or (.array []) = .array (pageOf offersPageSize page records))
    (known : (Json.get body "meta").or (.object []) = .object page_)
    (counts : Counts (Json.get page_ "totalResults") records)
    (parses : Parses adapter.parseOffer records views) :
    Paging.Cut True Nat.succ offersPageSize views page
      (adapter.readOffers page.succ (.ok (.object body))) := by
  have length := length_pageOf offersPageSize page records
  have same : records.length = views.length := parses.length_eq
  have next_page : (page + 1) * offersPageSize = page * offersPageSize + offersPageSize :=
    Nat.succ_mul page offersPageSize
  have size : 0 < offersPageSize := Nat.succ_pos 99
  rw [readOffers_page rows known (parses.page offersPageSize page)]
  refine ⟨rfl, ?_⟩
  simp only
  split
  · rename_i done
    refine .inr ⟨rfl, fun _ => ?_⟩
    rcases done with short | done
    · omega
    · have all : records.length ≤ (page + 1) * offersPageSize := reached_le counts done
      omega
  · rename_i more
    have full := (not_or.mp more).1
    exact .inl ⟨rfl, by omega⟩

/-- The requests of the offer list walk its pages. -/
theorem cuts_offers {offerType : String} {active : Option Bool} {records : List Json}
    {views : List StoreOfferView} (serves : adapter.ServesOffers offerType active records)
    (parses : Parses adapter.parseOffer records views) :
    Paging.Cuts (adapter.offersTurn offerType active) Nat.succ offersPageSize views := by
  intro page w
  obtain ⟨body, page_, answered, rows, known, counts⟩ := serves page w
  have made : (adapter.offersTurn offerType active page.succ w).1 =
      adapter.readOffers page.succ (.ok (.object body)) :=
    congrArg (adapter.readOffers page.succ) answered
  rw [made]
  exact cut_offers rows known counts parses

end G2AAdapter

/-- Each of the three loops yields every record of an honest server once, in its order, and
stops. -/
theorem lists_complete {W N : Type} [DecidableEq N] (store : G2AAdapter W)
    (supplier : ListingAdapter W N) (w : W) :
    (∀ updatedSince includeOutOfStock records items fuel,
      store.ServesCatalog updatedSince includeOutOfStock records →
      G2AAdapter.Parses store.parseCatalogItem records items → records.length < fuel →
      (store.iterCatalog updatedSince includeOutOfStock none fuel w).yielded = items ∧
        (store.iterCatalog updatedSince includeOutOfStock none fuel w).halt = .done) ∧
    (∀ offerType active records views fuel, store.ServesOffers offerType active records →
      G2AAdapter.Parses store.parseOffer records views → records.length < fuel →
      (store.listOffers offerType active fuel w).yielded = views ∧
        (store.listOffers offerType active fuel w).halt = .done) ∧
    ∀ path key items (links : List (String × List Json)) fuel,
      supplier.Chained path key none items links → (∀ link ∈ links, link.1 ≠ "") →
      (links.map Prod.fst).Nodup → links.length < fuel →
      (supplier.paged path key fuel w).yielded = items ++ links.flatMap Prod.snd ∧
        (supplier.paged path key fuel w).halt = .done := by
  refine ⟨?_, ?_, ?_⟩
  · intro updatedSince includeOutOfStock records items fuel serves parses enough
    have size : 0 < G2AAdapter.productsPageSize := Nat.succ_pos 19
    have left : items.length - 0 * G2AAdapter.productsPageSize < fuel :=
      parses.length_eq ▸ (Nat.sub_le _ _).trans_lt enough
    have all := (G2AAdapter.cuts_catalog serves parses).walk size 0 left w
    rw [Nat.zero_mul, List.drop_zero] at all
    exact all
  · intro offerType active records views fuel serves parses enough
    have size : 0 < G2AAdapter.offersPageSize := Nat.succ_pos 99
    have left : views.length - 0 * G2AAdapter.offersPageSize < fuel :=
      parses.length_eq ▸ (Nat.sub_le _ _).trans_lt enough
    have all := (G2AAdapter.cuts_offers serves parses).walk size 0 left w
    rw [Nat.zero_mul, List.drop_zero] at all
    exact all
  · intro path key items links fuel chained nonempty distinct enough
    exact (ListingAdapter.leads_chained chained nonempty distinct
      (fun _ _ => List.not_mem_nil)).walk enough w

namespace G2AAdapter

def oneProduct : Json := .object [("id", .string "10000"), ("name", .string "Roblox 10 USD")]

def oneOffer : Json := .object [("id", .string "o1"), ("product", .object [("id", .string "10000")])]

/-- A store of two full pages of products and one offer, which sends a total for its offers
alone. -/
def twoPages : G2AAdapter Unit where
  get path params w :=
    (match params.lookup "page" with
      | some (.int page) => .ok (.object
          (if path = "/v1/products" then
            [("docs", .array (pageOf productsPageSize (page - 1) (List.replicate 40 oneProduct)))]
          else
            [("data", .array (pageOf offersPageSize (page - 1) [oneOffer])),
              ("meta", .object [("totalResults", .number "1")])]))
      | _ => .error (.other ""), w)
  str
    | .string text | .number text => text
    | _ => ""
  int
    | .number text => .ok (Json.intOf text)
    | _ => .error (.other "TypeError")
  decimal _ := none

/-- The store of two pages serves both lists page by page. -/
theorem twoPages_serves :
    twoPages.ServesCatalog none true (List.replicate 40 oneProduct) ∧
      twoPages.ServesOffers "dropshipping" none [oneOffer] := by
  refine ⟨fun page w => ⟨_, rfl, or_array _, fun n known => ?_⟩,
    fun page w => ⟨_, _, rfl, or_array _, rfl, fun n known => ?_⟩⟩
  · cases known
  · have one : Json.asInt (.number "1") = some 1 := by decide +kernel
    exact Option.some.inj (known.symm.trans one)

/-- Its records parse. -/
theorem twoPages_parses :
    Parses twoPages.parseCatalogItem (List.replicate 40 oneProduct)
      (List.replicate 40 { productExtId := "10000", name := "Roblox 10 USD".toList }) := by
  have one : twoPages.parseCatalogItem oneProduct =
      .ok (some { productExtId := "10000", name := "Roblox 10 USD".toList }) := by
    decide +kernel
  generalize 40 = n
  induction n with
  | zero => exact .nil
  | succ n ih => exact .cons one ih

end G2AAdapter

/-- A supplier of two pages. -/
def twoCursors : ListingAdapter Unit String :=
  .listing fun _ params w =>
    (.ok (.object (match params.lookup "cursor" with
      | none => [("items", .array [.number "1"]),
          ("meta", .object [("has_more", .bool true), ("next_cursor", .string "a")])]
      | some _ => [("items", .array [.number "2", .number "3"]),
          ("meta", .object [("has_more", .bool false), ("next_cursor", .null)])])), w)

/-- All forty products of it come, and its one offer. -/
theorem twoPages_complete :
    ((G2AAdapter.twoPages.iterCatalog none true none 41 ()).yielded =
        List.replicate 40 { productExtId := "10000", name := "Roblox 10 USD".toList } ∧
      (G2AAdapter.twoPages.iterCatalog none true none 41 ()).halt = .done) ∧
    ((G2AAdapter.twoPages.listOffers "dropshipping" none 2 ()).yielded =
        [⟨"o1", "10000", none, 0, "unknown"⟩] ∧
      (G2AAdapter.twoPages.listOffers "dropshipping" none 2 ()).halt = .done) ∧
    (twoCursors.paged "/giftcards" "items" 2 ()).yielded =
        [.number "1", .number "2", .number "3"] ∧
      (twoCursors.paged "/giftcards" "items" 2 ()).halt = .done := by
  obtain ⟨catalog, offers, paged⟩ := lists_complete G2AAdapter.twoPages twoCursors ()
  have parsed : G2AAdapter.twoPages.parseOffer G2AAdapter.oneOffer =
      .ok (some ⟨"o1", "10000", none, 0, "unknown"⟩) := by
    decide +kernel
  have chained : twoCursors.Chained "/giftcards" "items" none [.number "1"]
      [("a", [.number "2", .number "3"])] := by
    refine ⟨fun w => ⟨_, _, rfl, ?_, rfl, rfl, rfl, ?_⟩, fun w => ⟨_, _, rfl, ?_, rfl, rfl, rfl, ?_⟩⟩
    · intro refused
      cases refused
    · intro cursor next
      cases next
      rfl
    · intro refused
      cases refused
    · intro cursor next
      cases next
  refine ⟨catalog none true _ _ 41 G2AAdapter.twoPages_serves.1 G2AAdapter.twoPages_parses
    (by decide), offers "dropshipping" none _ _ 2 G2AAdapter.twoPages_serves.2
    (.cons parsed .nil) (by decide), ?_⟩
  exact paged "/giftcards" "items" _ _ 2 chained (by simp) (by simp) (by decide)

end FazerBridge
