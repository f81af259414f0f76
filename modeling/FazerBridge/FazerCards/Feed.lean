import FazerBridge.G2AClient.Lists

/-!
# The feed of the supplier

`iter_gift_cards`, `iter_game_keys` and `iter_products` of `app/suppliers/fazercards.py`: two
halves of a catalogue, each a listing of categories in pages, with one request for the offers
of each category before the next page is asked for.

An offer without an id or without a price that can be read is skipped, and takes no other
offer with it (`feed_complete`).
-/

namespace FazerBridge

/-- The adapter with what its feed needs. -/
structure FeedAdapter (W N : Type) extends ListingAdapter W N where
  /-- `int(value)`, or the exception -/
  int : Json → Except Exn ℤ
  /-- `Decimal(str(value))` is a NaN, which `price < 0` raises on, or an infinity, which is no
  price of an item here -/
  special : Json → Bool

/-- A half of the catalogue: where it is listed, and under which names. -/
structure Catalogue where
  kind : ProductKind
  path : String
  categoryId : String
  offersPath : String
  categoryName : String
  offers : String
  offerId : String
  /-- its categories have a region and a platform -/
  regional : Bool

def giftCards : Catalogue where
  kind := .giftCard
  path := "/giftcards"
  categoryId := "category_id"
  offersPath := "/giftcards/cards"
  categoryName := "name"
  offers := "offers"
  offerId := "card_id"
  regional := false

def gameKeys : Catalogue where
  kind := .gameKey
  path := "/gamekeys"
  categoryId := "game_id"
  offersPath := "/gamekeys/keys"
  categoryName := "GameName"
  offers := "keys"
  offerId := "key_id"
  regional := true

/-- What the offers of a category have in common.  A region is declared a text or nothing. -/
structure Category where
  id : Json
  name : Json
  region : Option Text := none
  platform : Option Text := none
  restricted : Bool := false

/-- What a generator yielded, and how it ended. -/
structure Yielded (E W : Type) where
  items : List SupplierItem
  halt : Halt E
  world : W

namespace FeedAdapter

variable {W N : Type} [DecidableEq N] (adapter : FeedAdapter W N)

def raised (exn : Exn) : SupplierError := .exn exn

/-- The dict a value is used as. -/
def fields (value : Json) : Except SupplierError (List (String × Json)) :=
  (G2AAdapter.fields value).mapError raised

/-- `(name or "").strip()` needs a text. -/
def nameText (value : Json) : Except SupplierError Text :=
  match value.or (.string "") with
  | .string text => .ok text.toList
  | value => .error (raised (.other
      ("AttributeError: " ++ value.typeName ++ " object has no attribute strip")))

omit [DecidableEq N] in
/-- `int(offer.get(key) or default)` -/
def count (offer : List (String × Json)) (key preset : String) : Except SupplierError ℤ :=
  (adapter.int ((Json.get offer key).or (.number preset))).mapError raised

omit [DecidableEq N] in
/-- The item of an offer, if it can be ordered and has a price. -/
def readOffer (catalogue : Catalogue) (category : Category) (offer : Json) :
    Except SupplierError (Option SupplierItem) := do
  let offer ← fields offer
  let offerId := Json.get offer catalogue.offerId
  if offerId.truthy = false then return none
  if adapter.special (Json.get offer "price_usd") then
    throw (raised (.other "InvalidOperation: comparison involving NaN"))
  match adapter.toDecimal (Json.get offer "price_usd") with
  | .error _ => return none
  | .ok price =>
    let categoryName ← nameText category.name
    let name ← nameText (Json.get offer "name")
    let stock ← adapter.count offer "stock" "0"
    let minOrderQuantity ← adapter.count offer "min_order_quantity" "1"
    let maxOrderQuantity ← adapter.count offer "max_order_quantity" "1"
    return some
      { kind := catalogue.kind
        categoryExtId := adapter.str category.id
        offerExtId := adapter.str offerId
        name := FazerCardsAdapter.composeName adapter.unicode (some categoryName) (some name)
        price := price
        stock := stock
        categoryName := some categoryName
        region := category.region
        platform := category.platform
        regionRestricted := category.restricted
        minOrderQuantity := minOrderQuantity
        maxOrderQuantity := maxOrderQuantity }

/-- What is said of a category, by the request for its offers or by the listing. -/
def categoryOf (catalogue : Catalogue) (body listed : List (String × Json)) : Category :=
  let stated (key : String) : Json := (Json.get body key).or (Json.get listed key)
  let category : Category :=
    { id := Json.get listed catalogue.categoryId
      name := (Json.get body catalogue.categoryName).or (Json.get listed "name") }
  if catalogue.regional then
    { category with
      region := (stated "region").asText
      platform := (stated "platform").asText
      restricted := (stated "region_restriction").truthy }
  else category

/-- A loop over values: what it yields, and what ends it early. -/
def readAll (read : Json → Except SupplierError (Option SupplierItem)) :
    List Json → List SupplierItem × Option SupplierError
  | [] => ([], none)
  | value :: values =>
    match read value with
    | .error e => ([], some e)
    | .ok item =>
      let (items, error) := readAll read values
      (item.toList ++ items, error)

omit [DecidableEq N] in
/-- What an answer to the request for the offers of a category yields. -/
def readCategory (catalogue : Catalogue) (listed : List (String × Json))
    (answer : Except Exn Json) : List SupplierItem × Option SupplierError :=
  match answer with
  | .error e => ([], some (.exn e))
  | .ok payload =>
    match adapter.unwrap (some payload) ("GET " ++ catalogue.offersPath ++ "?" ++
        catalogue.categoryId ++ "=" ++ adapter.str (Json.get listed catalogue.categoryId)) with
    | .error e => ([], some e)
    | .ok body =>
      match FazerCardsAdapter.entries ((Json.get body catalogue.offers).or (.array [])) with
      | none => ([], some (.exn (.other "TypeError: object is not iterable")))
      | some offers =>
        readAll (adapter.readOffer catalogue (categoryOf catalogue body listed)) offers

omit [DecidableEq N] in
/-- The body of the loop over the categories. -/
def visit (catalogue : Catalogue) (listed : Json) (w : W) :
    (List SupplierItem × Option SupplierError) × W :=
  match fields listed with
  | .error e => (([], some e), w)
  | .ok listed =>
    let id := Json.get listed catalogue.categoryId
    if id.truthy = false then (([], none), w)
    else
      let (answer, w) := adapter.get (ListingAdapter.apiPrefix ++ catalogue.offersPath)
        [(catalogue.categoryId, .value id)] w
      (adapter.readCategory catalogue listed answer, w)

omit [DecidableEq N] in
/-- The categories of a page. -/
def visitAll (catalogue : Catalogue) : List Json → W →
    (List SupplierItem × Option SupplierError) × W
  | [], w => (([], none), w)
  | listed :: rest, w =>
    match adapter.visit catalogue listed w with
    | ((items, some e), w) => ((items, some e), w)
    | ((items, none), w) =>
      let ((others, error), w) := visitAll catalogue rest w
      ((items ++ others, error), w)

/-- The categories of every page, before the next page is asked for; on so many pages. -/
def crawl (catalogue : Catalogue) : ℕ → PagedState N → W → Yielded SupplierError W
  | 0, _, w => ⟨[], .unfinished, w⟩
  | fuel + 1, s, w =>
    let (page, w) := adapter.turn catalogue.path "items" s w
    match adapter.visitAll catalogue page.yields w with
    | ((items, some e), w) => ⟨items, .failed e, w⟩
    | ((items, none), w) =>
      match page.onward with
      | .go next =>
        let rest := crawl catalogue fuel next w
        { rest with items := items ++ rest.items }
      | .stop => ⟨items, .done, w⟩
      | .fail e => ⟨items, .failed e, w⟩

/-- `iter_gift_cards` -/
def iterGiftCards (fuel : ℕ) (w : W) : Yielded SupplierError W :=
  adapter.crawl giftCards fuel ⟨none, []⟩ w

/-- `iter_game_keys` -/
def iterGameKeys (fuel : ℕ) (w : W) : Yielded SupplierError W :=
  adapter.crawl gameKeys fuel ⟨none, []⟩ w

/-- `iter_products` -/
def iterProducts (fuel : ℕ) (w : W) : Yielded SupplierError W :=
  let keys := adapter.iterGameKeys fuel w
  match keys.halt with
  | .done =>
    let cards := adapter.iterGiftCards fuel keys.world
    { cards with items := keys.items ++ cards.items }
  | _ => keys

/-! ## An honest supplier -/

/-- What a supplier has of a catalogue: the pages of its listing, and the offers of each
category. -/
structure Stocks where
  first : List Json
  links : List (String × List Json)
  shelves : Json → List (List (String × Json))

def Stocks.categories (stocks : Stocks) : List Json :=
  stocks.first ++ stocks.links.flatMap Prod.snd

omit [DecidableEq N] in
/-- What an offer puts on sale: under which key, and for how much. -/
def onSale (catalogue : Catalogue) (listed offer : List (String × Json)) : Option (ItemKey × ℚ) :=
  if (Json.get offer catalogue.offerId).truthy then
    (adapter.toDecimal (Json.get offer "price_usd")).toOption.map fun price =>
      ((catalogue.kind, adapter.str (Json.get listed catalogue.categoryId),
        adapter.str (Json.get offer catalogue.offerId)), price)
  else none

omit [DecidableEq N] in
/-- What a category has on sale; one without an id cannot be asked for. -/
def sold (catalogue : Catalogue) (shelves : Json → List (List (String × Json))) :
    Json → List (ItemKey × ℚ)
  | .object listed =>
    if (Json.get listed catalogue.categoryId).truthy then
      (shelves (Json.get listed catalogue.categoryId)).filterMap (adapter.onSale catalogue listed)
    else []
  | _ => []

/-- The name of an offer is a text, if it has one, its counts are numbers, and its price is not
a NaN or infinite, whatever else it is. -/
structure Proper (adapter : FeedAdapter W N) (offer : List (String × Json)) : Prop where
  price : adapter.special (Json.get offer "price_usd") = false
  name : ∃ name, nameText (Json.get offer "name") = .ok name
  stock : ∃ n, adapter.count offer "stock" "0" = .ok n
  least : ∃ n, adapter.count offer "min_order_quantity" "1" = .ok n
  most : ∃ n, adapter.count offer "max_order_quantity" "1" = .ok n

/-- The supplier lists the category as a dict and answers every request for its offers with
all of them. -/
structure Sells (adapter : FeedAdapter W N) (catalogue : Catalogue)
    (shelves : Json → List (List (String × Json))) (listed : List (String × Json)) : Prop where
  proper : ∀ offer ∈ shelves (Json.get listed catalogue.categoryId), adapter.Proper offer
  answers : (Json.get listed catalogue.categoryId).truthy = true → ∀ w, ∃ body,
    (adapter.get (ListingAdapter.apiPrefix ++ catalogue.offersPath)
        [(catalogue.categoryId, .value (Json.get listed catalogue.categoryId))] w).1 =
      .ok (.object body) ∧
    body.lookup "ok" ≠ some (.bool false) ∧
    (Json.get body catalogue.offers).or (.array []) =
      .array ((shelves (Json.get listed catalogue.categoryId)).map .object) ∧
    ∃ name, nameText (categoryOf catalogue body listed).name = .ok name

/-- The supplier hands out its listing as a chain of pages, and sells what is listed. -/
structure Serves (adapter : FeedAdapter W N) (catalogue : Catalogue) (stocks : Stocks) : Prop where
  chained : adapter.Chained catalogue.path "items" none stocks.first stocks.links
  nonempty : ∀ link ∈ stocks.links, link.1 ≠ ""
  distinct : (stocks.links.map Prod.fst).Nodup
  sells : ∀ category ∈ stocks.categories, ∃ listed, category = .object listed ∧
    adapter.Sells catalogue stocks.shelves listed

variable {adapter} {catalogue : Catalogue}

/-- The key and the price of an item. -/
def tag (item : SupplierItem) : ItemKey × ℚ := (item.key, item.price)

omit [DecidableEq N] in
/-- A proper offer never ends the feed: it is on sale, or it is skipped. -/
theorem readOffer_proper (catalogue : Catalogue) (category : Category)
    (listed : List (String × Json)) {offer : List (String × Json)}
    (proper : adapter.Proper offer) (named : ∃ name, nameText category.name = .ok name)
    (same : category.id = Json.get listed catalogue.categoryId) :
    ∃ item, adapter.readOffer catalogue category (.object offer) = .ok item ∧
      item.map tag = adapter.onSale catalogue listed offer := by
  obtain ⟨categoryName, named⟩ := named
  obtain ⟨name, nameRead⟩ := proper.name
  obtain ⟨stock, stockRead⟩ := proper.stock
  obtain ⟨least, leastRead⟩ := proper.least
  obtain ⟨most, mostRead⟩ := proper.most
  have object : fields (.object offer) = .ok offer := rfl
  unfold readOffer onSale
  simp only [object, bind, Except.bind, pure, Except.pure]
  by_cases keyed : (Json.get offer catalogue.offerId).truthy = true
  · cases priced : adapter.toDecimal (Json.get offer "price_usd") with
    | error e => exact ⟨none, by simp [keyed, proper.price, Except.toOption]⟩
    | ok price =>
        simp only [keyed, proper.price, Bool.true_eq_false, Bool.false_eq_true, if_false, if_true,
          named, nameRead, stockRead, leastRead, mostRead]
        exact ⟨_, rfl, by simp [tag, SupplierItem.key, same, Except.toOption]⟩
  · exact ⟨none, by simp [keyed]⟩

/-- A loop that no value ends yields what it makes of each. -/
theorem readAll_map {α : Type} {read : Json → Except SupplierError (Option SupplierItem)}
    {value : α → Json} {entry : α → Option (ItemKey × ℚ)} {values : List α}
    (reads : ∀ a ∈ values, ∃ item, read (value a) = .ok item ∧ item.map tag = entry a) :
    ∃ items, readAll read (values.map value) = (items, none) ∧
      items.map tag = values.filterMap entry := by
  induction values with
  | nil => exact ⟨[], rfl, rfl⟩
  | cons a values ih =>
      obtain ⟨item, made, tagged⟩ := reads a List.mem_cons_self
      obtain ⟨items, rest, tags⟩ := ih fun b mem => reads b (List.mem_cons_of_mem _ mem)
      refine ⟨item.toList ++ items, ?_, ?_⟩
      · rw [List.map_cons, readAll]
        simp only [made, rest]
      · rw [List.map_append, tags, List.filterMap_cons, ← tagged]
        cases item with
        | none => rfl
        | some item => rfl

omit [DecidableEq N] in
/-- A category that the supplier sells yields what it has on sale. -/
theorem visit_sells {shelves : Json → List (List (String × Json))}
    {listed : List (String × Json)} (sells : adapter.Sells catalogue shelves listed) (w : W) :
    ∃ items, (adapter.visit catalogue (.object listed) w).1 = (items, none) ∧
      items.map tag = adapter.sold catalogue shelves (.object listed) := by
  have object : fields (.object listed) = .ok listed := rfl
  unfold visit sold
  simp only [object]
  by_cases keyed : (Json.get listed catalogue.categoryId).truthy = true
  · obtain ⟨body, answered, fine, held, named⟩ := sells.answers keyed w
    have unwrapped (context : String) :
        adapter.unwrap (some (.object body)) context = .ok body := by
      unfold FazerCardsAdapter.unwrap
      simp only [Option.getD_some]
      exact if_neg Bool.false_ne_true
    obtain ⟨items, read, tags⟩ := readAll_map fun offer mem =>
      readOffer_proper catalogue (categoryOf catalogue body listed) listed
        (sells.proper offer mem) named (by unfold categoryOf; split <;> rfl)
    refine ⟨items, ?_, ?_⟩
    · simp only [keyed, Bool.true_eq_false, if_false, answered, readCategory, unwrapped, held,
        FazerCardsAdapter.entries, read]
    · simp only [keyed, if_true, tags]
  · exact ⟨[], by simp [keyed], by simp [keyed]⟩

omit [DecidableEq N] in
theorem visitAll_sells {shelves : Json → List (List (String × Json))} {categories : List Json}
    (sells : ∀ category ∈ categories, ∃ listed, category = .object listed ∧
      adapter.Sells catalogue shelves listed) (w : W) :
    ∃ items, (adapter.visitAll catalogue categories w).1 = (items, none) ∧
      items.map tag = categories.flatMap (adapter.sold catalogue shelves) := by
  induction categories generalizing w with
  | nil => exact ⟨[], rfl, rfl⟩
  | cons category categories ih =>
      obtain ⟨listed, rfl, here⟩ := sells category List.mem_cons_self
      obtain ⟨items, visited, tags⟩ := visit_sells here w
      obtain ⟨others, rest, otherTags⟩ :=
        ih (fun other mem => sells other (List.mem_cons_of_mem _ mem))
          (adapter.visit catalogue (.object listed) w).2
      refine ⟨items ++ others, ?_, ?_⟩
      · rw [visitAll, ← Prod.mk.eta (p := adapter.visit catalogue (.object listed) w), visited]
        simp only [rest]
      · rw [List.map_append, tags, otherTags, List.flatMap_cons]

/-- Over a chain of pages the feed yields what the categories of each have on sale. -/
theorem crawl_leads {shelves : Json → List (List (String × Json))} {turns : ℕ}
    {s : PagedState N} {categories : List Json}
    (leads : Paging.Leads (adapter.turn catalogue.path "items") turns s categories)
    (sells : ∀ category ∈ categories, ∃ listed, category = .object listed ∧
      adapter.Sells catalogue shelves listed) {fuel : ℕ} (enough : turns ≤ fuel) (w : W) :
    (adapter.crawl catalogue fuel s w).halt = .done ∧
      (adapter.crawl catalogue fuel s w).items.map tag =
        categories.flatMap (adapter.sold catalogue shelves) := by
  induction leads generalizing fuel w with
  | @last s chunk answers =>
      obtain ⟨fuel, rfl⟩ := Nat.exists_eq_add_of_le' enough
      obtain ⟨items, visited, tags⟩ :=
        visitAll_sells sells (adapter.turn catalogue.path "items" s w).2
      rw [crawl]
      simp only [answers]
      rw [← Prod.mk.eta (p := adapter.visitAll catalogue chunk _), visited]
      exact ⟨rfl, tags⟩
  | @more turns s next chunk rest answers leads ih =>
      obtain ⟨fuel, rfl⟩ := Nat.exists_eq_add_of_le' (Nat.le_of_add_left_le enough)
      obtain ⟨items, visited, tags⟩ := visitAll_sells
        (fun category mem => sells category (List.mem_append_left rest mem))
        (adapter.turn catalogue.path "items" s w).2
      obtain ⟨done, others⟩ := ih
        (fun category mem => sells category (List.mem_append_right chunk mem))
        (Nat.le_of_succ_le_succ enough)
        (adapter.visitAll catalogue chunk (adapter.turn catalogue.path "items" s w).2).2
      rw [crawl]
      simp only [answers]
      rw [← Prod.mk.eta (p := adapter.visitAll catalogue chunk _), visited]
      refine ⟨done, ?_⟩
      rw [List.flatMap_append, ← tags, ← others]
      exact List.map_append

theorem Serves.crawl {stocks : Stocks} (serves : adapter.Serves catalogue stocks) {fuel : ℕ}
    (enough : stocks.links.length < fuel) (w : W) :
    (adapter.crawl catalogue fuel ⟨none, []⟩ w).halt = .done ∧
      (adapter.crawl catalogue fuel ⟨none, []⟩ w).items.map tag =
        stocks.categories.flatMap (adapter.sold catalogue stocks.shelves) :=
  crawl_leads (ListingAdapter.leads_chained serves.chained serves.nonempty serves.distinct
    fun _ _ => List.not_mem_nil) serves.sells enough w

omit [DecidableEq N] in
theorem toDecimal_nonneg {value : Json} {price : ℚ} (read : adapter.toDecimal value = .ok price) :
    0 ≤ price := by
  unfold FazerCardsAdapter.toDecimal at read
  split at read
  · cases read
  · split at read
    · cases read
    · split at read
      · cases read
      · rename_i negative
        cases read
        exact not_lt.mp negative

omit [DecidableEq N] in
theorem onSale_nonneg {listed offer : List (String × Json)} {entry : ItemKey × ℚ}
    (sale : adapter.onSale catalogue listed offer = some entry) : 0 ≤ entry.2 := by
  unfold onSale at sale
  split at sale
  · cases priced : adapter.toDecimal (Json.get offer "price_usd") with
    | error e =>
        rw [priced] at sale
        cases sale
    | ok price =>
        rw [priced] at sale
        cases sale
        exact toDecimal_nonneg priced
  · cases sale

omit [DecidableEq N] in
theorem sold_nonneg {shelves : Json → List (List (String × Json))} {category : Json}
    {entry : ItemKey × ℚ} (mem : entry ∈ adapter.sold catalogue shelves category) :
    0 ≤ entry.2 := by
  unfold sold at mem
  split at mem
  · split at mem
    · obtain ⟨offer, -, sale⟩ := List.mem_filterMap.mp mem
      exact onSale_nonneg sale
    · cases mem
  · cases mem

/-- Against a supplier that serves its two catalogues, the feed ends and holds exactly what is
on sale, in the order of the listings: no offer without an id or a price is among the items,
and none keeps another one out. -/
theorem feed_complete (adapter : FeedAdapter W N) {keys cards : Stocks}
    (servesKeys : adapter.Serves gameKeys keys) (servesCards : adapter.Serves giftCards cards)
    {fuel : ℕ} (enough : max keys.links.length cards.links.length < fuel) (w : W) :
    let feed := adapter.iterProducts fuel w
    feed.halt = .done ∧
      feed.items.map tag = keys.categories.flatMap (adapter.sold gameKeys keys.shelves) ++
        cards.categories.flatMap (adapter.sold giftCards cards.shelves) ∧
      ∀ item ∈ feed.items, 0 ≤ item.price := by
  obtain ⟨keysDone, keysTags⟩ := servesKeys.crawl (lt_of_le_of_lt (le_max_left _ _) enough) w
  obtain ⟨cardsDone, cardsTags⟩ := servesCards.crawl (lt_of_le_of_lt (le_max_right _ _) enough)
    (adapter.crawl gameKeys fuel ⟨none, []⟩ w).world
  unfold iterProducts iterGameKeys iterGiftCards
  simp only [keysDone]
  have tags := congrArg₂ (· ++ ·) keysTags cardsTags
  rw [← List.map_append] at tags
  refine ⟨cardsDone, tags, fun item mem => ?_⟩
  have sale : tag item ∈ _ := tags ▸ List.mem_map_of_mem mem
  rcases List.mem_append.mp sale with sale | sale
  · obtain ⟨category, -, here⟩ := List.mem_flatMap.mp sale
    exact sold_nonneg here
  · obtain ⟨category, -, here⟩ := List.mem_flatMap.mp sale
    exact sold_nonneg here

/-! ## Two games and a card -/

def gameOf (id : String) : Json := .object [("game_id", .string id), ("name", .string id)]

def offerOf (named id price : String) : List (String × Json) :=
  [(named, .string id), ("name", .string "Standard"), ("price_usd", .string price),
    ("stock", .number "5")]

def gamesOnSale : Stocks where
  first := [gameOf "portal", .object [("name", .string "unnumbered")]]
  links := [("next", [gameOf "doom"])]
  shelves
    | .string "portal" =>
      [offerOf "key_id" "k1" "3", offerOf "key_id" "k2" "free", offerOf "key_id" "" "4"]
    | .string "doom" => [offerOf "key_id" "k3" "7"]
    | _ => []

def cardsOnSale : Stocks where
  first := [.object [("category_id", .string "steam"), ("name", .string "steam")]]
  links := []
  shelves _ := [offerOf "card_id" "c1" "20"]

def pageOf (items : List Json) (next : Json) : Json :=
  .object [("items", .array items),
    ("meta", .object [("has_more", .bool next.truthy), ("next_cursor", next)])]

/-- A supplier of these. -/
def answerOf (path : String) (params : Params) : Json :=
  match path, params with
  | "/api/v2/gamekeys", [_] => pageOf gamesOnSale.first (.string "next")
  | "/api/v2/gamekeys", _ => pageOf [gameOf "doom"] .null
  | "/api/v2/gamekeys/keys", [(_, .value id)] =>
    .object [("keys", .array ((gamesOnSale.shelves id).map .object))]
  | "/api/v2/giftcards", _ => pageOf cardsOnSale.first .null
  | "/api/v2/giftcards/cards", [(_, .value id)] =>
    .object [("offers", .array ((cardsOnSale.shelves id).map .object))]
  | _, _ => .null

def stocked : FeedAdapter Time String where
  toListingAdapter :=
    { ListingAdapter.listing fun path params w => (.ok (answerOf path params), w) with
      decimal := fun text => [("3", 3), ("7", 7), ("20", 20)].lookup text }
  int
    | .number text => .ok (text.toInt?.getD 0)
    | value => .error (.other ("TypeError: int of " ++ value.typeName))
  special _ := false

theorem proper_key (id price : String) : stocked.Proper (offerOf "key_id" id price) :=
  ⟨rfl, ⟨_, rfl⟩, ⟨_, rfl⟩, ⟨_, rfl⟩, ⟨_, rfl⟩⟩

theorem proper_card (id price : String) : stocked.Proper (offerOf "card_id" id price) :=
  ⟨rfl, ⟨_, rfl⟩, ⟨_, rfl⟩, ⟨_, rfl⟩, ⟨_, rfl⟩⟩

theorem serves_games : stocked.Serves gameKeys gamesOnSale where
  chained := by
    refine ⟨fun w => ⟨_, _, rfl, ?_, rfl, rfl, rfl, ?_⟩,
      fun w => ⟨_, _, rfl, ?_, rfl, rfl, rfl, ?_⟩⟩
    · simp [List.lookup]
    · exact fun cursor same => (by cases same; rfl)
    · simp [List.lookup]
    · exact fun cursor same => (by cases same)
  nonempty := by simp [gamesOnSale]
  distinct := by simp [gamesOnSale]
  sells category mem := by
    have games : category = gameOf "portal" ∨ category = .object [("name", .string "unnumbered")] ∨
        category = gameOf "doom" := by
      simpa [Stocks.categories, gamesOnSale] using mem
    rcases games with rfl | rfl | rfl
    · refine ⟨_, rfl, ?_, fun _ w => ⟨_, rfl, ?_, rfl, _, rfl⟩⟩
      · intro offer mem
        change offer ∈ [offerOf "key_id" "k1" "3", offerOf "key_id" "k2" "free",
          offerOf "key_id" "" "4"] at mem
        simp only [List.mem_cons, List.not_mem_nil, or_false] at mem
        rcases mem with rfl | rfl | rfl <;> exact proper_key _ _
      · simp [List.lookup]
    · refine ⟨_, rfl, fun offer mem => ?_, fun keyed => ?_⟩
      · simp [gamesOnSale, Json.get, List.lookup, gameKeys] at mem
      · simp [Json.get, List.lookup, gameKeys, Json.truthy] at keyed
    · refine ⟨_, rfl, ?_, fun _ w => ⟨_, rfl, ?_, rfl, _, rfl⟩⟩
      · intro offer mem
        change offer ∈ [offerOf "key_id" "k3" "7"] at mem
        rw [List.mem_singleton.mp mem]
        exact proper_key _ _
      · simp [List.lookup]

theorem serves_cards : stocked.Serves giftCards cardsOnSale where
  chained := by
    refine fun w => ⟨_, _, rfl, ?_, rfl, rfl, rfl, ?_⟩
    · simp [List.lookup]
    · exact fun cursor same => (by cases same)
  nonempty := by simp [cardsOnSale]
  distinct := by simp [cardsOnSale]
  sells category mem := by
    have card : category =
        .object [("category_id", .string "steam"), ("name", .string "steam")] := by
      simpa [Stocks.categories, cardsOnSale] using mem
    subst card
    refine ⟨_, rfl, ?_, fun _ w => ⟨_, rfl, ?_, rfl, _, rfl⟩⟩
    · intro offer mem
      rw [List.mem_singleton.mp mem]
      exact proper_card _ _
    · simp [List.lookup]

end FeedAdapter

end FazerBridge
