import FazerBridge.CatalogSync.Crawls
import FazerBridge.G2AClient.Lists
import FazerBridge.Text.Numerals
import FazerBridge.Worker.Jobs

/-!
# The routine pass over the store's catalogue

The worker's pass only asks for what changed in the last 26 hours, page by page, of a list
that may change while it is read.  `Mirroring` is a run of the whole system that began with a
full crawl: routine passes, crawls by hand, sessions that do not commit, and anything else in
between.  As long as no pass begins more than 26 hours after the one before, nothing in the
mirror is older than the last pass (`mirror_fresh`).
-/

namespace FazerBridge

open KeyedFeed

variable {W : Type} {A : Type}

/-- The store's product of an item. -/
def productOf (view : A → StoreCatalogItem) (a : A) : String := (view a).productExtId

/-- A store whose catalogue changes while it is read. -/
structure Portal (W A : Type) where
  adapter : G2AAdapter W
  /-- the time, of the store and of the worker -/
  clock : W → Time
  /-- `updated_since.strftime("%Y-%m-%d %H:%M:%S")` -/
  strftime : Time → String
  /-- an item as `iter_catalog` yields it -/
  view : A → StoreCatalogItem
  history : History A String Time
  /-- what is listed of the products that changed since a time, if one is given -/
  listing : Option Time → Time → List A

namespace Portal

/-- Each answer is an error or a page of what is listed at some time of the call. -/
structure Honest (portal : Portal W A) : Prop where
  /-- a product is shown under its id -/
  keyed : ∀ {t k a}, portal.history.shown t k = some a → productOf portal.view a = k
  shows : ∀ {since t a}, a ∈ portal.listing since t →
    portal.history.shown t (productOf portal.view a) = some a
  listed : ∀ {since t k a}, portal.history.shown t k = some a →
    (∀ s ∈ since, s ≤ portal.history.stamp a) → a ∈ portal.listing since t
  answers : ∀ {since page w answer w'}, portal.adapter.get "/v1/products"
      (G2AAdapter.catalogParams (since.map portal.strftime) true (page + 1)) w = (answer, w') →
    ∃ t, portal.clock w ≤ t ∧ t ≤ portal.clock w' ∧ ∀ payload, answer = .ok payload →
      ∃ body records, payload = .object body ∧
        (Json.get body "docs").or (.array []) =
          .array (G2AAdapter.pageOf G2AAdapter.productsPageSize page records) ∧
        G2AAdapter.Counts (Json.get body "total") records ∧
        G2AAdapter.Parses portal.adapter.parseCatalogItem records
          ((portal.listing since t).map portal.view)

/-- What is listed from one time to another keeps its place: later products come after it. -/
def Steady (portal : Portal W A) (since : Option Time) (t u : Time) : Prop :=
  ∀ s s', t ≤ s → s ≤ s' → s' ≤ u →
    (portal.listing since s).map (productOf portal.view) <+:
      (portal.listing since s').map (productOf portal.view)

/-- `iter_catalog`, from a world. -/
def catalogue (portal : Portal W A) (since : Option Time) (maxPages : Option ℕ) (fuel : ℕ) (w : W) :
    Walk CatalogState StoreCatalogItem Exn W :=
  portal.adapter.iterCatalog (since.map portal.strftime) true maxPages fuel w

variable {portal : Portal W A}

theorem Honest.lists (honest : portal.Honest) (since : Option Time) (maxPages : Option ℕ) :
    Paging.Lists
      (portal.adapter.catalogTurn (since.map portal.strftime) true maxPages) (maxPages = none)
      G2AAdapter.catalogAt G2AAdapter.productsPageSize (fun _ => True) portal.clock
      (fun t => (portal.listing since t).map portal.view) where
  keeps _ _ _ := trivial
  answers page w _ := by
    cases called : portal.adapter.get "/v1/products"
        (G2AAdapter.catalogParams (since.map portal.strftime) true (page + 1)) w with
    | mk answer w' =>
        obtain ⟨t, after, before, pages⟩ := honest.answers called
        have made : portal.adapter.catalogTurn (since.map portal.strftime) true maxPages
            (G2AAdapter.catalogAt page) w =
              (portal.adapter.readCatalog maxPages (G2AAdapter.catalogAt page) answer, w') := by
          rw [G2AAdapter.catalogTurn, show (G2AAdapter.catalogAt page).page = page + 1 from rfl,
            called]
        rw [made]
        refine ⟨t, after, before, ?_⟩
        cases answer with
        | error e => exact .inl ⟨e, rfl⟩
        | ok payload =>
            obtain ⟨body, records, rfl, docs, counts, parses⟩ := pages payload rfl
            exact .inr (G2AAdapter.cut_catalog docs counts parses)

theorem exists_map_eq {B : Type} {f : A → B} {P : A → Prop} {bs : List B}
    (all : ∀ b ∈ bs, ∃ a, P a ∧ f a = b) : ∃ as : List A, bs = as.map f ∧ ∀ a ∈ as, P a := by
  induction bs with
  | nil => exact ⟨[], rfl, fun a mem => by cases mem⟩
  | cons b bs ih =>
      obtain ⟨a, holds, rfl⟩ := all b List.mem_cons_self
      obtain ⟨as, rfl, every⟩ := ih fun b mem => all b (List.mem_cons_of_mem _ mem)
      refine ⟨a :: as, rfl, fun a' mem => ?_⟩
      rcases List.mem_cons.mp mem with rfl | mem
      · exact holds
      · exact every a' mem

/-- What a loop that ended by itself yielded was shown while it ran; and it is a crawl, if
nothing that was listed changed its place and no cap cut it short. -/
theorem Honest.walk (honest : portal.Honest) {since : Option Time} {maxPages : Option ℕ}
    {fuel : ℕ} {w : W} (done : (portal.catalogue since maxPages fuel w).halt = .done) :
    ∃ listed : List A, (portal.catalogue since maxPages fuel w).yielded = listed.map portal.view ∧
      portal.history.Read (productOf portal.view) (portal.clock w) listed ∧
      (maxPages = none → portal.Steady since (portal.clock w)
          (portal.clock (portal.catalogue since maxPages fuel w).world) →
        portal.history.Crawl (productOf portal.view) (fun u => ∀ s ∈ since, s ≤ u)
          (portal.clock w) listed) := by
  obtain ⟨-, -, sound, complete⟩ := (honest.lists since maxPages).walk
    StoreCatalogItem.productExtId 0 trivial done
  obtain ⟨listed, yielded, read⟩ := exists_map_eq (f := portal.view)
    (P := fun a => ∃ u, portal.clock w ≤ u ∧
      portal.history.shown u (productOf portal.view a) = some a) fun b mem => by
    obtain ⟨t, after, -, mem⟩ := sound b mem
    obtain ⟨a, there, rfl⟩ := List.mem_map.mp mem
    exact ⟨a, ⟨t, after, honest.shows there⟩, rfl⟩
  refine ⟨listed, yielded, read, fun uncapped steady => ⟨read, fun {k a} shown changed => ?_⟩⟩
  have mem : portal.view a ∈ ((portal.listing since (portal.clock w)).map portal.view).drop
      (0 * G2AAdapter.productsPageSize) := by
    rw [Nat.zero_mul, List.drop_zero]
    exact List.mem_map_of_mem (honest.listed shown changed)
  have grown := complete uncapped (fun t u after le before => by
    rw [List.map_map, List.map_map]
    exact steady t u after le before)
  obtain ⟨b, mem, same⟩ := grown _ mem
  have mem : b ∈ listed.map portal.view := yielded ▸ mem
  obtain ⟨c, there, rfl⟩ := List.mem_map.mp mem
  exact ⟨c, there, same.trans (honest.keyed shown)⟩

end Portal

/-- What a loop yields, and the exception that ended it. -/
def feedOf (walk : Walk CatalogState StoreCatalogItem Exn W) : Feed StoreCatalogItem where
  items := walk.yielded
  raised := match walk.halt with
    | .done => none
    | .failed e => some e
    | .unfinished => some (.other "out of fuel")

namespace Service

variable {service : Service W} {portal : Portal W A} {bridge : Bridge W} {since : Option Time}
  {maxPages : Option ℕ} {fuel : ℕ} {t : Time}

/-- `dt.timedelta(hours=26)` -/
def routineWindow : Time := 26 * 3600 * 1000000

/-- The mirror has the row of an item. -/
def Holds (service : Service W) (view : A → StoreCatalogItem) (db : Db) (productExtId : String)
    (a : A) : Prop :=
  ∃ id, service.storeCatalog.rowOf db.storeProducts.table productExtId =
    some (service.storeCatalog.apply id (view a))

/-- A crawl: the session reads the catalogue from the world it begins in. -/
def crawl (service : Service W) (portal : Portal W A) (since : Option Time) (maxPages : Option ℕ)
    (fuel : ℕ) (bridge : Bridge W) : Ending × Bridge W :=
  let walk := portal.catalogue since maxPages fuel bridge.world
  service.runWorkerJob { bridge with world := walk.world } (.storeCatalogue (feedOf walk))

/-- The crawl commits. -/
def Crawls (service : Service W) (portal : Portal W A) (since : Option Time) (maxPages : Option ℕ)
    (fuel : ℕ) (bridge : Bridge W) : Prop :=
  (service.crawl portal since maxPages fuel bridge).1 = .returned

instance : Decidable (service.Crawls portal since maxPages fuel bridge) :=
  inferInstanceAs (Decidable (_ = _))

/-- What the crawl lists keeps its place while it is read. -/
def Steadily (portal : Portal W A) (since : Option Time) (fuel : ℕ) (bridge : Bridge W) : Prop :=
  portal.Steady since (portal.clock bridge.world)
    (portal.clock (portal.catalogue since none fuel bridge.world).world)

/-- The system since a full crawl, with the time its last committed pass began. -/
inductive Mirroring (service : Service W) (portal : Portal W A) (moves : W → W → Prop) :
    Time → Bridge W → Prop
  | full {bridge : Bridge W} {fuel} (committed : service.Crawls portal none none fuel bridge)
      (steady : Steadily portal none fuel bridge) :
      Mirroring service portal moves (portal.clock bridge.world)
        (service.crawl portal none none fuel bridge).2
  | routine {bridge : Bridge W} {t fuel} (before : Mirroring service portal moves t bridge)
      (later : t ≤ portal.clock bridge.world) (soon : portal.clock bridge.world - routineWindow ≤ t)
      (committed : service.Crawls portal (some (portal.clock bridge.world - routineWindow)) none
        fuel bridge)
      (steady : Steadily portal (some (portal.clock bridge.world - routineWindow)) fuel bridge) :
      Mirroring service portal moves (portal.clock bridge.world)
        (service.crawl portal (some (portal.clock bridge.world - routineWindow)) none fuel bridge).2
  /-- `sync store-catalog`, with any window and any cap -/
  | byHand {bridge : Bridge W} {t since maxPages fuel}
      (before : Mirroring service portal moves t bridge) (later : t ≤ portal.clock bridge.world)
      (committed : service.Crawls portal since maxPages fuel bridge) :
      Mirroring service portal moves t (service.crawl portal since maxPages fuel bridge).2
  | other {bridge bridge' : Bridge W} {t purpose} (before : Mirroring service portal moves t bridge)
      (apart : purpose.owner = some .storeCrawl → ¬ service.Succeeds bridge purpose)
      (turn : service.Turn moves bridge purpose bridge') :
      Mirroring service portal moves t bridge'

/-- What a committed crawl does to the mirror is what its items do. -/
theorem Crawls.absorbs (crawls : service.Crawls portal since maxPages fuel bridge)
    (honest : portal.Honest) :
    ∃ listed : List A,
      portal.history.Read (productOf portal.view) (portal.clock bridge.world) listed ∧
      (maxPages = none → Steadily portal since fuel bridge →
        portal.history.Crawl (productOf portal.view) (fun u => ∀ s ∈ since, s ≤ u)
          (portal.clock bridge.world) listed) ∧
      Absorbs (productOf portal.view) listed (Holds service portal.view bridge.db)
        (Holds service portal.view (service.crawl portal since maxPages fuel bridge).2.db) := by
  obtain ⟨stats, returned⟩ := ended_returned_iff.mp crawls
  obtain ⟨unraised, -, crawled, -⟩ := (store_crawl service _ _).2 stats returned
  have done : (portal.catalogue since maxPages fuel bridge.world).halt = .done := by
    unfold feedOf at unraised
    dsimp only at unraised
    split at unraised
    · assumption
    · cases unraised
    · cases unraised
  obtain ⟨listed, yielded, read, complete⟩ := honest.walk done
  rw [show (feedOf (portal.catalogue since maxPages fuel bridge.world)).items =
    listed.map portal.view from yielded] at crawled
  have last : ∀ k, KeyedFeed.last StoreCatalogItem.productExtId (listed.map portal.view) k =
      (KeyedFeed.last (productOf portal.view) listed k).map portal.view :=
    KeyedFeed.last_map portal.view listed
  refine ⟨listed, read, fun uncapped steady => ?_, fun {k a} found => ?_,
    fun {k a} none_ held => ?_⟩
  · subst uncapped
    exact complete rfl steady
  · obtain ⟨id, row, -⟩ := crawled.listed ((last k).trans (congrArg _ found))
    exact ⟨id, row⟩
  · obtain ⟨id, row⟩ := held
    exact ⟨id, (crawled.unlisted ((last k).trans (congrArg _ none_))).trans row⟩

/-- As long as no pass begins more than 26 hours after the one before, every product that the
store showed when the last pass began is mirrored as it was then or later. -/
theorem mirror_fresh (service : Service W) (portal : Portal W A) (honest : portal.Honest)
    (moves : W → W → Prop) (mirroring : service.Mirroring portal moves t bridge) :
    portal.history.Fresh t (Holds service portal.view bridge.db) := by
  induction mirroring with
  | full committed steady =>
      obtain ⟨listed, -, crawl, absorbs⟩ := committed.absorbs honest
      exact (crawl rfl steady).fresh_of_full (fun u s none_ => by cases none_) absorbs
  | routine before later soon committed steady ih =>
      obtain ⟨listed, -, crawl, absorbs⟩ := committed.absorbs honest
      refine ih.absorbs later (fun u after s since => ?_) (crawl rfl steady) absorbs
      obtain rfl := Option.some.inj since
      exact soon.trans after
  | byHand before later committed ih =>
      obtain ⟨listed, read, -, absorbs⟩ := committed.absorbs honest
      exact ih.absorbs_read later read absorbs
  | other before apart turn ih =>
      have same : Owner.storeCrawl.Same _ _ := single_writer service moves .storeCrawl
        (.single ⟨_, apart, turn⟩)
      unfold Holds at ih ⊢
      rw [same]
      exact ih

end Service

/-! ## A store that renames a product -/

namespace EchoStore

open G2AAdapter

def hours (n : ℕ) : Time := n * 3600 * 1000000

/-- One more product than there are on a page. -/
def portalIds : List String := (List.range 21).map toString

/-- A product of the store; the last one is renamed in the thirtieth hour. -/
def shownAs (t : Time) (id : String) : StoreCatalogItem × Time :=
  if id = "20" ∧ hours 30 ≤ t then ({ productExtId := id, name := "Portal 2".toList }, hours 30)
  else ({ productExtId := id, name := "Portal".toList }, 0)

theorem shownAs_id (t : Time) (id : String) : productOf Prod.fst (shownAs t id) = id := by
  unfold shownAs
  split <;> rfl

/-- It is shown the same way before the renaming, and after it. -/
theorem shownAs_congr {s t : Time} (same : hours 30 ≤ s ↔ hours 30 ≤ t) (id : String) :
    shownAs s id = shownAs t id := by
  unfold shownAs
  simp only [same]

theorem stamp_shownAs {s t : Time} {id : String} (later : s ≤ t)
    (new : shownAs s id ≠ shownAs t id) : s ≤ (shownAs t id).2 := by
  by_cases renamed : id = "20" ∧ hours 30 ≤ t
  · by_contra old
    rw [shownAs, if_pos renamed, not_le] at old
    exact new (shownAs_congr (iff_of_true old.le renamed.2) id)
  · refine absurd ?_ new
    have before : ¬ (id = "20" ∧ hours 30 ≤ s) := fun early =>
      renamed ⟨early.1, early.2.trans later⟩
    rw [shownAs, shownAs, if_neg renamed, if_neg before]

def portalHistory : History (StoreCatalogItem × Time) String Time where
  shown t k := if k ∈ portalIds then some (shownAs t k) else none
  stamp := Prod.snd
  stamped {s t k a} later shown new := by
    by_cases there : k ∈ portalIds
    · rw [if_pos there] at shown new
      cases shown
      exact stamp_shownAs later fun same => new (congrArg some same)
    · rw [if_neg there] at shown
      cases shown

/-- What changed since a time, in the order of the ids. -/
def portalListing (since : Option Time) (t : Time) : List (StoreCatalogItem × Time) :=
  (portalIds.map (shownAs t)).filter fun a => ∀ s ∈ since, s ≤ a.2

def recordOf (item : StoreCatalogItem) : Json :=
  .object [("id", .string item.productExtId), ("name", .string (String.ofList item.name))]

/-- The time that a query asks for changes since. -/
def sinceOf (params : Params) : Option Time :=
  match params.lookup "updatedAtFrom" with
  | some (.value (.string text)) => Json.asInt (.number text)
  | _ => none

def portalPage (params : Params) : ℕ :=
  match params.lookup "page" with
  | some (.int page) => page - 1
  | _ => 0

/-- Each request takes an hour. -/
def portalAdapter : G2AAdapter Time where
  get _ params w := (.ok (.object [("docs", .array (pageOf productsPageSize (portalPage params)
    ((portalListing (sinceOf params) w).map fun a => recordOf a.1)))]), w + hours 1)
  str
    | .string text => text
    | _ => ""
  int
    | .number text => .ok (Json.intOf text)
    | _ => .error (.other "TypeError")
  decimal _ := none

def portal : Portal Time (StoreCatalogItem × Time) where
  adapter := portalAdapter
  clock := id
  strftime := toString
  view := Prod.fst
  history := portalHistory
  listing := portalListing

theorem shown_portal {t : Time} {k : String} {a : StoreCatalogItem × Time} :
    portal.history.shown t k = some a ↔ k ∈ portalIds ∧ shownAs t k = a := by
  change (if k ∈ portalIds then some (shownAs t k) else none) = some a ↔ _
  rw [Option.ite_none_right_eq_some, Option.some.injEq]

theorem sinceOf_params (since : Option Time) (page : ℕ) :
    sinceOf (catalogParams (since.map portal.strftime) true page) = since := by
  cases since with
  | none => rfl
  | some s => exact Json.asInt_toString s

theorem parse_recordOf {t : Time} {id : String} (there : id ∈ portalIds) :
    portalAdapter.parseCatalogItem (recordOf (shownAs t id).1) = .ok (some (shownAs t id).1) := by
  have old : ∀ id ∈ portalIds, portalAdapter.parseCatalogItem (recordOf (shownAs 0 id).1) =
      .ok (some (shownAs 0 id).1) := by decide +kernel
  have new : ∀ id ∈ portalIds, portalAdapter.parseCatalogItem (recordOf (shownAs (hours 30) id).1) =
      .ok (some (shownAs (hours 30) id).1) := by decide +kernel
  by_cases renamed : hours 30 ≤ t
  · rw [shownAs_congr (iff_of_true renamed le_rfl) id]
    exact new id there
  · rw [shownAs_congr (iff_of_false renamed (by decide : ¬ hours 30 ≤ 0)) id]
    exact old id there

theorem mem_portalListing {since : Option Time} {t : Time} {a : StoreCatalogItem × Time} :
    a ∈ portalListing since t ↔ (∃ id ∈ portalIds, shownAs t id = a) ∧ ∀ s ∈ since, s ≤ a.2 := by
  simp [portalListing]

theorem portal_honest : portal.Honest where
  keyed {t k a} shown := by
    obtain ⟨-, rfl⟩ := shown_portal.mp shown
    exact shownAs_id t k
  shows {since t a} mem := by
    obtain ⟨⟨id, there, rfl⟩, -⟩ := mem_portalListing.mp mem
    rw [show productOf portal.view (shownAs t id) = id from shownAs_id t id]
    exact shown_portal.mpr ⟨there, rfl⟩
  listed {since t k a} shown changed := by
    obtain ⟨there, rfl⟩ := shown_portal.mp shown
    exact mem_portalListing.mpr ⟨⟨k, there, rfl⟩, changed⟩
  answers {since page w answer w'} called := by
    cases called
    refine ⟨w, le_rfl, le_add_of_nonneg_right (by decide +kernel : 0 ≤ hours 1), ?_⟩
    rintro payload ⟨⟩
    refine ⟨_, _, rfl, or_array _, fun n known => (by cases known), ?_⟩
    change Parses _ ((portalListing (sinceOf _) w).map _) ((portalListing since w).map Prod.fst)
    rw [sinceOf_params]
    refine List.forall₂_map_left_iff.mpr (List.forall₂_map_right_iff.mpr
      (List.forall₂_same.mpr fun a mem => ?_))
    obtain ⟨⟨id, there, rfl⟩, -⟩ := mem_portalListing.mp mem
    exact parse_recordOf there

/-- Nothing changes its place while the renaming is not near. -/
theorem portal_steady {since : Option Time} {t u : Time} (apart : hours 30 ≤ t ∨ u < hours 30) :
    portal.Steady since t u := by
  intro s s' after le before
  have same : portalListing since s = portalListing since s' := by
    unfold portalListing
    rw [List.map_congr_left fun id _ => shownAs_congr (s := s) (t := s') ?_ id]
    rcases apart with late | early
    · exact iff_of_true (late.trans after) (late.trans (after.trans le))
    · exact iff_of_false (not_le.mpr ((le.trans before).trans_lt early))
        (not_le.mpr (before.trans_lt early))
  change (portalListing since s).map _ <+: (portalListing since s').map _
  rw [same]

/-- A full crawl at the start, and a routine pass after 20 hours and after 40. -/
def crawledOnce : Bridge Time := (service.crawl portal none none 2 start).2

def waited : Bridge Time := { crawledOnce with world := hours 20 }

def crawledTwice : Bridge Time :=
  (service.crawl portal (some (hours 20 - Service.routineWindow)) none 2 waited).2

def waitedAgain : Bridge Time := { crawledTwice with world := hours 40 }

def crawledLast : Bridge Time :=
  (service.crawl portal (some (hours 40 - Service.routineWindow)) none 2 waitedAgain).2

theorem mirroring_crawledTwice : service.Mirroring portal (· ≤ ·) (hours 20) crawledTwice := by
  have first : service.Crawls portal none none 2 start := by decide +kernel
  have second : service.Crawls portal (some (hours 20 - Service.routineWindow)) none 2 waited := by
    decide +kernel
  have early : portal.clock (portal.catalogue none none 2 start.world).world < hours 30 := by
    decide +kernel
  have early' : portal.clock (portal.catalogue (some (hours 20 - Service.routineWindow)) none 2
      waited.world).world < hours 30 := by
    decide +kernel
  have elapsed : service.Turn (· ≤ ·) crawledOnce (.act .elapse) waited :=
    .act (.elapse (by decide +kernel))
  have mirroring : service.Mirroring portal (· ≤ ·) 0 waited :=
    .other (.full first (portal_steady (.inr early))) (fun owns => by cases owns) elapsed
  exact .routine mirroring (by decide) (by decide) second (portal_steady (.inr early'))

/-- The last pass read the one product that was renamed. -/
theorem mirror_fresh_portal :
    (portal.catalogue (some (hours 40 - Service.routineWindow)) none 2
        (hours 40)).yielded.length = 1 ∧
      (crawledLast.db.storeProducts.rows.map StoreProduct.name).count "Portal 2".toList = 1 ∧
      portal.history.Fresh (hours 40) (service.Holds portal.view crawledLast.db) := by
  have third : service.Crawls portal (some (hours 40 - Service.routineWindow)) none 2
      waitedAgain := by
    decide +kernel
  have elapsed : service.Turn (· ≤ ·) crawledTwice (.act .elapse) waitedAgain :=
    .act (.elapse (by decide +kernel))
  have mirroring : service.Mirroring portal (· ≤ ·) (hours 20) waitedAgain :=
    .other mirroring_crawledTwice (fun owns => by cases owns) elapsed
  have last : service.Mirroring portal (· ≤ ·) (hours 40) crawledLast :=
    .routine mirroring (by decide) (by decide) third (portal_steady (.inl (by decide)))
  exact ⟨by decide +kernel, by decide +kernel,
    Service.mirror_fresh service portal portal_honest (· ≤ ·) last⟩

end EchoStore

end FazerBridge
