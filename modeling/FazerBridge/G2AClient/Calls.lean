import FazerBridge.G2AClient.Wire

/-!
# Every call over the wire

What each call of the adapter does to an open store, whatever the link loses
(`calls_applied`), and a store of which every other answer is lost.
-/

namespace FazerBridge

open OfferSync StoreState

namespace G2AStore

variable {S : Type}

/-- Reads change nothing and return all that is so; a create opens at most the one offer it was
called with; an update makes its change, and no other, once or not at all; and each that
returns was applied, unless its job will fail. -/
theorem calls_applied (store : G2AStore S) (shop : StoreState S) (listing : S → List Json)
    (shows : store.Open shop listing) (w : G2AState S) :
    (∀ fuel r w', store.listOffers fuel w = (r, w') → shop.Same w.server w'.server ∧
      ∀ views, r = .ok views → Exhibits (fun _ => True) views (shop.shelf w.server)) ∧
    (∀ productExtId r w', store.offersForProduct productExtId w = (r, w') →
      shop.Same w.server w'.server ∧ ∀ views, r = .ok views →
        Exhibits (fun x => x.productExtId = productExtId) views (shop.shelf w.server)) ∧
    (∀ jobId r w', store.getJob jobId w = (r, w') → shop.Same w.server w'.server ∧
      ∀ job, r = .ok job → job.isFinished = true →
        (job.succeeded = true → ∃ id, shop.fate w.server jobId = some (.lands id) ∧
          ∀ named, truthyId job.resourceId = some named → named = id) ∧
        (job.succeeded = false → shop.fate w.server jobId = some .fails)) ∧
    (∀ productExtId price inventorySize active visibility r w',
      store.createOffer productExtId price inventorySize active visibility w = (r, w') →
      let draft : Shown := ⟨productExtId, Pricing.quantize (1 / 100) price, inventorySize, active⟩
      (shop.Kept w.server w'.server ∨ ∃ id, shop.Opens draft id w.server w'.server) ∧
        ∀ job, r = .ok job → Accepts shop draft job w.server w'.server) ∧
    ∀ offerExtId price inventorySize active visibility r w',
      store.updateOffer offerExtId price inventorySize active none visibility w = (r, w') →
      let change : Change := ⟨price.map (Pricing.quantize (1 / 100)), inventorySize, active⟩
      (shop.Kept w.server w'.server ∨ ∃ x, shop.Changes offerExtId change x w.server w'.server) ∧
        ∀ job, r = .ok job → Makes shop offerExtId change job w.server w'.server := by
  have honest := shows.toHonest
  refine ⟨fun fuel r w' called => ⟨(listOffers_spec honest called).1, fun views returned => ?_⟩,
    fun productExtId r w' called => ⟨(offersForProduct_spec honest called).1,
      fun views returned => ?_⟩,
    fun _ _ _ => getJob_spec honest, fun _ _ _ _ _ _ _ => createOffer_spec honest,
    fun _ _ _ _ _ _ _ => updateOffer_spec honest⟩
  · subst returned
    exact listOffers_all shows called
  · subst returned
    exact offersForProduct_all shows called

end G2AStore

/-! ## A store whose answers get lost

It takes offers of five pieces of one product, or of four, at 11.50, and shows one offer of
somebody else on another.  Any other change it accepts, for a job that fails. -/

def takes : List Shown := [⟨"1", 23 / 2, 5, true⟩, ⟨"1", 23 / 2, 4, true⟩]

/-- An offer that it takes. -/
abbrev Ours : Type := { x : Shown // x ∈ takes }

/-- The offer, and how many sends there were. -/
structure Desk where
  offer : Option Ours
  sends : ℕ

namespace Desk

open G2AStore

def foreign : Shown := ⟨"7", 3, 1, true⟩

/-- The offers on the shelf. -/
def shelved (offer : Option Ours) : List (String × Shown) :=
  (offer.map fun x => ("o1", x.1)).toList ++ [("f7", foreign)]

/-! ### What it says -/

def acceptedAs (jobId : String) : Json := .object [("data", .object [("jobId", .string jobId)])]

def finishedAs (status : String) : Json := .object [("data", .object [("status", .string status)])]

def rowOf (offer : String × Shown) : Json :=
  .object [("id", .string offer.1), ("product", .object [("id", .string offer.2.productExtId)]),
    ("price", .string (String.ofList (twoPlaces offer.2.price))),
    ("inventory", .object [("size", .number (toString offer.2.inventory))]),
    ("status", .string (if offer.2.active then "active" else "inactive"))]

def listed (rows : List Json) : Json := .object [("data", .array rows)]

def refusal : Json := .object [("errors", .array [])]

/-- All that it ever says. -/
def bodies : Table Json.dumps where
  rows := [acceptedAs "j1", acceptedAs "j2", finishedAs "complete", finishedAs "failed", refusal,
      listed [], listed [rowOf ("f7", foreign)]] ++
    takes.map (fun x => listed [rowOf ("o1", x), rowOf ("f7", foreign)]) ++
    takes.map fun x => .object [("data", rowOf ("o1", x))]
  nodup := by decide +kernel

/-- What a read finds. -/
def read (path : String) (params : Params) (offer : Option Ours) : Option Json :=
  if path = "/v1/offers" then
    some (listed (match params.lookup "page" with
      | some (.int page) =>
        G2AAdapter.pageOf G2AAdapter.offersPageSize (page - 1) ((shelved offer).map rowOf)
      | _ => []))
  else if path = productOffersPath "1" then
    offer.map fun x => .object [("data", rowOf ("o1", x.1))]
  else if path = productOffersPath "7" then some (listed [rowOf ("f7", foreign)])
  else if path = "/v1/jobs/j1" then some (finishedAs "complete")
  else if path = "/v1/jobs/j2" then some (finishedAs "failed")
  else none

/-- What the desk answers, and the offer it then has. -/
def serve (payload : Payload) (sent : Sent) (offer : Option Ours) : ℕ × Json × Option Ours :=
  match sent.method, payload with
  | .post, .jsonBody body =>
    match body.draftOf, offer with
    | some draft, none =>
      if fits : sent.path = "/v1/offers" ∧ draft ∈ takes then
        (202, acceptedAs "j1", some ⟨draft, fits.2⟩)
      else (400, refusal, offer)
    | _, _ => (409, refusal, offer)
  | .patch, .jsonBody body =>
    match body.changeOf, offer with
    | some change, some x =>
      if sent.path = "/v1/offers/o1" then
        if fits : change.apply x ∈ takes then (202, acceptedAs "j1", some ⟨change.apply x, fits⟩)
        else (202, acceptedAs "j2", offer)
      else (404, refusal, offer)
    | _, _ => (404, refusal, offer)
  | .get, .params params =>
    match read sent.path params offer with
    | some body => (200, body, offer)
    | none => (404, refusal, offer)
  | _, _ => (404, refusal, offer)

/-- Every other answer is lost. -/
def store : G2AStore Desk where
  unicode := .ascii
  credentials := some ("cid", "csecret")
  retry := .default
  decodeError response := toString response.status
  loads text := (bodies.find? text).getD .null
  strOther _ := ""
  int value := .ok (value.asInt.getD 0)
  decimal text := some (Numeral.value text.toList)
  acquire := id
  now desk := (0, desk)
  postToken _ desk := (.response 200 "" (.ok ⟨some "tok-1", .ok none⟩), desk)
  send payload sent desk :=
    let (status, body, offer) := serve payload sent desk.offer
    (if desk.sends % 2 = 0 then .retryable "ReadTimeout" "timed out"
      else .response ⟨status, .json body.dumps, none⟩, ⟨offer, desk.sends + 1⟩)
  draw desk := (0, desk)
  sleep _ := id

def shop : StoreState Desk where
  shelf desk id :=
    if id = "o1" then desk.offer.map Subtype.val else if id = "f7" then some foreign else none
  fate _ jobId :=
    if jobId = "j1" then some (.lands "o1") else if jobId = "j2" then some .fails else none

/-- What is listed is what the store shows. -/
theorem mem_shelved {desk : Desk} {id : String} {x : Shown} :
    (id, x) ∈ shelved desk.offer ↔ shop.shelf desk id = some x := by
  unfold shelved shop
  dsimp only
  by_cases ours : id = "o1"
  · subst ours
    cases desk.offer <;> simp [eq_comm]
  · by_cases other : id = "f7"
    · subst other
      cases desk.offer <;> simp [eq_comm]
    · cases desk.offer <;> simp [ours, other]

/-- What a send does to the offer. -/
theorem send_server (payload : Payload) (sent : Sent) (desk : Desk) :
    (store.send payload sent desk).2.offer = (serve payload sent desk.offer).2.2 := rfl

/-- What is answered was served. -/
theorem answered {payload : Payload} {sent : Sent} {desk desk' : Desk} {response : Response}
    (answer : store.send payload sent desk = (.response response, desk')) :
    response.status = (serve payload sent desk.offer).1 ∧
      response.content = .json (serve payload sent desk.offer).2.1.dumps ∧
      desk'.offer = (serve payload sent desk.offer).2.2 := by
  simp only [store, Prod.mk.injEq] at answer
  obtain ⟨outcome, rfl⟩ := answer
  split at outcome <;> cases outcome
  exact ⟨rfl, rfl, rfl⟩

/-- A server with the same offer shows the same. -/
theorem same_of_offer {desk desk' : Desk} (offer : desk'.offer = desk.offer) :
    shop.Same desk desk' :=
  ⟨by simp only [shop, offer], rfl⟩

/-- A reading changes nothing, and answers what is found or 404. -/
theorem serve_get {params : Params} {sent : Sent} {offer : Option Ours}
    (method : sent.method = .get) :
    serve (.params params) sent offer = match read sent.path params offer with
      | some body => (200, body, offer)
      | none => (404, refusal, offer) := by
  unfold serve
  rw [method]

/-- The offers that may be on the shelf. -/
def offers : List (String × Shown) := takes.map (fun x => ("o1", x)) ++ [("f7", foreign)]

theorem mem_offers {offer : Option Ours} {o : String × Shown} (mem : o ∈ shelved offer) :
    o ∈ offers := by
  unfold shelved at mem
  unfold offers
  rcases List.mem_append.mp mem with ours | other
  · obtain ⟨x, -, rfl⟩ := Option.map_eq_some_iff.mp (Option.mem_toList.mp ours)
    exact List.mem_append_left _ (List.mem_map_of_mem x.2)
  · exact List.mem_append_right _ other

def viewOf (offer : String × Shown) : StoreOfferView where
  offerExtId := offer.1
  productExtId := offer.2.productExtId
  price := some offer.2.price
  inventorySize := offer.2.inventory
  status := if offer.2.active then "active" else "inactive"

/-- The view of an offer displays it. -/
theorem displays_viewOf (offer : String × Shown) : Displays (viewOf offer) offer.2 where
  product := rfl
  price := rfl
  inventory := rfl
  active := by
    unfold viewOf StoreOfferView.isActive
    cases offer.2.active <;> rfl

/-- The record of an offer parses to its view. -/
theorem parse_rowOf {o : String × Shown} (mem : o ∈ offers) :
    store.lists.parseOffer (rowOf o) = .ok (some (viewOf o)) := by
  have all : ∀ o ∈ offers, store.lists.parseOffer (rowOf o) = .ok (some (viewOf o)) := by
    decide +kernel
  exact all o mem

/-- A list of records parses to the list of the views. -/
theorem parses_rows {os : List (String × Shown)} (all : ∀ o ∈ os, o ∈ offers) :
    G2AAdapter.Parses store.lists.parseOffer (os.map rowOf) (os.map viewOf) :=
  List.forall₂_map_left_iff.mpr (List.forall₂_map_right_iff.mpr
    (List.forall₂_same.mpr fun o mem => parse_rowOf (all o mem)))

/-- The views of all offers with a property exhibit them. -/
theorem exhibits {P : Shown → Prop} {os : List (String × Shown)} {desk : Desk}
    (all : ∀ o, o ∈ os ↔ o ∈ shelved desk.offer ∧ P o.2) :
    Exhibits P (os.map viewOf) (shop.shelf desk) where
  shown view mem := by
    obtain ⟨o, there, rfl⟩ := List.mem_map.mp mem
    obtain ⟨shelved, has⟩ := (all o).mp there
    exact ⟨o.2, mem_shelved.mp shelved, has, displays_viewOf o⟩
  all id x there has :=
    ⟨viewOf (id, x), List.mem_map_of_mem ((all _).mpr ⟨mem_shelved.mpr there, has⟩), rfl⟩

/-- What is said of an offer on the shelf is so. -/
theorem describes {desk : Desk} {o : String × Shown} {view : StoreOfferView}
    (mem : o ∈ shelved desk.offer) (parsed : store.lists.parseOffer (rowOf o) = .ok (some view)) :
    Describes view (shop.shelf desk) := by
  cases (parse_rowOf (mem_offers mem)).symm.trans parsed
  have displays := displays_viewOf o
  exact ⟨o.2, mem_shelved.mp mem, rfl, fun p same => Option.some.inj same, rfl, displays.active⟩

/-- What a read finds. -/
inductive Finds (offer : Option Ours) (path : String) : Json → Prop
  | none_ : path = "/v1/offers" → Finds offer path (listed [])
  | all : path = "/v1/offers" → Finds offer path (listed ((shelved offer).map rowOf))
  | ours {x} : path = productOffersPath "1" → x ∈ offer →
      Finds offer path (.object [("data", rowOf ("o1", x.1))])
  | other : path = productOffersPath "7" → Finds offer path (listed [rowOf ("f7", foreign)])
  | landed : path = "/v1/jobs/j1" → Finds offer path (finishedAs "complete")
  | failed : path = "/v1/jobs/j2" → Finds offer path (finishedAs "failed")

/-- There are two offers at most, so every page but the first is empty. -/
theorem pageOf_shelved (offer : Option Ours) (page : ℕ) :
    G2AAdapter.pageOf G2AAdapter.offersPageSize page ((shelved offer).map rowOf) =
      if page = 0 then (shelved offer).map rowOf else [] := by
  have few : ((shelved offer).map rowOf).length ≤ 100 := by
    cases offer <;> simp [shelved]
  unfold G2AAdapter.pageOf G2AAdapter.offersPageSize
  by_cases first : page = 0
  · rw [if_pos first, first, Nat.zero_mul, List.drop_zero, List.take_of_length_le few]
  · rw [if_neg first, List.drop_eq_nil_of_le (by omega), List.take_nil]

/-- What is read is one of what can be found. -/
theorem read_finds {path : String} {params : Params} {offer : Option Ours} {body : Json}
    (found : read path params offer = some body) : Finds offer path body := by
  unfold read at found
  split at found
  · rename_i list
    cases found
    split
    · rw [pageOf_shelved]
      split
      · exact .all list
      · exact .none_ list
    · exact .none_ list
  split at found
  · rename_i ours
    obtain ⟨x, there, rfl⟩ := Option.map_eq_some_iff.mp found
    exact .ours ours there
  split at found
  · rename_i other
    cases found
    exact .other other
  split at found
  · rename_i landed
    cases found
    exact .landed landed
  split at found
  · rename_i failed
    cases found
    exact .failed failed
  · cases found

/-- The bodies of the store come back from their texts. -/
theorem loads_dumps {body : Json} (mem : body ∈ bodies.rows) : store.loads body.dumps = body := by
  have found := bodies.find?_key mem
  change (bodies.find? body.dumps).getD .null = body
  rw [found]
  rfl

theorem Finds.mem {offer : Option Ours} {path : String} {body : Json}
    (finds : Finds offer path body) : body ∈ bodies.rows := by
  have there : ∀ x ∈ takes, listed [rowOf ("o1", x), rowOf ("f7", foreign)] ∈ bodies.rows ∧
      Json.object [("data", rowOf ("o1", x))] ∈ bodies.rows := by
    intro x mem
    exact ⟨List.mem_append_left _ (List.mem_append_right _ (List.mem_map_of_mem mem)),
      List.mem_append_right _ (List.mem_map_of_mem mem)⟩
  cases finds with
  | none_ => simp [bodies]
  | all =>
      cases offer with
      | none => simp [bodies, shelved]
      | some x => exact (there x.1 x.2).1
  | @ours x => exact (there x.1 x.2).2
  | other => simp [bodies]
  | landed => simp [bodies]
  | failed => simp [bodies]

/-- What an expected answer to a read says. -/
theorem said_read {params : Params} {sent : Sent} {desk desk' : Desk} {response : Response}
    (method : sent.method = .get)
    (answer : store.send (.params params) sent desk = (.response response, desk'))
    (expected : response.status ∈ (getRequest sent.path).expected) :
    read sent.path params desk.offer = some (store.said response) := by
  obtain ⟨status, content, -⟩ := answered answer
  rw [serve_get method] at status content
  cases found : read sent.path params desk.offer with
  | none =>
      rw [found] at status
      rw [status] at expected
      exact absurd expected (by decide : 404 ∉ [200, 201, 202, 204])
  | some body =>
      rw [found] at status content
      have said : store.said response = store.loads body.dumps := by
        unfold said
        rw [if_neg (by rw [status]; exact (by decide : 200 ≠ 204)), content]
      rw [said, loads_dumps (read_finds found).mem]

theorem said_served {payload : Payload} {sent : Sent} {desk desk' : Desk} {response : Response}
    {body : Json} (answer : store.send payload sent desk = (.response response, desk'))
    (full : response.status ≠ 204) (served : (serve payload sent desk.offer).2.1 = body)
    (mem : body ∈ bodies.rows) : store.said response = body := by
  unfold said
  rw [if_neg full, (answered answer).2.1, served]
  exact loads_dumps mem

theorem grows {desk desk' : Desk}
    (kept : ∀ x ∈ desk.offer, ∃ y ∈ desk'.offer, y.1.productExtId = x.1.productExtId) :
    shop.Grows desk desk' where
  offers {id x} shown := by
    simp only [shop] at shown ⊢
    split
    · rename_i ours
      rw [if_pos ours] at shown
      obtain ⟨x, there, rfl⟩ := Option.map_eq_some_iff.mp shown
      obtain ⟨y, there', product⟩ := kept x there
      exact ⟨y.1, by rw [there', Option.map_some], product⟩
    · rename_i other
      rw [if_neg other] at shown
      exact ⟨x, shown, rfl⟩
  fates known := known

theorem shelf_update {desk desk' : Desk} {y : Ours} (offer : desk'.offer = some y) :
    shop.shelf desk' = Function.update (shop.shelf desk) "o1" (some y.1) := by
  funext id
  by_cases ours : id = "o1"
  · rw [ours, Function.update_self]
    simp only [shop, offer, if_pos, Option.map_some]
  · rw [Function.update_of_ne ours]
    simp only [shop, if_neg ours]

/-- What a create comes to at the desk. -/
theorem serve_post {body : Json} {sent : Sent} {desk desk' : Desk} {draft : Shown}
    (method : sent.method = .post) (asks : body.draftOf = some draft)
    (offer : desk'.offer = (serve (.jsonBody body) sent desk.offer).2.2) :
    desk'.offer = desk.offer ∧
        (serve (.jsonBody body) sent desk.offer).1 ∉ createRequest.expected ∨
      shop.Opens draft "o1" desk desk' ∧
        (serve (.jsonBody body) sent desk.offer).2.1 = acceptedAs "j1" := by
  unfold serve at offer ⊢
  rw [method] at offer ⊢
  simp only [asks] at offer ⊢
  cases held : desk.offer with
  | some x =>
      rw [held] at offer
      exact .inl ⟨offer, (by decide : 409 ∉ [200, 201, 202])⟩
  | none =>
      rw [held] at offer
      dsimp only at offer ⊢
      by_cases fits : sent.path = "/v1/offers" ∧ draft ∈ takes
      · rw [dif_pos fits] at offer ⊢
        refine .inr ⟨⟨grows fun x none_ => ?_, ?_, shelf_update offer⟩, rfl⟩
        · rw [held] at none_
          cases none_
        · simp only [shop, held, if_pos, Option.map_none]
      · rw [dif_neg fits] at offer ⊢
        exact .inl ⟨offer, (by decide : 400 ∉ [200, 201, 202])⟩

/-- What an update comes to at the desk. -/
theorem serve_patch {body : Json} {sent : Sent} {id : String} {desk desk' : Desk} {change : Change}
    (method : sent.method = .patch) (path : sent.path = "/v1/offers/" ++ id)
    (asks : body.changeOf = some change)
    (offer : desk'.offer = (serve (.jsonBody body) sent desk.offer).2.2) :
    desk'.offer = desk.offer ∧
        (serve (.jsonBody body) sent desk.offer).1 ∉ (updateRequest id).expected ∨
      (∃ x, shop.Changes id change x desk desk') ∧ id = "o1" ∧
        (serve (.jsonBody body) sent desk.offer).2.1 = acceptedAs "j1" ∨
      desk'.offer = desk.offer ∧ (∃ x, shop.shelf desk id = some x) ∧
        (serve (.jsonBody body) sent desk.offer).2.1 = acceptedAs "j2" := by
  have named : sent.path = "/v1/offers/o1" ↔ id = "o1" := by
    rw [path, show "/v1/offers/o1" = "/v1/offers/" ++ "o1" from rfl, String.append_right_inj]
  unfold serve at offer ⊢
  rw [method] at offer ⊢
  simp only [asks] at offer ⊢
  cases held : desk.offer with
  | none =>
      rw [held] at offer
      exact .inl ⟨offer, (by decide : 404 ∉ [200, 202])⟩
  | some x =>
      rw [held] at offer
      dsimp only at offer ⊢
      have shown : shop.shelf desk "o1" = some x.1 := by
        simp only [shop, held, if_pos, Option.map_some]
      by_cases own : sent.path = "/v1/offers/o1"
      · rw [if_pos own] at offer ⊢
        obtain rfl := named.mp own
        by_cases fits : change.apply x.1 ∈ takes
        · rw [dif_pos fits] at offer ⊢
          refine .inr (.inl ⟨⟨x.1, grows fun y there => ?_, shown, shelf_update offer⟩, rfl, rfl⟩)
          rw [held] at there
          cases there
          exact ⟨_, offer, rfl⟩
        · rw [dif_neg fits] at offer ⊢
          exact .inr (.inr ⟨offer, ⟨x.1, shown⟩, rfl⟩)
      · rw [if_neg own] at offer ⊢
        exact .inl ⟨offer, (by decide : 404 ∉ [200, 202])⟩

theorem readJob_accepted {jobId : String} (known : jobId ∈ ["j1", "j2"]) :
    store.readJob none (.ok (acceptedAs jobId)) = .ok ⟨jobId, "pending", none, []⟩ := by
  have both : ∀ jobId ∈ ["j1", "j2"],
      store.readJob none (.ok (acceptedAs jobId)) = .ok ⟨jobId, "pending", none, []⟩ := by
    decide +kernel
  exact both jobId known

theorem readJob_finished (jobId status : String) (known : status ∈ ["complete", "failed"]) :
    store.readJob (some jobId) (.ok (finishedAs status)) = .ok ⟨jobId, status, none, []⟩ := by
  simp only [List.mem_cons, List.not_mem_nil, or_false] at known
  rcases known with rfl | rfl <;> rfl

theorem productOffersPath_inj {a b : String} (same : productOffersPath a = productOffersPath b) :
    a = b :=
  (String.append_right_inj _).mp ((String.append_left_inj _).mp same)

theorem productOffersPath_ne_job (productExtId jobId : String) :
    productOffersPath productExtId ≠ "/v1/jobs/" ++ jobId := by
  intro same
  have letters := congrArg (fun path : String => path.toList[4]?) same
  simp [productOffersPath, String.toList_append] at letters

theorem productOffersPath_ne_offers (productExtId : String) :
    productOffersPath productExtId ≠ "/v1/offers" := by
  intro same
  have letters := congrArg (fun path : String => path.toList[4]?) same
  simp [productOffersPath, String.toList_append] at letters

theorem regular : shop.Regular where
  unique {desk a b x y} there there' product := by
    have own := mem_offers (mem_shelved.mpr there)
    have own' := mem_offers (mem_shelved.mpr there')
    have apart : ∀ o ∈ offers, ∀ o' ∈ offers, o.2.productExtId = o'.2.productExtId →
        o.1 = o'.1 := by decide
    exact apart _ own _ own' product
  nameless _ := rfl

theorem rows_listed {rows' rows : List Json} {body : List (String × Json)}
    (object : (listed rows').or (.object []) = .object body)
    (got : FazerCardsAdapter.entries ((Json.get body "data").or (.array [])) = some rows) :
    rows = rows' := by
  cases object
  cases rows' <;> cases got <;> rfl

/-- The rows of the list are of offers on the shelf. -/
theorem Finds.of_list {offer : Option Ours} {json : Json} {body : List (String × Json)}
    {rows : List Json} {row : Json} (finds : Finds offer "/v1/offers" json)
    (object : json.or (.object []) = .object body)
    (got : FazerCardsAdapter.entries ((Json.get body "data").or (.array [])) = some rows)
    (mem : row ∈ rows) : ∃ o ∈ shelved offer, rowOf o = row := by
  cases finds with
  | none_ => cases rows_listed object got ▸ mem
  | all =>
      rw [rows_listed object got] at mem
      exact List.mem_map.mp mem
  | ours path | other path => exact absurd path.symm (productOffersPath_ne_offers _)
  | landed path | failed path => exact absurd path (by decide)

/-- The rows of a product are of offers on it. -/
theorem Finds.of_product {offer : Option Ours} {productExtId : String} {json : Json}
    {body : List (String × Json)} {rows : List Json} {row : Json}
    (finds : Finds offer (productOffersPath productExtId) json)
    (object : json.or (.object []) = .object body) (got : productRows body = some rows)
    (mem : row ∈ rows) :
    ∃ o ∈ shelved offer, o.2.productExtId = productExtId ∧ rowOf o = row := by
  cases finds with
  | none_ path | all path => exact absurd path (productOffersPath_ne_offers _)
  | @ours x path there =>
      obtain rfl := productOffersPath_inj path
      cases object
      cases got
      cases there
      have product : ∀ x ∈ takes, x.productExtId = "1" := by decide
      exact ⟨("o1", x.1), by simp [shelved], product x.1 x.2, (List.mem_singleton.mp mem).symm⟩
  | other path =>
      obtain rfl := productOffersPath_inj path
      cases object
      cases got
      exact ⟨("f7", foreign), by simp [shelved], rfl, (List.mem_singleton.mp mem).symm⟩
  | landed path => exact absurd path (productOffersPath_ne_job _ "j1")
  | failed path => exact absurd path (productOffersPath_ne_job _ "j2")

theorem Finds.of_job {offer : Option Ours} {jobId : String} {json : Json}
    (finds : Finds offer ("/v1/jobs/" ++ jobId) json) :
    jobId = "j1" ∧ json = finishedAs "complete" ∨ jobId = "j2" ∧ json = finishedAs "failed" := by
  have list : "/v1/jobs/" ++ jobId ≠ "/v1/offers" := by
    intro same
    have letters := congrArg (fun path : String => path.toList[4]?) same
    simp [String.toList_append] at letters
  cases finds with
  | none_ path | all path => exact absurd path list
  | ours path | other path => exact absurd path.symm (productOffersPath_ne_job _ _)
  | landed path => exact .inl ⟨(String.append_right_inj "/v1/jobs/").mp path, rfl⟩
  | failed path => exact .inr ⟨(String.append_right_inj "/v1/jobs/").mp path, rfl⟩

/-- What is said of a job is so. -/
theorem told {desk : Desk} {jobId status : String} {job : JobResult}
    (known : status ∈ ["complete", "failed"])
    (read : store.readJob (some jobId) (.ok (finishedAs status)) = .ok job)
    (fate : (status = "complete" → shop.fate desk jobId = some (.lands "o1")) ∧
      (status = "failed" → shop.fate desk jobId = some .fails)) :
    (job.succeeded = true → ∃ id, shop.fate desk jobId = some (.lands id) ∧
      ∀ named, truthyId job.resourceId = some named → named = id) ∧
    (job.succeeded = false → shop.fate desk jobId = some .fails) := by
  rw [readJob_finished jobId status known] at read
  cases read
  simp only [List.mem_cons, List.not_mem_nil, or_false] at known
  rcases known with rfl | rfl
  · exact ⟨fun _ => ⟨"o1", fate.1 rfl, fun named own => (by cases own)⟩,
      fun failed => (by cases failed)⟩
  · exact ⟨fun succeeded => (by cases succeeded), fun _ => fate.2 rfl⟩

theorem honest : store.Honest shop where
  acquire _ := ⟨rfl, rfl⟩
  now _ := ⟨rfl, rfl⟩
  postToken _ _ := ⟨rfl, rfl⟩
  draw _ := ⟨rfl, rfl⟩
  sleep _ _ := ⟨rfl, rfl⟩
  gets {params sent} desk method := by
    refine same_of_offer ?_
    rw [send_server, serve_get method]
    cases read sent.path params desk.offer <;> rfl
  lists {params sent desk response desk'} method path answer expected body rows object listed_ row
      mem view parsed := by
    have finds := read_finds (said_read method answer expected)
    rw [path] at finds
    obtain ⟨o, there, rfl⟩ := finds.of_list object listed_ mem
    exact describes there parsed
  onProduct {params sent desk response desk' productExtId} method path answer expected body rows
      object listed_ row mem view parsed := by
    have finds := read_finds (said_read method answer expected)
    rw [path] at finds
    obtain ⟨o, there, product, rfl⟩ := finds.of_product object listed_ mem
    obtain ⟨x, shown, same, -⟩ := describes there parsed
    refine ⟨x, shown, ?_⟩
    cases (parse_rowOf (mem_offers there)).symm.trans parsed
    exact same.trans product
  jobs {params sent desk response desk' jobId} method path answer expected job read done := by
    have finds := read_finds (said_read method answer expected)
    rw [path] at finds
    rcases finds.of_job with ⟨rfl, said⟩ | ⟨rfl, said⟩ <;> rw [said] at read
    · exact told (by decide) read ⟨fun _ => rfl, fun other => absurd other (by decide)⟩
    · exact told (by decide) read ⟨fun other => absurd other (by decide), fun _ => rfl⟩
  posts {body sent draft} desk method path asks := by
    rcases serve_post method asks (send_server (.jsonBody body) sent desk) with
      ⟨offer, -⟩ | ⟨opens, -⟩
    · exact .inl (same_of_offer offer).kept
    · exact .inr ⟨_, opens⟩
  posted {body sent draft desk response desk'} method path asks answer expected job read := by
    obtain ⟨status, -, offer⟩ := answered answer
    rcases serve_post method asks offer with ⟨-, refused⟩ | ⟨opens, said⟩
    · exact absurd (status ▸ expected) refused
    · have full : response.status ≠ 204 := fun empty => by
        rw [empty] at expected
        exact absurd expected (by decide : 204 ∉ [200, 201, 202])
      rw [said_served answer full said (by simp [bodies]),
        readJob_accepted (by decide)] at read
      cases read
      refine .inl ⟨"o1", opens, fun named own => (by cases own), fun jobId own => ?_⟩
      obtain rfl := Option.some.inj own
      rfl
  patches {body sent id change} desk method path asks := by
    rcases serve_patch method path asks (send_server (.jsonBody body) sent desk) with
      ⟨offer, -⟩ | ⟨changes, -⟩ | ⟨offer, -⟩
    · exact .inl (same_of_offer offer).kept
    · exact .inr changes
    · exact .inl (same_of_offer offer).kept
  patched {body sent id change desk response desk'} method path asks answer expected job read := by
    obtain ⟨status, -, offer⟩ := answered answer
    have full : response.status ≠ 204 := fun empty => by
      rw [empty] at expected
      exact absurd expected (by decide : 204 ∉ [200, 202])
    rcases serve_patch method path asks offer with
      ⟨-, refused⟩ | ⟨changes, rfl, said⟩ | ⟨-, there, said⟩
    · exact absurd (status ▸ expected) refused
    · rw [said_served answer full said (by simp [bodies]), readJob_accepted (by decide)] at read
      cases read
      refine .inl ⟨changes, fun jobId own => ?_⟩
      obtain rfl := Option.some.inj own
      rfl
    · rw [said_served answer full said (by simp [bodies]), readJob_accepted (by decide)] at read
      cases read
      exact .inr ⟨there, "j2", rfl, rfl⟩

/-- What is found of a product is all of its offers. -/
theorem Finds.exhibits {desk : Desk} {productExtId : String} {json : Json}
    (finds : Finds desk.offer (productOffersPath productExtId) json) :
    ∃ body rows views, json = .object body ∧ productRows body = some rows ∧
      G2AAdapter.Parses store.lists.parseOffer rows views ∧
      Exhibits (fun x => x.productExtId = productExtId) views (shop.shelf desk) := by
  have one : ∀ o ∈ shelved desk.offer, o.2.productExtId = productExtId →
      (∀ o' ∈ shelved desk.offer, o'.2.productExtId = productExtId → o' = o) →
      G2AAdapter.Parses store.lists.parseOffer [rowOf o] [viewOf o] ∧
        Exhibits (fun x => x.productExtId = productExtId) [viewOf o] (shop.shelf desk) := by
    intro o there own alone
    have only : ∀ o', o' ∈ [o] ↔
        o' ∈ shelved desk.offer ∧ o'.2.productExtId = productExtId := by
      intro o'
      rw [List.mem_singleton]
      constructor
      · rintro rfl
        exact ⟨there, own⟩
      · exact fun shown => alone o' shown.1 shown.2
    have shows : Exhibits (fun x => x.productExtId = productExtId) ([o].map viewOf)
        (shop.shelf desk) := Desk.exhibits only
    exact ⟨.cons (parse_rowOf (mem_offers there)) .nil, shows⟩
  have product : ∀ x ∈ takes, x.productExtId = "1" := by decide
  cases finds with
  | none_ path | all path => exact absurd path (productOffersPath_ne_offers _)
  | @ours x path there =>
      obtain rfl := productOffersPath_inj path
      have alone : ∀ o' ∈ shelved desk.offer, o'.2.productExtId = "1" → o' = ("o1", x.1) := by
        rw [Option.mem_def.mp there]
        simp [shelved, foreign]
      exact ⟨_, _, _, rfl, rfl, one ("o1", x.1) (by simp [shelved, Option.mem_def.mp there])
        (product x.1 x.2) alone⟩
  | other path =>
      obtain rfl := productOffersPath_inj path
      have alone : ∀ o' ∈ shelved desk.offer, o'.2.productExtId = "7" → o' = ("f7", foreign) := by
        intro o' mem own
        rcases List.mem_append.mp mem with ours | other
        · obtain ⟨x, -, rfl⟩ := Option.map_eq_some_iff.mp (Option.mem_toList.mp ours)
          rw [product x.1 x.2] at own
          exact absurd own (by decide)
        · exact List.mem_singleton.mp other
      exact ⟨_, _, _, rfl, rfl, one ("f7", foreign) (by simp [shelved]) rfl alone⟩
  | landed path => exact absurd path (productOffersPath_ne_job _ "j1")
  | failed path => exact absurd path (productOffersPath_ne_job _ "j2")

theorem read_shelved {offer : Option Ours} {o : String × Shown} (params : Params)
    (there : o ∈ shelved offer) :
    ∃ body, read (productOffersPath o.2.productExtId) params offer = some body := by
  have product : ∀ x ∈ takes, x.productExtId = "1" := by decide
  unfold read
  rw [if_neg (productOffersPath_ne_offers _)]
  rcases List.mem_append.mp there with ours | other
  · obtain ⟨x, held, rfl⟩ := Option.map_eq_some_iff.mp (Option.mem_toList.mp ours)
    rw [product x.1 x.2, if_pos rfl, held]
    exact ⟨_, rfl⟩
  · obtain rfl := List.mem_singleton.mp other
    rw [if_neg (by decide)]
    exact ⟨_, if_pos rfl⟩

theorem shows : store.Open shop fun desk => (shelved desk.offer).map rowOf where
  toHonest := honest
  steady {desk desk'} same := by
    have offer : desk'.offer = desk.offer := by
      have shelf := congrFun same.1 "o1"
      simp only [shop, if_pos] at shelf
      exact Option.map_injective Subtype.val_injective shelf
    rw [offer]
  exhibits desk := ⟨_, parses_rows fun o mem => mem_offers mem,
    exhibits fun o => ⟨fun mem => ⟨mem, trivial⟩, And.left⟩⟩
  pages {page sent desk response desk'} method path answer expected := by
    have found := said_read method answer expected
    rw [read, path, if_pos rfl] at found
    have said : store.said response = listed (G2AAdapter.pageOf G2AAdapter.offersPageSize page
        ((shelved desk.offer).map rowOf)) := (Option.some.inj found).symm
    exact ⟨_, [], said, G2AAdapter.or_array _, rfl, fun n known => (by cases known)⟩
  ofProduct {params sent desk response desk' productExtId} method path answer expected := by
    have finds := read_finds (said_read method answer expected)
    rw [path] at finds
    exact finds.exhibits
  missing {params sent desk response desk' productExtId} method path answer missing id x there := by
    rintro rfl
    obtain ⟨body, found⟩ := read_shelved params (mem_shelved.mpr there)
    have status := (answered answer).1
    rw [serve_get method, path, found, missing] at status
    cases status
  token {credentials desk status text payload desk'} posted := by
    cases posted
    decide

/-- A create whose answer is lost, one that is refused, and an update that is sent twice. -/
def created : G2AState Desk :=
  (store.createOffer "1" 20 5 true "all" (store.createOffer "1" (28751 / 2500) 5 true "all"
    (.new ⟨none, 0⟩)).2).2

def updated : Except Exn JobResult × G2AState Desk :=
  store.updateOffer "o1" none (some 4) none none none created

/-- And the list of the offers after that. -/
def relisted : Except Exn (List StoreOfferView) × G2AState Desk := store.listOffers 1 updated.2

theorem calls_applied_updated : updated.2.server.sends = 4 ∧
    updated.2.server.offer.map Subtype.val = some ⟨"1", 23 / 2, 4, true⟩ ∧
    (∃ x, shop.Changes "o1" ⟨none, some 4, none⟩ x created.server updated.2.server) ∧
    Exhibits (fun _ => True)
      [⟨"o1", "1", some (23 / 2), 4, "active"⟩, ⟨"f7", "7", some 3, 1, "active"⟩]
      (shop.shelf updated.2.server) := by
  have update := (calls_applied store shop _ shows created).2.2.2.2
  have list := (calls_applied store shop _ shows updated.2).1
  have returned : updated.1 = .ok ⟨"j1", "pending", none, []⟩ := by decide +kernel
  have views : relisted.1 = .ok [⟨"o1", "1", some (23 / 2), 4, "active"⟩,
      ⟨"f7", "7", some 3, 1, "active"⟩] := by decide +kernel
  refine ⟨by decide +kernel, by decide +kernel, ?_, (list 1 relisted.1 relisted.2 rfl).2 _ views⟩
  rcases (update "o1" none (some 4) none none updated.1 updated.2 rfl).2 _ returned with
    ⟨changes, -⟩ | ⟨-, jobId, named, fails⟩
  · exact changes
  · obtain rfl := Option.some.inj named
    exact absurd fails (by decide)

end Desk

end FazerBridge
