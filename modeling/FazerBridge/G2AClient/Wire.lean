import FazerBridge.G2AClient.Bodies
import FazerBridge.HttpClient.Effects

/-!
# Offers over the wire

A store at the other end of a link that may lose requests and answers.  `Honest` is its
contract for one exchange.  From it follows what a call does, however often it is sent: a
create is sent once and opens at most one offer (`createOffer_spec`), an update is made once
or not at all (`updateOffer_spec`), and the rest changes nothing.  So the adapter meets the
contract that the offer sync relies on (`Honest.atomic`).

An `Open` store also hides none of its offers, and then the reads return all that it shows
(`listOffers_all`, `offersForProduct_all`).
-/

namespace FazerBridge

open OfferSync

/-! ## What a call does to the store -/

namespace OfferSync.StoreState

variable {S : Type} {shop : StoreState S} {change : Change} {draft x y : Shown} {id : String}
  {s s' s'' : S}

/-- The store, behind a client. -/
def served (shop : StoreState S) : StoreState (G2AState S) where
  shelf w := shop.shelf w.server
  fate w := shop.fate w.server

/-- The shelf is as it was. -/
structure Kept (shop : StoreState S) (s s' : S) : Prop extends shop.Grows s s' where
  shelf : shop.shelf s' = shop.shelf s

/-- A new offer is on the shelf. -/
structure Opens (shop : StoreState S) (draft : Shown) (id : String) (s s' : S) : Prop
    extends shop.Grows s s' where
  free : shop.shelf s id = none
  put : shop.shelf s' = Function.update (shop.shelf s) id (some draft)

/-- An offer was changed, and no other. -/
structure Changes (shop : StoreState S) (id : String) (change : Change) (x : Shown) (s s' : S) :
    Prop extends shop.Grows s s' where
  there : shop.shelf s id = some x
  put : shop.shelf s' = Function.update (shop.shelf s) id (some (change.apply x))

/-- The change was made, or not. -/
def Attempts (shop : StoreState S) (id : String) (change : Change) (s s' : S) : Prop :=
  shop.Kept s s' ∨ ∃ x, shop.Changes id change x s s'

theorem Same.kept (same : shop.Same s s') : shop.Kept s s' where
  toGrows := (same.touches (T := fun _ => False)).toGrows
  shelf := same.1

theorem Same.trans (first : shop.Same s s') (second : shop.Same s' s'') : shop.Same s s'' :=
  ⟨second.1.trans first.1, second.2.trans first.2⟩

theorem Opens.of_same (same : shop.Same s s') (opens : shop.Opens draft id s' s'') :
    shop.Opens draft id s s'' where
  toGrows := same.kept.toGrows.trans opens.toGrows
  free := by rw [← same.1, opens.free]
  put := by rw [opens.put, same.1]

theorem Kept.trans (first : shop.Kept s s') (second : shop.Kept s' s'') : shop.Kept s s'' where
  toGrows := first.toGrows.trans second.toGrows
  shelf := second.shelf.trans first.shelf

theorem Kept.changes (kept : shop.Kept s s') (changes : shop.Changes id change x s' s'') :
    shop.Changes id change x s s'' where
  toGrows := kept.toGrows.trans changes.toGrows
  there := by rw [← kept.shelf, changes.there]
  put := by rw [changes.put, kept.shelf]

theorem Changes.kept (changes : shop.Changes id change x s s') (kept : shop.Kept s' s'') :
    shop.Changes id change x s s'' where
  toGrows := changes.toGrows.trans kept.toGrows
  there := changes.there
  put := by rw [kept.shelf, changes.put]

/-- The store has one offer on a product, and no job with the empty id. -/
structure Regular (shop : StoreState S) : Prop where
  unique : ∀ {s a b x y}, shop.shelf s a = some x → shop.shelf s b = some y →
    x.productExtId = y.productExtId → a = b
  nameless : ∀ s, shop.fate s "" = none

/-- Making a change again changes nothing. -/
theorem Changes.again (first : shop.Changes id change x s s')
    (second : shop.Changes id change y s' s'') : shop.Changes id change x s s'' where
  toGrows := first.toGrows.trans second.toGrows
  there := first.there
  put := by
    have there : some y = some (change.apply x) := by
      rw [← second.there, first.put, Function.update_self]
    cases there
    rw [second.put, first.put, Function.update_idem, change.apply_apply]

theorem Attempts.changes (attempts : shop.Attempts id change s s')
    (changes : shop.Changes id change y s' s'') : ∃ x, shop.Changes id change x s s'' := by
  rcases attempts with kept | ⟨x, before⟩
  · exact ⟨y, kept.changes changes⟩
  · exact ⟨x, before.again changes⟩

/-- However often a change is attempted, it was made once or not at all. -/
theorem Attempts.trans (first : shop.Attempts id change s s')
    (second : shop.Attempts id change s' s'') : shop.Attempts id change s s'' := by
  rcases second with kept | ⟨y, changes⟩
  · rcases first with kept' | ⟨x, changes⟩
    · exact .inl (kept'.trans kept)
    · exact .inr ⟨x, changes.kept kept⟩
  · exact .inr (first.changes changes)

end OfferSync.StoreState

open StoreState

namespace G2AStore

variable {S : Type} {store : G2AStore S} {shop : StoreState S}

/-- What the caller of a request gets of a response. -/
def said (store : G2AStore S) (response : Response) : Json :=
  if response.status = 204 then .null
  else
    match response.content with
    | .json text => store.loads text
    | .empty | .notJson _ | .tooDeep _ => .null

/-- The view is of an offer on the shelf. -/
def Describes (view : StoreOfferView) (shelf : String → Option Shown) : Prop :=
  ∃ x, shelf view.offerExtId = some x ∧ x.productExtId = view.productExtId ∧
    (∀ p, view.price = some p → x.price = p) ∧ x.inventory = view.inventorySize ∧
      x.active = view.isActive

/-- What an accepted create comes to: a new offer, or a job that will fail. -/
def Accepts (shop : StoreState S) (draft : Shown) (job : JobResult) (s s' : S) : Prop :=
  (∃ id, shop.Opens draft id s s' ∧
    (∀ named, truthyId job.resourceId = some named → named = id) ∧
    ∀ jobId, truthyId (some job.jobId) = some jobId → shop.fate s' jobId = some (.lands id)) ∨
  shop.Kept s s' ∧ truthyId job.resourceId = none ∧
    ∃ jobId, truthyId (some job.jobId) = some jobId ∧ shop.fate s' jobId = some .fails

theorem Accepts.of_same {draft : Shown} {job : JobResult} {s s' s'' : S} (same : shop.Same s s')
    (accepts : Accepts shop draft job s' s'') : Accepts shop draft job s s'' := by
  rcases accepts with ⟨id, opens, names, lands⟩ | ⟨kept, rest⟩
  · exact .inl ⟨id, opens.of_same same, names, lands⟩
  · exact .inr ⟨same.kept.trans kept, rest⟩

/-- What an accepted update comes to: its change, or a job that will fail. -/
def Makes (shop : StoreState S) (id : String) (change : Change) (job : JobResult) (s s' : S) :
    Prop :=
  (∃ x, shop.Changes id change x s s') ∧ (∀ jobId, truthyId (some job.jobId) = some jobId →
    shop.fate s' jobId = some (.lands id)) ∨
  (∃ x, shop.shelf s id = some x) ∧
    ∃ jobId, truthyId (some job.jobId) = some jobId ∧ shop.fate s' jobId = some .fails

/-- What a change was attempted before, it comes to after. -/
theorem Makes.of_attempts {id : String} {change : Change} {job : JobResult} {s s' s'' : S}
    (attempts : shop.Attempts id change s s') (makes : Makes shop id change job s' s'') :
    Makes shop id change job s s'' := by
  rcases makes with ⟨⟨x, changes⟩, lands⟩ | ⟨⟨x, there⟩, fails⟩
  · exact .inl ⟨attempts.changes changes, lands⟩
  · refine .inr ⟨?_, fails⟩
    rcases attempts with kept | ⟨y, changes⟩
    · exact ⟨x, by rw [← kept.shelf, there]⟩
    · exact ⟨y, changes.there⟩

/-- The contract of a store behind a link that may lose anything: what it says is so, and a
write that reached it is applied as a whole, at once, or not. -/
structure Honest (store : G2AStore S) (shop : StoreState S) : Prop where
  acquire : ∀ s, shop.Same s (store.acquire s)
  now : ∀ s, shop.Same s (store.now s).2
  postToken : ∀ credentials s, shop.Same s (store.postToken credentials s).2
  draw : ∀ s, shop.Same s (store.draw s).2
  sleep : ∀ seconds s, shop.Same s (store.sleep seconds s)
  gets : ∀ {params sent} s, sent.method = .get → shop.Same s (store.send (.params params) sent s).2
  lists : ∀ {params sent s response s'}, sent.method = .get → sent.path = "/v1/offers" →
    store.send (.params params) sent s = (.response response, s') →
    response.status ∈ (getRequest sent.path).expected →
    ∀ body rows, (store.said response).or (.object []) = .object body →
      FazerCardsAdapter.entries ((Json.get body "data").or (.array [])) = some rows →
      ∀ row ∈ rows, ∀ view, store.lists.parseOffer row = .ok (some view) →
        Describes view (shop.shelf s)
  onProduct : ∀ {params sent s response s' productExtId}, sent.method = .get →
    sent.path = productOffersPath productExtId →
    store.send (.params params) sent s = (.response response, s') →
    response.status ∈ (getRequest sent.path).expected →
    ∀ body rows, (store.said response).or (.object []) = .object body →
      productRows body = some rows →
      ∀ row ∈ rows, ∀ view, store.lists.parseOffer row = .ok (some view) →
        ∃ x, shop.shelf s view.offerExtId = some x ∧ x.productExtId = productExtId
  jobs : ∀ {params sent s response s' jobId}, sent.method = .get →
    sent.path = "/v1/jobs/" ++ jobId →
    store.send (.params params) sent s = (.response response, s') →
    response.status ∈ (getRequest sent.path).expected →
    ∀ job, store.readJob (some jobId) (.ok (store.said response)) = .ok job →
      job.isFinished = true →
      (job.succeeded = true → ∃ id, shop.fate s jobId = some (.lands id) ∧
        ∀ named, truthyId job.resourceId = some named → named = id) ∧
      (job.succeeded = false → shop.fate s jobId = some .fails)
  posts : ∀ {body sent draft} s, sent.method = .post → sent.path = "/v1/offers" →
    body.draftOf = some draft →
    let s' := (store.send (.jsonBody body) sent s).2
    shop.Kept s s' ∨ ∃ id, shop.Opens draft id s s'
  posted : ∀ {body sent draft s response s'}, sent.method = .post → sent.path = "/v1/offers" →
    body.draftOf = some draft →
    store.send (.jsonBody body) sent s = (.response response, s') →
    response.status ∈ createRequest.expected →
    ∀ job, store.readJob none (.ok (store.said response)) = .ok job →
      Accepts shop draft job s s'
  patches : ∀ {body sent id change} s, sent.method = .patch → sent.path = "/v1/offers/" ++ id →
    body.changeOf = some change →
    shop.Attempts id change s (store.send (.jsonBody body) sent s).2
  patched : ∀ {body sent id change s response s'}, sent.method = .patch →
    sent.path = "/v1/offers/" ++ id → body.changeOf = some change →
    store.send (.jsonBody body) sent s = (.response response, s') →
    response.status ∈ (updateRequest id).expected →
    ∀ job, store.readJob none (.ok (store.said response)) = .ok job →
      Makes shop id change job s s'

/-! ## A store that shows all it has -/

/-- The view is of the offer, in every detail. -/
structure Displays (view : StoreOfferView) (x : Shown) : Prop where
  product : x.productExtId = view.productExtId
  price : view.price = some x.price
  inventory : x.inventory = view.inventorySize
  active : x.active = view.isActive

/-- The views are of the offers with a property, and of all of them. -/
structure Exhibits (P : Shown → Prop) (views : List StoreOfferView)
    (shelf : String → Option Shown) : Prop where
  shown : ∀ view ∈ views, ∃ x, shelf view.offerExtId = some x ∧ P x ∧ Displays view x
  all : ∀ id x, shelf id = some x → P x → ∃ view ∈ views, view.offerExtId = id

/-- Views of the same offers. -/
theorem Exhibits.of_mem_iff {P : Shown → Prop} {views views' : List StoreOfferView}
    {shelf : String → Option Shown} (exhibits : Exhibits P views shelf)
    (same : ∀ view, view ∈ views' ↔ view ∈ views) : Exhibits P views' shelf where
  shown view mem := exhibits.shown view ((same view).mp mem)
  all id x there has := by
    obtain ⟨view, mem, named⟩ := exhibits.all id x there has
    exact ⟨view, (same view).mpr mem, named⟩

/-- The store cuts its pages from one list of all its offers, as long as nothing changes, and
knows the offers of each product. -/
structure Open (store : G2AStore S) (shop : StoreState S) (listing : S → List Json) : Prop
    extends store.Honest shop where
  steady : ∀ {s s'}, shop.Same s s' → listing s' = listing s
  exhibits : ∀ s, ∃ views, G2AAdapter.Parses store.lists.parseOffer (listing s) views ∧
    Exhibits (fun _ => True) views (shop.shelf s)
  pages : ∀ {page sent s response s'}, sent.method = .get → sent.path = "/v1/offers" →
    store.send (.params (G2AAdapter.offersParams "dropshipping" none (page + 1))) sent s =
      (.response response, s') →
    response.status ∈ (getRequest sent.path).expected →
    ∃ body page_, store.said response = .object body ∧
      (Json.get body "data").or (.array []) =
        .array (G2AAdapter.pageOf G2AAdapter.offersPageSize page (listing s)) ∧
      (Json.get body "meta").or (.object []) = .object page_ ∧
      G2AAdapter.Counts (Json.get page_ "totalResults") (listing s)
  ofProduct : ∀ {params sent s response s' productExtId}, sent.method = .get →
    sent.path = productOffersPath productExtId →
    store.send (.params params) sent s = (.response response, s') →
    response.status ∈ (getRequest sent.path).expected →
    ∃ body rows views, store.said response = .object body ∧ productRows body = some rows ∧
      G2AAdapter.Parses store.lists.parseOffer rows views ∧
      Exhibits (fun x => x.productExtId = productExtId) views (shop.shelf s)
  /-- a product without offers is a 404 -/
  missing : ∀ {params sent s response s' productExtId}, sent.method = .get →
    sent.path = productOffersPath productExtId →
    store.send (.params params) sent s = (.response response, s') → response.status = 404 →
    ∀ id x, shop.shelf s id = some x → x.productExtId ≠ productExtId
  /-- and nothing else is -/
  token : ∀ {credentials s status text payload s'},
    store.postToken credentials s = (.response status text payload, s') → status ≠ 404

end G2AStore

/-! ## The client between the sends -/

namespace G2AClient

variable {S : Type} {g2a : G2AClient S} {R : S → S → Prop}

theorem fetchToken_keeps (refl : ∀ s, R s s) (trans : ∀ {a b c}, R a b → R b c → R a c)
    (now : ∀ s, R s (g2a.now s).2) (postToken : ∀ credentials s, R s (g2a.postToken credentials s).2)
    (w : G2AState S) : R w.server (g2a.fetchToken w).2.server := by
  unfold fetchToken
  split
  · exact refl _
  · rename_i credentials _
    have posted := postToken credentials w.server
    split <;> rename_i answer <;> rw [answer] at posted
    · exact posted
    · split
      · exact posted
      · split
        · exact posted
        · split
          · exact posted
          · split
            · exact posted
            · exact trans posted (now _)

theorem token_keeps (refl : ∀ s, R s s) (trans : ∀ {a b c}, R a b → R b c → R a c)
    (now : ∀ s, R s (g2a.now s).2) (postToken : ∀ credentials s, R s (g2a.postToken credentials s).2)
    (w : G2AState S) : R w.server (g2a.token w).2.server := by
  unfold token
  split
  · exact fetchToken_keeps refl trans now postToken w
  · dsimp only
    split
    · exact trans (now w.server) (fetchToken_keeps refl trans now postToken
        { w with server := (g2a.now w.server).2 })
    · exact now w.server

theorem fetchToken_status {w w' : G2AState S} {e : ApiError} {code : ℕ}
    (refused : g2a.fetchToken w = (.error (.api e), w')) (known : e.statusCode = some code) :
    ∃ credentials s text payload s',
      g2a.postToken credentials s = (.response code text payload, s') := by
  unfold fetchToken at refused
  split at refused
  · cases refused
  · rename_i credentials _
    split at refused
    · cases refused
    · rename_i status text payload server posted
      split at refused
      · cases refused
        cases known
        exact ⟨credentials, _, text, payload, server, posted⟩
      · split at refused
        · cases refused
        · split at refused
          · cases refused
            cases known
          · split at refused <;> cases refused

/-- An error of the auth with a status tells of the token endpoint. -/
theorem authHeaders_status {w w' : G2AState S} {e : ApiError} {code : ℕ}
    (refused : g2a.base.authHeaders w = (.error (.api e), w')) (known : e.statusCode = some code) :
    ∃ credentials s text payload s',
      g2a.postToken credentials s = (.response code text payload, s') := by
  change g2a.authHeaders w = _ at refused
  unfold authHeaders at refused
  split at refused
  · cases refused
  · rename_i failed
    cases refused
    unfold token at failed
    split at failed
    · exact fetchToken_status failed known
    · dsimp only at failed
      split at failed
      · exact fetchToken_status failed known
      · cases failed

/-- What the server's side of the hooks keeps, the client keeps between its sends. -/
theorem quiet (refl : ∀ s, R s s) (trans : ∀ {a b c}, R a b → R b c → R a c)
    (acquire : ∀ s, R s (g2a.acquire s)) (now : ∀ s, R s (g2a.now s).2)
    (postToken : ∀ credentials s, R s (g2a.postToken credentials s).2)
    (draw : ∀ s, R s (g2a.draw s).2) (sleep : ∀ seconds s, R s (g2a.sleep seconds s)) :
    g2a.base.Quiet fun w w' => R w.server w'.server where
  refl w := refl w.server
  trans := trans
  acquire w := acquire w.server
  onAuthFailure w := refl w.server
  draw w := draw w.server
  sleep seconds w := sleep seconds w.server
  authHeaders w := by
    have held := token_keeps refl trans now postToken w
    change R w.server (g2a.authHeaders w).2.server
    unfold authHeaders
    split <;> rename_i answer <;> rw [answer] at held <;> exact held

end G2AClient

namespace G2AStore

variable {S : Type} {store : G2AStore S} {shop : StoreState S}

theorem Honest.quiet (honest : store.Honest shop) (payload : Payload) :
    (store.client payload).base.Quiet fun w w' => shop.Same w.server w'.server :=
  G2AClient.quiet (R := shop.Same) (fun _ => ⟨rfl, rfl⟩) Same.trans honest.acquire honest.now
    honest.postToken honest.draw honest.sleep

theorem Honest.quietly (honest : store.Honest shop) (payload : Payload) (id : String)
    (change : Change) : (store.client payload).base.Quiet fun w w' =>
      shop.Attempts id change w.server w'.server :=
  G2AClient.quiet (R := shop.Attempts id change) (fun _ => .inl (Same.kept ⟨rfl, rfl⟩))
    Attempts.trans (fun s => .inl (honest.acquire s).kept) (fun s => .inl (honest.now s).kept)
    (fun credentials s => .inl (honest.postToken credentials s).kept)
    (fun s => .inl (honest.draw s).kept) fun seconds s => .inl (honest.sleep seconds s).kept

/-- What is returned of an answered request is what its response said. -/
theorem said_of_body {payload : Payload} {request : Request} {response : Response}
    {value : Option String}
    (body : (store.client payload).base.body request response = .ok value) :
    (value.map store.loads).getD .null = store.said response := by
  unfold BaseApiClient.body at body
  unfold said
  split at body
  · rename_i empty
    cases body
    rw [if_pos empty]
    rfl
  · rename_i full
    rw [if_neg full]
    split at body <;> cases body <;> rename_i content <;> rw [content] <;> rfl

/-- The last exchange of a request that returned. -/
structure Returned (store : G2AStore S) (payload : Payload) (request : Request)
    (w w' : G2AState S) (json : Json) (sent : Sent) (response : Response) : Prop where
  method : sent.method = request.method
  path : sent.path = request.path
  answered : store.send payload sent w.server = (.response response, w'.server)
  expected : response.status ∈ request.expected
  said : json = store.said response

theorem Returned.of_answered {payload : Payload} {request : Request} {w w' : G2AState S}
    {value : Option String}
    (answered : (store.client payload).base.Answered request w w' value) :
    ∃ sent response, store.Returned payload request w w' ((value.map store.loads).getD .null)
      sent response := by
  obtain ⟨sent, response, ⟨auth, w₀, -, wire⟩, answer, expected, body⟩ := answered
  have answered : (((store.client payload).base.send sent w).1,
      ((store.client payload).base.send sent w).2.server) = (Outcome.response response, w'.server) := by
    rw [answer]
  exact ⟨sent, response,
    ⟨by rw [wire], by rw [wire], answered, expected, said_of_body body⟩⟩

theorem request_answer {payload : Payload} {request : Request} {w w' : G2AState S}
    {answer : Except Exn Json} (called : store.request payload request w = (answer, w')) :
    ((store.client payload).base.request request w).world = w' ∧
      ∀ json, answer = .ok json → ∃ value,
        ((store.client payload).base.request request w).result = .ok value ∧
        (value.map store.loads).getD .null = json := by
  unfold G2AStore.request at called
  obtain ⟨made, world⟩ := Prod.mk.inj called
  refine ⟨world, fun json same => ?_⟩
  rw [same] at made
  cases result : ((store.client payload).base.request request w).result with
  | error e =>
      rw [result] at made
      cases made
  | ok value =>
      rw [result] at made
      exact ⟨value, rfl, Except.ok.inj made⟩

/-- A request whose sends keep a relation, and what it returns with. -/
theorem request_effects {payload : Payload} {request : Request} {w w' : G2AState S}
    {answer : Except Exn Json} {R : G2AState S → G2AState S → Prop}
    (quiet : (store.client payload).base.Quiet R)
    (sends : ∀ {sent : Sent} (w : G2AState S), sent.method = request.method →
      sent.path = request.path → R w ((store.client payload).base.send sent w).2)
    (called : store.request payload request w = (answer, w')) :
    R w w' ∧ ∀ json, answer = .ok json → ∃ w₁ sent response, R w w₁ ∧
      store.Returned payload request w₁ w' json sent response := by
  obtain ⟨rfl, value⟩ := request_answer called
  obtain ⟨kept, returned⟩ := BaseApiClient.Loops.effects quiet (fun w wired => by
      obtain ⟨auth, w₀, -, rfl⟩ := wired
      exact sends w rfl rfl)
    (BaseApiClient.loop_spec _ request 0 false w)
  refine ⟨kept, fun json same => ?_⟩
  obtain ⟨value, result, rfl⟩ := value json same
  obtain ⟨w₁, before, answered⟩ := returned value result
  obtain ⟨sent, response, returned⟩ := Returned.of_answered answered
  exact ⟨w₁, sent, response, before, returned⟩

/-- A request that may not be repeated is sent once, or fails unsent. -/
theorem request_once {payload : Payload} {request : Request} {w w' : G2AState S}
    {answer : Except Exn Json} {R : G2AState S → G2AState S → Prop}
    (quiet : (store.client payload).base.Quiet R) (single : request.retrying = false)
    (called : store.request payload request w = (answer, w')) :
    (R w w' ∧ ∀ json, answer ≠ .ok json) ∨
    ∃ w₁ sent, R w w₁ ∧ sent.method = request.method ∧ sent.path = request.path ∧
      w'.server = (store.send payload sent w₁.server).2 ∧
      ∀ json, answer = .ok json →
        ∃ sent response, store.Returned payload request w₁ w' json sent response := by
  obtain ⟨rfl, value⟩ := request_answer called
  rcases BaseApiClient.Loops.once quiet single
    (BaseApiClient.loop_spec _ request 0 false w) with
    ⟨kept, -, e, failed⟩ | ⟨w₁, sent, outcome, before, ⟨auth, w₀, -, wire⟩, answered, -, returned⟩
  · refine .inl ⟨kept, fun json same => ?_⟩
    obtain ⟨value, result, -⟩ := value json same
    cases result.symm.trans failed
  · refine .inr ⟨w₁, sent, before, by rw [wire], by rw [wire],
      (congrArg (fun made => G2AState.server made.2) answered).symm, fun json same => ?_⟩
    obtain ⟨value, result, rfl⟩ := value json same
    exact Returned.of_answered (returned value result)

/-! ## Reads -/

theorem get_effects (honest : store.Honest shop) {path : String} {params : Params}
    {w w' : G2AState S} {answer : Except Exn Json} (called : store.get path params w = (answer, w')) :
    shop.Same w.server w'.server ∧ ∀ json, answer = .ok json → ∃ w₁ sent response,
      shop.Same w.server w₁.server ∧
      store.Returned (.params params) (getRequest path) w₁ w' json sent response :=
  request_effects (honest.quiet _) (fun w method _ => honest.gets w.server method) called

theorem mem_yieldAll {A : Type} {parse : Json → Except Exn (Option A)} {records : List Json} {a : A}
    (mem : a ∈ (G2AAdapter.yieldAll parse records).1) :
    ∃ record ∈ records, parse record = .ok (some a) := by
  induction records with
  | nil => cases mem
  | cons record records ih =>
      rw [G2AAdapter.yieldAll] at mem
      split at mem
      · cases mem
      · rename_i item parsed
        rcases List.mem_append.mp mem with first | later
        · obtain rfl := Option.mem_toList.mp first
          exact ⟨record, List.mem_cons_self, parsed⟩
        · obtain ⟨record', there, parsed'⟩ := ih later
          exact ⟨record', List.mem_cons_of_mem _ there, parsed'⟩

/-- What a page of offers yields are its rows. -/
theorem mem_readOffers {W : Type} {adapter : G2AAdapter W} {page : ℕ} {answer : Except Exn Json}
    {view : StoreOfferView} (mem : view ∈ (adapter.readOffers page answer).yields) :
    ∃ payload body rows, answer = .ok payload ∧ payload.or (.object []) = .object body ∧
      FazerCardsAdapter.entries ((Json.get body "data").or (.array [])) = some rows ∧
      ∃ row ∈ rows, adapter.parseOffer row = .ok (some view) := by
  unfold G2AAdapter.readOffers at mem
  split at mem
  · cases mem
  · rename_i payload
    split at mem
    · rename_i body object
      split at mem
      · cases mem
      · rename_i rows listed
        have yielded : view ∈ (G2AAdapter.yieldAll adapter.parseOffer rows).1 := by
          split at mem
          · rename_i all
            rw [all]
            exact mem
          · rename_i all
            rw [all]
            split at mem <;> exact mem
        exact ⟨payload, body, rows, rfl, object, listed, mem_yieldAll yielded⟩
    · cases mem

theorem listOffers_spec (honest : store.Honest shop) {fuel : ℕ} {w w' : G2AState S}
    {r : Except Exn (List StoreOfferView)} (called : store.listOffers fuel w = (r, w')) :
    shop.Same w.server w'.server ∧
      ∀ views, r = .ok views → ∀ view ∈ views, Describes view (shop.shelf w.server) := by
  have step : ∀ page w₁, shop.Same w.server w₁.server →
      shop.Same w.server (store.lists.offersTurn "dropshipping" none page w₁).2.server ∧
        ∀ view ∈ (store.lists.offersTurn "dropshipping" none page w₁).1.yields,
          Describes view (shop.shelf w.server) := by
    intro page w₁ before
    obtain ⟨same, returned⟩ := get_effects honest
      (rfl : store.get "/v1/offers" (G2AAdapter.offersParams "dropshipping" none page) w₁ = _)
    refine ⟨before.trans same, fun view mem => ?_⟩
    obtain ⟨payload, body, rows, answered, object, listed, row, there, parsed⟩ := mem_readOffers mem
    obtain ⟨w₂, sent, response, between, last⟩ := returned payload answered
    have described := honest.lists last.method last.path last.answered
      (by rw [last.path]; exact last.expected) body rows (by rw [← last.said, object]) listed row
      there view parsed
    rw [show shop.shelf w₂.server = shop.shelf w.server from (before.trans between).1] at described
    exact described
  obtain ⟨same, described⟩ := Paging.walk_keeps step fuel 1 ⟨rfl, rfl⟩
  unfold G2AStore.listOffers at called
  obtain ⟨made, rfl⟩ := Prod.mk.inj called
  refine ⟨same, fun views all view mem => described view ?_⟩
  rw [← made] at all
  split at all <;> cases all
  exact mem

theorem mem_mapM {A : Type} {parse : Json → Except Exn A} {records : List Json} {parsed : List A}
    (all : records.mapM parse = .ok parsed) {a : A} (mem : a ∈ parsed) :
    ∃ record ∈ records, parse record = .ok a := by
  induction records generalizing parsed with
  | nil =>
      cases all
      cases mem
  | cons record records ih =>
      rw [List.mapM_cons] at all
      cases first : parse record with
      | error e =>
          rw [first] at all
          cases all
      | ok value =>
          rw [first] at all
          cases rest : records.mapM parse with
          | error e =>
              rw [rest] at all
              cases all
          | ok values =>
              rw [rest] at all
              cases all
              rcases List.mem_cons.mp mem with rfl | later
              · exact ⟨record, List.mem_cons_self, first⟩
              · obtain ⟨record', there, parsed⟩ := ih rest later
                exact ⟨record', List.mem_cons_of_mem _ there, parsed⟩

theorem mem_readProductOffers {payload : Json} {views : List StoreOfferView}
    (read : store.readProductOffers payload = .ok views) {view : StoreOfferView}
    (mem : view ∈ views) :
    ∃ body rows, payload.or (.object []) = .object body ∧ productRows body = some rows ∧
      ∃ row ∈ rows, store.lists.parseOffer row = .ok (some view) := by
  unfold readProductOffers G2AAdapter.fields at read
  split at read
  · rename_i body object
    cases listed : productRows body with
    | none =>
        simp only [listed, bind, Except.bind] at read
        cases read
    | some rows =>
        simp only [listed, bind, Except.bind] at read
        split at read
        · cases read
        · rename_i parsed all
          cases read
          obtain ⟨some_, there, same⟩ := List.mem_filterMap.mp mem
          cases same
          exact ⟨body, rows, object, listed, mem_mapM all there⟩
  · cases read

theorem offersForProduct_spec (honest : store.Honest shop) {productExtId : String}
    {w w' : G2AState S} {r : Except Exn (List StoreOfferView)}
    (called : store.offersForProduct productExtId w = (r, w')) :
    shop.Same w.server w'.server ∧ ∀ views, r = .ok views → ∀ view ∈ views,
      ∃ x, shop.shelf w.server view.offerExtId = some x ∧ x.productExtId = productExtId := by
  unfold G2AStore.offersForProduct at called
  cases got : store.get (productOffersPath productExtId) [] w with
  | mk answer w₁ =>
      obtain ⟨same, returned⟩ := get_effects honest got
      simp only [got] at called
      cases answer with
      | ok payload =>
          cases called
          refine ⟨same, fun views read view mem => ?_⟩
          obtain ⟨body, rows, object, listed, row, there, parsed⟩ := mem_readProductOffers read mem
          obtain ⟨w₂, sent, response, between, last⟩ := returned payload rfl
          have shown := honest.onProduct last.method last.path last.answered
            (by rw [last.path]; exact last.expected) body rows (by rw [← last.said, object]) listed
            row there view parsed
          rw [show shop.shelf w₂.server = shop.shelf w.server from between.1] at shown
          exact shown
      | error e =>
          cases e with
          | api e =>
              cases called
              refine ⟨same, fun views none_ view mem => ?_⟩
              split at none_ <;> cases none_
              cases mem
          | pricing message | database error | other message =>
              cases called
              exact ⟨same, fun views none_ => by cases none_⟩

theorem lists_offers {listing : S → List Json} (shows : store.Open shop listing) {w : G2AState S}
    {views : List StoreOfferView}
    (parses : G2AAdapter.Parses store.lists.parseOffer (listing w.server) views) :
    Paging.Lists (store.lists.offersTurn "dropshipping" none) True Nat.succ
      G2AAdapter.offersPageSize (fun w₁ => shop.Same w.server w₁.server) (fun _ => ())
      (fun _ => views) where
  keeps page {w₁} same := same.trans (get_effects shows.toHonest
    (rfl : store.get "/v1/offers" (G2AAdapter.offersParams "dropshipping" none page.succ) w₁ = _)).1
  answers page {w₁} same := by
    refine ⟨(), le_rfl, le_rfl, ?_⟩
    cases got : store.get "/v1/offers" (G2AAdapter.offersParams "dropshipping" none page.succ) w₁ with
    | mk answer w₂ =>
        have made : store.lists.offersTurn "dropshipping" none page.succ w₁ =
            (store.lists.readOffers page.succ answer, w₂) := by
          unfold G2AAdapter.offersTurn
          rw [show store.lists.get = store.get from rfl, got]
        rw [made]
        cases answer with
        | error e => exact .inl ⟨e, rfl⟩
        | ok payload =>
            obtain ⟨-, returned⟩ := get_effects shows.toHonest got
            obtain ⟨w₃, sent, response, between, last⟩ := returned payload rfl
            obtain ⟨body, page_, said, rows, known, counts⟩ := shows.pages last.method last.path
              last.answered (by rw [last.path]; exact last.expected)
            rw [shows.steady (same.trans between)] at rows counts
            rw [last.said, said]
            exact .inr (G2AAdapter.cut_offers rows known counts parses)

/-- `list_offers` returns every offer, as it is shown. -/
theorem listOffers_all {listing : S → List Json} (shows : store.Open shop listing) {fuel : ℕ}
    {w w' : G2AState S} {views : List StoreOfferView}
    (called : store.listOffers fuel w = (.ok views, w')) :
    Exhibits (fun _ => True) views (shop.shelf w.server) := by
  obtain ⟨all, parses, exhibits⟩ := shows.exhibits w.server
  unfold G2AStore.listOffers at called
  obtain ⟨made, -⟩ := Prod.mk.inj called
  split at made <;> cases made
  rename_i done
  obtain ⟨-, -, sound, complete⟩ := (lists_offers shows parses).walk id 0 ⟨rfl, rfl⟩ done
  refine exhibits.of_mem_iff fun view => ⟨fun mem => ?_, fun mem => ?_⟩
  · obtain ⟨-, -, -, mem⟩ := sound view mem
    exact mem
  · obtain ⟨view', mem', rfl⟩ := complete trivial (fun _ _ _ _ _ => List.prefix_rfl) view
      (by rw [Nat.zero_mul]; exact mem)
    exact mem'

theorem mapM_parses {parse : Json → Except Exn (Option StoreOfferView)} {rows : List Json}
    {views : List StoreOfferView} (parses : G2AAdapter.Parses parse rows views) :
    rows.mapM parse = .ok (views.map some) := by
  induction parses with
  | nil => rfl
  | cons parsed _ ih =>
      rw [List.mapM_cons, parsed, ih]
      rfl

/-- An error with the status of a missing resource is about the resource. -/
theorem get_missing {listing : S → List Json} (shows : store.Open shop listing) {path : String}
    {params : Params} {w w' : G2AState S} {e : ApiError}
    (called : store.get path params w = (.error (.api e), w')) (missing : e.statusCode = some 404) :
    ∃ (w₁ : G2AState S) (sent : Sent) (response : Response), shop.Same w.server w₁.server ∧
      sent.method = .get ∧ sent.path = path ∧
      store.send (.params params) sent w₁.server = (.response response, w'.server) ∧
      response.status = 404 := by
  unfold G2AStore.get G2AStore.request at called
  obtain ⟨made, rfl⟩ := Prod.mk.inj called
  have failed : ((store.client (.params params)).base.request (getRequest path) w).result =
      .error (.api e) := by
    cases result : ((store.client (.params params)).base.request (getRequest path) w).result with
    | ok value =>
        rw [result] at made
        cases made
    | error e' =>
        rw [result] at made
        cases made
        rfl
  rcases BaseApiClient.Loops.status (shows.quiet (.params params)) (fun w₁ wired => by
      obtain ⟨auth, w₀, -, rfl⟩ := wired
      exact shows.gets w₁.server rfl)
    (BaseApiClient.loop_spec _ (getRequest path) 0 false w) failed missing with
    ⟨w₁, w₂, refused⟩ | ⟨w₁, sent, response, between, ⟨auth, w₀, -, wire⟩, answer, status⟩
  · obtain ⟨credentials, s, text, payload, s', posted⟩ :=
      G2AClient.authHeaders_status refused missing
    exact absurd rfl (shows.token posted)
  · have answered : (((store.client (.params params)).base.send sent w₁).1,
        ((store.client (.params params)).base.send sent w₁).2.server) =
          (Outcome.response response, ((store.client (.params params)).base.request
            (getRequest path) w).world.server) := by
      rw [answer]
      rfl
    exact ⟨w₁, sent, response, between, by rw [wire]; rfl, by rw [wire]; rfl, answered, status⟩

/-- `offers_for_product` returns every offer on the product, as it is shown. -/
theorem offersForProduct_all {listing : S → List Json} (shows : store.Open shop listing)
    {productExtId : String} {w w' : G2AState S} {views : List StoreOfferView}
    (called : store.offersForProduct productExtId w = (.ok views, w')) :
    Exhibits (fun x => x.productExtId = productExtId) views (shop.shelf w.server) := by
  unfold G2AStore.offersForProduct at called
  cases got : store.get (productOffersPath productExtId) [] w with
  | mk answer w₁ =>
      simp only [got] at called
      cases answer with
      | ok payload =>
          obtain ⟨-, returned⟩ := get_effects shows.toHonest got
          obtain ⟨w₂, sent, response, between, last⟩ := returned payload rfl
          obtain ⟨body, rows, all, said, listed, parses, exhibits⟩ := shows.ofProduct last.method
            last.path last.answered (by rw [last.path]; exact last.expected)
          have read : store.readProductOffers payload = .ok all := by
            rw [last.said, said]
            unfold readProductOffers
            rw [G2AAdapter.or_object]
            simp only [G2AAdapter.fields, bind, Except.bind, listed]
            rw [mapM_parses parses]
            simp [pure, Except.pure]
          cases read.symm.trans (Prod.mk.inj called).1
          rw [between.1] at exhibits
          exact exhibits
      | error e =>
          cases e with
          | api e =>
              obtain ⟨made, -⟩ := Prod.mk.inj called
              split at made <;> cases made
              rename_i missing
              obtain ⟨w₂, sent, response, between, method, path, answered, status⟩ :=
                get_missing shows got missing
              refine ⟨fun view mem => (by cases mem), fun id x there own => ?_⟩
              rw [← between.1] at there
              exact absurd own (shows.missing method path answered status id x there)
          | pricing message | database error | other message => cases called

/-- A job is read of an answer. -/
theorem answer_of_readJob {jobId : Option String} {answer : Except Exn Json} {job : JobResult}
    (read : store.readJob jobId answer = .ok job) : ∃ json, answer = .ok json := by
  cases answer with
  | error e => cases read
  | ok json => exact ⟨json, rfl⟩

theorem getJob_spec (honest : store.Honest shop) {jobId : String} {w w' : G2AState S}
    {r : Except Exn JobResult} (called : store.getJob jobId w = (r, w')) :
    shop.Same w.server w'.server ∧ ∀ job, r = .ok job → job.isFinished = true →
      (job.succeeded = true → ∃ id, shop.fate w.server jobId = some (.lands id) ∧
        ∀ named, truthyId job.resourceId = some named → named = id) ∧
      (job.succeeded = false → shop.fate w.server jobId = some .fails) := by
  unfold G2AStore.getJob at called
  cases got : store.get ("/v1/jobs/" ++ jobId) [] w with
  | mk answer w₁ =>
      obtain ⟨same, returned⟩ := get_effects honest got
      simp only [got] at called
      obtain ⟨made, rfl⟩ := Prod.mk.inj called
      refine ⟨same, fun job read finished => ?_⟩
      obtain ⟨payload, rfl⟩ := answer_of_readJob (made.trans read)
      obtain ⟨w₂, sent, response, between, last⟩ := returned payload rfl
      have fates := honest.jobs last.method last.path last.answered
        (by rw [last.path]; exact last.expected) job (by rw [← last.said, made, read]) finished
      rw [show shop.fate w₂.server = shop.fate w.server from between.2] at fates
      exact fates

/-! ## Writes -/

theorem createOffer_spec (honest : store.Honest shop) {productExtId visibility : String} {price : ℚ}
    {inventorySize : ℤ} {active : Bool} {w w' : G2AState S} {r : Except Exn JobResult}
    (called : store.createOffer productExtId price inventorySize active visibility w = (r, w')) :
    let draft : Shown := ⟨productExtId, Pricing.quantize (1 / 100) price, inventorySize, active⟩
    (shop.Kept w.server w'.server ∨ ∃ id, shop.Opens draft id w.server w'.server) ∧
      ∀ job, r = .ok job → Accepts shop draft job w.server w'.server := by
  have asks := Json.draftOf_createBody productExtId price inventorySize active visibility
  unfold G2AStore.createOffer at called
  cases asked : store.request (.jsonBody (createBody productExtId price inventorySize active
      visibility)) createRequest w with
  | mk answer w₁ =>
      simp only [asked] at called
      obtain ⟨made, rfl⟩ := Prod.mk.inj called
      rcases request_once (honest.quiet _) rfl asked with
        ⟨same, failed⟩ | ⟨w₂, sent, same, method, path, world, returned⟩
      · refine ⟨.inl same.kept, fun job read => ?_⟩
        obtain ⟨json, same⟩ := answer_of_readJob (made.trans read)
        exact absurd same (failed json)
      · constructor
        · have posted := honest.posts w₂.server method path asks
          simp only [← world] at posted
          rcases posted with kept | ⟨id, opens⟩
          · exact .inl (same.kept.trans kept)
          · exact .inr ⟨id, Opens.of_same same opens⟩
        · intro job read
          obtain ⟨json, rfl⟩ := answer_of_readJob (made.trans read)
          obtain ⟨sent, response, last⟩ := returned json rfl
          exact Accepts.of_same same (honest.posted last.method last.path asks last.answered
            last.expected job (by rw [← last.said, made, read]))

theorem updateOffer_spec (honest : store.Honest shop) {offerExtId : String} {price : Option ℚ}
    {inventorySize : Option ℤ} {active : Option Bool} {visibility : Option String}
    {w w' : G2AState S} {r : Except Exn JobResult}
    (called : store.updateOffer offerExtId price inventorySize active none visibility w = (r, w')) :
    let change : Change := ⟨price.map (Pricing.quantize (1 / 100)), inventorySize, active⟩
    shop.Attempts offerExtId change w.server w'.server ∧
      ∀ job, r = .ok job → Makes shop offerExtId change job w.server w'.server := by
  have asks := Json.changeOf_updateBody price inventorySize active visibility
  unfold G2AStore.updateOffer at called
  split at called
  · cases called
    exact ⟨.inl (Same.kept ⟨rfl, rfl⟩), fun job none_ => by cases none_⟩
  · cases asked : store.request (.jsonBody (updateBody (variant price inventorySize active none
        visibility))) (updateRequest offerExtId) w with
    | mk answer w₁ =>
        simp only [asked] at called
        obtain ⟨made, rfl⟩ := Prod.mk.inj called
        obtain ⟨attempts, returned⟩ := request_effects (honest.quietly _ offerExtId _)
          (fun w method path => honest.patches w.server method path asks) asked
        refine ⟨attempts, fun job read => ?_⟩
        obtain ⟨json, rfl⟩ := answer_of_readJob (made.trans read)
        obtain ⟨w₂, sent, response, before, last⟩ := returned json rfl
        exact Makes.of_attempts before (honest.patched last.method last.path asks last.answered
          last.expected job (by rw [← last.said, made, read]))

/-! ## The contract of the offer sync -/

theorem grows_served {w w' : G2AState S} (grows : shop.Grows w.server w'.server) :
    shop.served.Grows w w' :=
  ⟨grows.offers, grows.fates⟩

theorem touches_kept {T : String → Prop} {w w' : G2AState S}
    (kept : shop.Kept w.server w'.server) : shop.served.Touches T w w' :=
  ⟨grows_served kept.toGrows, fun id => .inl (congrFun kept.shelf id)⟩

theorem touches_attempts {id : String} {change : Change} {w w' : G2AState S}
    (attempts : shop.Attempts id change w.server w'.server) :
    shop.served.Touches (fun product => ∃ x, shop.served.shelf w id = some x ∧
      x.productExtId = product) w w' := by
  rcases attempts with kept | ⟨x, changes⟩
  · exact touches_kept kept
  · refine ⟨grows_served changes.toGrows, fun id' => ?_⟩
    by_cases same : id' = id
    · rw [same]
      refine .inr ⟨change.apply x, ?_, x, changes.there, rfl⟩
      exact (congrFun changes.put id).trans (Function.update_self ..)
    · exact .inl ((congrFun changes.put id').trans (Function.update_of_ne same ..))

theorem touches_opens {draft : Shown} {id : String} {w w' : G2AState S}
    (opens : shop.Opens draft id w.server w'.server) :
    shop.served.Touches (fun product => product = draft.productExtId) w w' := by
  refine ⟨grows_served opens.toGrows, fun id' => ?_⟩
  by_cases same : id' = id
  · rw [same]
    exact .inr ⟨draft, (congrFun opens.put id).trans (Function.update_self ..), rfl⟩
  · exact .inl ((congrFun opens.put id').trans (Function.update_of_ne same ..))

/-- The adapter over the wire keeps the contract that the offer sync relies on. -/
theorem Honest.atomic (honest : store.Honest shop) (regular : shop.Regular) {fuel : ℕ}
    {sync : OfferSync (G2AState S)} (adapter : sync.adapter = store.adapter fuel)
    (uses : ∀ {w w'}, sync.Uses w w' → shop.Same w.server w'.server) :
    Atomic False sync shop.served where
  unique := regular.unique
  nameless w := regular.nameless w.server
  uses := uses
  listed answer := by
    rw [adapter] at answer
    exact listOffers_spec honest answer
  onProduct answer := by
    rw [adapter] at answer
    exact offersForProduct_spec honest answer
  job answer := by
    rw [adapter] at answer
    exact getJob_spec honest answer
  createRefused answer := by
    rw [adapter] at answer
    refine ⟨?_, False.elim⟩
    rcases (createOffer_spec honest answer).1 with kept | ⟨id, opens⟩
    · exact touches_kept kept
    · exact touches_opens opens
  created {p price inventory active w job w'} answer := by
    rw [adapter] at answer
    rcases (createOffer_spec honest answer).2 job rfl with
      ⟨id, opens, names, lands⟩ | ⟨kept, unnamed, fails⟩
    · exact ⟨grows_served opens.toGrows,
        .inl ⟨id, _, opens.free, rfl, False.elim, opens.put, names, lands⟩⟩
    · exact ⟨grows_served kept.toGrows, .inr ⟨kept.shelf, unnamed, fails⟩⟩
  updateRefused answer := by
    rw [adapter] at answer
    exact ⟨touches_attempts (updateOffer_spec honest answer).1, False.elim⟩
  updated {id price inventory active w job w'} answer := by
    rw [adapter] at answer
    obtain ⟨attempts, makes⟩ := updateOffer_spec honest answer
    rcases makes job rfl with ⟨⟨x, changes⟩, lands⟩ | ⟨⟨x, there⟩, jobId', named, fails⟩
    · exact ⟨grows_served changes.toGrows, x, Change.apply _ x, changes.there, rfl, False.elim,
        changes.put, fun jobId known => .inl (lands jobId known)⟩
    · -- an earlier attempt may have made the change
      have failed : ∀ jobId, truthyId (some job.jobId) = some jobId →
          shop.served.fate w' jobId = some (.lands id) ∨ shop.served.fate w' jobId = some .fails := by
        intro jobId known
        obtain rfl := Option.some.inj (named.symm.trans known)
        exact .inr fails
      rcases attempts with kept | ⟨y, changes⟩
      · refine ⟨grows_served kept.toGrows, x, x, there, rfl, False.elim, ?_, failed⟩
        exact kept.shelf.trans (Function.update_eq_self_iff.mpr there.symm).symm
      · exact ⟨grows_served changes.toGrows, y, Change.apply _ y, changes.there, rfl, False.elim,
          changes.put, failed⟩

end G2AStore

end FazerBridge
