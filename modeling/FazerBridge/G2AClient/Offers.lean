import FazerBridge.G2AClient
import FazerBridge.Text.Numerals

/-!
# The offers of the store

The calls of `G2AAdapter` about single offers and their jobs, over the client with its token.
A write is a JSON body, and its answer a job: the store accepts it and works on it later.
-/

namespace FazerBridge

/-- What a request holds beside its path. -/
inductive Payload
  | params (params : Params)
  | jsonBody (body : Json)

/-- What the adapter of a store account works with. -/
structure G2AStore (S : Type) where
  unicode : Unicode
  credentials : Option (String × String)
  retry : RetrySettings
  decodeError : Response → String
  /-- `response.json()` of a body that is JSON -/
  loads : String → Json
  /-- `str` of a JSON value that is no string -/
  strOther : Json → String
  /-- `int(value)`, or the exception -/
  int : Json → Except Exn ℤ
  /-- `Decimal(text)`, if it is a number -/
  decimal : String → Option ℚ
  acquire : S → S
  now : S → ℚ × S
  postToken : String × String → S → TokenAnswer × S
  /-- `client.request` with such a payload -/
  send : Payload → Sent → S → Outcome × S
  draw : S → ℚ × S
  sleep : ℚ → S → S

namespace G2AStore

variable {S : Type} (store : G2AStore S)

/-- The client, for a request with such a payload. -/
def client (payload : Payload) : G2AClient S where
  credentials := store.credentials
  retry := store.retry
  decodeError := store.decodeError
  acquire := store.acquire
  now := store.now
  postToken := store.postToken
  send := store.send payload
  draw := store.draw
  sleep := store.sleep

/-- `str(value)` -/
def str : Json → String
  | .string text => text
  | value => store.strOther value

/-- `client.request`; a response without content is `None`. -/
def request (payload : Payload) (request : Request) (w : G2AState S) :
    Except Exn Json × G2AState S :=
  let finished := (store.client payload).base.request request w
  (finished.result.map fun value => (value.map store.loads).getD .null, finished.world)

def getRequest (path : String) : Request where
  method := .get
  path := path

/-- `client.get` -/
def get (path : String) (params : Params) (w : G2AState S) : Except Exn Json × G2AState S :=
  store.request (.params params) (getRequest path) w

/-- The adapter, as its lists see it. -/
def lists : G2AAdapter (G2AState S) where
  get := store.get
  str := store.str
  int := store.int
  decimal := store.decimal

/-! ## Jobs -/

/-- `f"{el.get('code', 'error')}: {el.get('message', '')}".strip()` -/
def errorText (element : List (String × Json)) : String :=
  let code := (element.lookup "code").elim "error" store.str
  let message := (element.lookup "message").elim "" store.str
  String.ofList (strip store.unicode (code ++ ": " ++ message).toList)

/-- The id of the offer an element is about. -/
def offerOf (element : List (String × Json)) : Option String :=
  let id := Json.get element "resourceId"
  if Json.get element "resourceType" matches .string "offer" then
    if id.truthy then some (store.str id) else none
  else none

/-- The elements that are dicts. -/
def dicts (elements : List Json) : List (List (String × Json)) :=
  elements.filterMap fun element =>
    match element with
    | .object fields => some fields
    | _ => none

/-- `_parse_job` -/
def parseJob (payload : List (String × Json)) (jobId : Option String) : Except Exn JobResult := do
  let data ← G2AAdapter.fields ((Json.get payload "data").or (.object []))
  match FazerCardsAdapter.entries ((Json.get data "elements").or (.array [])) with
  | none => throw (.other "TypeError: object is not iterable")
  | some elements =>
    let named := Json.get data "jobId"
    pure
      { jobId := if named.truthy then store.str named else jobId.getD ""
        status := store.str ((Json.get data "status").or (.string "pending"))
        resourceId := (dicts elements).findSome? store.offerOf
        errors := ((dicts elements).filter fun element =>
          (Json.get element "code").truthy).map store.errorText }

/-- The job an answer tells of. -/
def readJob (jobId : Option String) (answer : Except Exn Json) : Except Exn JobResult := do
  let payload ← answer
  let payload ← G2AAdapter.fields (payload.or (.object []))
  store.parseJob payload jobId

/-- `get_job` -/
def getJob (jobId : String) (w : G2AState S) : Except Exn JobResult × G2AState S :=
  let (answer, w) := store.get ("/v1/jobs/" ++ jobId) [] w
  (store.readJob (some jobId) answer, w)

/-! ## The offers of a product -/

/-- The rows under `data`; a single row stands for itself. -/
def productRows (payload : List (String × Json)) : Option (List Json) :=
  match (Json.get payload "data").or (.array []) with
  | .object row => some [.object row]
  | rows => FazerCardsAdapter.entries rows

def readProductOffers (payload : Json) : Except Exn (List StoreOfferView) := do
  let payload ← G2AAdapter.fields (payload.or (.object []))
  match productRows payload with
  | none => throw (.other "TypeError: object is not iterable")
  | some rows =>
    let views ← rows.mapM store.lists.parseOffer
    pure (views.filterMap id)

def productOffersPath (productExtId : String) : String := "/v1/products/" ++ productExtId ++ "/offers"

/-- `offers_for_product`: a product without offers is a 404. -/
def offersForProduct (productExtId : String) (w : G2AState S) :
    Except Exn (List StoreOfferView) × G2AState S :=
  let (answer, w) := store.get (productOffersPath productExtId) [] w
  match answer with
  | .ok payload => (store.readProductOffers payload, w)
  | .error (.api e) => (if e.statusCode = some 404 then .ok [] else .error (.api e), w)
  | .error e => (.error e, w)

/-! ## Writes -/

def size (inventorySize : ℤ) : Json := .object [("size", .number (toString inventorySize))]

def retail (price : ℚ) : Json := .object [("retail", .string (String.ofList (twoPlaces price)))]

def createBody (productExtId : String) (price : ℚ) (inventorySize : ℤ) (active : Bool)
    (visibility : String) : Json :=
  .object [("offerType", .string "dropshipping"), ("variants", .array [.object
    [("price", retail price), ("productId", .string productExtId), ("active", .bool active),
      ("inventory", size inventorySize), ("visibility", .string visibility)]])]

def createRequest : Request where
  method := .post
  path := "/v1/offers"
  expected := [200, 201, 202]

/-- `create_offer` -/
def createOffer (productExtId : String) (price : ℚ) (inventorySize : ℤ) (active : Bool)
    (visibility : String) (w : G2AState S) : Except Exn JobResult × G2AState S :=
  let body := createBody productExtId price inventorySize active visibility
  let (answer, w) := store.request (.jsonBody body) createRequest w
  (store.readJob none answer, w)

/-- The fields an update sets. -/
def variant (price : Option ℚ) (inventorySize : Option ℤ) (active archive : Option Bool)
    (visibility : Option String) : List (String × Json) :=
  (price.map fun price => ("price", retail price)).toList ++
    (inventorySize.map fun count => ("inventory", size count)).toList ++
    (active.map fun active => ("active", Json.bool active)).toList ++
    (archive.map fun archive => ("archive", Json.bool archive)).toList ++
    (visibility.map fun visibility => ("visibility", Json.string visibility)).toList

def updateBody (variant : List (String × Json)) : Json :=
  .object [("offerType", .string "dropshipping"), ("variant", .object variant)]

/-- Safe to replay: it sets absolute values, it does not increment. -/
def updateRequest (offerExtId : String) : Request where
  method := .patch
  path := "/v1/offers/" ++ offerExtId
  allowRetry := some true
  expected := [200, 202]

/-- `update_offer` -/
def updateOffer (offerExtId : String) (price : Option ℚ) (inventorySize : Option ℤ)
    (active archive : Option Bool) (visibility : Option String) (w : G2AState S) :
    Except Exn JobResult × G2AState S :=
  match variant price inventorySize active archive visibility with
  | [] => (.error (.other "ValueError: update_offer called with nothing to change"), w)
  | fields =>
    let (answer, w) := store.request (.jsonBody (updateBody fields)) (updateRequest offerExtId) w
    (store.readJob none answer, w)

/-! ## The adapter -/

/-- `list_offers`, on so many requests. -/
def listOffers (fuel : ℕ) (w : G2AState S) : Except Exn (List StoreOfferView) × G2AState S :=
  let walk := store.lists.listOffers "dropshipping" none fuel w
  (match walk.halt with
    | .done => .ok walk.yielded
    | .failed e => .error e
    | .unfinished => .error (.other "out of fuel"),
  walk.world)

/-- The adapter as the offer sync sees it. -/
def adapter (fuel : ℕ) : Adapter (G2AState S) where
  code := "g2a"
  listOffers := store.listOffers fuel
  offersForProduct := store.offersForProduct
  createOffer productExtId price inventory active :=
    store.createOffer productExtId price inventory active "all"
  updateOffer offerExtId price inventory active :=
    store.updateOffer offerExtId price inventory active none none
  getJob := store.getJob

end G2AStore

end FazerBridge
