import FazerBridge.CatalogSync
import FazerBridge.HttpClient.Logging

/-!
# The FazerCards adapter

`app/suppliers/fazercards.py`: the title of an offer, and buying it.  A refusal of the
supplier is an HTTP status, a body that says `ok: false`, or both; the client sees the
status first, and `unwrap` sees the body of the statuses the client lets through.

What the adapter takes from Python beside its Unicode tables is a field of it:
`response.json()`, `str` of a JSON value that is no string, and `Decimal` of a text.
-/

namespace FazerBridge

open Text

/-! ## JSON values in Python -/

namespace Json

/-- Python's truth value. -/
def truthy : Json → Bool
  | .null => false
  | .bool value => value
  | .number text => (text.toList.takeWhile fun c => c ≠ 'e' ∧ c ≠ 'E').any fun c =>
      '1' ≤ c && c ≤ '9'
  | .string text => text ≠ ""
  | .array items => !items.isEmpty
  | .object fields => !fields.isEmpty

/-- `fields.get(key)` -/
def get (fields : List (String × Json)) (key : String) : Json := (fields.lookup key).getD .null

/-- `a or b` -/
def or (a b : Json) : Json := if a.truthy then a else b

/-- `type(value).__name__` -/
def typeName : Json → String
  | .null => "NoneType"
  | .bool _ => "bool"
  | .number text => if text.toList.any (· ∈ ['.', 'e', 'E']) then "float" else "int"
  | .string _ => "str"
  | .array _ => "list"
  | .object _ => "dict"

end Json

/-! ## What an order ends with -/

/-- An exception of the adapter. -/
inductive SupplierError
  | outOfStock (message : String)
  | insufficientBalance (message : String)
  | supplierUnavailable (message : String)
  /-- an `ApiError`, or anything else -/
  | exn (error : Exn)
  deriving DecidableEq, Repr

structure PurchaseResult where
  supplierOrderExtId : String
  codes : List String
  cost : Option ℚ
  currency : String := "USD"
  status : String
  deriving DecidableEq, Repr

/-- Error codes that mean "do not retry, the situation has to change first". -/
def terminalCodes : List (Text × (String → SupplierError)) :=
  [("out_of_stock".toList, .outOfStock),
    ("insufficient_stock".toList, .outOfStock),
    ("insufficient_balance".toList, .insufficientBalance),
    ("insufficient_funds".toList, .insufficientBalance),
    ("subscription_inactive".toList, .supplierUnavailable)]

/-- What a `FazerCardsAdapter` is built with. -/
structure FazerCardsAdapter (W : Type) where
  unicode : Unicode
  retry : RetrySettings
  /-- `fazercards_api_key` -/
  apiKey : Option String
  /-- `response.json()` of a body that is JSON -/
  loads : String → Json
  /-- `str` of a JSON value that is no string -/
  strOther : Json → String
  /-- `Decimal(text)`, if it is a number -/
  decimal : String → Option ℚ
  /-- `response.reason_phrase` -/
  reasonPhrase : ℕ → String
  acquire : W → W
  /-- `client.request` with a JSON body -/
  send : Json → Sent → W → Outcome × W
  draw : W → ℚ × W
  sleep : ℚ → W → W

namespace FazerCardsAdapter

/-- Offer names are often just the denomination ("50 USD"): prefix the category, unless
one of the two names already contains the other. -/
def composeName (u : Unicode) (categoryName offerName : Option Text) : Text :=
  let category := strip u (categoryName.getD [])
  let offer := strip u (offerName.getD [])
  if offer.isEmpty then category
  else if category.isEmpty then offer
  else if isIn (u.lower category) (u.lower offer) then offer
  else if isIn (u.lower offer) (u.lower category) then category
  else category ++ ' ' :: offer

variable {W : Type} (adapter : FazerCardsAdapter W)

/-- `str(value)` -/
def str : Json → String
  | .string text => text
  | value => adapter.strOther value

def stripped (text : String) : String := String.ofList (strip adapter.unicode text.toList)

def apiError (message : String) : SupplierError := .exn (.api ⟨.apiError, message, "fazercards", none⟩)

/-! ## The client -/

/-- `BaseApiClient.decode_error`, of a body that is JSON. -/
def decodePayload (payload : Json) (reason : String) : String :=
  let named := match payload with
    | .object fields => ["error", "message", "detail", "error_description"].findSome? fun key =>
      match fields.lookup key with
      | some (.string text) =>
        let code := Json.get fields "code"
        some (text ++ if code.truthy then " (" ++ adapter.str code ++ ")" else "")
      | _ => none
    | _ => none
  let dumped := truncate payload.dumps
  named.getD (if dumped = "" then reason else dumped)

/-- `decode_error` -/
def decodeError (response : Response) : String :=
  let reason := adapter.reasonPhrase response.status
  match response.content with
  | .json body =>
    let payload := adapter.loads body
    match payload with
    | .object fields =>
      match fields.lookup "error" with
      | some error =>
        let code := Json.get fields "code"
        adapter.str error ++ if code.truthy then " [" ++ adapter.str code ++ "]" else ""
      | none => adapter.decodePayload payload reason
    | _ => adapter.decodePayload payload reason
  | content =>
    let text := String.ofList (content.text.toList.take 500)
    if text = "" then reason else text

/-- `auth_headers` -/
def authHeaders : Except Exn Headers :=
  match truthyId adapter.apiKey with
  | some key => .ok [("X-API-Key", key), ("Accept", "application/json")]
  | none => .error (.other
      "RuntimeError: FAZERCARDS_API_KEY is not set -- refusing to call the supplier API")

/-- The client, for a request with a JSON body. -/
def client (jsonBody : Json) : BaseApiClient W where
  service := "fazercards"
  retry := adapter.retry
  authHeaders w := (adapter.authHeaders, w)
  onAuthFailure := id
  decodeError := adapter.decodeError
  acquire := adapter.acquire
  send := adapter.send jsonBody
  draw := adapter.draw
  sleep := adapter.sleep

/-! ## The body of an answer -/

/-- `str(payload.get("code") or "").lower()` -/
def refusalCode (fields : List (String × Json)) : Text :=
  adapter.unicode.lower (adapter.str ((Json.get fields "code").or (.string ""))).toList

/-- Return the body, or raise, also for a 200 that says `ok: false`. -/
def unwrap (payload : Option Json) (context : String) :
    Except SupplierError (List (String × Json)) :=
  match payload.getD .null with
  | .object fields =>
    if fields.lookup "ok" matches some (.bool false) then
      let message := adapter.str ((Json.get fields "error").or (.string "unknown error"))
      match terminalCodes.lookup (adapter.refusalCode fields) with
      | some error => .error (error (context ++ ": " ++ message))
      | none => .error (apiError (context ++ ": " ++ message))
    else .ok fields
  | value => .error (apiError
      (context ++ ": expected a JSON object, got " ++ value.typeName))

/-- FazerCards sends prices as strings; be strict about what we accept. -/
def toDecimal (value : Json) : Except SupplierError ℚ :=
  match value with
  | .null => .error (.exn (.other "ValueError: missing price"))
  | value =>
    match adapter.decimal (adapter.str value) with
    | none => .error (.exn (.other ("ValueError: unparseable price " ++ adapter.str value)))
    | some price =>
      if price < 0 then .error (.exn (.other ("ValueError: negative price " ++ adapter.str value)))
      else .ok price

/-- What a loop over the value goes through. -/
def entries : Json → Option (List Json)
  | .array items => some items
  | .string text => some (text.toList.map fun c => .string (String.singleton c))
  | .object fields => some (fields.map fun field => .string field.1)
  | .null | .bool _ | .number _ => none

/-- The code an entry of an order holds. -/
def entryCode : Json → Option String
  | .string text => if adapter.stripped text = "" then none else some (adapter.stripped text)
  | .object fields => ["code", "key", "value", "card", "serial"].findSome? fun key =>
    match Json.get fields key with
    | .string raw =>
      if adapter.stripped raw = "" then none
      else
        let pin := Json.get fields "pin"
        some (adapter.stripped raw ++ if pin.truthy then " / PIN: " ++ adapter.str pin else "")
    | _ => none
  | _ => none

/-- The codes under the first of `names` that holds any. -/
def extractCodes (order : List (String × Json)) : List String → Except SupplierError (List String)
  | [] => .ok []
  | name :: names =>
    match entries ((Json.get order name).or (.array [])) with
    | none => .error (.exn (.other "TypeError: object is not iterable"))
    | some items =>
      let codes := items.filterMap adapter.entryCode
      if codes.isEmpty then extractCodes order names else .ok codes

/-- `_parse_order` -/
def parseOrder (order : Json) : Except SupplierError PurchaseResult :=
  match order with
  | .object fields => do
    let orderId := (Json.get fields "id").or ((Json.get fields "order_id").or
      (Json.get fields "orderId"))
    if orderId.truthy = false then
      throw (apiError "supplier order response has no id -- cannot track this purchase")
    let total := (Json.get fields "total_usd").or ((Json.get fields "total").or
      (Json.get fields "amount"))
    let codes ← adapter.extractCodes fields ["cards", "keys", "codes", "items"]
    let cost ← match total with
      | .null => pure none
      | total => some <$> adapter.toDecimal total
    pure
      { supplierOrderExtId := adapter.str orderId
        codes := codes
        cost := cost
        status := adapter.str ((Json.get fields "status").or (.string "completed")) }
  | value => throw (.exn (.other
      ("AttributeError: " ++ value.typeName ++ " object has no attribute get")))

/-! ## Buying -/

/-- The path and the body of an order. -/
def orderOf (item : SupplierItem) (quantity : ℤ) : String × Json :=
  match item.kind with
  | .gameKey => ("/api/v2/gamekeys/order", .object
      [("game_id", .string item.categoryExtId), ("key_id", .string item.offerExtId),
        ("quantity", .number (toString quantity))])
  | .giftCard => ("/api/v2/giftcards/order", .object
      [("category_id", .string item.categoryExtId), ("card_id", .string item.offerExtId),
        ("quantity", .number (toString quantity))])

/-- The request of an order. -/
def orderRequest (item : SupplierItem) (quantity : ℤ) (idempotencyKey : String) : Request where
  method := .post
  path := (orderOf item quantity).1
  idempotencyKey := some idempotencyKey
  expected := [200, 201, 202]

/-- The order call. -/
def order (item : SupplierItem) (quantity : ℤ) (idempotencyKey : String) (w : W) : Finished W :=
  (adapter.client (orderOf item quantity).2).request (orderRequest item quantity idempotencyKey) w

/-- A quantity the supplier sells in one order. -/
def Admissible (item : SupplierItem) (quantity : ℤ) : Prop :=
  item.minOrderQuantity ≤ quantity ∧
    (item.maxOrderQuantity = 0 ∨ quantity ≤ item.maxOrderQuantity)

instance (item : SupplierItem) (quantity : ℤ) : Decidable (Admissible item quantity) :=
  inferInstanceAs (Decidable (_ ∧ _))

/-- What the answer to an order is taken for. -/
def accept (path : String) (result : Except Exn (Option String)) :
    Except SupplierError PurchaseResult :=
  match result with
  | .error e => .error (.exn e)
  | .ok body =>
    match adapter.unwrap (body.map adapter.loads) ("POST " ++ path) with
    | .error e => .error e
    | .ok fields => adapter.parseOrder ((Json.get fields "order").or (.object []))

/-- `purchase` -/
def purchase (item : SupplierItem) (quantity : ℤ) (idempotencyKey : String) (w : W) :
    Except SupplierError PurchaseResult × W :=
  if Admissible item quantity then
    let finished := adapter.order item quantity idempotencyKey w
    (adapter.accept (orderOf item quantity).1 finished.result, finished.world)
  else
    (.error (.exn (.other ("ValueError: quantity " ++ toString quantity ++
      " outside supplier limits [" ++ toString item.minOrderQuantity ++ ", " ++
      toString item.maxOrderQuantity ++ "]"))), w)

end FazerCardsAdapter

end FazerBridge
