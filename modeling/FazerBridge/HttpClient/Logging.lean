import FazerBridge.HttpClient.Simulation
import FazerBridge.Lib.Json
import FazerBridge.Text

/-!
# The log of the calls

Every attempt is handed to the `call_sink` with its bodies truncated.  The body of the
request is scrubbed before it is truncated, that of the response is not: what of a secret
shows in the log is exactly what of it stands in the responses (`records_eq_iff`).
-/

namespace FazerBridge

/-- What we log about one attempt, without its duration and its correlation id. -/
structure ApiCallRecord where
  service : String
  method : HttpMethod
  url : String
  attempt : ℕ
  statusCode : Option ℕ := none
  requestBody : Option String := none
  responseBody : Option String := none
  error : Option String := none
  deriving DecidableEq, Repr

def maxLoggedBody : ℕ := 4000

/-- `_truncate` -/
def truncate (text : String) : String :=
  if text.length ≤ maxLoggedBody then text
  else String.ofList (text.toList.take maxLoggedBody) ++ "...<truncated " ++
    toString (text.length - maxLoggedBody) ++ " chars>"

/-- `response.text` -/
def Content.text : Content → String
  | .empty => ""
  | .json value => value
  | .notJson text | .tooDeep text => text

/-- What the log of a client depends on beside its requests. -/
structure CallLog where
  unicode : Unicode
  secretHeaders : List String
  /-- the path joined to the base URL -/
  url : String → String

namespace CallLog

variable (log : CallLog)

/-- Anything that looks like a credential. -/
def isSecret (key : String) : Bool :=
  log.unicode.lower key.toList ∈ log.secretHeaders.map fun header => log.unicode.lower header.toList

/-- Recursively replace anything that looks like a credential. -/
def scrub (value : Json) : Json := value.mask log.isSecret

/-- `scrubbed_request` -/
def scrubbedRequest (jsonBody : Option Json) : Option String :=
  jsonBody.map fun body => truncate (log.scrub body).dumps

/-- What attempt `attempt` hands to the `call_sink`. -/
def record (service : String) (request : Request) (jsonBody : Option Json) (attempt : ℕ) :
    Outcome → Option ApiCallRecord
  | .retryable name message => some
    { service := service
      method := request.method
      url := log.url request.path
      attempt := attempt
      requestBody := log.scrubbedRequest jsonBody
      error := some (name ++ ": " ++ message) }
  | .other _ => none
  | .response response => some
    { service := service
      method := request.method
      url := log.url request.path
      attempt := attempt
      statusCode := some response.status
      requestBody := log.scrubbedRequest jsonBody
      responseBody := some (truncate response.content.text) }

/-- What the exchanges hand to the `call_sink`, the first of which is attempt `attempt + 1`. -/
def records (service : String) (request : Request) (jsonBody : Option Json) :
    ℕ → List Exchange → List ApiCallRecord
  | _, [] => []
  | attempt, exchange :: rest =>
    (log.record service request jsonBody (attempt + 1) exchange.outcome).toList ++
      records service request jsonBody (attempt + 1) rest

end CallLog

/-- The response text that an attempt logs. -/
def Outcome.loggedText : Outcome → Option String
  | .response r => some (truncate r.content.text)
  | .retryable _ _ | .other _ => none

/-! ## Two runs that differ in secrets -/

/-- The same outcome, but for what stands under secret keys in a JSON body. -/
inductive Outcome.Alike (loads : String → Option Json) (secret : String → Prop) :
    Outcome → Outcome → Prop
  | refl {outcome} : Alike loads secret outcome outcome
  | json {status retryAfter text text' body body'} (loaded : loads text = some body)
      (loaded' : loads text' = some body') (alike : body.Alike secret body') :
      Alike loads secret (.response ⟨status, .json text, retryAfter⟩)
        (.response ⟨status, .json text', retryAfter⟩)

/-- The bodies of two requests are the same, but for what stands under secret keys. -/
inductive BodiesAlike (secret : String → Prop) : Option Json → Option Json → Prop
  | absent : BodiesAlike secret none none
  | present {body body'} (alike : body.Alike secret body') :
      BodiesAlike secret (some body) (some body')

theorem scrubbedRequest_eq_of_alike {log : CallLog} {jsonBody jsonBody' : Option Json}
    (alike : BodiesAlike (fun key => log.isSecret key = true) jsonBody jsonBody') :
    log.scrubbedRequest jsonBody = log.scrubbedRequest jsonBody' := by
  cases alike with
  | absent => rfl
  | present alike =>
      unfold CallLog.scrubbedRequest CallLog.scrub
      rw [Option.map_some, Option.map_some, Json.mask_eq_of_alike alike]

namespace BaseApiClient

variable {W W' : Type} {client : BaseApiClient W} {client' : BaseApiClient W'}
  {request : Request} {Worlds : W → W' → Prop} {loads : String → Option Json}
  {secret : String → Prop}

/-- Two clients of one service with the same settings, whose hooks and transports differ in
secrets only. -/
structure DifferInSecrets (client : BaseApiClient W) (client' : BaseApiClient W')
    (request : Request) (loads : String → Option Json) (secret : String → Prop)
    (Worlds : W → W' → Prop) : Prop where
  service : client.service = client'.service
  retry : client.retry = client'.retry
  passes : ∀ {w w'}, Worlds w w' → Passes client client' request request Worlds
    (Outcome.Alike loads secret) (fun _ _ => True)
    (client.authHeaders (client.acquire w)) (client'.authHeaders (client'.acquire w'))
  refreshes : ∀ {w w'}, Worlds w w' → Worlds (client.onAuthFailure w) (client'.onAuthFailure w')
  backsOff : ∀ {w w'} attempt asked, Worlds w w' →
    Worlds (client.backOff attempt asked w) (client'.backOff attempt asked w')

theorem backoffDelay_congr (retry : client.retry = client'.retry) (attempt : ℕ)
    (retryAfter : Option PyFloat) (draw : ℚ) :
    client.backoffDelay attempt retryAfter draw = client'.backoffDelay attempt retryAfter draw := by
  unfold backoffDelay delay jitteredDelay
  rw [retry]

/-- What the loop does next depends on the body of the response only where none is read. -/
theorem react_response_alike (retry : client.retry = client'.retry) {attempt status : ℕ}
    {refreshed : Bool} {content content' : Content} (deep : content.Deep ↔ content'.Deep)
    {retryAfter : Option PyFloat} :
    (client.react request attempt refreshed (.response ⟨status, content, retryAfter⟩)).Alike
      (fun _ _ => True)
      (client'.react request attempt refreshed (.response ⟨status, content', retryAfter⟩)) := by
  simp only [react, ← backoffDelay_congr retry, ← retry, ← deep]
  split
  · exact .finish trivial
  split
  · exact .finish trivial
  split
  · split
    · exact .refresh
    · exact .finish trivial
  split
  · exact .finish trivial
  split
  · exact .backOff
  split
  · exact .backOff
  · exact .finish trivial

theorem react_alike (retry : client.retry = client'.retry) {attempt : ℕ} {refreshed : Bool}
    {outcome outcome' : Outcome} (alike : outcome.Alike loads secret outcome') :
    (client.react request attempt refreshed outcome).Alike (fun _ _ => True)
      (client'.react request attempt refreshed outcome') := by
  cases alike with
  | json =>
      apply react_response_alike retry
      exact Iff.rfl
  | refl =>
      cases outcome with
      | response response => exact react_response_alike retry Iff.rfl
      | retryable name message =>
          simp only [react, ← retry]
          split
          · exact .finish trivial
          · exact .backOff
      | other message => exact .finish trivial

theorem DifferInSecrets.simulation
    (differ : DifferInSecrets client client' request loads secret Worlds) :
    Simulation client client' request request Worlds (Outcome.Alike loads secret)
      (fun _ _ => True) where
  passes := differ.passes
  refreshes := differ.refreshes
  backsOff := differ.backsOff
  reacts _ _ := react_alike differ.retry

end BaseApiClient

/-! ## What shows in the log -/

namespace CallLog

variable {log : CallLog} {service : String} {request : Request} {jsonBody jsonBody' : Option Json}
  {attempt : ℕ} {outcome outcome' : Outcome} {loads : String → Option Json}
  {secret : String → Prop}

/-- Two alike attempts log the same, up to the texts of their responses. -/
theorem record_eq_iff (bodies : log.scrubbedRequest jsonBody = log.scrubbedRequest jsonBody')
    (alike : outcome.Alike loads secret outcome') :
    log.record service request jsonBody attempt outcome =
        log.record service request jsonBody' attempt outcome' ↔
      outcome.loggedText = outcome'.loggedText := by
  cases alike with
  | refl =>
      refine iff_of_true ?_ rfl
      cases outcome with
      | response response => simp only [record, bodies]
      | retryable name message => simp only [record, bodies]
      | other message => rfl
  | json => simp [record, bodies, Outcome.loggedText]

/-- Alike attempts are logged alike: both or neither. -/
theorem record_isSome (alike : outcome.Alike loads secret outcome') :
    (log.record service request jsonBody attempt outcome).isSome =
      (log.record service request jsonBody' attempt outcome').isSome := by
  cases alike with
  | json => rfl
  | refl =>
      cases outcome with
      | response response => rfl
      | retryable name message => rfl
      | other message => rfl

theorem toList_append_eq_iff {a b : Option ApiCallRecord} {rest rest' : List ApiCallRecord}
    (alike : a.isSome = b.isSome) :
    a.toList ++ rest = b.toList ++ rest' ↔ a = b ∧ rest = rest' := by
  cases a with
  | none =>
      cases b with
      | none => exact (and_iff_right rfl).symm
      | some b => cases alike
  | some a =>
      cases b with
      | none => cases alike
      | some b => simp

theorem records_eq_iff_of_alike
    (bodies : log.scrubbedRequest jsonBody = log.scrubbedRequest jsonBody')
    {exchanges exchanges' : List Exchange}
    (alike : List.Forall₂ (fun e e' : Exchange => e.outcome.Alike loads secret e'.outcome)
      exchanges exchanges') :
    ∀ attempt, log.records service request jsonBody attempt exchanges =
        log.records service request jsonBody' attempt exchanges' ↔
      List.Forall₂ (fun e e' : Exchange => e.outcome.loggedText = e'.outcome.loggedText)
        exchanges exchanges' := by
  induction alike with
  | nil =>
      intro attempt
      exact iff_of_true rfl .nil
  | @cons e e' rest rest' alike _ ih =>
      intro attempt
      rw [records, records, toList_append_eq_iff (record_isSome alike),
        record_eq_iff bodies alike, ih (attempt + 1), List.forall₂_cons]

/-- Two runs whose bodies differ in secrets, and whose outcomes are otherwise the same, hand
the same records to the log exactly if the logged texts of their responses are the same. -/
theorem records_eq_iff {W W' : Type} {client : BaseApiClient W} {client' : BaseApiClient W'}
    {Worlds : W → W' → Prop} {w : W} {w' : W'}
    (differ : BaseApiClient.DifferInSecrets client client' request loads
      (fun key => log.isSecret key = true) Worlds)
    (worlds : Worlds w w')
    (bodies : BodiesAlike (fun key => log.isSecret key = true) jsonBody jsonBody') :
    log.records client.service request jsonBody 0 (client.request request w).exchanges =
        log.records client'.service request jsonBody' 0 (client'.request request w').exchanges ↔
      List.Forall₂ (fun e e' : Exchange => e.outcome.loggedText = e'.outcome.loggedText)
        (client.request request w).exchanges (client'.request request w').exchanges := by
  rw [← differ.service]
  exact records_eq_iff_of_alike (scrubbedRequest_eq_of_alike bodies)
    (differ.simulation.endsAlike worlds).outcomes 0

/-- The secret headers of the settings, over ASCII. -/
def sample : CallLog where
  unicode := .ascii
  secretHeaders := ["x-api-key", "authorization", "proxy-authorization"]
  url path := "https://api.example" ++ path

/-- Two scripts of outcomes that differ in secrets. -/
theorem scripted_differInSecrets {script script' : ℕ → Outcome}
    (alike : ∀ n, (script n).Alike loads secret (script' n)) :
    BaseApiClient.DifferInSecrets (.scripted script) (.scripted script') request loads secret
      Eq where
  service := rfl
  retry := rfl
  passes := by
    rintro n _ rfl
    exact .sent (alike n) rfl
  refreshes := by
    rintro n _ rfl
    rfl
  backsOff := by
    rintro n _ attempt (_ | asked) rfl
    · rfl
    · rfl

def order : Request := { method := .post, path := "/v1/orders" }

def credential (value : String) : Json := .object [("Authorization", .string value)]

/-- The texts of two credentials, read back. -/
def loadsCredential (text : String) : Option Json :=
  if text = (credential "a").dumps then some (credential "a")
  else if text = (credential "b").dumps then some (credential "b")
  else none

def failing (_ : ℕ) : Outcome := .response ⟨500, .empty, none⟩

/-- The credential in the body of the request does not show. -/
theorem order_scrubbed :
    sample.records "api" order (some (credential "a")) 0
        ((BaseApiClient.scripted failing).request order 0).exchanges =
      sample.records "api" order (some (credential "b")) 0
        ((BaseApiClient.scripted failing).request order 0).exchanges := by
  have bodies : BodiesAlike (fun key => sample.isSecret key = true) (some (credential "a"))
      (some (credential "b")) := .present (.object (.hidden (by decide) .nil))
  have differ : BaseApiClient.DifferInSecrets (.scripted failing) (.scripted failing) order
      loadsCredential (fun key => sample.isSecret key = true) Eq :=
    scripted_differInSecrets fun _ => .refl
  exact (records_eq_iff differ rfl bodies).mpr (List.forall₂_same.mpr fun _ _ => rfl)

/-- A response with a credential. -/
def told (value : String) (_ : ℕ) : Outcome :=
  .response ⟨200, .json (credential value).dumps, none⟩

/-- The credential in the body of the response shows. -/
theorem response_unscrubbed :
    BaseApiClient.DifferInSecrets (.scripted (told "a")) (.scripted (told "b")) order
      loadsCredential (fun key => sample.isSecret key = true) Eq ∧
    sample.records "api" order none 0
        ((BaseApiClient.scripted (told "a")).request order 0).exchanges ≠
      sample.records "api" order none 0
        ((BaseApiClient.scripted (told "b")).request order 0).exchanges := by
  have other : (credential "b").dumps ≠ (credential "a").dumps := by decide +kernel
  have loaded : loadsCredential (credential "b").dumps = some (credential "b") :=
    (if_neg other).trans (if_pos rfl)
  refine ⟨scripted_differInSecrets fun _ => ?_, by decide +kernel⟩
  exact .json (if_pos rfl) loaded (.object (.hidden (by decide) .nil))

end CallLog

end FazerBridge
