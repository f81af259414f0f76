import FazerBridge.Adapter
import Mathlib.Order.WithBotTop

/-!
# The HTTP client

`BaseApiClient.request` of `app/http/client.py`: one loop that sends, and then
returns, raises or sends again.  The transport is a function on the state `W` of
the world, so every script of outcomes is one transport.

`react` is what the loop does with one outcome; `Finished` keeps every exchange,
so that what is true of a whole request is a fact about its exchanges
(`request_wellBehaved`).
-/

namespace FazerBridge

/-- The retry section of the settings. -/
structure RetrySettings where
  maxAttempts : ℤ
  baseDelaySeconds : ℚ
  maxDelaySeconds : ℚ
  jitter : ℚ
  deriving DecidableEq, Repr

def RetrySettings.default : RetrySettings where
  maxAttempts := 6
  baseDelaySeconds := 1 / 2
  maxDelaySeconds := 60
  jitter := 1 / 4

inductive HttpMethod
  | get
  | head
  | options
  | post
  | put
  | patch
  | delete
  deriving DecidableEq, Repr

def HttpMethod.text : HttpMethod → String
  | .get => "GET"
  | .head => "HEAD"
  | .options => "OPTIONS"
  | .post => "POST"
  | .put => "PUT"
  | .patch => "PATCH"
  | .delete => "DELETE"

abbrev Headers := List (String × String)

/-- The arguments of a call. -/
structure Request where
  method : HttpMethod
  path : String
  headers : Headers := []
  idempotencyKey : Option String := none
  allowRetry : Option Bool := none
  expected : List ℕ := [200, 201, 202, 204]
  deriving DecidableEq, Repr

/-- GET/HEAD are safe by definition; a mutating call is only safe to replay when the
server will de-duplicate it for us. -/
def Request.retrying (request : Request) : Bool :=
  request.allowRetry.getD
    (request.method ∈ [.get, .head, .options] || request.idempotencyKey.isSome)

/-- The body of a response. -/
inductive Content
  | empty
  | json (value : String)
  | notJson (text : String)
  /-- nested deeper than the decoder goes, whose `RecursionError` is no `ValueError` -/
  | tooDeep (text : String)
  deriving DecidableEq, Repr

/-- `response.json()` raises what nothing handles. -/
def Content.Deep : Content → Prop
  | .tooDeep _ => True
  | .empty | .json _ | .notJson _ => False

instance : DecidablePred Content.Deep
  | .tooDeep _ => inferInstanceAs (Decidable True)
  | .empty | .json _ | .notJson _ => inferInstanceAs (Decidable False)

/-- A float other than NaN: a number, or an infinite one. -/
abbrev Seconds := WithBotTop ℚ

/-- A float. -/
inductive PyFloat
  | nan
  | number (seconds : Seconds)
  deriving DecidableEq, Repr

structure Response where
  status : ℕ
  content : Content
  /-- the `Retry-After` header in seconds, where it can be read -/
  retryAfter : Option PyFloat := none
  deriving DecidableEq, Repr

/-- What the transport makes of one send. -/
inductive Outcome
  | response (response : Response)
  /-- one of `RETRYABLE_EXCEPTIONS`, with the name of its type -/
  | retryable (name message : String)
  /-- any other exception -/
  | other (message : String)
  deriving DecidableEq, Repr

def retryableStatus : List ℕ := [408, 425, 429, 500, 502, 503, 504]

/-- The outcomes that are worth another attempt. -/
def Outcome.Retryable : Outcome → Prop
  | .retryable _ _ => True
  | .response r => r.status ∈ retryableStatus
  | .other _ => False

/-- The server rejected the auth of the request. -/
def Outcome.rejected : Outcome → Bool
  | .response r => r.status = 401
  | .retryable _ _ | .other _ => false

/-- No body that `response.json()` gives up on. -/
def Outcome.Readable : Outcome → Prop
  | .response r => ¬ r.content.Deep
  | .retryable _ _ | .other _ => True

instance : DecidablePred Outcome.Readable
  | .response _ => inferInstanceAs (Decidable (¬ _))
  | .retryable _ _ | .other _ => inferInstanceAs (Decidable True)

/-- A rejected token is no reason to try again. -/
theorem Outcome.not_rejected_of_retryable {outcome : Outcome} (retryable : outcome.Retryable) :
    outcome.rejected = false := by
  cases outcome with
  | response r =>
      refine decide_eq_false fun rejected => ?_
      simp [Outcome.Retryable, rejected, retryableStatus] at retryable
  | retryable name message => rfl
  | other message => rfl

/-- A request as it goes over the wire. -/
structure Sent where
  method : HttpMethod
  path : String
  headers : Headers
  deriving DecidableEq, Repr

structure Exchange where
  sent : Sent
  outcome : Outcome
  deriving DecidableEq, Repr

/-- What a client is built with, and what its class overrides. -/
structure BaseApiClient (W : Type) where
  service : String
  retry : RetrySettings
  /-- `auth_headers` -/
  authHeaders : W → Except Exn Headers × W
  /-- `on_auth_failure` -/
  onAuthFailure : W → W
  /-- `decode_error` -/
  decodeError : Response → String
  /-- `bucket.acquire` -/
  acquire : W → W
  /-- `client.request` -/
  send : Sent → W → Outcome × W
  /-- the next draw of the jitter, between -1 and 1 -/
  draw : W → ℚ × W
  sleep : ℚ → W → W

/-- How a request ended, with what was sent and how often the auth was refreshed. -/
structure Finished (W : Type) where
  result : Except Exn (Option String)
  exchanges : List Exchange
  refreshes : ℕ
  world : W

/-- What the loop does with an outcome. -/
inductive Reaction
  | finish (result : Except Exn (Option String))
  /-- refresh the auth and send again -/
  | refresh
  /-- wait, as long as the server asks if it does, and send again -/
  | backOff (asked : Option ℚ)

namespace BaseApiClient

variable {W : Type} (client : BaseApiClient W)

/-- `{**self.auth_headers(), **(headers or {})}`, with the idempotency key. -/
def sendHeaders (request : Request) (auth : Headers) : Headers :=
  let headers := request.headers ++ auth.filter fun h => (request.headers.lookup h.1).isNone
  match request.idempotencyKey with
  | some key =>
    if key ≠ "" ∧ headers.lookup "Idempotency-Key" = none then
      headers ++ [("Idempotency-Key", key)]
    else headers
  | none => headers

def apiError (kind : ApiErrorKind) (message : String) (statusCode : Option ℕ) : Exn :=
  .api ⟨kind, message, client.service, statusCode⟩

def recursionError : Exn := .other "RecursionError: maximum recursion depth exceeded"

/-- The body of an expected response. -/
def body (request : Request) (response : Response) : Except Exn (Option String) :=
  if response.status = 204 then .ok none
  else
    match response.content with
    | .empty => .ok none
    | .json value => .ok (some value)
    | .tooDeep _ => .error recursionError
    | .notJson _ => .error (client.apiError .apiError
        (request.method.text ++ " " ++ request.path ++ " returned non-JSON body")
        (some response.status))

/-- The formula of `_backoff_delay`, for a server that asks for nothing. -/
def jitteredDelay (attempt : ℕ) (draw : ℚ) : ℚ :=
  let capped := min (client.retry.baseDelaySeconds * 2 ^ (attempt - 1))
    client.retry.maxDelaySeconds
  max 0 (capped + draw * (capped * client.retry.jitter))

/-- The delay of `_backoff_delay`, where it is not `nan`. -/
def delay (attempt : ℕ) (retryAfter : Option Seconds) (draw : ℚ) : Seconds :=
  match retryAfter with
  | some seconds => min seconds (client.retry.maxDelaySeconds : Seconds)
  | none => (client.jitteredDelay attempt draw : Seconds)

/-- `_backoff_delay`: `min(nan, x)` is `nan`. -/
def backoffDelay (attempt : ℕ) (retryAfter : Option PyFloat) (draw : ℚ) : PyFloat :=
  match retryAfter with
  | some .nan => .nan
  | some (.number seconds) => .number (client.delay attempt (some seconds) draw)
  | none => .number (client.delay attempt none draw)

/-- What `time.sleep` makes of a delay: it takes a number that is not negative. -/
def sleepable : PyFloat → Except Exn ℚ
  | .nan => .error (.other "ValueError: Invalid value NaN (not a number)")
  | .number ⊤ | .number ⊥ =>
    .error (.other "OverflowError: timestamp out of range for platform time_t")
  | .number (seconds : ℚ) =>
    if seconds < 0 then .error (.other "ValueError: sleep length must be non-negative")
    else .ok seconds

/-- One pass of the loop, after the send of attempt `attempt`. -/
def react (request : Request) (attempt : ℕ) (refreshed : Bool) : Outcome → Reaction
  | .retryable _ message =>
    if request.retrying = false ∨ client.retry.maxAttempts ≤ attempt then
      .finish (.error (client.apiError .apiError
        (request.method.text ++ " " ++ request.path ++ " failed after " ++ toString attempt ++
          " attempt(s): " ++ message) none))
    else .backOff none
  | .other message => .finish (.error (.other message))
  | .response response =>
    if response.status ∈ request.expected then .finish (client.body request response)
    else if response.content.Deep then
      -- `decode_error` handles a `ValueError` only
      .finish (.error recursionError)
    else if response.status = 401 ∨ response.status = 403 then
      -- Token probably expired mid-flight.  Refresh once, retry once.
      if response.status = 401 ∧ refreshed = false ∧ request.retrying = true then .refresh
      else .finish (.error (client.apiError .authError (client.decodeError response)
        (some response.status)))
    else if response.status ∉ retryableStatus ∨ request.retrying = false ∨
        client.retry.maxAttempts ≤ attempt then
      .finish (.error (client.apiError
        (if response.status = 429 then .rateLimitedError else .apiError)
        (request.method.text ++ " " ++ request.path ++ ": " ++ client.decodeError response)
        (some response.status)))
    else if response.retryAfter = none then .backOff none
    else
      -- what the server asks for needs no jitter, but may be no time to sleep
      match sleepable (client.backoffDelay attempt response.retryAfter 0) with
      | .ok seconds => .backOff (some seconds)
      | .error e => .finish (.error e)

/-- Wait before the next attempt. -/
def backOff (attempt : ℕ) (asked : Option ℚ) (w : W) : W :=
  match asked with
  | some seconds => client.sleep seconds w
  | none =>
    let (draw, w) := client.draw w
    client.sleep (client.jitteredDelay attempt draw) w

/-- Sends the loop may still need. -/
def remaining (attempt : ℕ) (refreshed : Bool) : ℕ :=
  (client.retry.maxAttempts - attempt).toNat + if refreshed then 0 else 1

section

variable {client} {request : Request} {attempt : ℕ} {refreshed : Bool} {outcome : Outcome}

/-- The token is refreshed once a call, after a rejection. -/
theorem react_refresh (reacts : client.react request attempt refreshed outcome = .refresh) :
    refreshed = false ∧ request.retrying = true ∧ outcome.rejected = true := by
  unfold react at reacts
  split at reacts
  · split at reacts <;> cases reacts
  · cases reacts
  · split at reacts
    · cases reacts
    split at reacts
    · cases reacts
    split at reacts
    · split at reacts
      · rename_i rejected
        exact ⟨rejected.2.1, rejected.2.2, decide_eq_true rejected.1⟩
      · cases reacts
    split at reacts
    · cases reacts
    split at reacts
    · cases reacts
    split at reacts <;> cases reacts

/-- A call is tried again only while attempts are left, after an outcome worth it. -/
theorem react_backOff {asked : Option ℚ}
    (reacts : client.react request attempt refreshed outcome = .backOff asked) :
    request.retrying = true ∧ (attempt : ℤ) < client.retry.maxAttempts ∧ outcome.Retryable := by
  unfold react at reacts
  split at reacts
  · split at reacts
    · cases reacts
    · rename_i again
      rw [not_or, Bool.not_eq_false, not_le] at again
      exact ⟨again.1, again.2, trivial⟩
  · cases reacts
  · split at reacts
    · cases reacts
    split at reacts
    · cases reacts
    split at reacts
    · split at reacts <;> cases reacts
    split at reacts
    · cases reacts
    · rename_i again
      rw [not_or, not_or, not_not, Bool.not_eq_false, not_le] at again
      exact ⟨again.2.1, again.2.2, again.1⟩

/-- What a result says about the outcome it was made from. -/
structure Explains (request : Request) (outcome : Outcome)
    (result : Except Exn (Option String)) : Prop where
  body : ∀ value, result = .ok value →
    ∃ response, outcome = .response response ∧ response.status ∈ request.expected
  rateLimited : ∀ e, result = .error (.api e) → e.kind = .rateLimitedError →
    ∃ response, outcome = .response response ∧ response.status = 429
  auth : ∀ e, result = .error (.api e) → e.kind = .authError →
    ∃ response, outcome = .response response ∧ (response.status = 401 ∨ response.status = 403)

/-- Neither a body nor one of the two special errors needs no explanation. -/
theorem Explains.of_apiError {message : String} {status : Option ℕ} :
    Explains request outcome (.error (client.apiError .apiError message status)) :=
  ⟨nofun, by rintro _ ⟨⟩ ⟨⟩, by rintro _ ⟨⟩ ⟨⟩⟩

theorem Explains.of_other {message : String} :
    Explains request outcome (.error (.other message)) :=
  ⟨nofun, nofun, nofun⟩

/-- A delay that cannot be slept raises outside the errors of the client. -/
theorem sleepable_error {delay : PyFloat} {e : Exn} (unslept : sleepable delay = .error e) :
    ∃ message, e = .other message := by
  unfold sleepable at unslept
  split at unslept
  · cases unslept
    exact ⟨_, rfl⟩
  · cases unslept
    exact ⟨_, rfl⟩
  · cases unslept
    exact ⟨_, rfl⟩
  · split at unslept <;> cases unslept
    exact ⟨_, rfl⟩

/-- The body of an expected answer explains the result. -/
theorem explains_body {response : Response} (expected : response.status ∈ request.expected) :
    Explains request (.response response) (client.body request response) := by
  have returned : ∀ value, Explains request (.response response) (.ok value) :=
    fun value => ⟨fun _ _ => ⟨response, rfl, expected⟩, nofun, nofun⟩
  unfold body
  split
  · exact returned none
  · split
    · exact returned none
    · exact returned _
    · exact .of_other
    · exact .of_apiError

/-- An outcome that ends the call explains its result. -/
theorem react_finish {result : Except Exn (Option String)}
    (reacts : client.react request attempt refreshed outcome = .finish result) :
    Explains request outcome result := by
  unfold react at reacts
  split at reacts
  · split at reacts <;> cases reacts
    exact .of_apiError
  · cases reacts
    exact .of_other
  · rename_i response
    split at reacts
    · cases reacts
      exact explains_body ‹_›
    split at reacts
    · cases reacts
      exact .of_other
    split at reacts
    · rename_i denied
      split at reacts <;> cases reacts
      exact ⟨nofun, by rintro _ ⟨⟩ ⟨⟩, fun _ _ _ => ⟨response, rfl, denied⟩⟩
    split at reacts
    · cases reacts
      by_cases limited : response.status = 429
      · rw [if_pos limited]
        exact ⟨nofun, fun _ _ _ => ⟨response, rfl, limited⟩, by rintro _ ⟨⟩ ⟨⟩⟩
      · rw [if_neg limited]
        exact .of_apiError
    split at reacts
    · cases reacts
    · split at reacts
      · cases reacts
      · rename_i unslept
        cases reacts
        obtain ⟨message, rfl⟩ := sleepable_error unslept
        exact .of_other

end

/-- The loop, before the send of attempt `attempt + 1`. -/
def loop (request : Request) (attempt : ℕ) (refreshed : Bool) (w : W) : Finished W :=
  match client.authHeaders (client.acquire w) with
  | (.error e, w) => ⟨.error e, [], 0, w⟩
  | (.ok auth, w) =>
    let sent : Sent := ⟨request.method, request.path, sendHeaders request auth⟩
    let (outcome, w) := client.send sent w
    match h : client.react request (attempt + 1) refreshed outcome with
    | .finish result => ⟨result, [⟨sent, outcome⟩], 0, w⟩
    | .refresh =>
      let rest := loop request (attempt + 1) true (client.onAuthFailure w)
      { rest with exchanges := ⟨sent, outcome⟩ :: rest.exchanges, refreshes := rest.refreshes + 1 }
    | .backOff asked =>
      let rest := loop request (attempt + 1) refreshed (client.backOff (attempt + 1) asked w)
      { rest with exchanges := ⟨sent, outcome⟩ :: rest.exchanges }
termination_by client.remaining attempt refreshed
decreasing_by
  · obtain ⟨rfl, -⟩ := react_refresh h
    simp only [remaining, if_true, Bool.false_eq_true, if_false]
    omega
  · obtain ⟨-, more, -⟩ := react_backOff h
    simp only [remaining]
    omega

/-- `request` -/
def request (request : Request) (w : W) : Finished W := client.loop request 0 false w

/-! ## What the loop can do -/

/-- `loop`, with one constructor for each way through a pass. -/
inductive Loops (client : BaseApiClient W) (request : Request) :
    ℕ → Bool → W → Finished W → Prop
  | unsent {attempt refreshed w w' e}
      (auth : client.authHeaders (client.acquire w) = (.error e, w')) :
      Loops client request attempt refreshed w ⟨.error e, [], 0, w'⟩
  | finish {attempt refreshed w w' w'' auth sent outcome result}
      (authorized : client.authHeaders (client.acquire w) = (.ok auth, w'))
      (wire : sent = ⟨request.method, request.path, sendHeaders request auth⟩)
      (sends : client.send sent w' = (outcome, w''))
      (reacts : client.react request (attempt + 1) refreshed outcome = .finish result) :
      Loops client request attempt refreshed w ⟨result, [⟨sent, outcome⟩], 0, w''⟩
  | refresh {attempt refreshed w w' w'' auth sent outcome f}
      (authorized : client.authHeaders (client.acquire w) = (.ok auth, w'))
      (wire : sent = ⟨request.method, request.path, sendHeaders request auth⟩)
      (sends : client.send sent w' = (outcome, w''))
      (reacts : client.react request (attempt + 1) refreshed outcome = .refresh)
      (rest : Loops client request (attempt + 1) true (client.onAuthFailure w'') f) :
      Loops client request attempt refreshed w
        { f with exchanges := ⟨sent, outcome⟩ :: f.exchanges, refreshes := f.refreshes + 1 }
  | backOff {attempt refreshed w w' w'' auth sent outcome asked f}
      (authorized : client.authHeaders (client.acquire w) = (.ok auth, w'))
      (wire : sent = ⟨request.method, request.path, sendHeaders request auth⟩)
      (sends : client.send sent w' = (outcome, w''))
      (reacts : client.react request (attempt + 1) refreshed outcome = .backOff asked)
      (rest : Loops client request (attempt + 1) refreshed
        (client.backOff (attempt + 1) asked w'') f) :
      Loops client request attempt refreshed w
        { f with exchanges := ⟨sent, outcome⟩ :: f.exchanges }

/-- The loop of `request` does one of these. -/
theorem loop_spec (request : Request) (attempt : ℕ) (refreshed : Bool) (w : W) :
    client.Loops request attempt refreshed w (client.loop request attempt refreshed w) := by
  induction attempt, refreshed, w using BaseApiClient.loop.induct client request with
  | case1 attempt refreshed w e w' auth =>
      rw [loop, auth]
      exact .unsent auth
  | case2 attempt refreshed w auth w' authorized sent outcome w'' sends result reacts =>
      rw [loop, authorized]
      simp only [sent] at sends
      simp only [sends]
      split <;> rename_i reacts' <;> change client.react _ _ _ (client.send _ w').1 = _ at reacts' <;>
        rw [sends, reacts] at reacts' <;> cases reacts'
      exact .finish authorized rfl sends reacts
  | case3 attempt refreshed w auth w' authorized sent outcome w'' sends reacts ih =>
      rw [loop, authorized]
      simp only [sent] at sends
      simp only [sends]
      split <;> rename_i reacts' <;> change client.react _ _ _ (client.send _ w').1 = _ at reacts' <;>
        rw [sends, reacts] at reacts' <;> cases reacts'
      exact .refresh authorized rfl sends reacts ih
  | case4 attempt refreshed w auth w' authorized sent outcome w'' sends asked reacts ih =>
      rw [loop, authorized]
      simp only [sent] at sends
      simp only [sends]
      split <;> rename_i reacts' <;> change client.react _ _ _ (client.send _ w').1 = _ at reacts' <;>
        rw [sends, reacts] at reacts' <;> cases reacts'
      exact .backOff authorized rfl sends reacts ih

/-! ## What a request can do -/

/-- The promises of one request. -/
structure WellBehaved (client : BaseApiClient W) (request : Request) (f : Finished W) : Prop where
  once : request.retrying = false → f.exchanges.length = 1
  bounded : (f.exchanges.length : ℤ) ≤ max 1 client.retry.maxAttempts + 1
  refreshed : f.refreshes ≤ 1
  resent : ∀ e ∈ f.exchanges.dropLast, e.outcome.Retryable ∨ e.outcome.rejected = true
  rejections : (f.exchanges.dropLast.countP fun e => e.outcome.rejected) = f.refreshes
  ended : ∃ last ∈ f.exchanges.getLast?, Explains request last.outcome f.result

/-- What is left to a loop before the send of attempt `attempt + 1`. -/
structure Remains (client : BaseApiClient W) (request : Request) (attempt : ℕ) (refreshed : Bool)
    (f : Finished W) : Prop where
  sent : f.exchanges ≠ []
  once : request.retrying = false → f.exchanges.length = 1
  bounded : (f.exchanges.length : ℤ) ≤
    max 1 (client.retry.maxAttempts - attempt) + if refreshed then 0 else 1
  refreshed : f.refreshes ≤ if refreshed then 0 else 1
  resent : ∀ e ∈ f.exchanges.dropLast, e.outcome.Retryable ∨ e.outcome.rejected = true
  rejections : (f.exchanges.dropLast.countP fun e => e.outcome.rejected) = f.refreshes
  ended : ∃ last ∈ f.exchanges.getLast?, Explains request last.outcome f.result

/-- While the token can be had, a call makes no more sends than attempts and one refresh. -/
theorem Loops.remains {request : Request} {attempt : ℕ} {refreshed : Bool} {w : W}
    {f : Finished W} (returns : ∀ w e, (client.authHeaders w).1 ≠ .error e)
    (loops : client.Loops request attempt refreshed w f) :
    client.Remains request attempt refreshed f := by
  induction loops with
  | unsent auth => exact absurd (congrArg Prod.fst auth) (returns _ _)
  | finish authorized wire sends reacts =>
      refine ⟨nofun, fun _ => rfl, ?_, Nat.zero_le _, nofun, rfl, _, rfl, react_finish reacts⟩
      rw [List.length_singleton]
      split <;> omega
  | refresh authorized wire sends reacts rest ih =>
      obtain ⟨rfl, retrying, rejected⟩ := react_refresh reacts
      have count := ih.refreshed
      have bound := ih.bounded
      rw [if_pos rfl] at count bound
      refine ⟨nofun, ?_, ?_, ?_, ?_, ?_, ?_⟩
      · rw [retrying]
        exact nofun
      · rw [List.length_cons, if_neg Bool.false_ne_true]
        push_cast at bound ⊢
        omega
      · exact Nat.succ_le_succ count
      · rw [List.dropLast_cons_of_ne_nil ih.sent]
        rintro e (_ | ⟨_, later⟩)
        · exact .inr rejected
        · exact ih.resent e later
      · rw [List.dropLast_cons_of_ne_nil ih.sent, List.countP_cons_of_pos (by exact rejected),
          ih.rejections]
      · rw [List.getLast?_cons_of_ne_nil ih.sent]
        exact ih.ended
  | @backOff attempt _ _ _ _ _ _ _ _ _ authorized wire sends reacts rest ih =>
      obtain ⟨retrying, more, retryable⟩ := react_backOff reacts
      have bound := ih.bounded
      refine ⟨nofun, ?_, ?_, ih.refreshed, ?_, ?_, ?_⟩
      · rw [retrying]
        exact nofun
      · rw [List.length_cons]
        push_cast at bound more ⊢
        have room : max 1 (client.retry.maxAttempts - (attempt + 1)) + 1 ≤
            max 1 (client.retry.maxAttempts - attempt) := by omega
        linarith
      · rw [List.dropLast_cons_of_ne_nil ih.sent]
        rintro e (_ | ⟨_, later⟩)
        · exact .inl retryable
        · exact ih.resent e later
      · rw [List.dropLast_cons_of_ne_nil ih.sent, List.countP_cons_of_neg, ih.rejections]
        rw [Outcome.not_rejected_of_retryable retryable]
        exact Bool.false_ne_true
      · rw [List.getLast?_cons_of_ne_nil ih.sent]
        exact ih.ended

/-- A client whose auth never fails sends within its bounds, repeats only what may be
repeated, and its result explains its last response. -/
theorem request_wellBehaved (returns : ∀ w e, (client.authHeaders w).1 ≠ .error e)
    (request : Request) (w : W) : client.WellBehaved request (client.request request w) := by
  have remains : client.Remains request 0 false (client.request request w) :=
    (client.loop_spec request 0 false w).remains client returns
  have bound := remains.bounded
  rw [Nat.cast_zero, sub_zero] at bound
  exact ⟨remains.once, bound, remains.refreshed, remains.resent, remains.rejections,
    remains.ended⟩

/-- The hooks of the base class, over a script of outcomes. -/
def scripted (script : ℕ → Outcome) : BaseApiClient ℕ where
  service := "api"
  retry := .default
  authHeaders n := (.ok [], n)
  onAuthFailure := id
  decodeError response := toString response.status
  acquire := id
  send _ n := (script n, n + 1)
  draw n := (0, n)
  sleep _ := id

/-- A GET answered by 401 and then by 500 for ever. -/
theorem scripted_wellBehaved :
    let client := scripted fun n => .response ⟨if n = 0 then 401 else 500, .empty, none⟩
    client.WellBehaved { method := .get, path := "/v1/orders" }
      (client.request { method := .get, path := "/v1/orders" } 0) :=
  request_wellBehaved _ nofun _ 0

end BaseApiClient

end FazerBridge
