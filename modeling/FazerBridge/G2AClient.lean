import FazerBridge.HttpClient
import FazerBridge.Lib.Revocation
import FazerBridge.Lib.Runs

/-!
# The token of the G2A client

`G2AClient` of `app/stores/g2a.py`: the hooks it gives `BaseApiClient`, over a
cached access token.  The server, its token endpoint and the clock are functions
on a state `S`.

The log holds every token the endpoint issued and every exchange.  A 401 revokes
the token its request carried, an issue renews it (`tokens`); the invariant is
`Fresh`: the log is respected, and the token held is not a revoked one.
-/

namespace FazerBridge

/-- The JSON of a token response. -/
structure TokenPayload where
  accessToken : Option String
  /-- `expires_in`, or why it is not a number -/
  expiresIn : Except String (Option ℚ)

/-- What the transport makes of a token request. -/
inductive TokenAnswer
  | response (status : ℕ) (text : String) (payload : Except String TokenPayload)
  | raised (message : String)

/-- What the client of one store account works with. -/
structure G2AClient (S : Type) where
  /-- `g2a_client_id` and `g2a_client_secret` -/
  credentials : Option (String × String)
  retry : RetrySettings
  decodeError : Response → String
  acquire : S → S
  /-- `time.time()` -/
  now : S → ℚ × S
  /-- the POST to the token endpoint -/
  postToken : String × String → S → TokenAnswer × S
  send : Sent → S → Outcome × S
  draw : S → ℚ × S
  sleep : ℚ → S → S

inductive G2AEvent
  | issued (token : String)
  | exchanged (exchange : Exchange)
  deriving DecidableEq

structure G2AState (S : Type) where
  token : Option String
  tokenExpiresAt : ℚ
  server : S
  /-- oldest event first -/
  log : List G2AEvent
  deriving DecidableEq

/-- A client that was just built. -/
def G2AState.new {S : Type} (server : S) : G2AState S := ⟨none, 0, server, []⟩

/-- The request carried the access token. -/
def Exchange.Carries (exchange : Exchange) (token : String) : Prop :=
  exchange.sent.headers.lookup "Authorization" = some ("Bearer " ++ token)

instance {exchange : Exchange} {token : String} : Decidable (exchange.Carries token) :=
  inferInstanceAs (Decidable (_ = _))

/-- What the log says about the access tokens. -/
def tokens : Revocation G2AEvent String where
  revokes event token :=
    ∃ exchange, event = .exchanged exchange ∧ exchange.Carries token ∧
      exchange.outcome.rejected = true
  renews event token := event = .issued token

/-- The event is a request with the access token. -/
def Presents (event : G2AEvent) (token : String) : Prop :=
  ∃ exchange, event = .exchanged exchange ∧ exchange.Carries token

namespace G2AClient

variable {S : Type} (g2a : G2AClient S)

def tokenRefreshMarginSeconds : ℚ := 60

def authError (message : String) (statusCode : Option ℕ) : Exn :=
  .api ⟨.authError, message, "g2a", statusCode⟩

/-- `_fetch_token` -/
def fetchToken (w : G2AState S) : Except Exn String × G2AState S :=
  match g2a.credentials with
  | none => (.error (.other ("RuntimeError: G2A_CLIENT_ID / G2A_CLIENT_SECRET are not set -- " ++
      "refusing to call the store API")), w)
  | some credentials =>
    match g2a.postToken credentials w.server with
    | (.raised message, server) => (.error (.other message), { w with server := server })
    | (.response status text payload, server) =>
      if status ≠ 200 then
        (.error (authError ("token request failed: " ++ text.take 300) (some status)),
          { w with server := server })
      else
        match payload with
        | .error message => (.error (.other message), { w with server := server })
        | .ok payload =>
          match truthyId payload.accessToken with
          | none => (.error (authError "token response has no access_token" none),
              { w with server := server })
          | some token =>
            let log := w.log ++ [.issued token]
            match payload.expiresIn with
            | .error message => (.error (.other message), { w with server := server, log := log })
            | .ok seconds =>
              let expiresIn := (seconds.filter fun s => s ≠ 0).getD 3600
              let (now, server) := g2a.now server
              (.ok token,
                { token := some token
                  tokenExpiresAt := now + max 30 (expiresIn - tokenRefreshMarginSeconds)
                  server := server
                  log := log })

/-- `token` -/
def token (w : G2AState S) : Except Exn String × G2AState S :=
  match w.token with
  | none => g2a.fetchToken w
  | some token =>
    let (now, server) := g2a.now w.server
    if w.tokenExpiresAt ≤ now then g2a.fetchToken { w with server := server }
    else (.ok token, { w with server := server })

/-- `auth_headers` -/
def authHeaders (w : G2AState S) : Except Exn Headers × G2AState S :=
  match g2a.token w with
  | (.ok token, w) =>
    (.ok [("Authorization", "Bearer " ++ token), ("Accept", "application/json")], w)
  | (.error e, w) => (.error e, w)

/-- A 401 mid-flight means the token died early -- drop and re-fetch. -/
def onAuthFailure (w : G2AState S) : G2AState S :=
  { w with token := none, tokenExpiresAt := 0 }

/-- Change the state of the server alone. -/
def onServer (f : S → S) (w : G2AState S) : G2AState S := { w with server := f w.server }

/-- The client as `BaseApiClient` sees it. -/
def base : BaseApiClient (G2AState S) where
  service := "g2a"
  retry := g2a.retry
  authHeaders := g2a.authHeaders
  onAuthFailure := onAuthFailure
  decodeError := g2a.decodeError
  acquire := onServer g2a.acquire
  send sent w :=
    let (outcome, server) := g2a.send sent w.server
    (outcome, { w with server := server, log := w.log ++ [.exchanged ⟨sent, outcome⟩] })
  draw w :=
    let (draw, server) := g2a.draw w.server
    (draw, { w with server := server })
  sleep delay := onServer (g2a.sleep delay)

/-! ## The invariant -/

/-- The log is respected, and the token held is not a revoked one. -/
structure Fresh (w : G2AState S) : Prop where
  respected : tokens.Respected Presents w.log
  held : ∀ token, w.token = some token → ¬ tokens.Revoked w.log token

theorem Fresh.new (server : S) : Fresh (.new server) where
  respected := tokens.respected_nil
  held _ held := nomatch held

/-- Only the token and the log matter. -/
theorem Fresh.congr {w w' : G2AState S} (fresh : Fresh w) (token : w'.token = w.token)
    (log : w'.log = w.log) : Fresh w' where
  respected := log ▸ fresh.respected
  held := by rw [token, log]; exact fresh.held

theorem Fresh.onAuthFailure {w : G2AState S} (respected : tokens.Respected Presents w.log) :
    Fresh (onAuthFailure w) where
  respected := respected
  held _ held := nomatch held

/-- An issue presents and revokes no token. -/
theorem not_presents_issued {token other : String} : ¬ Presents (.issued token) other := nofun

theorem not_revokes_issued {token other : String} : ¬ tokens.revokes (.issued token) other := nofun

theorem respected_issued {log : List G2AEvent} {token : String}
    (respected : tokens.Respected Presents log) : tokens.Respected Presents (log ++ [.issued token]) :=
  (tokens.respected_concat).mpr ⟨respected, fun _ presents => absurd presents not_presents_issued⟩

/-- Issuing a token revokes none, and renews its own. -/
theorem Fresh.issued {w w' : G2AState S} {token : String} (fresh : Fresh w)
    (log : w'.log = w.log ++ [.issued token])
    (held : w'.token = w.token ∨ w'.token = some token) : Fresh w' where
  respected := log ▸ respected_issued fresh.respected
  held other isHeld := by
    rw [log, tokens.revoked_concat]
    intro either
    rcases either with revokes | ⟨revoked, keeps⟩
    · exact not_revokes_issued revokes
    · rcases held with same | renewed
      · exact fresh.held other (same ▸ isHeld) revoked
      · cases renewed.symm.trans isHeld
        exact keeps rfl

theorem fetchToken_spec {w w' : G2AState S} {r : Except Exn String}
    (fetch : g2a.fetchToken w = (r, w')) (fresh : Fresh w) :
    Fresh w' ∧ ∀ token, r = .ok token → w'.token = some token := by
  unfold fetchToken at fetch
  split at fetch
  · cases fetch
    exact ⟨fresh, nofun⟩
  · split at fetch
    · cases fetch
      exact ⟨fresh.congr rfl rfl, nofun⟩
    · split at fetch
      · cases fetch
        exact ⟨fresh.congr rfl rfl, nofun⟩
      · split at fetch
        · cases fetch
          exact ⟨fresh.congr rfl rfl, nofun⟩
        · split at fetch
          · cases fetch
            exact ⟨fresh.congr rfl rfl, nofun⟩
          · split at fetch <;> cases fetch
            · exact ⟨fresh.issued rfl (.inl rfl), nofun⟩
            · refine ⟨fresh.issued rfl (.inr rfl), ?_⟩
              rintro _ ⟨⟩
              rfl

theorem token_spec {w w' : G2AState S} {r : Except Exn String}
    (fetch : g2a.token w = (r, w')) (fresh : Fresh w) :
    Fresh w' ∧ ∀ token, r = .ok token → w'.token = some token := by
  unfold token at fetch
  split at fetch
  · exact g2a.fetchToken_spec fetch fresh
  · rename_i token held
    simp only at fetch
    split at fetch
    · exact g2a.fetchToken_spec fetch (fresh.congr rfl rfl)
    · cases fetch
      refine ⟨fresh.congr rfl rfl, ?_⟩
      rintro _ ⟨⟩
      exact held

/-- The headers carry the token held. -/
theorem authHeaders_spec {w w' : G2AState S} {r : Except Exn Headers}
    (auth : g2a.authHeaders w = (r, w')) (fresh : Fresh w) :
    Fresh w' ∧ ∀ headers, r = .ok headers → ∃ token, w'.token = some token ∧
      headers = [("Authorization", "Bearer " ++ token), ("Accept", "application/json")] := by
  unfold authHeaders at auth
  split at auth <;> rename_i fetch <;> cases auth
  · obtain ⟨fresh', held⟩ := g2a.token_spec fetch fresh
    refine ⟨fresh', ?_⟩
    rintro _ ⟨⟩
    exact ⟨_, held _ rfl, rfl⟩
  · exact ⟨(g2a.token_spec fetch fresh).1, nofun⟩

/-! ## One request -/

/-- The 401s of one request: it may be retried, their bodies can be read, and there is one
at most. -/
structure Recoverable (request : Request) (answers : List Outcome) : Prop where
  retried : ∀ answer ∈ answers, answer.rejected = true →
    request.retrying = true ∧ 401 ∉ request.expected ∧ answer.Readable
  once : answers.countP Outcome.rejected ≤ 1

/-- The first 401 of a request that may be retried refreshes the token. -/
theorem react_of_rejected {request : Request} {attempt : ℕ} {outcome : Outcome}
    (client : BaseApiClient (G2AState S)) (rejected : outcome.rejected = true)
    (retrying : request.retrying = true) (unexpected : 401 ∉ request.expected)
    (readable : outcome.Readable) :
    client.react request attempt false outcome = .refresh := by
  cases outcome with
  | response response =>
      have status : response.status = 401 := of_decide_eq_true rejected
      simp only [BaseApiClient.react, status]
      rw [if_neg unexpected, if_neg readable, if_pos (.inl trivial),
        if_pos ⟨trivial, trivial, retrying⟩]
  | retryable name message => cases rejected
  | other message => cases rejected

/-- The request carries the token held, and no other. -/
theorem carries_iff {request : Request} {token other : String} {outcome : Outcome}
    (plain : request.headers = []) :
    Exchange.Carries ⟨⟨request.method, request.path, BaseApiClient.sendHeaders request
      [("Authorization", "Bearer " ++ token), ("Accept", "application/json")]⟩, outcome⟩ other ↔
      token = other := by
  have first : (BaseApiClient.sendHeaders request
      [("Authorization", "Bearer " ++ token), ("Accept", "application/json")]).lookup
        "Authorization" = some ("Bearer " ++ token) := by
    unfold BaseApiClient.sendHeaders
    rw [plain]
    split
    · dsimp only
      split <;> rfl
    · rfl
  unfold Exchange.Carries
  simp only [first, Option.some.injEq]
  exact String.append_right_inj _

theorem send_respected {request : Request} {w w' : G2AState S} {token : String} {sent : Sent}
    {outcome : Outcome} (sends : g2a.base.send sent w = (outcome, w'))
    (plain : request.headers = []) (held : w.token = some token)
    (wire : sent = ⟨request.method, request.path, BaseApiClient.sendHeaders request
      [("Authorization", "Bearer " ++ token), ("Accept", "application/json")]⟩)
    (fresh : Fresh w) :
    tokens.Respected Presents w'.log ∧ (outcome.rejected = false → Fresh w') := by
  cases sends
  have respected : tokens.Respected Presents
      (w.log ++ [.exchanged ⟨sent, (g2a.send sent w.server).1⟩]) := by
    refine (tokens.respected_concat).mpr ⟨fresh.respected, ?_⟩
    rintro other ⟨_, ⟨⟩, carries⟩
    rw [wire, carries_iff plain] at carries
    exact fresh.held other (carries ▸ held)
  refine ⟨respected, fun accepted => ⟨respected, fun other isHeld => ?_⟩⟩
  rw [tokens.revoked_concat]
  intro either
  rcases either with ⟨_, ⟨⟩, -, rejected⟩ | ⟨revoked, -⟩
  · rw [accepted] at rejected
    cases rejected
  · exact fresh.held other isHeld revoked

theorem Loops.fresh {request : Request} {attempt : ℕ} {refreshed : Bool} {w : G2AState S}
    {f : Finished (G2AState S)} (plain : request.headers = [])
    (loops : g2a.base.Loops request attempt refreshed w f)
    (retried : ∀ e ∈ f.exchanges, e.outcome.rejected = true →
      request.retrying = true ∧ 401 ∉ request.expected ∧ e.outcome.Readable)
    (once : (f.exchanges.countP fun e => e.outcome.rejected) ≤ if refreshed then 0 else 1)
    (fresh : Fresh w) : Fresh f.world := by
  induction loops with
  | unsent auth => exact (g2a.authHeaders_spec auth (fresh.congr rfl rfl)).1
  | @finish attempt refreshed w w' w'' auth sent outcome result authorized wire sends reacts =>
      obtain ⟨fresh, carried⟩ := g2a.authHeaders_spec authorized (fresh.congr rfl rfl)
      obtain ⟨token, held, rfl⟩ := carried _ rfl
      refine (g2a.send_respected sends plain held wire fresh).2 ?_
      refine Bool.eq_false_iff.mpr fun rejected => ?_
      obtain ⟨retrying, unexpected, readable⟩ := retried _ (List.mem_singleton_self _) rejected
      cases refreshed with
      | true =>
          rw [List.countP_singleton, if_pos rejected, if_pos rfl] at once
          exact absurd once (by decide)
      | false =>
          rw [react_of_rejected _ rejected retrying unexpected readable] at reacts
          cases reacts
  | refresh authorized wire sends reacts rest ih =>
      obtain ⟨fresh, carried⟩ := g2a.authHeaders_spec authorized (fresh.congr rfl rfl)
      obtain ⟨token, held, rfl⟩ := carried _ rfl
      obtain ⟨rfl, -, rejected⟩ := BaseApiClient.react_refresh reacts
      rw [List.countP_cons_of_pos (by exact rejected)] at once
      exact ih (fun e mem => retried e (List.mem_cons_of_mem _ mem)) (Nat.le_of_succ_le_succ once)
        (.onAuthFailure (g2a.send_respected sends plain held wire fresh).1)
  | backOff authorized wire sends reacts rest ih =>
      obtain ⟨fresh, carried⟩ := g2a.authHeaders_spec authorized (fresh.congr rfl rfl)
      obtain ⟨token, held, rfl⟩ := carried _ rfl
      obtain ⟨-, -, retryable⟩ := BaseApiClient.react_backOff reacts
      have accepted := Outcome.not_rejected_of_retryable retryable
      refine ih (fun e mem => retried e (List.mem_cons_of_mem _ mem)) ?_ ?_
      · rwa [List.countP_cons_of_neg (by exact Bool.eq_false_iff.mp accepted)] at once
      · have sent := (g2a.send_respected sends plain held wire fresh).2 accepted
        unfold BaseApiClient.backOff
        split <;> exact sent.congr rfl rfl

/-! ## Every run of requests -/

/-- A request with the answers the server gives to its sends. -/
structure Asked where
  request : Request
  answers : List Outcome

/-- The client makes one request; no caller in `G2AAdapter` brings headers of its own. -/
def Step (g2a : G2AClient S) (w : G2AState S) (asked : Asked) (w' : G2AState S) : Prop :=
  let f := g2a.base.request asked.request w
  asked.request.headers = [] ∧ f.exchanges.map Exchange.outcome = asked.answers ∧ f.world = w'

/-- The server answers 401 only where the client refreshes its token. -/
def Answerable (_ : G2AState S) (asked : Asked) : Prop :=
  Recoverable asked.request asked.answers

theorem step_fresh (w : G2AState S) (asked : Asked) (w' : G2AState S) (fresh : Fresh w)
    (answerable : Answerable w asked) (step : g2a.Step w asked w') : Fresh w' := by
  obtain ⟨plain, answers, rfl⟩ := step
  refine Loops.fresh g2a plain (g2a.base.loop_spec asked.request 0 false w) ?_ ?_ fresh
  · intro e mem
    exact answerable.retried e.outcome (answers ▸ List.mem_map_of_mem mem)
  · have once := answerable.once
    rw [← answers, List.countP_map] at once
    exact once

/-- A run of requests whose 401s are all answered to the first rejected send of a request
that may be retried sends no rejected token again. -/
theorem rejected_not_resent {server : S} {w : G2AState S}
    (run : Relation.ReflTransGen (Runs.Allowed g2a.Step Answerable) (.new server) w) :
    tokens.Respected Presents w.log :=
  (Runs.invariant g2a.step_fresh run (.new server)).respected

/-- A store that rejects the first send, and numbers its tokens by the sends before. -/
def sample : G2AClient ℕ where
  credentials := some ("id", "secret")
  retry := .default
  decodeError response := toString response.status
  acquire := id
  now n := (0, n)
  postToken _ n := (.response 200 "" (.ok ⟨some ("token-" ++ toString n), .ok (some 3600)⟩), n)
  send _ n := (.response ⟨if n = 0 then 401 else 200, .empty, none⟩, n + 1)
  draw n := (0, n)
  sleep _ := id

def getOffers : Request := { method := .get, path := "/v1/offers" }

def postOffer : Request :=
  { method := .post, path := "/v1/offers", expected := [200, 201, 202] }

def answered (status : ℕ) : Outcome := .response ⟨status, .empty, none⟩

/-- A send of the client with its answer. -/
def carrying (request : Request) (token : String) (status : ℕ) : G2AEvent :=
  .exchanged ⟨⟨request.method, request.path, BaseApiClient.sendHeaders request
    [("Authorization", "Bearer " ++ token), ("Accept", "application/json")]⟩, answered status⟩

/-- The GET gets a new token and is sent again. -/
theorem rejected_not_resent_get :
    tokens.Respected Presents [.issued "token-0", carrying getOffers "token-0" 401,
      .issued "token-1", carrying getOffers "token-1" 200] := by
  let refreshed : G2AState ℕ := ⟨some "token-1", 3540, 2, [.issued "token-0",
    carrying getOffers "token-0" 401, .issued "token-1", carrying getOffers "token-1" 200]⟩
  have get : sample.Step (.new 0) ⟨getOffers, [answered 401, answered 200]⟩ refreshed :=
    ⟨rfl, by decide +kernel, by decide +kernel⟩
  exact sample.rejected_not_resent (.single ⟨_, ⟨by decide, by decide⟩, get⟩)

/-- A POST without a key is answered 401; the client keeps the token, and the GET after it
is sent with it. -/
theorem rejected_resent : ¬ ∀ w, Relation.ReflTransGen
    (Runs.Allowed sample.Step fun _ _ => True) (.new 0) w → tokens.Respected Presents w.log := by
  let posted : G2AState ℕ :=
    ⟨some "token-0", 3540, 1, [.issued "token-0", carrying postOffer "token-0" 401]⟩
  let got : G2AState ℕ := ⟨some "token-0", 3540, 2, posted.log ++ [carrying getOffers "token-0" 200]⟩
  have post : sample.Step (.new 0) ⟨postOffer, [answered 401]⟩ posted :=
    ⟨rfl, by decide +kernel, by decide +kernel⟩
  have get : sample.Step posted ⟨getOffers, [answered 200]⟩ got :=
    ⟨rfl, by decide +kernel, by decide +kernel⟩
  refine Runs.not_invariant ((Relation.ReflTransGen.single ⟨_, trivial, post⟩).tail
    ⟨_, trivial, get⟩) fun respected => ?_
  refine respected posted.log _ [] rfl "token-0" ⟨_, rfl, by decide⟩ ?_
  exact ⟨[.issued "token-0"], _, [], rfl, ⟨_, rfl, by decide, by decide⟩, nofun⟩

end G2AClient

end FazerBridge
