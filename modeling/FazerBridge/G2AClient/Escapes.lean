import FazerBridge.G2AClient
import FazerBridge.HttpClient.Simulation
import FazerBridge.OfferSync.Outcomes

/-!
# Which errors leave a request

`request` turns the failures of its own send into `ApiError`s, but builds its headers
outside of the guarded region, and waits as long as the server says.  What the token
endpoint answers is not kept by the client, so `recording` keeps it, and the loop with it is
the loop without it (`recording_simulates`).
-/

namespace FazerBridge

/-- What is raised is an `ApiError`. -/
def OnlyApi {α : Type} (r : Except Exn α) : Prop := ∀ e, r = .error e → ∃ a, e = .api a

section

variable {α : Type}

theorem onlyApi_ok {a : α} : OnlyApi (.ok a : Except Exn α) := by
  intro e raised
  cases raised

/-- An exception the sync handles is an error of the API. -/
theorem onlyApi_error_iff {e : Exn} : OnlyApi (.error e : Except Exn α) ↔ ∃ a, e = .api a := by
  constructor
  · intro only
    exact only e rfl
  · rintro api _ ⟨⟩
    exact api

theorem onlyApi_api {a : ApiError} : OnlyApi (.error (.api a) : Except Exn α) :=
  onlyApi_error_iff.mpr ⟨a, rfl⟩

theorem not_onlyApi_other {message : String} :
    ¬ OnlyApi (.error (.other message) : Except Exn α) := by
  intro only
  obtain ⟨a, same⟩ := onlyApi_error_iff.mp only
  cases same

end

/-! ## The answers -/

/-- An answer of the token endpoint that is a token or becomes an `AuthError`: no transport
exception, and a 200 only with a JSON object, whose `expires_in` is a number where it has an
`access_token`. -/
def TokenAnswer.Handled : TokenAnswer → Prop
  | .raised _ => False
  | .response status _ (.error _) => status ≠ 200
  | .response status _ (.ok payload) =>
    status ≠ 200 ∨ truthyId payload.accessToken = none ∨ payload.expiresIn.isOk = true

instance : DecidablePred TokenAnswer.Handled
  | .raised _ => inferInstanceAs (Decidable False)
  | .response status _ (.error _) => inferInstanceAs (Decidable (status ≠ 200))
  | .response _ _ (.ok _) => inferInstanceAs (Decidable (_ ∨ _ ∨ _))

/-- A `Retry-After` that, cut to the longest delay, is none to sleep: `nan`, or less than no
time. -/
def PyFloat.Unslept (most : ℚ) : PyFloat → Prop
  | .nan => True
  | .number seconds => min seconds (most : Seconds) < 0

instance (most : ℚ) : DecidablePred (PyFloat.Unslept most)
  | .nan => inferInstanceAs (Decidable True)
  | .number _ => inferInstanceAs (Decidable (_ < _))

namespace BaseApiClient

variable {W : Type} (client : BaseApiClient W) {request : Request} {attempt : ℕ}
  {refreshed : Bool} {outcome : Outcome}

/-- An outcome that ends attempt `attempt` with an error of its own: an exception outside of
`RETRYABLE_EXCEPTIONS`, a body nested too deep to be read (that of an expected 204 is not
read), or a response to send again after a time that is none to sleep. -/
def Escapes (request : Request) (attempt : ℕ) : Outcome → Prop
  | .other _ => True
  | .retryable _ _ => False
  | .response r =>
    r.content.Deep ∧ ¬ (r.status = 204 ∧ 204 ∈ request.expected) ∨
      r.status ∈ retryableStatus ∧ r.status ∉ request.expected ∧ request.retrying = true ∧
        (attempt : ℤ) < client.retry.maxAttempts ∧
        ∃ asked ∈ r.retryAfter, asked.Unslept client.retry.maxDelaySeconds

instance {attempt : ℕ} : DecidablePred (client.Escapes request attempt)
  | .other _ => inferInstanceAs (Decidable True)
  | .retryable _ _ => inferInstanceAs (Decidable False)
  | .response _ => inferInstanceAs (Decidable (_ ∨ _ ∧ _ ∧ _ ∧ _ ∧ _))

/-- None of the exchanges escapes, the first of which is attempt `attempt + 1`. -/
def Contains (request : Request) : ℕ → List Exchange → Prop
  | _, [] => True
  | attempt, exchange :: rest =>
    ¬ client.Escapes request (attempt + 1) exchange.outcome ∧ Contains request (attempt + 1) rest

instance decidableContains (request : Request) :
    ∀ attempt exchanges, Decidable (client.Contains request attempt exchanges)
  | _, [] => inferInstanceAs (Decidable True)
  | attempt, exchange :: rest =>
    let _ := decidableContains request (attempt + 1) rest
    inferInstanceAs (Decidable (¬ client.Escapes request (attempt + 1) exchange.outcome ∧
      client.Contains request (attempt + 1) rest))

/-- Only a body too deep for the parser raises outside the errors of the API. -/
theorem onlyApi_body {response : Response} :
    OnlyApi (client.body request response) ↔ ¬ (response.content.Deep ∧ response.status ≠ 204) := by
  unfold body
  split
  · rename_i bodyless
    exact iff_of_true onlyApi_ok fun deep => deep.2 bodyless
  · rename_i bodied
    cases content : response.content with
    | empty => exact iff_of_true onlyApi_ok fun deep => deep.1
    | json value => exact iff_of_true onlyApi_ok fun deep => deep.1
    | notJson text => exact iff_of_true onlyApi_api fun deep => deep.1
    | tooDeep text => exact iff_of_false not_onlyApi_other fun read => read ⟨trivial, bodied⟩

/-- The sleep takes what it is asked for, or raises. -/
theorem sleepable_asked (attempt : ℕ) (asked : PyFloat) :
    (∃ seconds, sleepable (client.backoffDelay attempt (some asked) 0) = .ok seconds) ∧
        ¬ asked.Unslept client.retry.maxDelaySeconds ∨
      (∃ message, sleepable (client.backoffDelay attempt (some asked) 0) =
        .error (.other message)) ∧ asked.Unslept client.retry.maxDelaySeconds := by
  cases asked with
  | nan => exact .inr ⟨⟨_, rfl⟩, trivial⟩
  | number seconds =>
      change (∃ s, sleepable (.number (min seconds _)) = _) ∧ ¬ min seconds _ < 0 ∨
        (∃ message, sleepable (.number (min seconds _)) = _) ∧ min seconds _ < 0
      have capped : min seconds (client.retry.maxDelaySeconds : Seconds) ≤
        client.retry.maxDelaySeconds := min_le_right _ _
      generalize min seconds (client.retry.maxDelaySeconds : Seconds) = delay at capped
      induction delay using WithBotTop.rec with
      | bot => exact .inr ⟨⟨_, rfl⟩, WithBot.bot_lt_coe _⟩
      | top => exact absurd (WithBot.coe_le_coe.mp capped) (WithTop.not_top_le_coe _)
      | coe delay =>
          by_cases past : delay < 0
          · exact .inr ⟨⟨_, if_pos past⟩, WithBotTop.coe_lt_coe.mpr past⟩
          · exact .inl ⟨⟨_, if_neg past⟩, fun less => past (WithBotTop.coe_lt_coe.mp less)⟩

/-- Denied responses are never sent again by waiting. -/
theorem not_mem_retryableStatus {status : ℕ} (denied : status = 401 ∨ status = 403) :
    status ∉ retryableStatus := by
  rcases denied with rfl | rfl <;> decide

/-- An outcome that ends a call ends it within the errors of the API, unless it escapes. -/
theorem react_finish_iff {result : Except Exn (Option String)}
    (reacts : client.react request attempt refreshed outcome = .finish result) :
    OnlyApi result ↔ ¬ client.Escapes request attempt outcome := by
  cases outcome with
  | retryable name message =>
      simp only [react] at reacts
      split at reacts
      · cases reacts
        exact iff_of_true onlyApi_api (not_false)
      · cases reacts
  | other message =>
      cases reacts
      exact iff_of_false not_onlyApi_other fun contained => contained trivial
  | response response =>
      simp only [react] at reacts
      split at reacts
      · rename_i expected
        cases reacts
        refine client.onlyApi_body.trans (not_congr ⟨fun deep => ?_, ?_⟩)
        · exact .inl ⟨deep.1, fun bodyless => deep.2 bodyless.1⟩
        · intro either
          rcases either with ⟨deep, bodied⟩ | again
          · exact ⟨deep, fun bodyless => bodied ⟨bodyless, bodyless ▸ expected⟩⟩
          · exact absurd expected again.2.1
      rename_i unexpected
      split at reacts
      · rename_i deep
        cases reacts
        exact iff_of_false not_onlyApi_other fun contained =>
          contained (.inl ⟨deep, fun bodyless => unexpected (bodyless.1 ▸ bodyless.2)⟩)
      rename_i read
      -- what is read escapes only where it is sent again
      have escapes_iff : client.Escapes request attempt (.response response) ↔ _ :=
        or_iff_right fun deep => read deep.1
      rw [escapes_iff]
      split at reacts
      · rename_i denied
        split at reacts <;> cases reacts
        exact iff_of_true onlyApi_api fun escapes => not_mem_retryableStatus denied escapes.1
      split at reacts
      · rename_i last
        cases reacts
        refine iff_of_true onlyApi_api fun escapes => ?_
        rcases last with final | unretried | spent
        · exact final escapes.1
        · cases unretried.symm.trans escapes.2.2.1
        · exact absurd escapes.2.2.2.1 (not_lt.mpr spent)
      rename_i again
      rw [not_or, not_or, not_not, Bool.not_eq_false, not_le] at again
      split at reacts
      · cases reacts
      rename_i asks
      obtain ⟨asked, header⟩ := Option.ne_none_iff_exists'.mp asks
      rw [header] at reacts
      rcases client.sleepable_asked attempt asked with
        ⟨⟨seconds, sleeps⟩, -⟩ | ⟨⟨message, raises⟩, unslept⟩
      · rw [sleeps] at reacts
        cases reacts
      · rw [raises] at reacts
        cases reacts
        refine iff_of_false not_onlyApi_other fun contained => contained ?_
        exact ⟨again.1, unexpected, again.2.1, again.2.2, asked, header, unslept⟩

/-- A rejected token does not escape. -/
theorem not_escapes_of_refresh
    (reacts : client.react request attempt refreshed outcome = .refresh) :
    ¬ client.Escapes request attempt outcome := by
  obtain ⟨-, -, rejected⟩ := react_refresh reacts
  cases outcome with
  | response response =>
      intro either
      rcases either with ⟨deep, -⟩ | again
      · simp only [react] at reacts
        split at reacts <;> cases reacts
      · exact not_mem_retryableStatus (.inl (of_decide_eq_true rejected)) again.1
  | retryable name message => cases rejected
  | other message => cases rejected

/-- An outcome that is tried again does not escape. -/
theorem not_escapes_of_backOff {asked : Option ℚ}
    (reacts : client.react request attempt refreshed outcome = .backOff asked) :
    ¬ client.Escapes request attempt outcome := by
  cases outcome with
  | retryable name message => exact not_false
  | other message => cases reacts
  | response response =>
      intro either
      rcases either with ⟨deep, -⟩ | ⟨retryable, unexpected, retrying, more, asked, header, unslept⟩
      · simp only [react] at reacts
        split at reacts <;> cases reacts
      · simp only [react] at reacts
        rw [if_neg unexpected] at reacts
        split at reacts
        · cases reacts
        rw [if_neg (not_mem_retryableStatus · retryable), if_neg, header,
          if_neg (Option.some_ne_none asked)] at reacts
        · rcases client.sleepable_asked attempt asked with
            ⟨-, slept⟩ | ⟨⟨message, raises⟩, -⟩
          · exact slept unslept
          · rw [raises] at reacts
            cases reacts
        · rw [not_or, not_or, not_not, Bool.not_eq_false, not_le]
          exact ⟨retryable, retrying, more⟩

end BaseApiClient

/-! ## Keeping the answers of the token endpoint -/

namespace G2AClient

variable {S : Type} (g2a : G2AClient S)

/-- The client with the answers of the token endpoint kept beside the server. -/
def recording : G2AClient (S × List TokenAnswer) where
  credentials := g2a.credentials
  retry := g2a.retry
  decodeError := g2a.decodeError
  acquire w := (g2a.acquire w.1, w.2)
  now w :=
    let (now, server) := g2a.now w.1
    (now, server, w.2)
  postToken credentials w :=
    let (answer, server) := g2a.postToken credentials w.1
    (answer, server, w.2 ++ [answer])
  send sent w :=
    let (outcome, server) := g2a.send sent w.1
    (outcome, server, w.2)
  draw w :=
    let (draw, server) := g2a.draw w.1
    (draw, server, w.2)
  sleep delay w := (g2a.sleep delay w.1, w.2)

/-- The state with the answers kept so far. -/
def withAnswers (answers : List TokenAnswer) (w : G2AState S) : G2AState (S × List TokenAnswer) :=
  ⟨w.token, w.tokenExpiresAt, (w.server, answers), w.log⟩

/-- The state without the answers. -/
def withoutAnswers (w : G2AState (S × List TokenAnswer)) : G2AState S :=
  ⟨w.token, w.tokenExpiresAt, w.server.1, w.log⟩

/-- The answers of the token endpoint during a request. -/
def tokenAnswers (request : Request) (w : G2AState S) : List TokenAnswer :=
  (g2a.recording.base.request request (withAnswers [] w)).world.server.2

theorem recording_postToken {credentials : String × String} {w : S × List TokenAnswer}
    {answer : TokenAnswer} {server : S} (posts : g2a.postToken credentials w.1 = (answer, server)) :
    g2a.recording.postToken credentials w = (answer, server, w.2 ++ [answer]) := by
  change ((g2a.postToken credentials w.1).1, (g2a.postToken credentials w.1).2,
    w.2 ++ [(g2a.postToken credentials w.1).1]) = _
  rw [posts]

/-- Recording the answers does not change what `_fetch_token` does. -/
theorem fetchToken_withoutAnswers (w : G2AState (S × List TokenAnswer)) :
    g2a.fetchToken (withoutAnswers w) =
      ((g2a.recording.fetchToken w).1, withoutAnswers (g2a.recording.fetchToken w).2) := by
  have same : g2a.recording.credentials = g2a.credentials := rfl
  unfold fetchToken
  rw [same]
  cases g2a.credentials with
  | none => rfl
  | some pair =>
      rcases posts : g2a.postToken pair w.server.1 with ⟨answer, server⟩
      have posts' : g2a.postToken pair (withoutAnswers w).server = (answer, server) := posts
      simp only [posts', g2a.recording_postToken posts]
      cases answer with
      | raised message => rfl
      | response status text payload =>
          dsimp only
          split
          · rfl
          · cases payload with
            | error message => rfl
            | ok payload =>
                cases token : truthyId payload.accessToken with
                | none => simp only [token]; rfl
                | some token' =>
                    cases expires : payload.expiresIn with
                    | error message => simp only [token, expires]; rfl
                    | ok seconds => simp only [token, expires]; rfl

/-- Without a token one is fetched. -/
theorem token_of_none {w : G2AState S} (none : w.token = none) :
    g2a.token w = g2a.fetchToken w := by
  unfold G2AClient.token
  rw [none]

/-- A token that has expired is fetched anew. -/
theorem token_of_expired {w : G2AState S} {token : String} (held : w.token = some token)
    (expired : w.tokenExpiresAt ≤ (g2a.now w.server).1) :
    g2a.token w = g2a.fetchToken { w with server := (g2a.now w.server).2 } := by
  unfold G2AClient.token
  rw [held]
  exact if_pos expired

/-- A live token is used again. -/
theorem token_of_live {w : G2AState S} {token : String} (held : w.token = some token)
    (live : ¬ w.tokenExpiresAt ≤ (g2a.now w.server).1) :
    g2a.token w = (.ok token, { w with server := (g2a.now w.server).2 }) := by
  unfold G2AClient.token
  rw [held]
  exact if_neg live

/-- Recording the answers does not change what `token` does. -/
theorem token_withoutAnswers (w : G2AState (S × List TokenAnswer)) :
    g2a.token (withoutAnswers w) =
      ((g2a.recording.token w).1, withoutAnswers (g2a.recording.token w).2) := by
  cases held : w.token with
  | none =>
      rw [g2a.token_of_none held, g2a.recording.token_of_none held]
      exact g2a.fetchToken_withoutAnswers w
  | some token =>
      by_cases expired : w.tokenExpiresAt ≤ (g2a.now w.server.1).1
      · rw [g2a.token_of_expired held expired, g2a.recording.token_of_expired held expired]
        exact g2a.fetchToken_withoutAnswers { w with server := (g2a.recording.now w.server).2 }
      · rw [g2a.token_of_live held expired, g2a.recording.token_of_live held expired]
        rfl

/-- Recording the answers does not change the headers. -/
theorem authHeaders_withoutAnswers (w : G2AState (S × List TokenAnswer)) :
    g2a.authHeaders (withoutAnswers w) =
      ((g2a.recording.authHeaders w).1, withoutAnswers (g2a.recording.authHeaders w).2) := by
  unfold authHeaders
  rw [token_withoutAnswers]
  rcases g2a.recording.token w with ⟨e | token, w'⟩
  · rfl
  · rfl

/-- Keeping the answers changes nothing of a request. -/
theorem recording_simulates (request : Request) :
    g2a.recording.base.Simulation g2a.base request request
      (fun w v => v = withoutAnswers w) Eq Eq where
  passes := by
    rintro w _ rfl
    have auth := g2a.authHeaders_withoutAnswers (g2a.recording.base.acquire w)
    change BaseApiClient.Passes _ _ _ _ _ _ _ _
      (g2a.authHeaders (withoutAnswers (g2a.recording.base.acquire w)))
    rw [auth]
    change BaseApiClient.Passes _ _ _ _ _ _ _
      (g2a.recording.authHeaders (g2a.recording.base.acquire w)) _
    rcases g2a.recording.authHeaders (g2a.recording.base.acquire w) with ⟨e | auth, w'⟩
    · exact .unsent rfl rfl
    · exact .sent rfl rfl
  refreshes := by
    rintro w _ rfl
    rfl
  backsOff := by
    rintro w _ attempt (_ | asked) rfl
    · rfl
    · rfl
  reacts := by
    rintro outcome _ attempt refreshed rfl
    change Reaction.Alike _ _ (g2a.recording.base.react request attempt refreshed outcome)
    cases g2a.recording.base.react request attempt refreshed outcome with
    | finish result => exact .finish rfl
    | refresh => exact .refresh
    | backOff asked => exact .backOff

/-! ## What leaves a request -/

/-- The answers kept since, with what they say about what was raised. -/
def Heard {α : Type} (w : G2AState (S × List TokenAnswer)) (r : Except Exn α)
    (w' : G2AState (S × List TokenAnswer)) : Prop :=
  ∃ heard, w'.server.2 = w.server.2 ++ heard ∧
    (OnlyApi r ↔ ∀ answer ∈ heard, TokenAnswer.Handled answer)

/-- A part that asks for no token is heard with nothing. -/
theorem heard_nothing {α : Type} {w w' : G2AState (S × List TokenAnswer)} {r : Except Exn α}
    (same : w'.server.2 = w.server.2) (only : OnlyApi r) : Heard w r w' := by
  refine ⟨[], ?_, iff_of_true only ?_⟩
  · rw [same, List.append_nil]
  · simp

/-- A part that gets one answer raises within the errors of the API if the answer is handled. -/
theorem heard_answer {α : Type} {w w' : G2AState (S × List TokenAnswer)} {r : Except Exn α}
    {answer : TokenAnswer} (kept : w'.server.2 = w.server.2 ++ [answer])
    (only : OnlyApi r ↔ answer.Handled) : Heard w r w' := by
  refine ⟨[answer], kept, only.trans ?_⟩
  simp

/-- `_fetch_token` is heard. -/
theorem heard_fetchToken (configured : g2a.credentials.isSome = true)
    {w w' : G2AState (S × List TokenAnswer)} {r : Except Exn String}
    (fetch : g2a.recording.fetchToken w = (r, w')) : Heard w r w' := by
  obtain ⟨pair, credentials⟩ := Option.isSome_iff_exists.mp configured
  have same : g2a.recording.credentials = g2a.credentials := rfl
  unfold fetchToken at fetch
  rw [same, credentials] at fetch
  rcases posts : g2a.postToken pair w.server.1 with ⟨answer, server⟩
  simp only [g2a.recording_postToken posts] at fetch
  cases answer with
  | raised message =>
      cases fetch
      refine heard_answer rfl (iff_of_false not_onlyApi_other ?_)
      exact not_false
  | response status text payload =>
      dsimp only at fetch
      split at fetch
      · rename_i refused
        cases fetch
        refine heard_answer rfl (iff_of_true onlyApi_api ?_)
        cases payload with
        | error message => exact refused
        | ok payload => exact .inl refused
      · rename_i accepted
        cases payload with
        | error message =>
            cases fetch
            exact heard_answer rfl (iff_of_false not_onlyApi_other accepted)
        | ok payload =>
            cases token : truthyId payload.accessToken with
            | none =>
                simp only [token] at fetch
                cases fetch
                exact heard_answer rfl (iff_of_true onlyApi_api (.inr (.inl token)))
            | some token' =>
                cases expires : payload.expiresIn with
                | error message =>
                    simp only [token, expires] at fetch
                    cases fetch
                    refine heard_answer rfl (iff_of_false not_onlyApi_other ?_)
                    intro handled
                    rcases handled with refused | nameless | number
                    · exact accepted refused
                    · cases nameless.symm.trans token
                    · rw [expires] at number
                      cases number
                | ok seconds =>
                    simp only [token, expires] at fetch
                    cases fetch
                    refine heard_answer rfl (iff_of_true onlyApi_ok (.inr (.inr ?_)))
                    rw [expires]
                    rfl

/-- `token` is heard. -/
theorem heard_token (configured : g2a.credentials.isSome = true)
    {w w' : G2AState (S × List TokenAnswer)} {r : Except Exn String}
    (token : g2a.recording.token w = (r, w')) : Heard w r w' := by
  cases held : w.token with
  | none =>
      rw [g2a.recording.token_of_none held] at token
      exact g2a.heard_fetchToken configured token
  | some token' =>
      by_cases expired : w.tokenExpiresAt ≤ (g2a.recording.now w.server).1
      · rw [g2a.recording.token_of_expired held expired] at token
        obtain ⟨heard, kept, only⟩ := g2a.heard_fetchToken configured token
        exact ⟨heard, kept, only⟩
      · rw [g2a.recording.token_of_live held expired] at token
        cases token
        exact heard_nothing rfl onlyApi_ok

/-- `auth_headers` is heard. -/
theorem heard_authHeaders (configured : g2a.credentials.isSome = true)
    {w w' : G2AState (S × List TokenAnswer)} {r : Except Exn Headers}
    (auth : g2a.recording.authHeaders w = (r, w')) : Heard w r w' := by
  unfold authHeaders at auth
  rcases token : g2a.recording.token w with ⟨e | token', v⟩
  · rw [token] at auth
    cases auth
    obtain ⟨heard, kept, only⟩ := g2a.heard_token configured token
    exact ⟨heard, kept, (onlyApi_error_iff.trans onlyApi_error_iff.symm).trans only⟩
  · rw [token] at auth
    cases auth
    obtain ⟨heard, kept, only⟩ := g2a.heard_token configured token
    exact ⟨heard, kept, iff_of_true onlyApi_ok (only.mp onlyApi_ok)⟩

/-- A send whose headers were given keeps the answers it was given after. -/
theorem heard_send (configured : g2a.credentials.isSome = true)
    {w w₁ w₂ : G2AState (S × List TokenAnswer)} {auth : Headers} {sent : Sent} {outcome : Outcome}
    (authorized : g2a.recording.base.authHeaders (g2a.recording.base.acquire w) = (.ok auth, w₁))
    (sends : g2a.recording.base.send sent w₁ = (outcome, w₂)) :
    ∃ heard, w₂.server.2 = w.server.2 ++ heard ∧
      ∀ answer ∈ heard, TokenAnswer.Handled answer := by
  obtain ⟨heard, kept, only⟩ := g2a.heard_authHeaders configured authorized
  cases sends
  exact ⟨heard, kept, only.mp onlyApi_ok⟩

/-- The answers of a pass and of the passes after it. -/
theorem heard_append {w w₂ w₃ : G2AState (S × List TokenAnswer)}
    {r : Except Exn (Option String)} {contained rest : Prop} {heard later : List TokenAnswer}
    (kept : w₂.server.2 = w.server.2 ++ heard)
    (handled : ∀ answer ∈ heard, TokenAnswer.Handled answer)
    (keeps : w₃.server.2 = w₂.server.2 ++ later)
    (only : OnlyApi r ↔ (∀ answer ∈ later, TokenAnswer.Handled answer) ∧ rest)
    (contains : contained ↔ rest) :
    ∃ heard, w₃.server.2 = w.server.2 ++ heard ∧
      (OnlyApi r ↔ (∀ answer ∈ heard, TokenAnswer.Handled answer) ∧ contained) := by
  refine ⟨heard ++ later, ?_, ?_⟩
  · rw [keeps, kept, List.append_assoc]
  · rw [only, contains, List.forall_mem_append, and_iff_right handled]

/-- The answers that one loop keeps, and what they say about its end. -/
theorem heard_loops (configured : g2a.credentials.isSome = true) {request : Request}
    {attempt : ℕ} {refreshed : Bool} {w : G2AState (S × List TokenAnswer)}
    {f : Finished (G2AState (S × List TokenAnswer))}
    (loops : g2a.recording.base.Loops request attempt refreshed w f) :
    ∃ heard, f.world.server.2 = w.server.2 ++ heard ∧
      (OnlyApi f.result ↔ (∀ answer ∈ heard, TokenAnswer.Handled answer) ∧
        g2a.recording.base.Contains request attempt f.exchanges) := by
  induction loops with
  | unsent auth =>
      obtain ⟨heard, kept, only⟩ := g2a.heard_authHeaders configured auth
      refine ⟨heard, kept, (onlyApi_error_iff.trans onlyApi_error_iff.symm).trans
        (only.trans ?_)⟩
      exact (and_iff_left trivial).symm
  | finish authorized wire sends reacts =>
      obtain ⟨heard, kept, handled⟩ := g2a.heard_send configured authorized sends
      refine ⟨heard, kept, (g2a.recording.base.react_finish_iff reacts).trans ?_⟩
      rw [and_iff_right handled]
      exact (and_iff_left trivial).symm
  | refresh authorized wire sends reacts rest ih =>
      obtain ⟨heard, kept, handled⟩ := g2a.heard_send configured authorized sends
      obtain ⟨later, keeps, only⟩ := ih
      exact heard_append kept handled keeps only
        (and_iff_right (g2a.recording.base.not_escapes_of_refresh reacts))
  | @backOff _ _ _ _ _ _ _ _ asked _ authorized wire sends reacts rest ih =>
      obtain ⟨heard, kept, handled⟩ := g2a.heard_send configured authorized sends
      obtain ⟨later, keeps, only⟩ := ih
      refine heard_append kept handled (keeps.trans ?_) only
        (and_iff_right (g2a.recording.base.not_escapes_of_backOff reacts))
      cases asked with
      | none => rfl
      | some seconds => rfl

/-- Only the outcomes decide whether an exchange escapes. -/
theorem contains_congr {request : Request} {exchanges exchanges' : List Exchange}
    (same : List.Forall₂ (fun e e' : Exchange => e.outcome = e'.outcome) exchanges exchanges') :
    ∀ attempt, g2a.recording.base.Contains request attempt exchanges ↔
      g2a.base.Contains request attempt exchanges' := by
  induction same with
  | nil =>
      intro attempt
      exact Iff.rfl
  | cons outcome rest ih =>
      intro attempt
      refine and_congr (not_congr ?_) (ih (attempt + 1))
      rw [outcome]
      exact Iff.rfl

/-- The answers a request is given are tokens, become `ApiError`s, or are sent again. -/
structure Handles (request : Request) (w : G2AState S) : Prop where
  tokens : ∀ answer ∈ g2a.tokenAnswers request w, TokenAnswer.Handled answer
  sends : g2a.base.Contains request 0 (g2a.base.request request w).exchanges

/-- A request raises only errors of the API exactly if all it hears can be handled. -/
theorem onlyApi_iff_handles (configured : g2a.credentials.isSome = true) (request : Request)
    (w : G2AState S) :
    OnlyApi (g2a.base.request request w).result ↔ g2a.Handles request w := by
  have ends : BaseApiClient.EndsAlike _ _ _ (g2a.recording.base.request request (withAnswers [] w))
      (g2a.base.request request w) := (g2a.recording_simulates request).endsAlike rfl
  obtain ⟨heard, kept, only⟩ := g2a.heard_loops configured
    (g2a.recording.base.loop_spec request 0 false (withAnswers [] w))
  have answers : g2a.tokenAnswers request w = heard := kept
  change OnlyApi (g2a.recording.base.request request (withAnswers [] w)).result ↔
    _ ∧ g2a.recording.base.Contains request 0
      (g2a.recording.base.request request (withAnswers [] w)).exchanges at only
  rw [ends.result, g2a.contains_congr ends.outcomes, ← answers] at only
  constructor
  · intro api
    exact ⟨(only.mp api).1, (only.mp api).2⟩
  · intro handles
    exact only.mpr ⟨handles.tokens, handles.sends⟩

end G2AClient

/-! ## One offer -/

/-- An error that a call of the adapter ends with. -/
inductive Adapter.Raises {W : Type} (adapter : Adapter W) (e : Exn) : Prop
  | offersForProduct {productExtId w w'}
      (answer : adapter.offersForProduct productExtId w = (.error e, w'))
  | createOffer {productExtId price inventory active w w'}
      (answer : adapter.createOffer productExtId price inventory active w = (.error e, w'))
  | updateOffer {offerExtId price inventory active w w'}
      (answer : adapter.updateOffer offerExtId price inventory active w = (.error e, w'))
  | getJob {jobId w w'} (answer : adapter.getJob jobId w = (.error e, w'))

namespace OfferSync

variable {W : Type} {sync : OfferSync W} {s t : RowState W} {phase : Phase}
  {desired : DesiredOffer} {now : Time} {e : Exn}

/-- An error of the offer sync comes from the database or from a call. -/
def Blames (sync : OfferSync W) (e : Exn) : Prop :=
  (∃ d, e = .database d) ∨ sync.adapter.Raises e

/-- A flush that raises blames the database. -/
theorem Flushes.blames {α : Type} {q : Except Exn Unit} {a : α} (flushed : sync.Flushes s q t)
    (raised : q.map (fun _ => a) = .error e) : sync.Blames e := by
  obtain ⟨-, rfl | ⟨d, rfl⟩⟩ := flushed
  · cases raised
  · cases raised
    exact .inl ⟨d, rfl⟩

/-- A search that raises blames its call. -/
theorem FindsRemote.blames {r : Except Exn Bool} (finds : sync.FindsRemote phase s r t)
    (raised : r = .error e) : sync.Blames e := by
  cases finds with
  | raised answer =>
      cases raised
      exact .inr (.offersForProduct answer)
  | nothing => cases raised
  | found answer flushed => exact flushed.blames raised

/-- Resolving the offer id blames its call or a flush. -/
theorem Resolves.blames {r : Except Exn Bool} (resolves : sync.Resolves phase s r t)
    (raised : r = .error e) : sync.Blames e := by
  cases resolves with
  | noJob pending finds => exact finds.blames raised
  | lookupFailed => cases raised
  | lookupRaised pending other answer =>
      cases raised
      exact .inr (.getJob answer)
  | unfinished => cases raised
  | failed pending answer finished failed flushed => exact flushed.blames raised
  | named pending answer finished succeeded named flushed => exact flushed.blames raised
  | unnamed pending answer finished succeeded unnamed finds => exact finds.blames raised

/-- An update blames its call or a flush. -/
theorem Updates.blames {priceChanged stockChanged activeChanged : Bool} {r : Except Exn StatKey}
    (updates : sync.Updates desired now priceChanged stockChanged activeChanged s r t)
    (raised : r = .error e) : sync.Blames e := by
  cases updates with
  | nothing => cases raised
  | raised sends id price inventory active answer =>
      cases raised
      exact .inr (.updateOffer answer)
  | unwritten sends id price inventory active answer flushed =>
      cases raised
      obtain ⟨-, done | ⟨d, same⟩⟩ := flushed
      · cases done
      · cases same
        exact .inl ⟨d, rfl⟩
  | unpriced => cases raised
  | priced priced id inventory active answer flushed recorded => exact recorded.blames raised

/-- Recording a create blames a flush. -/
theorem RecordsCreate.blames {calledAt : Time} {r : Except Exn StatKey}
    (records : sync.RecordsCreate desired now calledAt s r t) (raised : r = .error e) :
    sync.Blames e := by
  cases records with
  | unwritten flushed =>
      cases raised
      obtain ⟨-, done | ⟨d, same⟩⟩ := flushed
      · cases done
      · cases same
        exact .inl ⟨d, rfl⟩
  | recorded flushed recorded => exact recorded.blames raised

/-- A create blames its call or a flush. -/
theorem Creates.blames {r : Except Exn StatKey} (creates : sync.Creates desired now s r t)
    (raised : r = .error e) : sync.Blames e := by
  cases creates with
  | raised other answer =>
      cases raised
      exact .inr (.createOffer answer)
  | adoptRaised conflict answer resolves =>
      cases raised
      exact resolves.blames rfl
  | unadopted conflict answer resolves =>
      cases raised
      exact .inr (.createOffer answer)
  | adopted conflict answer resolves updates => exact updates.blames raised
  | named named answer records => exact records.blames raised
  | resolveRaised unnamed pending answer resolves =>
      cases raised
      exact resolves.blames rfl
  | refused => cases raised
  | settled unnamed pending answer resolves live records => exact records.blames raised
  | nameless unnamed jobless answer records => exact records.blames raised

/-- A write blames its call or a flush. -/
theorem Pushes.blames {priceChanged stockChanged activeChanged : Bool} {r : Except Exn StatKey}
    (pushes : sync.Pushes desired now priceChanged stockChanged activeChanged s r t)
    (raised : r = .error e) : sync.Blames e := by
  cases pushes with
  | resolveRaised unknown inFlight resolves =>
      cases raised
      exact resolves.blames rfl
  | awaiting => cases raised
  | resolved unknown inFlight resolves updates => exact updates.blames raised
  | creates unknown idle creates => exact creates.blames raised
  | updates known updates => exact updates.blames raised

/-- What aborts a run in `_sync_one` is an error of the database, or one of a call that is
not an `ApiError`. -/
theorem syncOne_blames {dryRun : Bool}
    (run : (sync.syncOne desired dryRun now).Runs s (.error e) t) :
    (∃ d, e = .database d) ∨ (∀ a, e ≠ .api a) ∧ sync.adapter.Raises e := by
  generalize raised : (Except.error e : Except Exn StatKey) = r at run
  cases syncOne_spec run with
  | unchanged => cases raised
  | dry => cases raised
  | pushed => cases raised
  | raised wet changed other pushes =>
      cases raised
      rcases pushes.blames rfl with database | call
      · exact .inl database
      · exact .inr ⟨other, call⟩
  | failed wet changed pushes flushed =>
      obtain ⟨-, rfl | ⟨d, rfl⟩⟩ := flushed
      · cases raised
      · cases raised
        exact .inl ⟨d, rfl⟩

end OfferSync

namespace G2AClient

variable {S : Type} (g2a : G2AClient S)

/-- An adapter over the client: the errors of its calls are `ApiError`s, or those of the
requests it makes. -/
def Relays (adapter : Adapter (G2AState S)) : Prop :=
  ∀ e, adapter.Raises e →
    (∃ a, e = .api a) ∨ ∃ request w, (g2a.base.request request w).result = .error e

/-- The store with its token endpoint out of reach. -/
def unreachable : G2AClient ℕ :=
  { sample with postToken := fun _ n => (.raised "ConnectError: connection refused", n) }

end G2AClient

end FazerBridge
