import FazerBridge.HttpClient

/-!
# What a request does to the world

The world of a request changes by its sends and by the hooks between them.  A relation that
each of these keeps holds of the whole request, and a request that returns ends with a send
that was answered (`Loops.effects`); one that may not be repeated is sent once at most
(`Loops.once`).  The status of an error is that of the last response, unless the auth failed
(`Loops.status`).
-/

namespace FazerBridge

namespace BaseApiClient

variable {W : Type} {client : BaseApiClient W} {request : Request} {R : W → W → Prop}

/-- The hooks between the sends keep a relation. -/
structure Quiet (client : BaseApiClient W) (R : W → W → Prop) : Prop where
  refl : ∀ w, R w w
  trans : ∀ {a b c}, R a b → R b c → R a c
  acquire : ∀ w, R w (client.acquire w)
  authHeaders : ∀ w, R w (client.authHeaders w).2
  onAuthFailure : ∀ w, R w (client.onAuthFailure w)
  draw : ∀ w, R w (client.draw w).2
  sleep : ∀ seconds w, R w (client.sleep seconds w)

/-- The request as it goes over the wire, under some auth. -/
def Wired (client : BaseApiClient W) (request : Request) (sent : Sent) : Prop :=
  ∃ auth w, (client.authHeaders w).1 = .ok auth ∧
    sent = ⟨request.method, request.path, sendHeaders request auth⟩

/-- The send that a request returned with. -/
def Answered (client : BaseApiClient W) (request : Request) (w w' : W)
    (value : Option String) : Prop :=
  ∃ sent response, client.Wired request sent ∧ client.send sent w = (.response response, w') ∧
    response.status ∈ request.expected ∧ client.body request response = .ok value

/-- What a request returns is the body of its last, expected, response. -/
theorem react_returned {attempt : ℕ} {refreshed : Bool} {outcome : Outcome} {value : Option String}
    (reacts : client.react request attempt refreshed outcome = .finish (.ok value)) :
    ∃ response, outcome = .response response ∧ response.status ∈ request.expected ∧
      client.body request response = .ok value := by
  unfold react at reacts
  split at reacts
  · split at reacts <;> cases reacts
  · cases reacts
  · rename_i response
    split at reacts
    · rename_i expected
      exact ⟨response, rfl, expected, Reaction.finish.inj reacts⟩
    split at reacts
    · cases reacts
    split at reacts
    · split at reacts <;> cases reacts
    split at reacts
    · cases reacts
    split at reacts
    · cases reacts
    · split at reacts <;> cases reacts

/-- The status of an error is that of its response. -/
theorem react_status {attempt : ℕ} {refreshed : Bool} {outcome : Outcome} {e : ApiError} {code : ℕ}
    (reacts : client.react request attempt refreshed outcome = .finish (.error (.api e)))
    (known : e.statusCode = some code) :
    ∃ response, outcome = .response response ∧ response.status = code := by
  unfold react at reacts
  split at reacts
  · split at reacts <;> cases reacts
    cases known
  · cases reacts
  · rename_i response
    refine ⟨response, rfl, ?_⟩
    split at reacts
    · unfold BaseApiClient.body at reacts
      split at reacts
      · cases reacts
      · split at reacts <;> cases reacts
        exact Option.some.inj known
    split at reacts
    · cases reacts
    split at reacts
    · split at reacts <;> cases reacts
      exact Option.some.inj known
    split at reacts
    · cases reacts
      exact Option.some.inj known
    split at reacts
    · cases reacts
    · split at reacts
      · cases reacts
      · rename_i unslept
        obtain ⟨message, rfl⟩ := sleepable_error unslept
        cases reacts

/-- A text that is returned was the JSON of the response. -/
theorem content_of_body {response : Response} {text : String}
    (body : client.body request response = .ok (some text)) : response.content = .json text := by
  unfold BaseApiClient.body at body
  split at body
  · cases body
  · split at body
    · cases body
    · rename_i value content
      cases body
      exact content
    · cases body
    · cases body

theorem Quiet.starts (quiet : client.Quiet R) {w w' : W} {auth : Except Exn Headers}
    (authorized : client.authHeaders (client.acquire w) = (auth, w')) : R w w' := by
  have kept := quiet.authHeaders (client.acquire w)
  rw [authorized] at kept
  exact quiet.trans (quiet.acquire w) kept

theorem Quiet.backOff (quiet : client.Quiet R) (attempt : ℕ) (asked : Option ℚ) (w : W) :
    R w (client.backOff attempt asked w) := by
  cases asked with
  | some seconds => exact quiet.sleep ..
  | none => exact quiet.trans (quiet.draw w) (quiet.sleep ..)

theorem wired {w w' : W} {auth : Headers} {sent : Sent}
    (authorized : client.authHeaders w = (.ok auth, w'))
    (wire : sent = ⟨request.method, request.path, sendHeaders request auth⟩) :
    client.Wired request sent :=
  ⟨auth, w, congrArg Prod.fst authorized, wire⟩

/-- What every send and every hook keeps, a request keeps, and it returns with a send. -/
theorem Loops.effects (quiet : client.Quiet R)
    (sends : ∀ {sent} w, client.Wired request sent → R w (client.send sent w).2)
    {attempt : ℕ} {refreshed : Bool} {w : W} {f : Finished W}
    (loops : client.Loops request attempt refreshed w f) :
    R w f.world ∧ ∀ value, f.result = .ok value →
      ∃ w', R w w' ∧ client.Answered request w' f.world value := by
  have sent_ : ∀ {w w' w'' auth sent outcome},
      client.authHeaders (client.acquire w) = (.ok auth, w') →
      sent = ⟨request.method, request.path, sendHeaders request auth⟩ →
      client.send sent w' = (outcome, w'') → R w w'' := by
    intro w w' w'' auth sent outcome authorized wire answer
    have kept := sends w' (wired authorized wire)
    rw [answer] at kept
    exact quiet.trans (quiet.starts authorized) kept
  induction loops with
  | unsent authorized => exact ⟨quiet.starts authorized, fun value same => by cases same⟩
  | finish authorized wire answer reacts =>
      refine ⟨sent_ authorized wire answer, fun value same => ?_⟩
      subst same
      obtain ⟨response, rfl, expected, body⟩ := react_returned reacts
      exact ⟨_, quiet.starts authorized, _, response, wired authorized wire, answer, expected, body⟩
  | refresh authorized wire answer reacts rest ih =>
      have before := quiet.trans (sent_ authorized wire answer) (quiet.onAuthFailure _)
      refine ⟨quiet.trans before ih.1, fun value same => ?_⟩
      obtain ⟨w', kept, answered⟩ := ih.2 value same
      exact ⟨w', quiet.trans before kept, answered⟩
  | @backOff attempt _ _ _ _ _ _ _ asked _ authorized wire answer reacts rest ih =>
      have before := quiet.trans (sent_ authorized wire answer)
        (quiet.backOff (attempt + 1) asked _)
      refine ⟨quiet.trans before ih.1, fun value same => ?_⟩
      obtain ⟨w', kept, answered⟩ := ih.2 value same
      exact ⟨w', quiet.trans before kept, answered⟩

/-- An error with a status tells of the last response, or of the auth. -/
theorem Loops.status (quiet : client.Quiet R)
    (sends : ∀ {sent} w, client.Wired request sent → R w (client.send sent w).2)
    {attempt : ℕ} {refreshed : Bool} {w : W} {f : Finished W} {e : ApiError} {code : ℕ}
    (loops : client.Loops request attempt refreshed w f) (failed : f.result = .error (.api e))
    (known : e.statusCode = some code) :
    (∃ w₁ w₂, client.authHeaders w₁ = (.error (.api e), w₂)) ∨
    ∃ w₁ sent response, R w w₁ ∧ client.Wired request sent ∧
      client.send sent w₁ = (.response response, f.world) ∧ response.status = code := by
  induction loops with
  | unsent authorized =>
      cases failed
      exact .inl ⟨_, _, authorized⟩
  | finish authorized wire answer reacts =>
      subst failed
      obtain ⟨response, rfl, status⟩ := react_status reacts known
      exact .inr ⟨_, _, response, quiet.starts authorized, wired authorized wire, answer, status⟩
  | @refresh attempt refreshed w w' w'' auth sent outcome f authorized wire answer reacts rest ih =>
      have kept := sends w' (wired authorized wire)
      rw [answer] at kept
      have before := quiet.trans (quiet.trans (quiet.starts authorized) kept) (quiet.onAuthFailure _)
      exact (ih failed).imp_right fun ⟨w₁, sent, response, after, told⟩ =>
        ⟨w₁, sent, response, quiet.trans before after, told⟩
  | @backOff attempt refreshed w w' w'' auth sent outcome asked f authorized wire answer reacts rest
      ih =>
      have kept := sends w' (wired authorized wire)
      rw [answer] at kept
      have before := quiet.trans (quiet.trans (quiet.starts authorized) kept)
        (quiet.backOff (attempt + 1) asked _)
      exact (ih failed).imp_right fun ⟨w₁, sent, response, after, told⟩ =>
        ⟨w₁, sent, response, quiet.trans before after, told⟩

/-- A request that may not be repeated is sent once, or fails unsent. -/
theorem Loops.once (quiet : client.Quiet R) (single : request.retrying = false)
    {attempt : ℕ} {refreshed : Bool} {w : W} {f : Finished W}
    (loops : client.Loops request attempt refreshed w f) :
    (R w f.world ∧ f.exchanges = [] ∧ ∃ e, f.result = .error e) ∨
    ∃ w' sent outcome, R w w' ∧ client.Wired request sent ∧
      client.send sent w' = (outcome, f.world) ∧ f.exchanges = [⟨sent, outcome⟩] ∧
      ∀ value, f.result = .ok value → client.Answered request w' f.world value := by
  cases loops with
  | unsent authorized => exact .inl ⟨quiet.starts authorized, rfl, _, rfl⟩
  | finish authorized wire answer reacts =>
      refine .inr ⟨_, _, _, quiet.starts authorized, wired authorized wire, answer, rfl,
        fun value same => ?_⟩
      subst same
      obtain ⟨response, rfl, expected, body⟩ := react_returned reacts
      exact ⟨_, response, wired authorized wire, answer, expected, body⟩
  | refresh authorized wire answer reacts rest =>
      rw [(react_refresh reacts).2.1] at single
      cases single
  | backOff authorized wire answer reacts rest =>
      rw [(react_backOff reacts).1] at single
      cases single

end BaseApiClient

end FazerBridge
