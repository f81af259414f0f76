import FazerBridge.HttpClient

/-!
# Two loops side by side

Two clients whose hooks, transports and reactions are alike make the same passes: the loops
take the same branches, and end in alike results (`Simulation.endsAlike`).  Each user says
what alike means for worlds, outcomes and results.
-/

namespace FazerBridge

/-- Two reactions that the loops go on from in the same way. -/
inductive Reaction.Alike (Results : Except Exn (Option String) → Except Exn (Option String) → Prop) :
    Reaction → Reaction → Prop
  | finish {r r'} (results : Results r r') : Alike Results (.finish r) (.finish r')
  | refresh : Alike Results .refresh .refresh
  | backOff {asked} : Alike Results (.backOff asked) (.backOff asked)

namespace BaseApiClient

variable {W W' : Type} {client : BaseApiClient W} {client' : BaseApiClient W'}
  {request request' : Request} {Worlds : W → W' → Prop} {Outcomes : Outcome → Outcome → Prop}
  {Results : Except Exn (Option String) → Except Exn (Option String) → Prop}

/-- The send of one pass, with the headers its auth gave. -/
def sendWith (client : BaseApiClient W) (request : Request) (auth : Headers) (w : W) :
    Outcome × W :=
  client.send ⟨request.method, request.path, sendHeaders request auth⟩ w

/-- What follows a send, by the reaction to its outcome. -/
inductive Continues (client : BaseApiClient W) (request : Request) (attempt : ℕ)
    (refreshed : Bool) (exchange : Exchange) (w : W) : Reaction → Finished W → Prop
  | finish {result} : Continues client request attempt refreshed exchange w (.finish result)
      ⟨result, [exchange], 0, w⟩
  | refresh {f} (rest : client.Loops request (attempt + 1) true (client.onAuthFailure w) f) :
      Continues client request attempt refreshed exchange w .refresh
        { f with exchanges := exchange :: f.exchanges, refreshes := f.refreshes + 1 }
  | backOff {asked f} (rest : client.Loops request (attempt + 1) refreshed
      (client.backOff (attempt + 1) asked w) f) :
      Continues client request attempt refreshed exchange w (.backOff asked)
        { f with exchanges := exchange :: f.exchanges }

theorem Loops.continues {attempt : ℕ} {refreshed : Bool} {w w₁ : W} {auth : Headers}
    {f : Finished W} (loops : client.Loops request attempt refreshed w f)
    (authorized : client.authHeaders (client.acquire w) = (.ok auth, w₁)) :
    ∃ sent, client.Continues request attempt refreshed
      ⟨sent, (client.sendWith request auth w₁).1⟩ (client.sendWith request auth w₁).2
      (client.react request (attempt + 1) refreshed (client.sendWith request auth w₁).1) f := by
  cases loops with
  | unsent refused => cases refused.symm.trans authorized
  | finish authorized' wire sends reacts =>
      cases authorized'.symm.trans authorized
      rw [sendWith, ← wire, sends, reacts]
      exact ⟨_, .finish⟩
  | refresh authorized' wire sends reacts rest =>
      cases authorized'.symm.trans authorized
      rw [sendWith, ← wire, sends, reacts]
      exact ⟨_, .refresh rest⟩
  | backOff authorized' wire sends reacts rest =>
      cases authorized'.symm.trans authorized
      rw [sendWith, ← wire, sends, reacts]
      exact ⟨_, .backOff rest⟩

/-- Both passes end before their sends, or both sends have alike outcomes. -/
inductive Passes (client : BaseApiClient W) (client' : BaseApiClient W')
    (request request' : Request) (Worlds : W → W' → Prop) (Outcomes : Outcome → Outcome → Prop)
    (Results : Except Exn (Option String) → Except Exn (Option String) → Prop) :
    Except Exn Headers × W → Except Exn Headers × W' → Prop
  | unsent {e e' w w'} (results : Results (.error e) (.error e')) (worlds : Worlds w w') :
      Passes client client' request request' Worlds Outcomes Results (.error e, w) (.error e', w')
  | sent {auth auth' w w'}
      (outcomes : Outcomes (client.sendWith request auth w).1 (client'.sendWith request' auth' w').1)
      (worlds : Worlds (client.sendWith request auth w).2 (client'.sendWith request' auth' w').2) :
      Passes client client' request request' Worlds Outcomes Results (.ok auth, w) (.ok auth', w')

/-- What the hooks of two clients have to keep for their loops to run alike. -/
structure Simulation (client : BaseApiClient W) (client' : BaseApiClient W')
    (request request' : Request) (Worlds : W → W' → Prop) (Outcomes : Outcome → Outcome → Prop)
    (Results : Except Exn (Option String) → Except Exn (Option String) → Prop) : Prop where
  passes : ∀ {w w'}, Worlds w w' → Passes client client' request request' Worlds Outcomes Results
    (client.authHeaders (client.acquire w)) (client'.authHeaders (client'.acquire w'))
  refreshes : ∀ {w w'}, Worlds w w' → Worlds (client.onAuthFailure w) (client'.onAuthFailure w')
  backsOff : ∀ {w w'} attempt asked, Worlds w w' →
    Worlds (client.backOff attempt asked w) (client'.backOff attempt asked w')
  reacts : ∀ {outcome outcome'} attempt refreshed, Outcomes outcome outcome' →
    (client.react request attempt refreshed outcome).Alike Results
      (client'.react request' attempt refreshed outcome')

/-- Two requests that ended alike. -/
structure EndsAlike (Worlds : W → W' → Prop) (Outcomes : Outcome → Outcome → Prop)
    (Results : Except Exn (Option String) → Except Exn (Option String) → Prop)
    (f : Finished W) (f' : Finished W') : Prop where
  worlds : Worlds f.world f'.world
  result : Results f.result f'.result
  outcomes : List.Forall₂ (fun e e' => Outcomes e.outcome e'.outcome) f.exchanges f'.exchanges

theorem EndsAlike.cons {f : Finished W} {f' : Finished W'} {sent sent' : Sent}
    {outcome outcome' : Outcome} {n n' : ℕ} (alike : Outcomes outcome outcome')
    (ends : EndsAlike Worlds Outcomes Results f f') :
    EndsAlike Worlds Outcomes Results
      { f with exchanges := ⟨sent, outcome⟩ :: f.exchanges, refreshes := n }
      { f' with exchanges := ⟨sent', outcome'⟩ :: f'.exchanges, refreshes := n' } :=
  ⟨ends.worlds, ends.result, .cons alike ends.outcomes⟩

namespace Simulation

variable (sim : Simulation client client' request request' Worlds Outcomes Results)

include sim

/-- After a send of the one loop, the other loop has sent as well, with a like outcome. -/
theorem continues {attempt : ℕ} {refreshed : Bool} {w w₁ w₂ : W} {auth : Headers}
    {outcome : Outcome} {w' : W'} {f' : Finished W'} (worlds : Worlds w w')
    (authorized : client.authHeaders (client.acquire w) = (.ok auth, w₁))
    (sends : client.sendWith request auth w₁ = (outcome, w₂))
    (loops' : client'.Loops request' attempt refreshed w' f') :
    ∃ sent' outcome' w₂' reaction', Outcomes outcome outcome' ∧ Worlds w₂ w₂' ∧
      (client.react request (attempt + 1) refreshed outcome).Alike Results reaction' ∧
      client'.Continues request' attempt refreshed ⟨sent', outcome'⟩ w₂' reaction' f' := by
  have pass := sim.passes worlds
  rw [authorized] at pass
  rcases auth' : client'.authHeaders (client'.acquire w') with ⟨refused | authorized', w₁'⟩
  · rw [auth'] at pass
    cases pass
  · rw [auth'] at pass
    obtain ⟨sent', continues⟩ := loops'.continues auth'
    cases pass with
    | sent alike worlds =>
        rw [sends] at alike worlds
        exact ⟨sent', _, _, _, alike, worlds, sim.reacts _ _ alike, continues⟩

/-- The loops side by side: each pass of the one decides that of the other. -/
theorem loops {attempt : ℕ} {refreshed : Bool} {w : W} {f : Finished W}
    (loops : client.Loops request attempt refreshed w f) :
    ∀ {w' f'}, Worlds w w' → client'.Loops request' attempt refreshed w' f' →
      EndsAlike Worlds Outcomes Results f f' := by
  induction loops with
  | @unsent attempt refreshed w w₁ e auth =>
      intro w' f' worlds loops'
      have pass := sim.passes worlds
      rw [auth] at pass
      cases loops' with
      | unsent auth' =>
          rw [auth'] at pass
          cases pass with
          | unsent results worlds => exact ⟨worlds, results, .nil⟩
      | finish authorized' | refresh authorized' | backOff authorized' =>
          rw [authorized'] at pass
          cases pass
  | finish authorized wire sends reacts =>
      intro w' f' worlds loops'
      obtain ⟨_, _, _, _, outcomes, worlds, alike, continues⟩ :=
        sim.continues worlds authorized (wire ▸ sends) loops'
      rw [reacts] at alike
      cases alike with
      | finish results =>
          cases continues with
          | finish => exact ⟨worlds, results, .cons outcomes .nil⟩
  | refresh authorized wire sends reacts rest ih =>
      intro w' f' worlds loops'
      obtain ⟨_, _, _, _, outcomes, worlds, alike, continues⟩ :=
        sim.continues worlds authorized (wire ▸ sends) loops'
      rw [reacts] at alike
      cases alike with
      | refresh =>
          cases continues with
          | refresh rest' => exact (ih (sim.refreshes worlds) rest').cons outcomes
  | backOff authorized wire sends reacts rest ih =>
      intro w' f' worlds loops'
      obtain ⟨_, _, _, _, outcomes, worlds, alike, continues⟩ :=
        sim.continues worlds authorized (wire ▸ sends) loops'
      rw [reacts] at alike
      cases alike with
      | backOff =>
          cases continues with
          | backOff rest' => exact (ih (sim.backsOff _ _ worlds) rest').cons outcomes

theorem endsAlike {w : W} {w' : W'} (worlds : Worlds w w') :
    EndsAlike Worlds Outcomes Results (client.request request w) (client'.request request' w') :=
  sim.loops (client.loop_spec request 0 false w) worlds (client'.loop_spec request' 0 false w')

end Simulation

end BaseApiClient

end FazerBridge
