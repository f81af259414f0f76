import FazerBridge.OfferSync

/-!
# What each part of the offer sync can do

One relation for each function of the offer sync on one row: `Resolves`,
`Updates`, `Creates`, `Pushes`, `SyncsOne` and `ReconcilesOne` hold of a state, a
result and a final state when the function can go that way, with one constructor
for each way.  The `_spec` lemmas derive them from the programs; everything later
argues by cases on the relations and never unfolds a program again.
-/

namespace FazerBridge

namespace OfferSync

open Prog

variable {W : Type}

/-! ## Primitive steps -/

/-- The state after a call of the adapter. -/
def RowState.asked (sync : OfferSync W) (s : RowState W) (phase : Phase) (call : Call)
    (world : W) : RowState W :=
  { s with
    world := world
    trace := ⟨phase, s.offer, s.target, sync.now s.world, call⟩ :: s.trace }

/-- The state after the database was spoken to. -/
def RowState.after (s : RowState W) (world : W) : RowState W := { s with world := world }

/-- The state after a price change was logged. -/
def RowState.logged (sync : OfferSync W) (s : RowState W) (newPrice : ℚ) (oldPrice : Option ℚ)
    (calledAt : Time) : RowState W :=
  { s with
    log := s.log ++ [⟨sync.adapter.code, s.offer.productExtId, s.offer.offerExtId, oldPrice,
      newPrice, calledAt⟩] }

section Projections

variable (sync : OfferSync W) (s : RowState W) (phase : Phase) (call : Call) (world : W)
  (offer : StoreOffer) (newPrice : ℚ) (oldPrice : Option ℚ) (calledAt : Time)

@[simp] theorem RowState.asked_offer : (s.asked sync phase call world).offer = s.offer := rfl
@[simp] theorem RowState.asked_target : (s.asked sync phase call world).target = s.target := rfl
@[simp] theorem RowState.asked_log : (s.asked sync phase call world).log = s.log := rfl
@[simp] theorem RowState.asked_world : (s.asked sync phase call world).world = world := rfl
@[simp] theorem RowState.asked_trace : (s.asked sync phase call world).trace =
    ⟨phase, s.offer, s.target, sync.now s.world, call⟩ :: s.trace := rfl
@[simp] theorem RowState.set_offer : (s.set offer).offer = offer := rfl
@[simp] theorem RowState.set_target : (s.set offer).target = s.target := rfl
@[simp] theorem RowState.set_log : (s.set offer).log = s.log := rfl
@[simp] theorem RowState.set_world : (s.set offer).world = s.world := rfl
@[simp] theorem RowState.set_trace : (s.set offer).trace = s.trace := rfl
@[simp] theorem RowState.after_offer : (s.after world).offer = s.offer := rfl
@[simp] theorem RowState.after_target : (s.after world).target = s.target := rfl
@[simp] theorem RowState.after_log : (s.after world).log = s.log := rfl
@[simp] theorem RowState.after_world : (s.after world).world = world := rfl
@[simp] theorem RowState.after_trace : (s.after world).trace = s.trace := rfl
@[simp] theorem RowState.logged_offer :
    (s.logged sync newPrice oldPrice calledAt).offer = s.offer := rfl
@[simp] theorem RowState.logged_target :
    (s.logged sync newPrice oldPrice calledAt).target = s.target := rfl
@[simp] theorem RowState.logged_log : (s.logged sync newPrice oldPrice calledAt).log =
    s.log ++ [⟨sync.adapter.code, s.offer.productExtId, s.offer.offerExtId, oldPrice, newPrice,
      calledAt⟩] := rfl
@[simp] theorem RowState.logged_world :
    (s.logged sync newPrice oldPrice calledAt).world = s.world := rfl
@[simp] theorem RowState.logged_trace :
    (s.logged sync newPrice oldPrice calledAt).trace = s.trace := rfl

end Projections

/-- A flush: the database may refuse it, and changes nothing else. -/
def Flushes (sync : OfferSync W) (s : RowState W) (r : Except Exn Unit) (t : RowState W) : Prop :=
  t = s.after (sync.database s.world).2 ∧ (r = .ok () ∨ ∃ e, r = .error (.database e))

variable {sync : OfferSync W} {s t : RowState W} {phase : Phase}

/-- An edit of the row always returns. -/
theorem runs_edit {f : StoreOffer → StoreOffer} {r : Except Exn Unit} :
    (edit f).Runs s r t ↔ r = .ok () ∧ t = s.set (f s.offer) := runs_modify

theorem runs_edit_bind {α : Type} {f : StoreOffer → StoreOffer}
    {g : Unit → Prog Exn (RowState W) α} {r : Except Exn α} :
    (edit f >>= g).Runs s r t ↔ (g ()).Runs (s.set (f s.offer)) r t := runs_modify_bind

/-- A flush leaves the row as it is, whether the database takes it or not. -/
theorem flush_spec {r : Except Exn Unit} (run : sync.flush.Runs s r t) : sync.Flushes s r t := by
  have ran := Prog.runs_ofState.mp run
  rcases database : sync.database s.world with ⟨fault, world⟩
  have left : s.after (sync.database s.world).2 = { s with world := world } := by
    rw [database]
    rfl
  cases fault with
  | some e =>
      simp only [database] at ran
      cases ran
      exact ⟨left.symm, Or.inr ⟨_, rfl⟩⟩
  | none =>
      simp only [database] at ran
      split at ran
      · cases ran
        exact ⟨left.symm, Or.inr ⟨_, rfl⟩⟩
      · cases ran
        exact ⟨left.symm, Or.inl rfl⟩

/-- A call of the adapter goes into the trace with what was known when it was made. -/
theorem runs_request {α : Type} {call : Except Exn α → Call} {act : W → Except Exn α × W}
    {r : Except Exn α} :
    (sync.request phase call act).Runs s r t ↔
      r = (act s.world).1 ∧
        t = s.asked sync phase (call (act s.world).1) (act s.world).2 := by
  change ((act s.world).1, s.asked sync phase (call (act s.world).1) (act s.world).2) = (r, t) ↔ _
  rw [Prod.mk.injEq]
  exact and_congr eq_comm eq_comm

/-- `attempt` turns an `ApiError` into a value and lets every other exception through. -/
theorem runs_attempt {σ α : Type} {x : Prog Exn σ α} {s t : σ}
    {r : Except Exn (Except ApiError α)} :
    (attempt x).Runs s r t ↔
      (∃ a, x.Runs s (.ok a) t ∧ r = .ok (.ok a)) ∨
        (∃ e, x.Runs s (.error (.api e)) t ∧ r = .ok (.error e)) ∨
          ∃ e, (∀ a, e ≠ .api a) ∧ x.Runs s (.error e) t ∧ r = .error e := by
  unfold attempt
  rw [runs_tryCatch]
  simp only [runs_map]
  constructor
  · intro either
    rcases either with ⟨a, ⟨q, run, mapped⟩, rfl⟩ | ⟨e, m, ⟨q, run, mapped⟩, handled⟩
    · cases q with
      | error e => cases mapped
      | ok b =>
          cases mapped
          exact Or.inl ⟨b, run, rfl⟩
    · cases q with
      | ok b => cases mapped
      | error e' =>
          cases mapped
          cases e with
          | api a =>
              obtain ⟨rfl, rfl⟩ := runs_pure.mp handled
              exact Or.inr (Or.inl ⟨a, run, rfl⟩)
          | pricing _ | database _ | other _ =>
              obtain ⟨rfl, rfl⟩ := runs_throw.mp handled
              exact Or.inr (Or.inr ⟨_, by simp, run, rfl⟩)
  · intro either
    rcases either with ⟨a, run, rfl⟩ | ⟨e, run, rfl⟩ | ⟨e, other, run, rfl⟩
    · exact Or.inl ⟨.ok a, ⟨.ok a, run, rfl⟩, rfl⟩
    · exact Or.inr ⟨.api e, t, ⟨.error (.api e), run, rfl⟩, runs_pure.mpr ⟨rfl, rfl⟩⟩
    · refine Or.inr ⟨e, t, ⟨.error e, run, rfl⟩, ?_⟩
      cases e with
      | api a => exact absurd rfl (other a)
      | pricing _ | database _ | other _ => exact runs_throw.mpr ⟨rfl, rfl⟩

/-- A call, and what follows when it is answered. -/
theorem request_cases {α β : Type} {call : Except Exn α → Call} {act : W → Except Exn α × W}
    {f : α → Prog Exn (RowState W) β} {r : Except Exn β}
    (run : (sync.request phase call act >>= f).Runs s r t) :
    (∃ a w, act s.world = (.ok a, w) ∧
        (f a).Runs (s.asked sync phase (call (.ok a)) w) r t) ∨
      ∃ e w, act s.world = (.error e, w) ∧ r = .error e ∧
        t = s.asked sync phase (call (.error e)) w := by
  rcases runs_bind.mp run with ⟨a, m, asked, rest⟩ | ⟨e, asked, rfl⟩
  · obtain ⟨answer, rfl⟩ := runs_request.mp asked
    rw [← answer] at rest
    exact Or.inl ⟨a, _, Prod.ext answer.symm rfl, rest⟩
  · obtain ⟨answer, rfl⟩ := runs_request.mp asked
    rw [← answer]
    exact Or.inr ⟨e, _, Prod.ext answer.symm rfl, rfl, rfl⟩

/-- A call whose `ApiError` is handled, and what follows. -/
theorem attempt_request_cases {α β : Type} {call : Except Exn α → Call}
    {act : W → Except Exn α × W} {f : Except ApiError α → Prog Exn (RowState W) β}
    {r : Except Exn β} (run : (attempt (sync.request phase call act) >>= f).Runs s r t) :
    (∃ a w, act s.world = (.ok a, w) ∧
        (f (.ok a)).Runs (s.asked sync phase (call (.ok a)) w) r t) ∨
      (∃ e w, act s.world = (.error (.api e), w) ∧
        (f (.error e)).Runs (s.asked sync phase (call (.error (.api e))) w) r t) ∨
      ∃ e w, (∀ a, e ≠ .api a) ∧ act s.world = (.error e, w) ∧ r = .error e ∧
        t = s.asked sync phase (call (.error e)) w := by
  rcases runs_bind.mp run with ⟨answer, m, attempted, rest⟩ | ⟨e, attempted, rfl⟩
  · rcases runs_attempt.mp attempted with ⟨a, asked, same⟩ | ⟨e, asked, same⟩ | ⟨e, -, -, same⟩
    · cases same
      obtain ⟨answered, rfl⟩ := runs_request.mp asked
      rw [← answered] at rest
      exact Or.inl ⟨a, _, Prod.ext answered.symm rfl, rest⟩
    · cases same
      obtain ⟨answered, rfl⟩ := runs_request.mp asked
      rw [← answered] at rest
      exact Or.inr (Or.inl ⟨e, _, Prod.ext answered.symm rfl, rest⟩)
    · cases same
  · rcases runs_attempt.mp attempted with ⟨a, -, same⟩ | ⟨e, -, same⟩ | ⟨e, other, asked, same⟩
    · cases same
    · cases same
    · cases same
      obtain ⟨answered, rfl⟩ := runs_request.mp asked
      rw [← answered]
      exact Or.inr (Or.inr ⟨e, _, other, Prod.ext answered.symm rfl, rfl, rfl⟩)

/-- A flush before a returned value. -/
theorem flush_pure_spec {α : Type} {a : α} {r : Except Exn α}
    (run : (do sync.flush; pure a : Prog Exn (RowState W) α).Runs s r t) :
    ∃ q, sync.Flushes s q t ∧ r = q.map fun _ => a := by
  rcases runs_bind.mp run with ⟨_, m, flushed, rest⟩ | ⟨e, flushed, rfl⟩
  · obtain ⟨rfl, rfl⟩ := runs_pure.mp rest
    exact ⟨.ok (), flush_spec flushed, rfl⟩
  · exact ⟨.error e, flush_spec flushed, rfl⟩

/-! ## Resolving -/

/-- `findRemote` -/
inductive FindsRemote (sync : OfferSync W) (phase : Phase) (s : RowState W) :
    Except Exn Bool → RowState W → Prop
  | raised {e w}
      (answer : sync.adapter.offersForProduct s.offer.productExtId s.world = (.error e, w)) :
      FindsRemote sync phase s (.error e)
        (s.asked sync phase (.offersForProduct s.offer.productExtId (.error e)) w)
  | nothing {w}
      (answer : sync.adapter.offersForProduct s.offer.productExtId s.world = (.ok [], w)) :
      FindsRemote sync phase s (.ok false)
        (s.asked sync phase (.offersForProduct s.offer.productExtId (.ok [])) w)
  | found {view rest w q t}
      (answer : sync.adapter.offersForProduct s.offer.productExtId s.world =
        (.ok (view :: rest), w))
      (flushed : sync.Flushes
        ((s.asked sync phase (.offersForProduct s.offer.productExtId (.ok (view :: rest))) w).set
          { s.offer with offerExtId := some view.offerExtId }) q t) :
      FindsRemote sync phase s (q.map fun _ => true) t

/-- What a search for the offer can do. -/
theorem findRemote_spec {r : Except Exn Bool} (run : (sync.findRemote phase).Runs s r t) :
    sync.FindsRemote phase s r t := by
  unfold findRemote at run
  rw [runs_get_bind] at run
  rcases request_cases run with ⟨remote, w, answer, rest⟩ | ⟨e, w, answer, rfl, rfl⟩
  · cases remote with
    | nil =>
        obtain ⟨rfl, rfl⟩ := runs_pure.mp rest
        exact .nothing answer
    | cons view others =>
        obtain ⟨q, flushed, rfl⟩ := flush_pure_spec (runs_edit_bind.mp rest)
        exact .found answer flushed
  · exact .raised answer

/-- `_resolve_offer_id` -/
inductive Resolves (sync : OfferSync W) (phase : Phase) (s : RowState W) :
    Except Exn Bool → RowState W → Prop
  | noJob {r t} (pending : truthyId s.offer.pendingJobId = none)
      (finds : sync.FindsRemote phase s r t) : Resolves sync phase s r t
  | lookupFailed {jobId e w} (pending : truthyId s.offer.pendingJobId = some jobId)
      (answer : sync.adapter.getJob jobId s.world = (.error (.api e), w)) :
      Resolves sync phase s (.ok false) (s.asked sync phase (.getJob jobId (.error (.api e))) w)
  | lookupRaised {jobId e w} (pending : truthyId s.offer.pendingJobId = some jobId)
      (other : ∀ a, e ≠ .api a) (answer : sync.adapter.getJob jobId s.world = (.error e, w)) :
      Resolves sync phase s (.error e) (s.asked sync phase (.getJob jobId (.error e)) w)
  | unfinished {jobId job w} (pending : truthyId s.offer.pendingJobId = some jobId)
      (answer : sync.adapter.getJob jobId s.world = (.ok job, w))
      (unfinished : job.isFinished = false) :
      Resolves sync phase s (.ok false) (s.asked sync phase (.getJob jobId (.ok job)) w)
  | failed {jobId job w q t} (pending : truthyId s.offer.pendingJobId = some jobId)
      (answer : sync.adapter.getJob jobId s.world = (.ok job, w))
      (finished : job.isFinished = true) (failed : job.succeeded = false)
      (flushed : sync.Flushes ((s.asked sync phase (.getJob jobId (.ok job)) w).set
        (rejected job { s.offer with pendingJobId := none })) q t) :
      Resolves sync phase s (q.map fun _ => false) t
  | named {jobId job w offerExtId q t} (pending : truthyId s.offer.pendingJobId = some jobId)
      (answer : sync.adapter.getJob jobId s.world = (.ok job, w))
      (finished : job.isFinished = true) (succeeded : job.succeeded = true)
      (named : truthyId job.resourceId = some offerExtId)
      (flushed : sync.Flushes ((s.asked sync phase (.getJob jobId (.ok job)) w).set
        { s.offer with pendingJobId := none, offerExtId := some offerExtId }) q t) :
      Resolves sync phase s (q.map fun _ => true) t
  | unnamed {jobId job w r t} (pending : truthyId s.offer.pendingJobId = some jobId)
      (answer : sync.adapter.getJob jobId s.world = (.ok job, w))
      (finished : job.isFinished = true) (succeeded : job.succeeded = true)
      (unnamed : truthyId job.resourceId = none)
      (finds : sync.FindsRemote phase ((s.asked sync phase (.getJob jobId (.ok job)) w).set
        { s.offer with pendingJobId := none }) r t) :
      Resolves sync phase s r t

/-- What `_resolve_offer_id` can do. -/
theorem resolveOfferId_spec {r : Except Exn Bool} (run : (sync.resolveOfferId phase).Runs s r t) :
    sync.Resolves phase s r t := by
  unfold resolveOfferId at run
  rw [runs_get_bind] at run
  cases pending : truthyId s.offer.pendingJobId with
  | none =>
      rw [pending] at run
      exact .noJob pending (findRemote_spec run)
  | some jobId =>
      rw [pending] at run
      rcases attempt_request_cases run with ⟨job, w, answer, rest⟩ | ⟨e, w, answer, rest⟩ |
        ⟨e, w, other, answer, rfl, rfl⟩
      · rcases runs_ite.mp rest with ⟨finished, rest⟩ | ⟨unfinished, rest⟩
        · rw [runs_edit_bind] at rest
          rcases runs_ite.mp rest with ⟨succeeded, rest⟩ | ⟨failed, rest⟩
          · cases named : truthyId job.resourceId with
            | some offerExtId =>
                rw [named] at rest
                obtain ⟨q, flushed, rfl⟩ := flush_pure_spec (runs_edit_bind.mp rest)
                exact .named pending answer finished succeeded named flushed
            | none =>
                rw [named] at rest
                exact .unnamed pending answer finished succeeded named (findRemote_spec rest)
          · obtain ⟨q, flushed, rfl⟩ := flush_pure_spec (runs_edit_bind.mp rest)
            exact .failed pending answer finished (by simpa using failed) flushed
        · obtain ⟨rfl, rfl⟩ := runs_pure.mp rest
          exact .unfinished pending answer (by simpa using unfinished)
      · obtain ⟨rfl, rfl⟩ := runs_pure.mp rest
        exact .lookupFailed pending answer
      · exact .lookupRaised pending other answer

/-- A resolved offer has an id. -/
theorem Resolves.isSome (resolves : sync.Resolves phase s (.ok true) t) :
    t.offer.offerExtId.isSome = true := by
  have of_flush : ∀ {q : Except Exn Unit} {b : Bool} {u : RowState W}, u.offer.offerExtId.isSome →
      sync.Flushes u q t → q.map (fun _ => b) = .ok true → t.offer.offerExtId.isSome := by
    rintro q b u known ⟨rfl, -⟩ -
    exact known
  have of_finds : ∀ {u : RowState W} {r : Except Exn Bool}, sync.FindsRemote phase u r t →
      r = .ok true → t.offer.offerExtId.isSome := by
    intro u r finds same
    cases finds with
    | raised => cases same
    | nothing => cases same
    | found answer flushed => exact of_flush rfl flushed same
  generalize result : (Except.ok true : Except Exn Bool) = r at resolves
  cases resolves with
  | noJob pending finds => exact of_finds finds result.symm
  | lookupFailed => cases result
  | lookupRaised => cases result
  | unfinished => cases result
  | @failed _ _ _ q =>
      cases q <;> cases result
  | named pending answer finished succeeded named flushed => exact of_flush rfl flushed result.symm
  | unnamed pending answer finished succeeded unnamed finds => exact of_finds finds result.symm

/-! ## Updating -/

/-- Whether an update carries the price. -/
def sendsPrice (sync : OfferSync W) (s : RowState W) (priceChanged : Bool) : Bool :=
  priceChanged && sync.allows s

/-- The row after an accepted update. -/
def updatedRow (desired : DesiredOffer) (now : Time) (sendPrice : Bool) (job : JobResult)
    (offer : StoreOffer) : StoreOffer :=
  remembered desired now (!sendPrice) { offer with
    pendingJobId := truthyId (some job.jobId)
    state := liveState desired }

/-- `_update` -/
inductive Updates (sync : OfferSync W) (desired : DesiredOffer) (now : Time)
    (priceChanged stockChanged activeChanged : Bool) (s : RowState W) :
    Except Exn StatKey → RowState W → Prop
  | nothing (idle : (sync.sendsPrice s priceChanged || stockChanged || activeChanged) = false) :
      Updates sync desired now priceChanged stockChanged activeChanged s
        (.ok .deferredPriceBudget) s
  | raised {offerExtId price inventory active e w}
      (sends : (sync.sendsPrice s priceChanged || stockChanged || activeChanged) = true)
      (id : offerExtId = s.offer.offerExtId.getD "")
      (price_eq : price = if sync.sendsPrice s priceChanged then some desired.price else none)
      (inventory_eq : inventory = if stockChanged then some desired.inventory else none)
      (active_eq : active = if activeChanged then some desired.active else none)
      (answer : sync.adapter.updateOffer offerExtId price inventory active s.world = (.error e, w)) :
      Updates sync desired now priceChanged stockChanged activeChanged s (.error e)
        (s.asked sync .updating (.updateOffer offerExtId price inventory active (.error e)) w)
  | unwritten {offerExtId price inventory active job w e t}
      (sends : (sync.sendsPrice s priceChanged || stockChanged || activeChanged) = true)
      (id : offerExtId = s.offer.offerExtId.getD "")
      (price_eq : price = if sync.sendsPrice s priceChanged then some desired.price else none)
      (inventory_eq : inventory = if stockChanged then some desired.inventory else none)
      (active_eq : active = if activeChanged then some desired.active else none)
      (answer : sync.adapter.updateOffer offerExtId price inventory active s.world = (.ok job, w))
      (flushed : sync.Flushes
        ((s.asked sync .updating (.updateOffer offerExtId price inventory active (.ok job)) w).set
          (updatedRow desired now (sync.sendsPrice s priceChanged) job s.offer)) (.error e) t) :
      Updates sync desired now priceChanged stockChanged activeChanged s (.error e) t
  | unpriced {offerExtId inventory active job w t}
      (sends : (stockChanged || activeChanged) = true)
      (unpriced : sync.sendsPrice s priceChanged = false)
      (id : offerExtId = s.offer.offerExtId.getD "")
      (inventory_eq : inventory = if stockChanged then some desired.inventory else none)
      (active_eq : active = if activeChanged then some desired.active else none)
      (answer : sync.adapter.updateOffer offerExtId none inventory active s.world = (.ok job, w))
      (flushed : sync.Flushes
        ((s.asked sync .updating (.updateOffer offerExtId none inventory active (.ok job)) w).set
          (updatedRow desired now false job s.offer)) (.ok ()) t) :
      Updates sync desired now priceChanged stockChanged activeChanged s
        (.ok (if priceChanged then .deferredPriceBudget else .updated)) t
  | priced {offerExtId inventory active job w t q u}
      (priced : sync.sendsPrice s priceChanged = true)
      (id : offerExtId = s.offer.offerExtId.getD "")
      (inventory_eq : inventory = if stockChanged then some desired.inventory else none)
      (active_eq : active = if activeChanged then some desired.active else none)
      (answer : sync.adapter.updateOffer offerExtId (some desired.price) inventory active s.world =
        (.ok job, w))
      (flushed : sync.Flushes
        ((s.asked sync .updating
            (.updateOffer offerExtId (some desired.price) inventory active (.ok job)) w).set
          (updatedRow desired now true job s.offer)) (.ok ()) t)
      (recorded : sync.Flushes
        (t.logged sync desired.price s.offer.pushedPrice (sync.now s.world)) q u) :
      Updates sync desired now priceChanged stockChanged activeChanged s
        (q.map fun _ => .updated) u

/-- A write that remembers fails in its flush, or goes on with the row remembered. -/
theorem remember_cases {α : Type} {desired : DesiredOffer} {now : Time} {keepPrice : Bool}
    {f : Unit → Prog Exn (RowState W) α} {r : Except Exn α}
    (run : (sync.remember desired now keepPrice >>= f).Runs s r t) :
    (∃ e, sync.Flushes (s.set (remembered desired now keepPrice s.offer)) (.error e) t ∧
        r = .error e) ∨
      ∃ m, sync.Flushes (s.set (remembered desired now keepPrice s.offer)) (.ok ()) m ∧
        (f ()).Runs m r t := by
  unfold remember at run
  rcases runs_bind.mp run with ⟨⟨⟩, m, flushed, rest⟩ | ⟨e, flushed, rfl⟩
  · exact Or.inr ⟨m, flush_spec (runs_edit_bind.mp flushed), rest⟩
  · exact Or.inl ⟨e, flush_spec (runs_edit_bind.mp flushed), rfl⟩

/-- A recorded price change, and the value returned after it. -/
theorem record_pure_spec {α : Type} {a : α} {newPrice : ℚ} {oldPrice : Option ℚ} {calledAt : Time}
    {r : Except Exn α}
    (run : (do sync.record newPrice oldPrice calledAt; pure a : Prog Exn (RowState W) α).Runs
      s r t) :
    ∃ q, sync.Flushes (s.logged sync newPrice oldPrice calledAt) q t ∧ r = q.map fun _ => a := by
  unfold record at run
  rcases runs_bind.mp run with ⟨⟨⟩, m, recorded, rest⟩ | ⟨e, recorded, rfl⟩
  · obtain ⟨rfl, rfl⟩ := runs_pure.mp rest
    exact ⟨.ok (), flush_spec (runs_modify_bind.mp recorded), rfl⟩
  · exact ⟨.error e, flush_spec (runs_modify_bind.mp recorded), rfl⟩

/-- What `_update` can do. -/
theorem update_spec {desired : DesiredOffer} {now : Time}
    {priceChanged stockChanged activeChanged : Bool} {r : Except Exn StatKey}
    (run : (sync.update desired now priceChanged stockChanged activeChanged).Runs s r t) :
    sync.Updates desired now priceChanged stockChanged activeChanged s r t := by
  unfold update at run
  rw [runs_get_bind] at run
  change (if (!(sync.sendsPrice s priceChanged || stockChanged || activeChanged)) = true then _
    else _ : Prog Exn (RowState W) StatKey).Runs s r t at run
  rcases runs_ite.mp run with ⟨idle, rest⟩ | ⟨sends, rest⟩
  · obtain ⟨rfl, rfl⟩ := runs_pure.mp rest
    exact .nothing (by simpa using idle)
  have sends : (sync.sendsPrice s priceChanged || stockChanged || activeChanged) = true := by
    simpa only [Bool.not_eq_true', Bool.not_eq_false] using sends
  rcases request_cases rest with ⟨job, w, answer, rest⟩ | ⟨e, w, answer, rfl, rfl⟩
  · rw [runs_edit_bind] at rest
    rcases remember_cases rest with ⟨e, flushed, rfl⟩ | ⟨m, flushed, rest⟩
    · exact .unwritten sends rfl rfl rfl rfl answer flushed
    · cases price : sync.sendsPrice s priceChanged with
      | true =>
          rw [show (priceChanged && sync.allows s) = true from price] at answer flushed rest
          have kept : (priceChanged && !sync.allows s) = false := by
            simp only [sendsPrice, Bool.and_eq_true] at price
            simp [price.2]
          simp only [if_true, kept, Bool.false_eq_true, if_false] at rest
          obtain ⟨q, recorded, rfl⟩ := record_pure_spec rest
          exact .priced price rfl rfl rfl answer flushed recorded
      | false =>
          rw [show (priceChanged && sync.allows s) = false from price] at answer flushed rest
          have kept : (priceChanged && !sync.allows s) = priceChanged := by
            simp only [sendsPrice] at price
            cases priceChanged <;> simp_all
          simp only [Bool.false_eq_true, if_false, kept] at rest
          obtain ⟨rfl, rfl⟩ := runs_pure.mp rest
          rw [price, Bool.false_or] at sends
          exact .unpriced sends price rfl rfl rfl answer flushed
  · exact .raised sends rfl rfl rfl rfl answer

/-! ## Creating -/

/-- The row after an accepted create. -/
def createdRow (desired : DesiredOffer) (now : Time) (offer : StoreOffer) : StoreOffer :=
  remembered desired now false { offer with state := liveState desired }

/-- `recordCreate` -/
inductive RecordsCreate (sync : OfferSync W) (desired : DesiredOffer) (now calledAt : Time)
    (s : RowState W) : Except Exn StatKey → RowState W → Prop
  | unwritten {e t}
      (flushed : sync.Flushes (s.set (createdRow desired now s.offer)) (.error e) t) :
      RecordsCreate sync desired now calledAt s (.error e) t
  | recorded {t q u}
      (flushed : sync.Flushes (s.set (createdRow desired now s.offer)) (.ok ()) t)
      (recorded : sync.Flushes (t.logged sync desired.price none calledAt) q u) :
      RecordsCreate sync desired now calledAt s (q.map fun _ => .created) u

/-- What the part of `_create` after the call can do. -/
theorem recordCreate_spec {desired : DesiredOffer} {now calledAt : Time} {r : Except Exn StatKey}
    (run : (sync.recordCreate desired now calledAt).Runs s r t) :
    sync.RecordsCreate desired now calledAt s r t := by
  unfold recordCreate at run
  rw [runs_edit_bind] at run
  rcases remember_cases run with ⟨e, flushed, rfl⟩ | ⟨m, flushed, rest⟩
  · exact .unwritten flushed
  · obtain ⟨q, recorded, rfl⟩ := record_pure_spec rest
    exact .recorded flushed recorded

/-- The state after a create was answered. -/
def RowState.askedCreate (sync : OfferSync W) (s : RowState W) (desired : DesiredOffer)
    (answer : Except Exn JobResult) (world : W) : RowState W :=
  s.asked sync .creating (.createOffer s.offer.productExtId desired.price desired.inventory
    desired.active answer) world

/-- `_create` -/
inductive Creates (sync : OfferSync W) (desired : DesiredOffer) (now : Time) (s : RowState W) :
    Except Exn StatKey → RowState W → Prop
  | raised {e w}
      (other : ∀ a, e = .api a → a.statusCode ≠ some 409)
      (answer : sync.adapter.createOffer s.offer.productExtId desired.price desired.inventory
        desired.active s.world = (.error e, w)) :
      Creates sync desired now s (.error e) (s.askedCreate sync desired (.error e) w)
  | adoptRaised {a w e t} (conflict : a.statusCode = some 409)
      (answer : sync.adapter.createOffer s.offer.productExtId desired.price desired.inventory
        desired.active s.world = (.error (.api a), w))
      (resolves : sync.Resolves .adopting ((s.askedCreate sync desired (.error (.api a)) w).set
        { s.offer with pendingJobId := none }) (.error e) t) :
      Creates sync desired now s (.error e) t
  | unadopted {a w t} (conflict : a.statusCode = some 409)
      (answer : sync.adapter.createOffer s.offer.productExtId desired.price desired.inventory
        desired.active s.world = (.error (.api a), w))
      (resolves : sync.Resolves .adopting ((s.askedCreate sync desired (.error (.api a)) w).set
        { s.offer with pendingJobId := none }) (.ok false) t) :
      Creates sync desired now s (.error (.api a)) t
  | adopted {a w t r u} (conflict : a.statusCode = some 409)
      (answer : sync.adapter.createOffer s.offer.productExtId desired.price desired.inventory
        desired.active s.world = (.error (.api a), w))
      (resolves : sync.Resolves .adopting ((s.askedCreate sync desired (.error (.api a)) w).set
        { s.offer with pendingJobId := none }) (.ok true) t)
      (updates : sync.Updates desired now true true true t r u) :
      Creates sync desired now s r u
  | named {job w offerExtId r t} (named : truthyId job.resourceId = some offerExtId)
      (answer : sync.adapter.createOffer s.offer.productExtId desired.price desired.inventory
        desired.active s.world = (.ok job, w))
      (records : sync.RecordsCreate desired now (sync.now s.world)
        ((s.askedCreate sync desired (.ok job) w).set { s.offer with
          pendingJobId := truthyId (some job.jobId), offerExtId := some offerExtId }) r t) :
      Creates sync desired now s r t
  | resolveRaised {job w e t} (unnamed : truthyId job.resourceId = none)
      (pending : (truthyId (some job.jobId)).isSome = true)
      (answer : sync.adapter.createOffer s.offer.productExtId desired.price desired.inventory
        desired.active s.world = (.ok job, w))
      (resolves : sync.Resolves .creating ((s.askedCreate sync desired (.ok job) w).set
        { s.offer with pendingJobId := truthyId (some job.jobId) }) (.error e) t) :
      Creates sync desired now s (.error e) t
  | refused {job w t} (unnamed : truthyId job.resourceId = none)
      (pending : (truthyId (some job.jobId)).isSome = true)
      (answer : sync.adapter.createOffer s.offer.productExtId desired.price desired.inventory
        desired.active s.world = (.ok job, w))
      (resolves : sync.Resolves .creating ((s.askedCreate sync desired (.ok job) w).set
        { s.offer with pendingJobId := truthyId (some job.jobId) }) (.ok false) t)
      (failed : t.offer.state = .failed) :
      Creates sync desired now s (.ok .errors) t
  | settled {job w b t r u} (unnamed : truthyId job.resourceId = none)
      (pending : (truthyId (some job.jobId)).isSome = true)
      (answer : sync.adapter.createOffer s.offer.productExtId desired.price desired.inventory
        desired.active s.world = (.ok job, w))
      (resolves : sync.Resolves .creating ((s.askedCreate sync desired (.ok job) w).set
        { s.offer with pendingJobId := truthyId (some job.jobId) }) (.ok b) t)
      (live : b = true ∨ t.offer.state ≠ .failed)
      (records : sync.RecordsCreate desired now (sync.now s.world) t r u) :
      Creates sync desired now s r u
  | nameless {job w r t} (unnamed : truthyId job.resourceId = none)
      (jobless : truthyId (some job.jobId) = none)
      (answer : sync.adapter.createOffer s.offer.productExtId desired.price desired.inventory
        desired.active s.world = (.ok job, w))
      (records : sync.RecordsCreate desired now (sync.now s.world)
        ((s.askedCreate sync desired (.ok job) w).set { s.offer with pendingJobId := none }) r t) :
      Creates sync desired now s r t

/-- What `_create` can do. -/
theorem create_spec {desired : DesiredOffer} {now : Time} {r : Except Exn StatKey}
    (run : (sync.create desired now).Runs s r t) : sync.Creates desired now s r t := by
  unfold create at run
  rw [runs_get_bind] at run
  rcases attempt_request_cases run with ⟨job, w, answer, rest⟩ | ⟨a, w, answer, rest⟩ |
    ⟨e, w, other, answer, rfl, rfl⟩
  · rw [runs_edit_bind] at rest
    cases named : truthyId job.resourceId with
    | some offerExtId =>
        rw [named] at rest
        exact .named named answer (recordCreate_spec (runs_edit_bind.mp rest))
    | none =>
        rw [named] at rest
        rcases runs_ite.mp rest with ⟨pending, rest⟩ | ⟨jobless, rest⟩
        · rcases runs_bind.mp rest with ⟨resolved, m, resolves, rest⟩ | ⟨e, resolves, rfl⟩
          · rw [runs_get_bind] at rest
            rcases runs_ite.mp rest with ⟨failed, rest⟩ | ⟨live, rest⟩
            · obtain ⟨rfl, rfl⟩ := runs_pure.mp rest
              simp only [Bool.and_eq_true, Bool.not_eq_true', decide_eq_true_eq] at failed
              obtain ⟨rfl, failed⟩ := failed
              exact .refused named pending answer (resolveOfferId_spec resolves) failed
            · refine .settled named pending answer (resolveOfferId_spec resolves) ?_
                (recordCreate_spec rest)
              cases resolved <;> simp_all
          · exact .resolveRaised named pending answer (resolveOfferId_spec resolves)
        · have jobless : truthyId (some job.jobId) = none := by simpa using jobless
          rw [jobless] at rest
          exact .nameless named jobless answer (recordCreate_spec rest)
  · rcases runs_ite.mp rest with ⟨conflict, rest⟩ | ⟨other, rest⟩
    · rw [runs_edit_bind] at rest
      rcases runs_bind.mp rest with ⟨adopted, m, resolves, rest⟩ | ⟨e, resolves, rfl⟩
      · cases adopted with
        | true => exact .adopted conflict answer (resolveOfferId_spec resolves) (update_spec rest)
        | false =>
            obtain ⟨rfl, rfl⟩ := runs_throw.mp rest
            exact .unadopted conflict answer (resolveOfferId_spec resolves)
      · exact .adoptRaised conflict answer (resolveOfferId_spec resolves)
    · obtain ⟨rfl, rfl⟩ := runs_throw.mp rest
      exact .raised (fun b same => by cases same; exact other) answer
  · exact .raised (fun a same => absurd same (other a)) answer

/-! ## One offer -/

/-- `push` -/
inductive Pushes (sync : OfferSync W) (desired : DesiredOffer) (now : Time)
    (priceChanged stockChanged activeChanged : Bool) (s : RowState W) :
    Except Exn StatKey → RowState W → Prop
  | resolveRaised {e t} (unknown : s.offer.offerExtId = none)
      (inFlight : (truthyId s.offer.pendingJobId).isSome = true)
      (resolves : sync.Resolves .resolving s (.error e) t) :
      Pushes sync desired now priceChanged stockChanged activeChanged s (.error e) t
  | awaiting {t : RowState W} (unknown : s.offer.offerExtId = none)
      (inFlight : (truthyId s.offer.pendingJobId).isSome = true)
      (resolves : sync.Resolves .resolving s (.ok false) t) :
      Pushes sync desired now priceChanged stockChanged activeChanged s (.ok .awaitingJob) t
  | resolved {t r u} (unknown : s.offer.offerExtId = none)
      (inFlight : (truthyId s.offer.pendingJobId).isSome = true)
      (resolves : sync.Resolves .resolving s (.ok true) t)
      (updates : sync.Updates desired now priceChanged stockChanged activeChanged t r u) :
      Pushes sync desired now priceChanged stockChanged activeChanged s r u
  | creates {r t} (unknown : s.offer.offerExtId = none)
      (idle : truthyId s.offer.pendingJobId = none)
      (creates : sync.Creates desired now s r t) :
      Pushes sync desired now priceChanged stockChanged activeChanged s r t
  | updates {r t} (known : s.offer.offerExtId.isSome = true)
      (updates : sync.Updates desired now priceChanged stockChanged activeChanged s r t) :
      Pushes sync desired now priceChanged stockChanged activeChanged s r t

/-- What the part of `_sync_one` that writes can do. -/
theorem push_spec {desired : DesiredOffer} {now : Time}
    {priceChanged stockChanged activeChanged : Bool} {r : Except Exn StatKey}
    (run : (sync.push desired now priceChanged stockChanged activeChanged).Runs s r t) :
    sync.Pushes desired now priceChanged stockChanged activeChanged s r t := by
  unfold push at run
  rw [runs_get_bind] at run
  by_cases inFlight : (s.offer.offerExtId.isNone && (truthyId s.offer.pendingJobId).isSome) = true
  · simp only [inFlight, if_true] at run
    simp only [Bool.and_eq_true, Option.isNone_iff_eq_none] at inFlight
    rcases runs_bind.mp run with ⟨resolved, m, resolves, rest⟩ | ⟨e, resolves, rfl⟩
    · cases resolved with
      | true =>
          have known := (resolveOfferId_spec resolves).isSome
          have known' : m.offer.offerExtId.isNone = false := by
            rw [← Option.not_isSome, known]; rfl
          simp only [if_true, runs_get_bind, known', Bool.false_eq_true, if_false] at rest
          exact .resolved inFlight.1 inFlight.2 (resolveOfferId_spec resolves) (update_spec rest)
      | false =>
          obtain ⟨rfl, rfl⟩ := runs_pure.mp rest
          exact .awaiting inFlight.1 inFlight.2 (resolveOfferId_spec resolves)
    · exact .resolveRaised inFlight.1 inFlight.2 (resolveOfferId_spec resolves)
  · simp only [inFlight, Bool.false_eq_true, if_false] at run
    rcases runs_bind.mp run with ⟨known, m, pure_, rest⟩ | ⟨e, pure_, rfl⟩
    · obtain ⟨same, rfl⟩ := runs_pure.mp pure_
      cases same
      rw [if_pos rfl, runs_get_bind] at rest
      rcases runs_ite.mp rest with ⟨unknown, rest⟩ | ⟨known, rest⟩
      · have unknown : m.offer.offerExtId = none := by simpa using unknown
        refine .creates unknown ?_ (create_spec rest)
        simpa [unknown] using inFlight
      · exact .updates (by simpa [Option.isSome_iff_ne_none] using known) (update_spec rest)
    · obtain ⟨same, -⟩ := runs_pure.mp pure_
      cases same

/-- What of a row differs from what is desired. -/
structure Changed (desired : DesiredOffer) (offer : StoreOffer) where
  price : Bool
  stock : Bool
  active : Bool
  price_eq : price = decide (offer.pushedPrice ≠ some desired.price)
  stock_eq : stock = decide (offer.pushedInventory ≠ some desired.inventory)
  active_eq : active = decide (offer.pushedActive ≠ some desired.active)

/-- `_sync_one` -/
inductive SyncsOne (sync : OfferSync W) (desired : DesiredOffer) (dryRun : Bool) (now : Time)
    (s : RowState W) : Except Exn StatKey → RowState W → Prop
  | unchanged (price : s.offer.pushedPrice = some desired.price)
      (stock : s.offer.pushedInventory = some desired.inventory)
      (active : s.offer.pushedActive = some desired.active) :
      SyncsOne sync desired dryRun now s (.ok .skippedUnchanged) s
  | dry (dry : dryRun = true) :
      SyncsOne sync desired dryRun now s
        (.ok (if s.offer.offerExtId.isNone then .wouldCreate else .wouldUpdate)) s
  | pushed {k t} (wet : dryRun = false) (changed : Changed desired s.offer)
      (pushes : sync.Pushes desired now changed.price changed.stock changed.active s (.ok k) t) :
      SyncsOne sync desired dryRun now s (.ok k) t
  | raised {e t} (wet : dryRun = false) (changed : Changed desired s.offer)
      (other : ∀ a, e ≠ .api a)
      (pushes : sync.Pushes desired now changed.price changed.stock changed.active s (.error e) t) :
      SyncsOne sync desired dryRun now s (.error e) t
  | failed {a t q u} (wet : dryRun = false) (changed : Changed desired s.offer)
      (pushes : sync.Pushes desired now changed.price changed.stock changed.active s
        (.error (.api a)) t)
      (flushed : sync.Flushes (t.set (failedCall a t.offer)) q u) :
      SyncsOne sync desired dryRun now s
        (q.map fun _ => if a.kind = .rateLimitedError then .deferredRateLimited else .errors) u

/-- What `_sync_one` can do with a row. -/
theorem syncOne_spec {desired : DesiredOffer} {dryRun : Bool} {now : Time}
    {r : Except Exn StatKey} (run : (sync.syncOne desired dryRun now).Runs s r t) :
    sync.SyncsOne desired dryRun now s r t := by
  unfold syncOne at run
  rw [runs_get_bind] at run
  rcases runs_ite.mp run with ⟨same, rest⟩ | ⟨-, rest⟩
  · obtain ⟨rfl, rfl⟩ := runs_pure.mp rest
    simp only [Bool.not_or, Bool.and_eq_true, Bool.not_eq_true', decide_eq_false_iff_not,
      not_not] at same
    exact .unchanged same.1.1 same.1.2 same.2
  · rcases runs_ite.mp rest with ⟨dry, rest⟩ | ⟨wet, rest⟩
    · obtain ⟨rfl, rfl⟩ := runs_pure.mp rest
      exact .dry dry
    have wet : dryRun = false := by simpa using wet
    let changed : Changed desired s.offer := ⟨_, _, _, rfl, rfl, rfl⟩
    rcases runs_bind.mp rest with ⟨pushed, m, attempted, rest⟩ | ⟨e, attempted, rfl⟩
    · rcases runs_attempt.mp attempted with ⟨k, pushes, same⟩ | ⟨a, pushes, same⟩ | ⟨_, -, -, same⟩
      · cases same
        obtain ⟨rfl, rfl⟩ := runs_pure.mp rest
        exact .pushed wet changed (push_spec pushes)
      · cases same
        obtain ⟨q, flushed, rfl⟩ := flush_pure_spec (runs_edit_bind.mp rest)
        exact .failed wet changed (push_spec pushes) flushed
      · cases same
    · rcases runs_attempt.mp attempted with ⟨_, -, same⟩ | ⟨_, -, same⟩ | ⟨e, other, pushes, same⟩
      · cases same
      · cases same
      · cases same
        exact .raised wet changed other (push_spec pushes)

/-! ## Reconciling -/

/-- The row after its job was reported done. -/
def completedRow (job : JobResult) (offer : StoreOffer) : StoreOffer :=
  { offer with
    pendingJobId := none
    offerExtId :=
      if (truthyId job.resourceId).isSome && (truthyId offer.offerExtId).isNone then
        job.resourceId
      else offer.offerExtId
    lastError := none }

/-- The row after its job was reported failed. -/
def failedRow (job : JobResult) (offer : StoreOffer) : StoreOffer :=
  { rejected job offer with
    pendingJobId := none
    consecutiveFailures := offer.consecutiveFailures + 1 }

/-- `reconcileOne` -/
inductive ReconcilesOne (sync : OfferSync W) (jobId : String) (s : RowState W) :
    Except Exn Reconciled → RowState W → Prop
  | raised {e w} (other : ∀ a, e ≠ .api a)
      (answer : sync.adapter.getJob jobId s.world = (.error e, w)) :
      ReconcilesOne sync jobId s (.error e)
        (s.asked sync .reconciling (.getJob jobId (.error e)) w)
  | unknown {a w} (answer : sync.adapter.getJob jobId s.world = (.error (.api a), w)) :
      ReconcilesOne sync jobId s (.ok .unknown)
        (s.asked sync .reconciling (.getJob jobId (.error (.api a))) w)
  | pending {job w} (answer : sync.adapter.getJob jobId s.world = (.ok job, w))
      (unfinished : job.isFinished = false) :
      ReconcilesOne sync jobId s (.ok .pending)
        (s.asked sync .reconciling (.getJob jobId (.ok job)) w)
  | completed {job w} (answer : sync.adapter.getJob jobId s.world = (.ok job, w))
      (finished : job.isFinished = true) (succeeded : job.succeeded = true) :
      ReconcilesOne sync jobId s (.ok .completed)
        ((s.asked sync .reconciling (.getJob jobId (.ok job)) w).set (completedRow job s.offer))
  | failed {job w} (answer : sync.adapter.getJob jobId s.world = (.ok job, w))
      (finished : job.isFinished = true) (failed : job.succeeded = false) :
      ReconcilesOne sync jobId s (.ok .failed)
        ((s.asked sync .reconciling (.getJob jobId (.ok job)) w).set (failedRow job s.offer))

/-- What one turn of `reconcile_jobs` can do. -/
theorem reconcileOne_spec {jobId : String} {r : Except Exn Reconciled}
    (run : (sync.reconcileOne jobId).Runs s r t) : sync.ReconcilesOne jobId s r t := by
  unfold reconcileOne at run
  rcases attempt_request_cases run with ⟨job, w, answer, rest⟩ | ⟨a, w, answer, rest⟩ |
    ⟨e, w, other, answer, rfl, rfl⟩
  · rcases runs_ite.mp rest with ⟨finished, rest⟩ | ⟨unfinished, rest⟩
    · rcases runs_ite.mp rest with ⟨succeeded, rest⟩ | ⟨failed, rest⟩
      · rw [runs_edit_bind] at rest
        obtain ⟨rfl, rfl⟩ := runs_pure.mp rest
        exact .completed answer finished succeeded
      · rw [runs_edit_bind] at rest
        obtain ⟨rfl, rfl⟩ := runs_pure.mp rest
        exact .failed answer finished (by simpa using failed)
    · obtain ⟨rfl, rfl⟩ := runs_pure.mp rest
      exact .pending answer (by simpa using unfinished)
  · obtain ⟨rfl, rfl⟩ := runs_pure.mp rest
    exact .unknown answer
  · exact .raised other answer

/-! ## What no part changes -/

/-- `new` is `old` after some calls about one mapping. -/
def Calls (mappingId : ℕ) (old new : List Entry) : Prop :=
  ∃ calls, new = calls ++ old ∧ ∀ entry ∈ calls, entry.row.mappingId = mappingId

theorem Calls.refl {mappingId : ℕ} (trace : List Entry) : Calls mappingId trace trace :=
  ⟨[], rfl, fun _ mem => nomatch mem⟩

theorem Calls.one {entry : Entry} {trace : List Entry} :
    Calls entry.row.mappingId trace (entry :: trace) :=
  ⟨[entry], rfl, fun _ mem => by rw [List.mem_singleton.mp mem]⟩

/-- The calls of two parts are all about the one mapping. -/
theorem Calls.trans {mappingId : ℕ} {a b c : List Entry} (first : Calls mappingId a b)
    (second : Calls mappingId b c) : Calls mappingId a c := by
  obtain ⟨calls, rfl, own⟩ := first
  obtain ⟨more, rfl, ownMore⟩ := second
  refine ⟨more ++ calls, (List.append_assoc ..).symm, fun entry mem => ?_⟩
  rcases List.mem_append.mp mem with mem | mem
  · exact ownMore entry mem
  · exact own entry mem

/-- Calls are only added to the trace. -/
theorem Calls.suffix {mappingId : ℕ} {old new : List Entry} (calls : Calls mappingId old new) :
    old <:+ new := by
  obtain ⟨entries, rfl, -⟩ := calls
  exact List.suffix_append ..

/-- The row is still the row of its mapping, its store and its product, and the
calls made are its own. -/
structure Frame (s t : RowState W) : Prop where
  mappingId : t.offer.mappingId = s.offer.mappingId
  storeCode : t.offer.storeCode = s.offer.storeCode
  productExtId : t.offer.productExtId = s.offer.productExtId
  target : t.target = s.target
  others : t.others = s.others
  trace : Calls s.offer.mappingId s.trace t.trace

variable {u : RowState W}

theorem Frame.refl (s : RowState W) : Frame s s := ⟨rfl, rfl, rfl, rfl, rfl, .refl _⟩

/-- What two parts leave alone their sequence leaves alone. -/
theorem Frame.trans (first : Frame s t) (second : Frame t u) : Frame s u where
  mappingId := second.mappingId.trans first.mappingId
  storeCode := second.storeCode.trans first.storeCode
  productExtId := second.productExtId.trans first.productExtId
  target := second.target.trans first.target
  others := second.others.trans first.others
  trace := first.trace.trans (first.mappingId ▸ second.trace)

/-- `Frame.trans`, for a first part that is read off the second. -/
theorem Frame.after (second : Frame t u) (first : Frame s t) : Frame s u := first.trans second

/-- Counting a price change touches the log alone. -/
theorem frame_logged {newPrice : ℚ} {oldPrice : Option ℚ} {calledAt : Time} :
    Frame s (s.logged sync newPrice oldPrice calledAt) := ⟨rfl, rfl, rfl, rfl, rfl, .refl _⟩

/-- A flush keeps the frame. -/
theorem Flushes.frame {q : Except Exn Unit} (flushed : sync.Flushes s q t) : Frame s t := by
  obtain ⟨rfl, -⟩ := flushed
  exact ⟨rfl, rfl, rfl, rfl, rfl, .refl _⟩

/-- A search keeps the frame. -/
theorem FindsRemote.frame {r : Except Exn Bool} (finds : sync.FindsRemote phase s r t) :
    Frame s t := by
  cases finds with
  | raised | nothing => exact ⟨rfl, rfl, rfl, rfl, rfl, .one⟩
  | found answer flushed => exact flushed.frame.after ⟨rfl, rfl, rfl, rfl, rfl, .one⟩

/-- Resolving the offer id keeps the frame. -/
theorem Resolves.frame {r : Except Exn Bool} (resolves : sync.Resolves phase s r t) :
    Frame s t := by
  cases resolves with
  | noJob pending finds => exact finds.frame
  | lookupFailed | lookupRaised | unfinished => exact ⟨rfl, rfl, rfl, rfl, rfl, .one⟩
  | failed _ _ _ _ flushed | named _ _ _ _ _ flushed =>
      exact flushed.frame.after ⟨rfl, rfl, rfl, rfl, rfl, .one⟩
  | unnamed _ _ _ _ _ finds => exact finds.frame.after ⟨rfl, rfl, rfl, rfl, rfl, .one⟩

/-- An update keeps the frame, however it ends. -/
theorem Updates.frame {desired : DesiredOffer} {now : Time}
    {priceChanged stockChanged activeChanged : Bool} {r : Except Exn StatKey}
    (updates : sync.Updates desired now priceChanged stockChanged activeChanged s r t) :
    Frame s t := by
  cases updates with
  | nothing => exact .refl _
  | raised => exact ⟨rfl, rfl, rfl, rfl, rfl, .one⟩
  | unwritten _ _ _ _ _ _ flushed | unpriced _ _ _ _ _ _ flushed =>
      exact flushed.frame.after ⟨rfl, rfl, rfl, rfl, rfl, .one⟩
  | priced _ _ _ _ _ flushed recorded =>
      have logged := flushed.frame.trans (frame_logged.trans recorded.frame)
      exact logged.after ⟨rfl, rfl, rfl, rfl, rfl, .one⟩

/-- Recording a create keeps the frame. -/
theorem RecordsCreate.frame {desired : DesiredOffer} {now calledAt : Time}
    {r : Except Exn StatKey} (records : sync.RecordsCreate desired now calledAt s r t) :
    Frame s t := by
  cases records with
  | unwritten flushed => exact flushed.frame.after ⟨rfl, rfl, rfl, rfl, rfl, .refl _⟩
  | recorded flushed recorded =>
      have logged := flushed.frame.trans (frame_logged.trans recorded.frame)
      exact logged.after ⟨rfl, rfl, rfl, rfl, rfl, .refl _⟩

/-- A create keeps the frame, however it ends. -/
theorem Creates.frame {desired : DesiredOffer} {now : Time} {r : Except Exn StatKey}
    (creates : sync.Creates desired now s r t) : Frame s t := by
  cases creates with
  | raised => exact ⟨rfl, rfl, rfl, rfl, rfl, .one⟩
  | adoptRaised _ _ resolves | unadopted _ _ resolves =>
      exact resolves.frame.after ⟨rfl, rfl, rfl, rfl, rfl, .one⟩
  | resolveRaised _ _ _ resolves | refused _ _ _ resolves =>
      exact resolves.frame.after ⟨rfl, rfl, rfl, rfl, rfl, .one⟩
  | adopted _ _ resolves updates =>
      exact (resolves.frame.trans updates.frame).after ⟨rfl, rfl, rfl, rfl, rfl, .one⟩
  | named _ _ records | nameless _ _ _ records =>
      exact records.frame.after ⟨rfl, rfl, rfl, rfl, rfl, .one⟩
  | settled _ _ _ resolves _ records =>
      exact (resolves.frame.trans records.frame).after ⟨rfl, rfl, rfl, rfl, rfl, .one⟩

/-- A write keeps the frame, however it ends. -/
theorem Pushes.frame {desired : DesiredOffer} {now : Time}
    {priceChanged stockChanged activeChanged : Bool} {r : Except Exn StatKey}
    (pushes : sync.Pushes desired now priceChanged stockChanged activeChanged s r t) :
    Frame s t := by
  cases pushes with
  | resolveRaised _ _ resolves | awaiting _ _ resolves => exact resolves.frame
  | resolved _ _ resolves updates => exact resolves.frame.trans updates.frame
  | creates _ _ creates => exact creates.frame
  | updates _ updates => exact updates.frame

/-- A failed call changes the state and the error of its row, and nothing else. -/
theorem failedCall_keeps (e : ApiError) (offer : StoreOffer) :
    (failedCall e offer).mappingId = offer.mappingId ∧
      (failedCall e offer).storeCode = offer.storeCode ∧
      (failedCall e offer).productExtId = offer.productExtId ∧
      (failedCall e offer).offerExtId = offer.offerExtId ∧
      (failedCall e offer).pendingJobId = offer.pendingJobId ∧
      (failedCall e offer).pushedPrice = offer.pushedPrice ∧
      (failedCall e offer).pushedInventory = offer.pushedInventory ∧
      (failedCall e offer).pushedActive = offer.pushedActive := by
  unfold failedCall
  split <;> exact ⟨rfl, rfl, rfl, rfl, rfl, rfl, rfl, rfl⟩

theorem frame_failedCall (e : ApiError) (s : RowState W) :
    Frame s (s.set (failedCall e s.offer)) := by
  obtain ⟨mappingId, storeCode, productExtId, -⟩ := failedCall_keeps e s.offer
  exact ⟨mappingId, storeCode, productExtId, rfl, rfl, .refl _⟩

/-- The turn of a row touches only that row, its log entries and its calls. -/
theorem SyncsOne.frame {desired : DesiredOffer} {dryRun : Bool} {now : Time}
    {r : Except Exn StatKey} (syncs : sync.SyncsOne desired dryRun now s r t) : Frame s t := by
  cases syncs with
  | unchanged | dry => exact .refl _
  | pushed _ _ pushes => exact pushes.frame
  | raised _ _ _ pushes => exact pushes.frame
  | failed _ _ pushes flushed =>
      exact pushes.frame.trans ((frame_failedCall _ _).trans flushed.frame)

/-- The turn of a pending job touches only its row. -/
theorem ReconcilesOne.frame {jobId : String} {r : Except Exn Reconciled}
    (reconciles : sync.ReconcilesOne jobId s r t) : Frame s t := by
  cases reconciles <;> exact ⟨rfl, rfl, rfl, rfl, rfl, .one⟩

end OfferSync

end FazerBridge
