import FazerBridge.G2AClient.Calls
import FazerBridge.Worker.Shelf

/-!
# The worker over the wire

The whole system with the adapter as it is: its requests, their repetitions, and the token.
What is assumed is the contract of the store for one exchange.
-/

namespace FazerBridge

open OfferSync StoreState

/-- In every run of sessions over a link that may lose requests and answers, each row names the
offer of its product, and the offers on products that nothing names are as they were. -/
theorem Service.foreign_untouched_wired {S : Type} (store : G2AStore S) (shop : StoreState S)
    (honest : store.Honest shop) (regular : shop.Regular) (service : Service (G2AState S))
    {fuel : ℕ} (adapter : service.offers.adapter = store.adapter fuel)
    (uses : ∀ w w', service.offers.Uses w w' → shop.Same w.server w'.server)
    (moves : G2AState S → G2AState S → Prop)
    (still : ∀ w w', moves w w' → shop.Same w.server w'.server) (foreign : String → Prop)
    {start bridge : Bridge (G2AState S)}
    (mirrors : Mirrors False shop.served start.db.offers start.world)
    (run : Relation.ReflTransGen
      (Runs.Allowed (service.Turn moves) (service.Clear foreign)) start bridge) :
    (∀ offer ∈ bridge.db.offers.rows, ∀ id, offer.offerExtId = some id →
      ∃ x, shop.shelf bridge.world.server id = some x ∧ x.productExtId = offer.productExtId) ∧
    ∀ id x, foreign x.productExtId →
      (shop.shelf bridge.world.server id = some x ↔ shop.shelf start.world.server id = some x) :=
  service.foreign_untouched shop.served (honest.atomic regular adapter fun used => uses _ _ used)
    moves still foreign mirrors run

namespace Desk

open AdminApi

def offerSync : OfferSync (G2AState Desk) where
  adapter := store.adapter 1
  settings := EchoStore.settings
  pricer := EchoStore.pinned.pricer
  now _ := 0
  database w := (none, w)

def service : Service (G2AState Desk) where
  engine := sampleEngine
  supplierCatalog := EchoStore.service.supplierCatalog
  offers := offerSync

/-- With the mapping of one product. -/
def start : Bridge (G2AState Desk) where
  db := { EchoStore.db with
    mappings := ⟨⟨[EchoStore.mapping 1], by decide⟩, by decide, by decide⟩ }
  world := .new ⟨none, 0⟩
  trace := []

/-- The answer to the create is lost. -/
def offered : Bridge (G2AState Desk) := (service.runWorkerJob start .offers).2

/-- The offer is adopted. -/
def adopted : Bridge (G2AState Desk) := (service.runWorkerJob offered .offers).2

def repriced : Bridge (G2AState Desk) :=
  .left (service.pricingSession EchoStore.pinned adopted (.setPricing 1 ShelfStore.sixty))

/-- The new price is accepted, and its job fails. -/
def reoffered : Bridge (G2AState Desk) := (service.runWorkerJob repriced .offers).2

theorem mirrors_start : Mirrors False shop.served start.db.offers start.world :=
  fun _ mem => by cases mem

theorem same_of_uses {w w' : G2AState Desk} (used : offerSync.Uses w w') :
    shop.Same w.server w'.server := by
  cases used with
  | database => exact ⟨rfl, rfl⟩
  | pricer =>
      rw [show offerSync.pricer = EchoStore.pinned.pricer from rfl, EchoStore.world_pinned]
      exact ⟨rfl, rfl⟩

theorem foreign_untouched_wired_reoffered :
    reoffered.trace.any (fun entry => entry.call matches .getJob "j2" (.ok _)) = true ∧
      shop.shelf reoffered.world.server "f7" = some foreign := by
  have first : service.Clear (fun p => p = "7") start (.job .offers) :=
    Service.clear_of_bridge trivial (by decide +kernel) (by decide +kernel)
  have second : service.Clear (fun p => p = "7") offered (.job .offers) :=
    Service.clear_of_bridge trivial (by decide +kernel) (by decide +kernel)
  have third : service.Clear (fun p => p = "7") adopted
      (.act (.price (.setPricing 1 ShelfStore.sixty))) :=
    Service.clear_of_bridge (fun same => by cases same) (by decide +kernel) (by decide +kernel)
  have fourth : service.Clear (fun p => p = "7") repriced (.job .offers) :=
    Service.clear_of_bridge trivial (by decide +kernel) (by decide +kernel)
  have prices : service.Turn (fun _ _ => False) adopted
      (.act (.price (.setPricing 1 ShelfStore.sixty))) repriced :=
    .act (.price (rfl : offerSync.pricer = EchoStore.pinned.pricer))
  have run : Relation.ReflTransGen (Runs.Allowed (service.Turn fun _ _ => False)
      (service.Clear fun p => p = "7")) start reoffered :=
    .tail (.tail (.tail (.single ⟨_, first, .job .offers⟩) ⟨_, second, .job .offers⟩)
      ⟨_, third, prices⟩) ⟨_, fourth, .job .offers⟩
  have untouched := (Service.foreign_untouched_wired store shop honest regular service rfl
    (fun _ _ used => same_of_uses used) (fun _ _ => False) (fun _ _ => False.elim)
    (fun p => p = "7") mirrors_start run).2 "f7" foreign rfl
  exact ⟨by decide +kernel, untouched.mpr (by decide +kernel)⟩

end Desk

end FazerBridge
