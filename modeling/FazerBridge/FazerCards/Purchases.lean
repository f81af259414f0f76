import FazerBridge.FazerCards.Refusals
import FazerBridge.HttpClient.Effects
import FazerBridge.Lib.Delivery

/-!
# Buying once

`purchase` sends an order again when its answer is lost, and its caller may call it again
when it raises.  Every send of a call bears its idempotency key, so a supplier that performs
an order at most once for each key places at most one, whatever is lost in either direction,
and exactly one under each key that a call returned for (`buys_once`).

A key that is the empty string is not sent, but the call is retried all the same; so the
callers' keys are not empty.
-/

namespace FazerBridge

namespace FazerCardsAdapter

variable {W : Type}

/-- What is ordered: the path and the body. -/
abbrev Operation : Type := String × Json

/-- The orders a supplier has placed, each under its key, the latest first. -/
abbrev Ledger : Type := List (String × Operation)

/-- A supplier that keeps its word about `Idempotency-Key`, behind a link that may lose
anything: it places an order once for each key, and answers with an order only for a key
it has placed one for. -/
structure Supplies (adapter : FazerCardsAdapter W) (ledger : W → Ledger) : Prop where
  acquire : ∀ w, ledger (adapter.acquire w) = ledger w
  draw : ∀ w, ledger (adapter.draw w).2 = ledger w
  sleep : ∀ seconds w, ledger (adapter.sleep seconds w) = ledger w
  sends : ∀ {body sent key w outcome w'}, sent.headers.lookup "Idempotency-Key" = some key →
    adapter.send body sent w = (outcome, w') →
    Delivers key (sent.path, body) (ledger w) (ledger w')
  confirms : ∀ {body sent key w status text retryAfter w' result},
    sent.headers.lookup "Idempotency-Key" = some key →
    adapter.send body sent w = (.response ⟨status, .json text, retryAfter⟩, w') →
    status ∈ [200, 201, 202] → adapter.accept sent.path (.ok (some text)) = .ok result →
    ∃ entry ∈ ledger w', entry.1 = key

variable {adapter : FazerCardsAdapter W} {ledger : W → Ledger} {item : SupplierItem} {quantity : ℤ}
  {key : String}

/-! ## One call -/

/-- Every send of an order bears its key. -/
theorem lookup_sendHeaders (item : SupplierItem) (quantity : ℤ) (keyed : key ≠ "") {auth : Headers}
    (authorized : adapter.authHeaders = .ok auth) :
    (BaseApiClient.sendHeaders (orderRequest item quantity key) auth).lookup "Idempotency-Key" =
      some key := by
  unfold authHeaders at authorized
  split at authorized
  · cases authorized
    simp [BaseApiClient.sendHeaders, orderRequest, List.lookup, keyed]
  · cases authorized

/-- An empty key is not sent, and the call is retried as if it were. -/
theorem empty_key_unsent {auth : Headers} (authorized : adapter.authHeaders = .ok auth) :
    (BaseApiClient.sendHeaders (orderRequest item quantity "") auth).lookup "Idempotency-Key" =
        none ∧ (orderRequest item quantity "").retrying = true := by
  unfold authHeaders at authorized
  split at authorized
  · cases authorized
    exact ⟨by simp [BaseApiClient.sendHeaders, orderRequest, List.lookup], rfl⟩
  · cases authorized

/-- Between its sends a call leaves the ledger alone. -/
theorem Supplies.quiet (supplies : Supplies adapter ledger) (body : Json) (operation : Operation) :
    (adapter.client body).Quiet fun w w' => Delivers key operation (ledger w) (ledger w') where
  refl _ := .kept
  trans := .trans
  acquire w := by
    rw [show ledger ((adapter.client body).acquire w) = ledger w from supplies.acquire w]
    exact .kept
  authHeaders _ := .kept
  onAuthFailure _ := .kept
  draw w := by
    rw [show ledger ((adapter.client body).draw w).2 = ledger w from supplies.draw w]
    exact .kept
  sleep seconds w := by
    rw [show ledger ((adapter.client body).sleep seconds w) = ledger w from supplies.sleep seconds w]
    exact .kept

theorem lookup_wired {body : Json} {sent : Sent} (keyed : key ≠ "")
    (wired : (adapter.client body).Wired (orderRequest item quantity key) sent) :
    sent.path = (orderOf item quantity).1 ∧
      sent.headers.lookup "Idempotency-Key" = some key := by
  obtain ⟨auth, w, authorized, rfl⟩ := wired
  exact ⟨rfl, lookup_sendHeaders item quantity keyed authorized⟩

theorem not_accept_none {path : String} {result : PurchaseResult} :
    adapter.accept path (.ok none) ≠ .ok result := by
  intro accepted
  cases accepted

/-- A call adds at most its order to the ledger, and one that returned has it there. -/
theorem order_delivers (supplies : Supplies adapter ledger) (keyed : key ≠ "")
    (item : SupplierItem) (quantity : ℤ) (w : W) :
    Delivers key (orderOf item quantity) (ledger w)
        (ledger (adapter.order item quantity key w).world) ∧
      ∀ {result},
        adapter.accept (orderOf item quantity).1 (adapter.order item quantity key w).result =
          .ok result →
        ∃ entry ∈ ledger (adapter.order item quantity key w).world, entry.1 = key := by
  have sends : ∀ {sent} w, (adapter.client (orderOf item quantity).2).Wired
      (orderRequest item quantity key) sent →
      Delivers key (orderOf item quantity) (ledger w)
        (ledger ((adapter.client (orderOf item quantity).2).send sent w).2) := by
    intro sent w wired
    obtain ⟨path, named⟩ := lookup_wired keyed wired
    have delivers := supplies.sends named (rfl : adapter.send (orderOf item quantity).2 sent w = _)
    rw [path] at delivers
    exact delivers
  obtain ⟨delivers, returned⟩ := BaseApiClient.Loops.effects
    (supplies.quiet (orderOf item quantity).2 (orderOf item quantity)) sends
    (BaseApiClient.loop_spec _ (orderRequest item quantity key) 0 false w)
  refine ⟨delivers, fun {result} accepted => ?_⟩
  cases ended : (adapter.order item quantity key w).result with
  | error e =>
      rw [ended] at accepted
      cases accepted
  | ok value =>
      rw [ended] at accepted
      obtain ⟨w', -, sent, ⟨status, content, retryAfter⟩, wired, answer, expected, body⟩ :=
        returned value ended
      obtain ⟨path, named⟩ := lookup_wired keyed wired
      cases value with
      | none => exact absurd accepted not_accept_none
      | some text =>
          obtain rfl : content = .json text := BaseApiClient.content_of_body body
          rw [← path] at accepted
          exact supplies.confirms named answer expected accepted

theorem purchase_ordered (supplies : Supplies adapter ledger) (keyed : key ≠ "")
    (item : SupplierItem) (quantity : ℤ) (w : W) :
    Delivers key (orderOf item quantity) (ledger w)
        (ledger (adapter.purchase item quantity key w).2) ∧
      ∀ {result}, (adapter.purchase item quantity key w).1 = .ok result →
        ∃ entry ∈ ledger (adapter.purchase item quantity key w).2, entry.1 = key := by
  unfold purchase
  split
  · exact order_delivers supplies keyed item quantity w
  · exact ⟨.kept, fun returned => by cases returned⟩

/-! ## Every run of calls -/

/-- A call of `purchase`, and whether it returned. -/
structure Asked where
  key : String
  operation : Operation
  returned : Bool

/-- Calls one after the other, the latest first, by callers that reuse keys as they like; the
world moves in between. -/
inductive Buys (adapter : FazerCardsAdapter W) (moves : W → W → Prop) (w : W) :
    List Asked → W → Prop
  | start : Buys adapter moves w [] w
  | purchase {asked w'} (before : Buys adapter moves w asked w') (item : SupplierItem)
      (quantity : ℤ) {key : String} (keyed : key ≠ "") :
      Buys adapter moves w
        (⟨key, orderOf item quantity, (adapter.purchase item quantity key w').1.isOk⟩ :: asked)
        (adapter.purchase item quantity key w').2
  | move {asked w' w''} (before : Buys adapter moves w asked w') (moved : moves w' w'') :
      Buys adapter moves w asked w''

/-- In every run of calls, whatever answers are lost: no key gets two orders, every order was
asked for under its key and none is forgotten, and each call that returned has its order. -/
theorem buys_once (adapter : FazerCardsAdapter W) (ledger : W → Ledger)
    (supplies : Supplies adapter ledger) (moves : W → W → Prop)
    (still : ∀ w w', moves w w' → ledger w' = ledger w) {w w' : W}
    (unique : ((ledger w).map Prod.fst).Nodup) {asked : List Asked}
    (buys : Buys adapter moves w asked w') :
    ((ledger w').map Prod.fst).Nodup ∧ ledger w <:+ ledger w' ∧
    (∀ entry ∈ ledger w', entry ∈ ledger w ∨ ∃ a ∈ asked, (a.key, a.operation) = entry) ∧
    ∀ a ∈ asked, a.returned = true → ∃ entry ∈ ledger w', entry.1 = a.key := by
  induction buys with
  | start =>
      exact ⟨unique, List.suffix_rfl, fun _ there => .inl there, fun _ none => by cases none⟩
  | move before moved ih =>
      rw [still _ _ moved]
      exact ih
  | @purchase asked w' before item quantity key keyed ih =>
      obtain ⟨alone, kept, asked_, placed⟩ := ih
      obtain ⟨delivers, confirmed⟩ := purchase_ordered supplies keyed item quantity w'
      refine ⟨delivers.unique alone, kept.trans delivers.suffix, fun entry there => ?_,
        fun a called returned => ?_⟩
      · rcases delivers.mem there with old | rfl
        · rcases asked_ entry old with first | ⟨a, called, same⟩
          · exact .inl first
          · exact .inr ⟨a, List.mem_cons_of_mem _ called, same⟩
        · exact .inr ⟨_, List.mem_cons_self, rfl⟩
      · rcases List.mem_cons.mp called with rfl | earlier
        · cases result : (adapter.purchase item quantity key w').1 with
          | ok value => exact confirmed result
          | error e =>
              rw [result] at returned
              cases returned
        · obtain ⟨entry, there, same⟩ := placed a earlier returned
          exact ⟨entry, delivers.suffix.mem there, same⟩

/-! ## A supplier whose answers get lost -/

/-- The orders placed, and the answers given so far. -/
structure Shop where
  placed : Ledger
  answers : ℕ

/-- An order is placed if its key is new. -/
def Shop.place (shop : Shop) (key : String) (operation : Operation) : Shop where
  placed := if ∀ entry ∈ shop.placed, entry.1 ≠ key then (key, operation) :: shop.placed
    else shop.placed
  answers := shop.answers + 1

/-- Every other answer is lost. -/
def forgetful : FazerCardsAdapter Shop where
  unicode := .ascii
  retry := .default
  apiKey := some "fc_test"
  loads _ := .object [("ok", .bool true), ("order", .object [("id", .string "ord-1")])]
  strOther _ := ""
  decimal _ := none
  reasonPhrase _ := ""
  acquire := id
  send body sent shop :=
    (if shop.answers % 2 = 0 then .retryable "ReadTimeout" "timed out"
      else .response ⟨201, .json "", none⟩,
    match sent.headers.lookup "Idempotency-Key" with
    | some key => shop.place key (sent.path, body)
    | none => shop)
  draw w := (0, w)
  sleep _ := id

theorem delivers_place (shop : Shop) (key : String) (operation : Operation) :
    Delivers key operation shop.placed (shop.place key operation).placed := by
  unfold Shop.place
  dsimp only
  split
  · exact .performed ‹_›
  · exact .kept

theorem placed_place (shop : Shop) (key : String) (operation : Operation) :
    ∃ entry ∈ (shop.place key operation).placed, entry.1 = key := by
  unfold Shop.place
  dsimp only
  split
  · exact ⟨_, List.mem_cons_self, rfl⟩
  · rename_i known
    push Not at known
    exact known

theorem forgetful_supplies : Supplies forgetful Shop.placed where
  acquire _ := rfl
  draw _ := rfl
  sleep _ _ := rfl
  sends {body sent key w outcome w'} named answer := by
    simp only [forgetful, named] at answer
    cases answer
    exact delivers_place ..
  confirms {body sent key w status text retryAfter w' result} named answer _ _ := by
    simp only [forgetful, named, Prod.mk.injEq] at answer
    rw [← answer.2]
    exact placed_place ..

/-- Two calls under one key, and one under another. -/
def afterThree : Shop :=
  (forgetful.purchase card 1 "k2" (forgetful.purchase card 1 "k1"
    (forgetful.purchase card 1 "k1" ⟨[], 0⟩).2).2).2

theorem buys_once_three : afterThree.answers = 6 ∧ afterThree.placed.map Prod.fst = ["k2", "k1"] ∧
    (afterThree.placed.map Prod.fst).Nodup :=
  ⟨by decide +kernel, by decide +kernel, (buys_once forgetful Shop.placed forgetful_supplies
    (fun _ _ => False) (fun _ _ => False.elim) (w := ⟨[], 0⟩) List.nodup_nil
    (.purchase (.purchase (.purchase .start card 1 (by decide)) card 1 (by decide)) card 1
      (by decide))).1⟩

end FazerCardsAdapter

end FazerBridge
