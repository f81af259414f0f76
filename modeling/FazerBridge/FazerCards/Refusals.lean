import FazerBridge.FazerCards

/-!
# Refused orders

The supplier's refusal is classified twice: by the client, which sees its status, and by
`unwrap`, which sees its code.  The client is first, and raises an `ApiError` for every
status but 200, 201 and 202; so a code decides about the exception exactly if it came
with one of these, or means an `ApiError` anyway (`purchase_refused_iff`).
-/

namespace FazerBridge

namespace BaseApiClient

variable {W : Type} {client : BaseApiClient W} {request : Request}

/-- An outcome that is not sent again ends the loop. -/
theorem Loops.last_reacts {attempt : ℕ} {refreshed : Bool} {w : W} {f : Finished W}
    {last : Exchange} (loops : client.Loops request attempt refreshed w f)
    (isLast : f.exchanges.getLast? = some last) (final : ¬ last.outcome.Retryable)
    (accepted : last.outcome.rejected = false) :
    ∃ attempt refreshed, client.react request attempt refreshed last.outcome = .finish f.result := by
  induction loops with
  | unsent auth => cases isLast
  | @finish attempt refreshed _ _ _ _ _ _ _ authorized wire sends reacts =>
      cases isLast
      exact ⟨attempt + 1, refreshed, reacts⟩
  | @refresh _ _ _ _ _ _ sent outcome f authorized wire sends reacts rest ih =>
      by_cases more : f.exchanges = []
      · -- the auth failed after the refresh, and the last response was the rejected one
        simp only [more, List.getLast?_singleton, Option.some.injEq] at isLast
        subst isLast
        rw [(react_refresh reacts).2.2] at accepted
        cases accepted
      · rw [List.getLast?_cons_of_ne_nil more] at isLast
        exact ih isLast
  | @backOff _ _ _ _ _ _ sent outcome asked f authorized wire sends reacts rest ih =>
      by_cases more : f.exchanges = []
      · simp only [more, List.getLast?_singleton, Option.some.injEq] at isLast
        subst isLast
        exact absurd (react_backOff reacts).2.2 final
      · rw [List.getLast?_cons_of_ne_nil more] at isLast
        exact ih isLast

end BaseApiClient

/-- The class of an exception. -/
inductive SupplierError.Class
  | outOfStock
  | insufficientBalance
  | supplierUnavailable
  | apiError
  | rateLimitedError
  | authError
  | other
  deriving DecidableEq, Repr

def SupplierError.class_ : SupplierError → Class
  | .outOfStock _ => .outOfStock
  | .insufficientBalance _ => .insufficientBalance
  | .supplierUnavailable _ => .supplierUnavailable
  | .exn (.api e) =>
    match e.kind with
    | .apiError => .apiError
    | .rateLimitedError => .rateLimitedError
    | .authError => .authError
  | .exn _ => .other

namespace FazerCardsAdapter

variable {W : Type} {adapter : FazerCardsAdapter W}

/-- The class `terminalCodes` maps a code to; one it does not list is an `ApiError`. -/
def prescribed (code : Text) : SupplierError.Class :=
  match terminalCodes.lookup code with
  | some error => (error "").class_
  | none => .apiError

/-- The supplier's last response to an order refuses it in its body. -/
structure Refuses (adapter : FazerCardsAdapter W) (item : SupplierItem) (quantity : ℤ)
    (idempotencyKey : String) (w : W) (status : ℕ) (fields : List (String × Json)) : Prop where
  last : ∃ sent text retryAfter,
    (adapter.order item quantity idempotencyKey w).exchanges.getLast? =
      some ⟨sent, .response ⟨status, .json text, retryAfter⟩⟩ ∧
    adapter.loads text = .object fields
  refused : fields.lookup "ok" = some (.bool false)

theorem mem_terminalCodes {code : Text} {error : String → SupplierError}
    (listed : terminalCodes.lookup code = some error) :
    error ∈ [.outOfStock, .insufficientBalance, .supplierUnavailable] := by
  obtain ⟨before, after, split, -⟩ := List.lookup_eq_some_iff.mp listed
  have mem : error ∈ terminalCodes.map Prod.snd := by
    rw [split, List.map_append]
    exact List.mem_append_right _ List.mem_cons_self
  simp only [terminalCodes, List.map_cons, List.map_nil, List.mem_cons, List.not_mem_nil,
    or_false] at mem ⊢
  tauto

theorem prescribed_class {code : Text} {error : String → SupplierError}
    (listed : terminalCodes.lookup code = some error) (message : String) :
    (error message).class_ = prescribed code := by
  have mem := mem_terminalCodes listed
  rw [prescribed, listed]
  simp only [List.mem_cons, List.not_mem_nil, or_false] at mem
  rcases mem with rfl | rfl | rfl <;> rfl

/-- No code of the table is an `ApiError`. -/
theorem prescribed_eq_apiError {code : Text} :
    prescribed code = .apiError ↔ terminalCodes.lookup code = none := by
  unfold prescribed
  cases listed : terminalCodes.lookup code with
  | none => simp
  | some error =>
      have mem := mem_terminalCodes listed
      simp only [List.mem_cons, List.not_mem_nil, or_false] at mem
      rcases mem with rfl | rfl | rfl <;> simp [SupplierError.class_]

variable (adapter) in
theorem unwrap_refused {fields : List (String × Json)}
    (refused : fields.lookup "ok" = some (.bool false))
    (context : String) : ∃ error, adapter.unwrap (some (.object fields)) context = .error error ∧
      error.class_ = prescribed (adapter.refusalCode fields) := by
  unfold unwrap
  simp only [Option.getD_some, refused, ↓reduceIte]
  cases listed : terminalCodes.lookup (adapter.refusalCode fields) with
  | some error => exact ⟨_, rfl, prescribed_class listed _⟩
  | none =>
      refine ⟨_, rfl, ?_⟩
      rw [prescribed_eq_apiError.mpr listed]
      rfl

/-- What the client makes of the refusal. -/
theorem Refuses.result {item : SupplierItem} {quantity : ℤ} {idempotencyKey : String} {w : W}
    {status : ℕ} {fields : List (String × Json)}
    (refuses : adapter.Refuses item quantity idempotencyKey w status fields)
    (authorized : status ≠ 401 ∧ status ≠ 403) (final : status ∉ retryableStatus) :
    (status ∈ [200, 201, 202] ∧ ∃ text, adapter.loads text = .object fields ∧
        (adapter.order item quantity idempotencyKey w).result = .ok (some text)) ∨
      (status ∉ [200, 201, 202] ∧ ∃ e : ApiError, e.kind = .apiError ∧
        (adapter.order item quantity idempotencyKey w).result = .error (.api e)) := by
  obtain ⟨sent, text, retryAfter, last, loaded⟩ := refuses.last
  have loops := (adapter.client (orderOf item quantity).2).loop_spec
    (orderRequest item quantity idempotencyKey) 0 false w
  have accepted : (Outcome.response ⟨status, .json text, retryAfter⟩).rejected = false :=
    decide_eq_false authorized.1
  obtain ⟨attempt, refreshed, reacts⟩ := loops.last_reacts last final accepted
  change _ = Reaction.finish (adapter.order item quantity idempotencyKey w).result at reacts
  unfold BaseApiClient.react at reacts
  dsimp only at reacts
  by_cases expected : status ∈ (orderRequest item quantity idempotencyKey).expected
  · have bodied : status ≠ 204 := by
      rintro rfl
      exact (show 204 ∉ [200, 201, 202] by decide) expected
    rw [if_pos expected] at reacts
    simp only [BaseApiClient.body, if_neg bodied, Reaction.finish.injEq] at reacts
    exact .inl ⟨expected, text, loaded, reacts.symm⟩
  · have limited : status ≠ 429 := by
      rintro rfl
      exact final (by decide)
    have read : ¬ (Content.json text).Deep := not_false
    rw [if_neg expected, if_neg read, if_neg (not_or.mpr authorized), if_pos (.inl final),
      if_neg limited] at reacts
    simp only [Reaction.finish.injEq] at reacts
    exact .inr ⟨expected, _, rfl, reacts.symm⟩

/-- An admissible order that is refused raises what the code prescribes exactly if the
status is 200, 201 or 202, or the code is not in the table. -/
theorem purchase_refused_iff {item : SupplierItem} {quantity : ℤ} {idempotencyKey : String} {w : W}
    {status : ℕ} {fields : List (String × Json)} (admissible : Admissible item quantity)
    (refuses : adapter.Refuses item quantity idempotencyKey w status fields)
    (authorized : status ≠ 401 ∧ status ≠ 403) (final : status ∉ retryableStatus) :
    (∃ error, (adapter.purchase item quantity idempotencyKey w).1 = .error error ∧
        error.class_ = prescribed (adapter.refusalCode fields)) ↔
      status ∈ [200, 201, 202] ∨ terminalCodes.lookup (adapter.refusalCode fields) = none := by
  unfold purchase accept
  rw [if_pos admissible]
  rcases refuses.result authorized final with
    ⟨expected, text, loaded, result⟩ | ⟨unexpected, e, kind, result⟩
  · obtain ⟨error, unwrapped, class_⟩ := adapter.unwrap_refused refuses.refused
      ("POST " ++ (orderOf item quantity).1)
    refine ⟨fun _ => .inl expected, fun _ => ⟨error, ?_, class_⟩⟩
    simp only [result, Option.map_some, loaded, unwrapped]
  · have raised : (SupplierError.exn (.api e)).class_ = .apiError := by
      simp only [SupplierError.class_, kind]
    simp only [result, Except.error.injEq]
    rw [← prescribed_eq_apiError]
    constructor
    · intro found
      obtain ⟨error, rfl, class_⟩ := found
      exact .inr (class_.symm.trans raised)
    · intro either
      exact ⟨_, rfl, raised.trans (either.resolve_left unexpected).symm⟩

/-! ## An order that is out of stock -/

/-- The body of a refusal. -/
def notEnough : List (String × Json) :=
  [("ok", .bool false), ("error", .string "not enough stock"), ("code", .string "OUT_OF_STOCK")]

/-- A supplier that answers every order alike. -/
def answering (status : ℕ) : FazerCardsAdapter Unit where
  unicode := .ascii
  retry := .default
  apiKey := some "fc_test"
  loads _ := .object notEnough
  strOther _ := ""
  decimal _ := none
  reasonPhrase _ := ""
  acquire := id
  send _ _ w := (.response ⟨status, .json "", none⟩, w)
  draw w := (0, w)
  sleep _ := id

def card : SupplierItem where
  kind := .giftCard
  categoryExtId := "1"
  offerExtId := "7"
  name := "Roblox 350 HKD".toList
  price := 40
  stock := 3

/-- The answer to the order of one card. -/
def answered (status : ℕ) : Exchange where
  sent := ⟨.post, "/api/v2/giftcards/order",
    [("X-API-Key", "fc_test"), ("Accept", "application/json"), ("Idempotency-Key", "k1")]⟩
  outcome := .response ⟨status, .json "", none⟩

/-- With status 200 the code decides. -/
theorem refused_with_200 :
    (∃ error, ((answering 200).purchase card 1 "k1" ()).1 = .error error ∧
        error.class_ = prescribed ((answering 200).refusalCode notEnough)) ↔
      200 ∈ [200, 201, 202] ∨
        terminalCodes.lookup ((answering 200).refusalCode notEnough) = none := by
  have last : ((answering 200).order card 1 "k1" ()).exchanges.getLast? = some (answered 200) := by
    decide +kernel
  exact purchase_refused_iff (by decide) ⟨⟨_, _, _, last, rfl⟩, rfl⟩ (by decide) (by decide)

/-- With status 409 the order is out of stock, and an `ApiError` is raised. -/
theorem refused_with_409 :
    Admissible card 1 ∧ (answering 409).Refuses card 1 "k1" () 409 notEnough ∧
    409 ≠ 401 ∧ 409 ≠ 403 ∧ 409 ∉ retryableStatus ∧
    prescribed ((answering 409).refusalCode notEnough) = .outOfStock ∧
    ((answering 409).purchase card 1 "k1" ()).1 =
      .error (.exn (.api ⟨.apiError, "POST /api/v2/giftcards/order: not enough stock [OUT_OF_STOCK]",
        "fazercards", some 409⟩)) := by
  have last : ((answering 409).order card 1 "k1" ()).exchanges.getLast? = some (answered 409) := by
    decide +kernel
  exact ⟨by decide, ⟨⟨_, _, _, last, rfl⟩, rfl⟩, by decide, by decide, by decide,
    by decide +kernel, by decide +kernel⟩

end FazerCardsAdapter

end FazerBridge
