import FazerBridge.Models

/-!
# The store adapter

The contract of `app/stores/base.py` and the errors of `app/http/client.py`.

An `Adapter` is a function on the state `W` of the world outside the database,
so what it answers may depend on everything that happened before.  Each call the
offer sync makes leaves an `Entry`; the entries survive a rollback, as the effects
on the store do.
-/

namespace FazerBridge

/-! ## Exceptions -/

inductive ApiErrorKind
  | apiError
  /-- 429 that survived every retry -/
  | rateLimitedError
  | authError
  deriving DecidableEq, Repr

/-- A call that failed in a way the caller has to deal with. -/
structure ApiError where
  kind : ApiErrorKind
  message : String
  service : String
  statusCode : Option ℕ
  deriving DecidableEq, Repr

/-- `str(exc)` -/
def ApiError.text (e : ApiError) : String :=
  "[" ++ e.service ++ "] " ++ e.message ++
    match e.statusCode with
    | none | some 0 => ""
    | some code => " (HTTP " ++ toString code ++ ")"

inductive PricingErrorKind
  | pricingError
  /-- the cached rate is too old, and no other one can be had -/
  | staleFxRate
  deriving DecidableEq, Repr

/-- A price that cannot be computed. -/
structure PricingError where
  kind : PricingErrorKind := .pricingError
  message : String
  deriving DecidableEq, Repr

/-- What can end a call of a service. -/
inductive Exn
  | api (error : ApiError)
  | pricing (error : PricingError)
  | database (error : DbError)
  /-- any other exception -/
  | other (message : String)
  deriving DecidableEq, Repr

/-- The text a failed run leaves in `sync_runs`. -/
def Exn.text : Exn → String
  | .api e =>
    (match e.kind with
      | .apiError => "ApiError: "
      | .rateLimitedError => "RateLimitedError: "
      | .authError => "AuthError: ") ++ e.text
  | .pricing error =>
    (match error.kind with
      | .pricingError => "PricingError: "
      | .staleFxRate => "StaleFxRate: ") ++ error.message
  | .database .integrityError => "IntegrityError: unique constraint"
  | .database (.operationalError message) => "OperationalError: " ++ message
  | .other message => message

/-! ## Answers -/

/-- Python's truth value of an optional identifier. -/
def truthyId (id : Option String) : Option String := id.filter fun s => s ≠ ""

theorem truthyId_eq_some_iff {id : Option String} {s : String} :
    truthyId id = some s ↔ id = some s ∧ s ≠ "" := by
  simp [truthyId, Option.filter_eq_some_iff]

/-- Stores accept writes asynchronously and hand back a job id. -/
structure JobResult where
  jobId : String
  status : String := "pending"
  resourceId : Option String := none
  errors : List String := []
  deriving DecidableEq, Repr

def JobResult.isFinished (job : JobResult) : Bool :=
  job.status ∈ ["complete", "failed", "error"]

def JobResult.succeeded (job : JobResult) : Bool :=
  job.status = "complete" && job.errors.isEmpty

/-- A success is an end. -/
theorem JobResult.isFinished_of_succeeded {job : JobResult} (succeeded : job.succeeded = true) :
    job.isFinished = true := by
  unfold JobResult.succeeded at succeeded
  unfold JobResult.isFinished
  simp_all

/-- The text of a job the store rejected. -/
def JobResult.failure (job : JobResult) : String :=
  let text := String.intercalate "; " job.errors
  if text = "" then "job " ++ job.status else text

/-- An offer as the store currently sees it. -/
structure StoreOfferView where
  offerExtId : String
  productExtId : String
  price : Option ℚ
  inventorySize : ℤ
  status : String
  deriving DecidableEq, Repr

def StoreOfferView.isActive (view : StoreOfferView) : Bool := view.status = "active"

/-! ## The adapter -/

structure Adapter (W : Type) where
  code : String
  listOffers : W → Except Exn (List StoreOfferView) × W
  offersForProduct : String → W → Except Exn (List StoreOfferView) × W
  createOffer : String → ℚ → ℤ → Bool → W → Except Exn JobResult × W
  updateOffer : String → Option ℚ → Option ℤ → Option Bool → W → Except Exn JobResult × W
  getJob : String → W → Except Exn JobResult × W

/-- A call of the adapter about one offer, with its answer. -/
inductive Call
  | createOffer (productExtId : String) (price : ℚ) (inventory : ℤ) (active : Bool)
      (answer : Except Exn JobResult)
  | updateOffer (offerExtId : String) (price : Option ℚ) (inventory : Option ℤ)
      (active : Option Bool) (answer : Except Exn JobResult)
  | getJob (jobId : String) (answer : Except Exn JobResult)
  | offersForProduct (productExtId : String) (answer : Except Exn (List StoreOfferView))

/-- Where in the offer sync a call is made. -/
inductive Phase
  /-- resolving a create of an earlier run -/
  | resolving
  /-- creating, and resolving that create -/
  | creating
  /-- adopting the offer the store already has -/
  | adopting
  | updating
  | reconciling
  deriving DecidableEq, Repr

/-- One call: where it was made, for which row as it then was, for the mapping's
product of that moment, and when. -/
structure Entry where
  phase : Phase
  row : StoreOffer
  target : String
  time : Time
  call : Call

/-- A create or update the store accepted. -/
def Call.accepted : Call → Bool
  | .createOffer _ _ _ _ (.ok _) => true
  | .updateOffer _ _ _ _ (.ok _) => true
  | _ => false

/-- An accepted call that set a price. -/
def Call.setsPrice : Call → Bool
  | .createOffer _ _ _ _ (.ok _) => true
  | .updateOffer _ price _ _ (.ok _) => price.isSome
  | _ => false

end FazerBridge
