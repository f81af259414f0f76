import FazerBridge.Lib.Ranking
import FazerBridge.Models

/-!
# Matching supplier products to store products

`app/services/matching.py`: hard gates, then a score, then a decision.  The
engine reads the mirrored store catalogue and the mapping table, and caches the
store products that are already claimed; the cache lives as long as the engine
and is the list `claimed` here.

`SequenceMatcher.ratio` and the order a token set is enumerated in are fields of
the engine; `Difflib.ratio` is the standard library's ratio.  Scores are exact
rationals.
-/

namespace FazerBridge

open Text

/-! ## Scoring -/

def wTokenOverlap : ℚ := 55 / 100
def wSequence : ℚ := 30 / 100
def wRegion : ℚ := 10 / 100
def wPlatform : ℚ := 5 / 100

def jaccard (a b : List Text) : ℚ :=
  if a.isEmpty || b.isEmpty then 0
  else
    let common := a.filter (· ∈ b)
    let onlyRight := b.filter (· ∉ a)
    (common.length : ℚ) / (a.length + onlyRight.length : ℕ)

/-- True when two face values cannot be the same product: two stated amounts
that differ, or two stated currencies that differ. -/
def denominationsConflict (left right : Option Denomination) : Bool :=
  match left, right with
  | some (amountL, currencyL), some (amountR, currencyR) =>
    (floatDistance amountL amountR).any (fun distance => toFloat (1 / 1000) < distance) ||
      match truthy currencyL, truthy currencyR with
      | some l, some r => l ≠ r
      | _, _ => false
  | _, _ => false

/-- Two stated values that differ. -/
def statedMismatch (left right : Option Text) : Bool :=
  match truthy left, truthy right with
  | some l, some r => l ≠ r
  | _, _ => false

/-- Two stated values that agree. -/
def statedMatch (left right : Option Text) : Bool :=
  match truthy left, truthy right with
  | some l, some r => l = r
  | _, _ => false

def unstated (left right : Option Text) : Bool :=
  (truthy left).isNone || (truthy right).isNone

def globalRegion : Text := "GLOBAL".toList

def regionMismatch (left right : Option Text) : Bool :=
  statedMismatch left right && left ≠ some globalRegion && right ≠ some globalRegion

def mismatchReason (what : String) (left right : Option Text) : Text :=
  what.toList ++ " mismatch ".toList ++ left.getD [] ++ " vs ".toList ++ right.getD []

/-- Similarity of a pair and the reasons behind it; 0 means a hard gate rejected
the pair outright. -/
def scorePair (ratio : Text → Text → ℚ) (supplier store : TitleParts) : ℚ × List Text :=
  if denominationsConflict supplier.denomination store.denomination then
    (0, ["denomination mismatch".toList])
  else if regionMismatch supplier.region store.region then
    (0, [mismatchReason "region" supplier.region store.region])
  else if statedMismatch supplier.platform store.platform then
    (0, [mismatchReason "platform" supplier.platform store.platform])
  else if statedMismatch supplier.edition store.edition then
    (0, [mismatchReason "edition" supplier.edition store.edition])
  else
    let tokenOverlap := jaccard supplier.tokens store.tokens
    let sequence := ratio supplier.core store.core
    let regionScore : ℚ :=
      if statedMatch supplier.region store.region then 1
      else if unstated supplier.region store.region then 1 / 2
      else 6 / 10
    let platformScore : ℚ :=
      if statedMatch supplier.platform store.platform then 1
      else if unstated supplier.platform store.platform then 1 / 2
      else 0
    let score := wTokenOverlap * tokenOverlap + wSequence * sequence + wRegion * regionScore +
      wPlatform * platformScore
    let reasons :=
      (if statedMatch supplier.region store.region then
        ["region ".toList ++ supplier.region.getD []] else []) ++
      (if statedMatch supplier.platform store.platform then
        ["platform ".toList ++ supplier.platform.getD []] else []) ++
      (match supplier.denomination, store.denomination with
        | some l, some r =>
          if (floatDistance l.1 r.1).any (fun distance => distance ≤ toFloat (1 / 1000)) then
            ["denomination ".toList ++ formatG l.1]
          else []
        | _, _ => []) ++
      ["tokens ".toList ++ formatFixed 2 tokenOverlap, "text ".toList ++ formatFixed 2 sequence]
    (min 1 score, reasons)

/-! ## The engine -/

/-- What a `MatchingEngine` is built with. -/
structure MatchingEngine where
  settings : Settings
  storeCode : String
  unicode : Unicode
  /-- `SequenceMatcher(None, a, b).ratio()` -/
  ratio : Text → Text → ℚ
  /-- the order this process lists a set of words in -/
  enumerate : List Text → List Text

structure MatchOutcome where
  supplierProductId : ℕ
  status : MappingStatus
  best : Option Candidate
  candidates : List Candidate
  method : String

/-- The statuses whose store product is claimed. -/
def claimingStatuses : List MappingStatus := [.auto, .approved, .pending]

/-- SQL `LIKE`. -/
def sqlLike : Text → Text → Bool
  | [], s => s.isEmpty
  | c :: pattern, s =>
    if c = '%' then s.tails.any (sqlLike pattern)
    else match s with
      | [] => false
      | d :: rest => (c = '_' || c = d) && sqlLike pattern rest

/-- `found[row.id] = row` for each row: a known id keeps its place. -/
def recordFound (found rows : List StoreProduct) : List StoreProduct :=
  rows.foldl (fun found row =>
    if found.any (·.id = row.id) then found.map fun r => if r.id = row.id then row else r
    else found ++ [row]) found

namespace Db

variable (db : Db)

/-- Store products a human already rejected for this SKU. -/
def rejectedPairs (supplierProductId : ℕ) : List ℕ :=
  (db.mappings.rows.filter fun m =>
    m.supplierProductId = supplierProductId ∧ m.status = .rejected).filterMap
      ProductMapping.storeProductId

/-- The mapping of a supplier product, looked up by key. -/
def existingMapping (supplierProductId : ℕ) : Option ProductMapping :=
  db.mappings.rows.find? fun m => m.supplierProductId = supplierProductId

/-- Not rejected for `s`, and not claimed unless `s` itself holds it. -/
def isVisible (claimed : List ℕ) (s : SupplierProduct) (p : StoreProduct) : Bool :=
  decide (p.id ∉ db.rejectedPairs s.id) &&
    decide (p.id ∉ claimed ∨
      (db.existingMapping s.id).bind ProductMapping.storeProductId = some p.id)

/-- True of a mapping a human decided. -/
def isHumanDecision (s : SupplierProduct) : Bool :=
  (db.existingMapping s.id).any fun m => m.status = .approved ∨ m.status = .rejected

/-- Flush one written mapping row: its store product must exist, and the unique
constraints must hold. -/
def writeMapping (mapping : ProductMapping) : Except DbError Db :=
  if mapping.storeProductId.any fun g => (db.storeProducts.find? g).isNone then
    .error .integrityError
  else
    match ProductMappings.flush (db.mappings.table.save mapping) with
    | .ok mappings => .ok { db with mappings := mappings }
    | .error e => .error e

end Db

namespace MatchingEngine

variable (engine : MatchingEngine)

/-- Store products already owned by a mapping. -/
def claimedStoreProducts (db : Db) : List ℕ :=
  (db.mappings.rows.filter fun m =>
    m.storeCode = engine.storeCode ∧ m.status ∈ claimingStatuses).filterMap
      ProductMapping.storeProductId

/-- The rows of the first anchors, until 400 are found. -/
def anchoredProducts (rows : List StoreProduct) : List Text → List StoreProduct → List StoreProduct
  | [], found => found
  | anchor :: anchors, found =>
    let hits := (rows.filter fun p => sqlLike ('%' :: anchor ++ ['%']) p.nameNormalized).take 400
    let found := recordFound found hits
    if 400 ≤ found.length then found else anchoredProducts rows anchors found

/-- Cheap pre-filter before the scoring: the exact bucket; if that is empty, the
products sharing a distinctive token. -/
def shortlist (db : Db) (parts : TitleParts) : List StoreProduct :=
  let rows := db.storeProducts.rows.filter fun p => p.storeCode = engine.storeCode
  let exact := rows.filter fun p => p.matchKey = parts.matchKey
  if exact.isEmpty then
    anchoredProducts rows ((parts.anchors engine.enumerate).take 3) []
  else exact

def supplierParts (row : SupplierProduct) : TitleParts :=
  parseTitleWith engine.unicode row.name row.region row.platform

def storeParts (row : StoreProduct) : TitleParts :=
  parseTitleWith engine.unicode row.name row.region row.platform

/-- The score of a store product for a supplier product, with its reasons. -/
def scoreOf (s : SupplierProduct) (p : StoreProduct) : ℚ × List Text :=
  scorePair engine.ratio (engine.supplierParts s) (engine.storeParts p)

def candidateOf (s : SupplierProduct) (p : StoreProduct) : Candidate where
  storeProductId := p.id
  productExtId := p.productExtId
  name := p.name
  score := (engine.scoreOf s p).1
  reasons := (engine.scoreOf s p).2

/-- The shortlisted products `s` may be mapped to: visible, and past the gates. -/
def eligible (db : Db) (claimed : List ℕ) (s : SupplierProduct) : List StoreProduct :=
  (engine.shortlist db (engine.supplierParts s)).filter fun p =>
    db.isVisible claimed s p && decide (0 < (engine.scoreOf s p).1)

def findCandidates (db : Db) (claimed : List ℕ) (s : SupplierProduct) : List Candidate :=
  (Ranking.rank Candidate.score
    ((engine.eligible db claimed s).map (engine.candidateOf s))).take
      engine.settings.matchMaxCandidates

/-- The status a list of candidates, best first, earns. -/
def decideStatus (candidates : List Candidate) : MappingStatus :=
  match candidates with
  | [] => .unmatched
  | best :: others =>
    if best.score < engine.settings.matchReviewScore then .unmatched
    else if engine.settings.matchAutoAcceptScore ≤ best.score then
      -- A near-tie is not a certainty, even at a high score.
      match others with
      | [] => .auto
      | second :: _ => if best.score - 2 / 100 ≤ second.score then .pending else .auto
    else .pending

def evaluate (db : Db) (claimed : List ℕ) (s : SupplierProduct) : MatchOutcome :=
  let candidates := engine.findCandidates db claimed s
  { supplierProductId := s.id
    status := engine.decideStatus candidates
    best := candidates.head?
    candidates := candidates
    method := "auto-title-v1" }

/-- A mapping row as `apply` inserts it, before the outcome is written. -/
def newMapping (db : Db) (s : SupplierProduct) : ProductMapping where
  id := db.mappings.nextId
  supplierProductId := s.id
  storeCode := engine.storeCode
  storeProductId := none
  status := .pending
  score := none
  method := none
  candidates := []
  markupPercentOverride := none
  fixedPriceOverride := none
  syncEnabled := true
  reviewedBy := none
  note := none

/-- The row `apply` writes an outcome to: the existing one or a new one. -/
def targetRow (db : Db) (s : SupplierProduct) : ProductMapping :=
  (db.existingMapping s.id).getD (engine.newMapping db s)

/-- The stored form of a candidate: its score has four decimals. -/
def asJson (candidate : Candidate) : Candidate :=
  { candidate with
    score := (roundHalfEven (candidate.score.num.toNat * 10000) candidate.score.den : ℚ) / 10000 }

/-- A mapping row that carries an outcome. -/
def withOutcome (mapping : ProductMapping) (outcome : MatchOutcome) : ProductMapping :=
  { mapping with
    candidates := outcome.candidates.map asJson
    method := some outcome.method
    storeProductId := outcome.best.map Candidate.storeProductId
    score := outcome.best.map Candidate.score
    status := outcome.status }

/-- The claim cache after an outcome was written. -/
def claimOutcome (claimed : List ℕ) (outcome : MatchOutcome) : List ℕ :=
  match outcome.best with
  | some best =>
    if outcome.status = .auto ∨ outcome.status = .pending then
      claimed.insert best.storeProductId
    else claimed
  | none => claimed

/-- Write the outcome to the mapping table; a human decision is left as it is. -/
def apply (db : Db) (claimed : List ℕ) (s : SupplierProduct) (outcome : MatchOutcome) :
    Except DbError (Db × List ℕ) :=
  if db.isHumanDecision s then .ok (db, claimed)
  else
    match db.writeMapping (withOutcome (engine.targetRow db s) outcome) with
    | .ok db => .ok (db, claimOutcome claimed outcome)
    | .error e => .error e

/-- The counters `run` returns. -/
structure Counters where
  examined : ℕ
  auto : ℕ
  pending : ℕ
  unmatched : ℕ
  deriving DecidableEq, Repr

def Counters.count (counters : Counters) (status : MappingStatus) : Counters :=
  let counters := { counters with examined := counters.examined + 1 }
  match status with
  | .auto => { counters with auto := counters.auto + 1 }
  | .pending => { counters with pending := counters.pending + 1 }
  | _ => { counters with unmatched := counters.unmatched + 1 }

/-- A run in progress: the session's database, the claim cache, the counters. -/
structure Progress where
  db : Db
  claimed : List ℕ
  counters : Counters

/-- `evaluate` and `apply` one supplier product. -/
def matchOne (progress : Progress) (s : SupplierProduct) : Except DbError Progress :=
  let outcome := engine.evaluate progress.db progress.claimed s
  match engine.apply progress.db progress.claimed s outcome with
  | .ok (db, claimed) => .ok ⟨db, claimed, progress.counters.count outcome.status⟩
  | .error e => .error e

def matchAll : List SupplierProduct → Progress → Except DbError Progress
  | [], progress => .ok progress
  | s :: rest, progress =>
    match engine.matchOne progress s with
    | .ok progress => matchAll rest progress
    | .error e => .error e

/-- `stmt.limit(limit)` where `limit` is given and not zero. -/
def limited {α : Type} (limit : Option ℕ) (rows : List α) : List α :=
  match limit with
  | some (n + 1) => rows.take (n + 1)
  | _ => rows

/-- The supplier products a run examines, read once when it starts. -/
def selected (db : Db) (onlyUnmapped : Bool) (limit : Option ℕ) : List SupplierProduct :=
  limited limit <| db.supplierProducts.rows.filter fun s =>
    s.isActive && (!onlyUnmapped ||
      match db.existingMapping s.id with
      | none => true
      | some m => m.status = .unmatched ∨ m.status = .pending)

/-- The state a fresh engine starts a run in. -/
def start (db : Db) : Progress := ⟨db, engine.claimedStoreProducts db, ⟨0, 0, 0, 0⟩⟩

/-- Match every supplier product that needs it. -/
def run (db : Db) (onlyUnmapped : Bool) (limit : Option ℕ) : Except DbError (Db × Counters) :=
  match engine.matchAll (selected db onlyUnmapped limit) (engine.start db) with
  | .ok progress => .ok (progress.db, progress.counters)
  | .error e => .error e

end MatchingEngine

/-! ## Human decisions -/

/-- What `approve` and `reject` raise. -/
inductive ReviewError
  | lookupError (message : String)
  | valueError (message : String)
  | database (error : DbError)
  deriving DecidableEq, Repr

/-- Another mapping that keeps `approve` from taking `target`. -/
def findClash (db : Db) (mapping : ProductMapping) (target : ℕ) : Option ProductMapping :=
  db.mappings.rows.find? fun m =>
    m.storeCode = mapping.storeCode ∧ m.storeProductId = some target ∧ m.id ≠ mapping.id ∧
      (m.status = .auto ∨ m.status = .approved)

def reviewed (mapping : ProductMapping) (status : MappingStatus) (reviewedBy : String)
    (note : Option String) : ProductMapping :=
  { mapping with
    status := status
    reviewedBy := some reviewedBy
    note := if note.getD "" = "" then mapping.note else note }

/-- Flush a reviewed row. -/
def writeReview (db : Db) (mapping : ProductMapping) : Except ReviewError Db :=
  match db.writeMapping mapping with
  | .ok db => .ok db
  | .error e => .error (.database e)

/-- Confirm a mapping, optionally overriding which store product it points at. -/
def approve (db : Db) (mappingId : ℕ) (storeProductId : Option ℕ) (reviewedBy : String)
    (note : Option String) : Except ReviewError Db :=
  match db.mappings.table.find? mappingId with
  | none => .error (.lookupError s!"mapping {mappingId} not found")
  | some mapping =>
    match storeProductId with
    | some target =>
      match findClash db mapping target with
      | some clash => .error (.valueError
          s!"store product {target} is already mapped by mapping {clash.id}")
      | none =>
        writeReview db (reviewed { mapping with storeProductId := some target } .approved
          reviewedBy note)
    | none =>
      if mapping.storeProductId = none then
        .error (.valueError "cannot approve a mapping with no store product")
      else writeReview db (reviewed mapping .approved reviewedBy note)

/-- Reject a suggestion; the pair stays in the row. -/
def reject (db : Db) (mappingId : ℕ) (reviewedBy : String) (note : Option String) :
    Except ReviewError Db :=
  match db.mappings.table.find? mappingId with
  | none => .error (.lookupError s!"mapping {mappingId} not found")
  | some mapping => writeReview db (reviewed mapping .rejected reviewedBy note)

end FazerBridge
