import FazerBridge.Lib.Revocation
import FazerBridge.Lib.Runs
import FazerBridge.Service

/-!
# Rejected pairs

What a reviewer rejected is remembered in the mapping row alone: its status is
`REJECTED` and its store product is the refused one.  The engine leaves such a row
as it is (`matchOne_rejected`), and `find_candidates` skips its product.  Only
`approve` writes over it; as long as it does not move a rejected mapping to another
product, every rejected pair stays out of the suggestions.
-/

namespace FazerBridge

/-! ## Decisions -/

/-- A decision of a reviewer about a supplier product and a store product. -/
inductive Decision
  | rejected (supplierProductId storeProductId : ℕ)
  | approved (supplierProductId storeProductId : ℕ)

/-- What the decisions say about the pairs. -/
def decisions : Revocation Decision (ℕ × ℕ) where
  revokes decision pair := decision = .rejected pair.1 pair.2
  renews decision pair := decision = .approved pair.1 pair.2

/-- The pairs that stay rejected are rejected in the database. -/
def Remembered (db : Db) (log : List Decision) : Prop :=
  ∀ s g, decisions.Revoked log (s, g) → g ∈ db.rejectedPairs s

theorem Db.mem_rejectedPairs {db : Db} {s g : ℕ} : g ∈ db.rejectedPairs s ↔
    ∃ m ∈ db.mappings.rows, m.supplierProductId = s ∧ m.status = .rejected ∧
      m.storeProductId = some g := by
  simp [Db.rejectedPairs, List.mem_filterMap, and_assoc]

/-! ## The engine -/

namespace MatchingEngine

variable {engine : MatchingEngine} {db : Db} {claimed : List ℕ} {s : SupplierProduct}
  {progress progress' : Progress} {k g : ℕ}

/-- A suggestion is never a pair the database has as rejected. -/
theorem findCandidates_not_rejected {c : Candidate} (mem : c ∈ engine.findCandidates db claimed s) :
    c.storeProductId ∉ db.rejectedPairs s.id := by
  have scored := Ranking.mem_rank.mp (List.mem_of_mem_take mem)
  obtain ⟨p, eligible, rfl⟩ := mem_scored.mp scored
  exact (isVisible_iff.mp (mem_eligible.mp eligible).2.1).1

/-- Matching a product keeps the rejections of every product. -/
theorem matchOne_rejected (matched : engine.matchOne progress s = .ok progress')
    (mem : g ∈ progress.db.rejectedPairs k) : g ∈ progress'.db.rejectedPairs k := by
  obtain ⟨m, row, own, status, pair⟩ := Db.mem_rejectedPairs.mp mem
  refine Db.mem_rejectedPairs.mpr ⟨m, ?_, own, status, pair⟩
  obtain ⟨-, same, -⟩ | ⟨machine, ⟨mappings, flushed, same⟩, -⟩ := apply_cases (matchOne_cases matched)
  · rw [same]
    exact row
  · rw [same]
    have rows : mappings.rows = _ := congrArg Table.rows (ProductMappings.flush_eq_ok flushed)
    change m ∈ mappings.rows
    rw [rows, Table.mem_save]
    refine .inr ⟨row, fun written => ?_⟩
    -- The row of `s` is a human decision when it is the rejected one.
    have existing := Db.existingMapping_eq_some_iff.mpr ⟨row, (targetRow_keyed row).mp written⟩
    rw [Db.isHumanDecision, existing, Option.any_some, status] at machine
    simp at machine

theorem matchAll_rejected {products : List SupplierProduct}
    (matched : engine.matchAll products progress = .ok progress')
    (mem : g ∈ progress.db.rejectedPairs k) : g ∈ progress'.db.rejectedPairs k := by
  induction products generalizing progress with
  | nil =>
      cases matched
      exact mem
  | cons s rest ih =>
      rw [matchAll] at matched
      split at matched
      · rename_i first
        exact ih matched (matchOne_rejected first mem)
      · cases matched

theorem run_rejected {onlyUnmapped : Bool} {count : Option ℕ} {out : Db × Counters}
    (run : engine.run db onlyUnmapped count = .ok out) (mem : g ∈ db.rejectedPairs k) :
    g ∈ out.1.rejectedPairs k := by
  unfold MatchingEngine.run at run
  split at run
  · rename_i matched
    cases run
    exact matchAll_rejected matched mem
  · cases run

end MatchingEngine

/-! ## The reviewer -/

section

variable {db db' : Db} {mappingId : ℕ} {target : Option ℕ} {reviewedBy : String}
  {note : Option String}

theorem writeReview_rows {row : ProductMapping} (written : writeReview db row = .ok db') :
    db'.mappings.rows = (db.mappings.table.save row).rows := by
  unfold writeReview at written
  split at written
  · rename_i wrote
    cases written
    obtain ⟨mappings, flushed, rfl⟩ := Db.writeMapping_eq_ok wrote
    exact congrArg Table.rows (ProductMappings.flush_eq_ok flushed)
  · cases written

/-- A reviewed row goes over the row it was made from. -/
structure Reviews (db db' : Db) (m row : ProductMapping) : Prop where
  mem : m ∈ db.mappings.rows
  id : row.id = m.id
  supplierProductId : row.supplierProductId = m.supplierProductId
  rows : db'.mappings.rows = (db.mappings.table.save row).rows

theorem approve_cases (approved : approve db mappingId target reviewedBy note = .ok db') :
    ∃ m row g, db.mappings.table.find? mappingId = some m ∧ Reviews db db' m row ∧
      row.status = .approved ∧ row.storeProductId = some g ∧
      target.or m.storeProductId = some g := by
  unfold approve at approved
  cases found : db.mappings.table.find? mappingId with
  | none => rw [found] at approved; cases approved
  | some m =>
      rw [found] at approved
      have mem := (Table.find?_eq_some_iff.mp found).1
      cases target with
      | some g =>
          dsimp only at approved
          split at approved
          · cases approved
          · have written := writeReview_rows approved
            refine ⟨m, _, g, rfl, ⟨mem, ?_, ?_, written⟩, ?_, ?_, ?_⟩ <;> rfl
      | none =>
          dsimp only at approved
          split at approved
          · cases approved
          · rename_i some_
            obtain ⟨g, pair⟩ := Option.ne_none_iff_exists'.mp some_
            have written := writeReview_rows approved
            refine ⟨m, _, g, rfl, ⟨mem, ?_, ?_, written⟩, ?_, pair, pair⟩ <;> rfl

theorem reject_cases (rejected : reject db mappingId reviewedBy note = .ok db') :
    ∃ m row, db.mappings.table.find? mappingId = some m ∧ Reviews db db' m row ∧
      row.status = .rejected ∧ row.storeProductId = m.storeProductId := by
  unfold reject at rejected
  cases found : db.mappings.table.find? mappingId with
  | none => rw [found] at rejected; cases rejected
  | some m =>
      rw [found] at rejected
      have mem := (Table.find?_eq_some_iff.mp found).1
      have written := writeReview_rows rejected
      refine ⟨m, _, rfl, ⟨mem, ?_, ?_, written⟩, ?_, ?_⟩ <;> rfl

/-- A review keeps the rejections of the other rows. -/
theorem Reviews.rejected {m row : ProductMapping} {s g : ℕ} (reviews : Reviews db db' m row)
    (mem : g ∈ db.rejectedPairs s)
    (own : m.status = .rejected → m.supplierProductId = s → m.storeProductId = some g →
      row.status = .rejected ∧ row.storeProductId = some g) :
    g ∈ db'.rejectedPairs s := by
  obtain ⟨n, there, supplier, status, pair⟩ := Db.mem_rejectedPairs.mp mem
  rw [Db.mem_rejectedPairs, reviews.rows]
  by_cases same : n.id = row.id
  · have both : n = m := db.mappings.eq_of_id there reviews.mem (same.trans reviews.id)
    subst both
    obtain ⟨status', pair'⟩ := own status supplier pair
    exact ⟨row, Table.mem_save.mpr (.inl rfl), reviews.supplierProductId.trans supplier, status',
      pair'⟩
  · exact ⟨n, Table.mem_save.mpr (.inr ⟨there, same⟩), supplier, status, pair⟩

end

/-! ## Every run of calls -/

/-- The database with the decisions made so far, oldest first. -/
structure Reviewed where
  db : Db
  log : List Decision

inductive ReviewAction
  | run (engine : MatchingEngine) (onlyUnmapped : Bool) (count : Option ℕ)
  | approve (mappingId : ℕ) (storeProductId : Option ℕ) (reviewedBy : String)
      (note : Option String)
  | reject (mappingId : ℕ) (reviewedBy : String) (note : Option String)
  /-- a service that leaves the mappings alone -/
  | elsewhere

/-- One call in its session; one that raises is rolled back. -/
inductive ReviewStep (s : Reviewed) : ReviewAction → Reviewed → Prop
  | run {engine onlyUnmapped count out} (returned : engine.run s.db onlyUnmapped count = .ok out) :
      ReviewStep s (.run engine onlyUnmapped count) ⟨out.1, s.log⟩
  | approve {mappingId storeProductId reviewedBy note m g db'}
      (row : s.db.mappings.table.find? mappingId = some m)
      (pair : storeProductId.or m.storeProductId = some g)
      (returned : approve s.db mappingId storeProductId reviewedBy note = .ok db') :
      ReviewStep s (.approve mappingId storeProductId reviewedBy note)
        ⟨db', s.log ++ [.approved m.supplierProductId g]⟩
  | reject {mappingId reviewedBy note m db'}
      (row : s.db.mappings.table.find? mappingId = some m)
      (returned : reject s.db mappingId reviewedBy note = .ok db') :
      ReviewStep s (.reject mappingId reviewedBy note)
        ⟨db', s.log ++ (m.storeProductId.map (Decision.rejected m.supplierProductId)).toList⟩
  | elsewhere {db'} (same : db'.mappings = s.db.mappings) :
      ReviewStep s .elsewhere ⟨db', s.log⟩
  | raised {action} : ReviewStep s action s

/-- No approval moves a rejected mapping off the product it was rejected with. -/
def KeepsRejected (s : Reviewed) : ReviewAction → Prop
  | .approve mappingId (some target) _ _ =>
    ∀ m ∈ s.db.mappings.rows, m.id = mappingId → m.status = .rejected →
      ∀ g, m.storeProductId = some g → target = g
  | _ => True

/-- The invariant of a run. -/
def Reviewed.Remembers (s : Reviewed) : Prop := Remembered s.db s.log

theorem Reviewed.Remembers.step (s : Reviewed) (action : ReviewAction) (s' : Reviewed)
    (remembered : s.Remembers) (keeps : KeepsRejected s action) (step : ReviewStep s action s') :
    s'.Remembers := by
  intro k g revoked
  cases step with
  | run returned => exact MatchingEngine.run_rejected returned (remembered k g revoked)
  | @approve mappingId target reviewedBy note m pair db' row paired returned =>
      obtain ⟨m', written, g', row', reviews, -, -, paired'⟩ := approve_cases returned
      cases row.symm.trans row'
      rcases decisions.revoked_concat.mp revoked with ⟨⟨⟩⟩ | ⟨revoked, notRenewed⟩
      refine reviews.rejected (remembered k g revoked) fun status supplier current => ?_
      refine absurd ?_ notRenewed
      change Decision.approved m.supplierProductId pair = .approved k g
      rw [supplier]
      congr 1
      cases target with
      | none => exact Option.some.inj (paired.symm.trans current)
      | some target =>
          cases paired
          exact keeps m reviews.mem (Table.find?_eq_some_iff.mp row).2 status g current
  | @reject mappingId reviewedBy note m db' row returned =>
      obtain ⟨m', written, row', reviews, status', pair'⟩ := reject_cases returned
      cases row.symm.trans row'
      have kept : decisions.Revoked s.log (k, g) → g ∈ db'.rejectedPairs k := fun revoked =>
        reviews.rejected (remembered k g revoked) fun _ _ current => ⟨status', pair'.trans current⟩
      cases current : m.storeProductId with
      | none =>
          rw [current, Option.map_none, Option.toList_none, List.append_nil] at revoked
          exact kept revoked
      | some target =>
          rw [current, Option.map_some, Option.toList_some] at revoked
          rcases decisions.revoked_concat.mp revoked with ⟨⟨⟩⟩ | ⟨revoked, -⟩
          · rw [Db.mem_rejectedPairs, reviews.rows]
            exact ⟨written, Table.mem_save.mpr (.inl rfl), reviews.supplierProductId, status',
              pair'.trans current⟩
          · exact kept revoked
  | @elsewhere db' same =>
      change g ∈ (db'.rejectedPairs k)
      unfold Db.rejectedPairs
      rw [same]
      exact remembered k g revoked
  | raised => exact remembered k g revoked

/-- `find_candidates` returns no pair that stays rejected, whatever the claim cache. -/
def NeverSuggests (db : Db) (log : List Decision) : Prop :=
  ∀ (engine : MatchingEngine) (claimed : List ℕ) (s : SupplierProduct),
    ∀ c ∈ engine.findCandidates db claimed s, ¬ decisions.Revoked log (s.id, c.storeProductId)

theorem Remembered.neverSuggests {db : Db} {log : List Decision} (remembered : Remembered db log) :
    NeverSuggests db log := fun _ _ s c mem revoked =>
  MatchingEngine.findCandidates_not_rejected mem (remembered s.id c.storeProductId revoked)

theorem Remembered.alongRun {log : List Decision} {engine : MatchingEngine}
    {products : List SupplierProduct} {progress : MatchingEngine.Progress}
    (remembered : Remembered progress.db log) :
    engine.AlongRun (fun progress _ => NeverSuggests progress.db log) products progress := by
  induction products generalizing progress with
  | nil => trivial
  | cons s rest ih =>
      refine ⟨remembered.neverSuggests, fun progress' matched => ih fun k g revoked => ?_⟩
      exact MatchingEngine.matchOne_rejected matched (remembered k g revoked)

/-- Where no approval moves a rejected mapping to another product, no rejected pair is
suggested again before it is approved, neither between two calls nor within a run. -/
theorem rejected_not_suggested {db : Db} {s : Reviewed}
    (calls : Relation.ReflTransGen (Runs.Allowed ReviewStep KeepsRejected) ⟨db, []⟩ s) :
    NeverSuggests s.db s.log ∧ ∀ (engine : MatchingEngine) onlyUnmapped count,
      engine.AlongRun (fun progress _ => NeverSuggests progress.db s.log)
        (MatchingEngine.selected s.db onlyUnmapped count) (engine.start s.db) := by
  have start : (⟨db, []⟩ : Reviewed).Remembers :=
    fun _ _ revoked => absurd revoked decisions.not_revoked_nil
  have remembered : Remembered s.db s.log := Runs.invariant Reviewed.Remembers.step calls start
  exact ⟨remembered.neverSuggests, fun engine _ _ => Remembered.alongRun remembered⟩

/-! ## A pair that comes back -/

namespace EchoStore

/-- A store product in the bucket of the supplier products. -/
def bucketed (id : ℕ) : StoreProduct := { storeProduct id none with matchKey := "||".toList }

def bucket : Db :=
  { db with storeProducts := ⟨⟨[bucketed 1, bucketed 2, bucketed 3], by decide⟩, by decide⟩ }

/-- The first mapping rejected. -/
def refused : Db := (reject bucket 1 "operator" none).toOption.getD bucket

/-- The mapping then approved with the third store product. -/
def moved : Db := (approve refused 1 (some 3) "operator" none).toOption.getD refused

theorem refuses : reject bucket 1 "operator" none = .ok refused :=
  eq_ok_getD (by decide +kernel)

theorem moves : approve refused 1 (some 3) "operator" none = .ok moved :=
  eq_ok_getD (by decide +kernel)

theorem refused_row : (refused.mappings.table.find? 1).map ProductMapping.supplierProductId =
    some 1 := by decide +kernel

/-- The first store product is among the suggestions for the first supplier product. -/
theorem moved_suggests : ∃ s ∈ moved.supplierProducts.rows, s.id = 1 ∧
    ∃ c ∈ sampleEngine.findCandidates moved (sampleEngine.claimedStoreProducts moved) s,
      c.storeProductId = 1 := by decide +kernel

attribute [irreducible] refused moved

/-- After the rejection alone the pair is gone from the suggestions. -/
theorem refused_reached : Relation.ReflTransGen (Runs.Allowed ReviewStep KeepsRejected)
    ⟨bucket, []⟩ ⟨refused, [.rejected 1 1]⟩ := by
  have row : bucket.mappings.table.find? 1 = some (mapping 1) := by decide +kernel
  have step := ReviewStep.reject (s := ⟨bucket, []⟩) row refuses
  exact .single ⟨.reject 1 "operator" none, trivial, step⟩

theorem rejected_not_suggested_refused : NeverSuggests refused [.rejected 1 1] ∧
    ∀ (engine : MatchingEngine) onlyUnmapped count,
      engine.AlongRun (fun progress _ => NeverSuggests progress.db [.rejected 1 1])
        (MatchingEngine.selected refused onlyUnmapped count) (engine.start refused) :=
  rejected_not_suggested refused_reached

/-- Rejected, then approved with another store product: the rejected pair is suggested
again, though nobody approved it. -/
theorem rejected_suggested : ¬ ∀ s, Relation.ReflTransGen
    (Runs.Allowed ReviewStep fun _ _ => True) ⟨bucket, []⟩ s → NeverSuggests s.db s.log := by
  obtain ⟨m, row, supplier⟩ := Option.map_eq_some_iff.mp refused_row
  have step : ReviewStep ⟨refused, [.rejected 1 1]⟩ (.approve 1 (some 3) "operator" none)
      ⟨moved, [.rejected 1 1, .approved m.supplierProductId 3]⟩ := .approve row rfl moves
  rw [supplier] at step
  have first : Relation.ReflTransGen (Runs.Allowed ReviewStep fun _ _ => True) ⟨bucket, []⟩
      ⟨refused, [.rejected 1 1]⟩ :=
    Relation.ReflTransGen.mono (fun _ _ ⟨action, _, taken⟩ => ⟨action, trivial, taken⟩) _ _
      refused_reached
  refine Runs.not_invariant (P := fun s : Reviewed => NeverSuggests s.db s.log)
    (first.tail ⟨_, trivial, step⟩) fun never => ?_
  obtain ⟨s, -, id, c, mem, target⟩ := moved_suggests
  refine never sampleEngine _ s c mem ?_
  rw [id, target]
  exact ⟨[], .rejected 1 1, [.approved 1 3], rfl, rfl, by rintro x (_ | ⟨_, ⟨⟩⟩) ⟨⟩⟩

end EchoStore

end FazerBridge
