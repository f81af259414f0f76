import FazerBridge.Matching.Rejections

/-!
# What an approval answers

`approve` looks for a clash among the AUTO and APPROVED mappings, and the unique
constraint covers every status.  A store product that a PENDING, UNMATCHED or REJECTED
mapping holds passes the check and fails the flush (`approve_answers_iff`).
-/

namespace FazerBridge

/-- The foreign key of `store_product_id`. -/
def Db.TargetsStored (db : Db) : Prop :=
  ∀ m ∈ db.mappings.rows, ∀ g, m.storeProductId = some g → (db.storeProducts.find? g).isSome

/-! ## The rows of the session -/

/-- `if store_product_id is not None`: the mapping with its new target. -/
def retarget (db : Db) (mapping : ProductMapping) (storeProductId : Option ℕ) :
    Except ReviewError ProductMapping :=
  match storeProductId with
  | none => .ok mapping
  | some target =>
    match findClash db mapping target with
    | some clash => .error (.valueError
        s!"store product {target} is already mapped by mapping {clash.id}")
    | none => .ok { mapping with storeProductId := some target }

/-- `approve`, with the rows of the session when it returns or raises. -/
def approveRows (db : Db) (mappingId : ℕ) (storeProductId : Option ℕ) (reviewedBy : String)
    (note : Option String) : Except ReviewError Unit × Table ProductMapping.id :=
  let rows := db.mappings.table
  match rows.find? mappingId with
  | none => (.error (.lookupError s!"mapping {mappingId} not found"), rows)
  | some mapping =>
    match retarget db mapping storeProductId with
    | .error e => (.error e, rows)
    | .ok mapping =>
      let rows := rows.save mapping
      if mapping.storeProductId = none then
        (.error (.valueError "cannot approve a mapping with no store product"), rows)
      else
        let mapping := reviewed mapping .approved reviewedBy note
        ((writeReview db mapping).map fun _ => (), rows.save mapping)

section

variable {db : Db} {mappingId : ℕ} {target : Option ℕ} {reviewedBy : String}
  {note : Option String} {m : ProductMapping}

/-- The rows of the session are those `approve` commits. -/
theorem approveRows_eq :
    (approveRows db mappingId target reviewedBy note).1 =
      (approve db mappingId target reviewedBy note).map fun _ => () := by
  unfold approveRows approve
  dsimp only
  cases db.mappings.table.find? mappingId with
  | none => rfl
  | some mapping =>
      cases target with
      | none =>
          dsimp only [retarget]
          split <;> rfl
      | some g =>
          dsimp only [retarget]
          cases findClash db mapping g <;> rfl

theorem approveRows_committed {db' : Db}
    (approved : approve db mappingId target reviewedBy note = .ok db') :
    (approveRows db mappingId target reviewedBy note).2 = db'.mappings.table := by
  unfold approve at approved
  unfold approveRows
  dsimp only
  cases found : db.mappings.table.find? mappingId with
  | none =>
      rw [found] at approved
      cases approved
  | some m =>
      have mem := (Table.find?_eq_some_iff.mp found).1
      rw [found] at approved
      cases target with
      | none =>
          dsimp only [retarget] at approved ⊢
          split at approved
          · cases approved
          · rw [if_neg ‹_›, Table.save_of_mem mem]
            exact (Table.eq_of_rows_eq (writeReview_rows approved)).symm
      | some g =>
          dsimp only [retarget] at approved ⊢
          cases clash : findClash db m g with
          | some c =>
              rw [clash] at approved
              cases approved
          | none =>
              rw [clash] at approved
              dsimp only
              rw [if_neg (by simp)]
              refine Eq.trans (Table.save_save mem ?_ ?_)
                (Table.eq_of_rows_eq (writeReview_rows approved)).symm
              · rfl
              · rfl

/-! ## Which approvals the constraint admits -/

/-- The mapping exists, and no other one of its store holds its target. -/
def Approvable (db : Db) (mappingId : ℕ) (target : Option ℕ) : Prop :=
  ∃ m g, db.mappings.table.find? mappingId = some m ∧ target.or m.storeProductId = some g ∧
    ∀ n ∈ db.mappings.rows, n.id ≠ m.id → n.storeCode = m.storeCode → n.storeProductId ≠ some g

/-- An answer to the request to approve a mapping: success on approvable ones alone, and
else an error of its own that leaves the rows as they are. -/
structure AnswersAsSaid (db : Db) (mappingId : ℕ) (target : Option ℕ)
    (answer : Except ReviewError Unit × Table ProductMapping.id) : Prop where
  succeeds : answer.1 = .ok () ↔ Approvable db mappingId target
  refuses : ¬ Approvable db mappingId target →
    ((∃ message, answer.1 = .error (.lookupError message)) ∨
      ∃ message, answer.1 = .error (.valueError message)) ∧ answer.2 = db.mappings.table

theorem findClash_eq_none_iff {g : ℕ} : findClash db m g = none ↔
    ∀ n ∈ db.mappings.rows, n.storeCode = m.storeCode → n.storeProductId = some g → n.id ≠ m.id →
      n.status ≠ .auto ∧ n.status ≠ .approved := by
  rw [findClash, List.find?_eq_none]
  constructor
  · intro free n mem store holds other
    have clear := free n mem
    simp only [store, holds, ne_eq, other, not_false_eq_true, true_and, decide_eq_true_eq,
      not_or] at clear
    exact clear
  · intro free n mem clash
    obtain ⟨store, holds, other, live⟩ := of_decide_eq_true clash
    obtain ⟨auto, approved⟩ := free n mem store holds other
    exact live.elim auto approved

/-- A review of a mapping with a target can be written if no other one of the store holds
it, and fails on the constraint else. -/
theorem writeReview_iff {row : ProductMapping} {g : ℕ} (mem : m ∈ db.mappings.rows)
    (id : row.id = m.id) (supplier : row.supplierProductId = m.supplierProductId)
    (code : row.storeCode = m.storeCode) (holds : row.storeProductId = some g)
    (stored : (db.storeProducts.find? g).isSome) :
    (writeReview db row).map (fun _ => ()) = .ok () ↔
      ∀ n ∈ db.mappings.rows, n.id ≠ m.id → n.storeCode = m.storeCode →
        n.storeProductId ≠ some g := by
  have keyed : ∀ n ∈ db.mappings.rows,
      n.id = row.id ↔ n.supplierProductId = row.supplierProductId := by
    intro n hn
    rw [id, supplier]
    constructor
    · intro same
      rw [db.mappings.eq_of_id hn mem same]
    · intro same
      rw [db.mappings.eq_of_supplier hn mem same]
  have written : (∃ out, ProductMappings.flush (db.mappings.table.save row) = .ok out) ↔
      ∀ n ∈ db.mappings.rows, n.id ≠ m.id → n.storeCode = m.storeCode →
        n.storeProductId ≠ some g := by
    rw [ProductMappings.flush_save_ok_iff _ keyed]
    refine forall₂_congr fun n _ => ?_
    rw [id]
    refine imp_congr_right fun _ => ?_
    simp only [SameTarget, code, holds]
    constructor
    · intro free store held
      exact free ⟨store, held, held ▸ nofun⟩
    · intro free clash
      exact free clash.1 clash.2.1
  rw [← written, writeReview, Db.writeMapping, holds, Option.any_some, if_neg (by
    rw [Option.isNone_iff_eq_none]
    exact Option.isSome_iff_ne_none.mp stored)]
  cases flushed : ProductMappings.flush (db.mappings.table.save row) with
  | ok out => exact iff_of_true rfl ⟨out, rfl⟩
  | error e =>
      refine iff_of_false (fun done => ?_) fun ⟨out, done⟩ => ?_
      · cases done
      · cases done

/-- Whoever else holds the given store product is AUTO or APPROVED. -/
def ClashesSeen (db : Db) (mappingId : ℕ) (target : Option ℕ) : Prop :=
  ∀ m, db.mappings.table.find? mappingId = some m → ∀ g, target = some g →
    ∀ n ∈ db.mappings.rows, n.id ≠ m.id → n.storeCode = m.storeCode →
      n.storeProductId = some g → n.status = .auto ∨ n.status = .approved

/-- An approval is refused before anything is written, or writes the row of a mapping to
which no clash was found. -/
inductive Approves (db : Db) (mappingId : ℕ) (target : Option ℕ) :
    Except ReviewError Unit × Table ProductMapping.id → Prop
  | refused {e} (own : (∃ message, e = .lookupError message) ∨ ∃ message, e = .valueError message)
      (barred : ¬ Approvable db mappingId target) (seen : ClashesSeen db mappingId target) :
      Approves db mappingId target (.error e, db.mappings.table)
  | written {m row g rows} (found : db.mappings.table.find? mappingId = some m)
      (id : row.id = m.id) (supplier : row.supplierProductId = m.supplierProductId)
      (code : row.storeCode = m.storeCode) (holds : row.storeProductId = some g)
      (aim : target.or m.storeProductId = some g)
      (clear : ∀ g', target = some g' → findClash db m g' = none) :
      Approves db mappingId target ((writeReview db row).map fun _ => (), rows)

theorem approveRows_cases :
    Approves db mappingId target (approveRows db mappingId target reviewedBy note) := by
  unfold approveRows
  dsimp only
  cases found : db.mappings.table.find? mappingId with
  | none =>
      refine .refused (.inl ⟨_, rfl⟩) ?_ ?_
      · intro found
        obtain ⟨m, _, held, -⟩ := found
        rw [found] at held
        cases held
      · intro m held
        rw [found] at held
        cases held
  | some m =>
      have mem := (Table.find?_eq_some_iff.mp found).1
      cases target with
      | none =>
          dsimp only [retarget]
          split
          · rename_i targetless
            rw [Table.save_of_mem mem]
            refine .refused (.inr ⟨_, rfl⟩) ?_ ?_
            · intro found
              obtain ⟨m', g, held, aim, -⟩ := found
              rw [found] at held
              cases held
              rw [Option.none_or, targetless] at aim
              cases aim
            · intro _ _ g given
              cases given
          · rename_i targeted
            obtain ⟨g, holds⟩ := Option.ne_none_iff_exists'.mp targeted
            refine .written found rfl rfl rfl holds holds fun g' given => ?_
            cases given
      | some g =>
          dsimp only [retarget]
          cases clash : findClash db m g with
          | some c =>
              have taken := List.find?_some (show db.mappings.rows.find? _ = some c from clash)
              obtain ⟨store, holds, other, live⟩ := of_decide_eq_true taken
              have stored := List.mem_of_find?_eq_some clash
              refine .refused (.inr ⟨_, rfl⟩) ?_ ?_
              · intro found
                obtain ⟨m', g', held, aim, free⟩ := found
                rw [found] at held
                cases held
                cases aim
                exact free c stored other store holds
              · intro m' held g' given n mem' _ store' holds'
                rw [found] at held
                cases held
                cases given
                rw [db.mappings.eq_of_sameTarget mem' stored
                  ⟨store'.trans store.symm, holds'.trans holds.symm, holds' ▸ nofun⟩]
                exact live
          | none =>
              refine .written found rfl rfl rfl rfl rfl fun g' given => ?_
              cases given
              exact clash

/-- `approve` answers as said exactly if no mapping of the store that is neither AUTO nor
APPROVED holds the given store product. -/
theorem approve_answers_iff (stored : db.TargetsStored)
    (given : ∀ g, target = some g → (db.storeProducts.find? g).isSome) :
    AnswersAsSaid db mappingId target (approveRows db mappingId target reviewedBy note) ↔
      ClashesSeen db mappingId target := by
  have answered : Approves db mappingId target (approveRows db mappingId target reviewedBy note) :=
    approveRows_cases
  generalize approveRows db mappingId target reviewedBy note = answer at answered ⊢
  cases answered with
  | @refused e own barred seen =>
      refine iff_of_true ⟨iff_of_false (fun done => ?_) barred, fun _ => ⟨?_, rfl⟩⟩ seen
      · cases done
      · rcases own with ⟨message, rfl⟩ | ⟨message, rfl⟩
        · exact .inl ⟨message, rfl⟩
        · exact .inr ⟨message, rfl⟩
  | @written m row g rows found id supplier code holds aim clear =>
      have mem := (Table.find?_eq_some_iff.mp found).1
      have known : (db.storeProducts.find? g).isSome := by
        cases target with
        | none => exact stored m mem g aim
        | some g' => exact given g aim
      have free := writeReview_iff mem id supplier code holds known
      have approvable : Approvable db mappingId target ↔ ∀ n ∈ db.mappings.rows, n.id ≠ m.id →
          n.storeCode = m.storeCode → n.storeProductId ≠ some g := by
        constructor
        · intro found
          obtain ⟨m', g', held, aim', apart⟩ := found
          cases found.symm.trans held
          cases aim.symm.trans aim'
          exact apart
        · intro apart
          exact ⟨m, g, found, aim, apart⟩
      -- What is neither refused nor free fails on the constraint.
      have said : AnswersAsSaid db mappingId target ((writeReview db row).map fun _ => (), rows) ↔
          Approvable db mappingId target := by
        constructor
        · intro said
          by_contra barred
          obtain ⟨own, -⟩ := said.refuses barred
          unfold writeReview at own
          cases written : db.writeMapping row with
          | ok db' =>
              rw [written] at own
              rcases own with ⟨message, done⟩ | ⟨message, done⟩ <;> cases done
          | error e =>
              rw [written] at own
              rcases own with ⟨message, done⟩ | ⟨message, done⟩ <;> cases done
        · intro approvable'
          exact ⟨free.trans approvable.symm, fun barred => absurd approvable' barred⟩
      rw [said, approvable]
      constructor
      · intro apart m' held g' given' n hn other store holds'
        cases found.symm.trans held
        subst given'
        cases aim
        exact absurd holds' (apart n hn other store)
      · intro seen n hn other store holds'
        cases target with
        | none =>
            have same := db.mappings.eq_of_sameTarget hn mem
              ⟨store, holds'.trans aim.symm, holds' ▸ nofun⟩
            exact other (congrArg ProductMapping.id same)
        | some g' =>
            cases aim
            obtain ⟨auto, approved⟩ :=
              findClash_eq_none_iff.mp (clear g rfl) n hn store holds' other
            exact (seen m found g rfl n hn other store holds').elim auto approved

end

/-! ## A target that a rejected mapping holds -/

namespace EchoStore

theorem targetsStored : db.TargetsStored := by
  intro m mem g holds
  simp only [db, ProductMappings.rows, List.mem_cons, List.not_mem_nil, or_false] at mem
  rcases mem with rfl | rfl <;> cases holds <;> decide +kernel

/-- Nobody holds the third store product. -/
theorem third_approved :
    AnswersAsSaid db 1 (some 3) (approveRows db 1 (some 3) "operator" none) := by
  refine (approve_answers_iff targetsStored fun g given => ?_).mpr ?_
  · cases given
    decide +kernel
  · intro m _ g given n mem _ _ holds
    cases given
    simp only [db, ProductMappings.rows, List.mem_cons, List.not_mem_nil, or_false] at mem
    rcases mem with rfl | rfl <;> cases holds

/-- The second mapping rejected, which keeps its store product. -/
def secondRefused : Db := (reject db 2 "operator" none).toOption.getD db

/-- The check passes and the constraint does not. -/
theorem second_taken : reject db 2 "operator" none = .ok secondRefused ∧
    (approveRows secondRefused 1 (some 2) "operator" none).1 =
      .error (.database .integrityError) ∧
    ¬ AnswersAsSaid secondRefused 1 (some 2)
      (approveRows secondRefused 1 (some 2) "operator" none) := by
  have refuses : reject db 2 "operator" none = .ok secondRefused := eq_ok_getD (by decide +kernel)
  have raised : (approveRows secondRefused 1 (some 2) "operator" none).1 =
      .error (.database .integrityError) := by decide +kernel
  refine ⟨refuses, raised, fun said => ?_⟩
  have barred : ¬ Approvable secondRefused 1 (some 2) := by
    intro approvable
    rw [said.succeeds.mpr approvable] at raised
    cases raised
  obtain ⟨own, -⟩ := said.refuses barred
  rw [raised] at own
  rcases own with ⟨message, done⟩ | ⟨message, done⟩ <;> cases done

end EchoStore

end FazerBridge
