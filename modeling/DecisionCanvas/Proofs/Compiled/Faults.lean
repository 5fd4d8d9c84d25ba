import DecisionCanvas.Proofs.Compiled.Refusal
import DecisionCanvas.Proofs.Compiled.Renaming
import DecisionCanvas.Proofs.Compiled.SelfContained

/-!
# Which fault is reported

A compiled tree that does not stand on its own is reported by a repeated id if it has one,
else by the first expression that refers to nothing, else by the first such branch.  In one
that does stand on its own every id denotes one expression, whichever way it is looked up,
and rebuilding never misses any.
-/

namespace DecisionCanvas

theorem firstRepeated_eq_some_iff {seen ids : List Int} {id : Int} :
    firstRepeated seen ids = some id ↔ ∃ before after, ids = before ++ id :: after ∧
      before.Nodup ∧ (∀ earlier ∈ before, earlier ∉ seen) ∧ (id ∈ before ∨ id ∈ seen) := by
  induction ids generalizing seen with
  | nil => simp [firstRepeated]
  | cons first rest ih =>
      rw [firstRepeated]
      by_cases hseen : first ∈ seen
      · rw [if_pos (by simpa using hseen), Option.some.injEq]
        constructor
        · rintro rfl
          exact ⟨[], rest, rfl, List.nodup_nil, by simp, Or.inr hseen⟩
        · rintro ⟨before, after, hids, -, hapart, -⟩
          cases before with
          | nil => exact (List.cons.inj hids).1
          | cons head tail =>
              rw [(List.cons.inj hids).1] at hseen
              exact absurd hseen (hapart head List.mem_cons_self)
      · rw [if_neg (by simpa using hseen), ih]
        constructor
        · rintro ⟨before, after, rfl, hnodup, hapart, hrepeated⟩
          simp only [List.mem_cons, not_or] at hapart
          refine ⟨first :: before, after, rfl, ?_, ?_, ?_⟩
          · exact List.nodup_cons.mpr ⟨fun hmem => (hapart first hmem).1 rfl, hnodup⟩
          · rw [List.forall_mem_cons]
            exact ⟨hseen, fun earlier hearlier => (hapart earlier hearlier).2⟩
          · simpa only [List.mem_cons, or_assoc, or_left_comm] using hrepeated
        · rintro ⟨before, after, hids, hnodup, hapart, hrepeated⟩
          cases before with
          | nil =>
              rw [← (List.cons.inj hids).1] at hrepeated
              exact absurd hrepeated (by simp [hseen])
          | cons head tail =>
              obtain ⟨rfl, rfl⟩ := List.cons.inj hids
              obtain ⟨hnotin, hnodup⟩ := List.nodup_cons.mp hnodup
              rw [List.forall_mem_cons] at hapart
              refine ⟨tail, after, rfl, hnodup, ?_, ?_⟩
              · intro earlier hearlier hmem
                cases List.mem_cons.mp hmem with
                | inl hsame => exact hnotin (hsame ▸ hearlier)
                | inr hmem => exact hapart.2 earlier hearlier hmem
              · simpa only [List.mem_cons, or_assoc, or_left_comm] using hrepeated

theorem firstUndefined_eq_some_iff {defined ids : List Int} {missing : Int} :
    firstUndefined defined ids = some missing ↔ FirstWith (· ∉ defined) ids missing := by
  rw [firstUndefined, List.find?_eq_some_iff_append]
  constructor
  · rintro ⟨hmissing, before, after, hids, hbefore⟩
    exact ⟨before, after, hids, by simpa using hmissing, by simpa using hbefore⟩
  · rintro ⟨before, after, hids, hmissing, hbefore⟩
    exact ⟨by simpa using hmissing, before, after, hids, by simpa using hbefore⟩

theorem map_firstUndefined_ne_none_iff {defined ids : List Int} {report : Int → CompileError} :
    (firstUndefined defined ids).map report ≠ none ↔ ∃ id ∈ ids, id ∉ defined := by
  rw [Ne, Option.map_eq_none_iff, firstUndefined_eq_none_iff]
  simp only [not_forall, exists_prop]

theorem danglingExpression?_eq_some_iff {defined : List Int} {expressions : List Expression}
    {error : CompileError} :
    danglingExpression? defined expressions = some error ↔ ∃ expression missing,
      FirstWith (fun other => ∃ child ∈ other.children, child ∉ defined) expressions expression ∧
      FirstWith (· ∉ defined) expression.children missing ∧
      .danglingReference expression.id missing = error := by
  rw [danglingExpression?, exists_firstWith_iff]
  simp only [map_firstUndefined_ne_none_iff, Option.map_eq_some_iff,
    firstUndefined_eq_some_iff, exists_and_left]

theorem danglingBranch?_eq_some_iff {defined : List Int} {branches : List BranchRecord}
    {error : CompileError} :
    danglingBranch? defined branches = some error ↔ ∃ record missing,
      FirstWith (fun other => ∃ id ∈ other.referenced, id ∉ defined) branches record ∧
      FirstWith (· ∉ defined) record.referenced missing ∧
      .danglingBranch record.orderIndex missing = error := by
  rw [danglingBranch?, exists_firstWith_iff]
  simp only [map_firstUndefined_ne_none_iff, Option.map_eq_some_iff,
    firstUndefined_eq_some_iff, exists_and_left]

namespace CompiledTree

variable {tree : CompiledTree}

theorem check_eq_error_iff {error : CompileError} :
    tree.check = .error error ↔ tree.fault? = some error := by
  rw [check]
  cases tree.fault? <;> simp

/-- A fault of one kind is reported only where there is none of an earlier kind. -/
theorem fault?_eq_some_iff {error : CompileError} :
    tree.fault? = some error ↔
      (∃ id, firstRepeated [] tree.definedIds = some id ∧ .duplicateId id = error) ∨
      (tree.definedIds.Nodup ∧
        danglingExpression? tree.definedIds tree.expressions = some error) ∨
      (tree.definedIds.Nodup ∧
        (∀ expression ∈ tree.expressions, ∀ child ∈ expression.children,
          child ∈ tree.definedIds) ∧
        danglingBranch? tree.definedIds tree.branches = some error) := by
  have hdistinct : firstRepeated [] tree.definedIds = none ↔ tree.definedIds.Nodup := by
    rw [firstRepeated_eq_none_iff]
    simp
  rw [← hdistinct, ← danglingExpression?_eq_none_iff, ← and_or_left, ← Option.or_eq_some_iff,
    ← Option.map_eq_some_iff, ← Option.map_eq_none_iff, ← Option.or_eq_some_iff]
  rfl

/-- What the check of a compiled tree reports.  Children are looked at left before right,
and the outcome of a branch before its condition. -/
structure ReportsFirstFault (tree : CompiledTree) : Prop where
  ok_iff : tree.check = .ok () ↔ tree.SelfContained
  duplicateId_iff : ∀ id, tree.check = .error (.duplicateId id) ↔
    ∃ before after, tree.definedIds = before ++ id :: after ∧ before.Nodup ∧ id ∈ before
  danglingReference_iff : ∀ source missing,
    tree.check = .error (.danglingReference source missing) ↔
      tree.definedIds.Nodup ∧
      ∃ expression,
        FirstWith (fun other => ∃ child ∈ other.children, child ∉ tree.definedIds)
          tree.expressions expression ∧
        FirstWith (· ∉ tree.definedIds) expression.children missing ∧
        expression.id = source
  danglingBranch_iff : ∀ orderIndex missing,
    tree.check = .error (.danglingBranch orderIndex missing) ↔
      tree.definedIds.Nodup ∧
      (∀ expression ∈ tree.expressions, ∀ child ∈ expression.children,
        child ∈ tree.definedIds) ∧
      ∃ record,
        FirstWith (fun other => ∃ id ∈ other.referenced, id ∉ tree.definedIds)
          tree.branches record ∧
        FirstWith (· ∉ tree.definedIds) record.referenced missing ∧
        record.orderIndex = orderIndex

theorem reportsFirstFault (tree : CompiledTree) : tree.ReportsFirstFault where
  ok_iff := check_eq_ok_iff
  duplicateId_iff := by
    intro id
    rw [check_eq_error_iff, fault?_eq_some_iff]
    simp [danglingExpression?_eq_some_iff, danglingBranch?_eq_some_iff,
      firstRepeated_eq_some_iff]
  danglingReference_iff := by
    intro source missing
    rw [check_eq_error_iff, fault?_eq_some_iff]
    simp [danglingExpression?_eq_some_iff, danglingBranch?_eq_some_iff]
  danglingBranch_iff := by
    intro orderIndex missing
    rw [check_eq_error_iff, fault?_eq_some_iff]
    simp [danglingExpression?_eq_some_iff, danglingBranch?_eq_some_iff]

end CompiledTree

/-! ## Nothing is missing -/

theorem denoted?_eq_none_iff {expressions : List Expression} {id : Int} :
    denoted? expressions id = none ↔ id ∉ expressions.map Expression.id := by
  simp [denoted?_eq_find?_reverse, List.find?_eq_none]

theorem failure?_eq_missing_iff {expressions : List Expression} {check : RebuildCheck}
    {id : Int} :
    check.failure? expressions = some (.missingExpression id) ↔
      check = .defined id ∧ denoted? expressions id = none := by
  cases check with
  | defined other =>
      simp only [RebuildCheck.failure?, RebuildCheck.defined.injEq]
      cases hother : denoted? expressions other with
      | none =>
          simp only [Option.isSome_none, Bool.false_eq_true, if_false, Option.some.injEq,
            RebuildError.missingExpression.injEq]
          exact ⟨fun hsame => ⟨hsame, hsame ▸ hother⟩, And.left⟩
      | some expression =>
          simp only [Option.isSome_some, if_true, reduceCtorEq, false_iff, not_and]
          rintro rfl hnone
          rw [hother] at hnone
          cases hnone
  | operator other => simp [RebuildCheck.failure?, ite_eq_iff]
  | misfit orderIndex => simp [RebuildCheck.failure?]

theorem mem_guardedRecords {records : List BranchRecord} {id : Int} {record : BranchRecord} :
    (id, record) ∈ guardedRecords records ↔ record ∈ records ∧ record.condition = some id := by
  simp only [guardedRecords, List.mem_filterMap, Option.map_eq_some_iff, Prod.mk.injEq]
  constructor
  · rintro ⟨other, hmem, held, hcondition, rfl, rfl⟩
    exact ⟨hmem, hcondition⟩
  · rintro ⟨hmem, hcondition⟩
    exact ⟨record, hmem, id, hcondition, rfl, rfl⟩

theorem mem_of_defined_mem_returnChecks {record : BranchRecord} {id : Int}
    (hcheck : .defined id ∈ record.returnChecks) : id ∈ record.outcome.expressions := by
  rw [BranchRecord.returnChecks] at hcheck
  cases houtcome : record.outcome <;> simp_all [BranchOutcome.expressions]

theorem mem_of_defined_mem_statementChecks {record : BranchRecord} {id : Int}
    (hcheck : .defined id ∈ record.statementChecks) : id ∈ record.outcome.expressions := by
  rw [BranchRecord.statementChecks] at hcheck
  cases houtcome : record.outcome <;> simp_all [BranchOutcome.expressions]

/-- Where a compiled tree stands on its own, nothing that is looked up is missing, and it does
not matter which way it is looked up. -/
structure CompiledTree.Resolved (tree : CompiledTree) : Prop where
  lookups_agree : ∀ catalog id,
    Rebuilder.expression? ⟨tree.expressions, catalog⟩ id = tree.expression? id
  rebuildIf_ne_missing : ∀ catalog kind id,
    tree.rebuildIf catalog kind ≠ .error (.missingExpression id)
  rebuildAdjustment_ne_missing : ∀ catalog id,
    tree.rebuildAdjustment catalog ≠ .error (.missingExpression id)

namespace CompiledTree.SelfContained

variable {tree : CompiledTree} {outcomeChecks : BranchRecord → List RebuildCheck} {id : Int}

theorem expression?_eq (htree : tree.SelfContained) (catalog : Catalog) (id : Int) :
    Rebuilder.expression? ⟨tree.expressions, catalog⟩ id = tree.expression? id := by
  rw [Rebuilder.expression?_eq_denoted?]
  ext expression
  rw [denoted?_eq_some_iff htree.ids_distinct, CompiledTree.expression?,
    find?_eq_some_iff_mem htree.ids_distinct]

theorem defined_of_mem_conditionChecks (htree : tree.SelfContained) {operator : Int}
    (hoperator : operator ∈ tree.definedIds)
    (hcheck : .defined id ∈ conditionChecks tree.expressions operator) :
    id ∈ tree.definedIds := by
  simp only [conditionChecks, List.mem_append, List.mem_cons, List.mem_map,
    RebuildCheck.defined.injEq, reduceCtorEq, List.not_mem_nil, or_false,
    exists_eq_right] at hcheck
  cases hcheck with
  | inl hsame => exact hsame ▸ hoperator
  | inr hchild =>
      simp only [presentChildren, List.mem_filter, List.mem_flatMap,
        Option.mem_toList] at hchild
      obtain ⟨⟨expression, hdenoted, hchild⟩, -⟩ := hchild
      have hmem := ((denoted?_eq_some_iff htree.ids_distinct).mp hdenoted).1
      exact htree.children_defined expression hmem id hchild

theorem defined_of_mem_rebuildChecks (htree : tree.SelfContained)
    (houtcome : ∀ record id, .defined id ∈ outcomeChecks record →
      id ∈ record.outcome.expressions)
    (hcheck : .defined id ∈ tree.rebuildChecks outcomeChecks) : id ∈ tree.definedIds := by
  have hrecord : ∀ record ∈ inOrder tree.branches, .defined id ∈ outcomeChecks record →
      id ∈ tree.definedIds := by
    intro record hmem hdefined
    apply htree.branches_defined record ((inOrder_perm tree.branches).mem_iff.mp hmem)
    exact List.mem_append_left _ (houtcome record id hdefined)
  simp only [CompiledTree.rebuildChecks, defaultChecks, caseChecks, List.mem_append,
    List.mem_flatMap, Option.mem_toList] at hcheck
  rcases hcheck with ⟨record, hdefault, hdefined⟩ | ⟨⟨operator, record⟩, hguarded, hcase⟩
  · exact hrecord record (List.mem_of_find?_eq_some hdefault) hdefined
  · obtain ⟨hmem, hcondition⟩ := mem_guardedRecords.mp hguarded
    cases hcase with
    | inl hdefined =>
        apply htree.defined_of_mem_conditionChecks _ hdefined
        apply htree.branches_defined record ((inOrder_perm tree.branches).mem_iff.mp hmem)
        simp [BranchRecord.referenced, hcondition]
    | inr hdefined => exact hrecord record hmem hdefined

theorem checked_ne_missing {Result : Type} {result : Result} (htree : tree.SelfContained)
    (houtcome : ∀ record id, .defined id ∈ outcomeChecks record →
      id ∈ record.outcome.expressions) :
    checked tree.expressions (tree.rebuildChecks outcomeChecks) result ≠
      .error (.missingExpression id) := by
  rw [Ne, checked_eq_error_iff]
  intro hfirst
  obtain ⟨check, hmem, hfailure⟩ := List.exists_of_findSome?_eq_some hfirst
  obtain ⟨rfl, hnone⟩ := failure?_eq_missing_iff.mp hfailure
  exact denoted?_eq_none_iff.mp hnone (htree.defined_of_mem_rebuildChecks houtcome hmem)

theorem resolved (htree : tree.SelfContained) : tree.Resolved where
  lookups_agree := htree.expression?_eq
  rebuildIf_ne_missing := by
    intro catalog kind id
    rw [CompiledTree.rebuildIf_checked]
    exact htree.checked_ne_missing fun record id => mem_of_defined_mem_returnChecks
  rebuildAdjustment_ne_missing := by
    intro catalog id
    rw [CompiledTree.rebuildAdjustment_checked]
    exact htree.checked_ne_missing fun record id => mem_of_defined_mem_statementChecks

end CompiledTree.SelfContained

namespace CompiledTree

/-- The check of a compiled tree reports its first fault, and where it reports none nothing is
missed in looking up and rebuilding. -/
theorem check_reports_and_resolves (tree : CompiledTree) :
    tree.ReportsFirstFault ∧ (tree.check = .ok () → tree.Resolved) := by
  refine ⟨tree.reportsFirstFault, ?_⟩
  intro hcheck
  have htree : tree.SelfContained := check_eq_ok_iff.mp hcheck
  exact htree.resolved

/-- The row of `unfinishedRow` with the child that it had left out. -/
def finishedRow : CompiledTree where
  expressions := unfinishedRow.expressions ++
    [{ id := -1, kind := .constant, text := some "high" }]
  branches := unfinishedRow.branches

theorem check_reports_and_resolves_finishedRow :
    finishedRow.check = .ok () ∧ finishedRow.Resolved ∧
      unfinishedRow.check = .error (.danglingReference 2 (-1)) := by
  have hfinished : finishedRow.check = .ok () := by decide
  refine ⟨hfinished, ?_, ?_⟩
  · exact (check_reports_and_resolves finishedRow).2 hfinished
  · decide

end CompiledTree

end DecisionCanvas
