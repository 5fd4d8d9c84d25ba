import DecisionCanvas.Compiled.Rebuild
import DecisionCanvas.Proofs.Compiled.Reading

/-!
# Checks of rebuilding

Rebuilding looks at the records and expressions of a compiled tree in a fixed order and
stops at the first that does not fit.  Its checks are listed here for any compiled tree,
well formed or not, together with what is rebuilt when all of them pass.
-/

namespace DecisionCanvas

/-- The expression that an id denotes, which is the last one with that id. -/
def denoted? (expressions : List Expression) (id : Int) : Option Expression :=
  (expressions.filter fun expression => expression.id == id).getLast?

/-- A check that rebuilding makes; that an outcome has the wrong shape is one that fails. -/
inductive RebuildCheck where
  | defined (id : Int)
  | operator (id : Int)
  | misfit (orderIndex : Nat)

/-- The error of a check, if it fails. -/
def RebuildCheck.failure? (expressions : List Expression) :
    RebuildCheck → Option RebuildError
  | .defined id =>
    if (denoted? expressions id).isSome then none else some (.missingExpression id)
  | .operator id =>
    if (denoted? expressions id).any Expression.isOperator then none
    else some (.notAnOperator id)
  | .misfit orderIndex => some (.unexpectedOutcome orderIndex)

/-- The children of the expression that an id denotes, without those left out. -/
def presentChildren (expressions : List Expression) (id : Int) : List Int :=
  ((denoted? expressions id).toList.flatMap Expression.children).filter (0 ≤ ·)

def conditionChecks (expressions : List Expression) (id : Int) : List RebuildCheck :=
  [.defined id, .operator id] ++ (presentChildren expressions id).map .defined

/-- The checks of an outcome that has to be a return. -/
def BranchRecord.returnChecks (record : BranchRecord) : List RebuildCheck :=
  match record.outcome with
  | .returns id => [.defined id]
  | .statements _ => [.misfit record.orderIndex]

/-- The checks of an outcome that has to be a list of statements. -/
def BranchRecord.statementChecks (record : BranchRecord) : List RebuildCheck :=
  match record.outcome with
  | .returns _ => [.misfit record.orderIndex]
  | .statements list => list.map fun statement => .defined statement.value

/-- The records that have a condition, with its id. -/
def guardedRecords (records : List BranchRecord) : List (Int × BranchRecord) :=
  records.filterMap fun record => record.condition.map fun id => (id, record)

/-- The checks of the first default. -/
def defaultChecks (outcomeChecks : BranchRecord → List RebuildCheck)
    (ordered : List BranchRecord) : List RebuildCheck :=
  (ordered.find? BranchRecord.isDefault).toList.flatMap outcomeChecks

/-- The checks of the records that have a condition, each condition before its outcome. -/
def caseChecks (expressions : List Expression)
    (outcomeChecks : BranchRecord → List RebuildCheck) (ordered : List BranchRecord) :
    List RebuildCheck :=
  (guardedRecords ordered).flatMap fun (id, record) =>
    conditionChecks expressions id ++ outcomeChecks record

/-- All checks of rebuilding, in the order in which they are made. -/
def CompiledTree.rebuildChecks (tree : CompiledTree)
    (outcomeChecks : BranchRecord → List RebuildCheck) : List RebuildCheck :=
  defaultChecks outcomeChecks (inOrder tree.branches) ++
    caseChecks tree.expressions outcomeChecks (inOrder tree.branches)

theorem denoted?_eq_find?_reverse (expressions : List Expression) (id : Int) :
    denoted? expressions id =
      expressions.reverse.find? fun expression => expression.id == id := by
  rw [denoted?, List.getLast?_eq_head?_reverse, ← List.filter_reverse, List.head?_filter]

/-! ## The order of the records -/

/-- Whether records are ordered by their indexes, those with equal indexes as they were. -/
structure StablyOrdered (branches ordered : List BranchRecord) : Prop where
  perm : ordered.Perm branches
  ascending : ordered.Pairwise fun earlier later => earlier.orderIndex ≤ later.orderIndex
  stable : ∀ index, (ordered.filter fun record => record.orderIndex == index) =
    branches.filter fun record => record.orderIndex == index

theorem orderIndex_le_trans (first second third : BranchRecord)
    (hfirst : decide (first.orderIndex ≤ second.orderIndex) = true)
    (hsecond : decide (second.orderIndex ≤ third.orderIndex) = true) :
    decide (first.orderIndex ≤ third.orderIndex) = true := by
  rw [decide_eq_true_iff] at hfirst hsecond ⊢
  exact Nat.le_trans hfirst hsecond

theorem orderIndex_le_total (first second : BranchRecord) :
    (decide (first.orderIndex ≤ second.orderIndex) ||
      decide (second.orderIndex ≤ first.orderIndex)) = true := by
  rw [Bool.or_eq_true, decide_eq_true_iff, decide_eq_true_iff]
  exact Nat.le_total first.orderIndex second.orderIndex

theorem inOrder_perm (branches : List BranchRecord) : (inOrder branches).Perm branches :=
  List.mergeSort_perm _ _

theorem inOrder_ascending (branches : List BranchRecord) :
    (inOrder branches).Pairwise fun earlier later => earlier.orderIndex ≤ later.orderIndex := by
  have hsorted := List.pairwise_mergeSort orderIndex_le_trans orderIndex_le_total branches
  exact hsorted.imp of_decide_eq_true

/-- The records with one index are among the ordered ones in their old order, and there are
no others with it. -/
theorem filter_inOrder (branches : List BranchRecord) (index : Nat) :
    ((inOrder branches).filter fun record => record.orderIndex == index) =
      branches.filter fun record => record.orderIndex == index := by
  let same := branches.filter fun record => record.orderIndex == index
  have hindex : ∀ record ∈ same, record.orderIndex = index := fun record hrecord =>
    eq_of_beq (List.mem_filter.mp hrecord).2
  have hordered : same.Pairwise fun earlier later =>
      decide (earlier.orderIndex ≤ later.orderIndex) = true := by
    rw [List.pairwise_iff_forall_sublist]
    intro earlier later hsublist
    have hearlier := hindex earlier (hsublist.subset (by simp))
    have hlater := hindex later (hsublist.subset (by simp))
    have hle : earlier.orderIndex ≤ later.orderIndex := by omega
    exact decide_eq_true hle
  -- They are ordered as they are, so sorting keeps them as a sublist, and all of them.
  have hkept : same.Sublist (inOrder branches) :=
    List.sublist_mergeSort orderIndex_le_trans orderIndex_le_total hordered List.filter_sublist
  have hsame := hkept.filter fun record => record.orderIndex == index
  rw [List.filter_filter] at hsame
  simp only [Bool.and_self] at hsame
  have hperm := (inOrder_perm branches).filter fun record => record.orderIndex == index
  exact (hsame.eq_of_length hperm.length_eq.symm).symm

theorem stablyOrdered_inOrder (branches : List BranchRecord) :
    StablyOrdered branches (inOrder branches) :=
  ⟨inOrder_perm branches, inOrder_ascending branches, filter_inOrder branches⟩

/-! ## Failing at the first check -/

/-- A result, unless one of the checks before it fails. -/
def checked {Result : Type} (expressions : List Expression) (checks : List RebuildCheck)
    (result : Result) : Except RebuildError Result :=
  match checks.findSome? (RebuildCheck.failure? expressions) with
  | some error => .error error
  | none => .ok result

section Checked

variable {Result Other : Type} (expressions : List Expression)
variable (checks rest : List RebuildCheck) (result : Result)

theorem checked_bind (next : Result → Other) :
    (checked expressions checks result >>= fun before =>
        checked expressions rest (next before)) =
      checked expressions (checks ++ rest) (next result) := by
  rw [checked, checked, List.findSome?_append]
  cases checks.findSome? (RebuildCheck.failure? expressions) <;> rfl

theorem checked_bind_ok (next : Result → Other) :
    (checked expressions checks result >>= fun before => .ok (next before)) =
      checked expressions checks (next result) := by
  rw [checked, checked]
  cases checks.findSome? (RebuildCheck.failure? expressions) <;> rfl

theorem map_checked (change : Result → Other) :
    (checked expressions checks result).map change =
      checked expressions checks (change result) := by
  rw [checked, checked]
  cases checks.findSome? (RebuildCheck.failure? expressions) <;> rfl

variable {expressions checks result}

/-- Checks that pass need not be looked at. -/
theorem checked_append_of_pass
    (hpass : ∀ check ∈ checks, check.failure? expressions = none) :
    checked expressions (checks ++ rest) result = checked expressions rest result := by
  rw [← List.findSome?_eq_none_iff] at hpass
  rw [checked, checked, List.findSome?_append, hpass]
  rfl

theorem checked_eq_error_iff {error : RebuildError} :
    checked expressions checks result = .error error ↔
      checks.findSome? (RebuildCheck.failure? expressions) = some error := by
  rw [checked]
  cases checks.findSome? (RebuildCheck.failure? expressions) <;> simp

theorem checked_eq_ok_iff {rebuilt : Result} :
    checked expressions checks result = .ok rebuilt ↔
      (∀ check ∈ checks, check.failure? expressions = none) ∧ result = rebuilt := by
  rw [checked, ← List.findSome?_eq_none_iff]
  cases checks.findSome? (RebuildCheck.failure? expressions) <;> simp

end Checked

/-! ## What is read where no check fails -/

namespace Rebuilder

variable (source : Rebuilder)

def valueOf (id : Int) : Value :=
  ((denoted? source.expressions id).map (Expression.value source.catalog)).getD .emptyVariable

def childOf (empty : Value) (child : Option Int) : Value :=
  ((child.filter (0 ≤ ·)).map source.valueOf).getD empty

def conditionOf (id : Int) : Condition :=
  let expression := (denoted? source.expressions id).getD default
  ⟨source.childOf .emptyVariable expression.left, expression.operator.getD .equal,
    source.childOf .emptyLiteral expression.right⟩

def returnOf (record : BranchRecord) : Value :=
  match record.outcome with
  | .returns id => source.valueOf id
  | .statements _ => .emptyVariable

def adjustmentsOf (record : BranchRecord) : List Adjustment :=
  match record.outcome with
  | .returns _ => []
  | .statements list =>
    list.map fun statement => ⟨statement.operation, source.valueOf statement.value⟩

theorem expression?_eq_denoted? (id : Int) :
    source.expression? id = denoted? source.expressions id :=
  (denoted?_eq_find?_reverse source.expressions id).symm

theorem value_checked (id : Int) :
    source.value id = checked source.expressions [.defined id] (source.valueOf id) := by
  rw [value, checked, valueOf, expression?_eq_denoted?]
  cases hdenoted : denoted? source.expressions id <;>
    simp [RebuildCheck.failure?, hdenoted]

theorem childValue_checked (empty : Value) (child : Option Int) :
    source.childValue empty child =
      checked source.expressions ((child.toList.filter (0 ≤ ·)).map .defined)
        (source.childOf empty child) := by
  cases child with
  | none => rfl
  | some id =>
      by_cases hpresent : 0 ≤ id
      · rw [childValue, if_pos hpresent, value_checked]
        simp [childOf, Option.filter, hpresent]
      · rw [childValue, if_neg hpresent]
        simp [childOf, Option.filter, hpresent, checked]

theorem condition_checked (id : Int) :
    source.condition id =
      checked source.expressions (conditionChecks source.expressions id)
        (source.conditionOf id) := by
  rw [condition, expression?_eq_denoted?, conditionOf]
  cases hdenoted : denoted? source.expressions id with
  | none => simp [conditionChecks, checked, RebuildCheck.failure?, hdenoted]
  | some expression =>
      by_cases hoperator : expression.isOperator
      · have hpass : ∀ check ∈ [RebuildCheck.defined id, .operator id],
            check.failure? source.expressions = none := by
          simp [RebuildCheck.failure?, hdenoted, hoperator]
        have hchildren : presentChildren source.expressions id =
            expression.left.toList.filter (0 ≤ ·) ++ expression.right.toList.filter (0 ≤ ·) := by
          simp [presentChildren, hdenoted, Expression.children]
        simp only [hoperator, if_true, childValue_checked, checked_bind_ok]
        rw [checked_bind, conditionChecks, checked_append_of_pass _ hpass, hchildren,
          List.map_append]
        rfl
      · simp [conditionChecks, checked, RebuildCheck.failure?, hdenoted, hoperator]

theorem returned_checked (record : BranchRecord) :
    source.returned record =
      checked source.expressions record.returnChecks (source.returnOf record) := by
  rw [returned, BranchRecord.returnChecks, returnOf]
  cases record.outcome with
  | returns id => exact source.value_checked id
  | statements list => rfl

theorem adjustments_checked (list : List StatementRecord) :
    source.adjustments list =
      checked source.expressions (list.map fun statement => .defined statement.value)
        (list.map fun statement => ⟨statement.operation, source.valueOf statement.value⟩) := by
  induction list with
  | nil => rfl
  | cons statement rest ih =>
      rw [adjustments, ih, value_checked]
      simp only [checked_bind_ok]
      rw [checked_bind]
      rfl

theorem adjusted_checked (record : BranchRecord) :
    source.adjusted record =
      checked source.expressions record.statementChecks (source.adjustmentsOf record) := by
  rw [adjusted, BranchRecord.statementChecks, adjustmentsOf]
  cases record.outcome with
  | returns id => rfl
  | statements list => exact source.adjustments_checked list

/-! ## Rebuilding -/

section Outcomes

variable {Outcome : Type} {source} {outcomeChecks : BranchRecord → List RebuildCheck}
variable {outcome : BranchRecord → Except RebuildError Outcome}
variable {outcomeOf : BranchRecord → Outcome}

/-- The return that a record stands for. -/
def guardedReturnOf (source : Rebuilder) (outcomeOf : BranchRecord → Outcome)
    (record : BranchRecord) : GuardedReturn Outcome :=
  ⟨record.condition.map source.conditionOf, outcomeOf record⟩

theorem find?_isDefault_guardedReturnOf (records : List BranchRecord) :
    ((records.map (source.guardedReturnOf outcomeOf)).find? GuardedReturn.isDefault).map
        GuardedReturn.outcome =
      (records.find? BranchRecord.isDefault).map outcomeOf := by
  rw [List.find?_map, Option.map_map]
  have hdefault : GuardedReturn.isDefault ∘ source.guardedReturnOf outcomeOf =
      BranchRecord.isDefault := by
    funext record
    simp [guardedReturnOf, GuardedReturn.isDefault, BranchRecord.isDefault]
  rw [hdefault]
  rfl

theorem filterMap_case?_guardedReturnOf (records : List BranchRecord) :
    (records.map (source.guardedReturnOf outcomeOf)).filterMap GuardedReturn.case? =
      (guardedRecords records).map fun (id, record) =>
        ⟨source.conditionOf id, .returns (outcomeOf record)⟩ := by
  rw [guardedRecords, List.filterMap_map, List.map_filterMap]
  congr 1
  funext record
  simp only [Function.comp_apply, guardedReturnOf, GuardedReturn.case?, Option.map_map]
  rfl

theorem defaultOutcome_checked
    (houtcome : ∀ record, outcome record =
      checked source.expressions (outcomeChecks record) (outcomeOf record))
    (ordered : List BranchRecord) :
    defaultOutcome outcome ordered =
      checked source.expressions (defaultChecks outcomeChecks ordered)
        ((ordered.find? BranchRecord.isDefault).map outcomeOf) := by
  rw [defaultOutcome, defaultChecks]
  cases ordered.find? BranchRecord.isDefault with
  | none => rfl
  | some record =>
      rw [Option.toList_some, List.flatMap_singleton]
      simp only [houtcome, map_checked, Option.map_some]

theorem cases_checked
    (houtcome : ∀ record, outcome record =
      checked source.expressions (outcomeChecks record) (outcomeOf record))
    (records : List BranchRecord) :
    source.cases outcome records =
      checked source.expressions (caseChecks source.expressions outcomeChecks records)
        ((guardedRecords records).map fun (id, record) =>
          ⟨source.conditionOf id, .returns (outcomeOf record)⟩) := by
  induction records with
  | nil => rfl
  | cons record rest ih =>
      rw [cases]
      cases hcondition : record.condition with
      | none =>
          have hguarded : guardedRecords (record :: rest) = guardedRecords rest := by
            simp [guardedRecords, hcondition]
          simp only [ih, caseChecks, hguarded]
      | some id =>
          have hguarded : guardedRecords (record :: rest) =
              (id, record) :: guardedRecords rest := by
            simp [guardedRecords, hcondition]
          -- The three parts are read in turn, so their checks are joined from the inside.
          simp only [ih, houtcome, condition_checked, checked_bind_ok]
          simp only [checked_bind]
          rw [caseChecks, caseChecks, hguarded, List.flatMap_cons, List.append_assoc]
          rfl

/-- Reading the first default and then the cases, and making one decision of them. -/
theorem decision_checked
    (houtcome : ∀ record, outcome record =
      checked source.expressions (outcomeChecks record) (outcomeOf record))
    (missing : Outcome) (settle : Outcome → Outcome) (ordered : List BranchRecord) :
    (do
      let otherwise ← defaultOutcome outcome ordered
      let cases ← source.cases outcome ordered
      let fallback := otherwise.getD missing
      if cases.isEmpty then .ok (.returns (settle fallback))
      else .ok (.decides cases (.returns fallback))) =
      checked source.expressions
        (defaultChecks outcomeChecks ordered ++
          caseChecks source.expressions outcomeChecks ordered)
        (Tree.ofReturns missing settle (ordered.map (source.guardedReturnOf outcomeOf))) := by
  rw [defaultOutcome_checked houtcome, cases_checked houtcome, Tree.ofReturns,
    find?_isDefault_guardedReturnOf, filterMap_case?_guardedReturnOf]
  simp only [← apply_ite Except.ok, checked_bind_ok]
  rw [checked_bind]

end Outcomes

end Rebuilder

namespace CompiledTree

variable {Outcome : Type} (tree : CompiledTree) (catalog : Catalog)

/-- The returns that the records of a tree stand for, where no check fails. -/
def recordedReturns (outcomeOf : Rebuilder → BranchRecord → Outcome) :
    List (GuardedReturn Outcome) :=
  let source : Rebuilder := ⟨tree.expressions, catalog⟩
  (inOrder tree.branches).map (source.guardedReturnOf (outcomeOf source))

theorem rebuildIf_checked (kind : TreeKind) :
    tree.rebuildIf catalog kind =
      checked tree.expressions (tree.rebuildChecks BranchRecord.returnChecks)
        (Tree.ofReturns (.boolean false none) kind.settle
          (tree.recordedReturns catalog Rebuilder.returnOf)) :=
  Rebuilder.decision_checked (Rebuilder.returned_checked ⟨tree.expressions, catalog⟩)
    (.boolean false none) kind.settle (inOrder tree.branches)

theorem rebuildAdjustment_checked :
    tree.rebuildAdjustment catalog =
      checked tree.expressions (tree.rebuildChecks BranchRecord.statementChecks)
        (Tree.ofReturns [] id (tree.recordedReturns catalog Rebuilder.adjustmentsOf)) :=
  Rebuilder.decision_checked (Rebuilder.adjusted_checked ⟨tree.expressions, catalog⟩)
    [] id (inOrder tree.branches)

/-- What rebuilding comes to: the error of the first check that fails, or else one decision
that has a case for each record with a condition. -/
structure RebuiltBy (outcomeChecks : BranchRecord → List RebuildCheck)
    (conditionOf : Int → Condition) (outcomeOf : BranchRecord → Outcome)
    (result : Except RebuildError (Tree Outcome)) : Prop where
  error_iff : ∀ error, result = .error error ↔
    (tree.rebuildChecks outcomeChecks).findSome? (RebuildCheck.failure? tree.expressions) =
      some error
  ok_iff : (∃ rebuilt, result = .ok rebuilt) ↔
    ∀ check ∈ tree.rebuildChecks outcomeChecks, check.failure? tree.expressions = none
  returns_iff : ∀ rebuilt, result = .ok rebuilt →
    ((∃ outcome, rebuilt = .returns outcome) ↔ guardedRecords (inOrder tree.branches) = [])
  decides : ∀ rebuilt, result = .ok rebuilt → guardedRecords (inOrder tree.branches) ≠ [] →
    ∃ fallback, rebuilt = .decides
      ((guardedRecords (inOrder tree.branches)).map fun (id, record) =>
        ⟨conditionOf id, .returns (outcomeOf record)⟩)
      (.returns fallback)

variable {tree catalog}

/-- Without a condition in the records, what is rebuilt only returns. -/
theorem ofReturns_recordedReturns_unguarded (outcomeOf : Rebuilder → BranchRecord → Outcome)
    (missing : Outcome) (settle : Outcome → Outcome)
    (hnone : guardedRecords (inOrder tree.branches) = []) :
    ∃ outcome, Tree.ofReturns missing settle (tree.recordedReturns catalog outcomeOf) =
      .returns outcome := by
  rw [Tree.ofReturns, recordedReturns, Rebuilder.filterMap_case?_guardedReturnOf, hnone]
  exact ⟨_, rfl⟩

/-- With conditions in the records, what is rebuilt decides between them. -/
theorem ofReturns_recordedReturns_guarded (outcomeOf : Rebuilder → BranchRecord → Outcome)
    (missing : Outcome) (settle : Outcome → Outcome)
    (hsome : guardedRecords (inOrder tree.branches) ≠ []) :
    ∃ fallback, Tree.ofReturns missing settle (tree.recordedReturns catalog outcomeOf) =
      .decides
        ((guardedRecords (inOrder tree.branches)).map fun (id, record) =>
          ⟨Rebuilder.conditionOf ⟨tree.expressions, catalog⟩ id,
            .returns (outcomeOf ⟨tree.expressions, catalog⟩ record)⟩)
        (.returns fallback) := by
  rw [Tree.ofReturns, recordedReturns, Rebuilder.filterMap_case?_guardedReturnOf]
  refine ⟨_, if_neg ?_⟩
  rw [List.isEmpty_iff, List.map_eq_nil_iff]
  exact hsome

theorem rebuiltBy_of_checked {outcomeChecks : BranchRecord → List RebuildCheck}
    {outcomeOf : Rebuilder → BranchRecord → Outcome} {missing : Outcome}
    {settle : Outcome → Outcome} {result : Except RebuildError (Tree Outcome)}
    (hresult : result = checked tree.expressions (tree.rebuildChecks outcomeChecks)
      (Tree.ofReturns missing settle (tree.recordedReturns catalog outcomeOf))) :
    tree.RebuiltBy outcomeChecks (Rebuilder.conditionOf ⟨tree.expressions, catalog⟩)
      (outcomeOf ⟨tree.expressions, catalog⟩) result where
  error_iff := by
    intro error
    rw [hresult]
    exact checked_eq_error_iff
  ok_iff := by
    rw [hresult]
    constructor
    · rintro ⟨rebuilt, hok⟩
      exact (checked_eq_ok_iff.mp hok).1
    · intro hpass
      exact ⟨_, checked_eq_ok_iff.mpr ⟨hpass, rfl⟩⟩
  returns_iff := by
    intro rebuilt hok
    rw [hresult] at hok
    rw [← (checked_eq_ok_iff.mp hok).2]
    constructor
    · rintro ⟨outcome, hreturns⟩
      by_contra hsome
      obtain ⟨fallback, hdecides⟩ :=
        ofReturns_recordedReturns_guarded outcomeOf missing settle hsome
      rw [hreturns] at hdecides
      cases hdecides
    · exact ofReturns_recordedReturns_unguarded outcomeOf missing settle
  decides := by
    intro rebuilt hok hsome
    rw [hresult] at hok
    rw [← (checked_eq_ok_iff.mp hok).2]
    exact ofReturns_recordedReturns_guarded outcomeOf missing settle hsome

/-- Rebuilding makes its checks in one fixed order, whatever the expressions and records
are, and fails with the first that fails. -/
theorem rebuild_exact (tree : CompiledTree) (catalog : Catalog) (kind : TreeKind) :
    let source : Rebuilder := ⟨tree.expressions, catalog⟩
    StablyOrdered tree.branches (inOrder tree.branches) ∧
      tree.RebuiltBy BranchRecord.returnChecks source.conditionOf source.returnOf
        (tree.rebuildIf catalog kind) ∧
      tree.RebuiltBy BranchRecord.statementChecks source.conditionOf source.adjustmentsOf
        (tree.rebuildAdjustment catalog) :=
  ⟨stablyOrdered_inOrder tree.branches, rebuiltBy_of_checked (tree.rebuildIf_checked catalog kind),
    rebuiltBy_of_checked (tree.rebuildAdjustment_checked catalog)⟩

end CompiledTree

end DecisionCanvas
