import DecisionCanvas.Proofs.Compiled.RebuildChecks
import DecisionCanvas.Proofs.Store.Integrity
import DecisionCanvas.Proofs.Tree.Equivalence

/-!
# Renamed compiled trees

A compiled tree may be kept under other ids and its rows in any order.  As long as the ids
and the order indexes are distinct and left-out children stay left out, every check of
rebuilding comes out the same, and so does what is rebuilt.
-/

namespace DecisionCanvas

def RebuildError.relocate (rename : Int → Int) : RebuildError → RebuildError
  | .missingExpression id => .missingExpression (rename id)
  | .notAnOperator id => .notAnOperator (rename id)
  | .unexpectedOutcome orderIndex => .unexpectedOutcome orderIndex

def RebuildCheck.relocate (rename : Int → Int) : RebuildCheck → RebuildCheck
  | .defined id => .defined (rename id)
  | .operator id => .operator (rename id)
  | .misfit orderIndex => .misfit orderIndex

/-- Where ids are distinct, an id denotes the one expression that has it. -/
theorem denoted?_eq_some_iff {expressions : List Expression}
    (hdistinct : (expressions.map Expression.id).Nodup) {id : Int} {expression : Expression} :
    denoted? expressions id = some expression ↔
      expression ∈ expressions ∧ expression.id = id := by
  have hreverse : (expressions.reverse.map Expression.id).Nodup := by
    rw [List.map_reverse, List.nodup_reverse]
    exact hdistinct
  rw [denoted?_eq_find?_reverse, find?_eq_some_iff_mem hreverse, List.mem_reverse]

/-- Whether a compiled tree is another one under other ids, its rows in any order. -/
structure CompiledTree.RenamedBy (tree other : CompiledTree) (rename : Int → Int) : Prop where
  ids_distinct : tree.definedIds.Nodup
  indexes_distinct : (tree.branches.map BranchRecord.orderIndex).Nodup
  injective : Function.Injective rename
  sign_kept : ∀ id, 0 ≤ rename id ↔ 0 ≤ id
  expressions_perm : other.expressions.Perm (tree.expressions.map (Expression.relocate rename))
  branches_perm : other.branches.Perm (tree.branches.map (BranchRecord.relocate rename))

namespace CompiledTree.RenamedBy

variable {tree other : CompiledTree} {rename : Int → Int}

theorem other_ids_distinct (hrenamed : tree.RenamedBy other rename) :
    (other.expressions.map Expression.id).Nodup := by
  have hids := (hrenamed.expressions_perm.map Expression.id).nodup_iff
  rw [hids, List.map_map]
  have hrename : Expression.id ∘ Expression.relocate rename = rename ∘ Expression.id := rfl
  rw [hrename, ← List.map_map]
  exact hrenamed.ids_distinct.map hrenamed.injective

theorem other_indexes_distinct (hrenamed : tree.RenamedBy other rename) :
    (other.branches.map BranchRecord.orderIndex).Nodup := by
  have hindexes := (hrenamed.branches_perm.map BranchRecord.orderIndex).nodup_iff
  rw [hindexes, List.map_map]
  exact hrenamed.indexes_distinct

/-! ## Checks -/

theorem denoted?_renamed (hrenamed : tree.RenamedBy other rename) (id : Int) :
    denoted? other.expressions (rename id) =
      (denoted? tree.expressions id).map (Expression.relocate rename) := by
  ext expression
  rw [denoted?_eq_some_iff hrenamed.other_ids_distinct, hrenamed.expressions_perm.mem_iff,
    List.mem_map, Option.map_eq_some_iff]
  constructor
  · rintro ⟨⟨held, hheld, rfl⟩, hid⟩
    have hsame : held.id = id := hrenamed.injective hid
    exact ⟨held, (denoted?_eq_some_iff hrenamed.ids_distinct).mpr ⟨hheld, hsame⟩, rfl⟩
  · rintro ⟨held, hdenoted, rfl⟩
    obtain ⟨hheld, hsame⟩ := (denoted?_eq_some_iff hrenamed.ids_distinct).mp hdenoted
    exact ⟨⟨held, hheld, rfl⟩, congrArg rename hsame⟩

theorem filter_present_map (hrenamed : tree.RenamedBy other rename) (children : List Int) :
    (children.map rename).filter (0 ≤ ·) = (children.filter (0 ≤ ·)).map rename := by
  rw [List.filter_map]
  have hsame : (fun id : Int => decide (0 ≤ id)) ∘ rename = fun id => decide (0 ≤ id) := by
    funext id
    exact decide_eq_decide.mpr (hrenamed.sign_kept id)
  rw [hsame]

theorem presentChildren_renamed (hrenamed : tree.RenamedBy other rename) (id : Int) :
    presentChildren other.expressions (rename id) =
      (presentChildren tree.expressions id).map rename := by
  rw [presentChildren, presentChildren, ← hrenamed.filter_present_map, hrenamed.denoted?_renamed]
  cases denoted? tree.expressions id with
  | none => rfl
  | some expression =>
      simp only [Option.map_some, Option.toList_some, List.flatMap_singleton,
        Expression.children_relocate]

theorem conditionChecks_renamed (hrenamed : tree.RenamedBy other rename) (id : Int) :
    conditionChecks other.expressions (rename id) =
      (conditionChecks tree.expressions id).map (RebuildCheck.relocate rename) := by
  rw [conditionChecks, conditionChecks, hrenamed.presentChildren_renamed, List.map_append,
    List.map_map, List.map_map]
  rfl

theorem failure?_renamed (hrenamed : tree.RenamedBy other rename) (check : RebuildCheck) :
    (check.relocate rename).failure? other.expressions =
      (check.failure? tree.expressions).map (RebuildError.relocate rename) := by
  cases check with
  | defined id =>
      simp only [RebuildCheck.relocate, RebuildCheck.failure?, hrenamed.denoted?_renamed,
        Option.isSome_map]
      split <;> rfl
  | operator id =>
      have hsame : (denoted? other.expressions (rename id)).any Expression.isOperator =
          (denoted? tree.expressions id).any Expression.isOperator := by
        rw [hrenamed.denoted?_renamed]
        cases denoted? tree.expressions id <;> rfl
      rw [RebuildCheck.relocate, RebuildCheck.failure?, RebuildCheck.failure?, hsame]
      split <;> rfl
  | misfit orderIndex => rfl

/-- Checking the renamed tree fails where checking the tree does. -/
theorem checked_renamed {Result : Type} (hrenamed : tree.RenamedBy other rename)
    (checks : List RebuildCheck) (result : Result) :
    checked other.expressions (checks.map (RebuildCheck.relocate rename)) result =
      (checked tree.expressions checks result).mapError (RebuildError.relocate rename) := by
  rw [checked, checked, List.findSome?_map]
  have hfailure : RebuildCheck.failure? other.expressions ∘ RebuildCheck.relocate rename =
      Option.map (RebuildError.relocate rename) ∘ RebuildCheck.failure? tree.expressions :=
    funext hrenamed.failure?_renamed
  rw [hfailure, ← List.map_findSome?]
  cases checks.findSome? (RebuildCheck.failure? tree.expressions) <;> rfl

/-- The records of the renamed tree come in the order of the records of the tree. -/
theorem inOrder_renamed (hrenamed : tree.RenamedBy other rename) :
    inOrder other.branches = (inOrder tree.branches).map (BranchRecord.relocate rename) := by
  have hperm : (inOrder other.branches).Perm
      ((inOrder tree.branches).map (BranchRecord.relocate rename)) :=
    ((inOrder_perm other.branches).trans hrenamed.branches_perm).trans
      ((inOrder_perm tree.branches).map (BranchRecord.relocate rename)).symm
  have hascending : ((inOrder tree.branches).map (BranchRecord.relocate rename)).Pairwise
      fun earlier later => earlier.orderIndex ≤ later.orderIndex := by
    rw [List.pairwise_map]
    exact inOrder_ascending tree.branches
  -- Both are ascending, and no two records have one index, so the order is determined.
  refine hperm.eq_of_pairwise ?_ (inOrder_ascending other.branches) hascending
  intro earlier later hearlier hlater hle hge
  have hheld := (inOrder_perm other.branches).mem_iff.mp hearlier
  have hotherHeld := (inOrder_perm other.branches).mem_iff.mp (hperm.mem_iff.mpr hlater)
  exact List.inj_on_of_nodup_map hrenamed.other_indexes_distinct hheld hotherHeld
    (Nat.le_antisymm hle hge)

/-- Whether the checks of an outcome are renamed with it. -/
def ChecksFollow (rename : Int → Int) (outcomeChecks : BranchRecord → List RebuildCheck) : Prop :=
  ∀ record : BranchRecord, outcomeChecks (record.relocate rename) =
    (outcomeChecks record).map (RebuildCheck.relocate rename)

theorem checksFollow_returnChecks (rename : Int → Int) :
    ChecksFollow rename BranchRecord.returnChecks := by
  intro record
  rw [BranchRecord.returnChecks, BranchRecord.returnChecks, BranchRecord.relocate]
  cases record.outcome <;> rfl

theorem checksFollow_statementChecks (rename : Int → Int) :
    ChecksFollow rename BranchRecord.statementChecks := by
  intro record
  rw [BranchRecord.statementChecks, BranchRecord.statementChecks, BranchRecord.relocate]
  cases record.outcome with
  | returns id => rfl
  | statements list =>
      simp only [BranchOutcome.relocate, List.map_map]
      rfl

theorem guardedRecords_map_relocate (rename : Int → Int) (records : List BranchRecord) :
    guardedRecords (records.map (BranchRecord.relocate rename)) =
      (guardedRecords records).map fun (id, record) => (rename id, record.relocate rename) := by
  rw [guardedRecords, guardedRecords, List.filterMap_map, List.map_filterMap]
  congr 1
  funext record
  simp only [Function.comp_apply, BranchRecord.relocate, Option.map_map]
  rfl

theorem defaultChecks_renamed {outcomeChecks : BranchRecord → List RebuildCheck}
    (hfollow : ChecksFollow rename outcomeChecks) (records : List BranchRecord) :
    defaultChecks outcomeChecks (records.map (BranchRecord.relocate rename)) =
      (defaultChecks outcomeChecks records).map (RebuildCheck.relocate rename) := by
  have hdefault : BranchRecord.isDefault ∘ BranchRecord.relocate rename =
      BranchRecord.isDefault := by
    funext record
    simp [BranchRecord.isDefault, BranchRecord.relocate]
  rw [defaultChecks, defaultChecks, List.find?_map, hdefault]
  cases records.find? BranchRecord.isDefault with
  | none => rfl
  | some record =>
      rw [Option.map_some, Option.toList_some, Option.toList_some, List.flatMap_singleton,
        List.flatMap_singleton, hfollow record]

theorem caseChecks_renamed (hrenamed : tree.RenamedBy other rename)
    {outcomeChecks : BranchRecord → List RebuildCheck}
    (hfollow : ChecksFollow rename outcomeChecks) (records : List BranchRecord) :
    caseChecks other.expressions outcomeChecks (records.map (BranchRecord.relocate rename)) =
      (caseChecks tree.expressions outcomeChecks records).map (RebuildCheck.relocate rename) := by
  rw [caseChecks, caseChecks, guardedRecords_map_relocate, List.flatMap_map, List.map_flatMap]
  congr 1
  funext guarded
  obtain ⟨id, record⟩ := guarded
  simp only [hrenamed.conditionChecks_renamed, hfollow record, List.map_append]

theorem rebuildChecks_renamed (hrenamed : tree.RenamedBy other rename)
    {outcomeChecks : BranchRecord → List RebuildCheck}
    (hfollow : ChecksFollow rename outcomeChecks) :
    other.rebuildChecks outcomeChecks =
      (tree.rebuildChecks outcomeChecks).map (RebuildCheck.relocate rename) := by
  rw [rebuildChecks, rebuildChecks, hrenamed.inOrder_renamed, defaultChecks_renamed hfollow,
    hrenamed.caseChecks_renamed hfollow, List.map_append]

/-! ## Results -/

variable {catalog : Catalog}

theorem valueOf_renamed (hrenamed : tree.RenamedBy other rename) (id : Int) :
    Rebuilder.valueOf ⟨other.expressions, catalog⟩ (rename id) =
      Rebuilder.valueOf ⟨tree.expressions, catalog⟩ id := by
  rw [Rebuilder.valueOf, Rebuilder.valueOf, hrenamed.denoted?_renamed, Option.map_map]
  rfl

theorem childOf_renamed (hrenamed : tree.RenamedBy other rename) (empty : Value)
    (child : Option Int) :
    Rebuilder.childOf ⟨other.expressions, catalog⟩ empty (child.map rename) =
      Rebuilder.childOf ⟨tree.expressions, catalog⟩ empty child := by
  cases child with
  | none => rfl
  | some id =>
      have hsign := hrenamed.sign_kept id
      by_cases hpresent : 0 ≤ id
      · simp [Rebuilder.childOf, Option.filter, hsign, hpresent, hrenamed.valueOf_renamed]
      · simp [Rebuilder.childOf, Option.filter, hsign, hpresent]

theorem conditionOf_renamed (hrenamed : tree.RenamedBy other rename) (id : Int) :
    Rebuilder.conditionOf ⟨other.expressions, catalog⟩ (rename id) =
      Rebuilder.conditionOf ⟨tree.expressions, catalog⟩ id := by
  rw [Rebuilder.conditionOf, Rebuilder.conditionOf, hrenamed.denoted?_renamed]
  cases denoted? tree.expressions id with
  | none => rfl
  | some expression =>
      simp only [Option.map_some, Option.getD_some, Expression.relocate, hrenamed.childOf_renamed]

theorem returnOf_renamed (hrenamed : tree.RenamedBy other rename) (record : BranchRecord) :
    Rebuilder.returnOf ⟨other.expressions, catalog⟩ (record.relocate rename) =
      Rebuilder.returnOf ⟨tree.expressions, catalog⟩ record := by
  rw [Rebuilder.returnOf, Rebuilder.returnOf, BranchRecord.relocate]
  cases record.outcome with
  | returns id => exact hrenamed.valueOf_renamed id
  | statements list => rfl

theorem adjustmentsOf_renamed (hrenamed : tree.RenamedBy other rename) (record : BranchRecord) :
    Rebuilder.adjustmentsOf ⟨other.expressions, catalog⟩ (record.relocate rename) =
      Rebuilder.adjustmentsOf ⟨tree.expressions, catalog⟩ record := by
  rw [Rebuilder.adjustmentsOf, Rebuilder.adjustmentsOf, BranchRecord.relocate]
  cases record.outcome with
  | returns id => rfl
  | statements list =>
      simp only [BranchOutcome.relocate, List.map_map]
      apply List.map_congr_left
      intro statement _
      simp only [Function.comp_apply, StatementRecord.relocate, hrenamed.valueOf_renamed]

theorem recordedReturns_renamed {Outcome : Type} (hrenamed : tree.RenamedBy other rename)
    {outcomeOf : Rebuilder → BranchRecord → Outcome}
    (houtcome : ∀ record : BranchRecord,
      outcomeOf ⟨other.expressions, catalog⟩ (record.relocate rename) =
        outcomeOf ⟨tree.expressions, catalog⟩ record) :
    other.recordedReturns catalog outcomeOf = tree.recordedReturns catalog outcomeOf := by
  rw [recordedReturns, recordedReturns, hrenamed.inOrder_renamed, List.map_map]
  apply List.map_congr_left
  intro record _
  have hguard : (record.relocate rename).condition.map
      (Rebuilder.conditionOf ⟨other.expressions, catalog⟩) =
        record.condition.map (Rebuilder.conditionOf ⟨tree.expressions, catalog⟩) := by
    rw [BranchRecord.relocate, Option.map_map]
    apply Option.map_congr
    intro id _
    exact hrenamed.conditionOf_renamed id
  rw [Function.comp_apply, Rebuilder.guardedReturnOf, Rebuilder.guardedReturnOf, hguard,
    houtcome record]

theorem rebuildIf_renamed (hrenamed : tree.RenamedBy other rename) (kind : TreeKind) :
    other.rebuildIf catalog kind =
      (tree.rebuildIf catalog kind).mapError (RebuildError.relocate rename) := by
  rw [rebuildIf_checked, rebuildIf_checked,
    hrenamed.rebuildChecks_renamed (checksFollow_returnChecks rename), hrenamed.checked_renamed,
    hrenamed.recordedReturns_renamed hrenamed.returnOf_renamed]

theorem rebuildAdjustment_renamed (hrenamed : tree.RenamedBy other rename) :
    other.rebuildAdjustment catalog =
      (tree.rebuildAdjustment catalog).mapError (RebuildError.relocate rename) := by
  rw [rebuildAdjustment_checked, rebuildAdjustment_checked,
    hrenamed.rebuildChecks_renamed (checksFollow_statementChecks rename),
    hrenamed.checked_renamed, hrenamed.recordedReturns_renamed hrenamed.adjustmentsOf_renamed]

end CompiledTree.RenamedBy

/-- Whether two rebuildings come to equivalent trees, or to one error up to its id. -/
def SameUpTo {Rebuilt : Type} (rename : Int → Int) (equivalent : Rebuilt → Rebuilt → Bool) :
    Except RebuildError Rebuilt → Except RebuildError Rebuilt → Prop
  | .ok rebuilt, .ok other => equivalent other rebuilt = true
  | .error error, .error other => other = error.relocate rename
  | _, _ => False

theorem sameUpTo_mapError {Rebuilt : Type} {equivalent : Rebuilt → Rebuilt → Bool}
    (hrefl : ∀ rebuilt, equivalent rebuilt rebuilt = true) (rename : Int → Int)
    (result : Except RebuildError Rebuilt) :
    SameUpTo rename equivalent result (result.mapError (RebuildError.relocate rename)) := by
  cases result with
  | error error => rfl
  | ok rebuilt => exact hrefl rebuilt

namespace CompiledTree

/-- Rebuilding depends on what a compiled tree holds, not on its ids and the order of its
rows. -/
theorem rebuild_renamed {tree other : CompiledTree} {rename : Int → Int}
    (hrenamed : tree.RenamedBy other rename) (catalog : Catalog) (kind : TreeKind) :
    SameUpTo rename IfTree.equivalent (tree.rebuildIf catalog kind)
        (other.rebuildIf catalog kind) ∧
      SameUpTo rename AdjustmentTree.equivalent (tree.rebuildAdjustment catalog)
        (other.rebuildAdjustment catalog) := by
  constructor
  · rw [hrenamed.rebuildIf_renamed]
    exact sameUpTo_mapError IfTree.equivalent_refl rename _
  · rw [hrenamed.rebuildAdjustment_renamed]
    exact sameUpTo_mapError (fun _ => AdjustmentTree.equivalent_iff.mpr rfl) rename _

def shiftPresent (id : Int) : Int :=
  if 0 ≤ id then id + 10 else id

/-- A tree whose condition has its right side left out. -/
def unfinishedRow : CompiledTree where
  expressions :=
    [{ id := 1, kind := .factRef, reference := some "age" },
      { id := 2, kind := .operator, operator := some .less, left := some 1, right := some (-1) },
      { id := 3, kind := .constant, truth := some true }]
  branches := [⟨7, none, .returns 3⟩, ⟨4, some 2, .returns 1⟩]

def unfinishedRowReversed : CompiledTree where
  expressions := (unfinishedRow.expressions.map (Expression.relocate shiftPresent)).reverse
  branches := (unfinishedRow.branches.map (BranchRecord.relocate shiftPresent)).reverse

theorem unfinishedRow_renamedBy :
    unfinishedRow.RenamedBy unfinishedRowReversed shiftPresent where
  ids_distinct := by decide
  indexes_distinct := by decide
  injective := by
    intro first second hsame
    simp only [shiftPresent] at hsame
    split at hsame <;> split at hsame <;> omega
  sign_kept := by
    intro id
    rw [shiftPresent]
    split <;> omega
  expressions_perm := List.reverse_perm _
  branches_perm := List.reverse_perm _

theorem rebuild_renamed_unfinishedRow :
    unfinishedRow.RenamedBy unfinishedRowReversed shiftPresent ∧
      SameUpTo shiftPresent IfTree.equivalent (unfinishedRow.rebuildIf Catalog.empty .conditional)
        (unfinishedRowReversed.rebuildIf Catalog.empty .conditional) ∧
      SameUpTo shiftPresent AdjustmentTree.equivalent
        (unfinishedRow.rebuildAdjustment Catalog.empty)
        (unfinishedRowReversed.rebuildAdjustment Catalog.empty) :=
  ⟨unfinishedRow_renamedBy, rebuild_renamed unfinishedRow_renamedBy Catalog.empty .conditional⟩

end CompiledTree

end DecisionCanvas
