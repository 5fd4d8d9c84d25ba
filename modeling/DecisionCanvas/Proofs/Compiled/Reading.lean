import DecisionCanvas.Compiled.Rebuild
import DecisionCanvas.Proofs.Compiled.Shape
import DecisionCanvas.Proofs.Tree.Returns
import DecisionCanvas.Proofs.UuidText
import Mathlib.Data.List.Forall2

/-!
# Reading compiled trees back

Every compiled value is read back in one normal form, whatever ids it was given in the
meantime.  With that, the records of a compiled tree are read back as the guarded
returns of the tree, and these make up the rebuilt tree.
-/

namespace DecisionCanvas

/-! ## Normal forms -/

/-- The form in which a value is read back: literals as their number is written,
variables as the catalog has them, and everything without a selector of its own. -/
def Value.normal (catalog : Catalog) : Value → Value
  | .literal text selector =>
    match literalNumber? text with
    | some number => .literal (Decimal.plainText number) none
    | none => .literal text selector
  | .variable reference _ =>
    if reference.scope = factScope then catalog.variableFor reference.key
    else
      match Uuid.ofText? reference.key with
      | some selector => .statement (some reference.key) selector
      | none => catalog.variableFor reference.key
  | .statement _ selector => .statement (some selector.text) selector
  | .boolean truth _ => .boolean truth none
  | .choice option _ => .choice option none
  | .unsupported => .unsupported

def Condition.normal (catalog : Catalog) (condition : Condition) : Condition :=
  ⟨condition.left.normal catalog, condition.operator, condition.right.normal catalog⟩

def Adjustment.normal (catalog : Catalog) (adjustment : Adjustment) : Adjustment :=
  ⟨adjustment.operation, adjustment.value.normal catalog⟩

/-- What a compiled value is read back as. -/
theorem Value.value_of_lower {position : Nat} {value : Value} {expression : Expression}
    (hlower : value.lower position = .ok expression) (catalog : Catalog) :
    expression.value catalog = value.normal catalog := by
  match value with
  | .literal text selector =>
      rw [lower] at hlower
      cases hnumber : literalNumber? text with
      | none => simp [hnumber] at hlower
      | some number =>
          simp only [hnumber, Except.ok.injEq] at hlower
          rw [normal, hnumber, ← hlower]
          rfl
  | .variable reference selector =>
      simp only [lower, Except.ok.injEq] at hlower
      rw [normal, ← hlower]
      by_cases hscope : reference.scope = factScope
      · rw [if_pos hscope, if_pos hscope]
        rfl
      · rw [if_neg hscope, if_neg hscope]
        rfl
  | .statement held selector =>
      simp only [lower, Except.ok.injEq] at hlower
      rw [normal, ← hlower]
      simp only [Expression.value, Option.getD_some, Uuid.ofText?_text]
  | .boolean truth selector | .choice option selector =>
      simp only [lower, Except.ok.injEq] at hlower
      rw [normal, ← hlower]
      rfl
  | .unsupported => simp [lower] at hlower

@[simp]
theorem Expression.value_relocate (durable : Int → Int) (expression : Expression)
    (catalog : Catalog) :
    (expression.relocate durable).value catalog = expression.value catalog := rfl

/-! ## Reading expressions -/

namespace Rebuilder

variable {source : Rebuilder} {durable : Int → Int}

/-- Whether an expression is found under its durable id. -/
def Holds (source : Rebuilder) (durable : Int → Int) (expression : Expression) : Prop :=
  0 ≤ durable expression.id ∧
    source.expression? (durable expression.id) = some (expression.relocate durable)

theorem value_eq {position : Nat} {value : Value} {expression : Expression}
    (hlower : value.lower position = .ok expression) (hheld : source.Holds durable expression) :
    source.value (durable expression.id) = .ok (value.normal source.catalog) := by
  rw [Rebuilder.value, hheld.2, ← Value.value_of_lower hlower]
  rfl

theorem childValue_eq {position : Nat} {value : Value} {expression : Expression} (empty : Value)
    (hlower : value.lower position = .ok expression) (hheld : source.Holds durable expression) :
    source.childValue empty (some (durable expression.id)) =
      .ok (value.normal source.catalog) := by
  rw [childValue, if_pos hheld.1, value_eq hlower hheld]

theorem condition_eq {position : Nat} {condition : Condition} {guard : List Expression}
    (hlower : condition.lower position = .ok guard)
    (hheld : ∀ expression ∈ guard, source.Holds durable expression) :
    source.condition (durable (scratchId (position + 2))) =
      .ok (condition.normal source.catalog) := by
  obtain ⟨left, right, hleft, hright, rfl⟩ := Condition.lower_eq_ok hlower
  have hleftValue := childValue_eq .emptyVariable hleft (hheld left (by simp))
  have hrightValue := childValue_eq .emptyLiteral hright (hheld right (by simp))
  have hoperator := hheld (condition.operatorExpression position left right) (by simp)
  have hfound : source.expression? (durable (scratchId (position + 2))) =
      some ((condition.operatorExpression position left right).relocate durable) := hoperator.2
  rw [Rebuilder.condition, hfound]
  simp only [Condition.operatorExpression, Expression.relocate, Expression.isOperator,
    Option.map_some, hleftValue, hrightValue]
  rfl

/-- Whether a leaf is read back as a return whose values are in normal form. -/
structure ReadsAs {Outcome : Type} (source : Rebuilder) (durable : Int → Int)
    (read : BranchRecord → Except RebuildError Outcome) (normal : Outcome → Outcome)
    (leaf : Leaf) (ret : GuardedReturn Outcome) : Prop where
  guard : Option.Rel
    (fun id condition => source.condition (durable id) = .ok (condition.normal source.catalog))
    leaf.condition ret.guard
  outcome : ∀ index condition, read ⟨index, condition, leaf.outcome.relocate durable⟩ =
    .ok (normal ret.outcome)

end Rebuilder

/-- How a compiled outcome has to be read: as the outcome with its values in normal
form. -/
structure LowerOutcome.ReadBack {Outcome : Type} (lower : LowerOutcome Outcome)
    (read : Rebuilder → BranchRecord → Except RebuildError Outcome)
    (normal : Catalog → Outcome → Outcome) : Prop where
  read_eq : ∀ {source durable position outcome expressions result},
    lower position outcome = .ok (expressions, result) →
    (∀ expression ∈ expressions, source.Holds durable expression) →
    ∀ index condition, read source ⟨index, condition, result.relocate durable⟩ =
      .ok (normal source.catalog outcome)

theorem Value.lowerOutcome_readBack :
    LowerOutcome.ReadBack Value.lowerOutcome Rebuilder.returned Value.normal where
  read_eq := by
    intro source durable position value expressions result hlower hheld index condition
    obtain ⟨expression, hvalue, rfl, rfl⟩ := lowerOutcome_eq_ok hlower
    exact Rebuilder.value_eq hvalue (hheld expression (List.mem_singleton_self _))

theorem Adjustment.adjustments_eq {source : Rebuilder} {durable : Int → Int} {position : Nat}
    {adjustments : List Adjustment} {expressions : List Expression}
    {statements : List StatementRecord}
    (hlower : lowerList position adjustments = .ok (expressions, statements))
    (hheld : ∀ expression ∈ expressions, source.Holds durable expression) :
    source.adjustments (statements.map (StatementRecord.relocate durable)) =
      .ok (adjustments.map (normal source.catalog)) := by
  induction adjustments generalizing position expressions statements with
  | nil =>
      simp only [lowerList, Except.ok.injEq, Prod.mk.injEq] at hlower
      rw [← hlower.2]
      rfl
  | cons adjustment rest ih =>
      obtain ⟨expression, others, othersStatements, hvalue, hrest, rfl, rfl⟩ :=
        lowerList_cons_eq_ok hlower
      have hfirst := Rebuilder.value_eq hvalue (hheld expression List.mem_cons_self)
      have hothers := ih hrest fun other hother => hheld other (List.mem_cons_of_mem _ hother)
      rw [List.map_cons, Rebuilder.adjustments, hothers]
      simp only [StatementRecord.relocate, hfirst]
      rfl

theorem Adjustment.lowerOutcome_readBack :
    LowerOutcome.ReadBack Adjustment.lowerOutcome Rebuilder.adjusted
      (fun catalog => List.map (Adjustment.normal catalog)) where
  read_eq := by
    intro source durable position adjustments expressions result hlower hheld index condition
    obtain ⟨statements, hlist, rfl⟩ := lowerOutcome_eq_ok hlower
    exact adjustments_eq hlist hheld

/-! ## Reading leaves -/

namespace Tree

variable {Outcome : Type} {lower : LowerOutcome Outcome}
variable {read : Rebuilder → BranchRecord → Except RebuildError Outcome}
variable {normal : Catalog → Outcome → Outcome}

theorem guardFirst_reads {source : Rebuilder} {durable : Int → Int} {position : Nat}
    {condition : Condition} {guard : List Expression} {leaves : List Leaf}
    {returns : List (GuardedReturn Outcome)}
    (hguard : condition.lower position = .ok guard)
    (hheld : ∀ expression ∈ guard, source.Holds durable expression)
    (hreads : List.Forall₂
      (source.ReadsAs durable (read source) (normal source.catalog)) leaves returns) :
    List.Forall₂ (source.ReadsAs durable (read source) (normal source.catalog))
      (Flattened.guardFirst (scratchId (position + 2)) leaves)
      (GuardedReturn.guardFirst condition returns) := by
  cases hreads with
  | nil => exact .nil
  | cons hfirst hrest =>
      exact .cons ⟨.some (Rebuilder.condition_eq hguard hheld), hfirst.outcome⟩ hrest

theorem flattenInvariant_reads (hback : lower.ReadBack read normal) (source : Rebuilder)
    (durable : Int → Int) :
    FlattenInvariant lower
      (fun _ tree part => (∀ expression ∈ part.expressions, source.Holds durable expression) →
        List.Forall₂ (source.ReadsAs durable (read source) (normal source.catalog))
          part.leaves tree.guardedReturns)
      (fun _ cases part => (∀ expression ∈ part.expressions, source.Holds durable expression) →
        List.Forall₂ (source.ReadsAs durable (read source) (normal source.catalog))
          part.leaves (guardedCases cases)) where
  returns := by
    intro position outcome expressions result houtcome hheld
    rw [guardedReturns]
    exact .cons ⟨.none, hback.read_eq houtcome hheld⟩ .nil
  decides := by
    intro position cases otherwise front back hfront hbackPart hheld
    rw [guardedReturns]
    refine List.rel_append (hfront fun expression hexpression => ?_)
      (hbackPart fun expression hexpression => ?_)
    · exact hheld expression (List.mem_append_left _ hexpression)
    · exact hheld expression (List.mem_append_right _ hexpression)
  nil := by
    intro position _
    rw [guardedCases]
    exact .nil
  cons := by
    intro position condition body rest guard inner others hguard hinner hothers hheld
    have hcase : ∀ expression ∈ guard ++ inner.expressions, source.Holds durable expression :=
      fun expression hexpression => hheld expression (List.mem_append_left _ hexpression)
    have hinnerReads := hinner fun expression hexpression =>
      hcase expression (List.mem_append_right _ hexpression)
    have hguarded := guardFirst_reads hguard
      (fun expression hexpression => hcase expression (List.mem_append_left _ hexpression))
      hinnerReads
    rw [guardedCases]
    refine List.rel_append hguarded (hothers fun expression hexpression => ?_)
    exact hheld expression (List.mem_append_right _ hexpression)

/-- The leaves of a compiled tree are read back as its guarded returns. -/
theorem flatten_reads (hback : lower.ReadBack read normal) {source : Rebuilder}
    {durable : Int → Int} {position : Nat} {tree : Tree Outcome} {part : Flattened}
    (hflatten : flatten lower position tree = .ok part)
    (hheld : ∀ expression ∈ part.expressions, source.Holds durable expression) :
    List.Forall₂ (source.ReadsAs durable (read source) (normal source.catalog))
      part.leaves tree.guardedReturns :=
  (flattenInvariant_reads hback source durable).of_flatten hflatten hheld

end Tree

/-! ## Rebuilding -/

/-- The records of leaves as they are stored, numbered from `start`. -/
def storedRecords (durable : Int → Int) (start : Nat) (leaves : List Leaf) :
    List BranchRecord :=
  (leaves.zipIdx start).map fun (leaf, index) =>
    BranchRecord.relocate durable ⟨index, leaf.condition, leaf.outcome⟩

theorem map_relocate_records (durable : Int → Int) (leaves : List Leaf) :
    (Flattened.records leaves).map (BranchRecord.relocate durable) =
      storedRecords durable 0 leaves := by
  rw [Flattened.records, List.map_map]
  rfl

theorem storedRecords_cons (durable : Int → Int) (start : Nat) (leaf : Leaf)
    (leaves : List Leaf) :
    storedRecords durable start (leaf :: leaves) =
      BranchRecord.relocate durable ⟨start, leaf.condition, leaf.outcome⟩ ::
        storedRecords durable (start + 1) leaves := rfl

/-- The first of some records are the records of the first leaves. -/
theorem take_storedRecords (durable : Int → Int) (start count : Nat) (leaves : List Leaf) :
    (storedRecords durable start leaves).take count =
      storedRecords durable start (leaves.take count) := by
  induction leaves generalizing start count with
  | nil => simp [storedRecords]
  | cons leaf rest ih =>
      cases count with
      | zero => rfl
      | succ count =>
          rw [storedRecords_cons, List.take_succ_cons, List.take_succ_cons, storedRecords_cons,
            ih]

theorem start_le_of_mem_storedRecords {durable : Int → Int} {start : Nat} {leaves : List Leaf}
    {record : BranchRecord} (hrecord : record ∈ storedRecords durable start leaves) :
    start ≤ record.orderIndex := by
  obtain ⟨⟨leaf, index⟩, hleaf, rfl⟩ := List.mem_map.mp hrecord
  exact List.le_snd_of_mem_zipIdx hleaf

/-- Numbered records are in order already. -/
theorem inOrder_storedRecords (durable : Int → Int) (start : Nat) (leaves : List Leaf) :
    inOrder (storedRecords durable start leaves) = storedRecords durable start leaves := by
  refine List.mergeSort_of_pairwise ?_
  induction leaves generalizing start with
  | nil => exact .nil
  | cons leaf rest ih =>
      rw [storedRecords_cons, List.pairwise_cons]
      refine ⟨fun record hrecord => ?_, ih (start + 1)⟩
      have hlater := start_le_of_mem_storedRecords hrecord
      have hown : (BranchRecord.relocate durable
          ⟨start, leaf.condition, leaf.outcome⟩).orderIndex = start := rfl
      rw [hown, decide_eq_true_iff]
      omega

section Rebuild

variable {Outcome : Type} {source : Rebuilder} {durable : Int → Int}
variable {read : BranchRecord → Except RebuildError Outcome} {normal : Outcome → Outcome}
variable {leaves : List Leaf} {returns : List (GuardedReturn Outcome)}

theorem isDefault_of_readsAs {leaf : Leaf} {ret : GuardedReturn Outcome}
    (hreads : source.ReadsAs durable read normal leaf ret) (start : Nat) :
    (BranchRecord.relocate durable ⟨start, leaf.condition, leaf.outcome⟩).isDefault =
      ret.isDefault := by
  have hguard := hreads.guard
  simp only [BranchRecord.isDefault, BranchRecord.relocate, GuardedReturn.isDefault]
  cases hcondition : leaf.condition <;> cases hret : ret.guard <;>
    simp only [hcondition, hret] at hguard ⊢
  · rfl
  · cases hguard
  · cases hguard
  · rfl

/-- The first default that is read. -/
theorem defaultOutcome_eq (start : Nat)
    (hreads : List.Forall₂ (source.ReadsAs durable read normal) leaves returns) :
    defaultOutcome read (storedRecords durable start leaves) =
      .ok (((returns.map (.map (Condition.normal source.catalog) normal)).find?
        GuardedReturn.isDefault).map GuardedReturn.outcome) := by
  induction hreads generalizing start with
  | nil => rfl
  | @cons leaf ret leaves returns hfirst hrest ih =>
      have hsame := isDefault_of_readsAs hfirst start
      rw [defaultOutcome, storedRecords_cons, List.map_cons, List.find?_cons, List.find?_cons,
        hsame, GuardedReturn.isDefault_map]
      cases hdefault : ret.isDefault with
      | true =>
          simp only [BranchRecord.relocate, hfirst.outcome, Option.map_some]
          rfl
      | false => exact ih (start + 1)

/-- The cases that are read. -/
theorem cases_eq (start : Nat)
    (hreads : List.Forall₂ (source.ReadsAs durable read normal) leaves returns) :
    source.cases read (storedRecords durable start leaves) =
      .ok ((returns.map (.map (Condition.normal source.catalog) normal)).filterMap
        GuardedReturn.case?) := by
  induction hreads generalizing start with
  | nil => rfl
  | @cons leaf ret leaves returns hfirst hrest ih =>
      have hguard := hfirst.guard
      rw [storedRecords_cons, Rebuilder.cases, ih (start + 1), List.map_cons]
      simp only [BranchRecord.relocate, hfirst.outcome, GuardedReturn.map, GuardedReturn.case?,
        List.filterMap_cons]
      cases hcondition : leaf.condition <;> cases hret : ret.guard <;>
        simp only [hcondition, hret] at hguard
      · rfl
      · cases hguard
      · cases hguard
      · cases hguard with
        | some hread =>
            simp only [Option.map_some, hread]
            rfl

end Rebuild

/-- What the single return of a tree becomes for its kind. -/
def TreeKind.settle (kind : TreeKind) (value : Value) : Value :=
  if kind = .conditional then value.coerceBoolean else value

/-- The tree that is read back after an if-tree was stored. -/
def IfTree.reloaded (catalog : Catalog) (kind : TreeKind) (tree : IfTree) : IfTree :=
  Tree.ofReturns (.boolean false none) kind.settle
    (tree.guardedReturns.map (.map (Condition.normal catalog) (Value.normal catalog)))

/-- The tree that is read back after an adjustment tree was stored. -/
def AdjustmentTree.reloaded (catalog : Catalog) (tree : AdjustmentTree) : AdjustmentTree :=
  Tree.ofReturns [] id
    (tree.guardedReturns.map
      (.map (Condition.normal catalog) (List.map (Adjustment.normal catalog))))

namespace CompiledTree

theorem rebuildIf_eq {expressions : List Expression} {catalog : Catalog} {durable : Int → Int}
    {returns : List (GuardedReturn Value)} {leaves : List Leaf} (kind : TreeKind)
    (hreads : List.Forall₂ (Rebuilder.ReadsAs ⟨expressions, catalog⟩ durable
      (Rebuilder.returned ⟨expressions, catalog⟩) (Value.normal catalog)) leaves returns) :
    rebuildIf ⟨expressions, storedRecords durable 0 leaves⟩ catalog kind =
      .ok (Tree.ofReturns (.boolean false none) kind.settle
        (returns.map (.map (Condition.normal catalog) (Value.normal catalog)))) := by
  rw [rebuildIf, inOrder_storedRecords, defaultOutcome_eq 0 hreads, cases_eq 0 hreads,
    Tree.ofReturns]
  simp only [Except.bind, bind]
  split <;> rfl

theorem rebuildAdjustment_eq {expressions : List Expression} {catalog : Catalog}
    {durable : Int → Int} {returns : List (GuardedReturn (List Adjustment))}
    {leaves : List Leaf}
    (hreads : List.Forall₂ (Rebuilder.ReadsAs ⟨expressions, catalog⟩ durable
      (Rebuilder.adjusted ⟨expressions, catalog⟩) (List.map (Adjustment.normal catalog))) leaves
        returns) :
    rebuildAdjustment ⟨expressions, storedRecords durable 0 leaves⟩ catalog =
      .ok (Tree.ofReturns [] id
        (returns.map (.map (Condition.normal catalog) (List.map (Adjustment.normal catalog))))) := by
  rw [rebuildAdjustment, inOrder_storedRecords, defaultOutcome_eq 0 hreads, cases_eq 0 hreads,
    Tree.ofReturns]
  simp only [Except.bind, bind]
  split <;> rfl

end CompiledTree

end DecisionCanvas
