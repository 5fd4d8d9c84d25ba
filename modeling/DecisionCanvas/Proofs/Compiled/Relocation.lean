import DecisionCanvas.Compiled.Basic
import DecisionCanvas.Proofs.Compiled.SelfContained

/-!
# Relocated trees

Storing a compiled tree replaces its scratch ids by durable ones everywhere.  What is
referred to is replaced together with what refers to it, so the shape stays.
-/

namespace DecisionCanvas

/-- The expression with other ids. -/
def Expression.relocate (durable : Int → Int) (expression : Expression) : Expression :=
  { expression with
    id := durable expression.id
    left := expression.left.map durable
    right := expression.right.map durable }

/-- The expression with other ids of its children. -/
def Expression.renameChildren (durable : Int → Int) (expression : Expression) : Expression :=
  { expression with
    left := expression.left.map durable
    right := expression.right.map durable }

namespace Expression

variable (durable : Int → Int) (expression : Expression)

@[simp]
theorem isOperator_relocate :
    (expression.relocate durable).isOperator = expression.isOperator := rfl

@[simp]
theorem children_relocate :
    (expression.relocate durable).children = expression.children.map durable := by
  cases hleft : expression.left <;> cases hright : expression.right <;>
    simp [children, relocate, hleft, hright]

@[simp]
theorem children_renameChildren :
    (expression.renameChildren durable).children = expression.children.map durable :=
  expression.children_relocate durable

theorem children_eq_nil_iff :
    expression.children = [] ↔ expression.left = none ∧ expression.right = none := by
  cases hleft : expression.left <;> cases hright : expression.right <;>
    simp [children, hleft, hright]

/-- Only what the ids of the children become matters. -/
theorem renameChildren_congr {expression : Expression} {durable other : Int → Int}
    (hsame : ∀ child ∈ expression.children, durable child = other child) :
    expression.renameChildren durable = expression.renameChildren other := by
  have hleft : expression.left.map durable = expression.left.map other := by
    apply Option.map_congr
    intro child hchild
    exact hsame child (List.mem_append_left _ (Option.mem_toList.mpr hchild))
  have hright : expression.right.map durable = expression.right.map other := by
    apply Option.map_congr
    intro child hchild
    exact hsame child (List.mem_append_right _ (Option.mem_toList.mpr hchild))
  rw [renameChildren, hleft, hright]
  rfl

/-- Without children nothing is renamed. -/
theorem renameChildren_childless (hchildless : expression.children = []) :
    expression.renameChildren durable = expression := by
  obtain ⟨hleft, hright⟩ := expression.children_eq_nil_iff.mp hchildless
  cases expression
  simp only at hleft hright
  subst hleft hright
  rfl

end Expression

/-- The statement with another id. -/
def StatementRecord.relocate (durable : Int → Int) (statement : StatementRecord) :
    StatementRecord :=
  { statement with value := durable statement.value }

/-- The outcome with other ids. -/
def BranchOutcome.relocate (durable : Int → Int) : BranchOutcome → BranchOutcome
  | .returns expression => .returns (durable expression)
  | .statements list => .statements (list.map (StatementRecord.relocate durable))

@[simp]
theorem BranchOutcome.expressions_relocate (durable : Int → Int) (outcome : BranchOutcome) :
    (outcome.relocate durable).expressions = outcome.expressions.map durable := by
  cases outcome with
  | returns expression => rfl
  | statements list =>
      simp only [relocate, expressions, List.map_map]
      rfl

/-- The branch with other ids. -/
def BranchRecord.relocate (durable : Int → Int) (record : BranchRecord) : BranchRecord :=
  ⟨record.orderIndex, record.condition.map durable, record.outcome.relocate durable⟩

@[simp]
theorem BranchRecord.referenced_relocate (durable : Int → Int) (record : BranchRecord) :
    (record.relocate durable).referenced = record.referenced.map durable := by
  cases hcondition : record.condition <;> simp [referenced, relocate, hcondition]

namespace CompiledTree

/-- A self-contained tree in which operands refer to nothing and operators to operands
only, so that it can be stored in two rounds. -/
structure Layered (tree : CompiledTree) : Prop extends tree.SelfContained where
  operands_childless : ∀ expression ∈ tree.expressions, expression.isOperator = false →
    expression.children = []
  operators_on_operands : ∀ expression ∈ tree.expressions, expression.isOperator = true →
    ∀ child ∈ expression.children, ∃ operand ∈ tree.expressions,
      operand.isOperator = false ∧ operand.id = child

/-- The expressions in the order in which they are stored. -/
def storedOrder (tree : CompiledTree) : List Expression :=
  tree.operands ++ tree.operators

theorem storedOrder_perm (tree : CompiledTree) : tree.storedOrder.Perm tree.expressions := by
  have hperm := List.filter_append_perm Expression.isOperator tree.expressions
  exact List.perm_append_comm.trans hperm

theorem length_storedOrder (tree : CompiledTree) :
    tree.storedOrder.length = tree.expressions.length :=
  tree.storedOrder_perm.length_eq

theorem mem_storedOrder {tree : CompiledTree} {expression : Expression} :
    expression ∈ tree.storedOrder ↔ expression ∈ tree.expressions :=
  tree.storedOrder_perm.mem_iff

theorem mem_operands {tree : CompiledTree} {expression : Expression} :
    expression ∈ tree.operands ↔ expression ∈ tree.expressions ∧ expression.isOperator = false := by
  simp [operands]

theorem mem_operators {tree : CompiledTree} {expression : Expression} :
    expression ∈ tree.operators ↔ expression ∈ tree.expressions ∧ expression.isOperator = true := by
  simp [operators]

/-- The tree in its stored order with other ids. -/
def relocate (durable : Int → Int) (tree : CompiledTree) : CompiledTree :=
  ⟨tree.storedOrder.map (Expression.relocate durable),
    tree.branches.map (BranchRecord.relocate durable)⟩

theorem SelfContained.storedOrder_ids_nodup {tree : CompiledTree} (htree : tree.SelfContained) :
    (tree.storedOrder.map Expression.id).Nodup :=
  (tree.storedOrder_perm.map Expression.id).nodup_iff.mpr htree.ids_distinct

end CompiledTree

end DecisionCanvas
