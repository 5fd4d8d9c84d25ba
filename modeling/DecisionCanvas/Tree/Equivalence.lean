import DecisionCanvas.Tree.Basic

/-!
# Equivalence of trees

Two trees are equivalent when they differ in selectors only.  The selector of a
statement is what the statement refers to, so there it counts, while the
expression a statement was last resolved to does not.
-/

namespace DecisionCanvas

/-- Equality of values up to what only the editor needs. -/
def Value.equivalent : Value → Value → Bool
  | .literal left _, .literal right _ => left == right
  | .variable left _, .variable right _ => left == right
  | .statement _ left, .statement _ right => left == right
  | .boolean left _, .boolean right _ => left == right
  | .choice left _, .choice right _ => left == right
  | .unsupported, .unsupported => true
  | _, _ => false

def Condition.equivalent (left right : Condition) : Bool :=
  left.left.equivalent right.left && left.operator == right.operator &&
    left.right.equivalent right.right

def Adjustment.equivalent (left right : Adjustment) : Bool :=
  left.operation == right.operation && left.value.equivalent right.value

def Adjustment.listEquivalent : List Adjustment → List Adjustment → Bool
  | [], [] => true
  | left :: lefts, right :: rights =>
    left.equivalent right && listEquivalent lefts rights
  | _, _ => false

namespace Tree

variable {Outcome : Type}

mutual

/-- Equivalence of trees, given that of their outcomes. -/
def equivalentBy (same : Outcome → Outcome → Bool) : Tree Outcome → Tree Outcome → Bool
  | .returns left, .returns right => same left right
  | .decides leftCases leftOtherwise, .decides rightCases rightOtherwise =>
    casesEquivalentBy same leftCases rightCases && equivalentBy same leftOtherwise rightOtherwise
  | _, _ => false

def casesEquivalentBy (same : Outcome → Outcome → Bool) :
    List (Case (Tree Outcome)) → List (Case (Tree Outcome)) → Bool
  | [], [] => true
  | ⟨leftCondition, leftBody⟩ :: lefts, ⟨rightCondition, rightBody⟩ :: rights =>
    leftCondition.equivalent rightCondition && equivalentBy same leftBody rightBody &&
      casesEquivalentBy same lefts rights
  | _, _ => false

end

end Tree

def IfTree.equivalent (left right : IfTree) : Bool :=
  Tree.equivalentBy Value.equivalent left right

def AdjustmentTree.equivalent (left right : AdjustmentTree) : Bool :=
  Tree.equivalentBy Adjustment.listEquivalent left right

end DecisionCanvas
