import DecisionCanvas.Tree.Value

/-!
# Decision trees

A tree returns an outcome, or decides between cases by their conditions, first
case first, with a tree of its own for when no condition holds.  Outcomes are
single values in if-trees and lists of adjustments in adjustment trees.
-/

namespace DecisionCanvas

/-- A comparison or connection of two values. -/
structure Condition where
  left : Value
  operator : ConditionOperator
  right : Value
  deriving DecidableEq, Inhabited

/-- One step of an adjustment: combine with a value. -/
structure Adjustment where
  operation : Arithmetic
  value : Value
  deriving DecidableEq, Inhabited

/-- A condition and what is done when it holds. -/
structure Case (Body : Type) where
  condition : Condition
  body : Body

/-- A decision tree. -/
inductive Tree (Outcome : Type) where
  | returns (outcome : Outcome)
  | decides (cases : List (Case (Tree Outcome))) (otherwise : Tree Outcome)

/-- A tree that returns one value. -/
abbrev IfTree := Tree Value

/-- A tree that returns a list of adjustments. -/
abbrev AdjustmentTree := Tree (List Adjustment)

namespace Tree

variable {Outcome : Type}

instance [Inhabited Outcome] : Inhabited (Tree Outcome) := ⟨.returns default⟩

mutual

/-- How deep decisions nest; a bare return has depth zero. -/
def depth : Tree Outcome → Nat
  | .returns _ => 0
  | .decides cases otherwise => 1 + max (deepestCase cases) otherwise.depth

def deepestCase : List (Case (Tree Outcome)) → Nat
  | [] => 0
  | ⟨_, body⟩ :: rest => max body.depth (deepestCase rest)

end

end Tree

end DecisionCanvas
