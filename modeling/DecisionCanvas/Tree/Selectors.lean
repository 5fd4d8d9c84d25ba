import DecisionCanvas.Tree.Basic
import DecisionCanvas.IdSource

/-!
# Giving out selectors

Before values are written for the editor, those without a selector are given a
fresh one, from left to right.
-/

namespace DecisionCanvas

/-- The selector there is, or the next fresh one. -/
def IdSource.fill (source : IdSource) : Option Uuid → Option Uuid × IdSource
  | some selector => (some selector, source)
  | none => (some source.draw.1, source.draw.2)

def Value.withSelector (source : IdSource) : Value → Value × IdSource
  | .literal text selector =>
    let (selector, source) := source.fill selector
    (.literal text selector, source)
  | .variable reference selector =>
    let (selector, source) := source.fill selector
    (.variable reference selector, source)
  | .statement expression selector => (.statement expression selector, source)
  | .boolean truth selector =>
    let (selector, source) := source.fill selector
    (.boolean truth selector, source)
  | .choice option selector =>
    let (selector, source) := source.fill selector
    (.choice option selector, source)
  | .unsupported => (.unsupported, source)

def Condition.withSelectors (source : IdSource) (condition : Condition) :
    Condition × IdSource :=
  let (left, source) := condition.left.withSelector source
  let (right, source) := condition.right.withSelector source
  (⟨left, condition.operator, right⟩, source)

def Adjustment.withSelectors (source : IdSource) : List Adjustment → List Adjustment × IdSource
  | [] => ([], source)
  | ⟨operation, value⟩ :: rest =>
    let (value, source) := value.withSelector source
    let (rest, source) := withSelectors source rest
    (⟨operation, value⟩ :: rest, source)

namespace Tree

variable {Outcome : Type}

mutual

/-- Gives all values of a tree selectors. -/
def withSelectors (outcome : IdSource → Outcome → Outcome × IdSource) (source : IdSource) :
    Tree Outcome → Tree Outcome × IdSource
  | .returns value =>
    let (value, source) := outcome source value
    (.returns value, source)
  | .decides cases otherwise =>
    let (cases, source) := casesWithSelectors outcome source cases
    let (otherwise, source) := withSelectors outcome source otherwise
    (.decides cases otherwise, source)

/-- Gives all values of cases selectors. -/
def casesWithSelectors (outcome : IdSource → Outcome → Outcome × IdSource)
    (source : IdSource) :
    List (Case (Tree Outcome)) → List (Case (Tree Outcome)) × IdSource
  | [] => ([], source)
  | ⟨condition, body⟩ :: rest =>
    let (condition, source) := condition.withSelectors source
    let (body, source) := withSelectors outcome source body
    let (rest, source) := casesWithSelectors outcome source rest
    (⟨condition, body⟩ :: rest, source)

end

end Tree

def IfTree.withSelectors (source : IdSource) (tree : IfTree) : IfTree × IdSource :=
  Tree.withSelectors (fun source value => value.withSelector source) source tree

def AdjustmentTree.withSelectors (source : IdSource) (tree : AdjustmentTree) :
    AdjustmentTree × IdSource :=
  Tree.withSelectors Adjustment.withSelectors source tree

end DecisionCanvas
