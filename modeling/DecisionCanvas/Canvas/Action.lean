import DecisionCanvas.Canvas.Graph

/-!
# Actions on graphs

Actions are the only way a graph changes.  An action that is refused leaves the
graph as it was; one that concerns a node that does not exist changes nothing.
-/

namespace DecisionCanvas

/-- What to add, and where. -/
structure Placement (R : Type) where
  label : String
  variableId : Option String
  factType : Option String
  scope : Option String
  type : NodeType
  constant : Option R
  layer : String
  index : Nat
  layerY : Option R
  deriving DecidableEq

/-- A change of a graph. -/
inductive Action (R : Type) where
  | addNode (placement : Placement R)
  | reorderLayer (layer : String) (nodeIds : List String)
  | updateOperand (node : String) (operand : Arithmetic)
  | deleteNode (node : String)
  | updateLabel (node : String) (label : String) (constant : Option R)
  deriving DecidableEq

def Action.name {R : Type} : Action R → String
  | .addNode _ => "ADD_NODE_AT"
  | .reorderLayer _ _ => "REORDER_LAYER"
  | .updateOperand _ _ => "UPDATE_NODE_OPERAND"
  | .deleteNode _ => "DELETE_NODE"
  | .updateLabel _ _ _ => "UPDATE_NODE_LABEL"

inductive GraphError where
  | unknownLayer (layer : String)
  | incompleteBinding
  | invalidReorder (layer : String)
  deriving DecidableEq

def GraphError.message : GraphError → String
  | .unknownLayer layer => "Unknown layer: " ++ layer
  | .incompleteBinding => "var_scope and var_fact_type must be set together"
  | .invalidReorder layer => "New order for layer " ++ layer ++ " is not a permutation of its nodes"

namespace Graph

variable {R : Type} [Scalar R]

/-- Lays out the layer at an index and lets it start with plus. -/
def settle (graph : Graph R) (index : Nat) : Graph R :=
  (graph.layOut index).startWithPlus index

omit [Scalar R] in
/-- Replaces the list of nodes and the width of the layer at an index. -/
def setLine (graph : Graph R) (index : Nat) (nodeIds : List String) (width : R) : Graph R :=
  { graph with
    layers := graph.layers.modify index fun layer =>
      { layer with nodeIds := nodeIds, width := width } }

/-- Gives the layer at an index another list of nodes and the width for it. -/
def relist (graph : Graph R) (index : Nat) (nodeIds : List String) : Graph R :=
  (graph.setLine index nodeIds (Line.width nodeIds.length)).settle index

omit [Scalar R] in
/-- The node of a placement in a layer, before it is laid out. -/
def newNode (id : String) (placement : Placement R) (layer : Layer R) (x : R) : Node R :=
  { id := id, label := placement.label, x := x, y := layer.y, layer := layer.id,
    type := placement.type, constant := placement.constant, operand := .plus,
    variableId := placement.variableId, factType := placement.factType,
    scope := placement.scope }

/-- Adds a node to the layer at an index; beyond the end means at the end. -/
def addToLayer (graph : Graph R) (id : String) (placement : Placement R) (index : Nat)
    (layer : Layer R) : Graph R :=
  let node := newNode id placement layer (Scalar.ofNat 0)
  let nodeIds := layer.nodeIds.insertIdx (min placement.index layer.length) id
  { graph with nodes := graph.nodes.insert id node }.relist index nodeIds

/-- Adds a node under a new id, and its layer too if it has to. -/
def addNode (graph : Graph R) (id : String) (placement : Placement R) :
    Except GraphError (Graph R) :=
  if placement.scope.isSome != placement.factType.isSome then .error .incompleteBinding
  else
    match graph.layerIndex? placement.layer, graph.layer? placement.layer, placement.layerY with
    | some index, some layer, _ => .ok (graph.addToLayer id placement index layer)
    | _, _, some y =>
      let layer := Layer.empty placement.layer y
      let extended := { graph with layers := graph.layers ++ [layer] }
      .ok (extended.addToLayer id placement graph.layers.length layer)
    | _, _, none => .error (.unknownLayer placement.layer)

omit [Scalar R] in
/-- Whether two lists hold the same texts equally often. -/
def sameTexts (left right : List String) : Bool :=
  left.mergeSort (· ≤ ·) == right.mergeSort (· ≤ ·)

/-- Puts the nodes of a layer into another order; its width stays. -/
def reorderLayer (graph : Graph R) (id : String) (nodeIds : List String) :
    Except GraphError (Graph R) :=
  match graph.layerIndex? id, graph.layer? id with
  | some index, some layer =>
    if sameTexts layer.nodeIds nodeIds then
      .ok ((graph.setLine index nodeIds layer.width).settle index)
    else .error (.invalidReorder id)
  | _, _ => .error (.unknownLayer id)

omit [Scalar R] in
/-- Changes the operation of a node, unless it stands first in its layer. -/
def updateOperand (graph : Graph R) (id : String) (operand : Arithmetic) : Graph R :=
  match graph.node? id with
  | none => graph
  | some node =>
    if (graph.layer? node.layer).any fun layer => layer.isFirst id then graph
    else { graph with nodes := graph.nodes.modify id fun node => { node with operand := operand } }

omit [Scalar R] in
/-- The layer a node is taken out of: the one it belongs to, else the first that
lists it. -/
def layerOfNode? (graph : Graph R) (node : Node R) (id : String) : Option Nat :=
  (graph.layerIndex? node.layer).or
    (graph.layers.findIdx? fun layer => layer.nodeIds.contains id)

/-- Removes a node, also from its layer. -/
def deleteNode (graph : Graph R) (id : String) : Graph R :=
  match graph.node? id with
  | none => graph
  | some node =>
    let remaining := { graph with nodes := graph.nodes.erase id }
    match graph.layerOfNode? node id with
    | none => remaining
    | some index =>
      match graph.layers[index]? with
      | none => remaining
      | some layer => remaining.relist index (layer.nodeIds.filter fun listed => listed != id)

omit [Scalar R] in
/-- Changes the label of a node, and its constant if one is given. -/
def updateLabel (graph : Graph R) (id label : String) (constant : Option R) : Graph R :=
  { graph with
    nodes := graph.nodes.modify id fun node =>
      { node with label := label, constant := constant.or node.constant } }

/-- Carries out an action.  A node that it adds gets the id `newId`. -/
def dispatch (graph : Graph R) (newId : String) : Action R → Except GraphError (Graph R)
  | .addNode placement => graph.addNode newId placement
  | .reorderLayer layer nodeIds => graph.reorderLayer layer nodeIds
  | .updateOperand node operand => .ok (graph.updateOperand node operand)
  | .deleteNode node => .ok (graph.deleteNode node)
  | .updateLabel node label constant => .ok (graph.updateLabel node label constant)

end Graph

end DecisionCanvas
