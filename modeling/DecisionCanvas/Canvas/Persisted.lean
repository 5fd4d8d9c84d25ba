import DecisionCanvas.Canvas.Action

/-!
# Persisted graphs

Only the content of nodes and their order in layers is kept.  Where nodes stand
is computed when a graph is restored, and layers then drop what no longer
exists.
-/

namespace DecisionCanvas

/-- What is kept of a layer. -/
structure PersistedLayer (R : Type) where
  id : String
  y : R
  nodeIds : List String
  width : R
  deriving DecidableEq

structure PersistedNode (R : Type) where
  id : String
  label : String
  type : NodeType
  constant : Option R
  operand : Arithmetic
  variableId : Option String
  factType : Option String
  scope : Option String
  deriving DecidableEq

structure PersistedGraph (R : Type) where
  layers : List (PersistedLayer R)
  nodes : List (PersistedNode R)
  deriving DecidableEq

variable {R : Type}

def Node.persist (node : Node R) : PersistedNode R :=
  ⟨node.id, node.label, node.type, node.constant, node.operand, node.variableId, node.factType,
    node.scope⟩

def Layer.persist (layer : Layer R) : PersistedLayer R :=
  ⟨layer.id, layer.y, layer.nodeIds, layer.width⟩

def Graph.persist (graph : Graph R) : PersistedGraph R :=
  ⟨graph.layers.map Layer.persist, graph.nodes.values.map Node.persist⟩

namespace PersistedGraph

variable [Scalar R]

/-- A node that stands nowhere yet. -/
def restoreNode (node : PersistedNode R) : Node R :=
  { id := node.id, label := node.label, x := Scalar.ofNat 0, y := Scalar.ofNat 0, layer := "",
    type := node.type, constant := node.constant, operand := node.operand,
    variableId := node.variableId, factType := node.factType, scope := node.scope }

/-- The nodes of a persisted graph; a later one replaces an earlier one with the
same id. -/
def restoreNodes (graph : PersistedGraph R) : Directory (Node R) :=
  .ofList (graph.nodes.map fun node => (node.id, restoreNode node))

/-- The layer as it lists only nodes that exist. -/
def restoreLayer (nodes : Directory (Node R)) (layer : PersistedLayer R) : Layer R :=
  ⟨layer.id, layer.y, layer.nodeIds.filter nodes.contains, layer.width⟩

def restore (graph : PersistedGraph R) : Graph R :=
  let nodes := graph.restoreNodes
  let layers := graph.layers.map (restoreLayer nodes)
  (List.range layers.length).foldl Graph.layOut ⟨nodes, layers⟩

end PersistedGraph

end DecisionCanvas
