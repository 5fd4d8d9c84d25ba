import DecisionCanvas.Canvas.Line
import DecisionCanvas.Directory
import DecisionCanvas.Tree.Value

/-!
# Graphs

A graph is a directory of nodes and a list of layers, each of which lists the
nodes it shows from left to right.  Where a node stands follows from its layer.
-/

namespace DecisionCanvas

inductive NodeType where
  | contributorNode
  | contributorBucket
  | constant
  | fact
  | geometric
  | project
  deriving DecidableEq, Inhabited

namespace NodeType

def all : List NodeType :=
  [.contributorNode, .contributorBucket, .constant, .fact, .geometric, .project]

def symbol : NodeType → String
  | .contributorNode => "contributor-node"
  | .contributorBucket => "contributor-bucket"
  | .constant => "constant"
  | .fact => "fact"
  | .geometric => "geometric"
  | .project => "project"

def ofSymbol? (symbol : String) : Option NodeType :=
  all.find? fun type => type.symbol == symbol

/-- Whether nodes of a type own a layer that can be opened below them. -/
def opensLayer : NodeType → Bool
  | .contributorBucket => true
  | _ => false

end NodeType

/-- A node and where it stands. -/
structure Node (R : Type) where
  id : String
  label : String
  x : R
  y : R
  layer : String
  type : NodeType
  constant : Option R
  operand : Arithmetic
  variableId : Option String
  factType : Option String
  scope : Option String
  deriving DecidableEq

/-- Whether a node is bound to a fact. -/
def Node.isBound {R : Type} (node : Node R) : Bool :=
  node.factType.isSome && node.scope.isSome

/-- A row of nodes. -/
structure Layer (R : Type) where
  id : String
  y : R
  nodeIds : List String
  width : R
  deriving DecidableEq

namespace Layer

variable {R : Type}

def empty [Scalar R] (id : String) (y : R) : Layer R :=
  ⟨id, y, [], Line.width 0⟩

def length (layer : Layer R) : Nat :=
  layer.nodeIds.length

/-- Where a layer lists a node. -/
def position? (layer : Layer R) (node : String) : Option Nat :=
  layer.nodeIds.findIdx? fun id => id == node

def isFirst (layer : Layer R) (node : String) : Bool :=
  layer.nodeIds.head? == some node

end Layer

/-- Nodes and the layers that show them. -/
structure Graph (R : Type) where
  nodes : Directory (Node R)
  layers : List (Layer R)
  deriving DecidableEq

namespace Graph

variable {R : Type}

def empty : Graph R := ⟨.empty, []⟩

instance : Inhabited (Graph R) := ⟨empty⟩

def node? (graph : Graph R) (id : String) : Option (Node R) :=
  graph.nodes.get? id

/-- The first layer with an id. -/
def layer? (graph : Graph R) (id : String) : Option (Layer R) :=
  graph.layers.find? fun layer => layer.id == id

/-- Where the first layer with an id stands. -/
def layerIndex? (graph : Graph R) (id : String) : Option Nat :=
  graph.layers.findIdx? fun layer => layer.id == id

def layerNodes (graph : Graph R) (id : String) : List (Node R) :=
  match graph.layer? id with
  | some layer => layer.nodeIds.filterMap graph.node?
  | none => []

variable [Scalar R]

/-- The width of the widest layer, and at least that of an empty one. -/
def maxWidth (graph : Graph R) : R :=
  graph.layers.foldl (fun widest layer => Scalar.larger widest layer.width) (Line.width 0)

/-- Puts nodes on the places given for them in a layer. -/
def seat (layer : Layer R) (places : List (String × R)) (nodes : Directory (Node R)) :
    Directory (Node R) :=
  places.foldl (fun nodes place =>
    nodes.modify place.1 fun node => { node with x := place.2, y := layer.y, layer := layer.id })
    nodes

/-- Each node of a layer with the centre of its slot. -/
def places (layer : Layer R) : List (String × R) :=
  layer.nodeIds.zip (Line.centres layer.width layer.length)

/-- Puts every node of the layer at an index on the centre of its slot. -/
def layOut (graph : Graph R) (index : Nat) : Graph R :=
  match graph.layers[index]? with
  | some layer => { graph with nodes := seat layer (places layer) graph.nodes }
  | none => graph

omit [Scalar R] in
/-- The first node of a layer always adds. -/
def startWithPlus (graph : Graph R) (index : Nat) : Graph R :=
  match graph.layers[index]?.bind fun layer => layer.nodeIds.head? with
  | some first =>
    { graph with nodes := graph.nodes.modify first fun node => { node with operand := .plus } }
  | none => graph

end Graph

end DecisionCanvas
