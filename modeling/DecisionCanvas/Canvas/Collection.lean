import DecisionCanvas.Canvas.Action

/-!
# Collections of graphs

One editing session holds several graphs under keys.  A graph is there from the
first time its key is used, and never shares anything with another.
-/

namespace DecisionCanvas

structure GraphCollection (R : Type) where
  graphs : Directory (Graph R)
  deriving DecidableEq

namespace GraphCollection

variable {R : Type}

def empty : GraphCollection R := ⟨.empty⟩

instance : Inhabited (GraphCollection R) := ⟨empty⟩

/-- The graph under a key. -/
def get? (collection : GraphCollection R) (key : String) : Option (Graph R) :=
  collection.graphs.get? key

/-- The graph under a key, and the collection in which it is there. -/
def openGraph (collection : GraphCollection R) (key : String) : Graph R × GraphCollection R :=
  match collection.get? key with
  | some graph => (graph, collection)
  | none => (.empty, ⟨collection.graphs.insert key .empty⟩)

def insert (collection : GraphCollection R) (key : String) (graph : Graph R) :
    GraphCollection R :=
  ⟨collection.graphs.insert key graph⟩

/-- Carries out an action on the graph under a key, which is opened even if the
action is refused. -/
def dispatch [Scalar R] (collection : GraphCollection R) (key newId : String)
    (action : Action R) : Except GraphError (Graph R) × GraphCollection R :=
  let (graph, opened) := collection.openGraph key
  match graph.dispatch newId action with
  | .ok changed => (.ok changed, opened.insert key changed)
  | .error error => (.error error, opened)

def close (collection : GraphCollection R) (key : String) :
    Option (Graph R) × GraphCollection R :=
  (collection.get? key, ⟨collection.graphs.erase key⟩)

def clear (_ : GraphCollection R) : GraphCollection R := empty

def keys (collection : GraphCollection R) : List String :=
  collection.graphs.keys

def size (collection : GraphCollection R) : Nat :=
  collection.graphs.entries.length

end GraphCollection

end DecisionCanvas
