import DecisionCanvas.Store.Save

/-!
# Loading trees

A stored tree is fetched by its key and rebuilt.  If-trees and adjustment trees
are told apart by what was recorded when the tree was saved.
-/

namespace DecisionCanvas

inductive LoadError where
  | store (error : StoreError)
  | rebuild (key : String) (error : RebuildError)
  | wrongType (key : String) (expected found : TreeType)
  deriving DecidableEq

def LoadError.message : LoadError → String
  | .store error => "Failed to fetch tree: " ++ error.message
  | .rebuild key error => "Failed to rebuild tree " ++ key ++ ": " ++ error.message
  | .wrongType key expected found =>
    "Tree " ++ key ++ " is a " ++ found.name ++ " tree, not " ++ expected.name

namespace TreeStore

def fetchTyped (store : TreeStore) (key : String) (expected : TreeType) :
    Except LoadError StoredTree :=
  match store.fetch key with
  | .error error => .error (.store error)
  | .ok stored =>
    if stored.record.type = expected then .ok stored
    else .error (.wrongType key expected stored.record.type)

def loadIf (store : TreeStore) (key : String) (catalog : Catalog) : Except LoadError IfTree :=
  match store.fetchTyped key .ifTree with
  | .error error => .error error
  | .ok stored =>
    (CompiledTree.rebuildIf ⟨stored.expressions, stored.branches⟩ catalog
      stored.record.kind).mapError (.rebuild key)

def loadAdjustment (store : TreeStore) (key : String) (catalog : Catalog) :
    Except LoadError AdjustmentTree :=
  match store.fetchTyped key .adjustment with
  | .error error => .error error
  | .ok stored =>
    (CompiledTree.rebuildAdjustment ⟨stored.expressions, stored.branches⟩ catalog).mapError
      (.rebuild key)

def loadVariable (store : TreeStore) (name : String) (catalog : Catalog) :
    Except LoadError IfTree :=
  store.loadIf (variableKey name) catalog

def loadConditional (store : TreeStore) (name : String) (catalog : Catalog) :
    Except LoadError IfTree :=
  store.loadIf (conditionalKey name) catalog

end TreeStore

end DecisionCanvas
