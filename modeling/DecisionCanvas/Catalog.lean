/-!
# Fact catalogs

The catalog says what is known about each fact key.
-/

namespace DecisionCanvas

/-- What the catalog holds for one key. -/
structure FactDefinition where
  id : String
  type : String
  scope : String
  deriving DecidableEq, Inhabited

def numberFactType : String := "number"

def FactDefinition.isNumeric (fact : FactDefinition) : Bool :=
  fact.type == numberFactType

/-- Definitions under their keys; of two under one key the later counts. -/
structure Catalog where
  definitions : List (String × FactDefinition)

def Catalog.empty : Catalog := ⟨[]⟩

def Catalog.lookup (catalog : Catalog) (key : String) : Option FactDefinition :=
  catalog.definitions.reverse.lookup key

end DecisionCanvas
