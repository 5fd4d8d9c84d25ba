/-!
# Documents

Trees, records, graphs and facts travel as JSON documents.  A document keeps
whole numbers apart from other numbers, because a field that holds an id or a
count accepts only the former.  A part that is well formed as text but denotes
nothing is kept as unreadable: whoever skips it never notices, and whoever reads
it fails.
-/

namespace DecisionCanvas

/-- A JSON document; the fields of an object stand in the order of the text. -/
inductive Json where
  | null
  | boolean (value : Bool)
  | integer (value : Int)
  | decimal (value : Float)
  | string (value : String)
  | array (items : List Json)
  | object (fields : List (String × Json))
  | unreadable
  deriving Inhabited

namespace Json

def inSignedRange (value : Int) : Bool :=
  -(Nat.pow 2 63 : Int) ≤ value && value < Nat.pow 2 63

def inUnsignedRange (value : Int) : Bool :=
  0 ≤ value && value < Nat.pow 2 64

/-- Only finite numbers can be written; others are written as null. -/
def ofFloat (value : Float) : Json :=
  if value.isFinite then .decimal value else .null

mutual

def isReadable : Json → Bool
  | .unreadable => false
  | .array items => itemsReadable items
  | .object fields => fieldsReadable fields
  | _ => true

def itemsReadable : List Json → Bool
  | [] => true
  | item :: rest => item.isReadable && itemsReadable rest

def fieldsReadable : List (String × Json) → Bool
  | [] => true
  | (_, value) :: rest => value.isReadable && fieldsReadable rest

end

mutual

/-- How deep containers nest. -/
def depth : Json → Nat
  | .array items => 1 + itemsDepth items
  | .object fields => 1 + fieldsDepth fields
  | _ => 0

def itemsDepth : List Json → Nat
  | [] => 0
  | item :: rest => max item.depth (itemsDepth rest)

def fieldsDepth : List (String × Json) → Nat
  | [] => 0
  | (_, value) :: rest => max value.depth (fieldsDepth rest)

end

end Json

end DecisionCanvas
