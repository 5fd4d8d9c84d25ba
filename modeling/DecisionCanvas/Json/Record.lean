import DecisionCanvas.Json.Basic

/-!
# Reading records

A record is an object whose known fields occur at most once, in any order among
unknown ones; it may also be given as the array of its fields in their order.  A
tagged record names its shape in one field, or in the first item of the array.
-/

namespace DecisionCanvas.Json

/-- The known fields of a record. -/
abbrev Fields := List (String × Json)

def distinctKeys : Fields → Bool
  | [] => true
  | field :: rest => !(rest.any fun other => other.1 == field.1) && distinctKeys rest

/-- The fields of a record with these names. -/
def fields? (names : List String) : Json → Option Fields
  | .object fields =>
    let known := fields.filter fun field => names.contains field.1
    if distinctKeys known then some known else none
  | .array items => if items.length ≤ names.length then some (names.zip items) else none
  | _ => none

def required {α : Type} (fields : Fields) (name : String) (read : Json → Option α) : Option α :=
  (fields.lookup name).bind read

/-- A field that may be absent or null. -/
def optional {α : Type} (fields : Fields) (name : String) (read : Json → Option α) :
    Option (Option α) :=
  match fields.lookup name with
  | none => some none
  | some .null => some none
  | some value => (read value).map some

/-- A field with a value of its own when it is absent. -/
def withDefault {α : Type} (fields : Fields) (name : String) (default : α)
    (read : Json → Option α) : Option α :=
  match fields.lookup name with
  | none => some default
  | some value => read value

def bool? : Json → Option Bool
  | .boolean value => some value
  | _ => none

def text? : Json → Option String
  | .string value => some value
  | _ => none

def id? : Json → Option Int
  | .integer value => if inSignedRange value then some value else none
  | _ => none

def count? : Json → Option Nat
  | .integer value => if inUnsignedRange value then some value.toNat else none
  | _ => none

/-- A number, whole or not. -/
def float? : Json → Option Float
  | .integer value => some (Float.ofInt value)
  | .decimal value => some value
  | _ => none

def list? {α : Type} (read : Json → Option α) : Json → Option (List α)
  | .array items => items.mapM read
  | _ => none

/-- A symbol out of a fixed set: its text, or an object that maps it to null.
Inside a tagged record the object may map it to an empty object as well. -/
def symbol? (nested : Bool) : Json → Option String
  | .string value => some value
  | .object [(value, .null)] => some value
  | .object [(value, .object [])] => if nested then some value else none
  | _ => none

/-- The tag of a record: a text, or, inside another tagged record, also the place
of the tag among all of them. -/
def tag? (tags : List String) (nested : Bool) : Json → Option String
  | .string value => some value
  | .integer place =>
    if nested && inUnsignedRange place then some (tags[place.toNat]?.getD "") else none
  | _ => none

/-- Takes the tag out of a tagged record.  All of it is read before its shape is
known, so every part of it must be readable. -/
def tagged? (key : String) (tags : List String) (nested : Bool) (json : Json) :
    Option (String × Json) :=
  if json.isReadable then
    match json with
    | .object fields =>
      match fields.filter fun field => field.1 == key with
      | [(_, value)] =>
        (tag? tags nested value).map (·, .object (fields.filter fun field => field.1 != key))
      | _ => none
    | .array (first :: rest) => (tag? tags nested first).map (·, .array rest)
    | _ => none
  else none

end DecisionCanvas.Json
