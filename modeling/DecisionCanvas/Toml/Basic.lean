/-!
# Settings documents

Settings are written as TOML documents.  A document is a table of keys; besides
plain values it holds tables, which remember how they came to be, because that
decides how they may still grow, and lists of tables.
-/

namespace DecisionCanvas.Toml

/-- A plain value.  Dates and times are checked and then not looked at. -/
inductive Value where
  | text (value : String)
  | integer (value : Int)
  | float (value : Float)
  | boolean (value : Bool)
  | moment
  | array (items : List Value)
  | inlineTable (fields : List (String × Value))
  deriving Inhabited

/-- How a table came to be: by a header of its own, on the way to another header,
or through a dotted key. -/
inductive Origin where
  | header
  | implied
  | dotted
  deriving DecidableEq

/-- What stands under a key. -/
inductive Node where
  | value (value : Value)
  | table (origin : Origin) (entries : List (String × Node))
  | tables (list : List (List (String × Node)))
  deriving Inhabited

/-- The content of a table. -/
abbrev Entries := List (String × Node)

/-- A change of the content of a table, which may be refused. -/
abbrev Change := Origin → Entries → Option Entries

/-- Replaces what stands under a key, or adds it at the end. -/
def put (key : String) (node : Node) : Entries → Entries
  | [] => [(key, node)]
  | entry :: rest => if entry.1 = key then (key, node) :: rest else entry :: put key node rest

/-- Changes the table at the end of a path.  Tables on the way are made where
they are missing; of a list of tables the last one counts.  A dotted key may not
reach into a table that has a header. -/
def changeAt (dotted : Bool) (change : Change) : List String → Change
  | [], origin, entries => change origin entries
  | key :: path, _, entries =>
    match entries.lookup key with
    | none =>
      let origin := if dotted then Origin.dotted else Origin.implied
      (changeAt dotted change path origin []).map fun inner => put key (.table origin inner) entries
    | some (.value _) => none
    | some (.tables list) =>
      match list.getLast? with
      | none => none
      | some last =>
        (changeAt dotted change path .header last).map fun inner =>
          put key (.tables (list.dropLast ++ [inner])) entries
    | some (.table origin inner) =>
      if dotted && origin == .header then none
      else
        (changeAt dotted change path origin inner).map fun inner =>
          put key (.table origin inner) entries

/-- Adds a value under a key that is still free.  A dotted key may add only to a
table that dotted keys have made. -/
def addValue (isDotted : Bool) (key : String) (value : Value) : Change := fun origin entries =>
  if isDotted && origin != .dotted then none
  else if (entries.lookup key).isSome then none
  else some (put key (.value value) entries)

def addTable (key : String) : Change := fun _ entries =>
  match entries.lookup key with
  | none => some (put key (.table .header []) entries)
  | some (.table .implied inner) => some (put key (.table .header inner) entries)
  | some _ => none

def addToTables (key : String) : Change := fun _ entries =>
  match entries.lookup key with
  | none => some (put key (.tables [[]]) entries)
  | some (.tables list) => some (put key (.tables (list ++ [[]])) entries)
  | some _ => none

/-- A key of one or more parts: the way to a table and the key in it. -/
structure Key where
  path : List String
  last : String

def enter (header : List String) (key : Key) (value : Value) (root : Entries) : Option Entries :=
  changeAt false
    (changeAt true (addValue (!key.path.isEmpty) key.last value) key.path)
    header .header root

def enterTable (key : Key) (root : Entries) : Option Entries :=
  changeAt false (addTable key.last) key.path .header root

def enterTables (key : Key) (root : Entries) : Option Entries :=
  changeAt false (addToTables key.last) key.path .header root

end DecisionCanvas.Toml
