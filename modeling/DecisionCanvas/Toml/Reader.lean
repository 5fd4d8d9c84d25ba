import DecisionCanvas.Toml.Lexical

/-!
# Reading settings documents

A document is a list of lines, each with an entry, the header of a table, a
comment or nothing.  Arrays may go over several lines; tables in braces may not.
-/

namespace DecisionCanvas.Toml

def skipInArray : Nat → List Char → List Char
  | 0, chars => chars
  | fuel + 1, chars =>
    let rest := skipComment (skipBlanks chars)
    match dropLineEnd rest with
    | some rest => skipInArray fuel rest
    | none => rest

def enterInline (key : Key) (value : Value) (entries : Entries) : Option Entries :=
  changeAt true (addValue (!key.path.isEmpty) key.last value) key.path .header entries

mutual

/-- The value of a table in braces whose keys have been brought together. -/
def inlineFields : Entries → List (String × Value)
  | [] => []
  | (key, node) :: rest => (key, inlineValue node) :: inlineFields rest

/-- The value of what stands under a key of a table in braces. -/
def inlineValue : Node → Value
  | .value value => value
  | .table _ entries => .inlineTable (inlineFields entries)
  | .tables _ => .array []

end

mutual

/-- Reads a value.  `levels` is how many more containers may be opened. -/
def readValue : Nat → Nat → List Char → Read Value
  | 0, _, _ => none
  | fuel + 1, levels, chars =>
    match chars with
    | '"' :: _ => (readText chars).map fun (text, rest) => (.text text, rest)
    | '\'' :: _ => (readText chars).map fun (text, rest) => (.text text, rest)
    | '[' :: rest =>
      if levels ≤ 1 then none
      else
        (readItems fuel (levels - 1) (skipInArray fuel rest)).map fun (items, rest) =>
          (.array items, rest)
    | '\x7b' :: rest =>
      if levels ≤ 1 then none
      else
        match skipBlanks rest with
        | '\x7d' :: rest => some (.inlineTable [], rest)
        | rest =>
          (readFields fuel (levels - 1) [] rest).map fun (entries, rest) =>
            (.inlineTable (inlineFields entries), rest)
    | _ => readWord chars

def readItems : Nat → Nat → List Char → Read (List Value)
  | 0, _, _ => none
  | fuel + 1, levels, chars =>
    match chars with
    | ']' :: rest => some ([], rest)
    | _ =>
      match readValue fuel levels chars with
      | none => none
      | some (item, rest) =>
        match skipInArray fuel rest with
        | ',' :: rest =>
          (readItems fuel levels (skipInArray fuel rest)).map fun (items, rest) =>
            (item :: items, rest)
        | ']' :: rest => some ([item], rest)
        | _ => none

/-- Reads the fields of a table in braces up to its closing brace. -/
def readFields : Nat → Nat → Entries → List Char → Read Entries
  | 0, _, _, _ => none
  | fuel + 1, levels, entries, chars =>
    match readKey chars with
    | some (key, '=' :: rest) =>
      match readValue fuel levels (skipBlanks rest) with
      | none => none
      | some (value, rest) =>
        match enterInline key value entries with
        | none => none
        | some entries =>
          match skipBlanks rest with
          | ',' :: rest => readFields fuel levels entries rest
          | '\x7d' :: rest => some (entries, rest)
          | _ => none
    | _ => none

end

/-- A document as far as it has been read: the header in force and all entries. -/
structure Progress where
  header : List String
  root : Entries

def readHeader (progress : Progress) (chars : List Char) : Read Progress :=
  match readKey chars with
  | some (key, ']' :: rest) =>
    (enterTable key progress.root).map fun root => (⟨key.path ++ [key.last], root⟩, rest)
  | _ => none

/-- Reads the header of a member of a list of tables after its opening brackets. -/
def readListHeader (progress : Progress) (chars : List Char) : Read Progress :=
  match readKey chars with
  | some (key, ']' :: ']' :: rest) =>
    (enterTables key progress.root).map fun root => (⟨key.path ++ [key.last], root⟩, rest)
  | _ => none

def readEntry (progress : Progress) (chars : List Char) : Read Progress :=
  match readKey chars with
  | some (key, '=' :: rest) =>
    match readValue (2 * rest.length + 2) nestingLimit (skipBlanks rest) with
    | some (value, rest) =>
      (enter progress.header key value progress.root).map fun root =>
        (⟨progress.header, root⟩, rest)
    | none => none
  | _ => none

/-- Reads what stands on a line before its comment. -/
def readLine (progress : Progress) (chars : List Char) : Read Progress :=
  match skipBlanks chars with
  | [] => some (progress, [])
  | '#' :: rest => some (progress, '#' :: rest)
  | '\n' :: rest => some (progress, '\n' :: rest)
  | '\r' :: rest => some (progress, '\r' :: rest)
  | '[' :: '[' :: rest => readListHeader progress rest
  | '[' :: rest => readHeader progress rest
  | chars => readEntry progress chars

def readLines : Nat → Progress → List Char → Option Entries
  | 0, _, _ => none
  | fuel + 1, progress, chars =>
    match readLine progress chars with
    | none => none
    | some (progress, rest) =>
      match skipComment (skipBlanks rest) with
      | [] => some progress.root
      | rest =>
        match dropLineEnd rest with
        | some rest => readLines fuel progress rest
        | none => none

/-- Drops the mark that some editors put before a text. -/
def dropByteOrderMark : List Char → List Char
  | '\ufeff' :: rest => rest
  | chars => chars

/-- Reads a whole document.  Every line but the last consumes a character. -/
def read? (text : String) : Option Entries :=
  let chars := dropByteOrderMark text.toList
  readLines (chars.length + 1) ⟨[], []⟩ chars

end DecisionCanvas.Toml
