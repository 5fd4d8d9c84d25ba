import DecisionCanvas.Decimal.Numeral

/-!
# Command lines

A command line names a command and gives it files and options.  Options take
their value from the next argument or after an equals sign, short ones also
directly; none may be given twice, and two dashes end them.  Arguments count from
left to right: the first that asks for help or does not fit decides, and what is
missing or excluded shows only at the end.
-/

namespace DecisionCanvas.CommandLine

inductive Command where
  | compile (input : String) (adjustment : Bool) (output : Option String)
  | rebuild (input : String) (facts : Option String) (conditional adjustment : Bool)
      (output : Option String)
  | roundtrip (input : String) (facts : Option String) (conditional : Bool)
  | layout (input : String) (output : Option String)
  | drop (graph fact : String) (x y : Float) (config output : Option String)

/-- What a command line amounts to. -/
inductive Request where
  | run (command : Command)
  | help
  | version
  | misuse

structure Setting where
  name : String
  letter : Option Char
  isNumber : Bool

/-- An option with any text for its value. -/
def Setting.text (name : String) (letter : Char) : Setting :=
  ⟨name, some letter, false⟩

/-- An option with a number for its value and no short name. -/
def Setting.number (name : String) : Setting :=
  ⟨name, none, true⟩

def Setting.accepts (setting : Setting) (value : String) : Bool :=
  !setting.isNumber || (Decimal.readNumeral value.toList).isSome

/-- The files and options that a command accepts. -/
structure Shape where
  positionals : Nat
  flags : List String
  settings : List Setting

/-- The files and options of a command line, latest first. -/
structure Given where
  positionals : List String
  flags : List String
  options : List (String × String)

/-- One thing that a command line gives. -/
inductive Item where
  | positional (value : String)
  | flag (name : String)
  | option (setting : Setting) (value : String)
  | stop (request : Request)

def Shape.long? (shape : Shape) (name : String) : Option Setting :=
  shape.settings.find? fun setting => setting.name == name

def Shape.short? (shape : Shape) (letter : Char) : Option Setting :=
  shape.settings.find? fun setting => setting.letter == some letter

/-- Whether an argument can be the value of the option before it. -/
def canBeValue (argument : String) : Bool :=
  !(argument.toList.head? == some '-') || argument == "-"

/-- What an argument is by itself. -/
inductive Sorted where
  | separator
  | needsValue (setting : Setting)
  | whole (item : Item)

def sortLong (shape : Shape) (chars : List Char) : Sorted :=
  let name := String.ofList (chars.takeWhile (· != '='))
  let value := String.ofList ((chars.dropWhile (· != '=')).drop 1)
  let hasValue := chars.contains '='
  if shape.flags.contains name then .whole (if hasValue then .stop .misuse else .flag name)
  else
    match shape.long? name with
    | some setting => if hasValue then .whole (.option setting value) else .needsValue setting
    | none => .whole (.stop (if name == "help" && !hasValue then .help else .misuse))

def sortShort (shape : Shape) (letter : Char) (rest : List Char) : Sorted :=
  match shape.short? letter, rest with
  | some setting, [] => .needsValue setting
  | some setting, '=' :: value => .whole (.option setting (String.ofList value))
  | some setting, value => .whole (.option setting (String.ofList value))
  | none, _ => .whole (.stop (if letter == 'h' then .help else .misuse))

def sortArgument (shape : Shape) (argument : String) : Sorted :=
  match argument.toList with
  | ['-', '-'] => .separator
  | '-' :: '-' :: name => sortLong shape name
  | '-' :: letter :: rest => sortShort shape letter rest
  | _ => .whole (.positional argument)

def items (shape : Shape) : List String → List Item
  | [] => []
  | argument :: rest =>
    match sortArgument shape argument with
    | .separator => rest.map .positional
    | .whole item => item :: items shape rest
    | .needsValue setting =>
      match rest with
      | [] => [.stop .misuse]
      | value :: rest =>
        if canBeValue value then .option setting value :: items shape rest else [.stop .misuse]

/-- Brings items together; the first that does not fit ends the reading. -/
def collect (shape : Shape) : Given → List Item → Except Request Given
  | given, [] => .ok given
  | given, .positional value :: rest =>
    if given.positionals.length < shape.positionals then
      collect shape { given with positionals := value :: given.positionals } rest
    else .error .misuse
  | given, .flag name :: rest =>
    if given.flags.contains name then .error .misuse
    else collect shape { given with flags := name :: given.flags } rest
  | given, .option setting value :: rest =>
    if (given.options.lookup setting.name).isSome || !setting.accepts value then .error .misuse
    else collect shape { given with options := (setting.name, value) :: given.options } rest
  | _, .stop request :: _ => .error request

/-- The shape of a command. -/
def shapeOf? (command : String) : Option Shape :=
  match command with
  | "compile" => some ⟨1, ["adjustment"], [.text "output" 'o']⟩
  | "rebuild" =>
    some ⟨1, ["conditional", "adjustment"], [.text "facts" 'f', .text "output" 'o']⟩
  | "roundtrip" => some ⟨1, ["conditional"], [.text "facts" 'f']⟩
  | "layout" => some ⟨1, [], [.text "output" 'o']⟩
  | "drop" =>
    some ⟨2, [], [.number "x", .number "y", .text "config" 'c', .text "output" 'o']⟩
  | _ => none

def Given.command? (given : Given) (command : String) : Option Command :=
  let flag := fun (name : String) => given.flags.contains name
  let option := fun (name : String) => given.options.lookup name
  let number := fun (name : String) => (option name).bind fun text =>
    Decimal.readNumeral text.toList
  match command, given.positionals.reverse with
  | "compile", [input] => some (.compile input (flag "adjustment") (option "output"))
  | "rebuild", [input] =>
    if flag "conditional" && flag "adjustment" then none
    else
      some (.rebuild input (option "facts") (flag "conditional") (flag "adjustment")
        (option "output"))
  | "roundtrip", [input] => some (.roundtrip input (option "facts") (flag "conditional"))
  | "layout", [input] => some (.layout input (option "output"))
  | "drop", [graph, fact] => do
    let x ← number "x"
    let y ← number "y"
    return .drop graph fact x y (option "config") (option "output")
  | _, _ => none

def readCommand (command : String) (shape : Shape) (arguments : List String) : Request :=
  match collect shape ⟨[], [], []⟩ (items shape arguments) with
  | .error request => request
  | .ok given =>
    match given.command? command with
    | some command => .run command
    | none => .misuse

/-- Asking for help takes the name of at most one command. -/
def readHelp (names : List String) : Request :=
  match names with
  | [] | ["help"] => .help
  | [name] => if (shapeOf? name).isSome then .help else .misuse
  | _ => .misuse

/-- What a first argument amounts to that names no command.  Of letters after one
dash the first decides. -/
def readFirst (argument : String) : Request :=
  match argument.toList with
  | '-' :: 'h' :: _ => .help
  | '-' :: 'V' :: _ => .version
  | _ =>
    if argument == "--help" then .help
    else if argument == "--version" then .version
    else .misuse

def read : List String → Request
  | [] => .misuse
  | first :: rest =>
    if first == "help" then readHelp rest
    else
      match shapeOf? first with
      | some shape => readCommand first shape rest
      | none => readFirst first

end DecisionCanvas.CommandLine
