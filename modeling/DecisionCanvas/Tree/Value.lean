import DecisionCanvas.Uuid
import DecisionCanvas.Decimal.Numeral

/-!
# Values

A value is what stands on either side of a condition and what a tree returns.
The editor keeps a selector with every value to know which one is being picked.
Only for a statement is the selector part of the meaning, since it is the key of
the tree the statement points to; other values may still be without one, and are
given one when they are written.
-/

namespace DecisionCanvas

def factScope : String := "fact"

/-- What a variable refers to. -/
structure Variable where
  key : String
  id : String
  type : String
  scope : String
  deriving DecidableEq, Inhabited

/-- A leaf of a condition or of a return. -/
inductive Value where
  | literal (text : String) (selector : Option Uuid)
  | variable (reference : Variable) (selector : Option Uuid)
  | statement (expression : Option String) (selector : Uuid)
  | boolean (truth : Bool) (selector : Option Uuid)
  | choice (option : String) (selector : Option Uuid)
  | unsupported
  deriving DecidableEq

instance : Inhabited Value := ⟨.unsupported⟩

namespace Value

def emptyVariable : Value := .variable ⟨"", "", "", ""⟩ none

def emptyLiteral : Value := .literal "" none

def selector? : Value → Option Uuid
  | .literal _ selector => selector
  | .variable _ selector => selector
  | .statement _ selector => some selector
  | .boolean _ selector => selector
  | .choice _ selector => selector
  | .unsupported => none

/-- Whether this is the value the editor has selected. -/
def isSelected (value : Value) (selected : Uuid) : Bool :=
  value.selector? == some selected

/-- The truth value a literal stands for: a spelled one, or that of a number,
where everything but zero is true. -/
def literalTruth? (text : String) : Option Bool :=
  let chars := Text.trimChars text.toList
  if Text.sameLetters chars "true".toList then some true
  else if Text.sameLetters chars "false".toList then some false
  else (Decimal.readNumeral chars).map fun number => number != 0

/-- Turns literals into truth values where they stand for one. -/
def coerceBoolean : Value → Value
  | .literal text selector =>
    match literalTruth? text with
    | some truth => .boolean truth selector
    | none => .literal text selector
  | value => value

end Value

/-- What a condition does with its two sides. -/
inductive ConditionOperator where
  | equal
  | greater
  | less
  | atLeast
  | atMost
  | both
  | either
  deriving DecidableEq, Inhabited

namespace ConditionOperator

def all : List ConditionOperator :=
  [.equal, .greater, .less, .atLeast, .atMost, .both, .either]

def symbol : ConditionOperator → String
  | .equal => "=="
  | .greater => ">"
  | .less => "<"
  | .atLeast => ">="
  | .atMost => "<="
  | .both => "AND"
  | .either => "OR"

def ofSymbol? (symbol : String) : Option ConditionOperator :=
  all.find? fun operator => operator.symbol == symbol

end ConditionOperator

/-- How an amount is combined with what stands before it. -/
inductive Arithmetic where
  | plus
  | minus
  | times
  | over
  deriving DecidableEq

instance : Inhabited Arithmetic := ⟨.plus⟩

namespace Arithmetic

def all : List Arithmetic := [.plus, .minus, .times, .over]

def symbol : Arithmetic → String
  | .plus => "+"
  | .minus => "-"
  | .times => "×"
  | .over => "/"

def ofSymbol? (symbol : String) : Option Arithmetic :=
  all.find? fun operation => operation.symbol == symbol

end Arithmetic

end DecisionCanvas
