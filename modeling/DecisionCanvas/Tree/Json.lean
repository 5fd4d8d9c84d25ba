import DecisionCanvas.Tree.Basic
import DecisionCanvas.IdSource
import DecisionCanvas.Json.Record

/-!
# Trees as documents

Values and trees are tagged records.  A value with a tag that is not known is
unsupported, and a statement without a selector gets a fresh one when it is read,
because other trees may refer to it from then on.
-/

namespace DecisionCanvas

/-- Reading that may hand out fresh UUIDs. -/
abbrev Reading := StateT IdSource Option

def Reading.fresh : Reading Uuid := fun source => some source.draw

def Reading.list {Item : Type} (read : Json → Reading Item) : List Json → Reading (List Item)
  | [] => pure []
  | item :: rest => do
    let item ← read item
    let rest ← list read rest
    pure (item :: rest)

/-- Reads a field that must be there. -/
def Reading.field {Item : Type} (fields : Json.Fields) (name : String)
    (read : Json → Reading Item) : Reading Item :=
  match fields.lookup name with
  | some value => read value
  | none => failure

def Json.uuid? (json : Json) : Option Uuid :=
  json.text?.bind Uuid.ofText?

/-- Reads a selector, which may be absent. -/
def Json.selector? (fields : Json.Fields) : Option (Option Uuid) :=
  Json.withDefault fields "selector_id" none fun json => json.uuid?.map some

def Json.ofSelector : Option Uuid → List (String × Json)
  | some selector => [("selector_id", .string selector.text)]
  | none => []

namespace Value

/-- The tags of the values that are known. -/
def tags : List String := ["literal", "variable", "statement", "boolean", "option"]

def toJson : Value → Json
  | .literal text selector =>
    .object ([("type", .string "literal"), ("value", .string text)] ++ Json.ofSelector selector)
  | .variable reference selector =>
    .object ([("type", .string "variable"), ("var_key", .string reference.key),
      ("var_id", .string reference.id), ("var_type", .string reference.type),
      ("var_scope", .string reference.scope)] ++ Json.ofSelector selector)
  | .statement expression selector =>
    .object ([("type", .string "statement"),
      ("expression_id", (expression.map Json.string).getD .null)] ++
      Json.ofSelector (some selector))
  | .boolean truth selector =>
    .object ([("type", .string "boolean"), ("value", .boolean truth)] ++ Json.ofSelector selector)
  | .choice option selector =>
    .object ([("type", .string "option"), ("option_id", .string option)] ++
      Json.ofSelector selector)
  | .unsupported => .object [("type", .string "unsupported")]

def readVariable (fields : Json.Fields) : Option Variable := do
  let key ← Json.required fields "var_key" Json.text?
  let id ← Json.required fields "var_id" Json.text?
  let type ← Json.required fields "var_type" Json.text?
  let scope ← Json.withDefault fields "var_scope" "" Json.text?
  return ⟨key, id, type, scope⟩

def ofTagged (tag : String) (rest : Json) : Reading Value :=
  match tag with
  | "literal" => do
    let fields ← rest.fields? ["value", "selector_id"]
    let text ← Json.required fields "value" Json.text?
    let selector ← Json.selector? fields
    return .literal text selector
  | "variable" => do
    let fields ← rest.fields? ["var_key", "var_id", "var_type", "var_scope", "selector_id"]
    let reference ← readVariable fields
    let selector ← Json.selector? fields
    return .variable reference selector
  | "statement" => do
    let fields ← rest.fields? ["expression_id", "selector_id"]
    let expression ← Json.optional fields "expression_id" Json.text?
    match ← (Json.selector? fields : Option (Option Uuid)) with
    | some selector => return .statement expression selector
    | none => return .statement expression (← Reading.fresh)
  | "boolean" => do
    let fields ← rest.fields? ["value", "selector_id"]
    let truth ← Json.required fields "value" Json.bool?
    let selector ← Json.selector? fields
    return .boolean truth selector
  | "option" => do
    let fields ← rest.fields? ["option_id", "selector_id"]
    let option ← Json.required fields "option_id" Json.text?
    let selector ← Json.selector? fields
    return .choice option selector
  | _ =>
    match rest with
    | .array (_ :: _) => failure
    | _ => return .unsupported

/-- Reads a value, `nested` if it stands inside another tagged record. -/
def ofJson (nested : Bool) (json : Json) : Reading Value := do
  let (tag, rest) ← json.tagged? "type" tags nested
  ofTagged tag rest

end Value

namespace Condition

def toJson (condition : Condition) : Json :=
  .object [("left", condition.left.toJson),
    ("operator", .string condition.operator.symbol), ("right", condition.right.toJson)]

def ofJson (json : Json) : Reading Condition := do
  let fields ← json.fields? ["left", "operator", "right"]
  let left ← Reading.field fields "left" (Value.ofJson true)
  let operator ← Json.required fields "operator" fun json =>
    (json.symbol? true).bind ConditionOperator.ofSymbol?
  let right ← Reading.field fields "right" (Value.ofJson true)
  return ⟨left, operator, right⟩

end Condition

namespace Adjustment

def toJson (adjustment : Adjustment) : Json :=
  .object [("operation", .string adjustment.operation.symbol),
    ("value", adjustment.value.toJson)]

def ofJson (json : Json) : Reading Adjustment := do
  let fields ← json.fields? ["operation", "value"]
  let operation ← Json.required fields "operation" fun json =>
    (json.symbol? true).bind Arithmetic.ofSymbol?
  let value ← Reading.field fields "value" (Value.ofJson true)
  return ⟨operation, value⟩

def listToJson (adjustments : List Adjustment) : Json :=
  .array (adjustments.map toJson)

def listOfJson : Json → Reading (List Adjustment)
  | .array items => Reading.list ofJson items
  | _ => failure

end Adjustment

namespace Tree

variable {Outcome : Type}

mutual

def toJson (outcome : Outcome → Json) : Tree Outcome → Json
  | .returns value => .object [("type", .string "return"), ("value", outcome value)]
  | .decides cases otherwise =>
    .object [("type", .string "if"), ("cases", .array (casesToJson outcome cases)),
      ("else", toJson outcome otherwise)]

def casesToJson (outcome : Outcome → Json) : List (Case (Tree Outcome)) → List Json
  | [] => []
  | ⟨condition, body⟩ :: rest =>
    .object [("condition", condition.toJson), ("then", toJson outcome body)] ::
      casesToJson outcome rest

end

def caseOfJson (body : Json → Reading (Tree Outcome)) (json : Json) :
    Reading (Case (Tree Outcome)) := do
  let fields ← json.fields? ["condition", "then"]
  let condition ← Reading.field fields "condition" Condition.ofJson
  let body ← Reading.field fields "then" body
  return ⟨condition, body⟩

/-- Reads a tree that nests at most so deep. -/
def read (outcome : Json → Reading Outcome) :
    Nat → Bool → Json → Reading (Tree Outcome)
  | 0, _, _ => failure
  | levels + 1, nested, json => do
    let (tag, rest) ← json.tagged? "type" ["return", "if"] nested
    match tag with
    | "return" => do
      let fields ← rest.fields? ["value"]
      let value ← Reading.field fields "value" outcome
      return .returns value
    | "if" => do
      let fields ← rest.fields? ["cases", "else"]
      let cases ← Reading.field fields "cases" fun
        | .array items => Reading.list (caseOfJson (read outcome levels true)) items
        | _ => failure
      let otherwise ← Reading.field fields "else" (read outcome levels true)
      return .decides cases otherwise
    | _ => failure

/-- Reads a tree.  Every decision opens a container, so the nesting of the
document bounds that of the tree. -/
def ofJson (outcome : Json → Reading Outcome) (json : Json) : Reading (Tree Outcome) :=
  read outcome (json.depth + 1) false json

end Tree

def IfTree.toJson (tree : IfTree) : Json :=
  Tree.toJson Value.toJson tree

def IfTree.ofJson (json : Json) : Reading IfTree :=
  Tree.ofJson (Value.ofJson true) json

def AdjustmentTree.toJson (tree : AdjustmentTree) : Json :=
  Tree.toJson Adjustment.listToJson tree

def AdjustmentTree.ofJson (json : Json) : Reading AdjustmentTree :=
  Tree.ofJson Adjustment.listOfJson json

end DecisionCanvas
