import DecisionCanvas.Compiled.Rebuild
import DecisionCanvas.Json.Record

/-!
# Compiled trees as documents

Expressions are plain records whose absent parts are left out.  A branch record
holds its outcome in the same object as its own fields; of two outcomes the
single return counts if it can be read.
-/

namespace DecisionCanvas

/-- A field that is written only when there is something to write. -/
def Json.present {Part : Type} (name : String) (write : Part → Json) :
    Option Part → List (String × Json)
  | some part => [(name, write part)]
  | none => []

namespace ExpressionKind

def all : List ExpressionKind := [.constant, .variableRef, .factRef, .operator]

def symbol : ExpressionKind → String
  | .constant => "const"
  | .variableRef => "variable_ref"
  | .factRef => "fact_ref"
  | .operator => "operator"

def ofSymbol? (symbol : String) : Option ExpressionKind :=
  all.find? fun kind => kind.symbol == symbol

end ExpressionKind

namespace TreeKind

def symbol : TreeKind → String
  | .numeric => "numeric"
  | .conditional => "conditional"

def ofSymbol? (symbol : String) : Option TreeKind :=
  [TreeKind.numeric, TreeKind.conditional].find? fun kind => kind.symbol == symbol

end TreeKind

namespace Expression

def fieldNames : List String :=
  ["id", "node_type", "number_value", "boolean_value", "string_value", "ref_key", "operator",
    "left_child_id", "right_child_id"]

def toJson (expression : Expression) : Json :=
  .object <|
    [("id", .integer expression.id), ("node_type", .string expression.kind.symbol)] ++
    Json.present "number_value" Json.ofFloat expression.number ++
    Json.present "boolean_value" .boolean expression.truth ++
    Json.present "string_value" .string expression.text ++
    Json.present "ref_key" .string expression.reference ++
    Json.present "operator" (fun operator => .string operator.symbol) expression.operator ++
    Json.present "left_child_id" .integer expression.left ++
    Json.present "right_child_id" .integer expression.right

def ofJson? (json : Json) : Option Expression := do
  let fields ← json.fields? fieldNames
  let id ← Json.required fields "id" Json.id?
  let kind ← Json.required fields "node_type" fun json =>
    (json.symbol? false).bind ExpressionKind.ofSymbol?
  let number ← Json.optional fields "number_value" Json.float?
  let truth ← Json.optional fields "boolean_value" Json.bool?
  let text ← Json.optional fields "string_value" Json.text?
  let reference ← Json.optional fields "ref_key" Json.text?
  let operator ← Json.optional fields "operator" fun json =>
    (json.symbol? false).bind ConditionOperator.ofSymbol?
  let left ← Json.optional fields "left_child_id" Json.id?
  let right ← Json.optional fields "right_child_id" Json.id?
  return { id, kind, number, truth, text, reference, operator, left, right }

end Expression

namespace StatementRecord

def toJson (statement : StatementRecord) : Json :=
  .object [("operation", .string statement.operation.symbol),
    ("value_expression_id", .integer statement.value)]

def ofJson? (json : Json) : Option StatementRecord := do
  let fields ← json.fields? ["operation", "value_expression_id"]
  let operation ← Json.required fields "operation" fun json =>
    (json.symbol? false).bind Arithmetic.ofSymbol?
  let value ← Json.required fields "value_expression_id" Json.id?
  return ⟨operation, value⟩

end StatementRecord

namespace BranchOutcome

def toField : BranchOutcome → String × Json
  | .returns expression => ("return_expression_id", .integer expression)
  | .statements list => ("statements", .array (list.map StatementRecord.toJson))

def readReturn? (json : Json) : Option BranchOutcome := do
  let fields ← json.fields? ["return_expression_id"]
  let expression ← Json.required fields "return_expression_id" Json.id?
  return .returns expression

def readStatements? (json : Json) : Option BranchOutcome := do
  let fields ← json.fields? ["statements"]
  let list ← Json.required fields "statements" (Json.list? StatementRecord.ofJson?)
  return .statements list

/-- Reads an outcome out of the fields that are left for it. -/
def ofJson? (json : Json) : Option BranchOutcome :=
  (readReturn? json).or (readStatements? json)

end BranchOutcome

namespace BranchRecord

/-- The fields of a record besides those of its outcome. -/
def ownFields : List String := ["order_index", "condition_expression_id"]

def toJson (record : BranchRecord) : Json :=
  .object [("order_index", .integer record.orderIndex),
    ("condition_expression_id", (record.condition.map Json.integer).getD .null),
    record.outcome.toField]

def ofJson? (json : Json) : Option BranchRecord :=
  match json with
  | .object all => do
    let fields ← json.fields? ownFields
    let orderIndex ← Json.required fields "order_index" Json.count?
    let condition ← Json.optional fields "condition_expression_id" Json.id?
    let rest := Json.object (all.filter fun field => !ownFields.contains field.1)
    if rest.isReadable then
      let outcome ← BranchOutcome.ofJson? rest
      return ⟨orderIndex, condition, outcome⟩
    else none
  | _ => none

end BranchRecord

namespace CompiledTree

def toJson (tree : CompiledTree) : Json :=
  .object [("expressions", .array (tree.expressions.map Expression.toJson)),
    ("branches", .array (tree.branches.map BranchRecord.toJson))]

def ofJson? (json : Json) : Option CompiledTree := do
  let fields ← json.fields? ["expressions", "branches"]
  let expressions ← Json.required fields "expressions" (Json.list? Expression.ofJson?)
  let branches ← Json.required fields "branches" (Json.list? BranchRecord.ofJson?)
  return ⟨expressions, branches⟩

end CompiledTree

namespace FactDefinition

def toJson (fact : FactDefinition) : Json :=
  .object [("fact_id", .string fact.id), ("fact_type", .string fact.type),
    ("variable_scope", .string fact.scope)]

def ofJson? (json : Json) : Option FactDefinition := do
  let fields ← json.fields? ["fact_id", "fact_type", "variable_scope"]
  let id ← Json.required fields "fact_id" Json.text?
  let type ← Json.required fields "fact_type" Json.text?
  let scope ← Json.required fields "variable_scope" Json.text?
  return ⟨id, type, scope⟩

end FactDefinition

/-- Reads a catalog, an object of definitions under their keys. -/
def Catalog.ofJson? : Json → Option Catalog
  | .object fields =>
    (fields.mapM fun field => (FactDefinition.ofJson? field.2).map (field.1, ·)).map .mk
  | _ => none

end DecisionCanvas
