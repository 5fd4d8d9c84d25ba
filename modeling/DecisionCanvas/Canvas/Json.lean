import DecisionCanvas.Canvas.Persisted
import DecisionCanvas.Canvas.Session
import DecisionCanvas.Compiled.Json
import DecisionCanvas.Json.Reader
import DecisionCanvas.Json.Writer

/-!
# Graphs as documents

Persisted graphs, actions, settings and what a drag carries are plain or tagged
records.  Parts of a node that are not set are left out.
-/

namespace DecisionCanvas

namespace Arithmetic

/-- Reads an operation, `nested` if it stands inside a tagged record. -/
def ofJson? (nested : Bool) (json : Json) : Option Arithmetic :=
  (json.symbol? nested).bind ofSymbol?

end Arithmetic

namespace NodeType

/-- Reads a type, `nested` if it stands inside a tagged record. -/
def ofJson? (nested : Bool) (json : Json) : Option NodeType :=
  (json.symbol? nested).bind ofSymbol?

end NodeType

namespace PersistedLayer

def toJson (layer : PersistedLayer Float) : Json :=
  .object [("id", .string layer.id), ("y", Json.ofFloat layer.y),
    ("nodeIds", .array (layer.nodeIds.map Json.string)), ("width", Json.ofFloat layer.width)]

def ofJson? (json : Json) : Option (PersistedLayer Float) := do
  let fields ← json.fields? ["id", "y", "nodeIds", "width"]
  let id ← Json.required fields "id" Json.text?
  let y ← Json.required fields "y" Json.float?
  let nodeIds ← Json.required fields "nodeIds" (Json.list? Json.text?)
  let width ← Json.required fields "width" Json.float?
  return ⟨id, y, nodeIds, width⟩

end PersistedLayer

namespace PersistedNode

def fieldNames : List String :=
  ["id", "variable", "nodeType", "constantValue", "operand", "var_id", "var_fact_type",
    "var_scope"]

def toJson (node : PersistedNode Float) : Json :=
  .object <|
    [("id", .string node.id), ("variable", .string node.label),
      ("nodeType", .string node.type.symbol)] ++
    Json.present "constantValue" Json.ofFloat node.constant ++
    [("operand", .string node.operand.symbol)] ++
    Json.present "var_id" .string node.variableId ++
    Json.present "var_fact_type" .string node.factType ++
    Json.present "var_scope" .string node.scope

def ofJson? (json : Json) : Option (PersistedNode Float) := do
  let fields ← json.fields? fieldNames
  let id ← Json.required fields "id" Json.text?
  let label ← Json.required fields "variable" Json.text?
  let type ← Json.required fields "nodeType" (NodeType.ofJson? false)
  let constant ← Json.optional fields "constantValue" Json.float?
  let operand ← Json.withDefault fields "operand" .plus (Arithmetic.ofJson? false)
  let variableId ← Json.optional fields "var_id" Json.text?
  let factType ← Json.optional fields "var_fact_type" Json.text?
  let scope ← Json.optional fields "var_scope" Json.text?
  return { id, label, type, constant, operand, variableId, factType, scope }

end PersistedNode

namespace PersistedGraph

def toJson (graph : PersistedGraph Float) : Json :=
  .object [("layers", .array (graph.layers.map PersistedLayer.toJson)),
    ("nodes", .array (graph.nodes.map PersistedNode.toJson))]

def ofJson? (json : Json) : Option (PersistedGraph Float) := do
  let fields ← json.fields? ["layers", "nodes"]
  let layers ← Json.required fields "layers" (Json.list? PersistedLayer.ofJson?)
  let nodes ← Json.required fields "nodes" (Json.list? PersistedNode.ofJson?)
  return ⟨layers, nodes⟩

end PersistedGraph

def Graph.toText (graph : Graph Float) : String :=
  graph.persist.toJson.text

def Graph.ofText? (text : String) : Option (Graph Float) :=
  ((Json.read? text).bind PersistedGraph.ofJson?).map PersistedGraph.restore

namespace Placement

def fieldNames : List String :=
  ["variable", "var_id", "var_fact_type", "var_scope", "nodeType", "constantValue", "layerId",
    "index", "layerY"]

/-- Reads a placement, which stands inside the tagged record of an action. -/
def ofJson? (json : Json) : Option (Placement Float) := do
  let fields ← json.fields? fieldNames
  let label ← Json.required fields "variable" Json.text?
  let variableId ← Json.optional fields "var_id" Json.text?
  let factType ← Json.optional fields "var_fact_type" Json.text?
  let scope ← Json.optional fields "var_scope" Json.text?
  let type ← Json.required fields "nodeType" (NodeType.ofJson? true)
  let constant ← Json.optional fields "constantValue" Json.float?
  let layer ← Json.required fields "layerId" Json.text?
  let index ← Json.required fields "index" Json.count?
  let layerY ← Json.optional fields "layerY" Json.float?
  return { label, variableId, factType, scope, type, constant, layer, index, layerY }

end Placement

namespace Action

def tags : List String :=
  ["ADD_NODE_AT", "REORDER_LAYER", "UPDATE_NODE_OPERAND", "DELETE_NODE", "UPDATE_NODE_LABEL"]

def ofTagged? (tag : String) (rest : Json) : Option (Action Float) :=
  match tag with
  | "ADD_NODE_AT" => (Placement.ofJson? rest).map .addNode
  | "REORDER_LAYER" => do
    let fields ← rest.fields? ["layerId", "nodeIds"]
    let layer ← Json.required fields "layerId" Json.text?
    let nodeIds ← Json.required fields "nodeIds" (Json.list? Json.text?)
    return .reorderLayer layer nodeIds
  | "UPDATE_NODE_OPERAND" => do
    let fields ← rest.fields? ["nodeId", "operand"]
    let node ← Json.required fields "nodeId" Json.text?
    let operand ← Json.required fields "operand" (Arithmetic.ofJson? true)
    return .updateOperand node operand
  | "DELETE_NODE" => do
    let fields ← rest.fields? ["nodeId"]
    let node ← Json.required fields "nodeId" Json.text?
    return .deleteNode node
  | "UPDATE_NODE_LABEL" => do
    let fields ← rest.fields? ["nodeId", "label", "constantValue"]
    let node ← Json.required fields "nodeId" Json.text?
    let label ← Json.required fields "label" Json.text?
    let constant ← Json.optional fields "constantValue" Json.float?
    return .updateLabel node label constant
  | _ => none

def ofJson? (json : Json) : Option (Action Float) := do
  let (tag, rest) ← json.tagged? "type" tags false
  ofTagged? tag rest

end Action

def PaletteFact.ofJson? (json : Json) : Option PaletteFact := do
  let fields ← json.fields? ["fact_key", "fact_id", "name", "fact_type", "variable_scope"]
  let key ← Json.required fields "fact_key" Json.text?
  let id ← Json.required fields "fact_id" Json.text?
  let name ← Json.required fields "name" Json.text?
  let type ← Json.required fields "fact_type" Json.text?
  let scope ← Json.required fields "variable_scope" Json.text?
  return { key, id, name, type, scope }

namespace DragPayload

def tags : List String := ["NODE", "FOLDER-ITEM-FACT", "FOLDER"]

def ofJson? (json : Json) : Option DragPayload := do
  let (tag, rest) ← json.tagged? "kind" tags false
  match tag with
  | "NODE" => do
    let fields ← rest.fields? ["node_id"]
    let id ← Json.required fields "node_id" Json.text?
    return .node id
  | "FOLDER-ITEM-FACT" => do
    let fields ← rest.fields? ["fact"]
    let fact ← Json.required fields "fact" PaletteFact.ofJson?
    return .fact fact
  | "FOLDER" => do
    let fields ← rest.fields? ["folder_id"]
    let id ← Json.optional fields "folder_id" Json.text?
    return .folder id
  | _ => none

end DragPayload

/-- Reads settings; each of them has a value of its own when it is absent. -/
def CanvasConfig.ofJson? (json : Json) : Option (CanvasConfig Float) := do
  let standard : CanvasConfig Float := .standard
  let fields ← json.fields?
    ["snap_threshold", "row_spacing", "first_row_y", "root_layer_id", "pan_padding"]
  let snapThreshold ←
    Json.withDefault fields "snap_threshold" standard.snapThreshold Json.float?
  let rowSpacing ← Json.withDefault fields "row_spacing" standard.rowSpacing Json.float?
  let firstRowY ← Json.withDefault fields "first_row_y" standard.firstRowY Json.float?
  let rootLayer ← Json.withDefault fields "root_layer_id" standard.rootLayer Json.text?
  let panPadding ← Json.withDefault fields "pan_padding" standard.panPadding Json.float?
  return { snapThreshold, rowSpacing, firstRowY, rootLayer, panPadding }

end DecisionCanvas
