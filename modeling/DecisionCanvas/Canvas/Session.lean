import DecisionCanvas.Canvas.Action
import DecisionCanvas.Canvas.Config
import DecisionCanvas.Catalog

/-!
# Canvas sessions

A session is what one canvas remembers while it is open and never stores: how
far it is panned, which nested layers are open, what is being dragged and where
it would land.  A drag of a palette fact ends in a new node, a drag of a node in
another order of its layer.  A call that cannot do anything is not an error; it
tells why.
-/

namespace DecisionCanvas

/-- A place in the viewport or in the world. -/
structure Point (R : Type) where
  x : R
  y : R
  deriving DecidableEq

/-- The extent of a viewport. -/
structure Size (R : Type) where
  width : R
  height : R
  deriving DecidableEq

/-- Whether a place lies in a viewport, its edges included. -/
def Size.contains {R : Type} [Scalar R] (size : Size R) (point : Point R) : Bool :=
  Scalar.atMost (Scalar.ofNat 0) point.x && Scalar.atMost point.x size.width &&
    Scalar.atMost (Scalar.ofNat 0) point.y && Scalar.atMost point.y size.height

structure PaletteFact where
  key : String
  id : String
  name : String
  type : String
  scope : String
  deriving DecidableEq, Inhabited

def PaletteFact.isNumeric (fact : PaletteFact) : Bool :=
  fact.type == numberFactType

/-- What a drag carries.  Folders belong to the folder tree. -/
inductive DragPayload where
  | node (id : String)
  | fact (fact : PaletteFact)
  | folder (id : Option String)
  deriving DecidableEq

/-- The floating picture of a palette fact. -/
structure Ghost (R : Type) where
  value : Value
  position : Point R
  deriving DecidableEq

/-- Where what is dragged would land. -/
structure Preview (R : Type) where
  layer : String
  layerY : R
  index : Nat
  deriving DecidableEq

inductive NoopReason where
  | noActiveDrag
  | foreignPayload
  | nonNumericFact
  | pointerOutsideCanvas
  | outsideSnapRange
  | indexUnchanged
  | unknownNode
  | notALayerNode
  | nodeNotInRow
  | rowNotVisible
  | panNotCaptured
  deriving DecidableEq, Inhabited

def NoopReason.name : NoopReason → String
  | .noActiveDrag => "NoActiveDrag"
  | .foreignPayload => "ForeignPayload"
  | .nonNumericFact => "NonNumericFact"
  | .pointerOutsideCanvas => "PointerOutsideCanvas"
  | .outsideSnapRange => "OutsideSnapRange"
  | .indexUnchanged => "IndexUnchanged"
  | .unknownNode => "UnknownNode"
  | .notALayerNode => "NotALayerNode"
  | .nodeNotInRow => "NodeNotInRow"
  | .rowNotVisible => "RowNotVisible"
  | .panNotCaptured => "PanNotCaptured"

inductive Effect (R : Type) where
  | dragStarted (node layer : String) (index : Nat)
  | ghostMoved (position : Point R) (preview : Option (Preview R))
  | previewChanged (liveX : R) (preview : Option (Preview R))
  | dispatched (action : String)
  | rejected (error : GraphError)
  | panned (offset : Point R)
  | layerToggled (row : Nat) (layer : String) (isOpen : Bool)
  | cancelled
  | noop (reason : NoopReason)
  deriving DecidableEq

def Effect.isNoop {R : Type} : Effect R → Bool
  | .noop _ => true
  | _ => false

/-- What the drag of a node remembers from its start. -/
structure NodeDrag (R : Type) where
  node : String
  layer : String
  index : Nat
  originX : R
  pointerOrigin : Point R
  deriving DecidableEq

inductive ActiveDrag (R : Type) where
  | ghost (fact : PaletteFact)
  | node (drag : NodeDrag R)
  deriving DecidableEq

/-- Where a pan has begun. -/
structure PanCapture (R : Type) where
  pointerOrigin : Point R
  panOrigin : Point R
  deriving DecidableEq

/-- The state of one open canvas.  The layer opened from row `r` is the one at
place `r` of `openLayers`; it is shown as row `r + 1`. -/
structure Session (R : Type) where
  config : CanvasConfig R
  viewport : Size R
  pan : Point R
  panCapture : Option (PanCapture R)
  openLayers : List String
  maxDepth : Nat
  activeDrag : Option (ActiveDrag R)
  ghost : Option (Ghost R)
  preview : Option (Preview R)
  deriving DecidableEq

namespace Session

variable {R : Type} [Scalar R]

/-- A session that nothing has happened in, if its settings are valid. -/
def start (config : CanvasConfig R) (viewport : Size R) :
    Except (ConfigFault R) (Session R) :=
  config.validate.map fun config =>
    ⟨config, viewport, ⟨Scalar.ofNat 0, Scalar.ofNat 0⟩, none, [], 0, none, none, none⟩

omit [Scalar R] in
def resize (session : Session R) (viewport : Size R) : Session R :=
  { session with viewport := viewport }

/-- The rows on screen from top to bottom.  A row whose layer exists stands where
the layer does, any other where the settings put it. -/
def visibleRows (session : Session R) (graph : Graph R) : List (String × R) :=
  (session.config.rootLayer :: session.openLayers).zipIdx.map fun (id, row) =>
    match graph.layer? id with
    | some layer => (id, layer.y)
    | none => (id, session.config.rowY row)

def toWorld (session : Session R) (pointer : Point R) : Point R :=
  ⟨pointer.x - session.pan.x, pointer.y - session.pan.y⟩

/-! ## Panning -/

omit [Scalar R] in
def startPan (session : Session R) (pointer : Point R) : Session R :=
  { session with panCapture := some ⟨pointer, session.pan⟩ }

omit [Scalar R] in
def endPan (session : Session R) : Session R :=
  { session with panCapture := none }

/-- The least and greatest pan along one axis. -/
def axisBounds (padding viewport world : R) : R × R :=
  (Scalar.smaller (viewport - world) (Scalar.ofNat 0) - padding, padding)

/-- The height of the content, down to the deepest row that was ever open. -/
def worldHeight (session : Session R) : R :=
  session.config.rowY session.maxDepth + Line.nodeDiameter

def boundsX (session : Session R) (graph : Graph R) : R × R :=
  axisBounds session.config.panPadding session.viewport.width graph.maxWidth

def boundsY (session : Session R) : R × R :=
  axisBounds session.config.panPadding session.viewport.height session.worldHeight

def movePan (session : Session R) (graph : Graph R) (pointer : Point R) :
    Session R × Effect R :=
  match session.panCapture with
  | none => (session, .noop .panNotCaptured)
  | some capture =>
    let x := capture.panOrigin.x + pointer.x - capture.pointerOrigin.x
    let y := capture.panOrigin.y + pointer.y - capture.pointerOrigin.y
    let boundsX := session.boundsX graph
    let boundsY := session.boundsY
    let offset : Point R :=
      ⟨Scalar.clamp boundsX.1 boundsX.2 x, Scalar.clamp boundsY.1 boundsY.2 y⟩
    ({ session with pan := offset }, .panned offset)

/-! ## Nested layers -/

/-- Opens or closes the layer of a node that a row shows.  Rows below close. -/
def toggleLayer (session : Session R) (graph : Graph R) (row : Nat) (id : String) :
    Session R × Effect R :=
  match graph.node? id with
  | none => (session, .noop .unknownNode)
  | some node =>
    if !node.type.opensLayer then (session, .noop .notALayerNode)
    else
      match (session.visibleRows graph)[row]? with
      | none => (session, .noop .rowNotVisible)
      | some (layer, _) =>
        if node.layer != layer then (session, .noop .nodeNotInRow)
        else if session.openLayers[row]? == some id then
          ({ session with openLayers := session.openLayers.take row },
            .layerToggled row id false)
        else
          ({ session with
              openLayers := session.openLayers.take row ++ [id]
              maxDepth := max session.maxDepth (row + 1) },
            .layerToggled row id true)

/-! ## Dragging a fact -/

/-- The row nearest to a place in the world, if it is near enough, and the index
that one more node would take there. -/
def snap (session : Session R) (graph : Graph R) (world : Point R) : Option (Preview R) :=
  let rows := session.visibleRows graph
  match Scalar.nearestBy (fun row => Scalar.distance world.y row.2) rows with
  | none => none
  | some (layer, layerY) =>
    if Scalar.below session.config.snapThreshold (Scalar.distance world.y layerY) then none
    else
      let count := ((graph.layer? layer).map Layer.length).getD 0 + 1
      some ⟨layer, layerY, Line.closestSlot world.x (Line.width count) count⟩

omit [Scalar R] in
/-- The session without ghost and preview, for a reason. -/
def hideGhost (session : Session R) (reason : NoopReason) : Session R × Effect R :=
  ({ session with ghost := none, preview := none }, .noop reason)

def moveGhost (session : Session R) (graph : Graph R) (fact : PaletteFact) (pointer : Point R) :
    Session R × Effect R :=
  if !fact.isNumeric then session.hideGhost .nonNumericFact
  else if !session.viewport.contains pointer then session.hideGhost .pointerOutsideCanvas
  else
    let world := session.toWorld pointer
    let preview := session.snap graph world
    let value := Value.variable ⟨fact.key, fact.id, fact.type, fact.scope⟩ none
    ({ session with ghost := some ⟨value, world⟩, preview := preview },
      .ghostMoved world preview)

/-- The effect of an action and the graph after it. -/
def commit (graph : Graph R) (newId : String) (action : Action R) : Graph R × Effect R :=
  match graph.dispatch newId action with
  | .ok changed => (changed, .dispatched action.name)
  | .error error => (graph, .rejected error)

omit [Scalar R] in
/-- The node that a dropped fact becomes. -/
def factPlacement (fact : PaletteFact) (preview : Preview R) : Placement R :=
  { label := fact.name, variableId := some fact.id, factType := some fact.type,
    scope := some fact.scope, type := .fact, constant := none, layer := preview.layer,
    index := preview.index, layerY := some preview.layerY }

def dropGhost (session : Session R) (graph : Graph R) (newId : String) (fact : PaletteFact)
    (pointer : Point R) : Graph R × Effect R :=
  let (moved, effect) := session.moveGhost graph fact pointer
  if effect.isNoop then (graph, effect)
  else
    match moved.preview with
    | none => (graph, .noop .outsideSnapRange)
    | some preview => commit graph newId (.addNode (factPlacement fact preview))

/-! ## Dragging a node -/

omit [Scalar R] in
/-- Takes hold of a node where its layer lists it. -/
def startNode (session : Session R) (graph : Graph R) (id : String) (pointer : Point R) :
    Session R × Effect R :=
  match graph.node? id with
  | none => (session, .noop .unknownNode)
  | some node =>
    match (graph.layer? node.layer).bind fun layer => layer.position? id with
    | none => (session, .noop .unknownNode)
    | some index =>
      ({ session with activeDrag := some (.node ⟨node.id, node.layer, index, node.x, pointer⟩) },
        .dragStarted node.id node.layer index)

/-- Moves a dragged node along its layer. -/
def moveNode (session : Session R) (graph : Graph R) (pointer : Point R) :
    Session R × Effect R :=
  match session.activeDrag with
  | some (.node drag) =>
    match graph.layer? drag.layer with
    | none => ({ session with preview := none }, .noop .unknownNode)
    | some layer =>
      let liveX := drag.originX + (pointer.x - drag.pointerOrigin.x)
      let preview : Preview R :=
        ⟨layer.id, layer.y, Line.closestSlot liveX layer.width layer.length⟩
      ({ session with preview := some preview }, .previewChanged liveX (some preview))
  | _ => (session, .noop .noActiveDrag)

/-- Drops a dragged node: the node at the index where the drag has begun takes the
place of the preview. -/
def dropNode (session : Session R) (graph : Graph R) (newId : String) (pointer : Point R) :
    Graph R × Effect R :=
  let (moved, effect) := session.moveNode graph pointer
  if effect.isNoop then (graph, effect)
  else
    match moved.activeDrag, moved.preview with
    | some (.node drag), some preview =>
      if preview.layer != drag.layer || preview.index == drag.index then
        (graph, .noop .indexUnchanged)
      else
        match graph.layer? drag.layer with
        | none => (graph, .noop .unknownNode)
        | some layer =>
          commit graph newId
            (.reorderLayer drag.layer (Line.relocate layer.nodeIds drag.index preview.index))
    | _, _ => (graph, .noop .noActiveDrag)

/-! ## Drags -/

omit [Scalar R] in
def resetDrag (session : Session R) : Session R :=
  { session with activeDrag := none, ghost := none, preview := none }

omit [Scalar R] in
/-- Whether a payload is what is being dragged. -/
def owns (session : Session R) (payload : DragPayload) : Bool :=
  match session.activeDrag, payload with
  | some (.ghost fact), .fact incoming => fact.id == incoming.id
  | some (.node drag), .node incoming => drag.node == incoming
  | _, _ => false

omit [Scalar R] in
/-- Why a payload cannot go on with the drag, if it cannot. -/
def refusal? (session : Session R) (payload : DragPayload) : Option NoopReason :=
  match payload with
  | .folder _ => some .foreignPayload
  | _ =>
    if session.activeDrag.isNone then some .noActiveDrag
    else if !session.owns payload then some .foreignPayload
    else none

def startDrag (session : Session R) (graph : Graph R) (payload : DragPayload)
    (pointer : Point R) : Session R × Effect R :=
  match payload with
  | .folder _ => (session, .noop .foreignPayload)
  | .fact fact =>
    { session.resetDrag with activeDrag := some (.ghost fact) }.moveGhost graph fact pointer
  | .node id => session.resetDrag.startNode graph id pointer

def moveDrag (session : Session R) (graph : Graph R) (payload : DragPayload)
    (pointer : Point R) : Session R × Effect R :=
  match session.refusal? payload, payload with
  | some reason, _ => (session, .noop reason)
  | none, .fact fact => session.moveGhost graph fact pointer
  | none, _ => session.moveNode graph pointer

/-- Ends a drag by a drop.  A node that it adds gets the id `newId`. -/
def endDrag (session : Session R) (graph : Graph R) (newId : String) (payload : DragPayload)
    (pointer : Point R) : Session R × Graph R × Effect R :=
  match session.refusal? payload, payload with
  | some reason, _ => (session, graph, .noop reason)
  | none, .fact fact => (session.resetDrag, session.dropGhost graph newId fact pointer)
  | none, _ => (session.resetDrag, session.dropNode graph newId pointer)

omit [Scalar R] in
def cancelDrag (session : Session R) (payload : DragPayload) : Session R × Effect R :=
  if session.owns payload then (session.resetDrag, .cancelled)
  else (session, .noop .noActiveDrag)

end Session

end DecisionCanvas
