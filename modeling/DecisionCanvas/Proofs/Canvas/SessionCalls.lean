import DecisionCanvas.Proofs.Canvas.Addition
import DecisionCanvas.Proofs.Canvas.NodeDrag

/-!
# Calls on a session

A host may call a session in any order, and hand it any graph with each call.  What the
session shows always fits what is dragged, only what is dragged can go on, and a drop that
acts is never refused.
-/

namespace DecisionCanvas

variable {R : Type}

/-- Whether a node stands for a numeric fact and names all that binds it to the fact. -/
structure Node.IsNumericFact (node : Node R) : Prop where
  type_eq : node.type = .fact
  factType_eq : node.factType = some numberFactType
  variable_known : node.variableId.isSome = true
  scope_known : node.scope.isSome = true

namespace Session

/-- What a host can call a session for. -/
inductive Call (R : Type) where
  | resize (viewport : Size R)
  | startPan (pointer : Point R)
  | movePan (pointer : Point R)
  | endPan
  | toggleLayer (row : Nat) (node : String)
  | startDrag (payload : DragPayload) (pointer : Point R)
  | moveDrag (payload : DragPayload) (pointer : Point R)
  | endDrag (newId : String) (payload : DragPayload) (pointer : Point R)
  | cancelDrag (payload : DragPayload)

/-- Whether nothing is dragged and nothing of a drag is shown. -/
structure Idle (session : Session R) : Prop where
  not_dragging : session.activeDrag = none
  no_ghost : session.ghost = none
  no_preview : session.preview = none

/-- What is shown fits what is dragged: only a palette fact has a ghost, which is numeric,
and it has a preview only along with the ghost. -/
structure Coherent (session : Session R) : Prop where
  idle : session.activeDrag = none → session.Idle
  ghost_dragged : ∀ ghost, session.ghost = some ghost →
    ∃ fact, session.activeDrag = some (.ghost fact)
  ghost_numeric : ∀ ghost, session.ghost = some ghost →
    ∃ reference, ghost.value = .variable reference none ∧ reference.type = numberFactType
  preview_with_ghost : ∀ fact, session.activeDrag = some (.ghost fact) →
    session.preview.isSome = true → session.ghost.isSome = true

theorem Idle.coherent {session : Session R} (hidle : session.Idle) : session.Coherent where
  idle _ := hidle
  ghost_dragged ghost hghost := by simp [hidle.no_ghost] at hghost
  ghost_numeric ghost hghost := by simp [hidle.no_ghost] at hghost
  preview_with_ghost fact _ hpreview := by simp [hidle.no_preview] at hpreview

/-- Only the drag and what is shown of it matter. -/
theorem Coherent.congr {session other : Session R} (hsession : session.Coherent)
    (hdrag : other.activeDrag = session.activeDrag) (hghost : other.ghost = session.ghost)
    (hpreview : other.preview = session.preview) : other.Coherent where
  idle hidle := by
    have hsame := hsession.idle (hdrag ▸ hidle)
    exact ⟨hidle, hghost.trans hsame.no_ghost, hpreview.trans hsame.no_preview⟩
  ghost_dragged ghost hshown := by
    rw [hdrag]
    exact hsession.ghost_dragged ghost (hghost ▸ hshown)
  ghost_numeric ghost hshown := hsession.ghost_numeric ghost (hghost ▸ hshown)
  preview_with_ghost fact hfact hshown := by
    rw [hghost]
    exact hsession.preview_with_ghost fact (hdrag ▸ hfact) (hpreview ▸ hshown)

/-- A node that is dragged has no ghost, and what is shown without one fits. -/
theorem coherent_of_node {session : Session R} {drag : NodeDrag R}
    (hdrag : session.activeDrag = some (.node drag)) (hghost : session.ghost = none) :
    session.Coherent where
  idle hidle := absurd (hdrag.symm.trans hidle) (by simp)
  ghost_dragged ghost hshown := absurd (hghost.symm.trans hshown) (by simp)
  ghost_numeric ghost hshown := absurd (hghost.symm.trans hshown) (by simp)
  preview_with_ghost fact hfact := absurd (hdrag.symm.trans hfact) (by simp)

theorem Coherent.ghost_eq_none {session : Session R} (hsession : session.Coherent)
    {drag : NodeDrag R} (hdrag : session.activeDrag = some (.node drag)) :
    session.ghost = none := by
  cases hshown : session.ghost with
  | none => rfl
  | some ghost =>
      obtain ⟨fact, hfact⟩ := hsession.ghost_dragged ghost hshown
      exact absurd (hdrag.symm.trans hfact) (by simp)

theorem idle_resetDrag (session : Session R) : session.resetDrag.Idle :=
  ⟨rfl, rfl, rfl⟩

/-! ## Owned payloads -/

theorem exists_of_owns_fact {session : Session R} {incoming : PaletteFact}
    (howns : session.owns (.fact incoming) = true) :
    ∃ fact, session.activeDrag = some (.ghost fact) := by
  cases hdrag : session.activeDrag with
  | none => simp [owns, hdrag] at howns
  | some drag =>
      cases drag with
      | ghost fact => exact ⟨fact, rfl⟩
      | node drag => simp [owns, hdrag] at howns

theorem exists_of_owns_node {session : Session R} {id : String}
    (howns : session.owns (.node id) = true) :
    ∃ drag, session.activeDrag = some (.node drag) ∧ drag.node = id := by
  cases hdrag : session.activeDrag with
  | none => simp [owns, hdrag] at howns
  | some drag =>
      cases drag with
      | ghost fact => simp [owns, hdrag] at howns
      | node drag =>
          simp only [owns, hdrag, beq_iff_eq] at howns
          exact ⟨drag, rfl, howns⟩

/-- A payload can go on exactly if it is what is dragged. -/
theorem refusal?_eq_none_iff {session : Session R} {payload : DragPayload} :
    session.refusal? payload = none ↔ session.owns payload = true := by
  cases payload with
  | folder id =>
      cases hdrag : session.activeDrag with
      | none => simp [refusal?, owns, hdrag]
      | some drag => cases drag <;> simp [refusal?, owns, hdrag]
  | fact fact =>
      cases hdrag : session.activeDrag with
      | none => simp [refusal?, owns, hdrag]
      | some drag => cases drag <;> simp [refusal?, owns, hdrag]
  | node id =>
      cases hdrag : session.activeDrag with
      | none => simp [refusal?, owns, hdrag]
      | some drag => cases drag <;> simp [refusal?, owns, hdrag]

variable [Scalar R]

/-- What is not dragged can neither move nor end nor cancel. -/
structure Ignores (session : Session R) (payload : DragPayload) : Prop where
  move : ∀ graph pointer, ∃ reason,
    session.moveDrag graph payload pointer = (session, .noop reason)
  drop : ∀ graph newId pointer, ∃ reason,
    session.endDrag graph newId payload pointer = (session, graph, .noop reason)
  cancel : ∃ reason, session.cancelDrag payload = (session, .noop reason)

theorem ignores_of_not_owned {session : Session R} {payload : DragPayload}
    (hforeign : session.owns payload = false) : session.Ignores payload := by
  obtain ⟨reason, hreason⟩ : ∃ reason, session.refusal? payload = some reason := by
    apply Option.ne_none_iff_exists'.mp
    intro hnone
    rw [refusal?_eq_none_iff.mp hnone] at hforeign
    exact absurd hforeign (by simp)
  refine ⟨fun graph pointer => ⟨reason, ?_⟩, fun graph newId pointer => ⟨reason, ?_⟩,
    .noActiveDrag, ?_⟩
  · simp only [moveDrag, hreason]
  · simp only [endDrag, hreason]
  · simp [cancelDrag, hforeign]

/-- How a payload that is dragged moves and ends: a fact as a ghost, a node along its layer. -/
inductive GoesOn (session : Session R) : DragPayload → Prop
  | fact (fact dragged : PaletteFact) : session.activeDrag = some (.ghost dragged) →
      (∀ graph pointer, session.moveDrag graph (.fact fact) pointer =
        session.moveGhost graph fact pointer) →
      (∀ graph newId pointer, session.endDrag graph newId (.fact fact) pointer =
        (session.resetDrag, session.dropGhost graph newId fact pointer)) →
      GoesOn session (.fact fact)
  | node (drag : NodeDrag R) : session.activeDrag = some (.node drag) →
      (∀ graph pointer, session.moveDrag graph (.node drag.node) pointer =
        session.moveNode graph pointer) →
      (∀ graph newId pointer, session.endDrag graph newId (.node drag.node) pointer =
        (session.resetDrag, session.dropNode graph newId pointer)) →
      GoesOn session (.node drag.node)

theorem goesOn_of_owned {session : Session R} {payload : DragPayload}
    (howns : session.owns payload = true) : session.GoesOn payload := by
  have hrefusal := refusal?_eq_none_iff.mpr howns
  cases payload with
  | folder id => simp [refusal?] at hrefusal
  | fact fact =>
      obtain ⟨dragged, hdrag⟩ := exists_of_owns_fact howns
      refine .fact fact dragged hdrag (fun graph pointer => ?_) (fun graph newId pointer => ?_)
      · simp only [moveDrag, hrefusal]
      · simp only [endDrag, hrefusal]
  | node id =>
      obtain ⟨drag, hdrag, rfl⟩ := exists_of_owns_node howns
      refine .node drag hdrag (fun graph pointer => ?_) (fun graph newId pointer => ?_)
      · simp only [moveDrag, hrefusal]
      · simp only [endDrag, hrefusal]

/-- The drag is over once what is dragged ends or is cancelled. -/
theorem idle_endDrag {session : Session R} {payload : DragPayload}
    (howns : session.owns payload = true) (graph : Graph R) (newId : String)
    (pointer : Point R) : (session.endDrag graph newId payload pointer).1.Idle := by
  cases goesOn_of_owned howns with
  | fact fact dragged hdrag hmove hend =>
      rw [hend]
      exact session.idle_resetDrag
  | node drag hdrag hmove hend =>
      rw [hend]
      exact session.idle_resetDrag

omit [Scalar R] in
theorem idle_cancelDrag {session : Session R} {payload : DragPayload}
    (howns : session.owns payload = true) : (session.cancelDrag payload).1.Idle := by
  rw [cancelDrag, if_pos howns]
  exact session.idle_resetDrag

/-! ## Moves -/

/-- The move of a fact hides it for a reason, or shows a numeric fact and where it would
snap. -/
theorem moveGhost_cases (session : Session R) (graph : Graph R) (fact : PaletteFact)
    (pointer : Point R) :
    (∃ reason, session.moveGhost graph fact pointer = session.hideGhost reason) ∨
      fact.isNumeric = true ∧
        let world := session.toWorld pointer
        let value := Value.variable ⟨fact.key, fact.id, fact.type, fact.scope⟩ none
        session.moveGhost graph fact pointer =
          ({ session with ghost := some ⟨value, world⟩, preview := session.snap graph world },
            .ghostMoved world (session.snap graph world)) := by
  cases hnumeric : fact.isNumeric with
  | false => exact Or.inl ⟨.nonNumericFact, by simp [moveGhost, hnumeric]⟩
  | true =>
      cases hinside : session.viewport.contains pointer with
      | false => exact Or.inl ⟨.pointerOutsideCanvas, by simp [moveGhost, hnumeric, hinside]⟩
      | true => exact Or.inr ⟨rfl, by simp [moveGhost, hnumeric, hinside]⟩

theorem coherent_moveGhost {session : Session R} {dragged : PaletteFact}
    (hdrag : session.activeDrag = some (.ghost dragged)) (graph : Graph R) (fact : PaletteFact)
    (pointer : Point R) : (session.moveGhost graph fact pointer).1.Coherent := by
  obtain ⟨reason, hhidden⟩ | ⟨hnumeric, hshown⟩ := moveGhost_cases session graph fact pointer
  · rw [hhidden]
    refine ⟨fun hidle => ⟨hidle, rfl, rfl⟩, ?_, ?_, ?_⟩
    · intro ghost hghost
      simp [hideGhost] at hghost
    · intro ghost hghost
      simp [hideGhost] at hghost
    · intro other _ hpreview
      simp [hideGhost] at hpreview
  · rw [hshown]
    refine ⟨?_, fun _ _ => ⟨dragged, hdrag⟩, ?_, fun _ _ _ => rfl⟩
    · intro hidle
      exact absurd (hdrag.symm.trans hidle) (by simp)
    · intro ghost hghost
      rw [← Option.some.inj hghost]
      exact ⟨_, rfl, beq_iff_eq.mp hnumeric⟩

theorem coherent_moveNode {session : Session R} (hsession : session.Coherent)
    {drag : NodeDrag R} (hdrag : session.activeDrag = some (.node drag)) (graph : Graph R)
    (pointer : Point R) : (session.moveNode graph pointer).1.Coherent := by
  have hghost : (session.moveNode graph pointer).1.ghost = session.ghost := by
    rw [moveNode]
    split
    · split <;> rfl
    · rfl
  apply coherent_of_node
  · rw [activeDrag_moveNode, hdrag]
  · rw [hghost, hsession.ghost_eq_none hdrag]

/-! ## Drops -/

/-- What the end of a drag may do to a graph.  It changes the graph only by an action that the
graph accepts, reports an action only if it was carried out, and adds no other node than one for
a numeric fact. -/
structure SoundDrop (newId : String) (graph final : Graph R) (effect : Effect R) : Prop where
  accepted : ∀ error, effect ≠ .rejected error
  dispatched : final ≠ graph → ∃ action : Action R,
    effect = .dispatched action.name ∧ graph.dispatch newId action = .ok final
  carried_out : ∀ name, effect = .dispatched name → ∃ action : Action R,
    action.name = name ∧ graph.dispatch newId action = .ok final
  added_numeric : ∀ id node, final.node? id = some node →
    (∃ original, graph.node? id = some original ∧ node.MovedFrom original) ∨
      node.IsNumericFact

theorem soundDrop_noop (newId : String) (graph : Graph R) (reason : NoopReason) :
    SoundDrop newId graph graph (.noop reason) where
  accepted error := by simp
  dispatched hchanged := absurd rfl hchanged
  carried_out name hreported := by simp at hreported
  added_numeric id node hnode := Or.inl ⟨node, hnode, rfl⟩

/-- What is committed is sound if the graph accepts it and it adds nothing but numeric facts. -/
theorem soundDrop_commit {graph next : Graph R} {newId : String} {action : Action R}
    (hdispatch : graph.dispatch newId action = .ok next)
    (hadded : ∀ id node, next.node? id = some node →
      (∃ original, graph.node? id = some original ∧ node.MovedFrom original) ∨
        node.IsNumericFact) :
    SoundDrop newId graph (commit graph newId action).1 (commit graph newId action).2 := by
  rw [commit_eq hdispatch]
  refine ⟨fun error => by simp, fun _ => ⟨action, rfl, hdispatch⟩, fun name hname => ?_, hadded⟩
  rw [Effect.dispatched.injEq] at hname
  exact ⟨action, hname, hdispatch⟩

/-- A drop of a fact commits what the move shows. -/
theorem dropGhost_of_preview {session : Session R} {graph : Graph R} {fact : PaletteFact}
    {pointer : Point R} {preview : Preview R}
    (hpreview : (session.moveGhost graph fact pointer).1.preview = some preview)
    (newId : String) :
    session.dropGhost graph newId fact pointer =
      commit graph newId (.addNode (factPlacement fact preview)) := by
  obtain ⟨reason, hhidden⟩ | ⟨-, hshown⟩ := moveGhost_cases session graph fact pointer
  · rw [hhidden] at hpreview
    exact absurd hpreview (by simp [hideGhost])
  · rw [hshown] at hpreview
    simp only at hpreview
    simp only [dropGhost, hshown, hpreview]
    rfl

/-- Where the move shows nothing, the drop does nothing. -/
theorem dropGhost_of_hidden {session : Session R} {graph : Graph R} {fact : PaletteFact}
    {pointer : Point R}
    (hpreview : (session.moveGhost graph fact pointer).1.preview = none) (newId : String) :
    ∃ reason, session.dropGhost graph newId fact pointer = (graph, .noop reason) := by
  obtain ⟨reason, hhidden⟩ | ⟨-, hshown⟩ := moveGhost_cases session graph fact pointer
  · refine ⟨reason, ?_⟩
    simp only [dropGhost, hhidden, hideGhost, Effect.isNoop, if_true]
  · rw [hshown] at hpreview
    simp only at hpreview
    refine ⟨.outsideSnapRange, ?_⟩
    simp only [dropGhost, hshown, hpreview]
    rfl

/-- Only a numeric fact is shown where it would land. -/
theorem isNumeric_of_preview {session : Session R} {graph : Graph R} {fact : PaletteFact}
    {pointer : Point R} {preview : Preview R}
    (hpreview : (session.moveGhost graph fact pointer).1.preview = some preview) :
    fact.isNumeric = true := by
  obtain ⟨reason, hhidden⟩ | ⟨hnumeric, -⟩ := moveGhost_cases session graph fact pointer
  · rw [hhidden] at hpreview
    exact absurd hpreview (by simp [hideGhost])
  · exact hnumeric

omit [Scalar R] in
/-- The node that a numeric fact becomes stands for it, wherever it is moved. -/
theorem isNumericFact_of_movedFrom {fact : PaletteFact} (hnumeric : fact.isNumeric = true)
    {newId : String} {preview : Preview R} {layer : Layer R} {x : R} {node : Node R}
    (hmoved : node.MovedFrom (Graph.newNode newId (factPlacement fact preview) layer x)) :
    node.IsNumericFact := by
  have htype : fact.type = numberFactType := beq_iff_eq.mp hnumeric
  rw [hmoved]
  exact ⟨rfl, congrArg some htype, rfl, rfl⟩

theorem soundDrop_dropGhost (session : Session R) (graph : Graph R) (newId : String)
    (fact : PaletteFact) (pointer : Point R) :
    SoundDrop newId graph (session.dropGhost graph newId fact pointer).1
      (session.dropGhost graph newId fact pointer).2 := by
  cases hpreview : (session.moveGhost graph fact pointer).1.preview with
  | none =>
      obtain ⟨reason, hdrop⟩ := dropGhost_of_hidden hpreview newId
      rw [hdrop]
      exact soundDrop_noop newId graph reason
  | some preview =>
      obtain ⟨next, hdispatch, hadds⟩ := graph.dispatch_addNode newId
        (factPlacement fact preview) rfl rfl
      rw [dropGhost_of_preview hpreview]
      refine soundDrop_commit hdispatch fun id node hnode => ?_
      obtain ⟨-, hold⟩ | ⟨-, hnew⟩ := hadds.node?_cases id node hnode
      · exact Or.inl hold
      · exact Or.inr (isNumericFact_of_movedFrom (isNumeric_of_preview hpreview) hnew)

/-- A drop of a node leaves the graph, or reorders the layer of the node as it is by then. -/
theorem dropNode_cases {session : Session R} {drag : NodeDrag R}
    (hdrag : session.activeDrag = some (.node drag)) (graph : Graph R) (newId : String)
    (pointer : Point R) :
    (∃ reason, session.dropNode graph newId pointer = (graph, .noop reason)) ∨
      ∃ layer, graph.layer? drag.layer = some layer ∧
        session.dropNode graph newId pointer = commit graph newId (.reorderLayer drag.layer
          (Line.relocate layer.nodeIds drag.index (drag.target layer pointer))) := by
  cases hlayer : graph.layer? drag.layer with
  | none =>
      refine Or.inl ⟨.unknownNode, ?_⟩
      simp [dropNode, moveNode, hdrag, hlayer, Effect.isNoop]
  | some layer =>
      rw [dropNode_eq hdrag hlayer]
      split
      · exact Or.inl ⟨.indexUnchanged, rfl⟩
      · exact Or.inr ⟨layer, rfl, rfl⟩

/-- A drop of a node reorders its layer to a permutation of what it lists, also if the
index it remembers has grown stale. -/
theorem soundDrop_dropNode {session : Session R} {drag : NodeDrag R}
    (hdrag : session.activeDrag = some (.node drag)) (graph : Graph R) (newId : String)
    (pointer : Point R) :
    SoundDrop newId graph (session.dropNode graph newId pointer).1
      (session.dropNode graph newId pointer).2 := by
  obtain ⟨reason, hdrop⟩ | ⟨layer, hlayer, hdrop⟩ := dropNode_cases hdrag graph newId pointer
  · rw [hdrop]
    exact soundDrop_noop newId graph reason
  · obtain ⟨next, hdispatch, -⟩ := Graph.dispatch_reorder hlayer
      (Line.relocate_perm layer.nodeIds drag.index (drag.target layer pointer)) newId
    rw [hdrop]
    exact soundDrop_commit hdispatch fun id node hnode =>
      Or.inl (Graph.of_node?_reorderLayer hdispatch hnode)

theorem soundDrop_endDrag (session : Session R) (graph : Graph R) (newId : String)
    (payload : DragPayload) (pointer : Point R) :
    SoundDrop newId graph (session.endDrag graph newId payload pointer).2.1
      (session.endDrag graph newId payload pointer).2.2 := by
  cases howns : session.owns payload with
  | false =>
      obtain ⟨reason, hend⟩ := (ignores_of_not_owned howns).drop graph newId pointer
      rw [hend]
      exact soundDrop_noop newId graph reason
  | true =>
      cases goesOn_of_owned howns with
      | fact fact dragged hdrag hmove hend =>
          rw [hend]
          exact soundDrop_dropGhost session graph newId fact pointer
      | node drag hdrag hmove hend =>
          rw [hend]
          exact soundDrop_dropNode hdrag graph newId pointer

/-! ## Any calls -/

/-- A layer is opened or closed for a node that a row shows, and all rows below close; any
other toggle does nothing. -/
theorem toggleLayer_cases (session : Session R) (graph : Graph R) (row : Nat) (id : String) :
    (∃ reason, session.toggleLayer graph row id = (session, .noop reason)) ∨
      ∃ node y, graph.node? id = some node ∧ node.type.opensLayer = true ∧
        (session.visibleRows graph)[row]? = some (node.layer, y) ∧
        (session.openLayers[row]? = some id ∧ session.toggleLayer graph row id =
            ({ session with openLayers := session.openLayers.take row },
              .layerToggled row id false) ∨
          session.openLayers[row]? ≠ some id ∧ session.toggleLayer graph row id =
            ({ session with
                openLayers := session.openLayers.take row ++ [id]
                maxDepth := max session.maxDepth (row + 1) },
              .layerToggled row id true)) := by
  cases hnode : graph.node? id with
  | none => exact Or.inl ⟨.unknownNode, by simp [toggleLayer, hnode]⟩
  | some node =>
      cases hopens : node.type.opensLayer with
      | false => exact Or.inl ⟨.notALayerNode, by simp [toggleLayer, hnode, hopens]⟩
      | true =>
          cases hrow : (session.visibleRows graph)[row]? with
          | none => exact Or.inl ⟨.rowNotVisible, by simp [toggleLayer, hnode, hopens, hrow]⟩
          | some shown =>
              by_cases hlayer : node.layer = shown.1
              · refine Or.inr ⟨node, shown.2, rfl, hopens, by rw [hlayer], ?_⟩
                by_cases hopen : session.openLayers[row]? = some id
                · exact Or.inl ⟨hopen, by
                    simp [toggleLayer, hnode, hopens, hrow, hlayer, hopen]⟩
                · exact Or.inr ⟨hopen, by
                    simp [toggleLayer, hnode, hopens, hrow, hlayer, hopen]⟩
              · exact Or.inl ⟨.nodeNotInRow, by
                  simp [toggleLayer, hnode, hopens, hrow, hlayer]⟩

/-- The session and the graph after a call. -/
def after (session : Session R) (graph : Graph R) : Call R → Session R × Graph R
  | .resize viewport => (session.resize viewport, graph)
  | .startPan pointer => (session.startPan pointer, graph)
  | .movePan pointer => ((session.movePan graph pointer).1, graph)
  | .endPan => (session.endPan, graph)
  | .toggleLayer row node => ((session.toggleLayer graph row node).1, graph)
  | .startDrag payload pointer => ((session.startDrag graph payload pointer).1, graph)
  | .moveDrag payload pointer => ((session.moveDrag graph payload pointer).1, graph)
  | .endDrag newId payload pointer =>
    let ended := session.endDrag graph newId payload pointer
    (ended.1, ended.2.1)
  | .cancelDrag payload => ((session.cancelDrag payload).1, graph)

/-- Whether a session is another one but for what is dragged and what is shown of it. -/
def DragsOnly (session other : Session R) : Prop :=
  other = { session with
    activeDrag := other.activeDrag, ghost := other.ghost, preview := other.preview }

theorem dragsOnly_moveGhost (session : Session R) (graph : Graph R) (fact : PaletteFact)
    (pointer : Point R) : session.DragsOnly (session.moveGhost graph fact pointer).1 := by
  obtain ⟨reason, hhidden⟩ | ⟨-, hshown⟩ := moveGhost_cases session graph fact pointer
  · rw [hhidden]
    rfl
  · rw [hshown]
    rfl

theorem dragsOnly_moveNode (session : Session R) (graph : Graph R) (pointer : Point R) :
    session.DragsOnly (session.moveNode graph pointer).1 := by
  rw [moveNode]
  split
  · split <;> rfl
  · rfl

theorem dragsOnly_startDrag (session : Session R) (graph : Graph R) (payload : DragPayload)
    (pointer : Point R) : session.DragsOnly (session.startDrag graph payload pointer).1 := by
  cases payload with
  | folder id => rfl
  | fact fact =>
      exact dragsOnly_moveGhost { session.resetDrag with activeDrag := some (.ghost fact) } graph
        fact pointer
  | node id =>
      simp only [startDrag, startNode]
      split
      · rfl
      · split <;> rfl

theorem dragsOnly_moveDrag (session : Session R) (graph : Graph R) (payload : DragPayload)
    (pointer : Point R) : session.DragsOnly (session.moveDrag graph payload pointer).1 := by
  unfold moveDrag
  split
  · rfl
  · exact dragsOnly_moveGhost session graph _ pointer
  · exact dragsOnly_moveNode session graph pointer

theorem dragsOnly_endDrag (session : Session R) (graph : Graph R) (newId : String)
    (payload : DragPayload) (pointer : Point R) :
    session.DragsOnly (session.endDrag graph newId payload pointer).1 := by
  unfold endDrag
  split <;> rfl

omit [Scalar R] in
theorem dragsOnly_cancelDrag (session : Session R) (payload : DragPayload) :
    session.DragsOnly (session.cancelDrag payload).1 := by
  rw [cancelDrag]
  split <;> rfl

/-- The session after calls, each of which is handed some graph. -/
def afterCalls (session : Session R) (calls : List (Graph R × Call R)) : Session R :=
  calls.foldl (fun session call => (session.after call.1 call.2).1) session

namespace Coherent

variable {session : Session R} (hsession : session.Coherent)
include hsession

theorem movePan (graph : Graph R) (pointer : Point R) :
    (session.movePan graph pointer).1.Coherent := by
  rw [Session.movePan]
  split
  · exact hsession
  · exact hsession.congr rfl rfl rfl

theorem toggleLayer (graph : Graph R) (row : Nat) (node : String) :
    (session.toggleLayer graph row node).1.Coherent := by
  obtain ⟨reason, hkept⟩ | ⟨_, _, -, -, -, ⟨-, hclosed⟩ | ⟨-, hopened⟩⟩ :=
    toggleLayer_cases session graph row node
  · rw [hkept]
    exact hsession
  · rw [hclosed]
    exact hsession.congr rfl rfl rfl
  · rw [hopened]
    exact hsession.congr rfl rfl rfl

theorem startDrag (graph : Graph R) (payload : DragPayload) (pointer : Point R) :
    (session.startDrag graph payload pointer).1.Coherent := by
  cases payload with
  | folder id => exact hsession
  | fact fact => exact coherent_moveGhost rfl graph fact pointer
  | node id =>
      have hidle := session.idle_resetDrag.coherent
      simp only [Session.startDrag, startNode]
      split
      · exact hidle
      · split
        · exact hidle
        · exact coherent_of_node rfl rfl

theorem moveDrag (graph : Graph R) (payload : DragPayload) (pointer : Point R) :
    (session.moveDrag graph payload pointer).1.Coherent := by
  cases howns : session.owns payload with
  | false =>
      obtain ⟨reason, hmove⟩ := (ignores_of_not_owned howns).move graph pointer
      rw [hmove]
      exact hsession
  | true =>
      cases goesOn_of_owned howns with
      | fact fact dragged hdrag hmove hend =>
          rw [hmove]
          exact coherent_moveGhost hdrag graph fact pointer
      | node drag hdrag hmove hend =>
          rw [hmove]
          exact coherent_moveNode hsession hdrag graph pointer

theorem endDrag (graph : Graph R) (newId : String) (payload : DragPayload) (pointer : Point R) :
    (session.endDrag graph newId payload pointer).1.Coherent := by
  cases howns : session.owns payload with
  | false =>
      obtain ⟨reason, hend⟩ := (ignores_of_not_owned howns).drop graph newId pointer
      rw [hend]
      exact hsession
  | true => exact (idle_endDrag howns graph newId pointer).coherent

omit [Scalar R] in
theorem cancelDrag (payload : DragPayload) : (session.cancelDrag payload).1.Coherent := by
  rw [Session.cancelDrag]
  split
  · exact session.idle_resetDrag.coherent
  · exact hsession

/-- No call breaks coherence, whatever graph it is handed. -/
theorem after (graph : Graph R) (call : Call R) : (session.after graph call).1.Coherent := by
  cases call with
  | resize viewport => exact hsession.congr rfl rfl rfl
  | startPan pointer => exact hsession.congr rfl rfl rfl
  | movePan pointer => exact hsession.movePan graph pointer
  | endPan => exact hsession.congr rfl rfl rfl
  | toggleLayer row node => exact hsession.toggleLayer graph row node
  | startDrag payload pointer => exact hsession.startDrag graph payload pointer
  | moveDrag payload pointer => exact hsession.moveDrag graph payload pointer
  | endDrag newId payload pointer => exact hsession.endDrag graph newId payload pointer
  | cancelDrag payload => exact hsession.cancelDrag payload

theorem afterCalls (calls : List (Graph R × Call R)) : (session.afterCalls calls).Coherent := by
  induction calls generalizing session with
  | nil => exact hsession
  | cons call rest ih => exact ih (hsession.after call.1 call.2)

end Coherent

/-- A session starts with settings that have no fault, and nothing has happened in it. -/
theorem start_eq_ok {config : CanvasConfig R} {viewport : Size R} {session : Session R}
    (hstart : start config viewport = .ok session) :
    config.fault? = none ∧ session =
      ⟨config, viewport, ⟨Scalar.ofNat 0, Scalar.ofNat 0⟩, none, [], 0, none, none, none⟩ := by
  rw [start, CanvasConfig.validate] at hstart
  cases hfault : config.fault? with
  | some fault => simp [hfault, Except.map] at hstart
  | none =>
      simp only [hfault, Except.map, Except.ok.injEq] at hstart
      exact ⟨rfl, hstart.symm⟩

theorem idle_start {config : CanvasConfig R} {viewport : Size R} {session : Session R}
    (hstart : start config viewport = .ok session) : session.Idle := by
  obtain ⟨-, rfl⟩ := start_eq_ok hstart
  exact ⟨rfl, rfl, rfl⟩

/-- Whatever a session is called for, and whatever graphs it is handed: what it shows fits
what is dragged; a payload that is not dragged changes nothing, and one that is dragged
leaves the session idle when it ends or is cancelled; and a drop changes a graph only by an
action, which the graph never refuses and which adds no other node than one for a numeric
fact. -/
theorem coherent_afterCalls {config : CanvasConfig R} {viewport : Size R}
    {session : Session R} (hstart : start config viewport = .ok session)
    (calls : List (Graph R × Call R)) :
    let reached := session.afterCalls calls
    reached.Coherent ∧
      ∀ payload,
        (reached.owns payload = false → reached.Ignores payload) ∧
        (reached.owns payload = true → (reached.cancelDrag payload).1.Idle ∧
          ∀ graph newId pointer, (reached.endDrag graph newId payload pointer).1.Idle) ∧
        ∀ graph newId pointer,
          let ended := reached.endDrag graph newId payload pointer
          SoundDrop newId graph ended.2.1 ended.2.2 := by
  intro reached
  refine ⟨(idle_start hstart).coherent.afterCalls calls, fun payload => ⟨?_, ?_, ?_⟩⟩
  · exact ignores_of_not_owned
  · intro howns
    exact ⟨idle_cancelDrag howns, idle_endDrag howns⟩
  · intro graph newId pointer
    exact soundDrop_endDrag reached graph newId payload pointer

def ageFact : PaletteFact := ⟨"age", "f-age", "Age", "number", factScope⟩

/-- A graph whose only layer lists a missing node twice. -/
def disorderedGraph : Graph Float := ⟨.empty, [⟨"root", 80, ["gone", "gone"], 10⟩]⟩

/-- A fact is dragged over the empty graph and then over a disordered one. -/
def factDragged : Session Float :=
  freshSession.afterCalls [(.empty, .startDrag (.fact ageFact) ⟨44, 80⟩),
    (disorderedGraph, .moveDrag (.node "gone") ⟨0, 0⟩),
    (disorderedGraph, .moveDrag (.fact ageFact) ⟨200, 90⟩)]

/-- The fact is shown at the end of the layer, a node that is not dragged cannot move, and
the drop is sound in the disordered graph as well. -/
theorem coherent_afterCalls_disordered :
    start .standard ⟨800, 600⟩ = .ok freshSession ∧
      factDragged.preview = some ⟨"root", 80, 2⟩ ∧ factDragged.Coherent ∧
      factDragged.Ignores (.node "gone") ∧
      (factDragged.endDrag disorderedGraph "new" (.fact ageFact) ⟨200, 90⟩).1.Idle ∧
      (factDragged.endDrag disorderedGraph "new" (.fact ageFact) ⟨200, 90⟩).2.2 =
        .dispatched "ADD_NODE_AT" ∧
      SoundDrop "new" disorderedGraph
        (factDragged.endDrag disorderedGraph "new" (.fact ageFact) ⟨200, 90⟩).2.1
        (.dispatched "ADD_NODE_AT") := by
  have hstart : start .standard ⟨800, 600⟩ = .ok freshSession := by decide +kernel
  have heffect : (factDragged.endDrag disorderedGraph "new" (.fact ageFact) ⟨200, 90⟩).2.2 =
      .dispatched "ADD_NODE_AT" := by decide +kernel
  obtain ⟨hcoherent, hpayload⟩ := coherent_afterCalls hstart
    [(.empty, .startDrag (.fact ageFact) ⟨44, 80⟩),
      (disorderedGraph, .moveDrag (.node "gone") ⟨0, 0⟩),
      (disorderedGraph, .moveDrag (.fact ageFact) ⟨200, 90⟩)]
  have hsound := (hpayload (.fact ageFact)).2.2 disorderedGraph "new" ⟨200, 90⟩
  refine ⟨hstart, by decide +kernel, hcoherent, ?_, ?_, heffect, heffect ▸ hsound⟩
  · exact (hpayload (.node "gone")).1 (by decide +kernel)
  · exact ((hpayload (.fact ageFact)).2.1 (by decide +kernel)).2 disorderedGraph "new" ⟨200, 90⟩

end Session

end DecisionCanvas
