import DecisionCanvas.Proofs.Canvas.OpenRows

/-!
# What a drag shows and what its drop does

A move of a drag and its end find the place for what is dragged each on its own.  In every
run the two agree: a fact becomes a node just where it was shown, a node goes to the index
that was shown, and nothing happens where nothing was shown.
-/

namespace DecisionCanvas

variable {R : Type}

/-- Whether a node has the name of a fact and all that binds it to the fact. -/
structure Node.StandsFor (node : Node R) (fact : PaletteFact) : Prop where
  type_eq : node.type = .fact
  label_eq : node.label = fact.name
  variableId_eq : node.variableId = some fact.id
  factType_eq : node.factType = some fact.type
  scope_eq : node.scope = some fact.scope

/-- Of distinct nodes each is found where it is listed. -/
theorem Layer.position?_eq_some_iff {layer : Layer R} (hdistinct : layer.nodeIds.Nodup)
    {id : String} {index : Nat} :
    layer.position? id = some index ↔ layer.nodeIds[index]? = some id := by
  rw [position?, List.findIdx?_eq_some_iff_getElem]
  constructor
  · rintro ⟨hlt, hid, -⟩
    rw [List.getElem?_eq_getElem hlt, beq_iff_eq.mp hid]
  · intro hindex
    obtain ⟨hlt, hid⟩ := List.getElem?_eq_some_iff.mp hindex
    refine ⟨hlt, beq_iff_eq.mpr hid, fun earlier hearlier => ?_⟩
    rw [← hid, beq_iff_eq, hdistinct.getElem_inj_iff]
    exact Nat.ne_of_lt hearlier

namespace Graph

theorem WellFormed.nodup_of_layer? [Scalar R] {graph : Graph R} (hgraph : graph.WellFormed)
    {id : String} {layer : Layer R} (hlayer : graph.layer? id = some layer) :
    layer.nodeIds.Nodup :=
  hgraph.nodup_nodeIds (List.mem_of_find?_eq_some hlayer)

theorem layer?_reorderLayer [Scalar R] {graph next : Graph R} {id : String}
    {nodeIds : List String} (hreorder : graph.reorderLayer id nodeIds = .ok next)
    {other : String} (hother : other ≠ id) : next.layer? other = graph.layer? other := by
  obtain ⟨index, layer, rfl, hindex, hlayer, -, rfl⟩ := reorderLayer_eq_ok hreorder
  rw [layer?_settle, layer?_setLine hlayer hindex, if_neg hother]

end Graph

variable [Scalar R]

namespace Session

/-! ## Rows -/

/-- The rows stay where no layer changes its height. -/
theorem visibleRows_of_heights (session : Session R) {graph next : Graph R}
    (hheights : ∀ id, (next.layer? id).map Layer.y = (graph.layer? id).map Layer.y) :
    session.visibleRows next = session.visibleRows graph := by
  rw [visibleRows_eq, visibleRows_eq]
  apply List.map_congr_left
  intro row _
  rw [shownRow, hheights, shownRow]

/-- A layer that is created for a row takes the height that the row has already. -/
theorem visibleRows_of_adds {session : Session R} {graph next : Graph R}
    (hdistinct : (session.config.rootLayer :: session.openLayers).Nodup) {newId : String}
    {placement : Placement R} {y : R} (hadds : graph.Adds newId placement y next)
    (hshown : (placement.layer, y) ∈ session.visibleRows graph) :
    session.visibleRows next = session.visibleRows graph := by
  rw [visibleRows_eq] at hshown
  obtain ⟨⟨id, place⟩, hplace, heq⟩ := List.mem_map.mp hshown
  rw [shownRow, Prod.mk.injEq] at heq
  obtain ⟨rfl, hy⟩ := heq
  rw [visibleRows_eq, visibleRows_eq]
  apply List.map_congr_left
  rintro ⟨other, row⟩ hrow
  rw [shownRow, hadds.layer?_eq, shownRow]
  split
  · rename_i hother
    simp only at hother
    subst hother
    cases hlayer : graph.layer? placement.layer with
    | some layer => simp [Graph.lineFor, hlayer, Layer.withNode]
    | none =>
        -- The row is the one that was shown, since no other shows the layer.
        rw [List.mem_zipIdx_iff_getElem?] at hplace hrow
        obtain ⟨hlt, -⟩ := List.getElem?_eq_some_iff.mp hrow
        have hsame : row = place :=
          (List.getElem?_inj hlt hdistinct).mp (hrow.trans hplace.symm)
        rw [hlayer] at hy
        subst hsame
        simp [Graph.lineFor, hlayer, Layer.withNode, Layer.empty, ← hy]
  · rfl

/-! ## Facts -/

/-- What a drop of a fact comes to at a place that was shown: the fact is at the index, as a
node that stands for it, and all else is listed as before in the same rows. -/
structure Lands (session : Session R) (graph : Graph R) (newId : String) (fact : PaletteFact)
    (preview : Preview R) (next : Graph R) : Prop where
  index_le : preview.index ≤ (graph.lineFor preview.layer preview.layerY).length
  line : ∃ layer, next.layer? preview.layer = some layer ∧
    layer.position? newId = some preview.index ∧
    layer.nodeIds.erase newId = (graph.lineFor preview.layer preview.layerY).nodeIds
  other_layers : ∀ id, id ≠ preview.layer → next.layer? id = graph.layer? id
  node : ∃ node, next.node? newId = some node ∧ node.StandsFor fact ∧
    node.layer = preview.layer
  rows : session.visibleRows next = session.visibleRows graph

/-- A fact snaps to a row that is shown, at an index that one more node can take. -/
theorem of_snap {session : Session R} {graph : Graph R} {world : Point R}
    {preview : Preview R} (hsnap : session.snap graph world = some preview) :
    (preview.layer, preview.layerY) ∈ session.visibleRows graph ∧
      preview.index ≤ (graph.lineFor preview.layer preview.layerY).length := by
  rw [snap] at hsnap
  simp only at hsnap
  split at hsnap
  · exact absurd hsnap (by simp)
  · rename_i layer y hnearest
    split at hsnap
    · exact absurd hsnap (by simp)
    · rw [← Option.some.inj hsnap]
      refine ⟨Scalar.mem_of_nearestBy hnearest, ?_⟩
      apply Nat.le_trans (Line.closestSlot_le _ _ _)
      rw [Nat.add_sub_cancel, Graph.lineFor]
      cases graph.layer? layer <;> exact Nat.le_refl _

/-- What is shown of a fact is a place that the fact snaps to. -/
theorem snap_of_moveGhost {session : Session R} {graph : Graph R} {fact : PaletteFact}
    {pointer : Point R} {preview : Preview R}
    (hpreview : (session.moveGhost graph fact pointer).1.preview = some preview) :
    ∃ world, session.snap graph world = some preview := by
  obtain ⟨reason, hhidden⟩ | ⟨-, hshown⟩ := moveGhost_cases session graph fact pointer
  · rw [hhidden] at hpreview
    exact absurd hpreview (by simp [hideGhost])
  · rw [hshown] at hpreview
    exact ⟨_, hpreview⟩

section Facts

variable {config : CanvasConfig R} {home : String → String} {session : Session R}
variable {graph : Graph R} {given : List String}
variable (hrows : FollowsRows config home session graph given) {newId : String}
variable (hfresh : newId ∉ given)
include hrows hfresh

/-- A new id is not listed yet. -/
theorem notMem_lineFor (id : String) (y : R) : newId ∉ (graph.lineFor id y).nodeIds := by
  intro hlisted
  rw [Graph.lineFor] at hlisted
  cases hlayer : graph.layer? id with
  | none => simp [hlayer, Layer.empty] at hlisted
  | some layer =>
      rw [hlayer, Option.getD_some] at hlisted
      obtain ⟨node, hnode, -⟩ := hrows.wellFormed.exists_of_lists
        ⟨layer, List.mem_of_find?_eq_some hlayer, rfl, hlisted⟩
      rw [hrows.node?_eq_none hfresh] at hnode
      exact absurd hnode (by simp)

theorem lands_of_adds {next : Graph R} {fact : PaletteFact} {preview : Preview R}
    (hshown : (preview.layer, preview.layerY) ∈ session.visibleRows graph)
    (hindex : preview.index ≤ (graph.lineFor preview.layer preview.layerY).length)
    (hadds : graph.Adds newId (factPlacement fact preview) preview.layerY next)
    (hnext : next.WellFormed) : Lands session graph newId fact preview next := by
  let line := graph.lineFor preview.layer preview.layerY
  have hunlisted : newId ∉ line.nodeIds :=
    notMem_lineFor hrows hfresh preview.layer preview.layerY
  have hline : next.layer? preview.layer = some (line.withNode preview.index newId) :=
    (hadds.layer?_eq preview.layer).trans (if_pos rfl)
  have hnodeIds : (line.withNode preview.index newId).nodeIds =
      line.nodeIds.insertIdx preview.index newId := by
    rw [Layer.withNode, Nat.min_eq_left hindex]
  have hplace : (line.withNode preview.index newId).nodeIds[preview.index]? = some newId := by
    rw [hnodeIds, List.getElem?_insertIdx_self]
    exact if_pos hindex
  refine ⟨hindex, ⟨_, hline, ?_, ?_⟩, fun id hid => ?_, ?_, ?_⟩
  · exact (Layer.position?_eq_some_iff (hnext.nodup_of_layer? hline)).mpr hplace
  · rw [hnodeIds]
    exact Line.insertIdx_erase hunlisted hindex
  · exact (hadds.layer?_eq id).trans (if_neg hid)
  · have hlists : next.Lists preview.layer newId :=
      ⟨_, List.mem_of_find?_eq_some hline, Graph.id_of_layer? hline, List.mem_of_getElem? hplace⟩
    obtain ⟨node, hnode, hlayer⟩ := hnext.exists_of_lists hlists
    obtain ⟨hother, -⟩ | ⟨-, hmoved⟩ := hadds.node?_cases newId node hnode
    · exact absurd rfl hother
    · refine ⟨node, hnode, ?_, hlayer⟩
      rw [hmoved]
      exact ⟨rfl, rfl, rfl, rfl, rfl⟩
  · rw [← hrows.config_eq] at hrows
    exact visibleRows_of_adds hrows.rows_distinct hadds hshown

/-- The end of a fact's drag does what the move to the same place shows. -/
theorem endDrag_fact {fact : PaletteFact} (howns : session.owns (.fact fact) = true)
    (pointer : Point R) :
    let moved := session.moveDrag graph (.fact fact) pointer
    let ended := session.endDrag graph newId (.fact fact) pointer
    (∀ preview, moved.1.preview = some preview →
      ended.2.2 = .dispatched "ADD_NODE_AT" ∧
        Lands session graph newId fact preview ended.2.1) ∧
      (moved.1.preview = none ∨ moved.2.isNoop = true →
        ended.2.1 = graph ∧ ended.2.2.isNoop = true) := by
  have hrefusal := refusal?_eq_none_iff.mpr howns
  simp only [moveDrag, endDrag, hrefusal]
  constructor
  · intro preview hpreview
    obtain ⟨next, hdispatch, hadds⟩ := graph.dispatch_addNode newId
      (factPlacement fact preview) rfl rfl
    have hnext : next.WellFormed :=
      hrows.wellFormed.addNode (hrows.node?_eq_none hfresh) hdispatch
    obtain ⟨world, hsnap⟩ := snap_of_moveGhost hpreview
    obtain ⟨hshown, hindex⟩ := of_snap hsnap
    rw [dropGhost_of_preview hpreview, commit_eq hdispatch]
    exact ⟨rfl, lands_of_adds hrows hfresh hshown hindex hadds hnext⟩
  · intro hhidden
    have hpreview : (session.moveGhost graph fact pointer).1.preview = none := by
      cases hhidden with
      | inl hnone => exact hnone
      | inr hnoop =>
          obtain ⟨reason, hhidden⟩ | ⟨-, hshown⟩ := moveGhost_cases session graph fact pointer
          · rw [hhidden]
            rfl
          · rw [hshown] at hnoop
            exact absurd hnoop (by simp [Effect.isNoop])
    obtain ⟨reason, hdrop⟩ := dropGhost_of_hidden hpreview newId
    rw [hdrop]
    exact ⟨rfl, rfl⟩

end Facts

/-! ## Nodes -/

/-- What the drag of a node comes to as long as its graph stays as it was at the start. -/
inductive DraggedOver (graph : Graph R) : Session R → Prop
  | start (session : Session R) (node : String) (pointer : Point R) :
      DraggedOver graph (session.startDrag graph (.node node) pointer).1
  | call {session : Session R} (call : Call R) : DraggedOver graph session →
      (session.after graph call).2 = graph → DraggedOver graph (session.after graph call).1

/-- A call goes on with a drag, ends it or starts another one. -/
theorem activeDrag_after_cases (session : Session R) (graph : Graph R) (call : Call R) :
    (session.after graph call).1.activeDrag = session.activeDrag ∨
      (session.after graph call).1.activeDrag = none ∨
      (∃ fact, (session.after graph call).1.activeDrag = some (.ghost fact)) ∨
      ∃ node pointer, call = .startDrag (.node node) pointer := by
  cases call with
  | resize viewport => exact Or.inl rfl
  | startPan pointer => exact Or.inl rfl
  | endPan => exact Or.inl rfl
  | movePan pointer =>
      simp only [after, movePan]
      split <;> exact Or.inl rfl
  | toggleLayer row id =>
      obtain ⟨reason, hkept⟩ | ⟨_, _, -, -, -, ⟨-, hclosed⟩ | ⟨-, hopened⟩⟩ :=
        toggleLayer_cases session graph row id
      · exact Or.inl (by rw [after, hkept])
      · exact Or.inl (by rw [after, hclosed])
      · exact Or.inl (by rw [after, hopened])
  | startDrag payload pointer =>
      cases payload with
      | folder id => exact Or.inl rfl
      | fact fact =>
          exact Or.inr (Or.inr (Or.inl ⟨fact, activeDrag_moveGhost _ graph fact pointer⟩))
      | node id => exact Or.inr (Or.inr (Or.inr ⟨id, pointer, rfl⟩))
  | moveDrag payload pointer => exact Or.inl (activeDrag_moveDrag session graph payload pointer)
  | endDrag newId payload pointer =>
      cases howns : session.owns payload with
      | false =>
          obtain ⟨reason, hend⟩ := (ignores_of_not_owned howns).drop graph newId pointer
          exact Or.inl (by simp only [after, hend])
      | true => exact Or.inr (Or.inl (idle_endDrag howns graph newId pointer).not_dragging)
  | cancelDrag payload =>
      simp only [after, cancelDrag]
      split
      · exact Or.inr (Or.inl rfl)
      · exact Or.inl rfl

/-- Over a graph that stays, a drag holds its node where it is listed. -/
theorem DraggedOver.held {session : Session R} {graph : Graph R} (hgraph : graph.WellFormed)
    (hdragged : DraggedOver graph session) {drag : NodeDrag R}
    (hdrag : session.activeDrag = some (.node drag)) :
    ∃ layer, graph.layer? drag.layer = some layer ∧
      layer.nodeIds[drag.index]? = some drag.node := by
  have hstarted : ∀ (session : Session R) (node : String) (pointer : Point R),
      (session.startDrag graph (.node node) pointer).1.activeDrag = some (.node drag) →
      ∃ layer, graph.layer? drag.layer = some layer ∧
        layer.nodeIds[drag.index]? = some drag.node := by
    intro session node pointer hdrag
    obtain ⟨layer, index, originX, shown, hstart, hlayer, hplace⟩ | ⟨-, hstart⟩ :=
      startDrag_node_cases hgraph session node pointer
    · rw [hstart, Option.some.injEq, ActiveDrag.node.injEq] at hdrag
      rw [← hdrag]
      exact ⟨shown, hlayer, hplace⟩
    · rw [hstart] at hdrag
      exact absurd hdrag (by simp [resetDrag])
  induction hdragged with
  | start session node pointer => exact hstarted session node pointer hdrag
  | @call session call _ _ ih =>
      obtain hsame | hnone | ⟨fact, hghost⟩ | ⟨node, pointer, rfl⟩ :=
        activeDrag_after_cases session graph call
      · exact ih (hsame ▸ hdrag)
      · exact absurd (hnone.symm.trans hdrag) (by simp)
      · exact absurd (hghost.symm.trans hdrag) (by simp)
      · exact hstarted session node pointer hdrag

/-- What the end of a node's drag comes to where an index of its layer was shown: nothing
at the index it has already, else the node at the shown index among all others in their old
order. -/
structure Puts (session : Session R) (graph : Graph R) (node : String) (before : Layer R)
    (index target : Nat) (next : Graph R) (effect : Effect R) : Prop where
  target_lt : target < before.length
  effect_eq : effect =
    if target = index then .noop .indexUnchanged else .dispatched "REORDER_LAYER"
  unchanged_iff : next = graph ↔ target = index
  line : ∃ layer, next.layer? before.id = some layer ∧ layer.position? node = some target ∧
    layer.nodeIds = (before.nodeIds.erase node).insertIdx target node
  other_layers : ∀ id, id ≠ before.id → next.layer? id = graph.layer? id
  rows : session.visibleRows next = session.visibleRows graph

/-- A drop of a node changes no other layer. -/
theorem layer?_dropNode {session : Session R} {drag : NodeDrag R}
    (hdrag : session.activeDrag = some (.node drag)) (graph : Graph R) (newId : String)
    (pointer : Point R) {id : String} (hid : id ≠ drag.layer) :
    (session.dropNode graph newId pointer).1.layer? id = graph.layer? id := by
  obtain ⟨reason, hdrop⟩ | ⟨layer, -, hdrop⟩ := dropNode_cases hdrag graph newId pointer
  · rw [hdrop]
  · rw [hdrop, commit_fst, Graph.after]
    split
    · rename_i next hdispatch
      exact Graph.layer?_reorderLayer hdispatch hid
    · rfl

/-- The end of a node's drag puts the node where the move to the same place shows it. -/
theorem endDrag_node {session : Session R} {graph : Graph R} (hgraph : graph.WellFormed)
    (hdragged : DraggedOver graph session) {node : String}
    (howns : session.owns (.node node) = true) (newId : String) (pointer : Point R) :
    let ended := session.endDrag graph newId (.node node) pointer
    ∃ before index target, graph.layer? before.id = some before ∧
      before.position? node = some index ∧
      (session.moveDrag graph (.node node) pointer).1.preview =
        some ⟨before.id, before.y, target⟩ ∧
      Puts session graph node before index target ended.2.1 ended.2.2 := by
  obtain ⟨drag, hdrag, rfl⟩ := exists_of_owns_node howns
  obtain ⟨before, hbefore, hplace⟩ := hdragged.held hgraph hdrag
  obtain ⟨final, hend, hfinal, hkept⟩ := endDrag_node_eq hdrag hbefore newId pointer
  have hpreview := preview_moveDrag hdrag hbefore pointer
  have hdistinct := hgraph.nodup_of_layer? hbefore
  let target := drag.target before pointer
  have htarget : target < before.length := by
    have hle : target ≤ before.length - 1 := Line.closestSlot_le _ _ _
    obtain ⟨hlt, -⟩ := List.getElem?_eq_some_iff.mp hplace
    exact Nat.lt_of_le_pred (Nat.zero_lt_of_lt hlt) hle
  have hmoved : (Line.relocate before.nodeIds drag.index target)[target]? = some drag.node :=
    Line.getElem?_relocate hplace htarget
  have hother : ∀ id, id ≠ drag.layer → final.layer? id = graph.layer? id := by
    intro id hid
    have hdrop : (session.dropNode graph newId pointer).1 = final := by
      simp only [endDrag, refusal?_node hdrag] at hend
      exact congrArg (·.2.1) hend
    rw [← hdrop]
    exact layer?_dropNode hdrag graph newId pointer hid
  have hid := Graph.id_of_layer? hbefore
  rw [← hid] at hbefore hpreview hfinal hother
  simp only [hend]
  refine ⟨before, drag.index, target, hbefore, (Layer.position?_eq_some_iff hdistinct).mpr hplace,
    hpreview, htarget, rfl, ⟨fun hsame => ?_, hkept⟩, ⟨_, hfinal, ?_, ?_⟩, hother, ?_⟩
  · rw [hsame, hbefore, Option.some.injEq] at hfinal
    have hstays : before.nodeIds[target]? = some drag.node := by
      rw [hfinal]
      exact hmoved
    exact (List.getElem?_inj htarget hdistinct).mp (hstays.trans hplace.symm)
  · refine (Layer.position?_eq_some_iff ?_).mpr hmoved
    exact (Line.relocate_perm _ _ _).nodup_iff.mpr hdistinct
  · exact Line.relocate_eq_insertIdx hdistinct hplace htarget
  · apply visibleRows_of_heights
    intro id
    by_cases hid : id = before.id
    · rw [hid, hfinal, hbefore]
      rfl
    · rw [hother id hid]

/-! ## Any drag -/

/-- The session after moves over a graph. -/
def afterMoves (session : Session R) (graph : Graph R) (moves : List (DragPayload × Point R)) :
    Session R :=
  moves.foldl (fun session move => (session.moveDrag graph move.1 move.2).1) session

/-- A move changes only what is shown of the drag. -/
theorem moveDrag_eq (session : Session R) (graph : Graph R) (payload : DragPayload)
    (pointer : Point R) :
    ∃ ghost preview, (session.moveDrag graph payload pointer).1 =
      { session with ghost := ghost, preview := preview } := by
  unfold moveDrag
  split
  · exact ⟨session.ghost, session.preview, rfl⟩
  · rename_i fact _
    obtain ⟨reason, hhidden⟩ | ⟨-, hshown⟩ := moveGhost_cases session graph fact pointer
    · exact ⟨none, none, congrArg Prod.fst hhidden⟩
    · exact ⟨_, _, congrArg Prod.fst hshown⟩
  · rw [moveNode]
    split
    · split
      · exact ⟨session.ghost, none, rfl⟩
      · exact ⟨session.ghost, _, rfl⟩
    · exact ⟨session.ghost, session.preview, rfl⟩

/-- What is shown of a drag does not matter for its end. -/
theorem endDrag_congr {session : Session R} {payload : DragPayload}
    (howns : session.owns payload = true) (ghost : Option (Ghost R))
    (preview : Option (Preview R)) (graph : Graph R) (newId : String) (pointer : Point R) :
    { session with ghost := ghost, preview := preview }.endDrag graph newId payload pointer =
      session.endDrag graph newId payload pointer := by
  have hrefusal := refusal?_eq_none_iff.mpr howns
  let shown : Session R := { session with ghost := ghost, preview := preview }
  have hshown : shown.refusal? payload = none := hrefusal
  change shown.endDrag graph newId payload pointer = _
  cases payload with
  | folder id => simp [refusal?] at hrefusal
  | fact fact =>
      have hmove : shown.moveGhost graph fact pointer = session.moveGhost graph fact pointer := rfl
      simp only [endDrag, hrefusal, hshown, dropGhost, hmove]
      rfl
  | node id =>
      obtain ⟨drag, hdrag, -⟩ := exists_of_owns_node howns
      have hsame : shown.dropNode graph newId pointer = session.dropNode graph newId pointer := by
        cases hlayer : graph.layer? drag.layer with
        | none => simp [dropNode, moveNode, shown, hdrag, hlayer, Effect.isNoop]
        | some layer =>
            have hheld : shown.activeDrag = some (.node drag) := hdrag
            rw [dropNode_eq hdrag hlayer, dropNode_eq hheld hlayer]
      simp only [endDrag, hrefusal, hshown, hsame]
      rfl

/-- What a drop does depends on nothing that moves have shown before. -/
theorem endDrag_afterMoves {session : Session R} {payload : DragPayload}
    (howns : session.owns payload = true) (graph : Graph R)
    (moves : List (DragPayload × Point R)) (newId : String) (pointer : Point R) :
    (session.afterMoves graph moves).endDrag graph newId payload pointer =
      session.endDrag graph newId payload pointer := by
  induction moves generalizing session with
  | nil => rfl
  | cons move rest ih =>
      obtain ⟨ghost, preview, hmoved⟩ := session.moveDrag_eq graph move.1 move.2
      have hstill : (session.moveDrag graph move.1 move.2).1.owns payload = true := by
        rw [hmoved]
        exact howns
      rw [afterMoves, List.foldl_cons, ← afterMoves, ih hstill, hmoved]
      exact endDrag_congr howns ghost preview graph newId pointer

/-- In every run and at every pointer the end of a drag does what a move there shows.  A
fact lands where it is shown, and nowhere else.  A node that is dragged over the same graph
all the time goes to the index that is shown, and the graph stays exactly if it is there
already.  Nothing of this depends on the moves before. -/
theorem endDrag_does_what_move_shows {config : CanvasConfig R} {viewport : Size R}
    {session : Session R} {graph : Graph R} {given : List String}
    (hrun : Runs config viewport session graph given) {payload : DragPayload}
    (howns : session.owns payload = true) {newId : String} (hfresh : newId ∉ given)
    (pointer : Point R) :
    let moved := session.moveDrag graph payload pointer
    let ended := session.endDrag graph newId payload pointer
    (∀ fact, payload = .fact fact →
      (∀ preview, moved.1.preview = some preview →
        ended.2.2 = .dispatched "ADD_NODE_AT" ∧
          Lands session graph newId fact preview ended.2.1) ∧
        (moved.1.preview = none ∨ moved.2.isNoop = true →
          ended.2.1 = graph ∧ ended.2.2.isNoop = true)) ∧
      (∀ node, payload = .node node → DraggedOver graph session →
        ∃ before index target, graph.layer? before.id = some before ∧
          before.position? node = some index ∧
          moved.1.preview = some ⟨before.id, before.y, target⟩ ∧
          Puts session graph node before index target ended.2.1 ended.2.2) ∧
      ∀ moves, (session.afterMoves graph moves).endDrag graph newId payload pointer = ended := by
  intro moved ended
  obtain ⟨home, hrows⟩ := hrun.followsRows
  refine ⟨?_, ?_, ?_⟩
  · rintro fact rfl
    exact endDrag_fact hrows hfresh howns pointer
  · rintro node rfl hdragged
    exact endDrag_node hrows.wellFormed hdragged howns newId pointer
  · intro moves
    exact endDrag_afterMoves howns graph moves newId pointer

/-! ## A bucket that is open -/

def bucketPlacement : Placement Float :=
  ⟨"rates", none, none, none, .contributorBucket, none, "root", 0, some 80⟩

/-- A bucket and a constant in the root layer. -/
def bucketGraph : Graph Float :=
  (Graph.empty.after "b" (.addNode bucketPlacement)).after "c" (.addNode (constantAt "base" 1))

def bucketOpened : Session Float :=
  (freshSession.after bucketGraph (.toggleLayer 0 "b")).1

/-- A fact is held over the row of the bucket, which has no layer yet. -/
def factHeld : Session Float :=
  (bucketOpened.after bucketGraph (.startDrag (.fact ageFact) ⟨200, 220⟩)).1

def bucketHeld : Session Float :=
  (bucketOpened.after bucketGraph (.startDrag (.node "b") ⟨60, 80⟩)).1

theorem runs_bucketOpened :
    Runs .standard ⟨800, 600⟩ bucketOpened bucketGraph ["c", "b"] := by
  have hstart : Session.start .standard ⟨800, 600⟩ = .ok freshSession := by decide +kernel
  have hbucket : (commit .empty "b" (.addNode bucketPlacement)).2.added "b" = ["b"] := by
    decide +kernel
  have hconstant : (commit (Graph.empty.after "b" (.addNode bucketPlacement)) "c"
      (.addNode (constantAt "base" 1))).2.added "c" = ["c"] := by decide +kernel
  have hfirst := Runs.act "b" (.addNode bucketPlacement) (.opened hstart)
    (by rw [hbucket]; decide)
  rw [hbucket] at hfirst
  have hsecond := Runs.act "c" (.addNode (constantAt "base" 1)) hfirst
    (by rw [hconstant]; decide)
  rw [hconstant] at hsecond
  exact Runs.call (.toggleLayer 0 "b") hsecond (by simp [Call.added])

/-- A drop of the fact creates the layer where the row is; the bucket goes to the end of its
layer. -/
theorem drops_over_open_bucket :
    Runs .standard ⟨800, 600⟩ factHeld bucketGraph ["c", "b"] ∧
      (factHeld.moveDrag bucketGraph (.fact ageFact) ⟨100, 225⟩).1.preview =
        some ⟨"b", 220, 0⟩ ∧
      bucketGraph.layer? "b" = none ∧
      Lands factHeld bucketGraph "n" ageFact ⟨"b", 220, 0⟩
        (factHeld.endDrag bucketGraph "n" (.fact ageFact) ⟨100, 225⟩).2.1 ∧
      DraggedOver bucketGraph bucketHeld ∧
      (bucketHeld.moveDrag bucketGraph (.node "b") ⟨180, 80⟩).1.preview =
        some ⟨"root", 80, 1⟩ ∧
      (bucketHeld.endDrag bucketGraph "n" (.node "b") ⟨180, 80⟩).2.1 ≠ bucketGraph := by
  have hfact : Runs .standard ⟨800, 600⟩ factHeld bucketGraph ["c", "b"] :=
    .call (.startDrag (.fact ageFact) ⟨200, 220⟩) runs_bucketOpened (by simp [Call.added])
  have hnode : Runs .standard ⟨800, 600⟩ bucketHeld bucketGraph ["c", "b"] :=
    .call (.startDrag (.node "b") ⟨60, 80⟩) runs_bucketOpened (by simp [Call.added])
  have hdragged : DraggedOver bucketGraph bucketHeld := .start bucketOpened "b" ⟨60, 80⟩
  have hlands : (factHeld.moveDrag bucketGraph (.fact ageFact) ⟨100, 225⟩).1.preview =
      some ⟨"b", 220, 0⟩ := by decide +kernel
  have hputs : (bucketHeld.moveDrag bucketGraph (.node "b") ⟨180, 80⟩).1.preview =
      some ⟨"root", 80, 1⟩ := by decide +kernel
  have hroot : bucketGraph.layer? "root" = some ⟨"root", 80, ["b", "c"], 240⟩ := by
    decide +kernel
  have hfresh : "n" ∉ ["c", "b"] := by decide
  obtain ⟨hshown, -⟩ := (endDrag_does_what_move_shows hfact (by decide +kernel) hfresh
    ⟨100, 225⟩).1 ageFact rfl
  obtain ⟨before, index, target, hbefore, hindex, hpreview, hput⟩ :=
    (endDrag_does_what_move_shows hnode (by decide +kernel) hfresh ⟨180, 80⟩).2.1 "b" rfl
      hdragged
  refine ⟨hfact, hlands, by decide +kernel, (hshown _ hlands).2, hdragged, hputs, ?_⟩
  rw [hputs, Option.some.injEq, Preview.mk.injEq] at hpreview
  obtain ⟨hid, -, htarget⟩ := hpreview
  rw [← hid, hroot, Option.some.injEq] at hbefore
  rw [← hbefore] at hindex
  have hplace : index = 0 := (Option.some.inj hindex).symm
  intro hsame
  rw [hput.unchanged_iff, ← htarget, hplace] at hsame
  exact absurd hsame (by decide)

end Session

end DecisionCanvas
