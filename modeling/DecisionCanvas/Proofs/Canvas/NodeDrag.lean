import DecisionCanvas.Canvas.Session
import DecisionCanvas.Proofs.Canvas.Reorder

/-!
# Dragging a node

While a node is dragged, others may change the graph.  A drop takes the layer as it is
by then, but moves whatever stands where the node stood when the drag began.  So it
moves the dragged node as long as that is still the node, and otherwise another one.
-/

namespace DecisionCanvas

variable {R : Type} [Scalar R]

/-- Where a dragged node would land in its layer. -/
def NodeDrag.target (drag : NodeDrag R) (layer : Layer R) (pointer : Point R) : Nat :=
  Line.closestSlot (drag.originX + (pointer.x - drag.pointerOrigin.x)) layer.width layer.length

namespace Session

/-- What sessions and graphs come to while a drag lasts: the pointer moves, and others
act on the graph. -/
inductive Drags (session : Session R) (graph : Graph R) : Session R → Graph R → Prop
  | refl : Drags session graph session graph
  | move {moved : Session R} {changed : Graph R} (payload : DragPayload) (pointer : Point R) :
      Drags session graph moved changed →
      Drags session graph (moved.moveDrag changed payload pointer).1 changed
  | act {moved : Session R} {changed : Graph R} (newId : String) (action : Action R) :
      Drags session graph moved changed →
      (∀ placement, action = .addNode placement → changed.node? newId = none) →
      Drags session graph moved (changed.after newId action)

/-! ## While the drag lasts -/

theorem activeDrag_moveGhost (session : Session R) (graph : Graph R) (fact : PaletteFact)
    (pointer : Point R) :
    (session.moveGhost graph fact pointer).1.activeDrag = session.activeDrag := by
  rw [moveGhost]
  split
  · rfl
  · split <;> rfl

theorem activeDrag_moveNode (session : Session R) (graph : Graph R) (pointer : Point R) :
    (session.moveNode graph pointer).1.activeDrag = session.activeDrag := by
  rw [moveNode]
  split
  · split <;> rfl
  · rfl

/-- A move changes what is shown, but not what is dragged. -/
theorem activeDrag_moveDrag (session : Session R) (graph : Graph R) (payload : DragPayload)
    (pointer : Point R) :
    (session.moveDrag graph payload pointer).1.activeDrag = session.activeDrag := by
  unfold moveDrag
  split
  · rfl
  · exact activeDrag_moveGhost session graph _ pointer
  · exact activeDrag_moveNode session graph pointer

namespace Drags

variable {session moved : Session R} {graph changed : Graph R}

theorem activeDrag (hdrags : Drags session graph moved changed) :
    moved.activeDrag = session.activeDrag := by
  induction hdrags with
  | refl => rfl
  | move payload pointer _ ih => rw [activeDrag_moveDrag, ih]
  | act newId action _ _ ih => exact ih

theorem reaches {start : Graph R} (hdrags : Drags session graph moved changed)
    (hreaches : Graph.Reaches start graph) : Graph.Reaches start changed := by
  induction hdrags with
  | refl => exact hreaches
  | move payload pointer _ ih => exact ih
  | act newId action _ hfresh ih => exact .step newId action ih hfresh

/-- The layer of the dragged node stays, whatever else happens to it. -/
theorem exists_layer? (hdrags : Drags session graph moved changed) {id : String}
    {layer : Layer R} (hlayer : graph.layer? id = some layer) :
    ∃ shown, changed.layer? id = some shown := by
  rw [Graph.exists_layer?_iff]
  have hmem := Graph.exists_layer?_iff.mp ⟨layer, hlayer⟩
  induction hdrags with
  | refl => exact hmem
  | move payload pointer _ ih => exact ih
  | act newId action _ _ ih => exact Graph.layerIds_subset_after _ newId action ih

end Drags

/-! ## The start -/

/-- Every node can be dragged.  The drag holds it where its layer lists it. -/
theorem startDrag_node_cases {graph : Graph R} (hgraph : graph.WellFormed)
    (session : Session R) (node : String) (pointer : Point R) :
    (∃ layer index originX shown,
      session.startDrag graph (.node node) pointer =
        ({ session.resetDrag with
            activeDrag := some (.node ⟨node, layer, index, originX, pointer⟩) },
          .dragStarted node layer index) ∧
      graph.layer? layer = some shown ∧ shown.nodeIds[index]? = some node) ∨
    (graph.node? node = none ∧
      session.startDrag graph (.node node) pointer = (session.resetDrag, .noop .unknownNode)) := by
  cases hnode : graph.node? node with
  | none =>
      refine Or.inr ⟨rfl, ?_⟩
      simp only [startDrag, startNode, hnode]
  | some held =>
      obtain ⟨shown, index, hshown, hposition, hplace⟩ := hgraph.exists_position? hnode
      have hid := hgraph.filed_under_id node held hnode
      refine Or.inl ⟨held.layer, index, held.x, shown, ?_, hshown, hplace⟩
      simp only [startDrag, startNode, hnode, hshown, Option.bind_some, hposition, hid]

/-! ## The drop -/

theorem commit_fst (graph : Graph R) (newId : String) (action : Action R) :
    (commit graph newId action).1 = graph.after newId action := by
  rw [commit, Graph.after]
  cases graph.dispatch newId action <;> rfl

theorem commit_eq {graph next : Graph R} {newId : String} {action : Action R}
    (hdispatch : graph.dispatch newId action = .ok next) :
    commit graph newId action = (next, .dispatched action.name) := by
  rw [commit, hdispatch]

section Drop

variable {session : Session R} {graph : Graph R} {drag : NodeDrag R} {layer : Layer R}
variable (hdrag : session.activeDrag = some (.node drag))
variable (hlayer : graph.layer? drag.layer = some layer)
include hdrag

omit [Scalar R] in
theorem refusal?_node : session.refusal? (.node drag.node) = none := by
  simp [refusal?, owns, hdrag]

include hlayer

theorem preview_moveDrag (pointer : Point R) :
    (session.moveDrag graph (.node drag.node) pointer).1.preview =
      some ⟨drag.layer, layer.y, drag.target layer pointer⟩ := by
  simp only [moveDrag, refusal?_node hdrag, moveNode, hdrag, hlayer, Graph.id_of_layer? hlayer,
    NodeDrag.target]

/-- A drop gives up if the index is the one the drag began at, and else moves what stands
at that one now. -/
theorem dropNode_eq (newId : String) (pointer : Point R) :
    session.dropNode graph newId pointer =
      if drag.target layer pointer = drag.index then (graph, .noop .indexUnchanged)
      else commit graph newId (.reorderLayer drag.layer
        (Line.relocate layer.nodeIds drag.index (drag.target layer pointer))) := by
  have hid := Graph.id_of_layer? hlayer
  rw [NodeDrag.target]
  by_cases hsame : Line.closestSlot (drag.originX + (pointer.x - drag.pointerOrigin.x))
      layer.width layer.length = drag.index
  · simp [dropNode, moveNode, hdrag, hlayer, hid, Effect.isNoop, hsame]
  · simp [dropNode, moveNode, hdrag, hlayer, hid, Effect.isNoop, hsame]

/-- A drop is never rejected.  The layer is then in the order that moving from the
remembered index to the shown one leads to. -/
theorem endDrag_node_eq (newId : String) (pointer : Point R) :
    let target := drag.target layer pointer
    ∃ final,
      session.endDrag graph newId (.node drag.node) pointer =
        (session.resetDrag, final,
          if target = drag.index then .noop .indexUnchanged else .dispatched "REORDER_LAYER") ∧
      final.layer? drag.layer =
        some { layer with nodeIds := Line.relocate layer.nodeIds drag.index target } ∧
      (target = drag.index → final = graph) := by
  intro target
  have hend : session.endDrag graph newId (.node drag.node) pointer =
      (session.resetDrag, session.dropNode graph newId pointer) := by
    simp only [endDrag, refusal?_node hdrag]
  rw [hend, dropNode_eq hdrag hlayer]
  by_cases hsame : target = drag.index
  · refine ⟨graph, ?_, ?_, fun _ => rfl⟩
    · rw [if_pos hsame, if_pos hsame]
    · rw [hsame, Line.relocate_self]
      exact hlayer
  · obtain ⟨next, hdispatch, hnext⟩ := Graph.dispatch_reorder hlayer
      (Line.relocate_perm layer.nodeIds drag.index target) newId
    refine ⟨next, ?_, hnext, fun heq => absurd heq hsame⟩
    rw [if_neg hsame, if_neg hsame, commit_eq hdispatch]
    rfl

end Drop

/-- Whether a drop did to a layer what it showed.  If it acted, the dragged node is taken
to the shown place and all others keep their order.  It does not act for a node that is
no longer there, and at the place of the node it changes no order. -/
structure DropsNode (node : String) (graph : Graph R) (before after : Layer R) (target : Nat)
    (effect : Effect R) : Prop where
  taken : ∀ action, effect = .dispatched action →
    after.nodeIds = (before.nodeIds.erase node).insertIdx target node
  gone : graph.node? node = none → ∀ action, effect ≠ .dispatched action
  in_place : before.nodeIds[target]? = some node → after.nodeIds = before.nodeIds

section DropsNode

variable {node : String} {graph : Graph R} {before after : Layer R} {target index : Nat}

omit [Scalar R] in
theorem DropsNode.of_noop (reason : NoopReason) (hafter : after.nodeIds = before.nodeIds) :
    DropsNode node graph before after target (.noop reason) where
  taken _ heffect := by cases heffect
  gone _ _ heffect := by cases heffect
  in_place _ := hafter

variable (hgraph : graph.WellFormed) (hbefore : before ∈ graph.layers)
include hgraph hbefore

/-- A move from an index is a drop of the node if the node stands there, or nothing does
and the node is at the shown place already. -/
theorem dropsNode_dispatched_iff (htarget : target ≤ before.length - 1)
    (hafter : after.nodeIds = Line.relocate before.nodeIds index target) (action : String) :
    DropsNode node graph before after target (.dispatched action) ↔
      before.nodeIds[index]? = some node ∨
        before.nodeIds[index]? = none ∧ before.nodeIds[target]? = some node := by
  have hdistinct : before.nodeIds.Nodup := hgraph.nodup_nodeIds hbefore
  have htaken_iff := @Line.relocate_eq_insertIdx_iff _ _ index _ node _ hdistinct htarget
  rw [← hafter] at htaken_iff
  rw [← htaken_iff]
  constructor
  · intro hdrops
    exact hdrops.taken action rfl
  · intro htaken
    refine ⟨fun _ _ => htaken, fun hgone => ?_, fun hat => ?_⟩
    · have hlisted : node ∈ before.nodeIds := by
        rcases htaken_iff.mp htaken with hheld | ⟨-, hheld⟩ <;> exact List.mem_of_getElem? hheld
      have hmem : node ∈ graph.listed := List.mem_flatMap.mpr ⟨before, hbefore, hlisted⟩
      rw [hgraph.listed_iff, hgone] at hmem
      exact absurd hmem (by simp)
    · rw [htaken, Line.erase_insertIdx hdistinct hat]

/-- So it is for the drop of a node that was held at an index, which moves nothing for
that index itself. -/
theorem dropsNode_iff (htarget : target ≤ before.length - 1)
    (hafter : after.nodeIds = Line.relocate before.nodeIds index target) :
    DropsNode node graph before after target
        (if target = index then .noop .indexUnchanged else .dispatched "REORDER_LAYER") ↔
      target = index ∨ before.nodeIds[index]? = some node ∨
        before.nodeIds[index]? = none ∧ before.nodeIds[target]? = some node := by
  by_cases hsame : target = index
  · rw [hsame, Line.relocate_self] at hafter
    rw [if_pos hsame]
    exact iff_of_true (.of_noop .indexUnchanged hafter) (Or.inl hsame)
  · rw [if_neg hsame, or_iff_right hsame]
    exact dropsNode_dispatched_iff hgraph hbefore htarget hafter "REORDER_LAYER"

end DropsNode

/-! ## The whole drag -/

/-- A node can be dragged if there is one.  Whatever happens during the drag, the drop
shows a place in the layer as it is by then and moves what stands at the index where the
drag began.  That does what it showed exactly if it gives up, if the node stands there
still, or if nothing does and the node is at the shown place. -/
theorem dropsNode_iff_of_drags {graph : Graph R} (hreaches : Graph.Reaches .empty graph)
    (session : Session R) (node : String) (grabbed : Point R) {moved : Session R}
    {changed : Graph R}
    (hdrags : Drags (session.startDrag graph (.node node) grabbed).1 graph moved changed)
    (newId : String) (pointer : Point R) :
    let started := session.startDrag graph (.node node) grabbed
    let dropped := moved.endDrag changed newId (.node node) pointer
    (∃ layer index shown before after target,
      started.2 = .dragStarted node layer index ∧
      graph.layer? layer = some shown ∧ shown.nodeIds[index]? = some node ∧
      changed.layer? layer = some before ∧
      (moved.moveDrag changed (.node node) pointer).1.preview = some ⟨layer, before.y, target⟩ ∧
      dropped.2.1.layer? layer = some after ∧
      after.nodeIds = Line.relocate before.nodeIds index target ∧
      dropped.2.2 =
        (if target = index then .noop .indexUnchanged else .dispatched "REORDER_LAYER") ∧
      (target = index → dropped.2.1 = changed) ∧
      (DropsNode node changed before after target dropped.2.2 ↔
        target = index ∨ before.nodeIds[index]? = some node ∨
          before.nodeIds[index]? = none ∧ before.nodeIds[target]? = some node)) ∨
    (graph.node? node = none ∧ started.2 = .noop .unknownNode ∧
      dropped = (moved, changed, .noop .noActiveDrag)) := by
  intro started dropped
  have hgraph := hreaches.preserves_wellFormed .empty
  have hchanged := (hdrags.reaches hreaches).preserves_wellFormed .empty
  have hactive := hdrags.activeDrag
  rcases startDrag_node_cases hgraph session node grabbed with
    ⟨layer, index, originX, shown, hstart, hshown, hplace⟩ | ⟨hnode, hstart⟩
  · -- The layer is still there, whatever has happened to it.
    obtain ⟨before, hbefore⟩ := hdrags.exists_layer? hshown
    let drag : NodeDrag R := ⟨node, layer, index, originX, grabbed⟩
    have hdrag : moved.activeDrag = some (.node drag) := by
      rw [hactive, hstart]
    let target := drag.target before pointer
    let after : Layer R :=
      { before with nodeIds := Line.relocate before.nodeIds index target }
    obtain ⟨final, hend, hafter, hkept⟩ := endDrag_node_eq hdrag hbefore newId pointer
    have heffect : dropped.2.2 =
        if target = index then .noop .indexUnchanged else .dispatched "REORDER_LAYER" :=
      congrArg (·.2.2) hend
    have hfinal : dropped.2.1 = final := congrArg (·.2.1) hend
    refine Or.inl ⟨layer, index, shown, before, after, target, ?_, hshown, hplace, hbefore,
      preview_moveDrag hdrag hbefore pointer, ?_, rfl, heffect, ?_, ?_⟩
    · simp only [started, hstart]
    · rw [hfinal]
      exact hafter
    · rw [hfinal]
      exact hkept
    · rw [heffect]
      exact dropsNode_iff hchanged (List.mem_of_find?_eq_some hbefore)
        (Line.closestSlot_le _ _ _) rfl
  · refine Or.inr ⟨hnode, ?_, ?_⟩
    · simp only [started, hstart]
    · have hidle : moved.activeDrag = none := by
        rw [hactive, hstart]
        rfl
      simp only [dropped, endDrag, refusal?, hidle, Option.isNone_none, if_true]

/-! ## Three constants side by side -/

def constantAt (label : String) (index : Nat) : Placement Float :=
  ⟨label, none, none, none, .constant, some 2, "root", index, some 80⟩

def threeConstants : Graph Float :=
  ((Graph.empty.after "a" (.addNode (constantAt "base" 0))).after "b"
    (.addNode (constantAt "rate" 1))).after "c" (.addNode (constantAt "fee" 2))

def freshSession : Session Float :=
  ⟨.standard, ⟨800, 600⟩, ⟨0, 0⟩, none, [], 0, none, none, none⟩

/-- The first of them is dragged to the place of the last. -/
def firstDragged : Session Float :=
  ((freshSession.startDrag threeConstants (.node "a") ⟨44, 80⟩).1.moveDrag threeConstants
    (.node "a") ⟨220, 80⟩).1

theorem reaches_threeConstants : Graph.Reaches .empty threeConstants :=
  .step _ _ (.step _ _ (.step _ _ .refl fun _ _ => by decide +kernel)
    fun _ _ => by decide +kernel) fun _ _ => by decide +kernel

/-- Another may be added anywhere meanwhile. -/
theorem drags_firstDragged (label : String) (index : Nat) :
    Drags (freshSession.startDrag threeConstants (.node "a") ⟨44, 80⟩).1 threeConstants
      firstDragged (threeConstants.after "d" (.addNode (constantAt label index))) :=
  .act _ _ (.move _ _ .refl) fun _ _ => by decide +kernel

/-- If it is added at the end, the dragged one is taken behind it. -/
theorem dropsNode_behind_added :
    let changed := threeConstants.after "d" (.addNode (constantAt "tax" 3))
    let dropped := firstDragged.endDrag changed "" (.node "a") ⟨308, 80⟩
    ∃ before after, changed.layer? "root" = some before ∧
      dropped.2.1.layer? "root" = some after ∧ dropped.2.2 = .dispatched "REORDER_LAYER" ∧
      before.nodeIds = ["a", "b", "c", "d"] ∧ after.nodeIds = ["b", "c", "d", "a"] ∧
      DropsNode "a" changed before after 3 dropped.2.2 := by
  have hstarted : (freshSession.startDrag threeConstants (.node "a") ⟨44, 80⟩).2 =
      .dragStarted "a" "root" 0 := by decide +kernel
  have hplaced : (firstDragged.moveDrag (threeConstants.after "d"
      (.addNode (constantAt "tax" 3))) (.node "a") ⟨308, 80⟩).1.preview.map Preview.index =
      some 3 := by decide +kernel
  have hlisted : ((threeConstants.after "d" (.addNode (constantAt "tax" 3))).layer? "root").map
      Layer.nodeIds = some ["a", "b", "c", "d"] := by decide +kernel
  intro changed dropped
  cases dropsNode_iff_of_drags reaches_threeConstants freshSession "a" ⟨44, 80⟩
    (drags_firstDragged "tax" 3) "" ⟨308, 80⟩ with
  | inl hdrop =>
      obtain ⟨layer, index, shown, before, after, target, hstart, -, -, hbefore, hpreview, hafter,
        hmoved, heffect, -, hdrops⟩ := hdrop
      cases hstarted.symm.trans hstart
      rw [hpreview] at hplaced
      cases hplaced
      rw [hbefore, Option.map_some, Option.some.injEq] at hlisted
      refine ⟨before, after, hbefore, hafter, heffect, hlisted, ?_, hdrops.mpr ?_⟩
      · rw [hmoved, hlisted]
        rfl
      · rw [hlisted]
        exact Or.inr (Or.inl rfl)
  | inr hidle => cases hstarted.symm.trans hidle.2.1

/-- If it is added at the front, it is itself taken to the end, and not the dragged one. -/
theorem drop_takes_added_node :
    let changed := threeConstants.after "d" (.addNode (constantAt "tax" 0))
    Graph.Reaches .empty threeConstants ∧
      Drags (freshSession.startDrag threeConstants (.node "a") ⟨44, 80⟩).1 threeConstants
        firstDragged changed ∧
      ∃ before final after, changed.layer? "root" = some before ∧
        (firstDragged.moveDrag changed (.node "a") ⟨308, 80⟩).1.preview =
          some ⟨"root", before.y, 3⟩ ∧
        firstDragged.endDrag changed "" (.node "a") ⟨308, 80⟩ =
          (firstDragged.resetDrag, final, .dispatched "REORDER_LAYER") ∧
        final.layer? "root" = some after ∧
        before.nodeIds = ["d", "a", "b", "c"] ∧ after.nodeIds = ["a", "b", "c", "d"] ∧
        ¬ DropsNode "a" changed before after 3 (.dispatched "REORDER_LAYER") := by
  have hdrag : firstDragged.activeDrag = some (.node ⟨"a", "root", 0, 44, ⟨44, 80⟩⟩) := by
    decide +kernel
  have hbefore : (threeConstants.after "d" (.addNode (constantAt "tax" 0))).layer? "root" =
      some ⟨"root", 80, ["d", "a", "b", "c"], 352⟩ := by decide +kernel
  have htarget : NodeDrag.target ⟨"a", "root", 0, 44, ⟨44, 80⟩⟩
      (⟨"root", 80, ["d", "a", "b", "c"], 352⟩ : Layer Float) ⟨308, 80⟩ = 3 := by decide +kernel
  have hpreview := preview_moveDrag hdrag hbefore ⟨308, 80⟩
  obtain ⟨final, hend, hafter, -⟩ := endDrag_node_eq hdrag hbefore "" ⟨308, 80⟩
  rw [htarget] at hpreview hend hafter
  rw [if_neg (by decide)] at hend
  refine ⟨reaches_threeConstants, drags_firstDragged "tax" 0, _, final, _, hbefore, hpreview,
    hend, hafter, rfl, rfl, ?_⟩
  intro hdrops
  have htaken := hdrops.taken "REORDER_LAYER" rfl
  exact absurd htaken (by decide)

end Session

end DecisionCanvas
