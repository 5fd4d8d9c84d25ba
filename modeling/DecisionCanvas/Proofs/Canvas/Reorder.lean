import DecisionCanvas.Proofs.Canvas.Moves
import DecisionCanvas.Proofs.Canvas.WellFormed

/-!
# Reordering a layer

No action takes a layer away, and the one that puts the nodes of a layer into another order is
never refused.  So a drop that has moved one node of a line is carried out, and what is shown
for it is always a place in the line.
-/

namespace DecisionCanvas

namespace Scalar

variable {R Element : Type} [Scalar R]

/-- What is nearest is one of the elements. -/
theorem mem_of_nearestBy {distance : Element → R} {elements : List Element} {element : Element}
    (hnearest : nearestBy distance elements = some element) : element ∈ elements := by
  cases elements with
  | nil => simp [nearestBy] at hnearest
  | cons first rest =>
      rw [nearestBy, Option.some.injEq] at hnearest
      rw [← hnearest]
      clear hnearest
      induction rest generalizing first with
      | nil => exact List.mem_singleton_self _
      | cons next rest ih =>
          rw [List.foldl_cons]
          split
          · exact List.mem_cons_of_mem first (ih next)
          · cases List.mem_cons.mp (ih first) with
            | inl hfirst =>
                rw [hfirst]
                exact List.mem_cons_self
            | inr hrest => exact List.mem_cons_of_mem _ (List.mem_cons_of_mem _ hrest)

end Scalar

namespace Line

/-- The slot that is found is one of the slots. -/
theorem closestSlot_le {R : Type} [Scalar R] (place width : R) (count : Nat) :
    closestSlot place width count ≤ count - 1 := by
  unfold closestSlot
  split
  · exact Nat.zero_le _
  · cases hnearest : Scalar.nearestBy (fun slot : R × Nat => Scalar.distance place slot.1)
        (centres width count).zipIdx with
    | none =>
        simp only [hnearest]
        exact Nat.zero_le _
    | some slot =>
        have hmem := List.snd_lt_of_mem_zipIdx (Scalar.mem_of_nearestBy hnearest)
        rw [length_centres] at hmem
        simp only [hnearest]
        omega

end Line

namespace Graph

/-! ## The layers after an action -/

variable {R : Type}

theorem layers_updateOperand (graph : Graph R) (id : String) (operand : Arithmetic) :
    (graph.updateOperand id operand).layers = graph.layers := by
  rw [updateOperand]
  split
  · rfl
  · split <;> rfl

variable [Scalar R]

theorem map_id_relist (graph : Graph R) (index : Nat) (nodeIds : List String) :
    (graph.relist index nodeIds).layers.map Layer.id = graph.layers.map Layer.id := by
  rw [relist, layers_settle, map_id_setLine]

theorem layerIds_addNode {graph next : Graph R} {newId : String} {placement : Placement R}
    (hadd : graph.addNode newId placement = .ok next) :
    graph.layers.map Layer.id ⊆ next.layers.map Layer.id := by
  obtain ⟨-, ⟨index, layer, -, -, -, rfl⟩ | ⟨y, -, -, rfl⟩⟩ := addNode_eq_ok hadd
  · rw [addToLayer, map_id_relist]
    exact List.Subset.refl _
  · rw [addToLayer, map_id_relist, List.map_append]
    exact List.subset_append_left _ _

theorem layerIds_reorderLayer {graph next : Graph R} {id : String} {nodeIds : List String}
    (hreorder : graph.reorderLayer id nodeIds = .ok next) :
    next.layers.map Layer.id = graph.layers.map Layer.id := by
  obtain ⟨index, layer, -, -, -, -, rfl⟩ := reorderLayer_eq_ok hreorder
  rw [layers_settle, map_id_setLine]

theorem layerIds_deleteNode (graph : Graph R) (id : String) :
    (graph.deleteNode id).layers.map Layer.id = graph.layers.map Layer.id := by
  cases hnode : graph.node? id with
  | none => rw [deleteNode, hnode]
  | some node =>
      obtain ⟨-, hdelete⟩ | ⟨index, layer, -, -, hdelete⟩ := deleteNode_cases hnode
      · rw [hdelete]
      · rw [hdelete, map_id_relist]

/-- No action removes a layer. -/
theorem layerIds_subset_after (graph : Graph R) (newId : String) (action : Action R) :
    graph.layers.map Layer.id ⊆ (graph.after newId action).layers.map Layer.id := by
  rw [after]
  cases hdispatch : graph.dispatch newId action with
  | error error => exact List.Subset.refl _
  | ok next =>
      cases action with
      | addNode placement => exact layerIds_addNode hdispatch
      | reorderLayer layer nodeIds =>
          rw [layerIds_reorderLayer hdispatch]
          exact List.Subset.refl _
      | updateOperand node operand =>
          rw [dispatch, Except.ok.injEq] at hdispatch
          rw [← hdispatch, layers_updateOperand]
          exact List.Subset.refl _
      | deleteNode node =>
          rw [dispatch, Except.ok.injEq] at hdispatch
          rw [← hdispatch, layerIds_deleteNode]
          exact List.Subset.refl _
      | updateLabel node label constant =>
          rw [dispatch, Except.ok.injEq] at hdispatch
          rw [← hdispatch]
          exact List.Subset.refl _

/-- A node is listed by the layer it belongs to. -/
theorem WellFormed.exists_position? {graph : Graph R} (hgraph : graph.WellFormed) {id : String}
    {node : Node R} (hnode : graph.node? id = some node) :
    ∃ layer index, graph.layer? node.layer = some layer ∧ layer.position? id = some index ∧
      layer.nodeIds[index]? = some id := by
  obtain ⟨_, layer, -, hlayer, hlisted⟩ := hgraph.layerOfNode? hnode
  have hmem := List.mem_of_getElem? hlayer
  obtain ⟨place, hplace⟩ := List.mem_iff_getElem?.mp hlisted
  obtain ⟨other, hother, hbelongs, -⟩ := hgraph.laid_out layer hmem place id hplace
  rw [hnode, Option.some.injEq] at hother
  subst hother
  cases hindex : layer.position? id with
  | none =>
      have hunlisted := List.findIdx?_eq_none_iff.mp hindex id hlisted
      exact absurd hunlisted (by simp)
  | some index =>
      obtain ⟨hlt, hfound, -⟩ := List.findIdx?_eq_some_iff_getElem.mp hindex
      refine ⟨layer, index, ?_, hindex, ?_⟩
      · rw [hbelongs, layer?_of_mem hgraph.layer_ids_distinct hmem]
      · rw [List.getElem?_eq_getElem hlt, ← beq_iff_eq.mp hfound]

/-- The nodes of a layer can be put into any other order. -/
theorem dispatch_reorder {graph : Graph R} {id : String} {layer : Layer R}
    (hlayer : graph.layer? id = some layer) {nodeIds : List String}
    (hperm : nodeIds.Perm layer.nodeIds) (newId : String) :
    ∃ next, graph.dispatch newId (.reorderLayer id nodeIds) = .ok next ∧
      next.layer? id = some { layer with nodeIds := nodeIds } := by
  obtain rfl := id_of_layer? hlayer
  obtain ⟨index, hindex, hat⟩ := layer?_eq_some_iff.mp hlayer
  refine ⟨(graph.setLine index nodeIds layer.width).settle index, ?_, ?_⟩
  · rw [dispatch, reorderLayer]
    simp only [hindex, hlayer, sameTexts_iff.mpr hperm.symm, if_true]
  · rw [layer?_settle, layer?_setLine hat hindex, if_pos rfl]

/-- Another order moves nodes and may change their operands, and leaves the rest of them. -/
theorem of_node?_reorderLayer {graph next : Graph R} {layer : String} {nodeIds : List String}
    (hreorder : graph.reorderLayer layer nodeIds = .ok next) {id : String} {node : Node R}
    (hnode : next.node? id = some node) :
    ∃ original, graph.node? id = some original ∧
      node = { original with
        x := node.x, y := node.y, layer := node.layer, operand := node.operand } := by
  obtain ⟨index, found, -, -, -, -, rfl⟩ := reorderLayer_eq_ok hreorder
  obtain ⟨original, horiginal, hsame⟩ := of_node?_settle hnode
  exact ⟨original, horiginal, hsame⟩

end Graph

end DecisionCanvas
