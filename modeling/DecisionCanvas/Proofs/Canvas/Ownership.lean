import DecisionCanvas.Proofs.Canvas.Restored
import DecisionCanvas.Proofs.Canvas.Reorder

/-!
# Layers that own their nodes

A deleted node is taken out of one layer, the first with the id that the node has noted.
As long as every node is listed by that layer only, nothing remains of a deleted node, and
a graph that was restored stays as it would be restored, whatever is done to it.
-/

namespace DecisionCanvas

namespace Graph

variable {R : Type}

/-- Whether a node that a layer lists is listed by no other layer, and the layer is the
first with its id. -/
def ListsApart (graph : Graph R) : Prop :=
  ∀ index layer, graph.layers[index]? = some layer → ∀ id ∈ layer.nodeIds,
    graph.layerIndex? layer.id = some index ∧ id ∉ graph.elsewhere index

variable {graph : Graph R} {index : Nat} {layer : Layer R}

/-- A layer may get other nodes if no other layer lists them. -/
theorem ListsApart.setLine (hgraph : graph.ListsApart)
    (hlayer : graph.layers[index]? = some layer)
    (hfirst : graph.layerIndex? layer.id = some index) {nodeIds : List String}
    (hapart : ∀ id ∈ nodeIds, id ∉ graph.elsewhere index) (width : R) :
    (graph.setLine index nodeIds width).ListsApart := by
  intro other shown hshown id hid
  rw [layerIndex?_setLine]
  obtain ⟨rfl, rfl⟩ | ⟨hother, hkept⟩ := getElem?_setLine_cases hlayer hshown
  · rw [elsewhere_setLine]
    exact ⟨hfirst, hapart id hid⟩
  · obtain ⟨howner, hunlisted⟩ := hgraph other shown hkept id hid
    refine ⟨howner, fun helsewhere => ?_⟩
    obtain ⟨third, found, hthird, hfound, hlists⟩ := mem_elsewhere.mp helsewhere
    obtain ⟨rfl, rfl⟩ | ⟨-, hheld⟩ := getElem?_setLine_cases hlayer hfound
    · exact hapart id hlists (mem_elsewhere.mpr ⟨other, shown, hother, hkept, hid⟩)
    · exact hunlisted (mem_elsewhere.mpr ⟨third, found, hthird, hheld, hlists⟩)

/-! ## Graphs that stay as they are restored -/

variable [Scalar R]

/-- A graph as it is restored, with layers that own their nodes. -/
structure Settled (graph : Graph R) : Prop extends Restored graph where
  lists_apart : graph.ListsApart

/-- A node that is listed by one layer only has its last place there. -/
theorem lastPlace?_of_apart (hlayer : graph.layers[index]? = some layer) {id : String}
    (hid : id ∈ layer.nodeIds) (hunlisted : id ∉ graph.elsewhere index) :
    ∃ x, Layer.lastPlace? graph.layers id = some (layer, x) ∧ layer.slot? id = some x := by
  cases hplace : Layer.lastPlace? graph.layers id with
  | none =>
      refine absurd ?_ (Layer.lastPlace?_eq_none_iff.mp hplace)
      exact List.mem_flatMap.mpr ⟨layer, List.mem_of_getElem? hlayer, hid⟩
  | some place =>
      obtain ⟨owner, x⟩ := place
      obtain ⟨howner, hslot⟩ := Layer.mem_of_lastPlace? hplace
      obtain ⟨other, hother⟩ := List.mem_iff_getElem?.mp howner
      have hlists : id ∈ owner.nodeIds := by
        by_contra hid
        rw [Layer.slot?_eq_none_iff.mpr hid] at hslot
        exact absurd hslot (by simp)
      have hindex : other = index := by
        by_contra hindex
        exact hunlisted (mem_elsewhere.mpr ⟨other, owner, hindex, hother, hlists⟩)
      rw [hindex, hlayer, Option.some.injEq] at hother
      subst hother
      exact ⟨x, rfl, hslot⟩

/-- The last place of a node does not depend on a layer that does not list it. -/
theorem lastPlace?_modify {layers : List (Layer R)} {index : Nat} {layer : Layer R}
    (hlayer : layers[index]? = some layer) {id : String} {change : Layer R → Layer R}
    (hbefore : id ∉ layer.nodeIds) (hafter : id ∉ (change layer).nodeIds) :
    Layer.lastPlace? (layers.modify index change) id = Layer.lastPlace? layers id := by
  induction layers generalizing index with
  | nil => rw [List.modify_nil]
  | cons first rest ih =>
      cases index with
      | zero =>
          rw [List.getElem?_cons_zero, Option.some.injEq] at hlayer
          subst hlayer
          rw [List.modify_zero_cons, Layer.lastPlace?, Layer.lastPlace?,
            Layer.slot?_eq_none_iff.mpr hbefore, Layer.slot?_eq_none_iff.mpr hafter]
          rfl
      | succ index =>
          rw [List.getElem?_cons_succ] at hlayer
          rw [List.modify_succ_cons, Layer.lastPlace?, Layer.lastPlace?, ih hlayer]

/-- A layer without nodes behind all others is no place for any node. -/
theorem lastPlace?_append_empty {added : Layer R} (hadded : added.nodeIds = [])
    (layers : List (Layer R)) (id : String) :
    Layer.lastPlace? (layers ++ [added]) id = Layer.lastPlace? layers id := by
  induction layers with
  | nil => exact Layer.lastPlace?_eq_none_iff.mpr (by simp [hadded])
  | cons first rest ih => rw [List.cons_append, Layer.lastPlace?, Layer.lastPlace?, ih]

omit [Scalar R] in
theorem getElem?_of_append_empty {layers : List (Layer R)} {added : Layer R}
    (hadded : added.nodeIds = []) (hlayer : (layers ++ [added])[index]? = some layer)
    {id : String} (hid : id ∈ layer.nodeIds) : layers[index]? = some layer := by
  rw [List.getElem?_append] at hlayer
  split at hlayer
  · exact hlayer
  · rw [List.mem_singleton.mp (List.mem_of_getElem? hlayer), hadded] at hid
    exact absurd hid List.not_mem_nil

omit [Scalar R] in
theorem isSome_get?_erase {id other : String} (hother : other ≠ id)
    (hstored : (graph.node? other).isSome = true) :
    ((graph.nodes.erase id).get? other).isSome = true := by
  obtain ⟨node, hnode⟩ := Option.isSome_iff_exists.mp hstored
  exact Option.isSome_iff_exists.mpr
    ⟨node, Directory.get?_erase_eq_some_iff.mpr ⟨hother, hnode⟩⟩

/-- A node of a layer that has been laid out stands on its slot. -/
theorem node?_settle_slot (hlayer : graph.layers[index]? = some layer) {id : String} {x : R}
    (hslot : layer.slot? id = some x) {node : Node R}
    (hnode : (graph.settle index).node? id = some node) : node = node.stand layer x := by
  have hlayOut : (graph.layOut index).node? id = (graph.node? id).map (Node.stand layer x) := by
    rw [node?_layOut hlayer, show (places layer).reverse.lookup id = some x from hslot]
  rw [node?_settle hlayer, hlayOut] at hnode
  split at hnode
  · rw [Option.map_map] at hnode
    obtain ⟨original, -, rfl⟩ := Option.map_eq_some_iff.mp hnode
    rfl
  · obtain ⟨original, -, rfl⟩ := Option.map_eq_some_iff.mp hnode
    rfl

namespace Settled

/-- A layer may be given other nodes if no other layer lists them, all listed nodes are
then stored, and the nodes that it no longer lists are gone. -/
theorem setLine_settle (hgraph : graph.Settled) (hlayer : graph.layers[index]? = some layer)
    (hfirst : graph.layerIndex? layer.id = some index) {nodes : Directory (Node R)}
    {nodeIds : List String} (width : R)
    (hfiled : ∀ id node, nodes.get? id = some node → node.id = id)
    (hapart : ∀ id ∈ nodeIds, id ∉ graph.elsewhere index)
    (hstored : ∀ id ∈ nodeIds ++ graph.elsewhere index, (nodes.get? id).isSome = true)
    (hkept : ∀ id node, id ∉ nodeIds → nodes.get? id = some node →
      graph.node? id = some node ∧ id ∉ layer.nodeIds) :
    ((({ graph with nodes := nodes } : Graph R).setLine index nodeIds width).settle
      index).Settled := by
  let changed : Graph R := ({ graph with nodes := nodes } : Graph R).setLine index nodeIds width
  let line : Layer R := { layer with nodeIds := nodeIds, width := width }
  have hline : changed.layers[index]? = some line := getElem?_setLine hlayer nodeIds width
  have hlists : changed.ListsApart := hgraph.lists_apart.setLine hlayer hfirst hapart width
  refine ⟨⟨fun id node hnode => ?_, fun shown hshown id hid => ?_, fun id node hnode => ?_⟩, ?_⟩
  · obtain ⟨original, horiginal, hsame⟩ := of_node?_settle hnode
    rw [hsame]
    exact hfiled id original horiginal
  · rw [isSome_node?_settle]
    rw [layers_settle] at hshown
    obtain ⟨other, hother⟩ := List.mem_iff_getElem?.mp hshown
    refine hstored id ?_
    obtain ⟨-, rfl⟩ | ⟨hindex, hheld⟩ := getElem?_setLine_cases hlayer hother
    · exact List.mem_append_left _ hid
    · exact List.mem_append_right _ (mem_elsewhere.mpr ⟨other, shown, hindex, hheld, hid⟩)
  · rw [layers_settle]
    by_cases hid : id ∈ nodeIds
    · -- The node has just been put on its slot of the changed layer.
      obtain ⟨x, hplace, hslot⟩ := lastPlace?_of_apart hline hid (hlists index line hline id hid).2
      rw [show Layer.lastPlace? changed.layers id = some (line, x) from hplace]
      exact node?_settle_slot hline hslot hnode
    · rw [node?_settle_unlisted hline hid] at hnode
      obtain ⟨hheld, hunlisted⟩ := hkept id node hid hnode
      rw [setLine, lastPlace?_modify hlayer hunlisted hid]
      exact hgraph.stands id node hheld
  · intro other shown hshown id hid
    rw [layers_settle] at hshown
    obtain ⟨howner, hunlisted⟩ := hlists other shown hshown id hid
    rw [layerIndex?_eq, elsewhere, layers_settle, ← layerIndex?_eq]
    exact ⟨howner, hunlisted⟩

/-- A listed node is stored and belongs to the layer that lists it. -/
theorem belongs (hgraph : graph.Settled) (hlayer : graph.layers[index]? = some layer)
    {id : String} (hid : id ∈ layer.nodeIds) :
    ∃ node, graph.node? id = some node ∧ node.layer = layer.id := by
  have hstored := hgraph.listed_stored layer (List.mem_of_getElem? hlayer) id hid
  obtain ⟨node, hnode⟩ := Option.isSome_iff_exists.mp hstored
  obtain ⟨x, hplace, -⟩ := lastPlace?_of_apart hlayer hid
    (hgraph.lists_apart index layer hlayer id hid).2
  have hstands := hgraph.stands id node hnode
  rw [hplace] at hstands
  exact ⟨node, hnode, congrArg Node.layer hstands⟩

theorem stored_elsewhere (hgraph : graph.Settled) {id : String}
    (hid : id ∈ graph.elsewhere index) : (graph.node? id).isSome = true := by
  obtain ⟨other, shown, -, hshown, hlists⟩ := mem_elsewhere.mp hid
  exact hgraph.listed_stored shown (List.mem_of_getElem? hshown) id hlists

/-! ### Actions -/

theorem addToLayer (hgraph : graph.Settled) (hlayer : graph.layers[index]? = some layer)
    (hfirst : graph.layerIndex? layer.id = some index) {newId : String}
    (hfresh : graph.node? newId = none) (placement : Placement R) :
    (graph.addToLayer newId placement index layer).Settled := by
  let nodeIds := layer.nodeIds.insertIdx (min placement.index layer.length) newId
  have hmem : ∀ id, id ∈ nodeIds ↔ id = newId ∨ id ∈ layer.nodeIds := by
    intro id
    exact List.mem_insertIdx (Nat.min_le_right placement.index layer.length)
  have hnew : newId ∉ graph.elsewhere index := by
    intro hid
    have hstored := hgraph.stored_elsewhere hid
    rw [hfresh] at hstored
    exact absurd hstored (by simp)
  refine hgraph.setLine_settle hlayer hfirst (Line.width nodeIds.length) ?_ ?_ ?_ ?_
  · intro id node hnode
    rw [Directory.get?_insert] at hnode
    split at hnode
    · rename_i hid
      rw [← Option.some.inj hnode, hid]
      rfl
    · exact hgraph.filed_under_id id node hnode
  · intro id hid
    cases (hmem id).mp hid with
    | inl hid => exact hid ▸ hnew
    | inr hid => exact (hgraph.lists_apart index layer hlayer id hid).2
  · intro id hid
    rw [Directory.get?_insert]
    split
    · rfl
    · rename_i hne
      cases List.mem_append.mp hid with
      | inl hid =>
          have hlisted := ((hmem id).mp hid).resolve_left hne
          exact hgraph.listed_stored layer (List.mem_of_getElem? hlayer) id hlisted
      | inr hid => exact hgraph.stored_elsewhere hid
  · intro id node hid hnode
    rw [hmem, not_or] at hid
    rw [Directory.get?_insert, if_neg hid.1] at hnode
    exact ⟨hnode, hid.2⟩

theorem addLayer (hgraph : graph.Settled) (id : String) (y : R) :
    ({ graph with layers := graph.layers ++ [Layer.empty id y] } : Graph R).Settled := by
  have hempty : (Layer.empty id y).nodeIds = [] := rfl
  refine ⟨⟨hgraph.filed_under_id, fun layer hlayer node hlists => ?_,
    fun node found hfound => ?_⟩, fun index layer hlayer node hlists => ?_⟩
  · obtain ⟨index, hindex⟩ := List.mem_iff_getElem?.mp hlayer
    have hold := getElem?_of_append_empty hempty hindex hlists
    exact hgraph.listed_stored layer (List.mem_of_getElem? hold) node hlists
  · rw [lastPlace?_append_empty hempty]
    exact hgraph.stands node found hfound
  · have hold := getElem?_of_append_empty hempty hlayer hlists
    obtain ⟨howner, hunlisted⟩ := hgraph.lists_apart index layer hold node hlists
    refine ⟨?_, fun helsewhere => hunlisted ?_⟩
    · rw [layerIndex?, List.findIdx?_append]
      exact Option.or_eq_some_iff.mpr (Or.inl howner)
    · obtain ⟨other, shown, hother, hshown, hid⟩ := mem_elsewhere.mp helsewhere
      have hheld := getElem?_of_append_empty hempty hshown hid
      exact mem_elsewhere.mpr ⟨other, shown, hother, hheld, hid⟩

theorem addNode (hgraph : graph.Settled) {newId : String} {placement : Placement R}
    (hfresh : graph.node? newId = none) {next : Graph R}
    (hadd : graph.addNode newId placement = .ok next) : next.Settled := by
  obtain ⟨-, ⟨index, layer, -, hfirst, hlayer, rfl⟩ | ⟨y, -, hnew, rfl⟩⟩ := addNode_eq_ok hadd
  · exact hgraph.addToLayer hlayer hfirst hfresh placement
  · refine (hgraph.addLayer placement.layer y).addToLayer (by simp) ?_ hfresh placement
    have hnone : graph.layers.findIdx? (fun layer => layer.id == placement.layer) = none := hnew
    simp [layerIndex?, List.findIdx?_append, Layer.empty, hnone]

theorem reorderLayer (hgraph : graph.Settled) {id : String} {nodeIds : List String}
    {next : Graph R} (hreorder : graph.reorderLayer id nodeIds = .ok next) : next.Settled := by
  obtain ⟨index, layer, -, hfirst, hlayer, hperm, rfl⟩ := reorderLayer_eq_ok hreorder
  have hlisted := hgraph.listed_stored layer (List.mem_of_getElem? hlayer)
  refine hgraph.setLine_settle hlayer hfirst layer.width hgraph.filed_under_id ?_ ?_ ?_
  · intro node hnode
    exact (hgraph.lists_apart index layer hlayer node (hperm.mem_iff.mp hnode)).2
  · intro node hnode
    cases List.mem_append.mp hnode with
    | inl hnode => exact hlisted node (hperm.mem_iff.mp hnode)
    | inr hnode => exact hgraph.stored_elsewhere hnode
  · intro node found hnode hfound
    exact ⟨hfound, fun hlists => hnode (hperm.mem_iff.mpr hlists)⟩

/-- A node may change in everything but its id and its place. -/
theorem modifyNode (hgraph : graph.Settled) (id : String) {change : Node R → Node R}
    (hkeeps : ∀ node, change node = { node with
      label := (change node).label, constant := (change node).constant,
      operand := (change node).operand }) :
    ({ graph with nodes := graph.nodes.modify id change } : Graph R).Settled := by
  let changed : Graph R := { graph with nodes := graph.nodes.modify id change }
  have hnode : ∀ other, changed.node? other =
      if other = id then (graph.node? other).map change else graph.node? other :=
    fun other => Directory.get?_modify _ _ _ _
  refine ⟨⟨fun other node hfound => ?_, fun layer hlayer other hlists => ?_,
    fun other node hfound => ?_⟩, hgraph.lists_apart⟩
  · rw [hnode] at hfound
    split at hfound
    · obtain ⟨original, horiginal, rfl⟩ := Option.map_eq_some_iff.mp hfound
      rw [hkeeps]
      exact hgraph.filed_under_id other original horiginal
    · exact hgraph.filed_under_id other node hfound
  · have hstored := hgraph.listed_stored layer hlayer other hlists
    rw [hnode]
    split
    · rw [Option.isSome_map]
      exact hstored
    · exact hstored
  · rw [hnode] at hfound
    split at hfound
    · obtain ⟨original, horiginal, rfl⟩ := Option.map_eq_some_iff.mp hfound
      have hstands := hgraph.stands other original horiginal
      rw [hkeeps]
      cases hplace : Layer.lastPlace? graph.layers other with
      | none =>
          rw [hplace] at hstands
          rw [hstands]
          rfl
      | some place =>
          rw [hplace] at hstands
          rw [hstands]
          rfl
    · exact hgraph.stands other node hfound

theorem updateOperand (hgraph : graph.Settled) (id : String) (operand : Arithmetic) :
    (graph.updateOperand id operand).Settled := by
  rw [Graph.updateOperand]
  split
  · exact hgraph
  · split
    · exact hgraph
    · exact hgraph.modifyNode id fun _ => rfl

theorem updateLabel (hgraph : graph.Settled) (id label : String) (constant : Option R) :
    (graph.updateLabel id label constant).Settled :=
  hgraph.modifyNode id fun _ => rfl

/-- If a node is taken out of a layer, that is the first with its id, and no other layer
lists the node. -/
theorem owner_of_layerOfNode? (hgraph : graph.Settled) {id : String} {node : Node R}
    (hnode : graph.node? id = some node) (hindex : graph.layerOfNode? node id = some index)
    (hlayer : graph.layers[index]? = some layer) :
    graph.layerIndex? layer.id = some index ∧ id ∉ graph.elsewhere index := by
  have hlisted : ∀ other shown, graph.layers[other]? = some shown → id ∈ shown.nodeIds →
      graph.layerIndex? node.layer = some other := by
    intro other shown hshown hid
    obtain ⟨found, hfound, hbelongs⟩ := hgraph.belongs hshown hid
    rw [hnode, Option.some.injEq] at hfound
    rw [hfound, hbelongs]
    exact (hgraph.lists_apart other shown hshown id hid).1
  rw [layerOfNode?, Option.or_eq_some_iff] at hindex
  obtain hown | ⟨hunknown, hlists⟩ := hindex
  · have hid := id_of_layer? (layer?_eq_some_iff.mpr ⟨_, hown, hlayer⟩)
    refine ⟨by rwa [hid], fun hid => ?_⟩
    obtain ⟨other, shown, hother, hshown, hid⟩ := mem_elsewhere.mp hid
    have hsame := hlisted other shown hshown hid
    rw [hown, Option.some.injEq] at hsame
    exact hother hsame.symm
  · -- A layer that lists the node would be the one it has noted.
    obtain ⟨hlt, hcontains, -⟩ := List.findIdx?_eq_some_iff_getElem.mp hlists
    have howner := hlisted index graph.layers[index] (List.getElem?_eq_getElem hlt)
      (by simpa using hcontains)
    rw [hunknown] at howner
    exact absurd howner (by simp)

/-- A node that no layer lists may be removed. -/
theorem eraseUnlisted (hgraph : graph.Settled) {id : String}
    (hunlisted : ∀ layer ∈ graph.layers, id ∉ layer.nodeIds) :
    ({ graph with nodes := graph.nodes.erase id } : Graph R).Settled := by
  refine ⟨⟨fun other found hfound => ?_, fun layer hlayer other hlists => ?_,
    fun other found hfound => ?_⟩, hgraph.lists_apart⟩
  · have hheld := (Directory.get?_erase_eq_some_iff.mp hfound).2
    exact hgraph.filed_under_id other found hheld
  · apply isSome_get?_erase _ (hgraph.listed_stored layer hlayer other hlists)
    exact fun hother => hunlisted layer hlayer (hother ▸ hlists)
  · have hheld := (Directory.get?_erase_eq_some_iff.mp hfound).2
    exact hgraph.stands other found hheld

/-- A node that one layer lists may be removed when it is taken out of that layer. -/
theorem eraseListed (hgraph : graph.Settled) {id : String}
    (hlayer : graph.layers[index]? = some layer)
    (hfirst : graph.layerIndex? layer.id = some index) (hunlisted : id ∉ graph.elsewhere index) :
    (({ graph with nodes := graph.nodes.erase id } : Graph R).relist index
      (layer.nodeIds.filter fun listed => listed != id)).Settled := by
  have hrest : ∀ other, other ∈ layer.nodeIds.filter (fun listed => listed != id) ↔
      other ∈ layer.nodeIds ∧ other ≠ id := by
    intro other
    rw [List.mem_filter, bne_iff_ne]
  refine hgraph.setLine_settle hlayer hfirst (Line.width _) ?_ ?_ ?_ ?_
  · intro other found hfound
    have hheld := (Directory.get?_erase_eq_some_iff.mp hfound).2
    exact hgraph.filed_under_id other found hheld
  · intro other hother
    exact (hgraph.lists_apart index layer hlayer other ((hrest other).mp hother).1).2
  · intro other hother
    cases List.mem_append.mp hother with
    | inl hother =>
        obtain ⟨hlists, hne⟩ := (hrest other).mp hother
        apply isSome_get?_erase hne
        exact hgraph.listed_stored layer (List.mem_of_getElem? hlayer) other hlists
    | inr hother =>
        apply isSome_get?_erase _ (hgraph.stored_elsewhere hother)
        exact fun hsame => hunlisted (hsame ▸ hother)
  · intro other found hother hfound
    obtain ⟨hne, hheld⟩ := Directory.get?_erase_eq_some_iff.mp hfound
    exact ⟨hheld, fun hlists => hother ((hrest other).mpr ⟨hlists, hne⟩)⟩

theorem deleteNode (hgraph : graph.Settled) (id : String) : (graph.deleteNode id).Settled := by
  cases hnode : graph.node? id with
  | none =>
      rw [Graph.deleteNode, hnode]
      exact hgraph
  | some node =>
      obtain ⟨hnone, hdelete⟩ | ⟨index, layer, hindex, hlayer, hdelete⟩ := deleteNode_cases hnode
      · rw [hdelete]
        apply hgraph.eraseUnlisted
        intro layer hlayer hid
        rw [layerOfNode?, Option.or_eq_none_iff, List.findIdx?_eq_none_iff] at hnone
        simpa [hid] using hnone.2 layer hlayer
      · obtain ⟨hfirst, hunlisted⟩ := hgraph.owner_of_layerOfNode? hnode hindex hlayer
        rw [hdelete]
        exact hgraph.eraseListed hlayer hfirst hunlisted

/-- One action keeps a graph settled. -/
theorem after (hgraph : graph.Settled) (newId : String) (action : Action R)
    (hfresh : ∀ placement, action = .addNode placement → graph.node? newId = none) :
    (graph.after newId action).Settled := by
  rw [Graph.after]
  cases hdispatch : graph.dispatch newId action with
  | error error => exact hgraph
  | ok next =>
      cases action with
      | addNode placement => exact hgraph.addNode (hfresh placement rfl) hdispatch
      | reorderLayer layer nodeIds => exact hgraph.reorderLayer hdispatch
      | updateOperand node operand =>
          rw [dispatch, Except.ok.injEq] at hdispatch
          exact hdispatch ▸ hgraph.updateOperand node operand
      | deleteNode node =>
          rw [dispatch, Except.ok.injEq] at hdispatch
          exact hdispatch ▸ hgraph.deleteNode node
      | updateLabel node label constant =>
          rw [dispatch, Except.ok.injEq] at hdispatch
          exact hdispatch ▸ hgraph.updateLabel node label constant

end Settled

/-- Actions lead from settled graphs to settled graphs. -/
theorem Reaches.preserves_settled {start graph : Graph R} (hstart : start.Settled)
    (hreaches : Reaches start graph) : graph.Settled := by
  induction hreaches with
  | refl => exact hstart
  | step newId action _ hfresh ih => exact ih.after newId action hfresh

/-! ## Nodes that are gone -/

/-- A stored node that a layer lists has noted the id of a layer. -/
theorem Restored.exists_layerIndex? (hgraph : graph.Restored) {id : String} {node : Node R}
    (hnode : graph.node? id = some node) (hlisted : id ∈ graph.listed) :
    ∃ index, graph.layerIndex? node.layer = some index := by
  cases hplace : Layer.lastPlace? graph.layers id with
  | none => exact absurd hlisted (Layer.lastPlace?_eq_none_iff.mp hplace)
  | some place =>
      obtain ⟨owner, x⟩ := place
      have howner := (Layer.mem_of_lastPlace? hplace).1
      have hstands := hgraph.stands id node hnode
      rw [hplace] at hstands
      have hlayer : node.layer = owner.id := congrArg Node.layer hstands
      rw [hlayer]
      exact exists_layerIndex?_of_mem (List.mem_map_of_mem howner)

/-- A layer goes on listing a deleted node if the node is taken out of another one. -/
theorem not_listsStored_of_elsewhere {id : String} {node : Node R}
    (hnode : graph.node? id = some node) (hindex : graph.layerOfNode? node id = some index)
    (helsewhere : id ∈ graph.elsewhere index) : ¬ (graph.deleteNode id).ListsStored := by
  intro hstored
  obtain ⟨hnone, -⟩ | ⟨found, layer, hfound, hlayer, hdelete⟩ := deleteNode_cases hnode
  · rw [hindex] at hnone
    exact absurd hnone (by simp)
  · rw [hindex, Option.some.injEq] at hfound
    subst hfound
    obtain ⟨other, shown, hother, hshown, hid⟩ := mem_elsewhere.mp helsewhere
    let nodeIds := layer.nodeIds.filter fun listed => listed != id
    let changed : Graph R := ({ graph with nodes := graph.nodes.erase id } : Graph R).setLine
      index nodeIds (Line.width nodeIds.length)
    have hheld : shown ∈ (changed.settle index).layers := by
      rw [layers_settle]
      exact List.mem_of_getElem? ((getElem?_setLine_ne hother _ _).trans hshown)
    have hgone : changed.node? id = none := (Directory.get?_erase _ _ _).trans (if_pos rfl)
    rw [hdelete] at hstored
    have hsome : ((changed.settle index).node? id).isSome = true := hstored shown hheld id hid
    rw [isSome_node?_settle, hgone] at hsome
    exact absurd hsome (by simp)

/-- Where layers do not own their nodes, there is a node that is still listed when it has
been deleted. -/
theorem Restored.exists_not_listsStored (hgraph : graph.Restored)
    (hshared : ¬ graph.ListsApart) : ∃ id, ¬ (graph.deleteNode id).ListsStored := by
  simp only [ListsApart, not_forall] at hshared
  obtain ⟨index, layer, hlayer, id, hid, hshared⟩ := hshared
  have hmem := List.mem_of_getElem? hlayer
  have hstored := hgraph.listed_stored layer hmem id hid
  obtain ⟨node, hnode⟩ := Option.isSome_iff_exists.mp hstored
  have hlisted : id ∈ graph.listed := List.mem_flatMap.mpr ⟨layer, hmem, hid⟩
  obtain ⟨owner, howner⟩ := hgraph.exists_layerIndex? hnode hlisted
  have htaken : graph.layerOfNode? node id = some owner := by
    rw [layerOfNode?, howner, Option.some_or]
  refine ⟨id, not_listsStored_of_elsewhere hnode htaken ?_⟩
  by_cases hindex : index = owner
  · -- The node is taken out of this layer, the first with its id, so another one lists it.
    subst hindex
    by_contra hunlisted
    refine hshared ⟨?_, hunlisted⟩
    rw [id_of_layer? (layer?_eq_some_iff.mpr ⟨_, howner, hlayer⟩)]
    exact howner
  · exact mem_elsewhere.mpr ⟨index, layer, hindex, hlayer, hid⟩

/-- Whatever is done to a restored graph, its layers list no other nodes than those that
exist, exactly if at the start every listed node is listed by one layer only, the first
with its id. -/
theorem listsStored_of_reaches_restore_iff (persisted : PersistedGraph R) :
    (∀ graph, Reaches persisted.restore graph → graph.ListsStored) ↔
      persisted.restore.ListsApart := by
  have hrestored := persisted.restored_restore
  constructor
  · intro hstored
    by_contra hshared
    obtain ⟨id, hdangling⟩ := hrestored.exists_not_listsStored hshared
    have hreaches : Reaches persisted.restore (persisted.restore.after "" (.deleteNode id)) :=
      .step "" (.deleteNode id) .refl fun _ hadd => absurd hadd (by simp)
    exact hdangling (hstored _ hreaches)
  · intro hapart graph hreaches
    exact (hreaches.preserves_settled ⟨hrestored, hapart⟩).listed_stored

/-- Of two layers that list a node only the last one lets go of it. -/
theorem deleted_node_still_listed :
    let node : PersistedNode Float :=
      ⟨"rate", "rate", .constant, some 2, .plus, none, none, none⟩
    let persisted : PersistedGraph Float :=
      ⟨[⟨"root", 80, ["rate"], 240⟩, ⟨"row", 180, ["rate"], 240⟩], [node]⟩
    let graph := persisted.restore.after "" (.deleteNode "rate")
    Reaches persisted.restore graph ∧ graph.node? "rate" = none ∧
      graph.layers.map Layer.nodeIds = [["rate"], []] ∧ ¬ graph.ListsStored := by
  intro node persisted graph
  have hgone : graph.node? "rate" = none := by decide +kernel
  have hlists : graph.layers.map Layer.nodeIds = [["rate"], []] := by decide +kernel
  refine ⟨.step "" _ .refl fun _ hadd => absurd hadd (by simp), hgone, hlists, ?_⟩
  intro hstored
  have hmem : ["rate"] ∈ graph.layers.map Layer.nodeIds := by
    rw [hlists]
    exact List.mem_cons_self
  obtain ⟨layer, hlayer, hids⟩ := List.mem_map.mp hmem
  have hsome := hstored layer hlayer "rate" (hids ▸ List.mem_singleton_self "rate")
  rw [hgone] at hsome
  exact absurd hsome (by decide)

end Graph

end DecisionCanvas
