import DecisionCanvas.Proofs.Canvas.Addition

/-!
# Taking an addition back

An addition makes its layer wider, moves all nodes of the layer and may take the first place
in it.  Deleting the new node right away computes all of that anew, and comes to the graph as
it was: in a graph whose nodes and layers agree nothing of it depends on what the layer has
been in between.
-/

namespace DecisionCanvas

variable {R : Type} [Scalar R]

namespace Layer

variable {layer : Layer R} {newId : String}

theorem nodup_withNode (hdistinct : layer.nodeIds.Nodup) (hnew : newId ∉ layer.nodeIds)
    (index : Nat) : (layer.withNode index newId).nodeIds.Nodup :=
  (List.perm_insertIdx newId layer.nodeIds (Nat.min_le_right index layer.length)).nodup_iff.mpr
    (List.nodup_cons.mpr ⟨hnew, hdistinct⟩)

/-- A new node that is put into a layer and filtered out again leaves the old nodes. -/
theorem filter_withNode (hdistinct : layer.nodeIds.Nodup) (hnew : newId ∉ layer.nodeIds)
    (index : Nat) :
    (layer.withNode index newId).nodeIds.filter (fun listed => listed != newId) =
      layer.nodeIds := by
  rw [← (nodup_withNode hdistinct hnew index).erase_eq_filter]
  exact Line.insertIdx_erase hnew (Nat.min_le_right index layer.length)

/-- A node that was not the first of a layer is not the first after one more is put in. -/
theorem exists_getElem?_withNode {place : Nat} {id : String}
    (hplace : layer.nodeIds[place]? = some id) (index : Nat) (newId : String) :
    ∃ moved, (layer.withNode index newId).nodeIds[moved]? = some id ∧
      (moved = 0 → place = 0) := by
  rw [withNode]
  by_cases hbefore : place < min index layer.length
  · exact ⟨place, by rw [List.getElem?_insertIdx_of_lt hbefore, hplace],
      fun hzero => hzero⟩
  · refine ⟨place + 1, ?_, fun hzero => absurd hzero (Nat.succ_ne_zero place)⟩
    rw [List.getElem?_insertIdx_of_gt (by omega), Nat.add_sub_cancel, hplace]

end Layer

namespace Graph

variable {graph : Graph R} {index : Nat} {layer : Layer R}

/-- What a node has been given in another line does not matter once it is seated, unless it
was made to add there. -/
theorem seated_seated {line : Layer R} {place earlier : Nat}
    (hfirst : earlier = 0 → place = 0) (node : Node R) :
    seated layer place (seated line earlier node) = seated layer place node := by
  by_cases hzero : place = 0
  · simp [seated, hzero]
  · have hearlier : earlier ≠ 0 := fun heq => hzero (hfirst heq)
    simp [seated, hearlier]

theorem layerIndex?_reline (nodes : Directory (Node R)) (nodeIds : List String) (width : R)
    (id : String) :
    (graph.reline index nodes nodeIds width).layerIndex? id = graph.layerIndex? id := by
  rw [layerIndex?_eq, map_id_reline, ← layerIndex?_eq]

section Added

variable (hlayer : graph.layers[index]? = some layer)
variable (hfirst : graph.layerIndex? layer.id = some index) {newId : String}
include hlayer hfirst

/-- A node that was added to a layer is taken out of that layer. -/
theorem deleteNode_addToLayer_eq (placement : Placement R)
    (hdistinct : (layer.withNode placement.index newId).nodeIds.Nodup) :
    let added := graph.addToLayer newId placement index layer
    let nodeIds := (layer.withNode placement.index newId).nodeIds.filter
      fun listed => listed != newId
    added.deleteNode newId =
      added.reline index (added.nodes.erase newId) nodeIds (Line.width nodeIds.length) := by
  intro added nodeIds
  let line := layer.withNode placement.index newId
  have hplace : line.nodeIds[min placement.index layer.length]? = some newId :=
    List.getElem?_insertIdx_self.trans (if_pos (Nat.min_le_right _ _))
  have hnode : added.node? newId = some (seated line (min placement.index layer.length)
      (newNode newId placement layer (Scalar.ofNat 0))) := by
    have hseated : added.node? newId = _ := node?_reline_listed hlayer hdistinct hplace
    rw [hseated, Directory.get?_insert, if_pos rfl]
    rfl
  have hline : added.layers[index]? = some line := getElem?_reline hlayer
  have howner : added.layerIndex? layer.id = some index :=
    (layerIndex?_reline _ _ _ _).trans hfirst
  obtain ⟨hnone, -⟩ | ⟨other, found, hother, hfound, hdelete⟩ := deleteNode_cases hnode
  · rw [layerOfNode?, show (seated line _ _).layer = layer.id from rfl, howner, Option.some_or]
      at hnone
    exact absurd hnone (by simp)
  · rw [layerOfNode?, show (seated line _ _).layer = layer.id from rfl, howner, Option.some_or,
      Option.some.injEq] at hother
    rw [← hother, hline, Option.some.injEq] at hfound
    rw [hdelete, ← hother, ← hfound]
    rfl

/-- A node that was added to a layer leaves no trace when it is deleted. -/
theorem WellFormed.deleteNode_addToLayer (hgraph : graph.WellFormed)
    (hfresh : graph.node? newId = none) (placement : Placement R) :
    (graph.addToLayer newId placement index layer).deleteNode newId = graph := by
  let added := graph.addToLayer newId placement index layer
  have hmem := List.mem_of_getElem? hlayer
  have hdistinct : layer.nodeIds.Nodup := hgraph.nodup_nodeIds hmem
  have hnew : newId ∉ layer.nodeIds := by
    intro hlisted
    have hstored := (hgraph.listed_iff newId).mp (List.mem_flatMap.mpr ⟨layer, hmem, hlisted⟩)
    rw [hfresh] at hstored
    exact absurd hstored (by simp)
  have honce := Layer.nodup_withNode hdistinct hnew placement.index
  rw [deleteNode_addToLayer_eq hlayer hfirst placement honce,
    Layer.filter_withNode hdistinct hnew, show Line.width layer.nodeIds.length = layer.width from
      (hgraph.widths layer hmem).symm]
  refine reline_eq_of_laidOut hlayer (hgraph.laid_out layer hmem) hdistinct
    (getElem?_reline hlayer) (fun other hother => getElem?_reline_ne hother)
    (fun place id hplace => ?_) fun id hunlisted => ?_
  · -- The node has moved in between, and moves back.
    have hid : id ≠ newId := fun heq => hnew (heq ▸ List.mem_of_getElem? hplace)
    obtain ⟨moved, hmoved, hzero⟩ :=
      Layer.exists_getElem?_withNode hplace placement.index newId
    have hbetween : added.node? id = _ := node?_reline_listed hlayer honce hmoved
    rw [Directory.get?_insert, if_neg hid] at hbetween
    rw [Directory.get?_erase, if_neg hid, show added.nodes.get? id = _ from hbetween,
      Option.map_map]
    exact congrArg₂ Option.map (funext (seated_seated hzero)) rfl
  · rw [Directory.get?_erase]
    split
    · rename_i hid
      rw [hid, hfresh]
    · rename_i hid
      have hmissing : id ∉ (layer.withNode placement.index newId).nodeIds := by
        rw [Layer.mem_withNode, not_or]
        exact ⟨hid, hunlisted⟩
      have hbetween : added.node? id = _ := node?_reline_unlisted hlayer hmissing
      rw [Directory.get?_insert, if_neg hid] at hbetween
      exact hbetween

end Added

/-- Whatever has been done to the empty graph before, a node that is added and then deleted
leaves the graph as it was.  If its layer had to be created, that layer remains after all
others, without nodes. -/
theorem deleteNode_of_addNode (hreaches : Reaches .empty graph) {newId : String}
    (hfresh : graph.node? newId = none) {placement : Placement R} {added : Graph R}
    (hadd : graph.dispatch newId (.addNode placement) = .ok added) (otherId : String) :
    (placement.layer ∈ graph.layers.map Layer.id →
      added.dispatch otherId (.deleteNode newId) = .ok graph) ∧
    (placement.layer ∉ graph.layers.map Layer.id →
      ∃ y, placement.layerY = some y ∧
        added.dispatch otherId (.deleteNode newId) =
          .ok { graph with layers := graph.layers ++ [Layer.empty placement.layer y] }) := by
  have hgraph := wellFormed_of_reaches_empty hreaches
  obtain ⟨-, ⟨index, layer, hid, hfirst, hlayer, rfl⟩ | ⟨y, hy, hnew, rfl⟩⟩ := addNode_eq_ok hadd
  · have hmem : placement.layer ∈ graph.layers.map Layer.id :=
      hid ▸ List.mem_map_of_mem (List.mem_of_getElem? hlayer)
    refine ⟨fun _ => ?_, fun hmissing => absurd hmem hmissing⟩
    rw [dispatch, hgraph.deleteNode_addToLayer hlayer hfirst hfresh]
  · have hmissing := layerIndex?_eq_none_iff.mp hnew
    refine ⟨fun hmem => absurd hmem hmissing, fun _ => ⟨y, hy, ?_⟩⟩
    have hextended := hgraph.addLayer hmissing y
    have hnone : graph.layers.findIdx? (fun layer => layer.id == placement.layer) = none := hnew
    rw [dispatch, hextended.deleteNode_addToLayer (by simp) ?_ hfresh]
    simp [layerIndex?, List.findIdx?_append, Layer.empty, hnone]

/-- A node takes the first place of a layer whose second node multiplies, and goes again;
another one goes from a layer that was created for it. -/
theorem deleteNode_of_addNode_first :
    let placement (label layer : String) (index : Nat) : Placement Float :=
      ⟨label, none, none, none, .constant, some 2, layer, index, some 80⟩
    let graph : Graph Float := (((Graph.empty.after "a" (.addNode (placement "rate" "root" 0))).after
      "b" (.addNode (placement "base" "root" 1))).after "c"
      (.addNode (placement "fee" "root" 2))).after "" (.updateOperand "b" .times)
    let added := graph.after "n" (.addNode (placement "tax" "root" 0))
    let below := graph.after "n" (.addNode (placement "tax" "row" 7))
    Reaches .empty graph ∧ graph.node? "n" = none ∧
      (added.node? "a").map (fun node => (node.x, node.operand)) = some (132, .plus) ∧
      (graph.node? "a").map (fun node => (node.x, node.operand)) = some (44, .plus) ∧
      added.layers = [⟨"root", 80, ["n", "a", "b", "c"], 352⟩] ∧
      added.dispatch "" (.deleteNode "n") = .ok graph ∧
      below.dispatch "" (.deleteNode "n") =
        .ok { graph with layers := graph.layers ++ [⟨"row", 80, [], 240⟩] } := by
  intro placement graph added below
  have hreaches : Reaches .empty graph := by
    refine .step _ _ (.step _ _ (.step _ _ (.step _ _ .refl fun _ _ => rfl) fun _ _ => ?_)
      fun _ _ => ?_) fun _ hadd => ?_
    · decide +kernel
    · decide +kernel
    · exact absurd hadd (by simp)
  have hfresh : graph.node? "n" = none := by decide +kernel
  have hadd (layer : String) (index : Nat) :
      graph.dispatch "n" (.addNode (placement "tax" layer index)) =
        .ok (graph.after "n" (.addNode (placement "tax" layer index))) := by
    obtain ⟨next, hnext, -⟩ := graph.dispatch_addNode "n" (placement "tax" layer index) rfl rfl
    rw [after, hnext]
  have hundone : added.dispatch "" (.deleteNode "n") = .ok graph :=
    (deleteNode_of_addNode hreaches hfresh (hadd "root" 0) "").1 (by decide +kernel)
  obtain ⟨y, hy, hbelow⟩ :=
    (deleteNode_of_addNode hreaches hfresh (hadd "row" 7) "").2 (by decide +kernel)
  rw [← Option.some.inj hy] at hbelow
  refine ⟨hreaches, hfresh, ?_, ?_, ?_, hundone, ?_⟩
  · decide +kernel
  · decide +kernel
  · decide +kernel
  · rw [hbelow]
    have hwidth : (Line.width 0 : Float) = 240 := by decide +kernel
    rw [Layer.empty, hwidth]

end Graph

end DecisionCanvas
