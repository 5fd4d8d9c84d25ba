import DecisionCanvas.Proofs.Canvas.Ownership

/-!
# Graphs that are loaded again

A graph may be persisted and restored at any time, and nothing is lost.  If nodes get lost
in between, layers keep the order of those that are left, but also the width they had and
the operands of their nodes, which need not be those of a layer that actions have led to.
-/

namespace DecisionCanvas

variable {R : Type}

namespace Graph

/-- With distinct ids and no node listed twice every layer owns its nodes. -/
theorem listsApart_of_distinct {graph : Graph R}
    (hids : (graph.layers.map Layer.id).Nodup) (hlisted : graph.listed.Nodup) :
    graph.ListsApart := by
  intro index layer hlayer id hid
  constructor
  · obtain ⟨found, hindex⟩ :=
      exists_layerIndex?_of_mem (List.mem_map_of_mem (List.mem_of_getElem? hlayer))
    obtain ⟨other, hother, hat⟩ := exists_of_layerIndex? hindex
    have hfound : (graph.layers.map Layer.id)[found]? = some layer.id := by
      rw [List.getElem?_map, hat, Option.map_some, id_of_layer? hother]
    have hown : (graph.layers.map Layer.id)[index]? = some layer.id := by
      rw [List.getElem?_map, hlayer, Option.map_some]
    have hlt := (List.getElem?_eq_some_iff.mp hfound).1
    rw [hindex, (List.getElem?_inj hlt hids).mp (hfound.trans hown.symm)]
  · have honce := (listed_perm hlayer).nodup_iff.mp hlisted
    exact fun helsewhere => (List.nodup_append.mp honce).2.2 id hid id helsewhere rfl

end Graph

variable [Scalar R]

namespace PersistedGraph

/-- Restoring drops layers' entries only. -/
theorem listed_restore (graph : PersistedGraph R) : graph.restore.listed =
    (graph.layers.flatMap PersistedLayer.nodeIds).filter graph.restoreNodes.contains := by
  rw [Graph.listed, layers_restore, List.flatMap_map, List.filter_flatMap]
  rfl

theorem listsApart_restore {graph : PersistedGraph R}
    (hids : (graph.layers.map PersistedLayer.id).Nodup)
    (hlisted : (graph.layers.flatMap PersistedLayer.nodeIds).Nodup) :
    graph.restore.ListsApart := by
  apply Graph.listsApart_of_distinct
  · rw [layers_restore, List.map_map]
    exact hids
  · rw [listed_restore]
    exact hlisted.filter _

/-- From a persisted graph with distinct layers, in which no node is listed twice, actions
lead to graphs of which nothing is lost when they are persisted and restored. -/
theorem restore_persist_of_reaches {graph : PersistedGraph R}
    (hids : (graph.layers.map PersistedLayer.id).Nodup)
    (hlisted : (graph.layers.flatMap PersistedLayer.nodeIds).Nodup) {reached : Graph R}
    (hreaches : Graph.Reaches graph.restore reached) : reached.persist.restore = reached := by
  have hstart : graph.restore.Settled :=
    ⟨graph.restored_restore, listsApart_restore hids hlisted⟩
  exact (hreaches.preserves_settled hstart).restore_persist

/-- A layer of another width than its nodes need lists a node that is missing and one that
is stored twice, and two nodes are listed nowhere.  One of these is deleted, which gives the
layer that has the empty id its proper width. -/
theorem restore_persist_of_unlisted_deleted :
    let node (id label : String) : PersistedNode Float :=
      ⟨id, label, .constant, some 2, .times, none, none, none⟩
    let graph : PersistedGraph Float :=
      ⟨[⟨"", 80, ["b", "lost", "a"], 500⟩],
        [node "a" "rate", node "b" "base", node "c" "fee", node "d" "toll", node "a" "tax"]⟩
    let reached := (graph.restore.after "" (.updateOperand "a" .minus)).after ""
      (.deleteNode "c")
    (graph.layers.map PersistedLayer.id).Nodup ∧
      (graph.layers.flatMap PersistedLayer.nodeIds).Nodup ∧
      graph.restore.layers = [⟨"", 80, ["b", "a"], 500⟩] ∧
      reached.layers = [⟨"", 80, ["b", "a"], 240⟩] ∧
      (reached.node? "a").map Node.label = some "tax" ∧
      (reached.node? "d").map Node.x = some 0 ∧ reached.persist.restore = reached := by
  intro node graph reached
  have hids : (graph.layers.map PersistedLayer.id).Nodup := by decide
  have hlisted : (graph.layers.flatMap PersistedLayer.nodeIds).Nodup := by decide
  have hreaches : Graph.Reaches graph.restore reached :=
    .step _ _ (.step _ _ .refl fun _ hadd => absurd hadd (by simp)) fun _ hadd =>
      absurd hadd (by simp)
  refine ⟨hids, hlisted, ?_, ?_, ?_, ?_, restore_persist_of_reaches hids hlisted hreaches⟩
  · decide +kernel
  · decide +kernel
  · decide +kernel
  · decide +kernel

end PersistedGraph

/-! ## Missing nodes -/

namespace Layer

omit [Scalar R] in
/-- The nodes of a layer that have been kept. -/
def survivors (kept : List (PersistedNode R)) (layer : Layer R) : List String :=
  layer.nodeIds.filter fun id => (kept.map PersistedNode.id).contains id

end Layer

namespace Graph

omit [Scalar R] in
/-- Whether the first node of every layer adds. -/
def FirstNodesAdd (graph : Graph R) : Prop :=
  ∀ layer ∈ graph.layers, ∀ id, layer.nodeIds.head? = some id →
    (graph.node? id).map Node.operand = some .plus

/-- Whether every layer has the width for the number of its nodes. -/
def WidthsFit (graph : Graph R) : Prop :=
  ∀ layer ∈ graph.layers, layer.width = Line.width layer.length

variable {graph : Graph R} {kept : List (PersistedNode R)}

theorem layers_restore_kept (hgraph : graph.WellFormed)
    (hkept : kept.Sublist graph.persist.nodes) :
    (PersistedGraph.restore ⟨graph.persist.layers, kept⟩).layers =
      graph.layers.map fun layer => { layer with nodeIds := layer.survivors kept } := by
  have hlisted (layer : Layer R) (hlayer : layer ∈ graph.layers) :
      layer.nodeIds.filter (PersistedGraph.restoreNodes ⟨graph.persist.layers, kept⟩).contains =
        layer.survivors kept := by
    refine List.filter_congr fun id hid => ?_
    have hstored := (hgraph.listed_iff id).mp (List.mem_flatMap.mpr ⟨layer, hlayer, hid⟩)
    rw [Directory.contains, get?_restoreNodes_of_sublist hgraph.filed_under_id hkept]
    by_cases hsurvives : id ∈ kept.map PersistedNode.id
    · rw [if_pos hsurvives, Option.isSome_map, hstored, List.contains_iff_mem.mpr hsurvives]
    · rw [if_neg hsurvives, Option.isSome_none]
      exact (by simpa using hsurvives : (kept.map PersistedNode.id).contains id = false).symm
  rw [PersistedGraph.layers_restore, persist, List.map_map]
  refine List.map_congr_left fun layer hlayer => ?_
  exact congrArg (fun nodeIds => (⟨layer.id, layer.y, nodeIds, layer.width⟩ : Layer R))
    (hlisted layer hlayer)

/-- A node that has been kept is restored with its operand. -/
theorem operand_restore_kept (hgraph : graph.WellFormed)
    (hkept : kept.Sublist graph.persist.nodes) {id : String}
    (hid : id ∈ kept.map PersistedNode.id) :
    ((PersistedGraph.restore ⟨graph.persist.layers, kept⟩).node? id).map Node.operand =
      (graph.node? id).map Node.operand := by
  rw [PersistedGraph.node?_restore, get?_restoreNodes_of_sublist hgraph.filed_under_id hkept,
    if_pos hid, Option.map_map, Option.map_map]
  congr 1
  funext node
  exact Node.operand_placed _ _

/-- A graph that was made by actions and has lost nodes is restored with the survivors of
each layer in their order.  The rules for layers hold again exactly if the first survivor of
each layer has been adding and the width of the layer is that for its survivors. -/
theorem restore_missing_nodes (hreaches : Reaches .empty graph)
    (hkept : kept.Sublist graph.persist.nodes) :
    let restored := PersistedGraph.restore ⟨graph.persist.layers, kept⟩
    restored.layers =
        graph.layers.map (fun layer => { layer with nodeIds := layer.survivors kept }) ∧
      restored.ListsStored ∧
      (restored.FirstNodesAdd ↔ ∀ layer ∈ graph.layers, ∀ id,
        (layer.survivors kept).head? = some id →
          (graph.node? id).map Node.operand = some .plus) ∧
      (restored.WidthsFit ↔ ∀ layer ∈ graph.layers,
        Line.width (R := R) layer.length = Line.width (layer.survivors kept).length) := by
  intro restored
  have hgraph := wellFormed_of_reaches_empty hreaches
  have hlayers := layers_restore_kept hgraph hkept
  refine ⟨hlayers, (PersistedGraph.restored_restore _).listed_stored, ?_, ?_⟩
  · rw [FirstNodesAdd, hlayers, List.forall_mem_map]
    refine forall₂_congr fun layer hlayer => forall₂_congr fun id hhead => ?_
    have hsurvives : id ∈ kept.map PersistedNode.id := by
      have hmem := (List.mem_filter.mp (List.mem_of_head? hhead)).2
      exact List.contains_iff_mem.mp hmem
    rw [operand_restore_kept hgraph hkept hsurvives]
  · rw [WidthsFit, hlayers, List.forall_mem_map]
    refine forall₂_congr fun layer hlayer => ?_
    rw [← hgraph.widths layer hlayer]
    rfl

/-- Of two nodes in a layer the second one is missing, and the rules for layers hold. -/
theorem restore_missing_nodes_second :
    let placement (label : String) (index : Nat) : Placement Float :=
      ⟨label, none, none, none, .constant, some 2, "root", index, some 80⟩
    let graph : Graph Float := ((Graph.empty.after "a" (.addNode (placement "base" 0))).after "b"
      (.addNode (placement "rate" 1))).after "" (.updateOperand "b" .times)
    let kept := graph.persist.nodes.filter fun node => node.id == "a"
    let restored := PersistedGraph.restore ⟨graph.persist.layers, kept⟩
    Reaches .empty graph ∧ kept.Sublist graph.persist.nodes ∧
      restored.layers = [⟨"root", 80, ["a"], 240⟩] ∧ restored.FirstNodesAdd ∧
      restored.WidthsFit := by
  intro placement graph kept restored
  have hreaches : Reaches .empty graph := by
    refine .step _ _ (.step _ _ (.step _ _ .refl fun _ _ => rfl) fun _ _ => ?_) fun _ hadd => ?_
    · decide +kernel
    · exact absurd hadd (by simp)
  have hkept : kept.Sublist graph.persist.nodes := List.filter_sublist
  have hlayers : graph.layers = [⟨"root", 80, ["a", "b"], 240⟩] := by decide +kernel
  have hsurvivors : ∀ layer ∈ graph.layers, layer.survivors kept = ["a"] := by
    rw [hlayers]
    decide +kernel
  have hoperand : (graph.node? "a").map Node.operand = some .plus := by decide +kernel
  obtain ⟨hrestored, -, hfirst, hwidths⟩ := restore_missing_nodes hreaches hkept
  refine ⟨hreaches, hkept, ?_, hfirst.mpr ?_, hwidths.mpr ?_⟩
  · refine hrestored.trans ?_
    rw [hlayers, List.map_singleton, hsurvivors _ (hlayers ▸ List.mem_singleton_self _)]
  · intro layer hlayer id hhead
    rw [hsurvivors layer hlayer, List.head?_cons, Option.some.injEq] at hhead
    rw [← hhead]
    exact hoperand
  · intro layer hlayer
    have hroot := hlayer
    rw [hlayers, List.mem_singleton] at hroot
    rw [hsurvivors layer hlayer, hroot]
    decide +kernel

/-- If the first of three nodes is missing, the layer starts with a node that multiplies,
and is as wide as before. -/
theorem restored_without_first_node :
    let placement (label : String) (index : Nat) : Placement Float :=
      ⟨label, none, none, none, .constant, some 2, "root", index, some 80⟩
    let graph : Graph Float := (((Graph.empty.after "a" (.addNode (placement "base" 0))).after "b"
      (.addNode (placement "rate" 1))).after "c" (.addNode (placement "fee" 2))).after ""
        (.updateOperand "b" .times)
    let kept := graph.persist.nodes.filter fun node => node.id != "a"
    let restored := PersistedGraph.restore ⟨graph.persist.layers, kept⟩
    Reaches .empty graph ∧ kept.Sublist graph.persist.nodes ∧
      restored.layers = [⟨"root", 80, ["b", "c"], 264⟩] ∧
      (restored.node? "b").map Node.operand = some .times ∧ ¬ restored.FirstNodesAdd ∧
      ¬ restored.WidthsFit := by
  intro placement graph kept restored
  have hreaches : Reaches .empty graph := by
    refine .step _ _ (.step _ _ (.step _ _ (.step _ _ .refl fun _ _ => rfl) fun _ _ => ?_)
      fun _ _ => ?_) fun _ hadd => ?_
    · decide +kernel
    · decide +kernel
    · exact absurd hadd (by simp)
  have hlayers : restored.layers = [⟨"root", 80, ["b", "c"], 264⟩] := by decide +kernel
  have hoperand : (restored.node? "b").map Node.operand = some .times := by decide +kernel
  have hroot : ⟨"root", 80, ["b", "c"], 264⟩ ∈ restored.layers :=
    hlayers ▸ List.mem_singleton_self _
  refine ⟨hreaches, List.filter_sublist, hlayers, hoperand, fun hfirst => ?_, fun hwidths => ?_⟩
  · have hplus := hfirst _ hroot "b" rfl
    rw [hoperand] at hplus
    exact absurd hplus (by decide)
  · have hwidth : (264 : Float) = Line.width 2 := hwidths _ hroot
    exact absurd hwidth (by decide +kernel)

end Graph

end DecisionCanvas
