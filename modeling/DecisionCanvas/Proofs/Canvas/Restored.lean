import DecisionCanvas.Canvas.Persisted
import DecisionCanvas.Proofs.Canvas.Layout

/-!
# Restored graphs

Restoring a persisted graph drops from its layers what does not exist, and lays out one
layer after another, so a node stands where it is listed last.  A node that is not listed
stands nowhere.  A graph whose nodes stand in that way is restored from what is kept of it.
-/

namespace DecisionCanvas

variable {R : Type} [Scalar R]

namespace Layer

/-- The slot on which a layer puts a node, the last of several. -/
def slot? (layer : Layer R) (id : String) : Option R :=
  (Graph.places layer).reverse.lookup id

/-- The last layer that lists a node, and its slot there. -/
def lastPlace? : List (Layer R) → String → Option (Layer R × R)
  | [], _ => none
  | layer :: rest, id => (lastPlace? rest id).or ((layer.slot? id).map (Prod.mk layer))

theorem slot?_eq_none_iff {layer : Layer R} {id : String} :
    layer.slot? id = none ↔ id ∉ layer.nodeIds := by
  rw [slot?, List.lookup_eq_none_iff, ← Graph.map_fst_places layer, List.mem_map]
  constructor
  · rintro hnone ⟨pair, hpair, rfl⟩
    exact absurd (hnone pair (List.mem_reverse.mpr hpair)) (by simp)
  · intro hunlisted pair hpair
    refine bne_iff_ne.mpr fun hid => hunlisted ⟨pair, List.mem_reverse.mp hpair, hid.symm⟩

theorem lastPlace?_eq_none_iff {layers : List (Layer R)} {id : String} :
    lastPlace? layers id = none ↔ id ∉ layers.flatMap nodeIds := by
  induction layers with
  | nil => simp [lastPlace?]
  | cons layer rest ih =>
      rw [lastPlace?, Option.or_eq_none_iff, ih, Option.map_eq_none_iff, slot?_eq_none_iff,
        List.flatMap_cons, List.mem_append, not_or, and_comm]

/-- A node is placed by a layer that lists it. -/
theorem mem_of_lastPlace? {layers : List (Layer R)} {id : String} {layer : Layer R} {x : R}
    (hplace : lastPlace? layers id = some (layer, x)) :
    layer ∈ layers ∧ layer.slot? id = some x := by
  induction layers with
  | nil => exact absurd hplace (by simp [lastPlace?])
  | cons first rest ih =>
      rw [lastPlace?, Option.or_eq_some_iff] at hplace
      cases hplace with
      | inl hrest => exact ⟨List.mem_cons_of_mem _ (ih hrest).1, (ih hrest).2⟩
      | inr hfirst =>
          obtain ⟨x', hslot, hpair⟩ := Option.map_eq_some_iff.mp hfirst.2
          cases hpair
          exact ⟨List.mem_cons_self, hslot⟩

end Layer

namespace Node

/-- A node that stands nowhere. -/
def unplaced (node : Node R) : Node R :=
  { node with x := Scalar.ofNat 0, y := Scalar.ofNat 0, layer := "" }

/-- A node at its place, if it has one. -/
def placed : Option (Layer R × R) → Node R → Node R
  | some (layer, x), node => node.stand layer x
  | none, node => node.unplaced

@[simp]
theorem placed_placed (place other : Option (Layer R × R)) (node : Node R) :
    (node.placed other).placed place = node.placed place := by
  cases place <;> cases other <;> rfl

@[simp]
theorem placed_unplaced (place : Option (Layer R × R)) (node : Node R) :
    node.unplaced.placed place = node.placed place :=
  node.placed_placed place none

@[simp]
theorem id_placed (place : Option (Layer R × R)) (node : Node R) :
    (node.placed place).id = node.id := by
  cases place <;> rfl

@[simp]
theorem operand_placed (place : Option (Layer R × R)) (node : Node R) :
    (node.placed place).operand = node.operand := by
  cases place <;> rfl

/-- What is kept of a node is all of it but its place. -/
theorem restoreNode_persist (node : Node R) :
    PersistedGraph.restoreNode node.persist = node.unplaced := rfl

end Node

namespace Graph

omit [Scalar R] in
/-- Whether layers list no other nodes than those that exist. -/
def ListsStored (graph : Graph R) : Prop :=
  ∀ layer ∈ graph.layers, ∀ id ∈ layer.nodeIds, (graph.node? id).isSome = true

/-- A graph as it is restored: nodes are filed under their ids, layers list stored nodes
only, and every node stands where it is listed last. -/
structure Restored (graph : Graph R) : Prop where
  filed_under_id : ∀ id node, graph.node? id = some node → node.id = id
  listed_stored : graph.ListsStored
  stands : ∀ id node, graph.node? id = some node →
    node = node.placed (Layer.lastPlace? graph.layers id)

/-- Seating the nodes of all layers moves each to its last place. -/
theorem get?_foldl_seat (layers : List (Layer R)) (nodes : Directory (Node R)) (id : String) :
    (layers.foldl (fun nodes layer => seat layer (places layer) nodes) nodes).get? id =
      match Layer.lastPlace? layers id with
      | some (layer, x) => (nodes.get? id).map (Node.stand layer x)
      | none => nodes.get? id := by
  induction layers generalizing nodes with
  | nil => rfl
  | cons layer rest ih =>
      rw [List.foldl_cons, ih, get?_seat, Layer.lastPlace?, Layer.slot?]
      cases Layer.lastPlace? rest id with
      | none => cases (places layer).reverse.lookup id <;> rfl
      | some place =>
          cases (places layer).reverse.lookup id with
          | none => rfl
          | some x => exact Option.map_map _ _ _

/-- Laying out the first of the layers seats their nodes. -/
theorem foldl_layOut (nodes : Directory (Node R)) (layers : List (Layer R)) (count : Nat) :
    (List.range count).foldl layOut ⟨nodes, layers⟩ =
      ⟨(layers.take count).foldl (fun nodes layer => seat layer (places layer) nodes) nodes,
        layers⟩ := by
  induction count with
  | zero => rfl
  | succ count ih =>
      rw [List.range_succ, List.foldl_append, ih, List.take_add_one, List.foldl_append,
        List.foldl_cons, List.foldl_nil, layOut]
      cases layers[count]? <;> rfl

end Graph

namespace PersistedGraph

variable (graph : PersistedGraph R)

theorem restore_eq : graph.restore =
    ⟨(graph.layers.map (restoreLayer graph.restoreNodes)).foldl
      (fun nodes layer => Graph.seat layer (Graph.places layer) nodes) graph.restoreNodes,
      graph.layers.map (restoreLayer graph.restoreNodes)⟩ := by
  rw [restore, Graph.foldl_layOut, List.take_length]

theorem layers_restore :
    graph.restore.layers = graph.layers.map (restoreLayer graph.restoreNodes) := by
  rw [restore_eq]

/-- Of the nodes that share an id the last one is restored. -/
theorem get?_restoreNodes (id : String) :
    graph.restoreNodes.get? id =
      (graph.nodes.map fun node => (node.id, restoreNode node)).reverse.lookup id := by
  rw [restoreNodes, Directory.get?_ofList]

theorem exists_of_restoreNodes {id : String} {node : Node R}
    (hnode : graph.restoreNodes.get? id = some node) :
    ∃ kept ∈ graph.nodes, kept.id = id ∧ restoreNode kept = node := by
  rw [get?_restoreNodes, List.lookup_eq_some_iff] at hnode
  obtain ⟨before, after, hpairs, -⟩ := hnode
  have hmem : (id, node) ∈ graph.nodes.map fun node => (node.id, restoreNode node) := by
    rw [← List.mem_reverse, hpairs]
    exact List.mem_append_right _ List.mem_cons_self
  obtain ⟨kept, hkept, hpair⟩ := List.mem_map.mp hmem
  rw [Prod.mk.injEq] at hpair
  exact ⟨kept, hkept, hpair⟩

/-- A restored node has its content from the node that was kept and its place from the
layers. -/
theorem node?_restore (id : String) :
    graph.restore.node? id =
      (graph.restoreNodes.get? id).map
        (Node.placed (Layer.lastPlace? graph.restore.layers id)) := by
  rw [layers_restore, Graph.node?, restore_eq, Graph.get?_foldl_seat]
  cases Layer.lastPlace? (graph.layers.map (restoreLayer graph.restoreNodes)) id with
  | some place => rfl
  | none =>
      cases hnode : graph.restoreNodes.get? id with
      | none => rfl
      | some node =>
          obtain ⟨kept, -, -, rfl⟩ := graph.exists_of_restoreNodes hnode
          rfl

theorem isSome_node?_restore (id : String) :
    (graph.restore.node? id).isSome = graph.restoreNodes.contains id := by
  rw [node?_restore, Option.isSome_map, Directory.contains]

theorem restored_restore : graph.restore.Restored where
  filed_under_id := by
    intro id node hnode
    rw [node?_restore] at hnode
    obtain ⟨original, horiginal, rfl⟩ := Option.map_eq_some_iff.mp hnode
    obtain ⟨kept, -, rfl, rfl⟩ := graph.exists_of_restoreNodes horiginal
    rw [Node.id_placed]
    rfl
  listed_stored := by
    intro layer hlayer id hid
    rw [layers_restore] at hlayer
    obtain ⟨kept, -, rfl⟩ := List.mem_map.mp hlayer
    rw [isSome_node?_restore]
    exact (List.mem_filter.mp hid).2
  stands := by
    intro id node hnode
    rw [node?_restore] at hnode
    obtain ⟨original, -, rfl⟩ := Option.map_eq_some_iff.mp hnode
    rw [Node.placed_placed]

end PersistedGraph

namespace Graph

variable {graph : Graph R}

/-- Of the nodes of a graph those are restored that have been kept. -/
theorem get?_restoreNodes_of_sublist
    (hfiled : ∀ id node, graph.node? id = some node → node.id = id)
    {kept : PersistedGraph R} (hkept : kept.nodes.Sublist graph.persist.nodes) (id : String) :
    kept.restoreNodes.get? id =
      if id ∈ kept.nodes.map PersistedNode.id then (graph.node? id).map Node.unplaced
      else none := by
  have hids : graph.persist.nodes.map PersistedNode.id = graph.nodes.entries.map Prod.fst := by
    rw [persist, Directory.values, List.map_map, List.map_map]
    refine List.map_congr_left fun pair hpair => ?_
    exact hfiled pair.1 pair.2 (Directory.mem_entries_iff.mp hpair)
  have hdistinct : ((kept.nodes.map fun node =>
      (node.id, PersistedGraph.restoreNode node)).map Prod.fst).Nodup := by
    rw [List.map_map]
    have hnodup := graph.nodes.keys_nodup
    rw [← hids] at hnodup
    exact hnodup.sublist (hkept.map PersistedNode.id)
  rw [PersistedGraph.get?_restoreNodes]
  by_cases hid : id ∈ kept.nodes.map PersistedNode.id
  · obtain ⟨persisted, hpersisted, rfl⟩ := List.mem_map.mp hid
    obtain ⟨node, hnode, rfl⟩ := List.mem_map.mp (hkept.subset hpersisted)
    obtain ⟨pair, hpair, rfl⟩ := List.mem_map.mp hnode
    have hfound : graph.node? pair.1 = some pair.2 := Directory.mem_entries_iff.mp hpair
    have hown : pair.2.persist.id = pair.1 := hfiled pair.1 pair.2 hfound
    rw [if_pos hid, hown, hfound]
    refine lookup_reverse_of_mem hdistinct (List.mem_map.mpr ⟨pair.2.persist, hpersisted, ?_⟩)
    rw [hown, Node.restoreNode_persist]
  · rw [if_neg hid]
    refine lookup_reverse_of_notMem fun hmem => hid ?_
    rw [List.map_map] at hmem
    exact hmem

omit [Scalar R] in
theorem mem_ids_persist (hfiled : ∀ id node, graph.node? id = some node → node.id = id)
    {id : String} {node : Node R} (hnode : graph.node? id = some node) :
    id ∈ graph.persist.nodes.map PersistedNode.id := by
  have hmem : node ∈ graph.nodes.values :=
    List.mem_map.mpr ⟨(id, node), Directory.mem_entries_iff.mpr hnode, rfl⟩
  refine List.mem_map.mpr ⟨node.persist, List.mem_map_of_mem hmem, ?_⟩
  exact hfiled id node hnode

/-- Nothing is lost when a graph is persisted and restored. -/
theorem Restored.restore_persist (hgraph : graph.Restored) : graph.persist.restore = graph := by
  have hnodes (id : String) :
      graph.persist.restoreNodes.get? id = (graph.node? id).map Node.unplaced := by
    rw [get?_restoreNodes_of_sublist hgraph.filed_under_id (List.Sublist.refl _)]
    cases hnode : graph.node? id with
    | none => rw [Option.map_none, ite_self]
    | some node => rw [if_pos (mem_ids_persist hgraph.filed_under_id hnode)]
  have hlayers : graph.persist.restore.layers = graph.layers := by
    rw [PersistedGraph.layers_restore, persist, List.map_map]
    refine (List.map_congr_left fun layer hlayer => ?_).trans (List.map_id _)
    have hall : layer.nodeIds.filter graph.persist.restoreNodes.contains = layer.nodeIds := by
      refine List.filter_eq_self.mpr fun id hid => ?_
      rw [Directory.contains, hnodes, Option.isSome_map]
      exact hgraph.listed_stored layer hlayer id hid
    exact congrArg (fun nodeIds => (⟨layer.id, layer.y, nodeIds, layer.width⟩ : Layer R)) hall
  have hsame : graph.persist.restore.nodes = graph.nodes := by
    refine Directory.ext_get? fun id => ?_
    have hrestored := graph.persist.node?_restore id
    rw [hlayers, hnodes, Option.map_map] at hrestored
    refine hrestored.trans ?_
    cases hnode : graph.node? id with
    | none => exact hnode.symm
    | some node =>
        rw [Option.map_some, Function.comp_apply, Node.placed_unplaced,
          ← hgraph.stands id node hnode]
        exact hnode.symm
  exact congrArg₂ Graph.mk hsame hlayers

/-- The graphs that are restored from anything at all are those that are restored from what is
kept of them. -/
theorem restored_iff_restore_persist : graph.Restored ↔ graph.persist.restore = graph := by
  constructor
  · exact Restored.restore_persist
  · intro hsame
    rw [← hsame]
    exact graph.persist.restored_restore

end Graph

namespace PersistedGraph

/-- Restoring normalizes in one step, however nodes are repeated, listed or missing. -/
theorem restore_persist_restore (graph : PersistedGraph R) :
    graph.restore.persist.restore = graph.restore :=
  Graph.restored_iff_restore_persist.mp graph.restored_restore

/-- Of two layers that list a node the last one places it, on its last slot there, and of two
nodes with one id the last one is restored. -/
example :
    let node (id label : String) : PersistedNode Float :=
      ⟨id, label, .constant, some 2, .plus, none, none, none⟩
    let graph : PersistedGraph Float :=
      ⟨[⟨"root", 80, ["a", "lost"], 500⟩, ⟨"root", 180, ["a", "b", "a"], 90⟩],
        [node "a" "rate", node "b" "base", node "a" "tax"]⟩
    graph.restore.layers = [⟨"root", 80, ["a"], 500⟩, ⟨"root", 180, ["a", "b", "a"], 90⟩] ∧
      (graph.restore.node? "a").map (fun node => (node.label, node.x, node.y)) =
        some ("tax", 75, 180) := by
  decide +kernel

end PersistedGraph

end DecisionCanvas
