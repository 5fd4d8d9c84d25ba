import DecisionCanvas.Proofs.Canvas.Lines

/-!
# Graphs that actions lead to

Nodes and layers describe the same graph twice.  Actions keep the two in agreement: every
node is listed once, by the layer it belongs to, and stands in the slot of its place.
-/

namespace DecisionCanvas

namespace Graph

variable {R : Type} [Scalar R]

/-- A graph whose nodes and layers agree. -/
structure WellFormed (graph : Graph R) : Prop where
  layer_ids_distinct : (graph.layers.map Layer.id).Nodup
  filed_under_id : ∀ id node, graph.node? id = some node → node.id = id
  listed_once : graph.listed.Nodup
  listed_iff : ∀ id, id ∈ graph.listed ↔ (graph.node? id).isSome = true
  laid_out : ∀ layer ∈ graph.layers, graph.LaidOut layer
  widths : ∀ layer ∈ graph.layers, layer.width = Line.width layer.length
  bindings_complete : ∀ id node, graph.node? id = some node →
    node.scope.isSome = node.factType.isSome

/-- The graph after an action was tried; a refused one changes nothing. -/
def after (graph : Graph R) (newId : String) (action : Action R) : Graph R :=
  match graph.dispatch newId action with
  | .ok next => next
  | .error _ => graph

/-- The graphs that actions lead to, if every added node gets an id that no node has. -/
inductive Reaches (start : Graph R) : Graph R → Prop
  | refl : Reaches start start
  | step {graph : Graph R} (newId : String) (action : Action R) : Reaches start graph →
      (∀ placement, action = .addNode placement → graph.node? newId = none) →
      Reaches start (graph.after newId action)

/-! ## One layer changes -/

namespace WellFormed

variable {graph : Graph R} {index : Nat} {layer : Layer R}

theorem empty : (Graph.empty : Graph R).WellFormed where
  layer_ids_distinct := List.nodup_nil
  filed_under_id := by simp [Graph.empty, node?]
  listed_once := List.nodup_nil
  listed_iff := by simp [Graph.empty, node?, listed]
  laid_out := by simp [Graph.empty]
  widths := by simp [Graph.empty]
  bindings_complete := by simp [Graph.empty, node?]

theorem nodup_nodeIds (hgraph : graph.WellFormed) (hlayer : layer ∈ graph.layers) :
    layer.nodeIds.Nodup :=
  (List.nodup_flatMap.mp hgraph.listed_once).1 layer hlayer

/-- A layer may be given another list if the nodes of all lists together are then the
stored ones, each once, and those of other layers have not changed. -/
theorem relist (hgraph : graph.WellFormed) (hlayer : graph.layers[index]? = some layer)
    {nodes : Directory (Node R)} {nodeIds : List String}
    (hfiled : ∀ id node, nodes.get? id = some node →
      node.id = id ∧ node.scope.isSome = node.factType.isSome)
    (honce : (nodeIds ++ graph.elsewhere index).Nodup)
    (hstored : ∀ id, id ∈ nodeIds ++ graph.elsewhere index ↔ (nodes.get? id).isSome = true)
    (hkept : ∀ id ∈ graph.elsewhere index, nodes.get? id = graph.node? id) :
    ({ graph with nodes := nodes }.relist index nodeIds).WellFormed := by
  change (graph.reline index nodes nodeIds (Line.width nodeIds.length)).WellFormed
  have hlisted : (graph.reline index nodes nodeIds (Line.width nodeIds.length)).listed.Perm
      (nodeIds ++ graph.elsewhere index) := listed_reline_perm hlayer
  have hnode : ∀ id node,
      (graph.reline index nodes nodeIds (Line.width nodeIds.length)).node? id = some node →
        node.id = id ∧ node.scope.isSome = node.factType.isSome := by
    intro id node hfound
    obtain ⟨original, horiginal, hsame⟩ := of_node?_settle hfound
    rw [hsame]
    exact hfiled id original horiginal
  refine ⟨?_, fun id node hfound => (hnode id node hfound).1, hlisted.nodup_iff.mpr honce,
    fun id => ?_, fun shown hshown => ?_, fun shown hshown => ?_,
    fun id node hfound => (hnode id node hfound).2⟩
  · rw [map_id_reline]
    exact hgraph.layer_ids_distinct
  · rw [hlisted.mem_iff, hstored, reline, isSome_node?_settle]
    rfl
  · obtain ⟨other, hother⟩ := List.mem_iff_getElem?.mp hshown
    obtain ⟨rfl, rfl⟩ | ⟨hindex, hheld⟩ := getElem?_reline_cases hlayer hother
    · exact laidOut_reline hlayer (List.nodup_append.mp honce).1
        fun id hid => (hstored id).mp (List.mem_append_left _ hid)
    · exact (hgraph.laid_out shown (List.mem_of_getElem? hheld)).reline hlayer hindex hheld
        honce hkept
  · obtain ⟨other, hother⟩ := List.mem_iff_getElem?.mp hshown
    obtain ⟨rfl, rfl⟩ | ⟨-, hheld⟩ := getElem?_reline_cases hlayer hother
    · rfl
    · exact hgraph.widths shown (List.mem_of_getElem? hheld)

/-- A node may change in everything but its place, unless it is the first of a layer and
would no longer add. -/
theorem modifyNode (hgraph : graph.WellFormed) (id : String) {change : Node R → Node R}
    (hkeeps : ∀ node, change node = { node with
      label := (change node).label, constant := (change node).constant,
      operand := (change node).operand })
    (hfirst : ∀ layer ∈ graph.layers, layer.nodeIds.head? = some id →
      ∀ node, (change node).operand = node.operand) :
    ({ graph with nodes := graph.nodes.modify id change } : Graph R).WellFormed := by
  have hnode : ∀ other, ({ graph with nodes := graph.nodes.modify id change } : Graph R).node?
      other = if other = id then (graph.node? other).map change else graph.node? other :=
    fun other => Directory.get?_modify _ _ _ _
  have horiginal : ∀ other node,
      ({ graph with nodes := graph.nodes.modify id change } : Graph R).node? other = some node →
      ∃ original, graph.node? other = some original ∧ node.id = original.id ∧
        node.scope = original.scope ∧ node.factType = original.factType := by
    intro other node hfound
    rw [hnode] at hfound
    split at hfound
    · obtain ⟨original, hstored, rfl⟩ := Option.map_eq_some_iff.mp hfound
      refine ⟨original, hstored, ?_⟩
      rw [hkeeps original]
      exact ⟨rfl, rfl, rfl⟩
    · exact ⟨node, hfound, rfl, rfl, rfl⟩
  refine ⟨hgraph.layer_ids_distinct, ?_, hgraph.listed_once, ?_, ?_, hgraph.widths, ?_⟩
  · intro other node hfound
    obtain ⟨original, hstored, hid, -⟩ := horiginal other node hfound
    exact hid.trans (hgraph.filed_under_id other original hstored)
  · intro other
    have hsome : (({ graph with nodes := graph.nodes.modify id change } : Graph R).node?
        other).isSome = (graph.node? other).isSome := by
      rw [hnode]
      split <;> simp
    rw [hsome]
    exact hgraph.listed_iff other
  · intro layer hlayer
    exact (hgraph.laid_out layer hlayer).modifyNode id hkeeps (hfirst layer hlayer)
  · intro other node hfound
    obtain ⟨original, hstored, -, hscope, htype⟩ := horiginal other node hfound
    rw [hscope, htype]
    exact hgraph.bindings_complete other original hstored

/-! ## Actions -/

theorem addToLayer (hgraph : graph.WellFormed) (hlayer : graph.layers[index]? = some layer)
    {newId : String} (hfresh : graph.node? newId = none) {placement : Placement R}
    (hbinding : placement.scope.isSome = placement.factType.isSome) :
    (graph.addToLayer newId placement index layer).WellFormed := by
  let nodeIds := layer.nodeIds.insertIdx (min placement.index layer.length) newId
  have hperm : (nodeIds ++ graph.elsewhere index).Perm (newId :: graph.listed) :=
    insertIdx_elsewhere_perm hlayer placement.index newId
  have hnew : newId ∉ graph.listed := by
    rw [hgraph.listed_iff, hfresh]
    simp
  refine hgraph.relist hlayer (fun id node hfound => ?_) ?_ (fun id => ?_) fun id hid => ?_
  · rw [Directory.get?_insert] at hfound
    split at hfound
    · rename_i hid
      rw [← Option.some.inj hfound, hid]
      exact ⟨rfl, hbinding⟩
    · exact ⟨hgraph.filed_under_id id node hfound, hgraph.bindings_complete id node hfound⟩
  · exact hperm.nodup_iff.mpr (List.nodup_cons.mpr ⟨hnew, hgraph.listed_once⟩)
  · rw [hperm.mem_iff, List.mem_cons, hgraph.listed_iff, Directory.get?_insert]
    by_cases hid : id = newId
    · simp [hid]
    · simp only [hid, false_or, if_false]
      rfl
  · have hold : id ∈ graph.listed :=
      (listed_perm hlayer).mem_iff.mpr (List.mem_append_right _ hid)
    have hne : id ≠ newId := fun heq => hnew (heq ▸ hold)
    rw [Directory.get?_insert, if_neg hne]
    rfl

/-- A layer without nodes may be added under a new id. -/
theorem addLayer (hgraph : graph.WellFormed) {id : String}
    (hnew : id ∉ graph.layers.map Layer.id) (y : R) :
    ({ graph with layers := graph.layers ++ [Layer.empty id y] } : Graph R).WellFormed := by
  have hlisted : ({ graph with layers := graph.layers ++ [Layer.empty id y] } :
      Graph R).listed = graph.listed := by
    simp [listed, Layer.empty]
  refine ⟨?_, hgraph.filed_under_id, ?_, ?_, ?_, ?_, hgraph.bindings_complete⟩
  · rw [List.map_append]
    refine List.nodup_append.mpr ⟨hgraph.layer_ids_distinct, List.nodup_singleton _, ?_⟩
    intro held hheld other hother heq
    rw [List.mem_singleton.mp hother] at heq
    have hid : held = id := heq
    exact hnew (hid ▸ hheld)
  · rw [hlisted]
    exact hgraph.listed_once
  · intro node
    rw [hlisted]
    exact hgraph.listed_iff node
  · intro layer hlayer
    cases List.mem_append.mp hlayer with
    | inl hlayer => exact hgraph.laid_out layer hlayer
    | inr hlayer =>
        rw [List.mem_singleton.mp hlayer]
        intro place node hplace
        simp [Layer.empty] at hplace
  · intro layer hlayer
    cases List.mem_append.mp hlayer with
    | inl hlayer => exact hgraph.widths layer hlayer
    | inr hlayer =>
        rw [List.mem_singleton.mp hlayer]
        rfl

theorem addNode (hgraph : graph.WellFormed) {newId : String} {placement : Placement R}
    (hfresh : graph.node? newId = none) {next : Graph R}
    (hadd : graph.addNode newId placement = .ok next) : next.WellFormed := by
  obtain ⟨hbinding, ⟨index, layer, -, -, hlayer, rfl⟩ | ⟨y, -, hnew, rfl⟩⟩ := addNode_eq_ok hadd
  · exact hgraph.addToLayer hlayer hfresh hbinding
  · refine (hgraph.addLayer (layerIndex?_eq_none_iff.mp hnew) y).addToLayer ?_ hfresh hbinding
    simp

theorem reorderLayer (hgraph : graph.WellFormed) {id : String} {nodeIds : List String}
    {next : Graph R} (hreorder : graph.reorderLayer id nodeIds = .ok next) :
    next.WellFormed := by
  obtain ⟨index, layer, -, -, hlayer, hperm, rfl⟩ := reorderLayer_eq_ok hreorder
  -- The width that is held is the width for the new order as well.
  have hwidth : layer.width = Line.width nodeIds.length := by
    rw [hgraph.widths layer (List.mem_of_getElem? hlayer), Layer.length, hperm.length_eq]
  have hall := (hperm.append_right (graph.elsewhere index)).trans (listed_perm hlayer).symm
  rw [hwidth]
  refine hgraph.relist hlayer (fun id node hstored => ?_) ?_ (fun id => ?_) fun _ _ => rfl
  · exact ⟨hgraph.filed_under_id id node hstored, hgraph.bindings_complete id node hstored⟩
  · exact hall.nodup_iff.mpr hgraph.listed_once
  · rw [hall.mem_iff]
    exact hgraph.listed_iff id

theorem updateOperand (hgraph : graph.WellFormed) (id : String) (operand : Arithmetic) :
    (graph.updateOperand id operand).WellFormed := by
  rw [Graph.updateOperand]
  cases hnode : graph.node? id with
  | none => exact hgraph
  | some node =>
      simp only
      split
      · exact hgraph
      · rename_i hfirst
        refine hgraph.modifyNode id (fun _ => rfl) fun layer hlayer hhead => ?_
        -- The node would be the first of the layer it belongs to.
        have hplace : layer.nodeIds[0]? = some id := by
          rw [← List.head?_eq_getElem?]
          exact hhead
        obtain ⟨other, hother, hbelongs, -⟩ := hgraph.laid_out layer hlayer 0 id hplace
        rw [hnode, Option.some.injEq] at hother
        subst hother
        have hlayer? := layer?_of_mem hgraph.layer_ids_distinct hlayer
        rw [hbelongs, hlayer?] at hfirst
        exact absurd (by simp [Layer.isFirst, hhead]) hfirst

theorem updateLabel (hgraph : graph.WellFormed) (id label : String) (constant : Option R) :
    (graph.updateLabel id label constant).WellFormed :=
  hgraph.modifyNode id (fun _ => rfl) fun _ _ _ _ => rfl

/-- A stored node belongs to the layer that lists it. -/
theorem layerOfNode? (hgraph : graph.WellFormed) {id : String} {node : Node R}
    (hnode : graph.node? id = some node) :
    ∃ index layer, graph.layerOfNode? node id = some index ∧
      graph.layers[index]? = some layer ∧ id ∈ layer.nodeIds := by
  have hlisted : id ∈ graph.listed := by
    rw [hgraph.listed_iff, hnode]
    rfl
  obtain ⟨layer, hlayer, hid⟩ := List.mem_flatMap.mp hlisted
  obtain ⟨place, hplace⟩ := List.mem_iff_getElem?.mp hid
  obtain ⟨other, hother, hbelongs, -⟩ := hgraph.laid_out layer hlayer place id hplace
  rw [hnode, Option.some.injEq] at hother
  subst hother
  obtain ⟨index, hindex, hat⟩ :=
    layer?_eq_some_iff.mp (layer?_of_mem hgraph.layer_ids_distinct hlayer)
  rw [← hbelongs] at hindex
  exact ⟨index, layer, by rw [Graph.layerOfNode?, hindex, Option.some_or], hat, hid⟩

theorem deleteNode (hgraph : graph.WellFormed) (id : String) :
    (graph.deleteNode id).WellFormed := by
  rw [Graph.deleteNode]
  cases hnode : graph.node? id with
  | none => exact hgraph
  | some node =>
      obtain ⟨index, layer, hindex, hlayer, hid⟩ := hgraph.layerOfNode? hnode
      simp only [hindex, hlayer]
      have honce : (layer.nodeIds ++ graph.elsewhere index).Nodup :=
        (listed_perm hlayer).nodup_iff.mp hgraph.listed_once
      have hunlisted : id ∉ graph.elsewhere index := fun hmem =>
        (List.nodup_append.mp honce).2.2 id hid id hmem rfl
      refine hgraph.relist hlayer (fun other found hfound => ?_) ?_ (fun other => ?_)
        fun other hother => ?_
      · rw [Directory.get?_erase] at hfound
        split at hfound
        · exact absurd hfound (by simp)
        · exact ⟨hgraph.filed_under_id other found hfound,
            hgraph.bindings_complete other found hfound⟩
      · exact honce.sublist (List.filter_sublist.append_right _)
      · have hmem : other ∈ graph.listed ↔ other ∈ layer.nodeIds ++ graph.elsewhere index :=
          (listed_perm hlayer).mem_iff
        rw [hgraph.listed_iff, List.mem_append] at hmem
        rw [Directory.get?_erase, List.mem_append, List.mem_filter, bne_iff_ne]
        by_cases hother : other = id
        · subst hother
          simp [hunlisted]
        · rw [if_neg hother]
          simp only [ne_eq, hother, not_false_eq_true, and_true]
          exact hmem.symm
      · have hne : other ≠ id := fun heq => hunlisted (heq ▸ hother)
        exact Directory.get?_erase_ne _ hne

/-- One action keeps a graph well-formed. -/
theorem after (hgraph : graph.WellFormed) (newId : String) (action : Action R)
    (hfresh : ∀ placement, action = .addNode placement → graph.node? newId = none) :
    (graph.after newId action).WellFormed := by
  rw [Graph.after]
  cases hdispatch : graph.dispatch newId action with
  | error error => exact hgraph
  | ok next =>
      cases action with
      | addNode placement => exact hgraph.addNode (hfresh placement rfl) hdispatch
      | reorderLayer layer nodeIds => exact hgraph.reorderLayer hdispatch
      | updateOperand node operand =>
          rw [dispatch, Except.ok.injEq] at hdispatch
          exact hdispatch ▸ hgraph.updateOperand node operand
      | deleteNode node =>
          rw [dispatch, Except.ok.injEq] at hdispatch
          exact hdispatch ▸ hgraph.deleteNode node
      | updateLabel node label constant =>
          rw [dispatch, Except.ok.injEq] at hdispatch
          exact hdispatch ▸ hgraph.updateLabel node label constant

end WellFormed

/-- Actions lead from well-formed graphs to well-formed graphs. -/
theorem Reaches.preserves_wellFormed {start graph : Graph R} (hstart : start.WellFormed)
    (hreaches : Reaches start graph) : graph.WellFormed := by
  induction hreaches with
  | refl => exact hstart
  | step newId action _ hfresh ih => exact ih.after newId action hfresh

/-- Whatever is done to the empty graph, nodes and layers agree. -/
theorem wellFormed_of_reaches_empty {graph : Graph R} (hreaches : Reaches .empty graph) :
    graph.WellFormed :=
  hreaches.preserves_wellFormed .empty

/-- Two nodes are added to a new layer, the second before the first, which is then given
another operand. -/
theorem wellFormed_of_two_nodes :
    let placement (label : String) (index : Nat) : Placement Float :=
      ⟨label, none, none, none, .constant, some 2, "root", index, some 80⟩
    let graph : Graph Float := ((Graph.empty.after "a" (.addNode (placement "rate" 0))).after "b"
      (.addNode (placement "base" 0))).after "" (.updateOperand "a" .times)
    graph.listed = ["b", "a"] ∧ (graph.node? "a").map Node.operand = some .times ∧
      graph.WellFormed := by
  intro placement graph
  refine ⟨by decide +kernel, by decide +kernel, ?_⟩
  refine wellFormed_of_reaches_empty (.step _ _ (.step _ _ (.step _ _ .refl fun _ _ => ?_)
    fun _ _ => ?_) fun _ hadd => ?_)
  · rfl
  · decide +kernel
  · exact absurd hadd (by simp)

end Graph

end DecisionCanvas
