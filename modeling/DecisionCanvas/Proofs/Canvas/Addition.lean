import DecisionCanvas.Proofs.Canvas.Ownership

/-!
# Adding a node

An addition that names a complete binding and a height for the layer is never refused.  It
puts the new node into its layer at the index asked for, and all other nodes keep their
content and their order.
-/

namespace DecisionCanvas

variable {R : Type}

/-- Whether a node is another one that has been moved, or given another operand. -/
def Node.MovedFrom (node original : Node R) : Prop :=
  node = { original with x := node.x, y := node.y, layer := node.layer, operand := node.operand }

/-- A layer with one more node, at an index or at the end. -/
def Layer.withNode [Scalar R] (layer : Layer R) (index : Nat) (newId : String) : Layer R :=
  let nodeIds := layer.nodeIds.insertIdx (min index layer.length) newId
  { layer with nodeIds := nodeIds, width := Line.width nodeIds.length }

theorem Layer.mem_withNode [Scalar R] {layer : Layer R} {index : Nat} {newId id : String} :
    id ∈ (layer.withNode index newId).nodeIds ↔ id = newId ∨ id ∈ layer.nodeIds :=
  List.mem_insertIdx (Nat.min_le_right index layer.length)

namespace Graph

variable {graph : Graph R} {index : Nat} {layer : Layer R}

variable [Scalar R]

section Addition

variable {newId id : String} {placement : Placement R} {node : Node R}

/-- A node after an addition is an old one, or the new one in its layer. -/
theorem node?_addToLayer
    (hnode : (graph.addToLayer newId placement index layer).node? id = some node) :
    (id ≠ newId ∧ ∃ original, graph.node? id = some original ∧ node.MovedFrom original) ∨
      id = newId ∧ node.MovedFrom (newNode newId placement layer (Scalar.ofNat 0)) := by
  obtain ⟨original, horiginal, hmoved⟩ := of_node?_settle hnode
  have hinserted := Directory.get?_insert graph.nodes newId id
    (newNode newId placement layer (Scalar.ofNat 0))
  rw [show (graph.nodes.insert newId _).get? id = some original from horiginal] at hinserted
  by_cases hid : id = newId
  · rw [if_pos hid, Option.some.injEq] at hinserted
    exact Or.inr ⟨hid, hinserted ▸ hmoved⟩
  · rw [if_neg hid] at hinserted
    exact Or.inl ⟨hid, original, hinserted.symm, hmoved⟩

/-- An addition stores the new node and keeps the others. -/
theorem isSome_node?_addToLayer (id : String) :
    ((graph.addToLayer newId placement index layer).node? id).isSome =
      (decide (id = newId) || (graph.node? id).isSome) := by
  have hinserted := Directory.get?_insert graph.nodes newId id
    (newNode newId placement layer (Scalar.ofNat 0))
  rw [addToLayer, relist, isSome_node?_settle]
  change ((graph.nodes.insert newId _).get? id).isSome = _
  rw [hinserted]
  by_cases hid : id = newId
  · simp [hid]
  · simp only [hid, if_false, decide_false, Bool.false_or]
    rfl

/-- The layer that a node is added to: the one with the id, or an empty one at a height. -/
def lineFor (graph : Graph R) (id : String) (y : R) : Layer R :=
  (graph.layer? id).getD (Layer.empty id y)

/-- What an addition does to a graph.  Only the layer of the new node changes, by the new
node, and all other nodes stay but for where they stand and their operands. -/
structure Adds (graph : Graph R) (newId : String) (placement : Placement R) (y : R)
    (next : Graph R) : Prop where
  layer?_eq : ∀ id, next.layer? id =
    if id = placement.layer then
      some ((graph.lineFor placement.layer y).withNode placement.index newId)
    else graph.layer? id
  isSome_node? : ∀ id, (next.node? id).isSome =
    (decide (id = newId) || (graph.node? id).isSome)
  node?_cases : ∀ id node, next.node? id = some node →
    (id ≠ newId ∧ ∃ original, graph.node? id = some original ∧ node.MovedFrom original) ∨
      id = newId ∧ node.MovedFrom
        (newNode newId placement (graph.lineFor placement.layer y) (Scalar.ofNat 0))

theorem adds_addToLayer (hlayer : graph.layers[index]? = some layer)
    (hfirst : graph.layerIndex? layer.id = some index) (hid : layer.id = placement.layer)
    (y : R) : graph.Adds newId placement y (graph.addToLayer newId placement index layer) := by
  have hfound := layer?_eq_some_iff.mpr ⟨_, hfirst, hlayer⟩
  have hline : graph.lineFor placement.layer y = layer := by
    rw [lineFor, ← hid, hfound, Option.getD_some]
  refine ⟨fun other => ?_, isSome_node?_addToLayer, fun other node hnode => ?_⟩
  · rw [hline, ← hid, addToLayer, relist, layer?_settle]
    exact layer?_setLine hlayer hfirst _ _ other
  · rw [hline]
    exact node?_addToLayer hnode

/-- An addition to a layer that does not exist yet. -/
theorem adds_addLayer (hnew : graph.layerIndex? placement.layer = none) (y : R) :
    graph.Adds newId placement y
      (({ graph with layers := graph.layers ++ [Layer.empty placement.layer y] } :
        Graph R).addToLayer newId placement graph.layers.length
          (Layer.empty placement.layer y)) := by
  let extended : Graph R :=
    { graph with layers := graph.layers ++ [Layer.empty placement.layer y] }
  have hnone : graph.layer? placement.layer = none := by
    rw [layer?_eq_bind, hnew, Option.bind_none]
  have hother : ∀ other, other ≠ placement.layer → extended.layer? other = graph.layer? other := by
    intro other hother
    have hlast : (Layer.empty placement.layer y).id ≠ other := hother.symm
    simp [extended, layer?, List.find?_append, hlast]
  have hline : extended.lineFor placement.layer y = graph.lineFor placement.layer y := by
    have hfound : extended.layer? placement.layer = some (Layer.empty placement.layer y) := by
      rw [layer?, List.find?_append, show graph.layers.find? _ = none from hnone]
      simp [Layer.empty]
    rw [lineFor, hfound, lineFor, hnone]
    rfl
  have hfirst : extended.layerIndex? placement.layer = some graph.layers.length := by
    have hnone : graph.layers.findIdx? (fun layer => layer.id == placement.layer) = none := hnew
    simp [extended, layerIndex?, List.findIdx?_append, Layer.empty, hnone]
  have hadds : extended.Adds newId placement y
      (extended.addToLayer newId placement graph.layers.length
        (Layer.empty placement.layer y)) :=
    adds_addToLayer (by simp [extended]) hfirst rfl y
  refine ⟨fun other => ?_, hadds.isSome_node?, fun other node hnode => ?_⟩
  · rw [← hline, hadds.layer?_eq other]
    by_cases hid : other = placement.layer
    · rw [if_pos hid, if_pos hid]
    · rw [if_neg hid, if_neg hid, hother other hid]
  · rw [← hline]
    exact hadds.node?_cases other node hnode

/-- What an addition comes to that is not refused.  A layer that it has to create takes the
height that is given. -/
theorem adds_of_addNode {next : Graph R} (hadd : graph.addNode newId placement = .ok next) :
    graph.Adds newId placement (placement.layerY.getD (Scalar.ofNat 0)) next := by
  obtain ⟨-, ⟨index, layer, hid, hfirst, hlayer, rfl⟩ | ⟨y, hy, hnew, rfl⟩⟩ := addNode_eq_ok hadd
  · exact adds_addToLayer hlayer hfirst hid _
  · rw [hy]
    exact adds_addLayer hnew y

/-- Nothing is refused that names a complete binding and a height for its layer. -/
theorem dispatch_addNode (graph : Graph R) (newId : String) (placement : Placement R)
    (hbinding : placement.scope.isSome = placement.factType.isSome) {y : R}
    (hy : placement.layerY = some y) :
    ∃ next, graph.dispatch newId (.addNode placement) = .ok next ∧
      graph.Adds newId placement y next := by
  have haccepted : ∃ next, graph.addNode newId placement = .ok next := by
    rw [addNode, if_neg (by simp [hbinding])]
    cases hindex : graph.layerIndex? placement.layer with
    | some index =>
        obtain ⟨layer, hlayer, -⟩ := exists_of_layerIndex? hindex
        simp only [hlayer]
        exact ⟨_, rfl⟩
    | none =>
        simp only [hy]
        exact ⟨_, rfl⟩
  obtain ⟨next, hadd⟩ := haccepted
  have hadds := adds_of_addNode hadd
  rw [hy, Option.getD_some] at hadds
  exact ⟨next, hadd, hadds⟩

end Addition

end Graph

end DecisionCanvas
