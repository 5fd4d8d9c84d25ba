import DecisionCanvas.Canvas.Action
import DecisionCanvas.Proofs.Directory

/-!
# Laying out a layer

Every change of a layer ends by laying the layer out.  That moves the nodes the layer
lists to their slots and lets the first of them add, and changes nothing else.
-/

namespace DecisionCanvas

namespace Line

variable {R : Type} [Scalar R]

/-- The centre of one of so many slots in a line of a width. -/
def centre (width : R) (count index : Nat) : R :=
  (Scalar.ofNat index + Scalar.half) * (width / Scalar.ofNat count)

@[simp]
theorem length_centres (width : R) (count : Nat) : (centres width count).length = count := by
  simp [centres]

theorem getElem?_centres (width : R) {count index : Nat} (hindex : index < count) :
    (centres width count)[index]? = some (centre width count index) := by
  simp [centres, centre, hindex]

end Line

variable {R : Type}

/-- The node at a place of a layer. -/
def Node.stand (layer : Layer R) (x : R) (node : Node R) : Node R :=
  { node with x := x, y := layer.y, layer := layer.id }

namespace Graph

variable [Scalar R]

omit [Scalar R] in
/-- Seating moves a node to the last place that is given for it. -/
theorem get?_seat (layer : Layer R) (places : List (String × R)) (nodes : Directory (Node R))
    (id : String) :
    (seat layer places nodes).get? id =
      match places.reverse.lookup id with
      | some x => (nodes.get? id).map (Node.stand layer x)
      | none => nodes.get? id := by
  induction places generalizing nodes with
  | nil => rfl
  | cons place rest ih =>
      have hstep : seat layer (place :: rest) nodes =
          seat layer rest (nodes.modify place.1 (Node.stand layer place.2)) := rfl
      rw [hstep, ih, List.reverse_cons, List.lookup_append, Directory.get?_modify,
        show [place].lookup id = if id = place.1 then some place.2 else none from
          Directory.lookup_pair place.1 id place.2 []]
      cases rest.reverse.lookup id with
      | none => by_cases hid : id = place.1 <;> simp [hid]
      | some x =>
          by_cases hid : id = place.1
          · subst hid
            rw [if_pos rfl, Option.some_or]
            exact Option.map_map _ _ _
          · rw [if_neg hid, Option.some_or]

/-- The node at a place of a layer that has been laid out. -/
def seated (layer : Layer R) (place : Nat) (node : Node R) : Node R :=
  { node with
    x := Line.centre layer.width layer.length place
    y := layer.y
    layer := layer.id
    operand := if place = 0 then .plus else node.operand }

@[simp]
theorem layers_settle (graph : Graph R) (index : Nat) :
    (graph.settle index).layers = graph.layers := by
  have hlayOut : (graph.layOut index).layers = graph.layers := by
    unfold layOut
    cases graph.layers[index]? <;> rfl
  unfold settle startWithPlus
  cases (graph.layOut index).layers[index]?.bind fun layer => layer.nodeIds.head? <;>
    exact hlayOut

@[simp]
theorem layer?_settle (graph : Graph R) (index : Nat) (id : String) :
    (graph.settle index).layer? id = graph.layer? id := by
  rw [layer?, layers_settle, layer?]

variable {graph : Graph R} {index : Nat} {layer : Layer R}

theorem node?_layOut (hlayer : graph.layers[index]? = some layer) (id : String) :
    (graph.layOut index).node? id =
      match (places layer).reverse.lookup id with
      | some x => (graph.node? id).map (Node.stand layer x)
      | none => graph.node? id := by
  rw [layOut, hlayer]
  exact get?_seat layer (places layer) graph.nodes id

theorem node?_settle (hlayer : graph.layers[index]? = some layer) (id : String) :
    (graph.settle index).node? id =
      if layer.nodeIds.head? = some id then
        ((graph.layOut index).node? id).map fun node => { node with operand := .plus }
      else (graph.layOut index).node? id := by
  have hlayers : (graph.layOut index).layers = graph.layers := by
    rw [layOut, hlayer]
  rw [settle, startWithPlus, hlayers, hlayer, Option.bind_some]
  cases hhead : layer.nodeIds.head? with
  | none => rfl
  | some first =>
      by_cases hid : id = first
      · subst hid
        rw [if_pos rfl]
        exact (Directory.get?_modify _ _ _ _).trans (if_pos rfl)
      · rw [if_neg (by simpa using Ne.symm hid)]
        exact (Directory.get?_modify _ _ _ _).trans (if_neg hid)

theorem map_fst_places (layer : Layer R) : (places layer).map Prod.fst = layer.nodeIds := by
  rw [places, List.map_fst_zip]
  simp [Layer.length]

/-- A node that is not listed stays as it is. -/
theorem node?_settle_unlisted (hlayer : graph.layers[index]? = some layer) {id : String}
    (hid : id ∉ layer.nodeIds) : (graph.settle index).node? id = graph.node? id := by
  have hhead : layer.nodeIds.head? ≠ some id := fun hhead => hid (List.mem_of_head? hhead)
  rw [node?_settle hlayer, if_neg hhead, node?_layOut hlayer,
    lookup_reverse_of_notMem (by rwa [map_fst_places])]

/-- A node that is listed once stands at its place. -/
theorem node?_settle_listed (hlayer : graph.layers[index]? = some layer)
    (hdistinct : layer.nodeIds.Nodup) {place : Nat} {id : String}
    (hplace : layer.nodeIds[place]? = some id) :
    (graph.settle index).node? id = (graph.node? id).map (seated layer place) := by
  obtain ⟨hlt, hid⟩ := List.getElem?_eq_some_iff.mp hplace
  have hmem : (id, Line.centre layer.width layer.length place) ∈ places layer := by
    refine List.mem_of_getElem? (i := place) ?_
    rw [places, List.getElem?_zip_eq_some]
    exact ⟨hplace, Line.getElem?_centres layer.width hlt⟩
  have hhead : layer.nodeIds.head? = some id ↔ place = 0 := by
    rw [List.head?_eq_getElem?]
    constructor
    · intro hfirst
      have hsame := hfirst.trans hplace.symm
      exact ((List.getElem?_inj (by omega) hdistinct).mp hsame).symm
    · intro hzero
      rw [hzero] at hplace
      exact hplace
  rw [node?_settle hlayer, node?_layOut hlayer,
    lookup_reverse_of_mem (by rwa [map_fst_places]) hmem]
  by_cases hzero : place = 0
  · rw [if_pos (hhead.mpr hzero), Option.map_map]
    congr 1
    funext node
    simp [seated, Node.stand, hzero]
  · rw [if_neg (fun hfirst => hzero (hhead.mp hfirst))]
    congr 1
    funext node
    simp [seated, Node.stand, hzero]

/-- Laying out creates and removes no node. -/
theorem isSome_node?_settle (graph : Graph R) (index : Nat) (id : String) :
    ((graph.settle index).node? id).isSome = (graph.node? id).isSome := by
  cases hlayer : graph.layers[index]? with
  | none =>
      rw [settle, layOut, hlayer, startWithPlus, hlayer]
      rfl
  | some layer =>
      rw [node?_settle hlayer, node?_layOut hlayer]
      split <;> split <;> simp

/-- Laying out moves a node and may change its operand, and leaves the rest of it. -/
theorem of_node?_settle {graph : Graph R} {index : Nat} {id : String} {node : Node R}
    (hnode : (graph.settle index).node? id = some node) :
    ∃ original, graph.node? id = some original ∧
      node = { original with
        x := node.x, y := node.y, layer := node.layer, operand := node.operand } := by
  cases hlayer : graph.layers[index]? with
  | none =>
      rw [settle, layOut, hlayer, startWithPlus, hlayer] at hnode
      exact ⟨node, hnode, rfl⟩
  | some layer =>
      rw [node?_settle hlayer, node?_layOut hlayer] at hnode
      cases horiginal : graph.node? id with
      | none =>
          rw [horiginal] at hnode
          split at hnode <;> split at hnode <;> simp at hnode
      | some original =>
          refine ⟨original, rfl, ?_⟩
          rw [horiginal] at hnode
          split at hnode <;> split at hnode <;>
            simp only [Option.map_some, Option.some.injEq] at hnode <;> rw [← hnode] <;> rfl

end Graph

end DecisionCanvas
