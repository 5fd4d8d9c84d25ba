import DecisionCanvas.Proofs.Canvas.Layout
import Mathlib.Data.List.Perm.Basic

/-!
# Lines of layers

The nodes that a layer lists are its line.  An action that gives a layer another line lays
that layer out and does nothing else to layers.
-/

namespace DecisionCanvas

namespace Graph

variable {R : Type}

/-- The nodes that are listed, layer after layer. -/
def listed (graph : Graph R) : List String :=
  graph.layers.flatMap Layer.nodeIds

/-- The nodes that are listed by other layers than the one at an index. -/
def elsewhere (graph : Graph R) (index : Nat) : List String :=
  (graph.layers.eraseIdx index).flatMap Layer.nodeIds

/-! ## Layers by index -/

section Layers

variable {graph : Graph R} {index : Nat} {layer : Layer R}

/-- The nodes of one layer and those of the others are all that are listed. -/
theorem listed_perm (hlayer : graph.layers[index]? = some layer) :
    graph.listed.Perm (layer.nodeIds ++ graph.elsewhere index) := by
  obtain ⟨hlt, rfl⟩ := List.getElem?_eq_some_iff.mp hlayer
  have hperm := (List.getElem_cons_eraseIdx_perm hlt).symm.flatMap_right Layer.nodeIds
  exact hperm

/-- A node that is put into one layer is then listed together with all others. -/
theorem insertIdx_elsewhere_perm (hlayer : graph.layers[index]? = some layer) (place : Nat)
    (newId : String) :
    (layer.nodeIds.insertIdx (min place layer.length) newId ++ graph.elsewhere index).Perm
      (newId :: graph.listed) := by
  have hinsert := List.perm_insertIdx newId layer.nodeIds (Nat.min_le_right place layer.length)
  exact (hinsert.append_right _).trans ((listed_perm hlayer).symm.cons newId)

theorem mem_elsewhere {id : String} : id ∈ graph.elsewhere index ↔
    ∃ other layer, other ≠ index ∧ graph.layers[other]? = some layer ∧ id ∈ layer.nodeIds := by
  simp only [elsewhere, List.mem_flatMap, List.mem_eraseIdx_iff_getElem?]
  constructor
  · rintro ⟨layer, ⟨other, hother, hlayer⟩, hid⟩
    exact ⟨other, layer, hother, hlayer, hid⟩
  · rintro ⟨other, layer, hother, hlayer, hid⟩
    exact ⟨layer, ⟨other, hother, hlayer⟩, hid⟩

theorem getElem?_setLine (hlayer : graph.layers[index]? = some layer) (nodeIds : List String)
    (width : R) : (graph.setLine index nodeIds width).layers[index]? =
      some { layer with nodeIds := nodeIds, width := width } := by
  rw [setLine, List.getElem?_modify_eq, hlayer]
  rfl

theorem getElem?_setLine_ne {other : Nat} (hother : other ≠ index) (nodeIds : List String)
    (width : R) : (graph.setLine index nodeIds width).layers[other]? = graph.layers[other]? := by
  rw [setLine, List.getElem?_modify_ne _ _ hother.symm]

theorem elsewhere_setLine (nodeIds : List String) (width : R) :
    (graph.setLine index nodeIds width).elsewhere index = graph.elsewhere index := by
  rw [elsewhere, setLine, List.eraseIdx_modify_of_eq, elsewhere]

theorem map_id_setLine (nodeIds : List String) (width : R) :
    (graph.setLine index nodeIds width).layers.map Layer.id = graph.layers.map Layer.id := by
  apply List.ext_getElem?
  intro place
  rw [List.getElem?_map, List.getElem?_map]
  by_cases hplace : place = index
  · subst hplace
    rw [setLine, List.getElem?_modify_eq]
    cases graph.layers[place]? <;> rfl
  · rw [getElem?_setLine_ne hplace]

/-- A layer of a graph in which one layer has changed is that layer or an unchanged one. -/
theorem getElem?_setLine_cases (hlayer : graph.layers[index]? = some layer)
    {nodeIds : List String} {width : R} {other : Nat} {shown : Layer R}
    (hshown : (graph.setLine index nodeIds width).layers[other]? = some shown) :
    (other = index ∧ shown = { layer with nodeIds := nodeIds, width := width }) ∨
      (other ≠ index ∧ graph.layers[other]? = some shown) := by
  by_cases hother : other = index
  · subst hother
    rw [getElem?_setLine hlayer, Option.some.injEq] at hshown
    exact Or.inl ⟨rfl, hshown.symm⟩
  · rw [getElem?_setLine_ne hother] at hshown
    exact Or.inr ⟨hother, hshown⟩

end Layers

/-! ## Layers by id -/

section LayersById

variable {graph : Graph R} {index : Nat} {layer : Layer R} {id : String}

theorem layerIndex?_eq (graph : Graph R) (id : String) :
    graph.layerIndex? id = (graph.layers.map Layer.id).findIdx? fun other => other == id := by
  rw [layerIndex?, List.findIdx?_map]
  rfl

theorem layerIndex?_eq_none_iff :
    graph.layerIndex? id = none ↔ id ∉ graph.layers.map Layer.id := by
  rw [layerIndex?_eq, List.findIdx?_eq_none_iff]
  constructor
  · intro hother hmem
    exact beq_eq_false_iff_ne.mp (hother id hmem) rfl
  · intro hmissing other hother
    exact beq_eq_false_iff_ne.mpr fun heq => hmissing (heq ▸ hother)

theorem exists_layerIndex?_of_mem (hmem : id ∈ graph.layers.map Layer.id) :
    ∃ index, graph.layerIndex? id = some index := by
  apply Option.ne_none_iff_exists'.mp
  intro hnone
  exact layerIndex?_eq_none_iff.mp hnone hmem

theorem exists_layer?_iff :
    (∃ layer, graph.layer? id = some layer) ↔ id ∈ graph.layers.map Layer.id := by
  rw [← Option.isSome_iff_exists, layer?, List.find?_isSome]
  simp

/-- The index and the layer that are found for an id belong together. -/
theorem exists_of_layerIndex? (hindex : graph.layerIndex? id = some index) :
    ∃ layer, graph.layer? id = some layer ∧ graph.layers[index]? = some layer := by
  obtain ⟨hlt, hid, hbefore⟩ := List.findIdx?_eq_some_iff_getElem.mp hindex
  refine ⟨graph.layers[index], ?_, List.getElem?_eq_getElem hlt⟩
  refine List.find?_eq_some_iff_getElem.mpr ⟨hid, index, hlt, rfl, fun place hplace => ?_⟩
  simpa using hbefore place hplace

/-- The layer that is found for an id is the one at the index that is found for it. -/
theorem layer?_eq_bind (graph : Graph R) (id : String) :
    graph.layer? id = (graph.layerIndex? id).bind fun index => graph.layers[index]? := by
  cases hindex : graph.layerIndex? id with
  | none =>
      have hmissing := layerIndex?_eq_none_iff.mp hindex
      rw [← exists_layer?_iff, ← Option.ne_none_iff_exists', not_not] at hmissing
      exact hmissing
  | some index =>
      obtain ⟨layer, hlayer, hat⟩ := exists_of_layerIndex? hindex
      rw [hlayer, Option.bind_some, hat]

theorem layer?_eq_some_iff :
    graph.layer? id = some layer ↔
      ∃ index, graph.layerIndex? id = some index ∧ graph.layers[index]? = some layer := by
  rw [layer?_eq_bind, Option.bind_eq_some_iff]

/-- A layer is found under its own id. -/
theorem id_of_layer? (hlayer : graph.layer? id = some layer) : layer.id = id := by
  simpa using List.find?_some hlayer

/-- With distinct ids a layer is found under its id. -/
theorem layer?_of_mem (hdistinct : (graph.layers.map Layer.id).Nodup)
    (hlayer : layer ∈ graph.layers) : graph.layer? layer.id = some layer := by
  cases hfound : graph.layer? layer.id with
  | none =>
      have hother := List.find?_eq_none.mp hfound layer hlayer
      exact absurd (beq_self_eq_true layer.id) hother
  | some other =>
      have hid : other.id = layer.id := by simpa using List.find?_some hfound
      rw [List.inj_on_of_nodup_map hdistinct (List.mem_of_find?_eq_some hfound) hlayer hid]

theorem layerIndex?_setLine (nodeIds : List String) (width : R) (id : String) :
    (graph.setLine index nodeIds width).layerIndex? id = graph.layerIndex? id := by
  rw [layerIndex?_eq, map_id_setLine, ← layerIndex?_eq]

/-- A change of one line is seen under the id of its layer only. -/
theorem layer?_setLine (hlayer : graph.layers[index]? = some layer)
    (hfirst : graph.layerIndex? layer.id = some index) (nodeIds : List String) (width : R)
    (id : String) :
    (graph.setLine index nodeIds width).layer? id =
      if id = layer.id then some { layer with nodeIds := nodeIds, width := width }
      else graph.layer? id := by
  rw [layer?_eq_bind, layerIndex?_setLine]
  by_cases hid : id = layer.id
  · rw [if_pos hid, hid, hfirst, Option.bind_some, getElem?_setLine hlayer]
  · rw [if_neg hid, layer?_eq_bind]
    cases hother : graph.layerIndex? id with
    | none => rfl
    | some other =>
        have hne : other ≠ index := by
          rintro rfl
          exact hid (id_of_layer? (layer?_eq_some_iff.mpr ⟨_, hother, hlayer⟩)).symm
        rw [Option.bind_some, Option.bind_some, getElem?_setLine_ne hne]

end LayersById

variable [Scalar R]

/-- Whether the nodes a layer lists are there, belong to it and stand in its slots, the
first of them adding. -/
def LaidOut (graph : Graph R) (layer : Layer R) : Prop :=
  ∀ place id, layer.nodeIds[place]? = some id →
    ∃ node, graph.node? id = some node ∧ node.layer = layer.id ∧ node.y = layer.y ∧
      (Line.centres layer.width layer.length)[place]? = some node.x ∧
      (place = 0 → node.operand = .plus)

/-! ## Layers that are laid out -/

section LaidOut

variable {graph next : Graph R} {layer : Layer R}

theorem LaidOut.congr (hlaid : graph.LaidOut layer)
    (hsame : ∀ id ∈ layer.nodeIds, next.node? id = graph.node? id) : next.LaidOut layer := by
  intro place id hplace
  obtain ⟨node, hnode, hstands⟩ := hlaid place id hplace
  exact ⟨node, (hsame id (List.mem_of_getElem? hplace)).trans hnode, hstands⟩

/-- A layer stays laid out if a node is removed that it does not list. -/
theorem LaidOut.erase (hlaid : graph.LaidOut layer) {id : String} (hid : id ∉ layer.nodeIds) :
    ({ graph with nodes := graph.nodes.erase id } : Graph R).LaidOut layer :=
  hlaid.congr fun _ hother => Directory.get?_erase_ne _ fun hsame => hid (hsame ▸ hother)

/-- A layer stays laid out if a node changes in everything but its place, and not in its
operand if it is the first. -/
theorem LaidOut.modifyNode (hlaid : graph.LaidOut layer) (id : String)
    {change : Node R → Node R}
    (hkeeps : ∀ node, change node = { node with
      label := (change node).label, constant := (change node).constant,
      operand := (change node).operand })
    (hfirst : layer.nodeIds.head? = some id → ∀ node, (change node).operand = node.operand) :
    ({ graph with nodes := graph.nodes.modify id change } : Graph R).LaidOut layer := by
  intro place other hplace
  obtain ⟨node, hnode, hbelongs, hy, hx, hplus⟩ := hlaid place other hplace
  have hchanged := Directory.get?_modify graph.nodes id other change
  rw [show graph.nodes.get? other = some node from hnode] at hchanged
  by_cases hother : other = id
  · rw [if_pos hother, Option.map_some] at hchanged
    have hchange := hkeeps node
    refine ⟨change node, hchanged, ?_, ?_, ?_, fun hzero => ?_⟩
    · rw [hchange]
      exact hbelongs
    · rw [hchange]
      exact hy
    · rw [hchange]
      exact hx
    · have hhead : layer.nodeIds.head? = some id := by
        rw [List.head?_eq_getElem?, ← hzero, hplace, hother]
      rw [hfirst hhead node]
      exact hplus hzero
  · rw [if_neg hother] at hchanged
    exact ⟨node, hchanged, hbelongs, hy, hx, hplus⟩

/-- The nodes of a layer that is laid out are where they would be seated. -/
theorem LaidOut.exists_seated (hlaid : graph.LaidOut layer) {place : Nat} {id : String}
    (hplace : layer.nodeIds[place]? = some id) :
    ∃ node, graph.node? id = some node ∧ seated layer place node = node := by
  obtain ⟨node, hnode, hbelongs, hy, hx, hplus⟩ := hlaid place id hplace
  have hlt : place < layer.length := (List.getElem?_eq_some_iff.mp hplace).1
  rw [Line.getElem?_centres _ hlt, Option.some.injEq] at hx
  have hoperand : (if place = 0 then .plus else node.operand) = node.operand := by
    split
    · exact (hplus ‹_›).symm
    · rfl
  exact ⟨node, hnode, by rw [seated, ← hbelongs, ← hy, hx, hoperand]⟩

end LaidOut

/-! ## A line in place of another -/

/-- The graph with other nodes, in which the layer at an index has another line and has
been laid out. -/
def reline (graph : Graph R) (index : Nat) (nodes : Directory (Node R)) (nodeIds : List String)
    (width : R) : Graph R :=
  (({ graph with nodes := nodes } : Graph R).setLine index nodeIds width).settle index

section Reline

variable {graph : Graph R} {index : Nat} {layer : Layer R}
variable (hlayer : graph.layers[index]? = some layer) {nodes : Directory (Node R)}
variable {nodeIds : List String} {width : R}

include hlayer in
theorem getElem?_reline : (graph.reline index nodes nodeIds width).layers[index]? =
    some { layer with nodeIds := nodeIds, width := width } := by
  rw [reline, layers_settle]
  exact getElem?_setLine hlayer nodeIds width

theorem getElem?_reline_ne {other : Nat} (hother : other ≠ index) :
    (graph.reline index nodes nodeIds width).layers[other]? = graph.layers[other]? := by
  rw [reline, layers_settle]
  exact getElem?_setLine_ne hother nodeIds width

theorem map_id_reline :
    (graph.reline index nodes nodeIds width).layers.map Layer.id = graph.layers.map Layer.id := by
  rw [reline, layers_settle]
  exact map_id_setLine nodeIds width

theorem elsewhere_reline :
    (graph.reline index nodes nodeIds width).elsewhere index = graph.elsewhere index := by
  rw [elsewhere, reline, layers_settle]
  exact elsewhere_setLine nodeIds width

include hlayer in
theorem node?_reline_unlisted {id : String} (hid : id ∉ nodeIds) :
    (graph.reline index nodes nodeIds width).node? id = nodes.get? id := by
  have hline : (({ graph with nodes := nodes } : Graph R).setLine index nodeIds
      width).layers[index]? = some { layer with nodeIds := nodeIds, width := width } :=
    getElem?_setLine hlayer nodeIds width
  exact node?_settle_unlisted hline hid

include hlayer in
theorem node?_reline_listed (hdistinct : nodeIds.Nodup) {place : Nat} {id : String}
    (hplace : nodeIds[place]? = some id) :
    (graph.reline index nodes nodeIds width).node? id =
      (nodes.get? id).map
        (seated { layer with nodeIds := nodeIds, width := width } place) := by
  have hline : (({ graph with nodes := nodes } : Graph R).setLine index nodeIds
      width).layers[index]? = some { layer with nodeIds := nodeIds, width := width } :=
    getElem?_setLine hlayer nodeIds width
  exact node?_settle_listed hline hdistinct hplace

include hlayer in
/-- The nodes of the new line stand in its slots, the first of them adding. -/
theorem laidOut_reline (hdistinct : nodeIds.Nodup)
    (hstored : ∀ id ∈ nodeIds, (nodes.get? id).isSome = true) :
    (graph.reline index nodes nodeIds width).LaidOut
      { layer with nodeIds := nodeIds, width := width } := by
  intro place id hplace
  obtain ⟨node, hnode⟩ := Option.isSome_iff_exists.mp (hstored id (List.mem_of_getElem? hplace))
  have hseated : (graph.reline index nodes nodeIds width).node? id = _ :=
    node?_reline_listed hlayer hdistinct hplace
  rw [hnode, Option.map_some] at hseated
  refine ⟨_, hseated, rfl, rfl, ?_, fun hzero => if_pos hzero⟩
  exact Line.getElem?_centres width (List.getElem?_eq_some_iff.mp hplace).1

include hlayer in
theorem getElem?_reline_cases {other : Nat} {shown : Layer R}
    (hshown : (graph.reline index nodes nodeIds width).layers[other]? = some shown) :
    (other = index ∧ shown = { layer with nodeIds := nodeIds, width := width }) ∨
      (other ≠ index ∧ graph.layers[other]? = some shown) := by
  rw [reline, layers_settle] at hshown
  exact getElem?_setLine_cases hlayer hshown

include hlayer in
theorem listed_reline_perm :
    (graph.reline index nodes nodeIds width).listed.Perm (nodeIds ++ graph.elsewhere index) := by
  have hline : (graph.reline index nodes nodeIds width).layers[index]? =
      some { layer with nodeIds := nodeIds, width := width } := getElem?_reline hlayer
  have hperm := listed_perm hline
  rw [elsewhere_reline] at hperm
  exact hperm

include hlayer in
/-- Another layer stays laid out if none of its nodes is in the new line. -/
theorem LaidOut.reline {shown : Layer R} (hlaid : graph.LaidOut shown) {other : Nat}
    (hother : other ≠ index) (hshown : graph.layers[other]? = some shown)
    (honce : (nodeIds ++ graph.elsewhere index).Nodup)
    (hkept : ∀ id ∈ graph.elsewhere index, nodes.get? id = graph.node? id) :
    (graph.reline index nodes nodeIds width).LaidOut shown := by
  refine hlaid.congr fun id hid => ?_
  have helsewhere : id ∈ graph.elsewhere index :=
    mem_elsewhere.mpr ⟨other, shown, hother, hshown, hid⟩
  have hunlisted : id ∉ nodeIds := fun hmem =>
    (List.nodup_append.mp honce).2.2 id hmem id helsewhere rfl
  rw [node?_reline_unlisted hlayer hunlisted]
  exact hkept id helsewhere

/-- A layer that is given the line it has in another graph becomes the layer of that graph, if
it is laid out there and nothing else is different. -/
theorem reline_eq_of_laidOut {base : Graph R} (hlayer : graph.layers[index]? = some layer)
    (hlaid : graph.LaidOut layer) (hdistinct : layer.nodeIds.Nodup)
    (hbase : base.layers[index]? = some { layer with nodeIds := nodeIds, width := width })
    (hothers : ∀ other, other ≠ index → base.layers[other]? = graph.layers[other]?)
    (hlisted : ∀ place id, layer.nodeIds[place]? = some id →
      (nodes.get? id).map (seated layer place) = (graph.node? id).map (seated layer place))
    (hunlisted : ∀ id, id ∉ layer.nodeIds → nodes.get? id = graph.node? id) :
    base.reline index nodes layer.nodeIds layer.width = graph := by
  have hlayers : (base.reline index nodes layer.nodeIds layer.width).layers = graph.layers := by
    apply List.ext_getElem?
    intro other
    by_cases hother : other = index
    · rw [hother, getElem?_reline hbase, hlayer]
    · rw [getElem?_reline_ne hother, hothers other hother]
  have hnodes : (base.reline index nodes layer.nodeIds layer.width).nodes = graph.nodes := by
    apply Directory.ext_get?
    intro id
    by_cases hid : id ∈ layer.nodeIds
    · obtain ⟨place, hplace⟩ := List.mem_iff_getElem?.mp hid
      obtain ⟨node, hnode, hseated⟩ := hlaid.exists_seated hplace
      have hstands : (base.reline index nodes layer.nodeIds layer.width).node? id =
          (nodes.get? id).map (seated layer place) :=
        node?_reline_listed hbase hdistinct hplace
      rw [hlisted place id hplace, hnode, Option.map_some, hseated] at hstands
      exact hstands.trans hnode.symm
    · exact (node?_reline_unlisted hbase hid).trans (hunlisted id hid)
  exact congrArg₂ Graph.mk hnodes hlayers

end Reline

/-! ## What actions do -/

/-- Two lists hold the same texts equally often if one is in another order than the other. -/
theorem sameTexts_iff {left right : List String} :
    sameTexts left right = true ↔ left.Perm right := by
  rw [sameTexts, beq_iff_eq]
  have hleft := List.mergeSort_perm left (· ≤ ·)
  have hright := List.mergeSort_perm right (· ≤ ·)
  constructor
  · intro hsorted
    rw [hsorted] at hleft
    exact hleft.symm.trans hright
  · intro hperm
    -- Sorted lists of the same texts are equal.
    have hascending : ∀ texts : List String,
        (texts.mergeSort (· ≤ ·)).Pairwise fun earlier later =>
          decide (earlier ≤ later) = true := by
      intro texts
      apply List.pairwise_mergeSort
      · intro first second third hfirst hsecond
        simp only [decide_eq_true_eq] at hfirst hsecond ⊢
        exact String.le_trans hfirst hsecond
      · intro first second
        simp only [Bool.or_eq_true, decide_eq_true_eq]
        exact String.le_total first second
    apply List.Perm.eq_of_pairwise _ (hascending left) (hascending right)
      (hleft.trans (hperm.trans hright.symm))
    intro first second _ _ hfirst hsecond
    simp only [decide_eq_true_eq] at hfirst hsecond
    exact String.le_antisymm hfirst hsecond

section Actions

variable {graph next : Graph R}

/-- A node is added to the first layer with the id that is asked for, or to a new layer
after all others. -/
theorem addNode_eq_ok {newId : String} {placement : Placement R}
    (hadd : graph.addNode newId placement = .ok next) :
    placement.scope.isSome = placement.factType.isSome ∧
    ((∃ index layer, layer.id = placement.layer ∧ graph.layerIndex? layer.id = some index ∧
      graph.layers[index]? = some layer ∧
      next = graph.addToLayer newId placement index layer) ∨
    ∃ y, placement.layerY = some y ∧ graph.layerIndex? placement.layer = none ∧
      next = ({ graph with layers := graph.layers ++ [Layer.empty placement.layer y] } :
        Graph R).addToLayer newId placement graph.layers.length
          (Layer.empty placement.layer y)) := by
  rw [addNode] at hadd
  split at hadd
  · exact absurd hadd (by simp)
  · rename_i hbinding
    refine ⟨by simpa using hbinding, ?_⟩
    cases hindex : graph.layerIndex? placement.layer with
    | some index =>
        obtain ⟨layer, hfound, hlayer⟩ := exists_of_layerIndex? hindex
        simp only [hindex, hfound, Except.ok.injEq] at hadd
        rw [← id_of_layer? hfound] at hindex
        exact Or.inl ⟨index, layer, id_of_layer? hfound, hindex, hlayer, hadd.symm⟩
    | none =>
        cases hy : placement.layerY with
        | none => simp [hindex, hy] at hadd
        | some y =>
            simp only [hindex, hy, Except.ok.injEq] at hadd
            exact Or.inr ⟨y, rfl, rfl, hadd.symm⟩

theorem reorderLayer_eq_ok {id : String} {nodeIds : List String}
    (hreorder : graph.reorderLayer id nodeIds = .ok next) :
    ∃ index layer, layer.id = id ∧ graph.layerIndex? layer.id = some index ∧
      graph.layers[index]? = some layer ∧ nodeIds.Perm layer.nodeIds ∧
      next = (graph.setLine index nodeIds layer.width).settle index := by
  rw [reorderLayer] at hreorder
  cases hindex : graph.layerIndex? id with
  | none => simp [hindex] at hreorder
  | some index =>
      obtain ⟨layer, hfound, hlayer⟩ := exists_of_layerIndex? hindex
      simp only [hindex, hfound] at hreorder
      split at hreorder
      · rename_i hsame
        rw [Except.ok.injEq] at hreorder
        rw [← id_of_layer? hfound] at hindex
        have hperm := (sameTexts_iff.mp hsame).symm
        exact ⟨index, layer, id_of_layer? hfound, hindex, hlayer, hperm, hreorder.symm⟩
      · exact absurd hreorder (by simp)

/-- A node that is taken out of no layer is only removed; else it is taken out of the
layer at one index. -/
theorem deleteNode_cases {id : String} {node : Node R} (hnode : graph.node? id = some node) :
    (graph.layerOfNode? node id = none ∧
      graph.deleteNode id = { graph with nodes := graph.nodes.erase id }) ∨
    ∃ index layer, graph.layerOfNode? node id = some index ∧
      graph.layers[index]? = some layer ∧
      graph.deleteNode id = ({ graph with nodes := graph.nodes.erase id } : Graph R).relist index
        (layer.nodeIds.filter fun listed => listed != id) := by
  rw [deleteNode, hnode]
  cases hindex : graph.layerOfNode? node id with
  | none => exact Or.inl ⟨rfl, by simp only [hindex]⟩
  | some index =>
      have hlt : index < graph.layers.length := by
        rw [layerOfNode?, Option.or_eq_some_iff] at hindex
        obtain hown | ⟨-, hlists⟩ := hindex
        · exact (List.findIdx?_eq_some_iff_getElem.mp hown).1
        · exact (List.findIdx?_eq_some_iff_getElem.mp hlists).1
      have hlayer := List.getElem?_eq_getElem hlt
      refine Or.inr ⟨index, graph.layers[index], rfl, hlayer, ?_⟩
      simp only [hindex, hlayer]

end Actions

end Graph

end DecisionCanvas
