import DecisionCanvas.Proofs.Canvas.Addition
import DecisionCanvas.Proofs.Canvas.Reloading

/-!
# Actions on one layer

Nodes are filed together, whatever layer shows them, and laying out a layer reaches them by
their ids.  As long as no node is listed twice an action nevertheless stays within one
layer: the one it names, or the one that lists the node it names.  All other layers, and the
nodes they list, are the same afterwards.
-/

namespace DecisionCanvas

variable {R : Type}

namespace Action

/-- The node an action is about; an addition is about the node it adds. -/
def node? (newId : String) : Action R → Option String
  | .addNode _ => some newId
  | .reorderLayer _ _ => none
  | .updateOperand node _ => some node
  | .deleteNode node => some node
  | .updateLabel node _ _ => some node

/-- Whether an action gives a layer another list of nodes. -/
def relists : Action R → Bool
  | .addNode _ | .reorderLayer _ _ | .deleteNode _ => true
  | .updateOperand _ _ | .updateLabel _ _ _ => false

/-- Whether a layer keeps its width, although it is given another list. -/
def holdsWidth : Action R → Bool
  | .reorderLayer _ _ => true
  | _ => false

end Action

/-- Where a node stands and what it does there. -/
def Node.role (node : Node R) : R × R × String × Arithmetic :=
  (node.x, node.y, node.layer, node.operand)

namespace Graph

/-- The layer that lists a node. -/
def listing? (graph : Graph R) (id : String) : Option Nat :=
  graph.layers.findIdx? fun layer => layer.nodeIds.contains id

/-- The layer an action is about: the one it names, which an addition may have to create
after all others, or the one that lists the node it names. -/
def target? (graph : Graph R) : Action R → Option Nat
  | .addNode placement => some ((graph.layerIndex? placement.layer).getD graph.layers.length)
  | .reorderLayer layer _ => graph.layerIndex? layer
  | .updateOperand node _ => graph.listing? node
  | .deleteNode node => graph.listing? node
  | .updateLabel node _ _ => graph.listing? node

/-- Whether the layer at an index lists a node. -/
def ListsAt (graph : Graph R) (index : Nat) (id : String) : Prop :=
  ∃ layer, graph.layers[index]? = some layer ∧ id ∈ layer.nodeIds

variable [Scalar R]

/-- What an action that is accepted leaves as it was, and what it makes of its layer. -/
structure StaysLocal (graph : Graph R) (newId : String) (action : Action R)
    (next : Graph R) : Prop where
  other_layers : ∀ index, graph.target? action ≠ some index →
    next.layers[index]? = graph.layers[index]?
  other_nodes : ∀ id, action.node? newId ≠ some id →
    (∀ index, graph.target? action = some index → ¬ graph.ListsAt index id) →
    next.node? id = graph.node? id
  content_kept : ∀ id node, action.node? newId ≠ some id → graph.node? id = some node →
    ∃ moved, next.node? id = some moved ∧ moved.MovedFrom node ∧
      (moved.operand = node.operand ∨ ∃ index line, graph.target? action = some index ∧
        next.layers[index]? = some line ∧ line.nodeIds.head? = some id)
  relabelled : ∀ node label constant, action = .updateLabel node label constant →
    next.layers = graph.layers ∧
      ∀ id, (next.node? id).map Node.role = (graph.node? id).map Node.role
  relisted : ∀ index, action.relists = true → graph.target? action = some index →
    ∃ line, next.layers[index]? = some line ∧ next.LaidOut line ∧
      (action.holdsWidth = false → line.width = Line.width line.length) ∧
      ∀ layer, graph.layers[index]? = some layer →
        line.id = layer.id ∧ line.y = layer.y ∧
          (action.holdsWidth = true → line.width = layer.width)
  unknown_ignored : ∀ id, (∀ placement, action ≠ .addNode placement) →
    action.node? newId = some id → graph.node? id = none → next = graph

/-! ## A line in place of another -/

section Reline

variable {graph : Graph R} {index : Nat} {layer : Layer R}
variable (hlayer : graph.layers[index]? = some layer) {nodes : Directory (Node R)}
variable {nodeIds : List String}
include hlayer

/-- A node keeps what it is, and its operand unless it is first in the new line. -/
theorem exists_movedFrom_reline (width : R) (hdistinct : nodeIds.Nodup) {id : String}
    {node : Node R} (hnode : nodes.get? id = some node) :
    ∃ moved, (graph.reline index nodes nodeIds width).node? id = some moved ∧
      moved.MovedFrom node ∧
      (moved.operand = node.operand ∨ nodeIds.head? = some id) := by
  by_cases hid : id ∈ nodeIds
  · obtain ⟨place, hplace⟩ := List.mem_iff_getElem?.mp hid
    have hseated : (graph.reline index nodes nodeIds width).node? id = _ :=
      node?_reline_listed hlayer hdistinct hplace
    rw [hnode, Option.map_some] at hseated
    refine ⟨_, hseated, rfl, ?_⟩
    by_cases hzero : place = 0
    · rw [hzero, ← List.head?_eq_getElem?] at hplace
      exact Or.inr hplace
    · exact Or.inl (if_neg hzero)
  · exact ⟨node, (node?_reline_unlisted hlayer hid).trans hnode, rfl, Or.inl rfl⟩

/-- Nothing changes if a layer that is laid out keeps its line. -/
theorem reline_self (hlaid : graph.LaidOut layer) (hdistinct : layer.nodeIds.Nodup) :
    graph.reline index graph.nodes layer.nodeIds layer.width = graph :=
  reline_eq_of_laidOut hlayer hlaid hdistinct hlayer (fun _ _ => rfl) (fun _ _ _ => rfl)
    fun _ _ => rfl

/-- So it is when a node is taken out of a layer that does not list it. -/
theorem relist_erase_self (hlaid : graph.LaidOut layer)
    (hwidth : layer.width = Line.width layer.length) (hdistinct : layer.nodeIds.Nodup)
    {id : String} (hid : id ∉ layer.nodeIds) :
    ({ graph with nodes := graph.nodes.erase id } : Graph R).relist index
        (layer.nodeIds.filter fun listed => listed != id) =
      { graph with nodes := graph.nodes.erase id } := by
  have hall : layer.nodeIds.filter (fun listed => listed != id) = layer.nodeIds := by
    refine List.filter_eq_self.mpr fun other hother => ?_
    exact bne_iff_ne.mpr fun hsame => hid (hsame ▸ hother)
  let remaining : Graph R := { graph with nodes := graph.nodes.erase id }
  have hself : remaining.reline index remaining.nodes layer.nodeIds layer.width = remaining :=
    reline_self hlayer (hlaid.erase hid) hdistinct
  rw [hwidth] at hself
  rw [hall]
  exact hself

end Reline

/-! ## Layers that share nothing -/

/-- A graph as it is restored from layers that share nothing.  A node that no layer lists has
noted the empty id, so a layer of that id is laid out again when such a node is deleted.
That layer can only have been created by an addition, so it is as it would be laid out. -/
structure Separated (graph : Graph R) : Prop extends Settled graph where
  layer_ids_distinct : (graph.layers.map Layer.id).Nodup
  listed_once : graph.listed.Nodup
  unnamed_regular : ∀ layer ∈ graph.layers, layer.id = "" →
    graph.LaidOut layer ∧ layer.width = Line.width layer.length

/-- What an action gives the layer it is about, which may have been created just before, in
`base`: another line, which is listed nowhere else, and in which only the node that the action
is about may be new. -/
structure Relines (graph : Graph R) (newId : String) (action : Action R) (base : Graph R)
    (index : Nat) (layer : Layer R) (nodes : Directory (Node R)) (nodeIds : List String)
    (width : R) : Prop where
  target_eq : graph.target? action = some index
  relists : action.relists = true
  layer_at : base.layers[index]? = some layer
  nodes_eq : base.nodes = graph.nodes
  other_layers : ∀ other, other ≠ index → base.layers[other]? = graph.layers[other]?
  same_layer : ∀ old, graph.layers[index]? = some old → old = layer
  listed_once : (nodeIds ++ base.elsewhere index).Nodup
  listed_stored : ∀ id ∈ nodeIds, (nodes.get? id).isSome = true
  listed_before : ∀ id ∈ nodeIds, action.node? newId = some id ∨ graph.ListsAt index id
  nodes_kept : ∀ id, action.node? newId ≠ some id → nodes.get? id = graph.node? id
  node_not_elsewhere : ∀ id ∈ base.elsewhere index, action.node? newId ≠ some id
  width_eq : width = if action.holdsWidth then layer.width else Line.width nodeIds.length
  length_held : action.holdsWidth = true → nodeIds.length = layer.length
  node_known : ∀ id, (∀ placement, action ≠ .addNode placement) →
    action.node? newId = some id → graph.node? id ≠ none

namespace Relines

variable {graph base : Graph R} {newId : String} {action : Action R} {index : Nat}
variable {layer : Layer R} {nodes : Directory (Node R)} {nodeIds : List String} {width : R}
variable (hrelines : graph.Relines newId action base index layer nodes nodeIds width)
include hrelines

theorem distinct : nodeIds.Nodup :=
  (List.nodup_append.mp hrelines.listed_once).1

theorem staysLocal :
    graph.StaysLocal newId action (base.reline index nodes nodeIds width) where
  other_layers other hother := by
    have hne : other ≠ index := fun hsame => hother (hsame ▸ hrelines.target_eq)
    rw [getElem?_reline_ne hne, hrelines.other_layers other hne]
  other_nodes id hid hunlisted := by
    have hnew : id ∉ nodeIds := fun hmem =>
      (hrelines.listed_before id hmem).elim hid (hunlisted index hrelines.target_eq)
    rw [node?_reline_unlisted hrelines.layer_at hnew, hrelines.nodes_kept id hid]
  content_kept id node hid hnode := by
    have hheld := (hrelines.nodes_kept id hid).trans hnode
    obtain ⟨moved, hmoved, hfrom, hoperand⟩ :=
      exists_movedFrom_reline hrelines.layer_at width hrelines.distinct hheld
    refine ⟨moved, hmoved, hfrom, hoperand.imp_right fun hhead => ?_⟩
    exact ⟨index, _, hrelines.target_eq, getElem?_reline hrelines.layer_at, hhead⟩
  relabelled node label constant haction := by
    have hrelists := hrelines.relists
    rw [haction] at hrelists
    exact absurd hrelists (by simp [Action.relists])
  relisted other _ hother := by
    rw [hrelines.target_eq, Option.some.injEq] at hother
    subst hother
    refine ⟨_, getElem?_reline hrelines.layer_at,
      laidOut_reline hrelines.layer_at hrelines.distinct hrelines.listed_stored,
      fun hheld => ?_, fun old hold => ?_⟩
    · exact hrelines.width_eq.trans (if_neg (by simp [hheld]))
    · rw [hrelines.same_layer old hold]
      exact ⟨rfl, rfl, fun hheld => hrelines.width_eq.trans (if_pos hheld)⟩
  unknown_ignored id hother hid hnone := absurd hnone (hrelines.node_known id hother hid)

/-- Layers go on sharing nothing. -/
theorem separated (hbase : base.Separated)
    (hsettled : (base.reline index nodes nodeIds width).Settled) :
    (base.reline index nodes nodeIds width).Separated := by
  refine ⟨hsettled, ?_, ?_, fun shown hshown hunnamed => ?_⟩
  · rw [map_id_reline]
    exact hbase.layer_ids_distinct
  · exact (listed_reline_perm hrelines.layer_at).nodup_iff.mpr hrelines.listed_once
  · obtain ⟨other, hother⟩ := List.mem_iff_getElem?.mp hshown
    obtain ⟨rfl, rfl⟩ | ⟨hindex, hheld⟩ := getElem?_reline_cases hrelines.layer_at hother
    · refine ⟨laidOut_reline hrelines.layer_at hrelines.distinct hrelines.listed_stored, ?_⟩
      refine hrelines.width_eq.trans ?_
      split
      · rename_i hheld
        have hregular := hbase.unnamed_regular layer (List.mem_of_getElem? hrelines.layer_at)
          hunnamed
        rw [hregular.2, ← hrelines.length_held hheld]
        rfl
      · rfl
    · obtain ⟨hlaid, hwidth⟩ :=
        hbase.unnamed_regular shown (List.mem_of_getElem? hheld) hunnamed
      refine ⟨hlaid.reline hrelines.layer_at hindex hheld hrelines.listed_once
        fun id hid => ?_, hwidth⟩
      rw [hrelines.nodes_kept id (hrelines.node_not_elsewhere id hid), Graph.node?, Graph.node?,
        hrelines.nodes_eq]

end Relines

/-- A change of one node's content is local to that node. -/
theorem staysLocal_modify {graph : Graph R} {newId id : String} {action : Action R}
    (hid : action.node? newId = some id) (hrelists : action.relists = false)
    {change : Node R → Node R}
    (hrole : ∀ node label constant, action = .updateLabel node label constant →
      ∀ node, (change node).role = node.role) :
    graph.StaysLocal newId action { graph with nodes := graph.nodes.modify id change } where
  other_layers _ _ := rfl
  other_nodes other hother _ := by
    have hne : other ≠ id := fun hsame => hother (hsame ▸ hid)
    exact (Directory.get?_modify _ _ _ _).trans (if_neg hne)
  content_kept other node hother hnode := by
    have hne : other ≠ id := fun hsame => hother (hsame ▸ hid)
    exact ⟨node, (Directory.get?_modify _ _ _ _).trans ((if_neg hne).trans hnode), rfl,
      Or.inl rfl⟩
  relabelled node label constant haction := by
    refine ⟨rfl, fun other => ?_⟩
    have hchanged := Directory.get?_modify graph.nodes id other change
    have hsame := hrole node label constant haction
    rw [node?, hchanged]
    split
    · rw [Option.map_map]
      exact congrArg₂ Option.map (funext hsame) rfl
    · rfl
  relisted _ hchanges := by
    rw [hrelists] at hchanges
    exact absurd hchanges (by simp)
  unknown_ignored other _ hother hnone := by
    rw [hid, Option.some.injEq] at hother
    subst hother
    refine congrArg (fun nodes => (⟨nodes, graph.layers⟩ : Graph R)) (Directory.ext_get? ?_)
    intro key
    rw [Directory.get?_modify]
    split
    · rename_i hkey
      rw [hkey, show graph.nodes.get? id = none from hnone]
      rfl
    · rfl

/-- An action may change nothing at all, unless it is to lay out a layer. -/
theorem staysLocal_self {graph : Graph R} {newId : String} {action : Action R}
    (hnowhere : action.relists = true → graph.target? action = none) :
    graph.StaysLocal newId action graph where
  other_layers _ _ := rfl
  other_nodes _ _ _ := rfl
  content_kept _ node _ hnode := ⟨node, hnode, rfl, Or.inl rfl⟩
  relabelled _ _ _ _ := ⟨rfl, fun _ => rfl⟩
  relisted index hrelists htarget := by
    rw [hnowhere hrelists] at htarget
    exact absurd htarget (by simp)
  unknown_ignored _ _ _ _ := rfl

/-- The node an action names may go if no layer lists it. -/
theorem staysLocal_erase {graph : Graph R} {newId id : String}
    (hstored : graph.node? id ≠ none) (hunlisted : graph.listing? id = none) :
    graph.StaysLocal newId (.deleteNode id) { graph with nodes := graph.nodes.erase id } where
  other_layers _ _ := rfl
  other_nodes other hother _ := by
    have hne : other ≠ id := fun hsame => hother (congrArg some hsame.symm)
    exact Directory.get?_erase_ne _ hne
  content_kept other node hother hnode := by
    have hne : other ≠ id := fun hsame => hother (congrArg some hsame.symm)
    exact ⟨node, (Directory.get?_erase_ne _ hne).trans hnode, rfl, Or.inl rfl⟩
  relabelled _ _ _ haction := absurd haction (by simp)
  relisted index _ htarget := by
    rw [show graph.target? (.deleteNode id) = none from hunlisted] at htarget
    exact absurd htarget (by simp)
  unknown_ignored other _ hother hnone := by
    rw [show other = id from (Option.some.inj hother).symm] at hnone
    exact absurd hnone hstored

omit [Scalar R] in
theorem listing?_eq_none_iff {graph : Graph R} {id : String} :
    graph.listing? id = none ↔ ∀ layer ∈ graph.layers, id ∉ layer.nodeIds := by
  simp [listing?, List.findIdx?_eq_none_iff]

omit [Scalar R] in
/-- The layer that is found for a node is the one that lists it, if no other does. -/
theorem listing?_of_mem {graph : Graph R} {index : Nat} {layer : Layer R} {id : String}
    (hlayer : graph.layers[index]? = some layer) (hid : id ∈ layer.nodeIds)
    (hunlisted : id ∉ graph.elsewhere index) : graph.listing? id = some index := by
  obtain ⟨hlt, rfl⟩ := List.getElem?_eq_some_iff.mp hlayer
  refine List.findIdx?_eq_some_iff_getElem.mpr ⟨hlt, by simpa using hid, fun other hother => ?_⟩
  have hbefore : other < graph.layers.length := Nat.lt_trans hother hlt
  have hmiss : id ∉ graph.layers[other].nodeIds := fun hmem =>
    hunlisted (mem_elsewhere.mpr
      ⟨other, _, Nat.ne_of_lt hother, List.getElem?_eq_getElem hbefore, hmem⟩)
  simpa using hmiss

namespace Separated

variable {graph : Graph R} (hgraph : graph.Separated)
include hgraph

theorem distinct_line {index : Nat} {layer : Layer R}
    (hlayer : graph.layers[index]? = some layer) :
    (layer.nodeIds ++ graph.elsewhere index).Nodup :=
  (listed_perm hlayer).nodup_iff.mp hgraph.listed_once

/-- A layer without nodes may be created under a new id. -/
theorem addLayer {id : String} (hnew : graph.layerIndex? id = none) (y : R) :
    ({ graph with layers := graph.layers ++ [Layer.empty id y] } : Graph R).Separated := by
  refine ⟨hgraph.toSettled.addLayer id y, ?_, ?_, fun layer hlayer hunnamed => ?_⟩
  · rw [List.map_append, List.map_singleton, ← List.concat_eq_append]
    exact hgraph.layer_ids_distinct.concat (layerIndex?_eq_none_iff.mp hnew)
  · have hlisted : ({ graph with layers := graph.layers ++ [Layer.empty id y] } :
        Graph R).listed = graph.listed := by
      simp [listed, Layer.empty]
    rw [hlisted]
    exact hgraph.listed_once
  · cases List.mem_append.mp hlayer with
    | inl hold => exact hgraph.unnamed_regular layer hold hunnamed
    | inr hadded =>
        rw [List.mem_singleton.mp hadded]
        exact ⟨fun place node hplace => by simp [Layer.empty] at hplace, rfl⟩

/-- A node may change in everything but its place, unless it is the first of a layer and
would no longer add. -/
theorem modifyNode (id : String) {change : Node R → Node R}
    (hkeeps : ∀ node, change node = { node with
      label := (change node).label, constant := (change node).constant,
      operand := (change node).operand })
    (hfirst : ∀ layer ∈ graph.layers, layer.nodeIds.head? = some id →
      ∀ node, (change node).operand = node.operand) :
    ({ graph with nodes := graph.nodes.modify id change } : Graph R).Separated where
  toSettled := hgraph.toSettled.modifyNode id hkeeps
  layer_ids_distinct := hgraph.layer_ids_distinct
  listed_once := hgraph.listed_once
  unnamed_regular layer hlayer hunnamed := by
    obtain ⟨hlaid, hwidth⟩ := hgraph.unnamed_regular layer hlayer hunnamed
    exact ⟨hlaid.modifyNode id hkeeps (hfirst layer hlayer), hwidth⟩

/-! ### Actions -/

omit hgraph in
/-- The new node takes a place among those of its layer. -/
theorem relines_addToLayer {base : Graph R} (hbase : base.Separated)
    (hnodes : base.nodes = graph.nodes) {index : Nat} {layer : Layer R}
    (hlayer : base.layers[index]? = some layer)
    (hother : ∀ other, other ≠ index → base.layers[other]? = graph.layers[other]?)
    (hsame : ∀ old, graph.layers[index]? = some old → old = layer)
    (hlists : ∀ id ∈ layer.nodeIds, graph.ListsAt index id) {newId : String}
    {placement : Placement R} (htarget : graph.target? (.addNode placement) = some index)
    (hfresh : graph.node? newId = none) :
    let nodeIds := layer.nodeIds.insertIdx (min placement.index layer.length) newId
    graph.Relines newId (.addNode placement) base index layer
      (base.nodes.insert newId (newNode newId placement layer (Scalar.ofNat 0))) nodeIds
      (Line.width nodeIds.length) := by
  intro nodeIds
  have hmem : ∀ id, id ∈ nodeIds ↔ id = newId ∨ id ∈ layer.nodeIds :=
    fun id => Layer.mem_withNode
  have hperm : (nodeIds ++ base.elsewhere index).Perm (newId :: base.listed) :=
    insertIdx_elsewhere_perm hlayer placement.index newId
  have hnew : newId ∉ base.listed := by
    intro hlisted
    obtain ⟨shown, hshown, hid⟩ := List.mem_flatMap.mp hlisted
    have hstored := hbase.listed_stored shown hshown newId hid
    rw [Graph.node?, hnodes] at hstored
    rw [show graph.nodes.get? newId = none from hfresh] at hstored
    exact absurd hstored (by simp)
  refine ⟨htarget, rfl, hlayer, hnodes, hother, hsame, ?_, fun id hid => ?_, fun id hid => ?_,
    fun id hid => ?_, fun id hid => ?_, rfl,
    fun hheld => absurd hheld (by simp [Action.holdsWidth]),
    fun id hadd => absurd rfl (hadd placement)⟩
  · exact hperm.nodup_iff.mpr (List.nodup_cons.mpr ⟨hnew, hbase.listed_once⟩)
  · rw [Directory.get?_insert]
    split
    · rfl
    · rename_i hne
      have hold := ((hmem id).mp hid).resolve_left hne
      exact hbase.listed_stored layer (List.mem_of_getElem? hlayer) id hold
  · obtain rfl | hold := (hmem id).mp hid
    · exact Or.inl rfl
    · exact Or.inr (hlists id hold)
  · have hne : id ≠ newId := fun hsame => hid (congrArg some hsame.symm)
    rw [Directory.get?_insert, if_neg hne, hnodes]
    rfl
  · intro hsame
    rw [← Option.some.inj hsame] at hid
    exact hnew ((listed_perm hlayer).mem_iff.mpr (List.mem_append_right _ hid))

theorem addNode {newId : String} {placement : Placement R} {next : Graph R}
    (hfresh : graph.node? newId = none) (hadd : graph.addNode newId placement = .ok next) :
    next.Separated ∧ graph.StaysLocal newId (.addNode placement) next := by
  have hsettled := hgraph.toSettled.addNode hfresh hadd
  obtain ⟨-, ⟨index, layer, hid, hfirst, hlayer, rfl⟩ | ⟨y, -, hnew, rfl⟩⟩ := addNode_eq_ok hadd
  · rw [hid] at hfirst
    have htarget : graph.target? (.addNode placement) = some index := by
      rw [target?, hfirst, Option.getD_some]
    have hrelines := relines_addToLayer hgraph rfl hlayer (fun _ _ => rfl)
      (fun old hold => Option.some.inj (hold.symm.trans hlayer))
      (fun id hid => ⟨layer, hlayer, hid⟩) htarget hfresh
    exact ⟨hrelines.separated hgraph hsettled, hrelines.staysLocal⟩
  · have htarget : graph.target? (.addNode placement) = some graph.layers.length := by
      rw [target?, hnew, Option.getD_none]
    let added := Layer.empty placement.layer y
    let extended : Graph R := { graph with layers := graph.layers ++ [added] }
    have hextended : extended.Separated := hgraph.addLayer hnew y
    have hnodes : extended.nodes = graph.nodes := rfl
    have hadded : extended.layers[graph.layers.length]? = some added := by simp [extended]
    have hnone : graph.layers[graph.layers.length]? = none := by simp
    have hother : ∀ other, other ≠ graph.layers.length →
        extended.layers[other]? = graph.layers[other]? := by
      intro other hother
      rw [List.getElem?_append]
      split
      · rfl
      · rw [List.getElem?_eq_none (by simp; omega), List.getElem?_eq_none (by omega)]
    have hrelines := relines_addToLayer hextended hnodes hadded hother
      (fun old hold => absurd (hold.symm.trans hnone) (by simp))
      (fun id hid => absurd hid List.not_mem_nil) htarget hfresh
    exact ⟨hrelines.separated hextended hsettled, hrelines.staysLocal⟩

theorem reorderLayer {id newId : String} {nodeIds : List String} {next : Graph R}
    (hreorder : graph.reorderLayer id nodeIds = .ok next) :
    next.Separated ∧ graph.StaysLocal newId (.reorderLayer id nodeIds) next := by
  have hsettled := hgraph.toSettled.reorderLayer hreorder
  obtain ⟨index, layer, rfl, hfirst, hlayer, hperm, rfl⟩ := reorderLayer_eq_ok hreorder
  have hrelines : graph.Relines newId (.reorderLayer layer.id nodeIds) graph index layer
      graph.nodes nodeIds layer.width := by
    refine ⟨hfirst, rfl, hlayer, rfl, fun _ _ => rfl,
      fun old hold => Option.some.inj (hold.symm.trans hlayer), ?_, fun other hother => ?_,
      fun other hother => Or.inr ⟨layer, hlayer, hperm.mem_iff.mp hother⟩, fun _ _ => rfl,
      fun _ _ => by simp [Action.node?], rfl, fun _ => hperm.length_eq,
      fun other _ hother => absurd hother (by simp [Action.node?])⟩
    · exact (hperm.append_right _).nodup_iff.mpr (hgraph.distinct_line hlayer)
    · exact hgraph.listed_stored layer (List.mem_of_getElem? hlayer) other
        (hperm.mem_iff.mp hother)
  exact ⟨hrelines.separated hgraph hsettled, hrelines.staysLocal⟩

theorem updateOperand (id newId : String) (operand : Arithmetic) :
    (graph.updateOperand id operand).Separated ∧
      graph.StaysLocal newId (.updateOperand id operand) (graph.updateOperand id operand) := by
  have hself : graph.StaysLocal newId (.updateOperand id operand) graph :=
    staysLocal_self fun hrelists => absurd hrelists (by simp [Action.relists])
  rw [Graph.updateOperand]
  cases hnode : graph.node? id with
  | none => exact ⟨hgraph, hself⟩
  | some node =>
      simp only
      split
      · exact ⟨hgraph, hself⟩
      · rename_i hnotFirst
        refine ⟨hgraph.modifyNode id (fun _ => rfl) fun layer hlayer hhead => ?_,
          staysLocal_modify rfl rfl fun _ _ _ haction => absurd haction (by simp)⟩
        -- The node would be the first of the layer it belongs to.
        obtain ⟨index, hindex⟩ := List.mem_iff_getElem?.mp hlayer
        obtain ⟨held, hheld, hbelongs⟩ := hgraph.belongs hindex (List.mem_of_head? hhead)
        rw [hnode, Option.some.injEq] at hheld
        subst hheld
        rw [hbelongs, layer?_of_mem hgraph.layer_ids_distinct hlayer] at hnotFirst
        exact absurd (by simp [Layer.isFirst, hhead]) hnotFirst

theorem updateLabel (id newId label : String) (constant : Option R) :
    (graph.updateLabel id label constant).Separated ∧
      graph.StaysLocal newId (.updateLabel id label constant)
        (graph.updateLabel id label constant) :=
  ⟨hgraph.modifyNode id (fun _ => rfl) fun _ _ _ _ => rfl,
    staysLocal_modify rfl rfl fun _ _ _ _ _ => rfl⟩

/-- A node that is listed nowhere is only removed: if there is a layer with the empty id, it
is laid out again as it was. -/
theorem deleteNode_cases {id : String} {node : Node R} (hnode : graph.node? id = some node) :
    (graph.listing? id = none ∧
      graph.deleteNode id = { graph with nodes := graph.nodes.erase id }) ∨
    ∃ index layer, graph.layers[index]? = some layer ∧ id ∈ layer.nodeIds ∧
      id ∉ graph.elsewhere index ∧
      graph.deleteNode id = ({ graph with nodes := graph.nodes.erase id } : Graph R).relist index
        (layer.nodeIds.filter fun listed => listed != id) := by
  obtain ⟨hnone, hdelete⟩ | ⟨index, layer, hindex, hlayer, hdelete⟩ :=
    Graph.deleteNode_cases hnode
  · rw [layerOfNode?, Option.or_eq_none_iff] at hnone
    exact Or.inl ⟨hnone.2, hdelete⟩
  · have helsewhere := (hgraph.owner_of_layerOfNode? hnode hindex hlayer).2
    by_cases hid : id ∈ layer.nodeIds
    · exact Or.inr ⟨index, layer, hlayer, hid, helsewhere, hdelete⟩
    · have hunlisted : id ∉ graph.listed := by
        rw [(listed_perm hlayer).mem_iff, List.mem_append, not_or]
        exact ⟨hid, helsewhere⟩
      have hlisting : graph.listing? id = none :=
        listing?_eq_none_iff.mpr fun shown hshown hmem =>
          hunlisted (List.mem_flatMap.mpr ⟨shown, hshown, hmem⟩)
      -- A node that stands nowhere has noted the empty id.
      have hnowhere : node.layer = "" := by
        have hstands := hgraph.stands id node hnode
        rw [Layer.lastPlace?_eq_none_iff.mpr hunlisted] at hstands
        exact congrArg Node.layer hstands
      have hunnamed : layer.id = "" := by
        rw [layerOfNode?, show graph.layers.findIdx? _ = none from hlisting, Option.or_none]
          at hindex
        rw [id_of_layer? (layer?_eq_some_iff.mpr ⟨_, hindex, hlayer⟩), hnowhere]
      obtain ⟨hlaid, hwidth⟩ :=
        hgraph.unnamed_regular layer (List.mem_of_getElem? hlayer) hunnamed
      have hdistinct := (List.nodup_append.mp (hgraph.distinct_line hlayer)).1
      exact Or.inl ⟨hlisting,
        hdelete.trans (relist_erase_self hlayer hlaid hwidth hdistinct hid)⟩

theorem eraseUnlisted {id : String} (hunlisted : graph.listing? id = none) :
    ({ graph with nodes := graph.nodes.erase id } : Graph R).Separated where
  toSettled := hgraph.toSettled.eraseUnlisted (listing?_eq_none_iff.mp hunlisted)
  layer_ids_distinct := hgraph.layer_ids_distinct
  listed_once := hgraph.listed_once
  unnamed_regular layer hlayer hunnamed := by
    obtain ⟨hlaid, hwidth⟩ := hgraph.unnamed_regular layer hlayer hunnamed
    exact ⟨hlaid.erase (listing?_eq_none_iff.mp hunlisted layer hlayer), hwidth⟩

theorem deleteNode (id newId : String) :
    (graph.deleteNode id).Separated ∧
      graph.StaysLocal newId (.deleteNode id) (graph.deleteNode id) := by
  cases hnode : graph.node? id with
  | none =>
      have hunlisted : graph.listing? id = none :=
        listing?_eq_none_iff.mpr fun layer hlayer hid => by
          have hstored := hgraph.listed_stored layer hlayer id hid
          rw [hnode] at hstored
          exact absurd hstored (by simp)
      rw [Graph.deleteNode, hnode]
      exact ⟨hgraph, staysLocal_self fun _ => hunlisted⟩
  | some node =>
      have hstored : graph.node? id ≠ none := by simp [hnode]
      obtain ⟨hunlisted, hdelete⟩ | ⟨index, layer, hlayer, hid, helsewhere, hdelete⟩ :=
        hgraph.deleteNode_cases hnode
      · rw [hdelete]
        exact ⟨hgraph.eraseUnlisted hunlisted, staysLocal_erase hstored hunlisted⟩
      · have hsettled := hgraph.toSettled.deleteNode id
        let nodeIds := layer.nodeIds.filter fun listed => listed != id
        have hrest : ∀ other ∈ nodeIds, other ∈ layer.nodeIds ∧ other ≠ id := by
          intro other hother
          exact ⟨(List.mem_filter.mp hother).1, bne_iff_ne.mp (List.mem_filter.mp hother).2⟩
        have hrelines : graph.Relines newId (.deleteNode id) graph index layer
            (graph.nodes.erase id) nodeIds (Line.width nodeIds.length) := by
          refine ⟨listing?_of_mem hlayer hid helsewhere, rfl, hlayer, rfl, fun _ _ => rfl,
            fun old hold => Option.some.inj (hold.symm.trans hlayer), ?_,
            fun other hother => ?_, fun other hother => ?_, fun other hother => ?_,
            fun other hother hsame => ?_, rfl,
            fun hheld => absurd hheld (by simp [Action.holdsWidth]), fun other _ hother => ?_⟩
          · exact (hgraph.distinct_line hlayer).sublist (List.filter_sublist.append_right _)
          · obtain ⟨hold, hne⟩ := hrest other hother
            exact isSome_get?_erase hne
              (hgraph.listed_stored layer (List.mem_of_getElem? hlayer) other hold)
          · exact Or.inr ⟨layer, hlayer, (hrest other hother).1⟩
          · have hne : other ≠ id := fun hsame => hother (congrArg some hsame.symm)
            exact Directory.get?_erase_ne _ hne
          · exact helsewhere (Option.some.inj hsame ▸ hother)
          · exact Option.some.inj hother ▸ hstored
        rw [hdelete] at hsettled ⊢
        exact ⟨hrelines.separated hgraph hsettled, hrelines.staysLocal⟩

/-- An action that is accepted stays within one layer, and layers go on sharing nothing. -/
theorem dispatch {newId : String} {action : Action R} {next : Graph R}
    (hfresh : ∀ placement, action = .addNode placement → graph.node? newId = none)
    (haccepted : graph.dispatch newId action = .ok next) :
    next.Separated ∧ graph.StaysLocal newId action next := by
  cases action with
  | addNode placement => exact hgraph.addNode (hfresh placement rfl) haccepted
  | reorderLayer layer nodeIds => exact hgraph.reorderLayer haccepted
  | updateOperand node operand =>
      rw [Graph.dispatch, Except.ok.injEq] at haccepted
      exact haccepted ▸ hgraph.updateOperand node newId operand
  | deleteNode node =>
      rw [Graph.dispatch, Except.ok.injEq] at haccepted
      exact haccepted ▸ hgraph.deleteNode node newId
  | updateLabel node label constant =>
      rw [Graph.dispatch, Except.ok.injEq] at haccepted
      exact haccepted ▸ hgraph.updateLabel node newId label constant

end Separated

theorem Reaches.preserves_separated {start graph : Graph R} (hstart : start.Separated)
    (hreaches : Reaches start graph) : graph.Separated := by
  induction hreaches with
  | refl => exact hstart
  | @step graph newId action _ hfresh ih =>
      rw [after]
      cases hdispatch : graph.dispatch newId action with
      | error error => exact ih
      | ok next => exact (ih.dispatch hfresh hdispatch).1

end Graph

namespace PersistedGraph

variable [Scalar R] {persisted : PersistedGraph R}

/-- Layers with distinct ids, none of them empty, share nothing if no node is listed twice. -/
theorem separated_restore (hids : (persisted.layers.map PersistedLayer.id).Nodup)
    (hnamed : "" ∉ persisted.layers.map PersistedLayer.id)
    (honce : (persisted.layers.flatMap PersistedLayer.nodeIds).Nodup) :
    persisted.restore.Separated := by
  have hlayerIds : persisted.restore.layers.map Layer.id =
      persisted.layers.map PersistedLayer.id := by
    rw [layers_restore, List.map_map]
    rfl
  refine ⟨⟨persisted.restored_restore, listsApart_restore hids honce⟩, ?_, ?_,
    fun layer hlayer hunnamed => ?_⟩
  · rw [hlayerIds]
    exact hids
  · rw [listed_restore]
    exact honce.filter _
  · have hmem := List.mem_map_of_mem (f := Layer.id) hlayer
    rw [hlayerIds, hunnamed] at hmem
    exact absurd hmem hnamed

end PersistedGraph

namespace Graph

variable [Scalar R]

/-- From a persisted graph with distinct and nonempty layer ids, in which no node is listed
twice, actions lead to graphs in which every action that is accepted stays within one layer. -/
theorem staysLocal_of_reaches_restore {persisted : PersistedGraph R}
    (hids : (persisted.layers.map PersistedLayer.id).Nodup)
    (hnamed : "" ∉ persisted.layers.map PersistedLayer.id)
    (honce : (persisted.layers.flatMap PersistedLayer.nodeIds).Nodup) {graph : Graph R}
    (hreaches : Reaches persisted.restore graph) {newId : String} {action : Action R}
    (hfresh : ∀ placement, action = .addNode placement → graph.node? newId = none)
    {next : Graph R} (haccepted : graph.dispatch newId action = .ok next) :
    graph.StaysLocal newId action next := by
  have hstart := PersistedGraph.separated_restore hids hnamed honce
  exact ((hreaches.preserves_separated hstart).dispatch hfresh haccepted).2

/-- The first node of a layer that multiplies is deleted, after a layer with the empty id has
been created.  The next node moves to the middle of a narrower line and adds; the other layers
keep their widths and nodes. -/
theorem staysLocal_first_deleted :
    let node (id label : String) : PersistedNode Float :=
      ⟨id, label, .constant, some 2, .times, none, none, none⟩
    let persisted : PersistedGraph Float :=
      ⟨[⟨"root", 80, ["b", "lost", "a"], 500⟩, ⟨"row", 180, ["c"], 90⟩],
        [node "a" "rate", node "b" "base", node "c" "fee", node "d" "toll"]⟩
    let added : Placement Float :=
      ⟨"tax", none, none, none, .constant, some 2, "", 0, some 280⟩
    let graph := (persisted.restore.after "" (.updateOperand "a" .minus)).after "n"
      (.addNode added)
    let next := graph.deleteNode "b"
    (persisted.layers.map PersistedLayer.id).Nodup ∧
      "" ∉ persisted.layers.map PersistedLayer.id ∧
      (persisted.layers.flatMap PersistedLayer.nodeIds).Nodup ∧
      Reaches persisted.restore graph ∧ graph.dispatch "" (.deleteNode "b") = .ok next ∧
      (graph.node? "a").map Node.role = some (375, 80, "root", .minus) ∧
      next.layers =
        [⟨"root", 80, ["a"], 240⟩, ⟨"row", 180, ["c"], 90⟩, ⟨"", 280, ["n"], 240⟩] ∧
      (next.node? "a").map Node.role = some (120, 80, "root", .plus) ∧
      next.node? "c" = graph.node? "c" ∧ graph.StaysLocal "" (.deleteNode "b") next := by
  intro node persisted added graph next
  have hids : (persisted.layers.map PersistedLayer.id).Nodup := by decide
  have hnamed : "" ∉ persisted.layers.map PersistedLayer.id := by decide
  have honce : (persisted.layers.flatMap PersistedLayer.nodeIds).Nodup := by decide
  have hreaches : Reaches persisted.restore graph := by
    refine .step _ _ (.step _ _ .refl fun _ hadd => ?_) fun _ _ => ?_
    · exact absurd hadd (by simp)
    · decide +kernel
  have hlocal : graph.StaysLocal "" (.deleteNode "b") next :=
    staysLocal_of_reaches_restore hids hnamed honce hreaches
      (fun _ hadd => absurd hadd (by simp)) rfl
  have htarget : graph.target? (.deleteNode "b") = some 0 := by decide +kernel
  have hroot : graph.layers[0]? = some ⟨"root", 80, ["b", "a"], 500⟩ := by decide +kernel
  have hfee : next.node? "c" = graph.node? "c" := by
    refine hlocal.other_nodes "c" (by simp [Action.node?]) fun index hindex => ?_
    rw [htarget, Option.some.injEq] at hindex
    rintro ⟨layer, hlayer, hid⟩
    rw [← hindex, hroot, Option.some.injEq] at hlayer
    rw [← hlayer] at hid
    exact absurd hid (by decide)
  refine ⟨hids, hnamed, honce, hreaches, rfl, ?_, ?_, ?_, hfee, hlocal⟩
  · decide +kernel
  · decide +kernel
  · decide +kernel

end Graph

end DecisionCanvas
