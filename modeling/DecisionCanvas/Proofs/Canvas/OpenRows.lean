import DecisionCanvas.Proofs.Canvas.SessionCalls

/-!
# Open rows

The layer of a row below the root belongs to a node that was added to the row above it.  A
node gets an id that no node has had before, so no layer is shown in two rows, however
nodes come and go.
-/

namespace DecisionCanvas

variable {R : Type}

namespace Graph

/-- Whether a layer with an id lists a node. -/
def Lists (graph : Graph R) (layerId id : String) : Prop :=
  ∃ layer ∈ graph.layers, layer.id = layerId ∧ id ∈ layer.nodeIds

theorem lists_setLine {graph : Graph R} {index : Nat} {layer : Layer R}
    (hlayer : graph.layers[index]? = some layer) {nodeIds : List String} {width : R}
    {layerId id : String} (hlists : (graph.setLine index nodeIds width).Lists layerId id) :
    graph.Lists layerId id ∨ layerId = layer.id ∧ id ∈ nodeIds := by
  obtain ⟨shown, hshown, hid, hmem⟩ := hlists
  obtain ⟨other, hother⟩ := List.mem_iff_getElem?.mp hshown
  obtain ⟨-, rfl⟩ | ⟨-, hkept⟩ := getElem?_setLine_cases hlayer hother
  · exact Or.inr ⟨hid.symm, hmem⟩
  · exact Or.inl ⟨shown, List.mem_of_getElem? hkept, hid, hmem⟩

variable [Scalar R]

theorem lists_settle {graph : Graph R} {index : Nat} {layerId id : String} :
    (graph.settle index).Lists layerId id ↔ graph.Lists layerId id := by
  rw [Lists, layers_settle, Lists]

theorem Adds.lists {graph next : Graph R} {newId : String} {placement : Placement R} {y : R}
    (hadds : graph.Adds newId placement y next)
    (hdistinct : (next.layers.map Layer.id).Nodup) {layerId id : String}
    (hlists : next.Lists layerId id) :
    graph.Lists layerId id ∨ id = newId ∧ layerId = placement.layer := by
  obtain ⟨layer, hlayer, rfl, hid⟩ := hlists
  have hfound := layer?_of_mem hdistinct hlayer
  rw [hadds.layer?_eq] at hfound
  split at hfound
  · rename_i hsame
    rw [← Option.some.inj hfound, Layer.mem_withNode, lineFor] at hid
    rw [hsame]
    obtain hnew | hold := hid
    · exact Or.inr ⟨hnew, rfl⟩
    · cases hline : graph.layer? placement.layer with
      | none => simp [hline, Layer.empty] at hold
      | some line =>
          rw [hline, Option.getD_some] at hold
          exact Or.inl ⟨line, List.mem_of_find?_eq_some hline, id_of_layer? hline, hold⟩
  · exact Or.inl ⟨layer, List.mem_of_find?_eq_some hfound, rfl, hid⟩

theorem lists_of_deleteNode {graph : Graph R} {node layerId id : String}
    (hlists : (graph.deleteNode node).Lists layerId id) : graph.Lists layerId id := by
  cases hnode : graph.node? node with
  | none =>
      rw [deleteNode, hnode] at hlists
      exact hlists
  | some held =>
      obtain ⟨-, hdelete⟩ | ⟨index, layer, -, hlayer, hdelete⟩ := deleteNode_cases hnode
      · rw [hdelete] at hlists
        exact hlists
      · rw [hdelete, relist, lists_settle] at hlists
        let remaining : Graph R := { graph with nodes := graph.nodes.erase node }
        have hshown : remaining.layers[index]? = some layer := hlayer
        obtain hold | ⟨rfl, hid⟩ := lists_setLine hshown hlists
        · exact hold
        · exact ⟨layer, List.mem_of_getElem? hlayer, rfl, (List.mem_filter.mp hid).1⟩

/-- An action lists no node in a layer that did not list it before, unless it adds the
node. -/
theorem lists_of_after {graph : Graph R} {newId : String} {action : Action R}
    (hdistinct : ((graph.after newId action).layers.map Layer.id).Nodup) {layerId id : String}
    (hlists : (graph.after newId action).Lists layerId id) :
    graph.Lists layerId id ∨
      ∃ placement, action = .addNode placement ∧ id = newId ∧ layerId = placement.layer := by
  rw [after] at hdistinct hlists
  cases hdispatch : graph.dispatch newId action with
  | error error =>
      rw [hdispatch] at hlists
      exact Or.inl hlists
  | ok next =>
      simp only [hdispatch] at hdistinct hlists
      cases action with
      | addNode placement =>
          obtain hold | ⟨hid, hlayer⟩ := (adds_of_addNode hdispatch).lists hdistinct hlists
          · exact Or.inl hold
          · exact Or.inr ⟨placement, rfl, hid, hlayer⟩
      | reorderLayer other nodeIds =>
          obtain ⟨index, layer, -, -, hlayer, hperm, rfl⟩ := reorderLayer_eq_ok hdispatch
          obtain hold | ⟨rfl, hid⟩ := lists_setLine hlayer (lists_settle.mp hlists)
          · exact Or.inl hold
          · exact Or.inl ⟨layer, List.mem_of_getElem? hlayer, rfl, hperm.mem_iff.mp hid⟩
      | updateOperand node operand =>
          rw [dispatch, Except.ok.injEq] at hdispatch
          rw [← hdispatch, Lists, layers_updateOperand] at hlists
          exact Or.inl hlists
      | deleteNode node =>
          rw [dispatch, Except.ok.injEq] at hdispatch
          rw [← hdispatch] at hlists
          exact Or.inl (lists_of_deleteNode hlists)
      | updateLabel node label constant =>
          rw [dispatch, Except.ok.injEq] at hdispatch
          rw [← hdispatch] at hlists
          exact Or.inl hlists

namespace WellFormed

variable {graph : Graph R}

theorem exists_of_lists (hgraph : graph.WellFormed) {layerId id : String}
    (hlists : graph.Lists layerId id) :
    ∃ node, graph.node? id = some node ∧ node.layer = layerId := by
  obtain ⟨layer, hlayer, rfl, hid⟩ := hlists
  obtain ⟨place, hplace⟩ := List.mem_iff_getElem?.mp hid
  obtain ⟨node, hnode, hbelongs, -⟩ := hgraph.laid_out layer hlayer place id hplace
  exact ⟨node, hnode, hbelongs⟩

theorem lists_layer (hgraph : graph.WellFormed) {id : String} {node : Node R}
    (hnode : graph.node? id = some node) : graph.Lists node.layer id := by
  obtain ⟨layer, index, hlayer, -, hplace⟩ := hgraph.exists_position? hnode
  exact ⟨layer, List.mem_of_find?_eq_some hlayer, id_of_layer? hlayer,
    List.mem_of_getElem? hplace⟩

/-- A node stays in the layer it was added to. -/
theorem layer_after (hgraph : graph.WellFormed) {newId : String} {action : Action R}
    (hnext : (graph.after newId action).WellFormed) {id : String} {node : Node R}
    (hnode : (graph.after newId action).node? id = some node) :
    (∃ original, graph.node? id = some original ∧ original.layer = node.layer) ∨
      ∃ placement, action = .addNode placement ∧ id = newId ∧ node.layer = placement.layer := by
  obtain hold | hnew := lists_of_after hnext.layer_ids_distinct (hnext.lists_layer hnode)
  · exact Or.inl (hgraph.exists_of_lists hold)
  · exact Or.inr hnew

end WellFormed

end Graph

variable [Scalar R]

/-- The ids that an effect gives to nodes. -/
def Effect.added (newId : String) : Effect R → List String
  | .dispatched action => if action = "ADD_NODE_AT" then [newId] else []
  | _ => []

namespace Session

/-- The ids that a call gives to nodes. -/
def Call.added (session : Session R) (graph : Graph R) : Call R → List String
  | .endDrag newId payload pointer =>
    (session.endDrag graph newId payload pointer).2.2.added newId
  | _ => []

/-- What a new session on the empty graph comes to, along with the ids that nodes were
given: it is called, and others act on its graph.  Each id is given once, and none is that
of the root layer. -/
inductive Runs (config : CanvasConfig R) (viewport : Size R) :
    Session R → Graph R → List String → Prop
  | opened {session : Session R} : Session.start config viewport = .ok session →
      Runs config viewport session .empty []
  | call {session : Session R} {graph : Graph R} {given : List String} (call : Call R) :
      Runs config viewport session graph given →
      (∀ id ∈ call.added session graph, id ≠ config.rootLayer ∧ id ∉ given) →
      Runs config viewport (session.after graph call).1 (session.after graph call).2
        (call.added session graph ++ given)
  | act {session : Session R} {graph : Graph R} {given : List String} (newId : String)
      (action : Action R) : Runs config viewport session graph given →
      (∀ id ∈ (commit graph newId action).2.added newId, id ≠ config.rootLayer ∧ id ∉ given) →
      Runs config viewport session (graph.after newId action)
        ((commit graph newId action).2.added newId ++ given)

/-! ## Calls that leave the rows -/

/-- Whether two sessions have the same rows open. -/
structure SameRows (session other : Session R) : Prop where
  config_eq : other.config = session.config
  openLayers_eq : other.openLayers = session.openLayers

omit [Scalar R] in
theorem DragsOnly.sameRows {session other : Session R} (hdrags : session.DragsOnly other) :
    session.SameRows other := by
  rw [hdrags]
  exact ⟨rfl, rfl⟩

/-- Only a toggle opens or closes rows. -/
theorem sameRows_after (session : Session R) (graph : Graph R) {call : Call R}
    (htoggle : ∀ row id, call ≠ .toggleLayer row id) :
    session.SameRows (session.after graph call).1 := by
  cases call with
  | resize viewport => exact ⟨rfl, rfl⟩
  | startPan pointer => exact ⟨rfl, rfl⟩
  | movePan pointer =>
      simp only [after, movePan]
      split <;> exact ⟨rfl, rfl⟩
  | endPan => exact ⟨rfl, rfl⟩
  | toggleLayer row id => exact absurd rfl (htoggle row id)
  | startDrag payload pointer => exact (dragsOnly_startDrag session graph payload pointer).sameRows
  | moveDrag payload pointer => exact (dragsOnly_moveDrag session graph payload pointer).sameRows
  | endDrag newId payload pointer =>
      exact (dragsOnly_endDrag session graph newId payload pointer).sameRows
  | cancelDrag payload => exact (dragsOnly_cancelDrag session payload).sameRows

/-! ## Where nodes were added -/

/-- The row of a layer: it stands where the layer does, if there is one. -/
def shownRow (config : CanvasConfig R) (graph : Graph R) (row : String × Nat) : String × R :=
  (row.1, ((graph.layer? row.1).map Layer.y).getD (config.rowY row.2))

theorem visibleRows_eq (session : Session R) (graph : Graph R) :
    session.visibleRows graph =
      (session.config.rootLayer :: session.openLayers).zipIdx.map
        (shownRow session.config graph) := by
  rw [visibleRows]
  apply List.map_congr_left
  rintro ⟨id, row⟩ -
  simp only [shownRow]
  cases graph.layer? id <;> rfl

theorem getElem?_visibleRows (session : Session R) (graph : Graph R) (row : Nat) :
    (session.visibleRows graph)[row]? =
      (session.config.rootLayer :: session.openLayers)[row]?.map fun id =>
        shownRow session.config graph (id, row) := by
  rw [visibleRows_eq, List.getElem?_map, List.getElem?_zipIdx, Option.map_map]
  simp only [Nat.zero_add]
  rfl

theorem map_fst_visibleRows (session : Session R) (graph : Graph R) :
    (session.visibleRows graph).map Prod.fst =
      session.config.rootLayer :: session.openLayers := by
  rw [visibleRows_eq, List.map_map]
  exact List.zipIdx_map_fst 0 _

/-- What rows go by, if `home` tells for each id that a node was given the layer it was
added to: a node stays there, and a row is open below the row of that layer only. -/
structure FollowsRows (config : CanvasConfig R) (home : String → String)
    (session : Session R) (graph : Graph R) (given : List String) : Prop where
  config_eq : session.config = config
  wellFormed : graph.WellFormed
  root_not_given : config.rootLayer ∉ given
  node_home : ∀ id node, graph.node? id = some node → id ∈ given ∧ node.layer = home id
  row_home : ∀ (row : Nat) (id : String), session.openLayers[row]? = some id →
    id ∈ given ∧ (config.rootLayer :: session.openLayers)[row]? = some (home id)

namespace FollowsRows

variable {config : CanvasConfig R} {home : String → String} {session : Session R}
variable {graph : Graph R} {given : List String}
variable (hrows : FollowsRows config home session graph given)
include hrows

theorem congr {other : Session R} (hsame : session.SameRows other) :
    FollowsRows config home other graph given where
  config_eq := hsame.config_eq.trans hrows.config_eq
  wellFormed := hrows.wellFormed
  root_not_given := hrows.root_not_given
  node_home := hrows.node_home
  row_home := by
    rw [hsame.openLayers_eq]
    exact hrows.row_home

/-- No layer is shown in two rows. -/
theorem rows_distinct : (config.rootLayer :: session.openLayers).Nodup := by
  -- Two rows of one node are both open below its home, so the rows above are the same too.
  have hlater : ∀ (row other : Nat) (id : String), row < other →
      (config.rootLayer :: session.openLayers)[row]? = some id →
      (config.rootLayer :: session.openLayers)[other]? ≠ some id := by
    intro row
    induction row with
    | zero =>
        intro other id hlt hroot hother
        obtain ⟨below, rfl⟩ := Nat.exists_eq_succ_of_ne_zero (Nat.ne_of_gt hlt)
        have hgiven := (hrows.row_home below id hother).1
        rw [List.getElem?_cons_zero, Option.some.injEq] at hroot
        exact hrows.root_not_given (hroot ▸ hgiven)
    | succ row ih =>
        intro other id hlt hrow hother
        obtain ⟨below, rfl⟩ := Nat.exists_eq_succ_of_ne_zero (Nat.ne_of_gt (Nat.zero_lt_of_lt hlt))
        have habove := (hrows.row_home row id hrow).2
        have hbelow := (hrows.row_home below id hother).2
        exact ih below (home id) (Nat.lt_of_succ_lt_succ hlt) habove hbelow
  rw [List.nodup_iff_getElem?_ne_getElem?]
  intro row other hlt hother hsame
  rw [List.getElem?_eq_getElem hother] at hsame
  exact hlater row other _ hlt hsame (List.getElem?_eq_getElem hother)

omit hrows in
theorem start {viewport : Size R} (hstart : Session.start config viewport = .ok session)
    (home : String → String) : FollowsRows config home session .empty [] := by
  obtain ⟨-, rfl⟩ := start_eq_ok hstart
  refine ⟨rfl, .empty, List.not_mem_nil, fun id node hnode => ?_, fun row id hrow => ?_⟩
  · simp [Graph.empty, Graph.node?] at hnode
  · simp at hrow

theorem close (row : Nat) :
    FollowsRows config home { session with openLayers := session.openLayers.take row } graph
      given where
  config_eq := hrows.config_eq
  wellFormed := hrows.wellFormed
  root_not_given := hrows.root_not_given
  node_home := hrows.node_home
  row_home other id hother := by
    rw [List.getElem?_take] at hother
    split at hother
    · rename_i hlt
      obtain ⟨hgiven, habove⟩ := hrows.row_home other id hother
      refine ⟨hgiven, ?_⟩
      rw [← List.take_succ_cons, List.getElem?_take, if_pos (Nat.lt_succ_of_lt hlt)]
      exact habove
    · exact absurd hother (by simp)

/-- A row opens for a node that the row above it shows. -/
theorem openBelow {id : String} {node : Node R} (hnode : graph.node? id = some node)
    (hlast : (config.rootLayer :: session.openLayers)[session.openLayers.length]? =
      some node.layer) :
    FollowsRows config home { session with openLayers := session.openLayers ++ [id] } graph
      given where
  config_eq := hrows.config_eq
  wellFormed := hrows.wellFormed
  root_not_given := hrows.root_not_given
  node_home := hrows.node_home
  row_home other opened hother := by
    have hbelow : opened ∈ given ∧
        (config.rootLayer :: session.openLayers)[other]? = some (home opened) := by
      rw [List.getElem?_append] at hother
      split at hother
      · exact hrows.row_home other opened hother
      · rename_i hlast'
        obtain ⟨hgiven, hhome⟩ := hrows.node_home id node hnode
        obtain ⟨hzero, hid⟩ := List.getElem?_eq_some_iff.mp hother
        have hother' : other = session.openLayers.length := by
          rw [List.length_singleton] at hzero
          omega
        rw [List.getElem_singleton] at hid
        rw [← hid, hother', ← hhome]
        exact ⟨hgiven, hlast⟩
    obtain ⟨hlt, -⟩ := List.getElem?_eq_some_iff.mp hbelow.2
    rw [← List.cons_append, List.getElem?_append_left hlt]
    exact hbelow

/-- A toggle opens a row below the one that shows the node. -/
theorem toggleLayer (row : Nat) (id : String) :
    FollowsRows config home (session.toggleLayer graph row id).1 graph given := by
  obtain ⟨reason, hkept⟩ | ⟨node, y, hnode, -, hrow, htoggled⟩ :=
    toggleLayer_cases session graph row id
  · rw [hkept]
    exact hrows
  · have hclosed := hrows.close row
    obtain ⟨-, htoggled⟩ | ⟨-, htoggled⟩ := htoggled
    · rw [htoggled]
      exact hclosed
    · have habove : (config.rootLayer :: session.openLayers)[row]? =
          some node.layer := by
        rw [← hrows.config_eq, ← map_fst_visibleRows session graph, List.getElem?_map, hrow]
        rfl
      have hlength : (session.openLayers.take row).length = row := by
        obtain ⟨hlt, -⟩ := List.getElem?_eq_some_iff.mp habove
        rw [List.length_take]
        exact Nat.min_eq_left (Nat.le_of_lt_succ hlt)
      have hlast : (config.rootLayer :: session.openLayers.take row)[
          (session.openLayers.take row).length]? = some node.layer := by
        rw [hlength, ← List.take_succ_cons, List.getElem?_take, if_pos (Nat.lt_succ_self row)]
        exact habove
      have hopened := hclosed.openBelow hnode hlast
      rw [htoggled]
      exact hopened.congr ⟨rfl, rfl⟩

theorem node?_eq_none {newId : String} (hnew : newId ∉ given) : graph.node? newId = none := by
  cases hnode : graph.node? newId with
  | none => rfl
  | some node => exact absurd (hrows.node_home newId node hnode).1 hnew

/-- A node that is added has its home from then on. -/
theorem addNode {newId : String} {placement : Placement R} {next : Graph R}
    (hadd : graph.dispatch newId (.addNode placement) = .ok next)
    (hroot : newId ≠ config.rootLayer) (hnew : newId ∉ given) :
    FollowsRows config (Function.update home newId placement.layer) session next
      (newId :: given) := by
  have hafter : graph.after newId (.addNode placement) = next := by
    rw [Graph.after, hadd]
  have hnext : next.WellFormed := hrows.wellFormed.addNode (hrows.node?_eq_none hnew) hadd
  have hhome : ∀ id ∈ given, Function.update home newId placement.layer id = home id := by
    intro id hid
    apply Function.update_of_ne
    intro hsame
    exact hnew (hsame ▸ hid)
  refine ⟨hrows.config_eq, hnext, ?_, fun id node hnode => ?_, fun row id hrow => ?_⟩
  · intro hgiven
    cases List.mem_cons.mp hgiven with
    | inl hsame => exact hroot hsame.symm
    | inr hgiven => exact hrows.root_not_given hgiven
  · rw [← hafter] at hnext hnode
    obtain ⟨original, horiginal, hlayer⟩ | ⟨other, hother, rfl, hlayer⟩ :=
      hrows.wellFormed.layer_after hnext hnode
    · obtain ⟨hgiven, hheld⟩ := hrows.node_home id original horiginal
      rw [hhome id hgiven, ← hlayer]
      exact ⟨List.mem_cons_of_mem _ hgiven, hheld⟩
    · cases hother
      rw [Function.update_self]
      exact ⟨List.mem_cons_self, hlayer⟩
  · obtain ⟨hgiven, habove⟩ := hrows.row_home row id hrow
    rw [hhome id hgiven]
    exact ⟨List.mem_cons_of_mem _ hgiven, habove⟩

theorem after_of_not_adding (newId : String) {action : Action R}
    (hother : ∀ placement, action ≠ .addNode placement) :
    FollowsRows config home session (graph.after newId action) given := by
  have hnext := hrows.wellFormed.after newId action
    fun placement hadd => absurd hadd (hother placement)
  refine ⟨hrows.config_eq, hnext, hrows.root_not_given, fun id node hnode => ?_, hrows.row_home⟩
  obtain ⟨original, horiginal, hlayer⟩ | ⟨placement, hadd, -⟩ :=
    hrows.wellFormed.layer_after hnext hnode
  · rw [← hlayer]
    exact hrows.node_home id original horiginal
  · exact absurd hadd (hother placement)

/-- No action changes what the rows go by, but for the home of a node that it adds. -/
theorem act (newId : String) (action : Action R)
    (hunused : ∀ id ∈ (commit graph newId action).2.added newId,
      id ≠ config.rootLayer ∧ id ∉ given) :
    ∃ home, FollowsRows config home session (graph.after newId action)
      ((commit graph newId action).2.added newId ++ given) := by
  cases hdispatch : graph.dispatch newId action with
  | error error =>
      have hrefused : (commit graph newId action).2.added newId = [] := by
        rw [commit, hdispatch]
        rfl
      rw [hrefused, List.nil_append, Graph.after, hdispatch]
      exact ⟨home, hrows⟩
  | ok next =>
      rw [commit_eq hdispatch] at hunused ⊢
      cases action with
      | addNode placement =>
          obtain ⟨hroot, hnew⟩ := hunused newId (List.mem_singleton_self newId)
          rw [Graph.after, hdispatch]
          exact ⟨_, hrows.addNode hdispatch hroot hnew⟩
      | reorderLayer _ _ | updateOperand _ _ | deleteNode _ | updateLabel _ _ _ =>
          exact ⟨home, hrows.after_of_not_adding newId (by simp)⟩

end FollowsRows

/-- The end of a drag leaves the graph, or tries an action on it that deletes nothing. -/
theorem endDrag_cases (session : Session R) (graph : Graph R) (newId : String)
    (payload : DragPayload) (pointer : Point R) :
    (∃ reason, (session.endDrag graph newId payload pointer).2 = (graph, .noop reason)) ∨
      ∃ action, (∀ id, action ≠ .deleteNode id) ∧
        (session.endDrag graph newId payload pointer).2 = commit graph newId action := by
  cases howns : session.owns payload with
  | false =>
      obtain ⟨reason, hend⟩ := (ignores_of_not_owned howns).drop graph newId pointer
      exact Or.inl ⟨reason, congrArg Prod.snd hend⟩
  | true =>
      cases goesOn_of_owned howns with
      | fact fact dragged hdrag hmove hend =>
          rw [hend]
          cases hpreview : (session.moveGhost graph fact pointer).1.preview with
          | none => exact Or.inl (dropGhost_of_hidden hpreview newId)
          | some preview => exact Or.inr ⟨_, by simp, dropGhost_of_preview hpreview newId⟩
      | node drag hdrag hmove hend =>
          rw [hend]
          obtain hnoop | ⟨layer, -, hcommit⟩ := dropNode_cases hdrag graph newId pointer
          · exact Or.inl hnoop
          · exact Or.inr ⟨_, by simp, hcommit⟩

/-! ## Runs -/

/-- In every run the rows follow the nodes. -/
theorem Runs.followsRows {config : CanvasConfig R} {viewport : Size R} {session : Session R}
    {graph : Graph R} {given : List String} (hrun : Runs config viewport session graph given) :
    ∃ home, FollowsRows config home session graph given := by
  induction hrun with
  | opened hstart => exact ⟨id, .start hstart id⟩
  | @call session graph given call _ hunused ih =>
      obtain ⟨home, hrows⟩ := ih
      cases call with
      | toggleLayer row id => exact ⟨home, hrows.toggleLayer row id⟩
      | endDrag newId payload pointer =>
          have hsame := (dragsOnly_endDrag session graph newId payload pointer).sameRows
          obtain ⟨reason, hend⟩ | ⟨action, -, hend⟩ :=
            endDrag_cases session graph newId payload pointer
          · simp only [after, Call.added, hend]
            exact ⟨home, hrows.congr hsame⟩
          · simp only [after, Call.added, hend] at hunused ⊢
            rw [commit_fst]
            obtain ⟨home, hchanged⟩ := hrows.act newId action hunused
            exact ⟨home, hchanged.congr hsame⟩
      | resize _ | startPan _ | movePan _ | endPan | startDrag _ _ | moveDrag _ _
      | cancelDrag _ =>
          exact ⟨home, hrows.congr (sameRows_after session graph (by simp))⟩
  | act newId action _ hunused ih =>
      obtain ⟨home, hrows⟩ := ih
      exact hrows.act newId action hunused

end Session

end DecisionCanvas
