import DecisionCanvas.Proofs.Canvas.Addition

/-!
# Which actions are refused

An addition is refused for half a binding, and only then for a layer that can neither be found
nor created; a new order is refused for a layer that cannot be found, and only then for not
being an order of what the layer lists, each node as often as before.  Everything else is
accepted, in any graph whatever, and an addition or a new order that is accepted does what it
says to the first layer with the id.
-/

namespace DecisionCanvas

namespace Graph

variable {R : Type} [Scalar R]

/-- For what an action is refused. -/
inductive Refuses (graph : Graph R) : Action R → GraphError → Prop
  | halfBinding {placement : Placement R} :
      placement.scope.isSome ≠ placement.factType.isSome →
      Refuses graph (.addNode placement) .incompleteBinding
  | nowhereToAdd {placement : Placement R} :
      placement.scope.isSome = placement.factType.isSome →
      placement.layer ∉ graph.layers.map Layer.id → placement.layerY = none →
      Refuses graph (.addNode placement) (.unknownLayer placement.layer)
  | nothingToReorder {id : String} {nodeIds : List String} :
      id ∉ graph.layers.map Layer.id →
      Refuses graph (.reorderLayer id nodeIds) (.unknownLayer id)
  | notAnOrder {id : String} {nodeIds : List String} {layer : Layer R} :
      graph.layer? id = some layer → ¬ nodeIds.Perm layer.nodeIds →
      Refuses graph (.reorderLayer id nodeIds) (.invalidReorder id)

/-- The nodes listed under the id of a layer, if there is such a layer. -/
def line? (graph : Graph R) (id : String) : Option (List String) :=
  (graph.layer? id).map Layer.nodeIds

/-- What an action that is accepted comes to in the layer that it names: a new node stands at
the index asked for, or at the end, among the old ones in their order, and a new order is the
order. -/
def Arranges (graph : Graph R) (newId : String) (next : Graph R) : Action R → Prop
  | .addNode placement =>
    let old := (graph.line? placement.layer).getD []
    let index := min placement.index old.length
    ∃ order, next.line? placement.layer = some order ∧ order[index]? = some newId ∧
      order.eraseIdx index = old
  | .reorderLayer id nodeIds => next.line? id = some nodeIds
  | _ => True

variable {graph next : Graph R} {newId : String} {error : GraphError}

/-! ## Additions -/

theorem addNode_eq_error_iff {placement : Placement R} :
    graph.addNode newId placement = .error error ↔ graph.Refuses (.addNode placement) error := by
  constructor
  · intro hrefused
    rw [addNode] at hrefused
    split at hrefused
    · rename_i hhalf
      rw [Except.error.injEq] at hrefused
      exact hrefused ▸ .halfBinding (bne_iff_ne.mp hhalf)
    · rename_i hwhole
      have hbinding : placement.scope.isSome = placement.factType.isSome := by simpa using hwhole
      cases hindex : graph.layerIndex? placement.layer with
      | some index =>
          obtain ⟨layer, hlayer, -⟩ := exists_of_layerIndex? hindex
          simp [hindex, hlayer] at hrefused
      | none =>
          cases hy : placement.layerY with
          | some y => simp [hindex, hy] at hrefused
          | none =>
              simp only [hindex, hy, Except.error.injEq] at hrefused
              exact hrefused ▸ .nowhereToAdd hbinding (layerIndex?_eq_none_iff.mp hindex) hy
  · intro hrefuses
    cases hrefuses with
    | halfBinding hhalf => rw [addNode, if_pos (bne_iff_ne.mpr hhalf)]
    | nowhereToAdd hbinding hmissing hy =>
        rw [addNode, if_neg (by simp [hbinding])]
        simp only [layerIndex?_eq_none_iff.mpr hmissing, hy]

theorem arranges_of_addNode {placement : Placement R}
    (hadd : graph.addNode newId placement = .ok next) :
    graph.Arranges newId next (.addNode placement) := by
  have hadds := adds_of_addNode hadd
  let old := graph.lineFor placement.layer (placement.layerY.getD (Scalar.ofNat 0))
  have hold : (graph.line? placement.layer).getD [] = old.nodeIds := by
    simp only [old, line?, lineFor]
    cases graph.layer? placement.layer <;> rfl
  have hfits : min placement.index old.length ≤ old.nodeIds.length := Nat.min_le_right _ _
  refine ⟨(old.withNode placement.index newId).nodeIds, ?_, ?_, ?_⟩
  · rw [line?, hadds.layer?_eq, if_pos rfl, Option.map_some]
  · rw [hold]
    exact List.getElem?_insertIdx_self.trans (if_pos hfits)
  · rw [hold]
    exact List.eraseIdx_insertIdx_self newId

/-! ## Orders -/

theorem reorderLayer_eq_error_iff {id : String} {nodeIds : List String} :
    graph.reorderLayer id nodeIds = .error error ↔
      graph.Refuses (.reorderLayer id nodeIds) error := by
  constructor
  · intro hrefused
    rw [reorderLayer] at hrefused
    cases hindex : graph.layerIndex? id with
    | none =>
        simp only [hindex, Except.error.injEq] at hrefused
        exact hrefused ▸ .nothingToReorder (layerIndex?_eq_none_iff.mp hindex)
    | some index =>
        obtain ⟨layer, hlayer, -⟩ := exists_of_layerIndex? hindex
        simp only [hindex, hlayer] at hrefused
        split at hrefused
        · simp at hrefused
        · rename_i hdifferent
          rw [Except.error.injEq] at hrefused
          refine hrefused ▸ .notAnOrder hlayer fun hperm => hdifferent ?_
          exact sameTexts_iff.mpr hperm.symm
  · intro hrefuses
    cases hrefuses with
    | nothingToReorder hmissing =>
        rw [reorderLayer]
        simp only [layerIndex?_eq_none_iff.mpr hmissing]
    | @notAnOrder _ _ layer hlayer hdifferent =>
        obtain ⟨index, hindex, -⟩ := layer?_eq_some_iff.mp hlayer
        have hother : ¬ sameTexts layer.nodeIds nodeIds = true := fun hsame =>
          hdifferent (sameTexts_iff.mp hsame).symm
        rw [reorderLayer]
        simp only [hindex, hlayer, if_neg hother]

theorem arranges_of_reorderLayer {id : String} {nodeIds : List String}
    (hreorder : graph.reorderLayer id nodeIds = .ok next) :
    graph.Arranges newId next (.reorderLayer id nodeIds) := by
  obtain ⟨index, layer, rfl, hfirst, hlayer, -, rfl⟩ := reorderLayer_eq_ok hreorder
  rw [Arranges, line?, layer?_settle, layer?_setLine hlayer hfirst, if_pos rfl, Option.map_some]

/-- Any action on any graph is refused exactly for what the actions name as their causes, and
otherwise arranges the layer it names. -/
theorem dispatch_refuses_or_arranges (graph : Graph R) (newId : String) (action : Action R) :
    (∀ error, graph.dispatch newId action = .error error ↔ graph.Refuses action error) ∧
      ∀ next, graph.dispatch newId action = .ok next → graph.Arranges newId next action := by
  cases action with
  | addNode placement => exact ⟨fun _ => addNode_eq_error_iff, fun _ => arranges_of_addNode⟩
  | reorderLayer id nodeIds =>
      exact ⟨fun _ => reorderLayer_eq_error_iff, fun _ => arranges_of_reorderLayer⟩
  | updateOperand _ _ | deleteNode _ | updateLabel _ _ _ =>
      refine ⟨fun error => ⟨fun hrefused => ?_, fun hrefuses => ?_⟩, fun _ _ => trivial⟩
      · exact absurd hrefused (by simp [dispatch])
      · cases hrefuses

/-- A list that names one node twice and leaves another out is no order of the two. -/
example :
    (Graph.mk .empty [⟨"root", 80, ["a", "b"], 240⟩] : Graph Float).reorderLayer "root"
      ["b", "b"] = .error (.invalidReorder "root") := by
  cbv

end Graph

end DecisionCanvas
