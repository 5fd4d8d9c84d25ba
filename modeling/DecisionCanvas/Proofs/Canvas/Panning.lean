import DecisionCanvas.Proofs.Canvas.Reloading
import DecisionCanvas.Proofs.Canvas.RowHistory
import DecisionCanvas.Proofs.Canvas.Spacing
import Mathlib.Order.Interval.Set.Defs

/-!
# Panning

How far a canvas can be panned follows from how wide its widest layer is and how deep its rows
have ever been.  No call of a session makes either less, so bounds that a pan is within are only
ever loosened.  In exact arithmetic a pan therefore never jumps when it is taken up again, and
it follows the pointer as if it had gone there at once.
-/

namespace DecisionCanvas

/-! ## Layers only grow -/

namespace Graph

section WidthsFit

variable {R : Type} [Scalar R] {graph next : Graph R}

theorem WidthsFit.reline (hfit : graph.WidthsFit) {index : Nat} {layer : Layer R}
    (hlayer : graph.layers[index]? = some layer) {nodes : Directory (Node R)}
    {nodeIds : List String} {width : R} (hwidth : width = Line.width nodeIds.length) :
    (graph.reline index nodes nodeIds width).WidthsFit := by
  intro shown hshown
  obtain ⟨other, hother⟩ := List.mem_iff_getElem?.mp hshown
  obtain ⟨-, rfl⟩ | ⟨-, hheld⟩ := getElem?_reline_cases hlayer hother
  · exact hwidth
  · exact hfit shown (List.mem_of_getElem? hheld)

theorem WidthsFit.addLayer (hfit : graph.WidthsFit) (id : String) (y : R) :
    ({ graph with layers := graph.layers ++ [Layer.empty id y] } : Graph R).WidthsFit := by
  intro layer hlayer
  obtain hold | hnew := List.mem_append.mp hlayer
  · exact hfit layer hold
  · rw [List.mem_singleton.mp hnew]
    rfl

theorem WidthsFit.addToLayer (hfit : graph.WidthsFit) {index : Nat} {layer : Layer R}
    (hlayer : graph.layers[index]? = some layer) (newId : String) (placement : Placement R) :
    (graph.addToLayer newId placement index layer).WidthsFit :=
  hfit.reline hlayer rfl

theorem WidthsFit.deleteNode (hfit : graph.WidthsFit) (id : String) :
    (graph.deleteNode id).WidthsFit := by
  cases hnode : graph.node? id with
  | none =>
      rw [Graph.deleteNode, hnode]
      exact hfit
  | some node =>
      obtain ⟨-, hdelete⟩ | ⟨index, layer, -, hlayer, hdelete⟩ := deleteNode_cases hnode
      · rw [hdelete]
        exact hfit
      · rw [hdelete]
        exact hfit.reline hlayer rfl

theorem WidthsFit.dispatch (hfit : graph.WidthsFit) {newId : String} {action : Action R}
    (hdispatch : graph.dispatch newId action = .ok next) : next.WidthsFit := by
  cases action with
  | addNode placement =>
      obtain ⟨-, ⟨index, layer, -, -, hlayer, rfl⟩ | ⟨y, -, -, rfl⟩⟩ := addNode_eq_ok hdispatch
      · exact hfit.addToLayer hlayer newId placement
      · have hextended := hfit.addLayer placement.layer y
        exact hextended.addToLayer List.getElem?_concat_length newId placement
  | reorderLayer id nodeIds =>
      obtain ⟨index, layer, -, -, hlayer, hperm, rfl⟩ := reorderLayer_eq_ok hdispatch
      refine hfit.reline hlayer ?_
      rw [hperm.length_eq]
      exact hfit layer (List.mem_of_getElem? hlayer)
  | updateOperand id operand =>
      rw [Graph.dispatch, Except.ok.injEq] at hdispatch
      rw [← hdispatch, WidthsFit, layers_updateOperand]
      exact hfit
  | deleteNode id =>
      rw [Graph.dispatch, Except.ok.injEq] at hdispatch
      exact hdispatch ▸ hfit.deleteNode id
  | updateLabel id label constant =>
      rw [Graph.dispatch, Except.ok.injEq] at hdispatch
      exact hdispatch ▸ hfit

/-- Layers have the widths for their nodes whatever is done to the graph, also if it gives an
id twice. -/
theorem WidthsFit.after (hfit : graph.WidthsFit) (newId : String) (action : Action R) :
    (graph.after newId action).WidthsFit := by
  rw [Graph.after]
  cases hdispatch : graph.dispatch newId action with
  | error error => exact hfit
  | ok next => exact hfit.dispatch hdispatch

end WidthsFit

section Widens

variable {graph next : Graph Rat}

/-- Whether every layer has come to a layer that is at least as wide. -/
def Widens (graph next : Graph Rat) : Prop :=
  ∀ layer ∈ graph.layers, ∃ wider ∈ next.layers, layer.width ≤ wider.width

theorem widens_of_subset (hlayers : graph.layers ⊆ next.layers) : graph.Widens next :=
  fun layer hlayer => ⟨layer, hlayers hlayer, le_rfl⟩

theorem widens_reline {index : Nat} {layer : Layer Rat}
    (hlayer : graph.layers[index]? = some layer) {nodes : Directory (Node Rat)}
    {nodeIds : List String} {width : Rat} (hwidth : layer.width ≤ width) :
    graph.Widens (graph.reline index nodes nodeIds width) := by
  intro shown hshown
  obtain ⟨other, hother⟩ := List.mem_iff_getElem?.mp hshown
  by_cases hsame : other = index
  · rw [hsame, hlayer, Option.some.injEq] at hother
    exact ⟨_, List.mem_of_getElem? (getElem?_reline hlayer), hother ▸ hwidth⟩
  · have hkept : (graph.reline index nodes nodeIds width).layers[other]? = some shown :=
      (getElem?_reline_ne hsame).trans hother
    exact ⟨shown, List.mem_of_getElem? hkept, le_rfl⟩

/-- One more node does not make a layer narrower. -/
theorem widens_addToLayer (hfit : graph.WidthsFit) {index : Nat} {layer : Layer Rat}
    (hlayer : graph.layers[index]? = some layer) (newId : String) (placement : Placement Rat) :
    graph.Widens (graph.addToLayer newId placement index layer) := by
  have hlength : (layer.nodeIds.insertIdx (min placement.index layer.length) newId).length =
      layer.length + 1 :=
    List.length_insertIdx_of_le_length (Nat.min_le_right _ layer.nodeIds.length) newId
  refine widens_reline hlayer ?_
  rw [hfit layer (List.mem_of_getElem? hlayer), hlength]
  exact Line.width_mono (Nat.le_succ _)

/-- Only a deletion makes a layer narrower. -/
theorem widens_dispatch (hfit : graph.WidthsFit) {newId : String} {action : Action Rat}
    (hkeeps : ∀ id, action ≠ .deleteNode id)
    (hdispatch : graph.dispatch newId action = .ok next) : graph.Widens next := by
  cases action with
  | addNode placement =>
      obtain ⟨-, ⟨index, layer, -, -, hlayer, rfl⟩ | ⟨y, -, -, rfl⟩⟩ := addNode_eq_ok hdispatch
      · exact widens_addToLayer hfit hlayer newId placement
      · have hwider := widens_addToLayer (hfit.addLayer placement.layer y)
          List.getElem?_concat_length newId placement
        exact fun layer hlayer => hwider layer (List.mem_append_left _ hlayer)
  | reorderLayer id nodeIds =>
      obtain ⟨index, layer, -, -, hlayer, -, rfl⟩ := reorderLayer_eq_ok hdispatch
      exact widens_reline hlayer le_rfl
  | updateOperand id operand =>
      rw [dispatch, Except.ok.injEq] at hdispatch
      rw [← hdispatch, Widens, layers_updateOperand]
      exact widens_of_subset (List.Subset.refl _)
  | deleteNode id => exact absurd rfl (hkeeps id)
  | updateLabel id label constant =>
      rw [dispatch, Except.ok.injEq] at hdispatch
      rw [← hdispatch]
      exact widens_of_subset (List.Subset.refl _)

theorem widens_after (hfit : graph.WidthsFit) (newId : String) {action : Action Rat}
    (hkeeps : ∀ id, action ≠ .deleteNode id) : graph.Widens (graph.after newId action) := by
  rw [after]
  cases hdispatch : graph.dispatch newId action with
  | error error => exact widens_of_subset (List.Subset.refl _)
  | ok next => exact widens_dispatch hfit hkeeps hdispatch

theorem Widens.maxWidth_le (hwidens : graph.Widens next) : graph.maxWidth ≤ next.maxWidth := by
  have hbound := maxWidth_le_iff.mp (le_refl next.maxWidth)
  refine maxWidth_le_iff.mpr ⟨hbound.1, fun layer hlayer => ?_⟩
  obtain ⟨wider, hwider, hle⟩ := hwidens layer hlayer
  exact hle.trans (hbound.2 wider hwider)

end Widens

end Graph

/-! ## Bounds -/

namespace Scalar

variable {low high value : Rat}

theorem smaller_eq_min (left right : Rat) : smaller left right = min left right := by
  rw [min_def]
  rfl

theorem clamp_eq_self (hvalue : value ∈ Set.Icc low high) : clamp low high value = value := by
  have hlow : below value low = false := decide_eq_false (not_lt.mpr hvalue.1)
  have hhigh : below high value = false := decide_eq_false (not_lt.mpr hvalue.2)
  simp [clamp, hlow, hhigh]

theorem clamp_mem (hordered : low ≤ high) (value : Rat) :
    clamp low high value ∈ Set.Icc low high := by
  rw [clamp]
  split
  · exact Set.left_mem_Icc.mpr hordered
  · rename_i hlow
    split
    · exact Set.right_mem_Icc.mpr hordered
    · rename_i hhigh
      exact ⟨not_lt.mp fun hlt => hlow (decide_eq_true hlt),
        not_lt.mp fun hlt => hhigh (decide_eq_true hlt)⟩

end Scalar

namespace CanvasConfig

/-- Settings are valid if a ghost can snap and rows go down, if the padding takes nothing from
the content, and if the root layer has an id. -/
structure Valid {R : Type} [Scalar R] (config : CanvasConfig R) : Prop where
  threshold_positive : isPositive config.snapThreshold = true
  spacing_positive : isPositive config.rowSpacing = true
  firstRow_finite : Scalar.isFinite config.firstRowY = true
  padding_finite : Scalar.isFinite config.panPadding = true
  padding_not_negative : Scalar.below config.panPadding (Scalar.ofNat 0) = false
  root_named : config.rootLayer.isEmpty = false

theorem fault?_eq_none_iff {R : Type} [Scalar R] {config : CanvasConfig R} :
    config.fault? = none ↔ config.Valid := by
  have hspelled : config.fault? = none ↔ isPositive config.snapThreshold = true ∧
      isPositive config.rowSpacing = true ∧ Scalar.isFinite config.firstRowY = true ∧
      (Scalar.isFinite config.panPadding = true ∧
        Scalar.below config.panPadding (Scalar.ofNat 0) = false) ∧
      config.rootLayer.isEmpty = false := by
    simp [fault?, ite_eq_iff]
  rw [hspelled]
  constructor
  · rintro ⟨hthreshold, hspacing, hfirst, ⟨hfinite, hpadding⟩, hroot⟩
    exact ⟨hthreshold, hspacing, hfirst, hfinite, hpadding, hroot⟩
  · intro hvalid
    exact ⟨hvalid.threshold_positive, hvalid.spacing_positive, hvalid.firstRow_finite,
      ⟨hvalid.padding_finite, hvalid.padding_not_negative⟩, hvalid.root_named⟩

variable {config : CanvasConfig Rat}

theorem isPositive_iff {value : Rat} : isPositive value = true ↔ 0 < value := by
  simp [isPositive, Scalar.isFinite, Scalar.atMost, Scalar.ofNat]

theorem Valid.spacing_pos (hvalid : config.Valid) : 0 < config.rowSpacing :=
  isPositive_iff.mp hvalid.spacing_positive

theorem Valid.padding_nonneg (hvalid : config.Valid) : 0 ≤ config.panPadding :=
  not_lt.mp (of_decide_eq_false hvalid.padding_not_negative)

/-- A row is not higher up than those above it. -/
theorem Valid.rowY_mono (hvalid : config.Valid) : Monotone config.rowY := by
  intro upper lower hle
  have hrows : (upper : Rat) * config.rowSpacing ≤ lower * config.rowSpacing :=
    mul_le_mul_of_nonneg_right (Nat.cast_le.mpr hle) hvalid.spacing_pos.le
  exact add_le_add_right hrows config.firstRowY

end CanvasConfig

namespace Session

theorem zero_mem_axisBounds {padding : Rat} (hpadding : 0 ≤ padding) (viewport world : Rat) :
    0 ∈ Set.Icc (axisBounds padding viewport world).1 (axisBounds padding viewport world).2 := by
  have hlower : Scalar.smaller (viewport - world) (Scalar.ofNat 0) ≤ 0 := by
    rw [Scalar.smaller_eq_min]
    exact min_le_right _ _
  exact ⟨sub_nonpos.mpr (hlower.trans hpadding), hpadding⟩

/-- A wider world only loosens the bounds. -/
theorem axisBounds_subset (padding viewport : Rat) {world wider : Rat} (hworld : world ≤ wider) :
    Set.Icc (axisBounds padding viewport world).1 (axisBounds padding viewport world).2 ⊆
      Set.Icc (axisBounds padding viewport wider).1 (axisBounds padding viewport wider).2 := by
  refine Set.Icc_subset_Icc_left ?_
  simp only [axisBounds, Scalar.smaller_eq_min]
  exact sub_le_sub_right (min_le_min_right _ (sub_le_sub_left hworld viewport)) padding

/-! ## What calls leave -/

section KeepsView

variable {R : Type}

/-- What a call leaves of the view.  The settings stay, no depth is forgotten, and only its own
calls change the viewport, the pan, and where a pan has begun. -/
structure KeepsView (session : Session R) (call : Call R) (next : Session R) : Prop where
  config_eq : next.config = session.config
  maxDepth_le : session.maxDepth ≤ next.maxDepth
  viewport_eq : (∀ viewport, call ≠ .resize viewport) → next.viewport = session.viewport
  pan_eq : (∀ pointer, call ≠ .movePan pointer) → next.pan = session.pan
  panCapture_eq : (∀ pointer, call ≠ .startPan pointer) → call ≠ .endPan →
    next.panCapture = session.panCapture

theorem DragsOnly.keepsView {session next : Session R} (hdrags : session.DragsOnly next)
    (call : Call R) : session.KeepsView call next := by
  rw [hdrags]
  exact ⟨rfl, le_rfl, fun _ => rfl, fun _ => rfl, fun _ _ => rfl⟩

variable [Scalar R]

theorem keepsView_toggleLayer (session : Session R) (graph : Graph R) (row : Nat) (id : String)
    (call : Call R) : session.KeepsView call (session.toggleLayer graph row id).1 := by
  obtain ⟨reason, hkept⟩ | ⟨_, _, -, -, -, ⟨-, hclosed⟩ | ⟨-, hopened⟩⟩ :=
    toggleLayer_cases session graph row id
  · rw [hkept]
    exact ⟨rfl, le_rfl, fun _ => rfl, fun _ => rfl, fun _ _ => rfl⟩
  · rw [hclosed]
    exact ⟨rfl, le_rfl, fun _ => rfl, fun _ => rfl, fun _ _ => rfl⟩
  · rw [hopened]
    exact ⟨rfl, Nat.le_max_left _ _, fun _ => rfl, fun _ => rfl, fun _ _ => rfl⟩

theorem keepsView_after (session : Session R) (graph : Graph R) (call : Call R) :
    session.KeepsView call (session.after graph call).1 := by
  cases call with
  | resize viewport =>
      exact ⟨rfl, le_rfl, fun hother => absurd rfl (hother viewport), fun _ => rfl, fun _ _ => rfl⟩
  | startPan pointer =>
      exact ⟨rfl, le_rfl, fun _ => rfl, fun _ => rfl, fun hother _ => absurd rfl (hother pointer)⟩
  | movePan pointer =>
      simp only [after, movePan]
      split
      · exact ⟨rfl, le_rfl, fun _ => rfl, fun _ => rfl, fun _ _ => rfl⟩
      · exact ⟨rfl, le_rfl, fun _ => rfl, fun hother => absurd rfl (hother pointer),
          fun _ _ => rfl⟩
  | endPan => exact ⟨rfl, le_rfl, fun _ => rfl, fun _ => rfl, fun _ hother => absurd rfl hother⟩
  | toggleLayer row id => exact keepsView_toggleLayer session graph row id _
  | startDrag payload pointer => exact (dragsOnly_startDrag session graph payload pointer).keepsView _
  | moveDrag payload pointer => exact (dragsOnly_moveDrag session graph payload pointer).keepsView _
  | endDrag newId payload pointer =>
      exact (dragsOnly_endDrag session graph newId payload pointer).keepsView _
  | cancelDrag payload => exact (dragsOnly_cancelDrag session payload).keepsView _

end KeepsView

end Session

namespace Scene

/-! ## Calls on a scene -/

section Calls

variable {R : Type} [Scalar R]

/-- What a scene comes to if only its session is called. -/
def afterCalls (scene : Scene R) (calls : List (Session.Call R)) : Scene R :=
  scene.afterEvents (calls.map .call)

theorem afterCalls_cons (scene : Scene R) (call : Session.Call R)
    (rest : List (Session.Call R)) :
    scene.afterCalls (call :: rest) = (scene.after (.call call)).afterCalls rest :=
  rfl

theorem afterCalls_append (scene : Scene R) (calls since : List (Session.Call R)) :
    scene.afterCalls (calls ++ since) = (scene.afterCalls calls).afterCalls since := by
  simp only [afterCalls, afterEvents, List.map_append, List.foldl_append]

/-- What every call keeps is kept by calls one after the other. -/
theorem afterCalls_induction {motive : Scene R → Prop} {scene : Scene R}
    {calls : List (Session.Call R)} (hstart : motive scene)
    (hstep : ∀ reached, ∀ call ∈ calls, motive reached → motive (reached.after (.call call))) :
    motive (scene.afterCalls calls) := by
  rw [afterCalls, afterEvents, List.foldl_map]
  exact List.foldlRecOn calls _ hstart fun reached hreached call hcall =>
    hstep reached call hcall hreached

theorem keepsView_after (scene : Scene R) (call : Session.Call R) :
    scene.session.KeepsView call (scene.after (.call call)).session :=
  scene.session.keepsView_after scene.graph call

/-- A call leaves the graph, or tries an action on it that deletes nothing. -/
theorem graph_after_cases (scene : Scene R) (call : Session.Call R) :
    (scene.after (.call call)).graph = scene.graph ∨
      ∃ newId action, (∀ id, action ≠ .deleteNode id) ∧
        (scene.after (.call call)).graph = scene.graph.after newId action := by
  cases call with
  | endDrag newId payload pointer =>
      obtain ⟨reason, hend⟩ | ⟨action, hkeeps, hend⟩ :=
        scene.session.endDrag_cases scene.graph newId payload pointer
      · exact Or.inl (congrArg Prod.fst hend)
      · refine Or.inr ⟨newId, action, hkeeps, ?_⟩
        rw [← Session.commit_fst]
        exact congrArg Prod.fst hend
  | resize _ | startPan _ | movePan _ | endPan | toggleLayer _ _ | startDrag _ _ | moveDrag _ _
  | cancelDrag _ => exact Or.inl rfl

/-- Only the start and the end of a pan change where it has begun. -/
theorem panCapture_afterCalls (scene : Scene R) {calls : List (Session.Call R)}
    (hstart : ∀ pointer, .startPan pointer ∉ calls) (hend : .endPan ∉ calls) :
    (scene.afterCalls calls).session.panCapture = scene.session.panCapture := by
  refine afterCalls_induction (motive := fun reached =>
    reached.session.panCapture = scene.session.panCapture) rfl fun reached call hcall hkept => ?_
  rw [(reached.keepsView_after call).panCapture_eq
    (fun pointer hsame => hstart pointer (hsame ▸ hcall)) (fun hsame => hend (hsame ▸ hcall))]
  exact hkept

/-- Only moves of a pan change it. -/
theorem pan_afterCalls (scene : Scene R) {calls : List (Session.Call R)}
    (hmove : ∀ pointer, .movePan pointer ∉ calls) :
    (scene.afterCalls calls).session.pan = scene.session.pan := by
  refine afterCalls_induction (motive := fun reached => reached.session.pan = scene.session.pan)
    rfl fun reached call hcall hkept => ?_
  rw [(reached.keepsView_after call).pan_eq fun pointer hsame => hmove pointer (hsame ▸ hcall)]
  exact hkept

/-- The pan within the bounds that is nearest to a place. -/
def nearestPan (scene : Scene R) (place : Point R) : Point R :=
  let boundsX := scene.session.boundsX scene.graph
  let boundsY := scene.session.boundsY
  ⟨Scalar.clamp boundsX.1 boundsX.2 place.x, Scalar.clamp boundsY.1 boundsY.2 place.y⟩

theorem pan_movePan {scene : Scene R} {capture : PanCapture R}
    (hcapture : scene.session.panCapture = some capture) (pointer : Point R) :
    (scene.after (.call (.movePan pointer))).session.pan =
      scene.nearestPan ⟨capture.panOrigin.x + pointer.x - capture.pointerOrigin.x,
        capture.panOrigin.y + pointer.y - capture.pointerOrigin.y⟩ := by
  simp only [after, Session.after, Session.movePan, hcapture]
  rfl

/-- The pan that a call leaves is that before it, or as near to some place as the bounds
before it allow. -/
theorem pan_after_cases (scene : Scene R) (call : Session.Call R) :
    (scene.after (.call call)).session.pan = scene.session.pan ∨
      ∃ place, (scene.after (.call call)).session.pan = scene.nearestPan place := by
  by_cases hmove : ∃ pointer, call = .movePan pointer
  · obtain ⟨pointer, rfl⟩ := hmove
    cases hcapture : scene.session.panCapture with
    | none =>
        refine Or.inl ?_
        simp only [after, Session.after, Session.movePan, hcapture]
    | some capture => exact Or.inr ⟨_, pan_movePan hcapture pointer⟩
  · exact Or.inl ((scene.keepsView_after call).pan_eq
      fun pointer hsame => hmove ⟨pointer, hsame⟩)

end Calls

/-! ## Pans within bounds -/

variable {scene : Scene Rat} {pan : Point Rat} {call : Session.Call Rat}

/-- Whether a pan is within the bounds on both axes. -/
def Allows (scene : Scene Rat) (pan : Point Rat) : Prop :=
  pan.x ∈ Set.Icc (scene.session.boundsX scene.graph).1 (scene.session.boundsX scene.graph).2 ∧
    pan.y ∈ Set.Icc scene.session.boundsY.1 scene.session.boundsY.2

/-- What the bounds of a scene rest on. -/
structure Sized (scene : Scene Rat) : Prop where
  valid : scene.session.config.Valid
  widthsFit : scene.graph.WidthsFit

theorem Sized.allows_zero (hsized : scene.Sized) : scene.Allows ⟨0, 0⟩ :=
  ⟨Session.zero_mem_axisBounds hsized.valid.padding_nonneg _ _,
    Session.zero_mem_axisBounds hsized.valid.padding_nonneg _ _⟩

theorem Sized.ordered (hsized : scene.Sized) :
    (scene.session.boundsX scene.graph).1 ≤ (scene.session.boundsX scene.graph).2 ∧
      scene.session.boundsY.1 ≤ scene.session.boundsY.2 := by
  obtain ⟨hx, hy⟩ := hsized.allows_zero
  exact ⟨hx.1.trans hx.2, hy.1.trans hy.2⟩

theorem Sized.allows_nearestPan (hsized : scene.Sized) (place : Point Rat) :
    scene.Allows (scene.nearestPan place) :=
  ⟨Scalar.clamp_mem hsized.ordered.1 place.x, Scalar.clamp_mem hsized.ordered.2 place.y⟩

theorem Allows.nearestPan_eq (hallows : scene.Allows pan) : scene.nearestPan pan = pan := by
  rw [nearestPan, Scalar.clamp_eq_self hallows.1, Scalar.clamp_eq_self hallows.2]

theorem Sized.after (hsized : scene.Sized) (call : Session.Call Rat) :
    (scene.after (.call call)).Sized where
  valid := by
    rw [(scene.keepsView_after call).config_eq]
    exact hsized.valid
  widthsFit := by
    obtain hkept | ⟨newId, action, -, hchanged⟩ := scene.graph_after_cases call
    · rw [hkept]
      exact hsized.widthsFit
    · rw [hchanged]
      exact hsized.widthsFit.after newId action

theorem Sized.afterCalls (hsized : scene.Sized) (calls : List (Session.Call Rat)) :
    (scene.afterCalls calls).Sized :=
  afterCalls_induction hsized fun _ call _ hreached => hreached.after call

/-- No call makes the world narrower. -/
theorem Sized.maxWidth_le_after (hsized : scene.Sized) (call : Session.Call Rat) :
    scene.graph.maxWidth ≤ (scene.after (.call call)).graph.maxWidth := by
  obtain hkept | ⟨newId, action, hkeeps, hchanged⟩ := scene.graph_after_cases call
  · rw [hkept]
  · rw [hchanged]
    exact (Graph.widens_after hsized.widthsFit newId hkeeps).maxWidth_le

/-- No call makes the world less high. -/
theorem Sized.worldHeight_le_after (hsized : scene.Sized) (call : Session.Call Rat) :
    scene.session.worldHeight ≤ (scene.after (.call call)).session.worldHeight := by
  have hkeeps := scene.keepsView_after call
  rw [Session.worldHeight, Session.worldHeight, hkeeps.config_eq]
  exact add_le_add_left (hsized.valid.rowY_mono hkeeps.maxDepth_le) _

/-- The bounds are only ever loosened, unless the viewport changes. -/
theorem Allows.after (hallows : scene.Allows pan) (hsized : scene.Sized)
    (hfixed : ∀ viewport, call ≠ .resize viewport) : (scene.after (.call call)).Allows pan := by
  have hkeeps := scene.keepsView_after call
  rw [Allows, Session.boundsX, Session.boundsY, hkeeps.config_eq, hkeeps.viewport_eq hfixed]
  exact ⟨Session.axisBounds_subset _ _ (hsized.maxWidth_le_after call) hallows.1,
    Session.axisBounds_subset _ _ (hsized.worldHeight_le_after call) hallows.2⟩

theorem Allows.afterCalls (hallows : scene.Allows pan) (hsized : scene.Sized)
    {calls : List (Session.Call Rat)} (hfixed : ∀ viewport, .resize viewport ∉ calls) :
    (scene.afterCalls calls).Allows pan := by
  refine (afterCalls_induction (motive := fun reached => reached.Sized ∧ reached.Allows pan)
    ⟨hsized, hallows⟩ fun reached call hcall hreached => ?_).2
  exact ⟨hreached.1.after call, hreached.2.after hreached.1
    fun viewport hsame => hfixed viewport (hsame ▸ hcall)⟩

/-- A pan that a call leaves is one that was within the bounds before it. -/
theorem Sized.allows_pan_after (hsized : scene.Sized) (hpan : scene.Allows scene.session.pan)
    (hfixed : ∀ viewport, call ≠ .resize viewport) :
    (scene.after (.call call)).Allows (scene.after (.call call)).session.pan := by
  refine Allows.after ?_ hsized hfixed
  obtain hkept | ⟨place, hnearest⟩ := scene.pan_after_cases call
  · rw [hkept]
    exact hpan
  · rw [hnearest]
    exact hsized.allows_nearestPan place

theorem Sized.allows_pan_afterCalls (hsized : scene.Sized)
    (hpan : scene.Allows scene.session.pan) {calls : List (Session.Call Rat)}
    (hfixed : ∀ viewport, .resize viewport ∉ calls) :
    (scene.afterCalls calls).Allows (scene.afterCalls calls).session.pan := by
  refine (afterCalls_induction (motive := fun reached =>
    reached.Sized ∧ reached.Allows reached.session.pan) ⟨hsized, hpan⟩
    fun reached call hcall hreached => ?_).2
  exact ⟨hreached.1.after call, hreached.1.allows_pan_after hreached.2
    fun viewport hsame => hfixed viewport (hsame ▸ hcall)⟩

/-! ## Pans -/

/-- A pan that is moved is where it would be had only the last move happened. -/
theorem pan_afterCalls_movePan {R : Type} [Scalar R] (scene : Scene R) (pointer last : Point R)
    {before since : List (Session.Call R)} (hstart : ∀ other, .startPan other ∉ before)
    (hend : .endPan ∉ before) (hmove : ∀ other, .movePan other ∉ since) :
    (scene.afterCalls (.startPan pointer :: before ++ .movePan last :: since)).session.pan =
      (scene.afterCalls (.startPan pointer :: before)).nearestPan
        ⟨scene.session.pan.x + last.x - pointer.x, scene.session.pan.y + last.y - pointer.y⟩ := by
  have hcapture : (scene.afterCalls (.startPan pointer :: before)).session.panCapture =
      some ⟨pointer, scene.session.pan⟩ :=
    panCapture_afterCalls (scene.after (.call (.startPan pointer))) hstart hend
  rw [afterCalls_append, afterCalls_cons, pan_afterCalls _ hmove, pan_movePan hcapture]

/-- How a scene pans from now on.  The bounds are in order, and the pan is within them.  It is
taken up where it is, also if the bounds were loosened meanwhile.  It follows the pointer from
there as far as the bounds allow at the last move, as if no other move had happened. -/
structure PansSteadily (scene : Scene Rat) : Prop where
  ordered : (scene.session.boundsX scene.graph).1 ≤ (scene.session.boundsX scene.graph).2 ∧
    scene.session.boundsY.1 ≤ scene.session.boundsY.2
  within_bounds : scene.Allows scene.session.pan
  resumes : ∀ pointer before, (∀ other, .startPan other ∉ before) → .endPan ∉ before →
    (∀ viewport, .resize viewport ∉ before) →
    (scene.afterCalls (.startPan pointer :: before ++ [.movePan pointer])).session.pan =
      scene.session.pan
  follows : ∀ pointer last before since, (∀ other, .startPan other ∉ before) →
    .endPan ∉ before → (∀ other, .movePan other ∉ since) →
    (scene.afterCalls (.startPan pointer :: before ++ .movePan last :: since)).session.pan =
      (scene.afterCalls (.startPan pointer :: before)).nearestPan
        ⟨scene.session.pan.x + last.x - pointer.x, scene.session.pan.y + last.y - pointer.y⟩

theorem Sized.pansSteadily (hsized : scene.Sized) (hpan : scene.Allows scene.session.pan) :
    scene.PansSteadily where
  ordered := hsized.ordered
  within_bounds := hpan
  resumes pointer before hstart hend hfixed := by
    have hallowed : (scene.afterCalls (.startPan pointer :: before)).Allows scene.session.pan :=
      hpan.afterCalls hsized (by simpa using hfixed)
    rw [pan_afterCalls_movePan scene pointer pointer hstart hend (by simp)]
    simp only [add_sub_cancel_right]
    exact hallowed.nearestPan_eq
  follows pointer last before since hstart hend hmove :=
    pan_afterCalls_movePan scene pointer last hstart hend hmove

/-- However a new session with valid settings is called, over a graph that comes from the empty
one and that only its drops change, and in a viewport that keeps its size: it pans steadily. -/
theorem pansSteadily_afterCalls {config : CanvasConfig Rat} {viewport : Size Rat}
    {session : Session Rat} (hstart : Session.start config viewport = .ok session)
    {graph : Graph Rat} (hreaches : Graph.Reaches .empty graph)
    {calls : List (Session.Call Rat)} (hfixed : ∀ viewport, .resize viewport ∉ calls) :
    ((Scene.mk session graph).afterCalls calls).PansSteadily := by
  obtain ⟨hfault, rfl⟩ := Session.start_eq_ok hstart
  have hsized : (Scene.mk ⟨config, viewport, ⟨0, 0⟩, none, [], 0, none, none, none⟩ graph).Sized :=
    ⟨CanvasConfig.fault?_eq_none_iff.mp hfault,
      (Graph.wellFormed_of_reaches_empty hreaches).widths⟩
  have hpan := hsized.allows_pan_afterCalls hsized.allows_zero hfixed
  exact (hsized.afterCalls calls).pansSteadily hpan

def narrowSession : Session Rat :=
  ⟨.standard, ⟨200, 200⟩, ⟨0, 0⟩, none, [], 0, none, none, none⟩

/-- A pan to the end of three nodes, while it lasts the drop of a fourth one. -/
def droppedWhilePanning : List (Session.Call Rat) :=
  [.startPan ⟨100, 100⟩, .movePan ⟨0, 100⟩, .movePan ⟨-200, 0⟩,
    .startDrag (.fact Session.ageFact) ⟨0, 0⟩, .endDrag "d" (.fact Session.ageFact) ⟨0, 0⟩]

/-- The drop leaves the pan and lets the next move go further. -/
theorem pansSteadily_droppedWhilePanning :
    let scene := (Scene.mk narrowSession Graph.threeRates).afterCalls droppedWhilePanning
    Session.start .standard ⟨200, 200⟩ = .ok narrowSession ∧
      Graph.Reaches .empty Graph.threeRates ∧
      (∀ viewport, .resize viewport ∉ droppedWhilePanning) ∧
      narrowSession.boundsX Graph.threeRates = (-184, 120) ∧
      scene.session.pan = ⟨-184, -100⟩ ∧
      scene.session.boundsX scene.graph = (-272, 120) ∧
      (scene.after (.call (.movePan ⟨-200, 100⟩))).session.pan = ⟨-272, 0⟩ ∧
      scene.PansSteadily := by
  have hstart : Session.start .standard ⟨200, 200⟩ = .ok narrowSession := by decide +kernel
  have hfixed : ∀ viewport, Session.Call.resize viewport ∉ droppedWhilePanning := by
    simp [droppedWhilePanning]
  exact ⟨hstart, Graph.reaches_threeRates, hfixed, by decide +kernel, by decide +kernel,
    by decide +kernel, by decide +kernel,
    pansSteadily_afterCalls hstart Graph.reaches_threeRates hfixed⟩

end Scene

end DecisionCanvas
