import DecisionCanvas.Proofs.Canvas.OpenRows
import Mathlib.Data.List.Induction
import Mathlib.Order.Bounds.Basic

/-!
# The history of rows

A row is open below another because of one toggle in the past, of a bucket that the layer
above it listed at that time.  Whatever has happened to the bucket since, the rows above have
stayed, so the rows form a path.  How deep the path has ever been is remembered as well.
-/

namespace DecisionCanvas

/-- A session and the graph it is called with. -/
structure Scene (R : Type) where
  session : Session R
  graph : Graph R

/-- What may happen: a call of the session, or an action of someone else on its graph. -/
inductive Event (R : Type) where
  | call (call : Session.Call R)
  | act (newId : String) (action : Action R)

namespace Scene

variable {R : Type} [Scalar R]

def after (scene : Scene R) : Event R → Scene R
  | .call call =>
    let next := scene.session.after scene.graph call
    ⟨next.1, next.2⟩
  | .act newId action => ⟨scene.session, scene.graph.after newId action⟩

def afterEvents (scene : Scene R) (events : List (Event R)) : Scene R :=
  events.foldl after scene

/-- The ids that an event gives to nodes. -/
def added (scene : Scene R) : Event R → List String
  | .call call => call.added scene.session scene.graph
  | .act newId action => (Session.commit scene.graph newId action).2.added newId

/-- The ids that events give to nodes, the last one first. -/
def given : Scene R → List (Event R) → List String
  | _, [] => []
  | scene, event :: rest => (scene.after event).given rest ++ scene.added event

/-- The layers on screen from top to bottom. -/
def rows (scene : Scene R) : List String :=
  (scene.session.visibleRows scene.graph).map Prod.fst

theorem rows_eq (scene : Scene R) :
    scene.rows = scene.session.config.rootLayer :: scene.session.openLayers :=
  Session.map_fst_visibleRows scene.session scene.graph

theorem afterEvents_append (scene : Scene R) (events : List (Event R)) (event : Event R) :
    scene.afterEvents (events ++ [event]) = (scene.afterEvents events).after event := by
  rw [afterEvents, List.foldl_append]
  rfl

theorem given_append (scene : Scene R) (events : List (Event R)) (event : Event R) :
    scene.given (events ++ [event]) =
      (scene.afterEvents events).added event ++ scene.given events := by
  induction events generalizing scene with
  | nil => simp [given, afterEvents]
  | cons first rest ih =>
      rw [List.cons_append, given, ih, given, List.append_assoc]
      rfl

/-! ## Runs as lists of events -/

variable {config : CanvasConfig R} {viewport : Size R} {session : Session R}

/-- Events that give new ids only make a run. -/
theorem runs_afterEvents (hstart : Session.start config viewport = .ok session)
    {events : List (Event R)} (hroot : config.rootLayer ∉ (Scene.mk session .empty).given events)
    (hgiven : ((Scene.mk session .empty).given events).Nodup) :
    let reached := (Scene.mk session .empty).afterEvents events
    Session.Runs config viewport reached.session reached.graph
      ((Scene.mk session .empty).given events) := by
  induction events using List.reverseRecOn with
  | nil => exact .opened hstart
  | append_singleton events event ih =>
      rw [given_append, List.mem_append, not_or] at hroot
      rw [given_append, List.nodup_append] at hgiven
      have hrun := ih hroot.2 hgiven.2.1
      have hnew : ∀ id ∈ ((Scene.mk session .empty).afterEvents events).added event,
          id ≠ config.rootLayer ∧ id ∉ (Scene.mk session .empty).given events := by
        intro id hid
        exact ⟨fun hsame => hroot.1 (hsame ▸ hid), fun hold => hgiven.2.2 id hid id hold rfl⟩
      rw [afterEvents_append, given_append]
      cases event with
      | call call => exact hrun.call call hnew
      | act newId action => exact hrun.act newId action hnew

theorem rows_start (hstart : Session.start config viewport = .ok session) :
    session.openLayers = [] ∧ session.maxDepth = 0 := by
  obtain ⟨-, rfl⟩ := Session.start_eq_ok hstart
  exact ⟨rfl, rfl⟩

/-! ## One event -/

/-- What it takes to toggle a node in a row: it is a bucket of the layer that is shown
there. -/
def Toggles (scene : Scene R) (row : Nat) (id : String) : Prop :=
  ∃ node, scene.graph.node? id = some node ∧ node.type = .contributorBucket ∧
    scene.rows[row]? = some node.layer

/-- What it takes to open a row: the layer that the row above shows lists a bucket, which is
not open below it yet. -/
structure Opens (scene : Scene R) (row : Nat) (layer id : String) : Prop where
  shown : scene.rows[row]? = some layer
  listed : scene.graph.Lists layer id
  bucket : ∃ node, scene.graph.node? id = some node ∧ node.type = .contributorBucket
  not_open : scene.session.openLayers[row]? ≠ some id

/-- Whether a session shows the rows of a scene down to one, and at most one row below. -/
structure KeepsRows (scene : Scene R) (row : Nat) (next : Session R) : Prop where
  rows_kept : (next.visibleRows scene.graph).take (row + 1) =
    (scene.session.visibleRows scene.graph).take (row + 1)
  row_below : next.openLayers.length ≤ row + 1

/-- A row is visible if it is at most one below those that are open. -/
theorem le_length_openLayers {scene : Scene R} {row : Nat} {layer : String}
    (hrow : scene.rows[row]? = some layer) : row ≤ scene.session.openLayers.length := by
  obtain ⟨hlt, -⟩ := List.getElem?_eq_some_iff.mp hrow
  rw [rows_eq, List.length_cons] at hlt
  exact Nat.le_of_lt_succ hlt

theorem visible_of_shown {scene : Scene R} {row : Nat} {layer : String} {y : R}
    (hrow : (scene.session.visibleRows scene.graph)[row]? = some (layer, y)) :
    scene.rows[row]? = some layer := by
  rw [rows, List.getElem?_map, hrow]
  rfl

/-- Rows down to one depend on what is open above it only. -/
theorem keepsRows_of_take {scene : Scene R} {row : Nat} {next : Session R}
    (hconfig : next.config = scene.session.config)
    (hopen : next.openLayers.take row = scene.session.openLayers.take row)
    (hlength : next.openLayers.length ≤ row + 1) : scene.KeepsRows row next where
  row_below := hlength
  rows_kept := by
    have hrows : (next.config.rootLayer :: next.openLayers).take (row + 1) =
        (scene.session.config.rootLayer :: scene.session.openLayers).take (row + 1) := by
      rw [List.take_succ_cons, List.take_succ_cons, hopen, hconfig]
    apply List.ext_getElem?
    intro shown
    rw [List.getElem?_take, List.getElem?_take]
    split
    · rename_i hlt
      have hsame := congrArg (fun rows => rows[shown]?) hrows
      simp only [List.getElem?_take, if_pos hlt] at hsame
      rw [Session.getElem?_visibleRows, Session.getElem?_visibleRows, hsame, hconfig]
    · rfl

omit [Scalar R] in
theorem opensLayer_iff {type : NodeType} :
    type.opensLayer = true ↔ type = .contributorBucket := by
  cases type <;> simp [NodeType.opensLayer]

/-- Whatever can be toggled is not refused. -/
theorem not_refused {scene : Scene R} {row : Nat} {id : String} (htoggles : scene.Toggles row id)
    (reason : NoopReason) :
    (scene.session.toggleLayer scene.graph row id).2 ≠ .noop reason := by
  obtain ⟨node, hnode, hbucket, hrow⟩ := htoggles
  obtain ⟨⟨layer, y⟩, hshown, rfl⟩ : ∃ shown,
      (scene.session.visibleRows scene.graph)[row]? = some shown ∧ shown.1 = node.layer := by
    rw [rows, List.getElem?_map, Option.map_eq_some_iff] at hrow
    exact hrow
  simp only [Session.toggleLayer, hnode, hshown, opensLayer_iff.mpr hbucket, bne_self_eq_false,
    Bool.not_true, Bool.false_eq_true, if_false]
  split <;> simp

/-- A toggle is refused, which changes nothing, or keeps all rows down to that of the node. -/
theorem toggle_keepsRows (scene : Scene R) (row : Nat) (id : String) :
    (¬ scene.Toggles row id ∧ ∃ reason, scene.session.toggleLayer scene.graph row id =
      (scene.session, .noop reason)) ∨
    scene.Toggles row id ∧
      ∃ isOpen, (scene.session.toggleLayer scene.graph row id).2 = .layerToggled row id isOpen ∧
        scene.KeepsRows row (scene.session.toggleLayer scene.graph row id).1 := by
  obtain ⟨reason, hkept⟩ | ⟨node, y, hnode, hopens, hrow, htoggled⟩ :=
    Session.toggleLayer_cases scene.session scene.graph row id
  · exact Or.inl ⟨fun htoggles => not_refused htoggles reason (congrArg Prod.snd hkept),
      reason, hkept⟩
  · have hshown := visible_of_shown hrow
    refine Or.inr ⟨⟨node, hnode, opensLayer_iff.mp hopens, hshown⟩, ?_⟩
    obtain ⟨-, htoggled⟩ | ⟨-, htoggled⟩ := htoggled
    · refine ⟨false, by rw [htoggled], ?_⟩
      rw [htoggled]
      refine keepsRows_of_take rfl ?_ ?_
      · exact (List.take_take ..).trans (by rw [Nat.min_self])
      · exact (List.length_take_le _ _).trans (Nat.le_succ row)
    · have hlength : (scene.session.openLayers.take row).length = row := by
        rw [List.length_take]
        exact Nat.min_eq_left (le_length_openLayers hshown)
      refine ⟨true, by rw [htoggled], ?_⟩
      rw [htoggled]
      refine keepsRows_of_take rfl ?_ ?_
      · exact List.take_left' hlength
      · exact Nat.le_of_eq (by rw [List.length_append, hlength, List.length_singleton])

theorem config_toggleLayer (session : Session R) (graph : Graph R) (row : Nat) (id : String) :
    (session.toggleLayer graph row id).1.config = session.config := by
  obtain ⟨reason, hkept⟩ | ⟨_, _, -, -, -, ⟨-, htoggled⟩ | ⟨-, htoggled⟩⟩ :=
    session.toggleLayer_cases graph row id
  · rw [hkept]
  · rw [htoggled]
  · rw [htoggled]

theorem rows_of_sameRows {scene next : Scene R} (hsame : scene.session.SameRows next.session) :
    next.rows = scene.rows := by
  rw [rows_eq, rows_eq, hsame.config_eq, hsame.openLayers_eq]

omit [Scalar R] in
/-- The rows down to one do not depend on what is opened below it. -/
theorem getElem?_cons_take_append (root : String) {layers : List String} {row last : Nat}
    (hrow : row ≤ last) (hlast : last ≤ layers.length) (opened : List String) :
    (root :: (layers.take last ++ opened))[row]? = (root :: layers)[row]? := by
  have hlength : row < (root :: layers.take last).length := by
    rw [List.length_cons, List.length_take, Nat.min_eq_left hlast]
    exact Nat.lt_succ_of_le hrow
  rw [← List.cons_append, List.getElem?_append_left hlength, ← List.take_succ_cons,
    List.getElem?_take, if_pos (Nat.lt_succ_of_le hrow)]

/-- A row that is open after a toggle was open before it, below the same row, or it has just
been opened. -/
theorem open_after_toggle_cases (scene : Scene R) (hgraph : scene.graph.WellFormed) (last : Nat)
    (node : String) {row : Nat} {id : String}
    (hopen : (scene.session.toggleLayer scene.graph last node).1.openLayers[row]? = some id) :
    let rows := scene.session.config.rootLayer ::
      (scene.session.toggleLayer scene.graph last node).1.openLayers
    (scene.session.openLayers[row]? = some id ∧ rows[row]? = scene.rows[row]?) ∨
      (row = last ∧ id = node) ∧
        ∃ layer, scene.Opens row layer id ∧ rows[row]? = some layer := by
  rw [rows_eq]
  obtain ⟨reason, hkept⟩ | ⟨held, y, hheld, hopens, hrow, htoggled⟩ :=
    Session.toggleLayer_cases scene.session scene.graph last node
  · rw [hkept] at hopen ⊢
    exact Or.inl ⟨hopen, rfl⟩
  · have hshown := visible_of_shown hrow
    have hlast := le_length_openLayers hshown
    have hlength : (scene.session.openLayers.take last).length = last := by
      rw [List.length_take]
      exact Nat.min_eq_left hlast
    have habove := fun hle : row ≤ last =>
      getElem?_cons_take_append scene.session.config.rootLayer hle hlast
    have htake : row < last → (scene.session.openLayers.take last)[row]? =
        scene.session.openLayers[row]? := by
      intro hlt
      rw [List.getElem?_take, if_pos hlt]
    obtain ⟨-, htoggled⟩ | ⟨hclosed, htoggled⟩ := htoggled
    · rw [htoggled] at hopen ⊢
      have hlt : row < last := by
        obtain ⟨hlt, -⟩ := List.getElem?_eq_some_iff.mp hopen
        rwa [hlength] at hlt
      have hkept := habove (Nat.le_of_lt hlt) []
      rw [List.append_nil] at hkept
      exact Or.inl ⟨(htake hlt).symm.trans hopen, hkept⟩
    · rw [htoggled] at hopen ⊢
      rw [List.getElem?_append, hlength] at hopen
      split at hopen
      · rename_i hlt
        exact Or.inl ⟨(htake hlt).symm.trans hopen, habove (Nat.le_of_lt hlt) [node]⟩
      · have hat : row = last ∧ id = node := by
          obtain ⟨hzero, hid⟩ := List.getElem?_eq_some_iff.mp hopen
          rw [List.length_singleton] at hzero
          rw [List.getElem_singleton] at hid
          exact ⟨by omega, hid.symm⟩
        obtain ⟨rfl, rfl⟩ := hat
        have hbucket := opensLayer_iff.mp hopens
        have hlisted := hgraph.lists_layer hheld
        refine Or.inr ⟨⟨rfl, rfl⟩, held.layer, ⟨hshown, hlisted, ⟨held, hheld, hbucket⟩, hclosed⟩,
          ?_⟩
        rw [rows_eq] at hshown
        exact (habove (Nat.le_refl row) [id]).trans hshown

/-- A row that is open after an event was open before it, below the same row, or a toggle has
just opened it. -/
theorem open_after_cases (scene : Scene R) (hgraph : scene.graph.WellFormed) (event : Event R)
    {row : Nat} {id : String} (hopen : (scene.after event).session.openLayers[row]? = some id) :
    (scene.session.openLayers[row]? = some id ∧
      (scene.after event).rows[row]? = scene.rows[row]?) ∨
    event = .call (.toggleLayer row id) ∧
      ∃ layer, scene.Opens row layer id ∧ (scene.after event).rows[row]? = some layer := by
  have hstays : scene.session.SameRows (scene.after event).session →
      scene.session.openLayers[row]? = some id ∧
        (scene.after event).rows[row]? = scene.rows[row]? := by
    intro hsame
    rw [hsame.openLayers_eq] at hopen
    exact ⟨hopen, by rw [rows_of_sameRows hsame]⟩
  cases event with
  | act newId action => exact Or.inl (hstays ⟨rfl, rfl⟩)
  | call call =>
      by_cases htoggle : ∃ last node, call = .toggleLayer last node
      · obtain ⟨last, node, rfl⟩ := htoggle
        have hrows : (scene.after (.call (.toggleLayer last node))).rows =
            scene.session.config.rootLayer ::
              (scene.session.toggleLayer scene.graph last node).1.openLayers := by
          rw [rows_eq]
          exact congrArg (fun config => CanvasConfig.rootLayer config :: _)
            (config_toggleLayer scene.session scene.graph last node)
        rw [hrows]
        obtain hkept | ⟨⟨rfl, rfl⟩, hopened⟩ := open_after_toggle_cases scene hgraph last node hopen
        · exact Or.inl hkept
        · exact Or.inr ⟨rfl, hopened⟩
      · refine Or.inl (hstays ?_)
        exact Session.sameRows_after scene.session scene.graph
          fun last node hsame => htoggle ⟨last, node, hsame⟩

/-! ## How deep rows have been -/

/-- No other call than a toggle makes rows deeper than they have been. -/
theorem maxDepth_after (session : Session R) (graph : Graph R) {call : Session.Call R}
    (htoggle : ∀ row id, call ≠ .toggleLayer row id) :
    (session.after graph call).1.maxDepth = session.maxDepth := by
  have hdrags {other : Session R} (hdrags : session.DragsOnly other) :
      other.maxDepth = session.maxDepth := by
    rw [hdrags]
  cases call with
  | resize viewport => rfl
  | startPan pointer => rfl
  | movePan pointer =>
      simp only [Session.after, Session.movePan]
      split <;> rfl
  | endPan => rfl
  | toggleLayer row id => exact absurd rfl (htoggle row id)
  | startDrag payload pointer =>
      exact hdrags (session.dragsOnly_startDrag graph payload pointer)
  | moveDrag payload pointer => exact hdrags (session.dragsOnly_moveDrag graph payload pointer)
  | endDrag newId payload pointer =>
      exact hdrags (session.dragsOnly_endDrag graph newId payload pointer)
  | cancelDrag payload => exact hdrags (session.dragsOnly_cancelDrag payload)

/-- What is remembered grows with the rows that are open, and never shrinks. -/
theorem maxDepth_after_eq_max (scene : Scene R) (event : Event R)
    (hdepth : scene.session.openLayers.length ≤ scene.session.maxDepth) :
    (scene.after event).session.maxDepth =
      max scene.session.maxDepth (scene.after event).session.openLayers.length := by
  have hstays : (scene.after event).session.openLayers = scene.session.openLayers →
      (scene.after event).session.maxDepth = scene.session.maxDepth →
      (scene.after event).session.maxDepth =
        max scene.session.maxDepth (scene.after event).session.openLayers.length := by
    intro hopen hkept
    rw [hopen, hkept, Nat.max_eq_left hdepth]
  cases event with
  | act newId action => exact hstays rfl rfl
  | call call =>
      by_cases htoggle : ∃ last node, call = .toggleLayer last node
      · obtain ⟨last, node, rfl⟩ := htoggle
        simp only [after, Session.after] at hstays ⊢
        obtain ⟨reason, hkept⟩ | ⟨_, _, -, -, hrow, ⟨-, htoggled⟩ | ⟨-, htoggled⟩⟩ :=
          Session.toggleLayer_cases scene.session scene.graph last node
        · exact hstays (by rw [hkept]) (by rw [hkept])
        · rw [htoggled]
          have hshorter := List.length_take_le' last scene.session.openLayers
          exact (Nat.max_eq_left (Nat.le_trans hshorter hdepth)).symm
        · have hlast := le_length_openLayers (visible_of_shown hrow)
          rw [htoggled]
          simp [Nat.min_eq_left hlast]
      · have hother : ∀ last node, call ≠ .toggleLayer last node :=
          fun last node hsame => htoggle ⟨last, node, hsame⟩
        exact hstays (Session.sameRows_after scene.session scene.graph hother).openLayers_eq
          (maxDepth_after scene.session scene.graph hother)

/-! ## Runs -/

/-- Whether a layer is open below a row since a toggle opened it: that happened when the layer
of the row above listed the node, and both rows have been shown ever since. -/
def OpenSince (start : Scene R) (events : List (Event R)) (row : Nat) (id : String) : Prop :=
  ∃ before since layer, events = before ++ .call (.toggleLayer row id) :: since ∧
    (start.afterEvents before).Opens row layer id ∧
    ∀ past, past <+: since →
      let scene := start.afterEvents (before ++ .call (.toggleLayer row id) :: past)
      scene.rows[row]? = some layer ∧ scene.session.openLayers[row]? = some id

/-- How many rows have been open below the root, at the start or after any of the events. -/
def depths (start : Scene R) (events : List (Event R)) : Set Nat :=
  {depth | ∃ past, past <+: events ∧
    (start.afterEvents past).session.openLayers.length = depth}

/-- What stays open has been open since the same toggle. -/
theorem OpenSince.append {start : Scene R} {events : List (Event R)} {row : Nat} {id : String}
    (hopen : start.OpenSince events row id) {event : Event R}
    (hkept : (start.afterEvents (events ++ [event])).session.openLayers[row]? = some id)
    (hrow : (start.afterEvents (events ++ [event])).rows[row]? =
      (start.afterEvents events).rows[row]?) :
    start.OpenSince (events ++ [event]) row id := by
  obtain ⟨before, since, layer, rfl, hopened, hpast⟩ := hopen
  refine ⟨before, since ++ [event], layer, by simp, hopened, fun past hprefix => ?_⟩
  obtain rfl | hprefix := List.prefix_concat_iff.mp hprefix
  · have hevents : before ++ Event.call (.toggleLayer row id) :: (since ++ [event]) =
        before ++ Event.call (.toggleLayer row id) :: since ++ [event] := by simp
    rw [hevents]
    exact ⟨hrow.trans (hpast since (List.prefix_refl since)).1, hkept⟩
  · exact hpast past hprefix

/-- What is known of the rows after events. -/
structure RowsTraced (start : Scene R) (events : List (Event R)) : Prop where
  distinct : (start.afterEvents events).rows.Nodup
  open_since : ∀ row id, (start.afterEvents events).session.openLayers[row]? = some id →
    start.OpenSince events row id
  toggled : ∀ row id, let scene := start.afterEvents events
    (¬ scene.Toggles row id ∧ ∃ reason, scene.session.toggleLayer scene.graph row id =
      (scene.session, .noop reason)) ∨
    scene.Toggles row id ∧
      ∃ isOpen, (scene.session.toggleLayer scene.graph row id).2 = .layerToggled row id isOpen ∧
        scene.KeepsRows row (scene.session.toggleLayer scene.graph row id).1
  deepest : IsGreatest (start.depths events) (start.afterEvents events).session.maxDepth

theorem isGreatest_depths (hstart : Session.start config viewport = .ok session)
    (events : List (Event R)) :
    IsGreatest ((Scene.mk session .empty).depths events)
      ((Scene.mk session .empty).afterEvents events).session.maxDepth := by
  induction events using List.reverseRecOn with
  | nil =>
      obtain ⟨hopen, hdepth⟩ := rows_start hstart
      refine ⟨⟨[], List.prefix_refl [], by rw [afterEvents, List.foldl_nil, hopen, hdepth]; rfl⟩,
        ?_⟩
      rintro depth ⟨past, hprefix, rfl⟩
      rw [List.prefix_nil.mp hprefix, afterEvents, List.foldl_nil, hopen]
      exact Nat.zero_le _
  | append_singleton events event ih =>
      obtain ⟨⟨deepest, hdeepest, hlength⟩, hbound⟩ := ih
      have hnow := hbound ⟨events, List.prefix_refl events, rfl⟩
      have hnext := maxDepth_after_eq_max _ event hnow
      rw [← afterEvents_append] at hnext
      constructor
      · rcases Nat.le_total ((Scene.mk session .empty).afterEvents
          (events ++ [event])).session.openLayers.length
          ((Scene.mk session .empty).afterEvents events).session.maxDepth with hold | hnew
        · rw [hnext, Nat.max_eq_left hold]
          exact ⟨deepest, hdeepest.trans (List.prefix_append events [event]), hlength⟩
        · rw [hnext, Nat.max_eq_right hnew]
          exact ⟨_, List.prefix_refl _, rfl⟩
      · rintro depth ⟨past, hprefix, rfl⟩
        rw [hnext]
        obtain rfl | hprefix := List.prefix_concat_iff.mp hprefix
        · exact Nat.le_max_right _ _
        · exact Nat.le_trans (hbound ⟨past, hprefix, rfl⟩) (Nat.le_max_left _ _)

theorem openSince_of_open (hstart : Session.start config viewport = .ok session)
    {events : List (Event R)} (hroot : config.rootLayer ∉ (Scene.mk session .empty).given events)
    (hgiven : ((Scene.mk session .empty).given events).Nodup) {row : Nat} {id : String}
    (hopen : ((Scene.mk session .empty).afterEvents events).session.openLayers[row]? = some id) :
    (Scene.mk session .empty).OpenSince events row id := by
  induction events using List.reverseRecOn with
  | nil =>
      rw [afterEvents, List.foldl_nil, (rows_start hstart).1] at hopen
      exact absurd hopen (by simp)
  | append_singleton events event ih =>
      rw [given_append, List.mem_append, not_or] at hroot
      rw [given_append, List.nodup_append] at hgiven
      obtain ⟨home, hrows⟩ := (runs_afterEvents hstart hroot.2 hgiven.2.1).followsRows
      have hafter := hopen
      rw [afterEvents_append] at hafter
      obtain ⟨hbefore, hrow⟩ | ⟨rfl, layer, hopens, hrow⟩ :=
        open_after_cases _ hrows.wellFormed event hafter
      · rw [← afterEvents_append] at hrow
        exact (ih hroot.2 hgiven.2.1 hbefore).append hopen hrow
      · refine ⟨events, [], layer, rfl, hopens, fun past hprefix => ?_⟩
        rw [List.prefix_nil.mp hprefix, afterEvents_append]
        exact ⟨hrow, hafter⟩

/-- Whatever happens to a new session and its graph, if nodes are given new ids: no layer is
shown in two rows, every row is open since a toggle of a bucket that the layer above it listed,
a toggle changes no row above, and the depth that is remembered is the greatest there was. -/
theorem rowsTraced_afterEvents (hstart : Session.start config viewport = .ok session)
    {events : List (Event R)} (hroot : config.rootLayer ∉ (Scene.mk session .empty).given events)
    (hgiven : ((Scene.mk session .empty).given events).Nodup) :
    (Scene.mk session .empty).RowsTraced events := by
  obtain ⟨home, hrows⟩ := (runs_afterEvents hstart hroot hgiven).followsRows
  refine ⟨?_, fun row id => openSince_of_open hstart hroot hgiven,
    fun row id => toggle_keepsRows _ row id, isGreatest_depths hstart events⟩
  rw [rows_eq, hrows.config_eq]
  exact hrows.rows_distinct

/-! ## A bucket in a bucket -/

def bucketIn (layer : String) (y : Float) : Placement Float :=
  ⟨"rates", none, none, none, .contributorBucket, none, layer, 0, some y⟩

/-- The layers of a bucket and of another one in it are opened, the first bucket is deleted,
and the layer of the second one is closed. -/
def bucketsOpened : List (Event Float) :=
  [.act "b" (.addNode (bucketIn "root" 80)), .call (.toggleLayer 0 "b"),
    .act "i" (.addNode (bucketIn "b" 180)), .call (.toggleLayer 1 "i"),
    .act "" (.deleteNode "b"), .call (.toggleLayer 0 "b"), .call (.toggleLayer 1 "i")]

/-- The layer of the bucket that is gone is still open, and two rows are remembered. -/
theorem rowsTraced_bucketsOpened :
    Session.start .standard ⟨800, 600⟩ = .ok Session.freshSession ∧
      (Scene.mk Session.freshSession .empty).given bucketsOpened = ["i", "b"] ∧
      ((Scene.mk Session.freshSession .empty).afterEvents bucketsOpened).graph.node? "b" =
        none ∧
      ((Scene.mk Session.freshSession .empty).afterEvents bucketsOpened).rows =
        ["root", "b"] ∧
      ((Scene.mk Session.freshSession .empty).afterEvents bucketsOpened).session.maxDepth =
        2 ∧
      (Scene.mk Session.freshSession .empty).OpenSince bucketsOpened 0 "b" ∧
      (Scene.mk Session.freshSession .empty).RowsTraced bucketsOpened := by
  have hstart : Session.start .standard ⟨800, 600⟩ = .ok Session.freshSession := by
    decide +kernel
  have hgiven : (Scene.mk Session.freshSession .empty).given bucketsOpened = ["i", "b"] := by
    decide +kernel
  have htraced : (Scene.mk Session.freshSession .empty).RowsTraced bucketsOpened :=
    rowsTraced_afterEvents hstart (by rw [hgiven]; decide) (by rw [hgiven]; decide)
  refine ⟨hstart, hgiven, by decide +kernel, by decide +kernel, by decide +kernel,
    htraced.open_since 0 "b" (by decide +kernel), htraced⟩

end Scene

end DecisionCanvas
