import DecisionCanvas.Proofs.Canvas.Nearest
import DecisionCanvas.Proofs.Canvas.OpenRows

/-!
# Which row a fact snaps to

In exact arithmetic a fact snaps whenever some row is near enough, and then to the nearest row,
the upper one of two, whether the rows stand in order or not.  It takes the nearest of the slots
that the row would have with one node more.
-/

namespace DecisionCanvas

/-- The number of nodes in the line of a layer, none if there is no layer. -/
def Graph.lineLength {R : Type} (graph : Graph R) (id : String) : Nat :=
  ((graph.layer? id).map Layer.length).getD 0

namespace Session

/-- What a preview says of a place in the world: a row of which no other is nearer, where that
row stands, and the slot of which no other is nearer in a line for one node more. -/
structure SnapsTo (session : Session Rat) (graph : Graph Rat) (world : Point Rat)
    (preview : Preview Rat) : Prop where
  row : ∃ row : Nat,
    (session.config.rootLayer :: session.openLayers)[row]? = some preview.layer ∧
    preview.layerY =
      ((graph.layer? preview.layer).map Layer.y).getD (session.config.rowY row) ∧
    Scalar.FirstNearest (fun shown => |world.y - shown.2|) (session.visibleRows graph) row
      (preview.layer, preview.layerY)
  index_le : preview.index ≤ graph.lineLength preview.layer
  slot :
    let count := graph.lineLength preview.layer + 1
    Scalar.FirstNearest (fun centre => |world.x - centre|)
      (Line.centres (Line.width count) count) preview.index
      (Line.centre (Line.width count) count preview.index)

variable {session : Session Rat} {graph : Graph Rat} {world : Point Rat}

theorem visibleRows_ne_nil (session : Session Rat) (graph : Graph Rat) :
    session.visibleRows graph ≠ [] := by
  rw [visibleRows_eq, List.zipIdx_cons, List.map_cons]
  exact List.cons_ne_nil _ _

/-- A preview in the nearest row, at the slot that is found there, is what it says. -/
theorem snapsTo_of_firstNearest {place : Nat} {row : String × Rat}
    (hnearest : Scalar.FirstNearest (fun shown => |world.y - shown.2|)
      (session.visibleRows graph) place row) :
    let count := graph.lineLength row.1 + 1
    session.SnapsTo graph world
      ⟨row.1, row.2, Line.closestSlot world.x (Line.width count) count⟩ := by
  intro count
  have hslot := Line.firstNearest_closestSlot world.x (Line.width count)
    (Nat.succ_pos (graph.lineLength row.1))
  have hhere := hnearest.here
  rw [getElem?_visibleRows, Option.map_eq_some_iff] at hhere
  obtain ⟨id, hid, rfl⟩ := hhere
  refine ⟨⟨place, hid, rfl, hnearest⟩, ?_, ?_⟩
  · have hlt := hslot.lt_length
    rw [Line.length_centres] at hlt
    exact Nat.le_of_lt_succ hlt
  · exact hslot

/-- Any place in the world snaps just when some row on screen is within the threshold, and it
snaps to the nearest row and the nearest slot there. -/
theorem snap_finds_nearest (session : Session Rat) (graph : Graph Rat) (world : Point Rat) :
    ((∃ preview, session.snap graph world = some preview) ↔
      ∃ row ∈ session.visibleRows graph, |world.y - row.2| ≤ session.config.snapThreshold) ∧
    ∀ preview, session.snap graph world = some preview →
      session.SnapsTo graph world preview := by
  obtain ⟨place, row, hfound, hnearest⟩ :=
    Scalar.exists_firstNearest (fun row => Scalar.distance world.y row.2)
      (session.visibleRows_ne_nil graph)
  simp only [Scalar.distance_eq_abs] at hfound hnearest
  let count := graph.lineLength row.1 + 1
  let nearest : Preview Rat :=
    ⟨row.1, row.2, Line.closestSlot world.x (Line.width count) count⟩
  have hsnap : session.snap graph world =
      if session.config.snapThreshold < |world.y - row.2| then none else some nearest := by
    simp only [snap, Scalar.distance_eq_abs, hfound, Scalar.below, decide_eq_true_iff]
    rfl
  rw [hnearest.exists_le_iff, hsnap]
  by_cases hfar : session.config.snapThreshold < |world.y - row.2|
  · rw [if_pos hfar]
    exact ⟨by simpa using hfar, by simp⟩
  · rw [if_neg hfar]
    refine ⟨⟨fun _ => not_lt.mp hfar, fun _ => ⟨nearest, rfl⟩⟩, fun preview hpreview => ?_⟩
    rw [← Option.some.inj hpreview]
    exact snapsTo_of_firstNearest hnearest

/-- Half way between two rows that have no layer yet, a fact snaps to the upper one. -/
example : (⟨⟨70, 140, 80, "root", 120⟩, ⟨640, 480⟩, ⟨0, 0⟩, none, ["loan"], 1, none, none,
      none⟩ : Session Rat).snap .empty ⟨500, 150⟩ = some ⟨"root", 80, 0⟩ := by
  cbv

end Session

end DecisionCanvas
