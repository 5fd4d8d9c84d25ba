import DecisionCanvas.Proofs.Canvas.WellFormed
import Mathlib.Algebra.Order.Field.Basic
import Mathlib.Algebra.Order.Ring.Rat
import Mathlib.Data.Rat.Cast.Order
import Mathlib.Tactic.FieldSimp
import Mathlib.Tactic.Linarith
import Mathlib.Tactic.Ring

/-!
# Room for every node

The width of a line is that of a base line until its nodes need more, and the room they need
from then on.  In exact arithmetic no slot is narrower than a node and a gap in either case,
so the nodes of a layer never overlap and never reach beyond its ends.
-/

namespace DecisionCanvas

theorem Scalar.larger_eq_max (left right : Rat) : larger left right = max left right := by
  rw [max_comm, max_def]
  rfl

namespace Line

/-! ## Slots -/

theorem pitch_pos : 0 < (pitch : Rat) := by
  decide +kernel

theorem width_eq_max (count : Nat) :
    (width count : Rat) = max ((count : Rat) * pitch) baseWidth :=
  Scalar.larger_eq_max _ _

theorem width_pos (count : Nat) : 0 < (width count : Rat) := by
  rw [width_eq_max]
  exact lt_max_of_lt_right (by decide +kernel)

/-- A line of more nodes is not narrower. -/
theorem width_mono : Monotone (width : Nat → Rat) := by
  intro fewer more hle
  rw [width_eq_max, width_eq_max]
  have hcount : (fewer : Rat) * pitch ≤ more * pitch :=
    mul_le_mul_of_nonneg_right (Nat.cast_le.mpr hle) pitch_pos.le
  exact max_le_max_right _ hcount

/-- A slot has room for a node and a gap. -/
theorem pitch_le_slot {count : Nat} (hcount : 0 < count) :
    (pitch : Rat) ≤ width count / count := by
  rw [le_div_iff₀ (Nat.cast_pos.mpr hcount), width_eq_max, mul_comm]
  exact le_max_left _ _

theorem centre_eq (width : Rat) (count index : Nat) :
    centre width count index = (index + 1 / 2) * (width / count) :=
  rfl

theorem centre_sub_centre (width : Rat) (count left right : Nat) :
    centre width count right - centre width count left =
      ((right : Rat) - left) * (width / count) := by
  rw [centre_eq, centre_eq]
  ring

/-- The slots are the same when they are counted from the other end. -/
theorem centre_add_mirror (width : Rat) {count index : Nat} (hindex : index < count) :
    centre width count index + centre width count (count - 1 - index) = width := by
  have hcount : (count : Rat) ≠ 0 := Nat.cast_ne_zero.mpr (Nat.ne_zero_of_lt hindex)
  have hmirror : ((count - 1 - index : Nat) : Rat) = count - 1 - index := by
    rw [Nat.cast_sub (by omega), Nat.cast_sub (by omega), Nat.cast_one]
  rw [centre_eq, centre_eq, hmirror]
  field_simp
  ring

/-- The first centre is half a slot from the start of the line, all others are further. -/
theorem half_slot_le_centre {width : Rat} (hwidth : 0 ≤ width) (count index : Nat) :
    width / count / 2 ≤ centre width count index := by
  have hslot : 0 ≤ width / count := div_nonneg hwidth (Nat.cast_nonneg count)
  have hrest : 0 ≤ (index : Rat) * (width / count) := mul_nonneg (Nat.cast_nonneg index) hslot
  calc width / count / 2 ≤ index * (width / count) + width / count / 2 := le_add_of_nonneg_left hrest
    _ = centre width count index := by rw [centre_eq]; ring

end Line

namespace Graph

/-! ## The widest layer -/

section MaxWidth

variable {graph : Graph Rat} {layer : Layer Rat}

theorem foldl_larger_le_iff (layers : List (Layer Rat)) (widest bound : Rat) :
    layers.foldl (fun widest layer => Scalar.larger widest layer.width) widest ≤ bound ↔
      widest ≤ bound ∧ ∀ layer ∈ layers, layer.width ≤ bound := by
  induction layers generalizing widest with
  | nil => simp
  | cons layer rest ih =>
      rw [List.foldl_cons, ih, Scalar.larger_eq_max, max_le_iff, List.forall_mem_cons, and_assoc]

/-- The greatest width is the least bound of all widths and of that of an empty line. -/
theorem maxWidth_le_iff {bound : Rat} : graph.maxWidth ≤ bound ↔
    Line.width 0 ≤ bound ∧ ∀ layer ∈ graph.layers, layer.width ≤ bound :=
  foldl_larger_le_iff graph.layers (Line.width 0) bound

theorem width_le_maxWidth (hlayer : layer ∈ graph.layers) : layer.width ≤ graph.maxWidth :=
  (maxWidth_le_iff.mp le_rfl).2 layer hlayer

end MaxWidth

/-! ## The nodes of a layer -/

/-- The node that a layer lists at a place. -/
def nodeAt? {R : Type} (graph : Graph R) (layer : Layer R) (place : Nat) : Option (Node R) :=
  layer.nodeIds[place]?.bind graph.node?

/-- Whether all that a layer lists has room: nodes are a pitch apart for each place between
them and half a pitch from either end, and they are symmetric about the middle. -/
structure Spaced (graph : Graph Rat) (layer : Layer Rat) : Prop where
  filled : ∀ place < layer.length, ∃ node, graph.nodeAt? layer place = some node
  apart : ∀ left right first second, left < right →
    graph.nodeAt? layer left = some first → graph.nodeAt? layer right = some second →
    ((right : Rat) - left) * Line.pitch ≤ second.x - first.x
  margins : ∀ place node, graph.nodeAt? layer place = some node →
    Line.pitch / 2 ≤ node.x ∧ Line.pitch / 2 ≤ layer.width - node.x
  mirrored : ∀ place node, graph.nodeAt? layer place = some node →
    ∃ mirror, graph.nodeAt? layer (layer.length - 1 - place) = some mirror ∧
      mirror.x - layer.width / 2 = layer.width / 2 - node.x

namespace WellFormed

variable {R : Type} [Scalar R] {graph : Graph R} {layer : Layer R}

/-- A layer lists a node at each place, which stands on the centre of the slot. -/
theorem exists_nodeAt? (hgraph : graph.WellFormed) (hlayer : layer ∈ graph.layers) {place : Nat}
    (hplace : place < layer.length) : ∃ node, graph.nodeAt? layer place = some node ∧
      node.x = Line.centre layer.width layer.length place := by
  have hlisted : layer.nodeIds[place]? = some layer.nodeIds[place] :=
    List.getElem?_eq_getElem hplace
  obtain ⟨node, hnode, -, -, hx, -⟩ := hgraph.laid_out layer hlayer place _ hlisted
  rw [Line.getElem?_centres layer.width hplace, Option.some.injEq] at hx
  refine ⟨node, ?_, hx.symm⟩
  rw [nodeAt?, hlisted, Option.bind_some, hnode]

theorem of_nodeAt? (hgraph : graph.WellFormed) (hlayer : layer ∈ graph.layers) {place : Nat}
    {node : Node R} (hnode : graph.nodeAt? layer place = some node) :
    place < layer.length ∧ node.x = Line.centre layer.width layer.length place := by
  obtain ⟨id, hlisted, -⟩ := Option.bind_eq_some_iff.mp hnode
  have hplace : place < layer.length := (List.getElem?_eq_some_iff.mp hlisted).1
  obtain ⟨held, hheld, hx⟩ := hgraph.exists_nodeAt? hlayer hplace
  rw [hnode, Option.some.injEq] at hheld
  exact ⟨hplace, hheld ▸ hx⟩

end WellFormed

/-- Where nodes and layers agree, every layer has room for what it lists. -/
theorem WellFormed.spaced {graph : Graph Rat} (hgraph : graph.WellFormed) {layer : Layer Rat}
    (hlayer : layer ∈ graph.layers) : graph.Spaced layer := by
  have hwidth := hgraph.widths layer hlayer
  have hslot : ∀ place < layer.length, Line.pitch ≤ layer.width / layer.length := by
    intro place hplace
    rw [hwidth]
    exact Line.pitch_le_slot (Nat.zero_lt_of_lt hplace)
  have hnonneg : 0 ≤ layer.width := hwidth ▸ (Line.width_pos layer.length).le
  have hstart : ∀ place < layer.length,
      Line.pitch / 2 ≤ Line.centre layer.width layer.length place := by
    intro place hplace
    exact (div_le_div_of_nonneg_right (hslot place hplace) zero_le_two).trans
      (Line.half_slot_le_centre hnonneg layer.length place)
  refine ⟨fun place hplace => ?_, fun left right first second hlt hfirst hsecond => ?_,
    fun place node hnode => ?_, fun place node hnode => ?_⟩
  · obtain ⟨node, hnode, -⟩ := hgraph.exists_nodeAt? hlayer hplace
    exact ⟨node, hnode⟩
  · obtain ⟨-, hfirst⟩ := hgraph.of_nodeAt? hlayer hfirst
    obtain ⟨hright, hsecond⟩ := hgraph.of_nodeAt? hlayer hsecond
    have hbetween : 0 ≤ (right : Rat) - left := sub_nonneg.mpr (Nat.cast_le.mpr hlt.le)
    rw [hfirst, hsecond, Line.centre_sub_centre]
    exact mul_le_mul_of_nonneg_left (hslot right hright) hbetween
  · obtain ⟨hplace, hx⟩ := hgraph.of_nodeAt? hlayer hnode
    have hmirror := Line.centre_add_mirror layer.width hplace
    rw [hx]
    refine ⟨hstart place hplace, ?_⟩
    -- The end of the line is as far as the start is from the mirror image.
    rw [sub_eq_of_eq_add' hmirror.symm]
    exact hstart _ (by omega)
  · obtain ⟨hplace, hx⟩ := hgraph.of_nodeAt? hlayer hnode
    obtain ⟨mirror, hmirror, hmirrorX⟩ := hgraph.exists_nodeAt? hlayer
      (show layer.length - 1 - place < layer.length by omega)
    refine ⟨mirror, hmirror, ?_⟩
    have hsum := Line.centre_add_mirror layer.width hplace
    rw [← hx, ← hmirrorX] at hsum
    linarith

/-- Whatever is done to the empty graph, in every layer nodes have room and none is wider than
the widest; and a line that a node is added to never becomes narrower. -/
theorem spaced_of_reaches_empty {graph : Graph Rat} (hreaches : Reaches .empty graph) :
    (∀ layer ∈ graph.layers, graph.Spaced layer ∧ layer.width ≤ graph.maxWidth) ∧
      Monotone (Line.width : Nat → Rat) :=
  ⟨fun _ hlayer => ⟨(wellFormed_of_reaches_empty hreaches).spaced hlayer,
    width_le_maxWidth hlayer⟩, Line.width_mono⟩

def rateAt (index : Nat) : Placement Rat :=
  ⟨"rate", none, none, none, .constant, none, "root", index, some 80⟩

/-- Three nodes, of which the second was added last. -/
def threeRates : Graph Rat :=
  ((Graph.empty.after "a" (.addNode (rateAt 0))).after "c" (.addNode (rateAt 1))).after "b"
    (.addNode (rateAt 1))

theorem reaches_threeRates : Reaches .empty threeRates :=
  .step "b" _ (.step "c" _ (.step "a" _ .refl fun _ _ => rfl) fun _ _ => by decide +kernel)
    fun _ _ => by decide +kernel

/-- The third node needs more than the base line, which leaves the nodes just a pitch apart. -/
theorem spaced_threeRates :
    (Line.width 2 : Rat) = 240 ∧ ∃ layer, threeRates.layer? "root" = some layer ∧
      layer.width = 264 ∧ (threeRates.layerNodes "root").map Node.x = [44, 132, 220] ∧
      threeRates.Spaced layer ∧ layer.width ≤ threeRates.maxWidth := by
  have hlayer : threeRates.layer? "root" = some ⟨"root", 80, ["a", "b", "c"], 264⟩ := by
    decide +kernel
  obtain ⟨hspaced, hwidest⟩ := (spaced_of_reaches_empty reaches_threeRates).1 _
    (List.mem_of_find?_eq_some hlayer)
  exact ⟨by decide +kernel, _, hlayer, rfl, by decide +kernel, hspaced, hwidest⟩

end Graph

end DecisionCanvas
