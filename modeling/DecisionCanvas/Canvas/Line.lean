import DecisionCanvas.Canvas.Scalar

/-!
# Lines of slots

A layer is drawn as a line of equally wide slots that starts at zero, with a
node at the centre of each slot.  The width of a line follows from the number of
its nodes, and leaves every node room for itself and a gap.
-/

namespace DecisionCanvas.Line

variable {R : Type} [Scalar R]

def nodeDiameter : R := Scalar.ofNat 64

def minGap : R := Scalar.ofNat 24

/-- The width of a line with few nodes. -/
def baseWidth : R := Scalar.ofNat 240

/-- The room one slot needs. -/
def pitch : R := nodeDiameter + minGap

def width (count : Nat) : R :=
  Scalar.larger (Scalar.ofNat count * pitch) baseWidth

def centres (width : R) (count : Nat) : List R :=
  let slot := width / Scalar.ofNat count
  (List.range count).map fun index => (Scalar.ofNat index + Scalar.half) * slot

/-- The slot whose centre is nearest to a place, the first of several. -/
def closestSlot (place width : R) (count : Nat) : Nat :=
  if count ≤ 1 then 0
  else
    let slots := (centres width count).zipIdx
    match Scalar.nearestBy (fun slot => Scalar.distance place slot.1) slots with
    | some slot => slot.2
    | none => 0

/-- Moves the item at one place to another and keeps all others in order.  There
is nothing to move from beyond the end, and no further to move than the end. -/
def relocate {Item : Type} (items : List Item) (source target : Nat) : List Item :=
  match items[source]? with
  | none => items
  | some item =>
    let others := items.eraseIdx source
    others.insertIdx (min target others.length) item

end DecisionCanvas.Line
