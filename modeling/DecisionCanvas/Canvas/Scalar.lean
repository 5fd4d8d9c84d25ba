/-!
# Scalars

The geometry of the canvas is stated over any number type with the operations
below.  It runs on doubles, whose operations round and know infinities and
undefined values, and can be reasoned about over the rationals, where it is
exact.
-/

namespace DecisionCanvas

/-- The operations the geometry needs. -/
class Scalar (R : Type) extends Add R, Sub R, Mul R, Div R where
  /-- A whole number. -/
  ofNat : Nat → R
  /-- One half. -/
  half : R
  /-- The distance from zero. -/
  abs : R → R
  /-- The larger of two numbers; an undefined one yields to the other. -/
  larger : R → R → R
  /-- The smaller of two numbers; an undefined one yields to the other. -/
  smaller : R → R → R
  /-- Strictly less; false if either side is undefined. -/
  below : R → R → Bool
  /-- Less or equal; false if either side is undefined. -/
  atMost : R → R → Bool
  /-- The strict order of distances; an undefined distance is beyond all others. -/
  nearer : R → R → Bool
  /-- Whether a number is neither infinite nor undefined. -/
  isFinite : R → Bool

namespace Scalar

variable {R : Type} [Scalar R]

def distance (left right : R) : R :=
  abs (left - right)

/-- The number in a range nearest to a number. -/
def clamp (low high value : R) : R :=
  if below value low then low else if below high value then high else value

/-- The first element that no other is nearer than. -/
def nearestBy {Element : Type} (distance : Element → R) : List Element → Option Element
  | [] => none
  | first :: rest =>
    some (rest.foldl (fun best next =>
      if nearer (distance next) (distance best) then next else best) first)

end Scalar

/-- Doubles.  Distances have no sign, so their bits order them. -/
instance : Scalar Float where
  ofNat := Float.ofNat
  half := Float.ofScientific 5 true 1
  abs := Float.abs
  larger left right := if right.isNaN || right ≤ left then left else right
  smaller left right := if right.isNaN || left ≤ right then left else right
  below left right := left < right
  atMost left right := left ≤ right
  nearer left right := left.toBits < right.toBits
  isFinite := Float.isFinite

instance : Scalar Rat where
  ofNat number := (number : Rat)
  half := 1 / 2
  abs number := if number < 0 then -number else number
  larger left right := if right ≤ left then left else right
  smaller left right := if left ≤ right then left else right
  below left right := left < right
  atMost left right := left ≤ right
  nearer left right := left < right
  isFinite _ := true

end DecisionCanvas
