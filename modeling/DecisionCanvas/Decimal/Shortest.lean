/-!
# Shortest decimal digits

Every finite number stands for an interval of reals that round to it.  Its
shortest digits are read off the coarsest grid of powers of ten that has a point
in that interval, and of two such points the one nearer to the number is taken.
Which of two equally near points is taken is up to the caller.  The search runs
in whole numbers only.
-/

namespace DecisionCanvas.Decimal

/-- The decimal `digits * 10 ^ exponent`. -/
structure Digits where
  digits : Nat
  exponent : Int
  deriving DecidableEq, Repr

/-- The interval of reals that round to a number, in units of `2 ^ exponent`:
the number itself and the two ends, which belong to it when `closed` holds. -/
structure Rounding where
  low : Nat
  centre : Nat
  high : Nat
  exponent : Int
  closed : Bool

/-- The interval of the double with these 63 bits below the sign.  The lower
gap is half as wide just above a power of two. -/
def Rounding.ofBits (bits : Nat) : Rounding :=
  let fraction : Nat := bits % Nat.pow 2 52
  let biased : Nat := bits / Nat.pow 2 52
  let mantissa := if biased = 0 then fraction else fraction + Nat.pow 2 52
  let exponent : Int := if biased = 0 then -1074 else (biased : Int) - 1075
  let lowerGap := if fraction = 0 && 1 < biased then 1 else 2
  ⟨4 * mantissa - lowerGap, 4 * mantissa, 4 * mantissa + 2, exponent - 2, mantissa % 2 == 0⟩

/-- Whether a whole number of steps lies in the interval, everything in one
unit. -/
def Rounding.contains (rounding : Rounding) (scale point : Nat) : Bool :=
  let low := rounding.low * scale
  let high := rounding.high * scale
  if rounding.closed then low ≤ point && point ≤ high else low < point && point < high

/-- How a tie between two neighbouring points of a grid is settled: whether the
upper one is taken, given the digits of the lower one. -/
abbrev TieBreak := Nat → Bool

/-- Of two equally near points the upper one. -/
def TieBreak.up : TieBreak := fun _ => true

/-- Of two equally near points the one whose last digit is even. -/
def TieBreak.even : TieBreak := fun lower => lower % 2 == 1

/-- The point of the grid `10 ^ exponent` that lies in the interval, the one
nearer to the centre if there are two. -/
def Rounding.onGrid (rounding : Rounding) (tie : TieBreak) (exponent : Int) : Option Digits :=
  let step := Nat.pow 10 exponent.toNat * Nat.pow 2 (-rounding.exponent).toNat
  let scale := Nat.pow 2 rounding.exponent.toNat * Nat.pow 10 (-exponent).toNat
  let centre := rounding.centre * scale
  let below := centre / step
  let lower := below * step
  let upper := (below + 1) * step
  match rounding.contains scale lower, rounding.contains scale upper with
  | true, true =>
    let takeUpper :=
      upper - centre < centre - lower || (upper - centre == centre - lower && tie below)
    some ⟨if takeUpper then below + 1 else below, exponent⟩
  | true, false => some ⟨below, exponent⟩
  | false, true => some ⟨below + 1, exponent⟩
  | false, false => none

/-- Tries grids from the coarse to the fine. -/
def Rounding.search (rounding : Rounding) (tie : TieBreak) : Nat → Int → Option Digits
  | 0, _ => none
  | tries + 1, exponent =>
    match rounding.onGrid tie exponent with
    | some found => some found
    | none => rounding.search tie tries (exponent - 1)

/-- A power of ten above every point of the interval. -/
def Rounding.magnitude (rounding : Rounding) : Int :=
  (rounding.exponent + (Nat.log2 rounding.high : Int) + 1) * 30103 / 100000 + 1

/-- Seventeen digits tell any two doubles apart, so twenty grids suffice. -/
def Rounding.shortest (rounding : Rounding) (tie : TieBreak) : Digits :=
  (rounding.search tie 20 rounding.magnitude).getD ⟨0, 0⟩

/-- The shortest digits of a finite number, without its sign. -/
def shortest (tie : TieBreak) (number : Float) : Digits :=
  let bits := number.toBits.toNat % Nat.pow 2 63
  if bits = 0 then ⟨0, 0⟩ else (Rounding.ofBits bits).shortest tie

end DecisionCanvas.Decimal
