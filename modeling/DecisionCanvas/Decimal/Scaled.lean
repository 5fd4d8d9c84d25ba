import DecisionCanvas.Decimal.Numeral

/-!
# Numbers read in two steps

The digits of a number are gathered into a whole number below `2 ^ 64`, and those
that do not fit are left out.  This word is then scaled by a power of ten in
doubles, so each of the two steps rounds: the result need not be the double
nearest to the text.
-/

namespace DecisionCanvas.Decimal

/-- The number `word * 10 ^ exponent`. -/
structure Scaled where
  word : Nat
  exponent : Int
  deriving DecidableEq, Repr

/-- Words are below this. -/
def wordLimit : Nat := Nat.pow 2 64

/-- Puts digits behind a word up to the first that does not fit.  Returns the
word and the digits that are left. -/
def gather : Nat → List Char → Nat × List Char
  | word, [] => (word, [])
  | word, digit :: rest =>
    let longer := 10 * word + (digit.toNat - '0'.toNat)
    if longer < wordLimit then gather longer rest else (word, digit :: rest)

/-- The number with these digits before and after the point.  A whole digit that
is left out counts as a power of ten, a fraction digit not at all.  A small
fraction digit may still fit where a whole one did not. -/
def Scaled.ofDigits (whole fraction : List Char) : Scaled :=
  let (word, wholeLeft) := gather 0 whole
  let (word, fractionLeft) := gather word fraction
  ⟨word, wholeLeft.length + fractionLeft.length - fraction.length⟩

def largestPower : Nat := 308

def powerOfTen (power : Nat) : Float :=
  Float.ofScientific 1 false power

/-- The value as a double, unless it is beyond them.  A power of ten below every
double is divided by in two parts. -/
def Scaled.toFloat? (number : Scaled) : Option Float :=
  let word := Float.ofNat number.word
  let power := number.exponent.natAbs
  if number.word = 0 then some 0
  else if 0 ≤ number.exponent then
    if power ≤ largestPower then
      let value := word * powerOfTen power
      if value.isFinite then some value else none
    else none
  else if power ≤ largestPower then some (word / powerOfTen power)
  else if power ≤ 2 * largestPower then
    some (word / powerOfTen largestPower / powerOfTen (power - largestPower))
  else some 0

end DecisionCanvas.Decimal
