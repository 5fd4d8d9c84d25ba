import DecisionCanvas.Text.Blank

/-!
# Reading numbers

A numeral has an optional sign, digits with at most one point and at least one
digit, and an optional exponent; or it spells infinity or "not a number" in any
case.  It reads as the nearest double.
-/

namespace DecisionCanvas.Decimal

def digitsValue (digits : List Char) : Nat :=
  digits.foldl (fun value digit => 10 * value + (digit.toNat - '0'.toNat)) 0

def spanDigits (chars : List Char) : List Char × List Char :=
  (chars.takeWhile Char.isDigit, chars.dropWhile Char.isDigit)

/-- The double nearest to `mantissa * 10 ^ exponent`.  Powers beyond every
double are cut short, so that no huge power is ever computed. -/
def nearest (negative : Bool) (mantissa : Nat) (exponent : Int) : Float :=
  let power := exponent + (Nat.toDigits 10 mantissa).length
  let magnitude :=
    if mantissa = 0 || power < -400 then 0
    else if 400 < power then 1 / 0
    else Float.ofScientific mantissa (exponent < 0) exponent.natAbs
  if negative then -magnitude else magnitude

def splitSign : List Char → Bool × List Char
  | '-' :: rest => (true, rest)
  | '+' :: rest => (false, rest)
  | chars => (false, chars)

/-- The exponent that ends a numeral: nothing, or a mark, a sign and digits. -/
def exponentPart : List Char → Option Int
  | [] => some 0
  | mark :: rest =>
    let (negative, digits) := splitSign rest
    if (mark = 'e' || mark = 'E') && !digits.isEmpty && digits.all Char.isDigit then
      some (if negative then -(digitsValue digits : Int) else digitsValue digits)
    else none

/-- The value of an unsigned row of digits with a point and an exponent. -/
def unsignedNumeral (negative : Bool) (chars : List Char) : Option Float :=
  let (whole, rest) := spanDigits chars
  let (fraction, rest) :=
    match rest with
    | '.' :: rest => spanDigits rest
    | rest => ([], rest)
  if whole.isEmpty && fraction.isEmpty then none
  else
    (exponentPart rest).map fun exponent =>
      nearest negative (digitsValue (whole ++ fraction)) (exponent - fraction.length)

/-- The value of a numeral without blanks around it. -/
def readNumeral (chars : List Char) : Option Float :=
  let (negative, rest) := splitSign chars
  if Text.sameLetters rest "inf".toList || Text.sameLetters rest "infinity".toList then
    some (if negative then -(1 / 0) else 1 / 0)
  else if Text.sameLetters rest "nan".toList then some (0 / 0)
  else unsignedNumeral negative rest

def readNumber (text : String) : Option Float :=
  readNumeral (Text.trimChars text.toList)

end DecisionCanvas.Decimal
