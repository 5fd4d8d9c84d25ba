import DecisionCanvas.Decimal.Shortest

/-!
# Written numbers

A number is written from its shortest digits.  A style fixes the rest: which
powers of ten are written out in places, what follows a whole number, and which
of two equally near decimals is written.
-/

namespace DecisionCanvas.Decimal

/-- The choices that turn digits into text.  The power of a number is the
exponent of ten of its first digit. -/
structure Style where
  inPlaces : Int → Bool
  wholeEnding : List Char
  tie : TieBreak

/-- Messages write every number out in places, whole numbers without a point. -/
def Style.plain : Style :=
  ⟨fun _ => true, [], .up⟩

/-- Documents write numbers from `1e-5` up to `1e16` in places and always with a
point, and all others with an exponent. -/
def Style.document : Style :=
  ⟨fun power => -5 ≤ power && power < 16, ['.', '0'], .even⟩

/-- Digits in places: zeros are added at whichever end the point lies beyond. -/
def positional (wholeEnding : List Char) (digits : List Char) (point : Int) : List Char :=
  if point ≤ 0 then
    '0' :: '.' :: List.replicate (-point).toNat '0' ++ digits
  else if (digits.length : Int) ≤ point then
    digits ++ List.replicate (point.toNat - digits.length) '0' ++ wholeEnding
  else
    digits.take point.toNat ++ '.' :: digits.drop point.toNat

/-- One digit before the point, then the exponent with its sign. -/
def withExponent (digits : List Char) (power : Int) : List Char :=
  let mantissa :=
    match digits with
    | first :: second :: rest => first :: '.' :: second :: rest
    | few => few
  let sign := if power < 0 then '-' else '+'
  mantissa ++ 'e' :: sign :: Nat.toDigits 10 power.natAbs

/-- The text of a number that is not negative. -/
def Style.magnitude (layout : Style) (number : Digits) : List Char :=
  if number.digits = 0 then '0' :: layout.wholeEnding
  else
    let digits := Nat.toDigits 10 number.digits
    let point := number.exponent + digits.length
    if layout.inPlaces (point - 1) then positional layout.wholeEnding digits point
    else withExponent digits (point - 1)

def Style.text (layout : Style) (number : Float) : List Char :=
  if number.isNaN then ['N', 'a', 'N']
  else
    let sign := if number.toBits.toNat / Nat.pow 2 63 = 1 then ['-'] else []
    if number.isInf then sign ++ ['i', 'n', 'f']
    else sign ++ layout.magnitude (shortest layout.tie number)

def plainText (number : Float) : String :=
  String.ofList (Style.plain.text number)

end DecisionCanvas.Decimal
