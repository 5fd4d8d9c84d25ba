import DecisionCanvas.Json.Basic
import DecisionCanvas.Decimal.Scaled

/-!
# Reading documents

The grammar is strict JSON: no comments, no trailing commas, no leading zeros and
no raw control characters.  Three well-formed things denote nothing and read as
unreadable: a number beyond the doubles, text with half of a surrogate pair, and
anything nested deeper than the limit.
-/

namespace DecisionCanvas.Json

/-- The four characters that may stand between tokens. -/
def isSpace (char : Char) : Bool :=
  char == ' ' || char == '\n' || char == '\r' || char == '\t'

def skipSpace (chars : List Char) : List Char :=
  chars.dropWhile isSpace

def hexValue? (char : Char) : Option Nat :=
  if '0' ≤ char ∧ char ≤ '9' then some (char.toNat - 48)
  else if 'a' ≤ char ∧ char ≤ 'f' then some (char.toNat - 87)
  else if 'A' ≤ char ∧ char ≤ 'F' then some (char.toNat - 55)
  else none

/-- The code unit written by four hexadecimal digits. -/
def codeUnit? (first second third fourth : Char) : Option Nat := do
  return ((← hexValue? first) * 16 + (← hexValue? second)) * 256 +
    ((← hexValue? third) * 16 + (← hexValue? fourth))

/-- The character of a pair of surrogates. -/
def pairChar (lead trail : Nat) : Char :=
  Char.ofNat (0x10000 + (lead - 0xD800) * 0x400 + (trail - 0xDC00))

def shortEscape? : Char → Option Char
  | '"' => some '"'
  | '\\' => some '\\'
  | '/' => some '/'
  | 'b' => some '\x08'
  | 'f' => some '\x0c'
  | 'n' => some '\n'
  | 'r' => some '\r'
  | 't' => some '\t'
  | _ => none

/-- A part of a string: a character as such, or a code unit written by number. -/
inductive TextPart where
  | plain (char : Char)
  | unit (code : Nat)

/-- Reads the rest of a string after its opening quote, and what follows the
closing one. -/
def readParts : List Char → Option (List TextPart × List Char)
  | [] => none
  | '"' :: rest => some ([], rest)
  | '\\' :: 'u' :: a :: b :: c :: d :: rest =>
    match codeUnit? a b c d with
    | none => none
    | some code => (readParts rest).map fun (parts, rest) => (.unit code :: parts, rest)
  | '\\' :: letter :: rest =>
    match shortEscape? letter with
    | none => none
    | some char => (readParts rest).map fun (parts, rest) => (.plain char :: parts, rest)
  | char :: rest =>
    if char.toNat < 0x20 || char == '\\' then none
    else (readParts rest).map fun (parts, rest) => (.plain char :: parts, rest)

/-- The text that parts denote; a surrogate counts only as half of a pair. -/
def joinParts : List TextPart → Option (List Char)
  | [] => some []
  | .plain char :: rest => (joinParts rest).map (char :: ·)
  | .unit lead :: .unit trail :: rest =>
    if 0xD800 ≤ lead ∧ lead < 0xDC00 then
      if 0xDC00 ≤ trail ∧ trail < 0xE000 then (joinParts rest).map (pairChar lead trail :: ·)
      else none
    else if 0xDC00 ≤ lead ∧ lead < 0xE000 then none
    else (joinParts (.unit trail :: rest)).map (Char.ofNat lead :: ·)
  | .unit code :: rest =>
    if 0xD800 ≤ code ∧ code < 0xE000 then none
    else (joinParts rest).map (Char.ofNat code :: ·)

/-- Reads the rest of a string after its opening quote: the text, if it denotes
one, and what follows the closing quote. -/
def readText (chars : List Char) : Option (Option String × List Char) :=
  (readParts chars).map fun (parts, rest) => ((joinParts parts).map String.ofList, rest)

/-- A number is an integer if it is whole and within the words; every other one,
minus zero too, denotes a double or nothing. -/
def numberValue (negative : Bool) (whole fraction : List Char) (exponent : Option Int) : Json :=
  let digits := Decimal.digitsValue whole
  let value : Int := if negative then -(digits : Int) else digits
  let isWhole := fraction.isEmpty && exponent.isNone && !(negative && digits == 0)
  if isWhole && (inSignedRange value || inUnsignedRange value) then .integer value
  else
    let scaled := Decimal.Scaled.ofDigits whole fraction
    match Decimal.Scaled.toFloat? ⟨scaled.word, scaled.exponent + exponent.getD 0⟩ with
    | some magnitude => .decimal (if negative then -magnitude else magnitude)
    | none => .unreadable

def readExponent (chars : List Char) : Option (Option Int × List Char) :=
  match chars with
  | mark :: rest =>
    if mark == 'e' || mark == 'E' then
      let (negative, digits) := Decimal.splitSign rest
      let (digits, rest) := Decimal.spanDigits digits
      if digits.isEmpty then none
      else
        let value : Int := Decimal.digitsValue digits
        some (some (if negative then -value else value), rest)
    else some (none, chars)
  | [] => some (none, [])

def readFraction (chars : List Char) : Option (List Char × List Char) :=
  match chars with
  | '.' :: rest =>
    let (digits, rest) := Decimal.spanDigits rest
    if digits.isEmpty then none else some (digits, rest)
  | _ => some ([], chars)

def readNumber (chars : List Char) : Option (Json × List Char) :=
  let (negative, chars) :=
    match chars with
    | '-' :: rest => (true, rest)
    | _ => (false, chars)
  let (whole, rest) := Decimal.spanDigits chars
  if whole.isEmpty || (whole.head? == some '0' && 1 < whole.length) then none
  else
    match readFraction rest with
    | none => none
    | some (fraction, rest) =>
      match readExponent rest with
      | none => none
      | some (exponent, rest) => some (numberValue negative whole fraction exponent, rest)

def dropWord : List Char → List Char → Option (List Char)
  | [], chars => some chars
  | letter :: word, char :: chars => if letter = char then dropWord word chars else none
  | _ :: _, [] => none

/-- The object with these fields, or nothing if one of its keys denotes
nothing. -/
def objectOf (fields : List (Option String × Json)) : Json :=
  match fields.mapM fun field => field.1.map (·, field.2) with
  | some fields => .object fields
  | none => .unreadable

mutual

/-- Reads a value and returns what follows it.  `levels` is how many more
containers may be opened. -/
def readValue : Nat → Nat → List Char → Option (Json × List Char)
  | 0, _, _ => none
  | fuel + 1, levels, chars =>
    match skipSpace chars with
    | '"' :: rest =>
      (readText rest).map fun (text, rest) =>
        (match text with
          | some text => .string text
          | none => .unreadable, rest)
    | '[' :: rest =>
      (match skipSpace rest with
        | ']' :: rest => some ([], rest)
        | rest => readItems fuel (levels - 1) rest).map fun (items, rest) =>
          (if levels ≤ 1 then .unreadable else .array items, rest)
    | '\x7b' :: rest =>
      (match skipSpace rest with
        | '\x7d' :: rest => some ([], rest)
        | rest => readFields fuel (levels - 1) rest).map fun (fields, rest) =>
          (if levels ≤ 1 then .unreadable else objectOf fields, rest)
    | 't' :: rest => (dropWord ['r', 'u', 'e'] rest).map (.boolean true, ·)
    | 'f' :: rest => (dropWord ['a', 'l', 's', 'e'] rest).map (.boolean false, ·)
    | 'n' :: rest => (dropWord ['u', 'l', 'l'] rest).map (.null, ·)
    | chars => readNumber chars

def readItems : Nat → Nat → List Char → Option (List Json × List Char)
  | 0, _, _ => none
  | fuel + 1, levels, chars =>
    match readValue fuel levels chars with
    | none => none
    | some (item, rest) =>
      match skipSpace rest with
      | ',' :: rest => (readItems fuel levels rest).map fun (items, rest) => (item :: items, rest)
      | ']' :: rest => some ([item], rest)
      | _ => none

def readFields : Nat → Nat → List Char → Option (List (Option String × Json) × List Char)
  | 0, _, _ => none
  | fuel + 1, levels, chars =>
    match skipSpace chars with
    | '"' :: rest =>
      match readText rest with
      | none => none
      | some (key, rest) =>
        match skipSpace rest with
        | ':' :: rest =>
          match readValue fuel levels rest with
          | none => none
          | some (value, rest) =>
            match skipSpace rest with
            | ',' :: rest =>
              (readFields fuel levels rest).map fun (fields, rest) => ((key, value) :: fields, rest)
            | '\x7d' :: rest => some ([(key, value)], rest)
            | _ => none
        | _ => none
    | _ => none

end

/-- The number of containers that may stand inside one another, plus one. -/
def nestingLimit : Nat := 128

/-- Reads a whole text as one document.  Every step of the reader consumes a
character, so the length of the text bounds their number. -/
def read? (text : String) : Option Json :=
  let chars := text.toList
  match readValue (2 * chars.length + 2) nestingLimit chars with
  | some (value, rest) => if (skipSpace rest).isEmpty then some value else none
  | none => none

end DecisionCanvas.Json
