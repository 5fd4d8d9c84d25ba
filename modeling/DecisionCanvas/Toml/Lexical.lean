import DecisionCanvas.Toml.Basic
import DecisionCanvas.Decimal.Numeral

/-!
# Words of settings documents

The words of a document are keys, texts in four kinds of quotes, numbers, truth
values, dates and times.  Every reader returns what it has read and what follows.
-/

namespace DecisionCanvas.Toml

/-- A result and what follows it. -/
abbrev Read (Result : Type) := Option (Result × List Char)

/-- Spaces and tabs. -/
def skipBlanks (chars : List Char) : List Char :=
  chars.dropWhile fun char => char == ' ' || char == '\t'

/-- Whether a character may stand in a comment or a text on one line. -/
def isPlain (char : Char) : Bool :=
  char == '\t' || (0x20 ≤ char.toNat && char.toNat != 0x7F)

def skipComment : List Char → List Char
  | '#' :: rest => rest.dropWhile isPlain
  | chars => chars

def dropLineEnd : List Char → Option (List Char)
  | '\n' :: rest => some rest
  | '\r' :: '\n' :: rest => some rest
  | _ => none

def digitIn? (base : Nat) (char : Char) : Option Nat :=
  let code := char.toNat
  let value :=
    if 48 ≤ code ∧ code ≤ 57 then code - 48
    else if 97 ≤ code ∧ code ≤ 102 then code - 87
    else if 65 ≤ code ∧ code ≤ 70 then code - 55
    else base
  if value < base then some value else none

def digitsIn (base : Nat) (digits : List Char) : Option Nat :=
  digits.foldlM (fun value digit => (digitIn? base digit).map (base * value + ·)) 0

/-! ## Texts -/

/-- The character that an escape by number stands for. -/
def numbered (digits : List Char) : Option Char :=
  match digitsIn 16 digits with
  | some code => if code.isValidChar then some (Char.ofNat code) else none
  | none => none

def escapeLetter? : Char → Option Char
  | 'b' => some '\x08'
  | 't' => some '\t'
  | 'n' => some '\n'
  | 'f' => some '\x0c'
  | 'r' => some '\r'
  | '"' => some '"'
  | '\\' => some '\\'
  | _ => none

def readEscape : List Char → Read Char
  | 'u' :: rest =>
    if rest.length < 4 then none else (numbered (rest.take 4)).map (·, rest.drop 4)
  | 'U' :: rest =>
    if rest.length < 8 then none else (numbered (rest.take 8)).map (·, rest.drop 8)
  | letter :: rest => (escapeLetter? letter).map (·, rest)
  | [] => none

def readBasic : Nat → List Char → Read (List Char)
  | 0, _ => none
  | fuel + 1, chars =>
    match chars with
    | '"' :: rest => some ([], rest)
    | '\\' :: rest =>
      match readEscape rest with
      | some (char, rest) => (readBasic fuel rest).map fun (text, rest) => (char :: text, rest)
      | none => none
    | char :: rest =>
      if isPlain char then (readBasic fuel rest).map fun (text, rest) => (char :: text, rest)
      else none
    | [] => none

def readLiteral : List Char → Read (List Char)
  | '\'' :: rest => some ([], rest)
  | char :: rest =>
    if isPlain char then (readLiteral rest).map fun (text, rest) => (char :: text, rest)
    else none
  | [] => none

/-- Ends a text over several lines: up to two more quotes belong to it. -/
def closeQuotes (quote : Char) (chars : List Char) : Read (List Char) :=
  let quotes := (chars.takeWhile (· == quote)).length
  if quotes ≤ 2 then some (List.replicate quotes quote, chars.drop quotes) else none

/-- Drops blanks and line ends after a backslash that ends a line. -/
def skipLineBreaks : List Char → List Char
  | ' ' :: rest => skipLineBreaks rest
  | '\t' :: rest => skipLineBreaks rest
  | '\n' :: rest => skipLineBreaks rest
  | '\r' :: '\n' :: rest => skipLineBreaks rest
  | chars => chars

/-- Reads the rest of a text between triple double quotes. -/
def readLongBasic : Nat → List Char → Read (List Char)
  | 0, _ => none
  | fuel + 1, chars =>
    match chars with
    | '"' :: '"' :: '"' :: rest => closeQuotes '"' rest
    | '\\' :: rest =>
      match dropLineEnd (skipBlanks rest) with
      | some rest => readLongBasic fuel (skipLineBreaks rest)
      | none =>
        match readEscape rest with
        | some (char, rest) =>
          (readLongBasic fuel rest).map fun (text, rest) => (char :: text, rest)
        | none => none
    | '\r' :: '\n' :: rest =>
      (readLongBasic fuel rest).map fun (text, rest) => ('\n' :: text, rest)
    | '\n' :: rest => (readLongBasic fuel rest).map fun (text, rest) => ('\n' :: text, rest)
    | char :: rest =>
      if isPlain char then (readLongBasic fuel rest).map fun (text, rest) => (char :: text, rest)
      else none
    | [] => none

/-- Reads the rest of a text between triple single quotes. -/
def readLongLiteral : Nat → List Char → Read (List Char)
  | 0, _ => none
  | fuel + 1, chars =>
    match chars with
    | '\'' :: '\'' :: '\'' :: rest => closeQuotes '\'' rest
    | '\r' :: '\n' :: rest =>
      (readLongLiteral fuel rest).map fun (text, rest) => ('\n' :: text, rest)
    | '\n' :: rest => (readLongLiteral fuel rest).map fun (text, rest) => ('\n' :: text, rest)
    | char :: rest =>
      if isPlain char then (readLongLiteral fuel rest).map fun (text, rest) => (char :: text, rest)
      else none
    | [] => none

/-- A line end right after the opening quotes does not belong to the text. -/
def dropFirstLineEnd (chars : List Char) : List Char :=
  (dropLineEnd chars).getD chars

def readText (chars : List Char) : Read String :=
  let fuel := chars.length + 1
  let result :=
    match chars with
    | '"' :: '"' :: '"' :: rest => readLongBasic fuel (dropFirstLineEnd rest)
    | '\'' :: '\'' :: '\'' :: rest => readLongLiteral fuel (dropFirstLineEnd rest)
    | '"' :: rest => readBasic fuel rest
    | '\'' :: rest => readLiteral rest
    | _ => none
  result.map fun (text, rest) => (String.ofList text, rest)

/-! ## Keys -/

/-- The characters of keys without quotes. -/
def isBare (char : Char) : Bool :=
  char.isAlphanum || char == '_' || char == '-'

def readKeyPart (chars : List Char) : Read String :=
  match chars with
  | '"' :: rest =>
    (readBasic (rest.length + 1) rest).map fun (text, rest) => (String.ofList text, rest)
  | '\'' :: rest => (readLiteral rest).map fun (text, rest) => (String.ofList text, rest)
  | _ =>
    let part := chars.takeWhile isBare
    if part.isEmpty then none else some (String.ofList part, chars.dropWhile isBare)

/-- Reads the parts of a key, with blanks around the points between them. -/
def readKeyParts : Nat → List Char → Read (List String)
  | 0, _ => none
  | fuel + 1, chars =>
    match readKeyPart (skipBlanks chars) with
    | none => none
    | some (part, rest) =>
      match skipBlanks rest with
      | '.' :: rest => (readKeyParts fuel rest).map fun (parts, rest) => (part :: parts, rest)
      | rest => some ([part], rest)

/-- The number of parts of a key and of containers inside one another, plus
one. -/
def nestingLimit : Nat := 80

def readKey (chars : List Char) : Read Key :=
  match readKeyParts (chars.length + 1) chars with
  | some (parts, rest) =>
    if parts.length < nestingLimit then
      parts.getLast?.map fun last => (⟨parts.dropLast, last⟩, rest)
    else none
  | none => none

/-! ## Numbers, dates and times -/

/-- The digits of a row in which single underscores may stand between digits. -/
def stripUnderscores (isDigit : Char → Bool) : List Char → Option (List Char)
  | [] => none
  | [char] => if isDigit char then some [char] else none
  | char :: '_' :: rest =>
    if isDigit char then (stripUnderscores isDigit rest).map (char :: ·) else none
  | char :: rest => if isDigit char then (stripUnderscores isDigit rest).map (char :: ·) else none

/-- The range of whole numbers. -/
def inRange (value : Int) : Bool :=
  -(Nat.pow 2 63 : Int) ≤ value && value < Nat.pow 2 63

/-- A whole number in a base that is named in front. -/
def basedInteger (base : Nat) (digits : List Char) : Option Value := do
  let digits ← stripUnderscores (fun char => (digitIn? base char).isSome) digits
  let value ← digitsIn base digits
  if inRange value then some (.integer value) else none

/-- The digits before a point or exponent, without leading zeros. -/
def wholeDigits (chars : List Char) : Option (List Char) := do
  let digits ← stripUnderscores Char.isDigit chars
  if 1 < digits.length && digits.head? == some '0' then none else some digits

def exponentValue (chars : List Char) : Option Int := do
  let (negative, digits) := Decimal.splitSign chars
  let digits ← stripUnderscores Char.isDigit digits
  let value : Int := Decimal.digitsValue digits
  return if negative then -value else value

/-- A number with a point or an exponent; one beyond every double is refused,
unless it is negative. -/
def floatValue (negative : Bool) (whole fraction : List Char) (exponent : Int) : Option Value :=
  let number :=
    Decimal.nearest negative (Decimal.digitsValue (whole ++ fraction)) (exponent - fraction.length)
  if number == 1 / 0 then none else some (.float number)

/-- A number in base ten after its sign. -/
def decimalNumber (negative : Bool) (chars : List Char) : Option Value :=
  let isMark := fun char => char == 'e' || char == 'E'
  let mantissa := chars.takeWhile fun char => !isMark char
  let whole := mantissa.takeWhile (· != '.')
  match mantissa.dropWhile (· != '.'), chars.dropWhile fun char => !isMark char with
  | [], [] => do
    let digits ← wholeDigits whole
    let value : Int := Decimal.digitsValue digits
    let value := if negative then -value else value
    if inRange value then some (.integer value) else none
  | [], _ :: exponent => do
    floatValue negative (← wholeDigits whole) [] (← exponentValue exponent)
  | _ :: fraction, [] => do
    floatValue negative (← wholeDigits whole) (← stripUnderscores Char.isDigit fraction) 0
  | _ :: fraction, _ :: exponent => do
    floatValue negative (← wholeDigits whole) (← stripUnderscores Char.isDigit fraction)
      (← exponentValue exponent)

def numberValue (word : List Char) : Option Value :=
  match word with
  | '0' :: 'x' :: digits => basedInteger 16 digits
  | '0' :: 'o' :: digits => basedInteger 8 digits
  | '0' :: 'b' :: digits => basedInteger 2 digits
  | _ =>
    let (negative, rest) := Decimal.splitSign word
    if rest = ['i', 'n', 'f'] then some (.float (if negative then -(1 / 0) else 1 / 0))
    else if rest = ['n', 'a', 'n'] then some (.float (0 / 0))
    else decimalNumber negative rest

/-- A number of just so many digits in a range. -/
def fixedDigits (count low high : Nat) (chars : List Char) : Option (Nat × List Char) :=
  let digits := chars.take count
  let value := Decimal.digitsValue digits
  if digits.length = count && digits.all Char.isDigit && low ≤ value && value ≤ high then
    some (value, chars.drop count)
  else none

def daysIn (year month : Nat) : Nat :=
  if month = 2 then
    if year % 4 = 0 && (year % 100 != 0 || year % 400 = 0) then 29 else 28
  else if month = 4 || month = 6 || month = 9 || month = 11 then 30
  else 31

def dropDate (chars : List Char) : Option (List Char) := do
  let (year, rest) ← fixedDigits 4 0 9999 chars
  let rest ← if rest.head? = some '-' then some (rest.drop 1) else none
  let (month, rest) ← fixedDigits 2 1 12 rest
  let rest ← if rest.head? = some '-' then some (rest.drop 1) else none
  let (_, rest) ← fixedDigits 2 1 (daysIn year month) rest
  return rest

def dropFraction (chars : List Char) : Option (List Char) :=
  match chars with
  | '.' :: rest =>
    if (rest.head?.map Char.isDigit).getD false then some (rest.dropWhile Char.isDigit) else none
  | _ => some chars

def dropTime (chars : List Char) : Option (List Char) := do
  let (_, rest) ← fixedDigits 2 0 23 chars
  let rest ← if rest.head? = some ':' then some (rest.drop 1) else none
  let (_, rest) ← fixedDigits 2 0 59 rest
  let rest ← if rest.head? = some ':' then some (rest.drop 1) else none
  let (_, rest) ← fixedDigits 2 0 60 rest
  dropFraction rest

/-- Whether a text is nothing or an offset from universal time. -/
def isOffset (chars : List Char) : Bool :=
  match chars with
  | [] => true
  | ['Z'] => true
  | ['z'] => true
  | sign :: rest =>
    (sign == '+' || sign == '-') &&
      match fixedDigits 2 0 23 rest with
      | some (_, ':' :: rest) => (fixedDigits 2 0 59 rest).any fun minutes => minutes.2.isEmpty
      | _ => false

/-- Whether a word is a date, a time or both; only both may have an offset. -/
def isMoment (word : List Char) : Bool :=
  match dropDate word with
  | some [] => true
  | some (mark :: rest) =>
    (mark == 'T' || mark == 't' || mark == ' ') && (dropTime rest).any isOffset
  | none => (dropTime word).any List.isEmpty

/-- The characters of numbers, truth values, dates and times. -/
def isWordChar (char : Char) : Bool :=
  isBare char || char == '+' || char == '.' || char == ':'

/-- Reads a word that is not quoted.  A time may follow its date after a blank. -/
def readWord (chars : List Char) : Read Value :=
  let word := chars.takeWhile isWordChar
  let rest := chars.dropWhile isWordChar
  let joined :=
    match rest with
    | ' ' :: more => word ++ ' ' :: more.takeWhile isWordChar
    | _ => word
  if word = ['t', 'r', 'u', 'e'] then some (.boolean true, rest)
  else if word = ['f', 'a', 'l', 's', 'e'] then some (.boolean false, rest)
  else if joined.length ≠ word.length ∧ (dropDate word).any List.isEmpty ∧ isMoment joined then
    some (.moment, chars.drop joined.length)
  else if isMoment word then some (.moment, rest)
  else (numberValue word).map (·, rest)

end DecisionCanvas.Toml
