import DecisionCanvas.Json.Basic
import DecisionCanvas.Decimal.Style

/-!
# Writing documents

Documents are written with one item or field a line, two spaces of indent a
level, and every character above the controls as itself.
-/

namespace DecisionCanvas.Json

/-- A digit of base sixteen, lower case. -/
def hexDigit (value : Nat) : Char :=
  Nat.digitChar value

def writtenChar (char : Char) : List Char :=
  match char with
  | '"' => ['\\', '"']
  | '\\' => ['\\', '\\']
  | '\x08' => ['\\', 'b']
  | '\x0c' => ['\\', 'f']
  | '\n' => ['\\', 'n']
  | '\r' => ['\\', 'r']
  | '\t' => ['\\', 't']
  | _ =>
    if char.toNat < 0x20 then
      ['\\', 'u', '0', '0', hexDigit (char.toNat / 16), hexDigit (char.toNat % 16)]
    else [char]

def writtenText (text : String) : List Char :=
  '"' :: text.toList.flatMap writtenChar ++ ['"']

def newLine (level : Nat) : List Char :=
  '\n' :: List.replicate (2 * level) ' '

def writtenInteger (value : Int) : List Char :=
  if value < 0 then '-' :: Nat.toDigits 10 value.natAbs else Nat.toDigits 10 value.natAbs

mutual

/-- The text of a document at a level of indent. -/
def written (level : Nat) : Json → List Char
  | .null => ['n', 'u', 'l', 'l']
  | .boolean true => ['t', 'r', 'u', 'e']
  | .boolean false => ['f', 'a', 'l', 's', 'e']
  | .integer value => writtenInteger value
  | .decimal value =>
    if value.isFinite then Decimal.Style.document.text value else ['n', 'u', 'l', 'l']
  | .string value => writtenText value
  | .array [] => ['[', ']']
  | .array (first :: rest) =>
    '[' :: newLine (level + 1) ++ written (level + 1) first ++
      writtenItems (level + 1) rest ++ newLine level ++ [']']
  | .object [] => ['\x7b', '\x7d']
  | .object ((key, value) :: rest) =>
    '\x7b' :: newLine (level + 1) ++ writtenText key ++ ':' :: ' ' ::
      written (level + 1) value ++ writtenFields (level + 1) rest ++ newLine level ++ ['\x7d']
  | .unreadable => ['n', 'u', 'l', 'l']

def writtenItems (level : Nat) : List Json → List Char
  | [] => []
  | item :: rest => ',' :: newLine level ++ written level item ++ writtenItems level rest

def writtenFields (level : Nat) : List (String × Json) → List Char
  | [] => []
  | (key, value) :: rest =>
    ',' :: newLine level ++ writtenText key ++ ':' :: ' ' :: written level value ++
      writtenFields level rest

end

def text (document : Json) : String :=
  String.ofList (written 0 document)

end DecisionCanvas.Json
