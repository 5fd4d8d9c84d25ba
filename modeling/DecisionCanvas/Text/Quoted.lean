import DecisionCanvas.Text.Printable

/-!
# Quoted text

Messages show a text that was not understood between double quotes.  The quote,
the backslash and the usual controls have short escapes, and every other
character that would not stand visibly on its own is shown by its number.
-/

namespace DecisionCanvas.Text

/-- The digits of a number in base sixteen, lower case. -/
def hexText (number : Nat) : List Char :=
  Nat.toDigits 16 number

/-- How one character stands inside quoted text. -/
def quotedChar (char : Char) : List Char :=
  match char with
  | '"' => ['\\', '"']
  | '\\' => ['\\', '\\']
  | '\n' => ['\\', 'n']
  | '\r' => ['\\', 'r']
  | '\t' => ['\\', 't']
  | '\x00' => ['\\', '0']
  | _ =>
    if isPrintable char && !extendsGrapheme char then [char]
    else ['\\', 'u', '\x7b'] ++ hexText char.toNat ++ ['\x7d']

/-- The text between double quotes, with everything unclear escaped. -/
def quoted (text : String) : String :=
  String.ofList ('"' :: text.toList.flatMap quotedChar ++ ['"'])

end DecisionCanvas.Text
