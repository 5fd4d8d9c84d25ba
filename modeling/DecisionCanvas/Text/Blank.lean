/-!
# Blank characters

Numbers, truth values and settings are read after the blanks around them are
dropped.  A blank is a character with the Unicode property White_Space, so the
no-break and ideographic spaces count, while the zero-width space and the byte
order mark do not.
-/

namespace DecisionCanvas.Text

/-- The characters with the property White_Space. -/
def isBlank (char : Char) : Bool :=
  let code := char.toNat
  (9 ≤ code && code ≤ 13) || code == 0x20 || code == 0x85 || code == 0xA0 ||
    code == 0x1680 || (0x2000 ≤ code && code ≤ 0x200A) || code == 0x2028 ||
    code == 0x2029 || code == 0x202F || code == 0x205F || code == 0x3000

/-- Drops the blanks before the first and after the last other character. -/
def trimChars (chars : List Char) : List Char :=
  ((chars.dropWhile isBlank).reverse.dropWhile isBlank).reverse

def trim (text : String) : String :=
  String.ofList (trimChars text.toList)

/-- Equality up to the case of the letters A to Z. -/
def sameLetters (left right : List Char) : Bool :=
  left.map Char.toLower == right.map Char.toLower

end DecisionCanvas.Text
