/-!
# UUIDs

A UUID is a row of thirty-two hexadecimal digits.  It is written in lower case
with hyphens, and read in four forms: hyphenated, bare, hyphenated in braces, and
hyphenated after `urn:uuid:`.
-/

namespace DecisionCanvas

/-- Thirty-two hexadecimal digits, first digit first. -/
structure Uuid where
  digits : List (Fin 16)
  length_digits : digits.length = 32
  deriving DecidableEq

namespace Uuid

def hexDigit? (char : Char) : Option (Fin 16) :=
  let code := char.toNat
  if 48 ≤ code ∧ code ≤ 57 then some (Fin.ofNat 16 (code - 48))
  else if 97 ≤ code ∧ code ≤ 102 then some (Fin.ofNat 16 (code - 87))
  else if 65 ≤ code ∧ code ≤ 70 then some (Fin.ofNat 16 (code - 55))
  else none

def hexChar (digit : Fin 16) : Char :=
  if digit.val < 10 then Char.ofNat (48 + digit.val) else Char.ofNat (87 + digit.val)

def ofDigits? (digits : List (Fin 16)) : Option Uuid :=
  if length_digits : digits.length = 32 then some ⟨digits, length_digits⟩ else none

def readBare (chars : List Char) : Option Uuid :=
  (chars.mapM hexDigit?).bind ofDigits?

/-- Drops the hyphens between groups of 8, 4, 4, 4 and 12 characters. -/
def dropHyphens (chars : List Char) : Option (List Char) :=
  let hyphens := [8, 13, 18, 23]
  if chars.length = 36 ∧ hyphens.all (fun place => chars[place]? == some '-') then
    some (chars.take 8 ++ (chars.drop 9).take 4 ++ (chars.drop 14).take 4 ++
      (chars.drop 19).take 4 ++ chars.drop 24)
  else none

/-- Reads digits with hyphens between the groups. -/
def readHyphenated (chars : List Char) : Option Uuid :=
  (dropHyphens chars).bind readBare

def hasUrnHead (chars : List Char) : Bool :=
  (chars.take 9).map Char.toLower == "urn:uuid:".toList

/-- Reads a UUID in any of its four forms; the length tells which one. -/
def ofText? (text : String) : Option Uuid :=
  let chars := text.toList
  if chars.length = 32 then readBare chars
  else if chars.length = 36 then readHyphenated chars
  else if chars.length = 38 ∧ chars.head? = some '\x7b' ∧ chars.getLast? = some '\x7d' then
    readHyphenated (chars.drop 1).dropLast
  else if chars.length = 45 ∧ hasUrnHead chars then readHyphenated (chars.drop 9)
  else none

/-- The hyphenated form in lower case. -/
def text (id : Uuid) : String :=
  let chars := id.digits.map hexChar
  String.ofList (chars.take 8 ++ '-' :: (chars.drop 8).take 4 ++ '-' :: (chars.drop 12).take 4 ++
    '-' :: (chars.drop 16).take 4 ++ '-' :: chars.drop 20)

end Uuid

end DecisionCanvas
