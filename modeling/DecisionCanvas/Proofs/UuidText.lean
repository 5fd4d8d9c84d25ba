import DecisionCanvas.Uuid

/-!
# The text of a UUID

Of the four forms in which a UUID is read, one is the form in which it is written, so
every UUID can be recovered from its text.
-/

namespace DecisionCanvas.Uuid

theorem hexDigit?_hexChar : ∀ digit : Fin 16, hexDigit? (hexChar digit) = some digit := by
  decide

theorem mapM_hexDigit? (digits : List (Fin 16)) :
    (digits.map hexChar).mapM hexDigit? = some digits := by
  induction digits with
  | nil => rfl
  | cons digit rest ih =>
      rw [List.map_cons, List.mapM_cons, hexDigit?_hexChar, ih]
      rfl

theorem readBare_digits (id : Uuid) : readBare (id.digits.map hexChar) = some id := by
  rw [readBare, mapM_hexDigit?, Option.bind_some, ofDigits?, dif_pos id.length_digits]

/-- The characters with hyphens between groups of 8, 4, 4, 4 and 12. -/
def hyphenate (chars : List Char) : List Char :=
  chars.take 8 ++ '-' :: (chars.drop 8).take 4 ++ '-' :: (chars.drop 12).take 4 ++
    '-' :: (chars.drop 16).take 4 ++ '-' :: chars.drop 20

theorem length_hyphenate {chars : List Char} (hlength : chars.length = 32) :
    (hyphenate chars).length = 36 := by
  simp [hyphenate, hlength]

/-- Groups of the right lengths come back without the hyphens between them. -/
theorem dropHyphens_groups (first second third fourth fifth : List Char)
    (hfirst : first.length = 8) (hsecond : second.length = 4) (hthird : third.length = 4)
    (hfourth : fourth.length = 4) (hfifth : fifth.length = 12) :
    dropHyphens (first ++ '-' :: second ++ '-' :: third ++ '-' :: fourth ++ '-' :: fifth) =
      some (first ++ second ++ third ++ fourth ++ fifth) := by
  simp [dropHyphens, List.getElem?_append, List.drop_append, List.drop_of_length_le, hfirst,
    hsecond, hthird, hfourth, hfifth]

theorem dropHyphens_hyphenate {chars : List Char} (hlength : chars.length = 32) :
    dropHyphens (hyphenate chars) = some chars := by
  have hjoined : chars.take 8 ++ (chars.drop 8).take 4 ++ (chars.drop 12).take 4 ++
      (chars.drop 16).take 4 ++ chars.drop 20 = chars := by
    rw [← List.take_add, ← List.take_add, ← List.take_add, List.take_append_drop]
  rw [hyphenate, dropHyphens_groups, hjoined]
  all_goals simp [hlength]

/-- Reading recovers a UUID from its text. -/
theorem ofText?_text (id : Uuid) : ofText? id.text = some id := by
  have hlength : (id.digits.map hexChar).length = 32 := by
    rw [List.length_map, id.length_digits]
  have htext : id.text.toList = hyphenate (id.digits.map hexChar) := by
    rw [text, String.toList_ofList, hyphenate]
  simp only [ofText?, htext, length_hyphenate hlength]
  rw [if_neg (by decide), if_pos trivial, readHyphenated, dropHyphens_hyphenate hlength,
    Option.bind_some, readBare_digits]

end DecisionCanvas.Uuid
