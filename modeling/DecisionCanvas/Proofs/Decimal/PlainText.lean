import DecisionCanvas.Compiled.Rebuild
import DecisionCanvas.Compiled.Flatten
import Mathlib.Data.List.TakeWhile
import Mathlib.Tactic.Tauto

/-!
# Numbers written out

The text of a number holds no blanks, so it may stand for a literal as it is.  It then is
a literal of the number it was written from, if that number can be read from it at all.
Some number can always be read from it, so it also stands for a truth value.
-/

namespace DecisionCanvas

/-- Nothing is dropped where no character is blank. -/
theorem Text.trimChars_eq_self {chars : List Char}
    (hchars : ∀ char ∈ chars, isBlank char = false) : trimChars chars = chars := by
  have hkeep : ∀ list : List Char, (∀ char ∈ list, isBlank char = false) →
      list.dropWhile isBlank = list := by
    intro list hlist
    cases list with
    | nil => rfl
    | cons first rest => rw [List.dropWhile_cons_of_neg (by simp [hlist first])]
  rw [trimChars, hkeep chars hchars, hkeep chars.reverse, List.reverse_reverse]
  intro char hchar
  exact hchars char (List.mem_reverse.mp hchar)

namespace Decimal

theorem not_isBlank_of_isDigit {char : Char} (hdigit : char.isDigit = true) :
    Text.isBlank char = false := by
  have hrange : 48 ≤ char.toNat ∧ char.toNat ≤ 57 := Char.isDigit_iff_toNat.mp hdigit
  have hcode (code : Nat) (hcode : code < 48 ∨ 57 < code) : char.toNat ≠ code := by omega
  simp [Text.isBlank, hcode]
  omega

/-- Digits in places are digits, zeros and a point. -/
theorem mem_positional {digits : List Char} {point : Int} {char : Char}
    (hchar : char ∈ positional [] digits point) :
    char = '0' ∨ char = '.' ∨ char ∈ digits := by
  rw [positional] at hchar
  split at hchar
  · simp only [List.cons_append, List.mem_cons, List.mem_append, List.mem_replicate] at hchar
    tauto
  · split at hchar
    · simp only [List.append_nil, List.mem_append, List.mem_replicate] at hchar
      tauto
    · rw [List.mem_append, List.mem_cons] at hchar
      obtain hfront | hpoint | hback := hchar
      · exact Or.inr (Or.inr (List.mem_of_mem_take hfront))
      · exact Or.inr (Or.inl hpoint)
      · exact Or.inr (Or.inr (List.mem_of_mem_drop hback))

theorem not_isBlank_of_mem_magnitude {number : Digits} {char : Char}
    (hchar : char ∈ Style.plain.magnitude number) : Text.isBlank char = false := by
  rw [Style.magnitude] at hchar
  split at hchar
  · rw [List.mem_singleton.mp hchar]
    decide
  · simp only [Style.plain, if_true] at hchar
    obtain rfl | rfl | hdigit := mem_positional hchar
    · decide
    · decide
    · exact not_isBlank_of_isDigit (Nat.isDigit_of_mem_toDigits (by decide) (by decide) hdigit)

theorem not_isBlank_of_mem_text {number : Float} {char : Char}
    (hchar : char ∈ Style.plain.text number) : Text.isBlank char = false := by
  have hsign : ∀ char ∈ (if number.toBits.toNat / Nat.pow 2 63 = 1 then ['-'] else []),
      Text.isBlank char = false := by
    split <;> simp [Text.isBlank]
  have hwords : ∀ char ∈ ['N', 'a', 'N'] ++ ['i', 'n', 'f'], Text.isBlank char = false := by
    simp [Text.isBlank]
  rw [Style.text] at hchar
  split at hchar
  · exact hwords char (List.mem_append_left _ hchar)
  · simp only at hchar
    split at hchar
    · cases List.mem_append.mp hchar with
      | inl hchar => exact hsign char hchar
      | inr hchar => exact hwords char (List.mem_append_right _ hchar)
    · cases List.mem_append.mp hchar with
      | inl hchar => exact hsign char hchar
      | inr hchar => exact not_isBlank_of_mem_magnitude hchar

theorem trimChars_plainText (number : Float) :
    Text.trimChars (plainText number).toList = Style.plain.text number := by
  rw [plainText, String.toList_ofList]
  exact Text.trimChars_eq_self fun char => not_isBlank_of_mem_text

/-- Whether a number is read from the text it is written as. -/
def ReadsBack (number : Float) : Prop :=
  readNumeral (Style.plain.text number) = some number

instance (number : Float) : Decidable (ReadsBack number) :=
  inferInstanceAs (Decidable (readNumeral (Style.plain.text number) = some number))

/-! ## Texts of numbers are numerals -/

/-- Digits, at least one, and maybe a point with digits behind it. -/
inductive InPlaces : List Char → Prop where
  | whole (digits : List Char) (hdigits : ∀ char ∈ digits, char.isDigit = true)
    (hnonempty : digits ≠ []) : InPlaces digits
  | point (digits fraction : List Char) (hdigits : ∀ char ∈ digits, char.isDigit = true)
    (hnonempty : digits ≠ []) (hfraction : ∀ char ∈ fraction, char.isDigit = true) :
    InPlaces (digits ++ '.' :: fraction)

theorem isDigit_of_mem_toDigits {number : Nat} {char : Char}
    (hchar : char ∈ Nat.toDigits 10 number) : char.isDigit = true :=
  Nat.isDigit_of_mem_toDigits (by decide) (by decide) hchar

theorem isDigit_of_mem_zeros {count : Nat} {char : Char}
    (hchar : char ∈ List.replicate count '0') : char.isDigit = true := by
  rw [List.eq_of_mem_replicate hchar]
  decide

theorem inPlaces_positional {digits : List Char} (point : Int)
    (hdigits : ∀ char ∈ digits, char.isDigit = true) (hnonempty : digits ≠ []) :
    InPlaces (positional [] digits point) := by
  rw [positional]
  split
  · refine .point (List.replicate 1 '0') _ (fun char => isDigit_of_mem_zeros) (by simp) ?_
    exact List.forall_mem_append.mpr ⟨fun char => isDigit_of_mem_zeros, hdigits⟩
  · split
    · rw [List.append_nil]
      refine .whole _
        (List.forall_mem_append.mpr ⟨hdigits, fun char => isDigit_of_mem_zeros⟩) ?_
      exact List.append_ne_nil_of_left_ne_nil hnonempty _
    · rename_i hpoint hshort
      refine .point _ _ (fun char hchar => hdigits char (List.mem_of_mem_take hchar)) ?_
        fun char hchar => hdigits char (List.mem_of_mem_drop hchar)
      rw [Ne, List.take_eq_nil_iff, not_or]
      exact ⟨by omega, hnonempty⟩

theorem inPlaces_magnitude (number : Digits) : InPlaces (Style.plain.magnitude number) := by
  rw [Style.magnitude]
  split
  · exact .whole (List.replicate 1 '0') (fun char => isDigit_of_mem_zeros) (by simp)
  · exact inPlaces_positional _ (fun char => isDigit_of_mem_toDigits) Nat.toDigits_ne_nil

theorem spanDigits_digits {digits : List Char}
    (hdigits : ∀ char ∈ digits, char.isDigit = true) : spanDigits digits = (digits, []) := by
  rw [spanDigits, List.takeWhile_eq_self_iff.mpr hdigits, List.dropWhile_eq_nil_iff.mpr hdigits]

theorem spanDigits_point {digits : List Char} (fraction : List Char)
    (hdigits : ∀ char ∈ digits, char.isDigit = true) :
    spanDigits (digits ++ '.' :: fraction) = (digits, '.' :: fraction) := by
  have hpoint : '.'.isDigit = false := by decide
  rw [spanDigits, List.takeWhile_append_of_pos hdigits, List.dropWhile_append_of_pos hdigits,
    List.takeWhile_cons_of_neg (by simp [hpoint]), List.dropWhile_cons_of_neg (by simp [hpoint]),
    List.append_nil]

theorem isSome_unsignedNumeral (negative : Bool) {chars : List Char} (hchars : InPlaces chars) :
    (unsignedNumeral negative chars).isSome := by
  cases hchars with
  | whole digits hdigits hnonempty =>
      simp [unsignedNumeral, spanDigits_digits hdigits, hnonempty, exponentPart]
  | point digits fraction hdigits hnonempty hfraction =>
      simp [unsignedNumeral, spanDigits_point fraction hdigits, spanDigits_digits hfraction,
        hnonempty, exponentPart]

/-- Only an unsigned numeral that cannot be read keeps a numeral from being read. -/
theorem isSome_readNumeral {chars : List Char}
    (hunsigned : (unsignedNumeral (splitSign chars).1 (splitSign chars).2).isSome) :
    (readNumeral chars).isSome := by
  rw [readNumeral]
  simp only
  split
  · rfl
  · split
    · rfl
    · exact hunsigned

theorem splitSign_of_isDigit {first : Char} (hfirst : first.isDigit = true)
    (rest : List Char) : splitSign (first :: rest) = (false, first :: rest) := by
  rw [splitSign]
  · intro _ hsame
    rw [(List.cons.inj hsame).1] at hfirst
    exact absurd hfirst (by decide)
  · intro _ hsame
    rw [(List.cons.inj hsame).1] at hfirst
    exact absurd hfirst (by decide)

theorem splitSign_inPlaces {chars : List Char} (hchars : InPlaces chars) :
    splitSign chars = (false, chars) := by
  cases hchars with
  | whole digits hdigits hnonempty =>
      obtain ⟨first, rest, rfl⟩ := List.exists_cons_of_ne_nil hnonempty
      exact splitSign_of_isDigit (hdigits first List.mem_cons_self) rest
  | point digits fraction hdigits hnonempty hfraction =>
      obtain ⟨first, rest, rfl⟩ := List.exists_cons_of_ne_nil hnonempty
      exact splitSign_of_isDigit (hdigits first List.mem_cons_self) (rest ++ '.' :: fraction)

/-- The text of any number is a numeral. -/
theorem isSome_readNumeral_text (number : Float) :
    (readNumeral (Style.plain.text number)).isSome := by
  have hmagnitude := inPlaces_magnitude (shortest Style.plain.tie number)
  rw [Style.text]
  split
  · rfl
  · by_cases hnegative : number.toBits.toNat / Nat.pow 2 63 = 1
    · simp only [hnegative, if_true]
      split
      · rfl
      · apply isSome_readNumeral
        exact isSome_unsignedNumeral true hmagnitude
    · simp only [hnegative, if_false]
      split
      · rfl
      · apply isSome_readNumeral
        rw [List.nil_append, splitSign_inPlaces hmagnitude]
        exact isSome_unsignedNumeral false hmagnitude

end Decimal

/-- A finite number is what its text stands for as a literal. -/
theorem literalNumber?_plainText {number : Float} (hfinite : number.isFinite = true)
    (hreads : Decimal.ReadsBack number) :
    literalNumber? (Decimal.plainText number) = some number := by
  rw [Decimal.ReadsBack] at hreads
  rw [literalNumber?, Decimal.trimChars_plainText]
  cases htext : Decimal.Style.plain.text number with
  | nil =>
      have hempty : Decimal.readNumeral [] = none := by decide
      rw [htext, hempty] at hreads
      exact absurd hreads (by simp)
  | cons first rest =>
      rw [htext] at hreads
      simp only [List.isEmpty_cons, Bool.false_eq_true, if_false, hreads]
      simp [Option.filter, hfinite]

/-- The text of any number stands for a truth value. -/
theorem Value.isSome_literalTruth?_plainText (number : Float) :
    (literalTruth? (Decimal.plainText number)).isSome := by
  rw [literalTruth?, Decimal.trimChars_plainText]
  split
  · rfl
  · split
    · rfl
    · rw [Option.isSome_map]
      exact Decimal.isSome_readNumeral_text number

end DecisionCanvas
