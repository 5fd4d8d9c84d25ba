import DecisionCanvas.Json.Reader
import DecisionCanvas.Json.Writer
import DecisionCanvas.Proofs.Decimal.PlainText
import Mathlib.Data.List.Basic
import Mathlib.Tactic.IntervalCases

/-!
# Reading written strings and numbers

A written string is read back character by character, whatever it contains, and a whole number
digit by digit.  Where a number ends is told by what follows it, so it is read the same before
anything that cannot go on with it.
-/

namespace DecisionCanvas.Json

/-! ## Strings -/

/-- Whether a part of a string stands for a character, whatever follows. -/
def TextPart.Denotes (part : TextPart) (char : Char) : Prop :=
  ∀ parts, joinParts (part :: parts) = (joinParts parts).map (char :: ·)

theorem denotes_plain (char : Char) : (TextPart.plain char).Denotes char := by
  intro parts
  rw [joinParts]

theorem denotes_unit {char : Char} (hcontrol : char.toNat < 0x20) :
    (TextPart.unit char.toNat).Denotes char := by
  intro parts
  have hlead : ¬(0xD800 ≤ char.toNat ∧ char.toNat < 0xDC00) := by omega
  have htrail : ¬(0xDC00 ≤ char.toNat ∧ char.toNat < 0xE000) := by omega
  have hsurrogate : ¬(0xD800 ≤ char.toNat ∧ char.toNat < 0xE000) := by omega
  cases parts with
  | nil => simp [joinParts, hsurrogate]
  | cons part rest =>
      cases part with
      | plain other => simp [joinParts, hsurrogate]
      | unit code => simp [joinParts, hlead, htrail]

theorem codeUnit?_hexDigits {code : Nat} (hcontrol : code < 0x20) :
    codeUnit? '0' '0' (hexDigit (code / 16)) (hexDigit (code % 16)) = some code := by
  decide +revert

section Parts

variable {char letter : Char} {rest after : List Char} {parts : List TextPart}

theorem readParts_escaped (hletter : shortEscape? letter = some char)
    (hrest : readParts rest = some (parts, after)) :
    readParts ('\\' :: letter :: rest) = some (.plain char :: parts, after) := by
  have hunit : letter ≠ 'u' := by
    rintro rfl
    cases hletter
  simp [readParts, hunit, hletter, hrest]

theorem readParts_control (hcontrol : char.toNat < 0x20)
    (hrest : readParts rest = some (parts, after)) :
    readParts ('\\' :: 'u' :: '0' :: '0' :: hexDigit (char.toNat / 16) ::
      hexDigit (char.toNat % 16) :: rest) = some (.unit char.toNat :: parts, after) := by
  simp [readParts, codeUnit?_hexDigits hcontrol, hrest]

theorem readParts_plain (hquote : char ≠ '"') (hescape : char ≠ '\\')
    (hcontrol : ¬char.toNat < 0x20) (hrest : readParts rest = some (parts, after)) :
    readParts (char :: rest) = some (.plain char :: parts, after) := by
  simp [readParts, hescape, hcontrol, hrest]

end Parts

/-- A written character is read as one part, which stands for it. -/
theorem readParts_writtenChar (char : Char) : ∃ part : TextPart, part.Denotes char ∧
    ∀ {rest parts after}, readParts rest = some (parts, after) →
      readParts (writtenChar char ++ rest) = some (part :: parts, after) := by
  rw [writtenChar.eq_def]
  split
  -- Seven characters have an escape of one letter.
  iterate 7 exact ⟨_, denotes_plain _, readParts_escaped rfl⟩
  · next hquote hescape _ _ _ _ _ =>
      split
      · next hcontrol => exact ⟨_, denotes_unit hcontrol, readParts_control hcontrol⟩
      · next hcontrol => exact ⟨_, denotes_plain _, readParts_plain hquote hescape hcontrol⟩

theorem readParts_writtenChars (chars rest : List Char) : ∃ parts,
    readParts (chars.flatMap writtenChar ++ '"' :: rest) = some (parts, rest) ∧
      joinParts parts = some chars := by
  induction chars with
  | nil => exact ⟨[], by simp [readParts], rfl⟩
  | cons char chars ih =>
      obtain ⟨parts, hread, hjoin⟩ := ih
      obtain ⟨part, hpart, hchar⟩ := readParts_writtenChar char
      refine ⟨part :: parts, ?_, ?_⟩
      · rw [List.flatMap_cons, List.append_assoc]
        exact hchar hread
      · rw [hpart, hjoin, Option.map_some]

/-- A written text begins with a quote, and what follows is read back as the text. -/
theorem readText_writtenText (text : String) (rest : List Char) : ∃ inner,
    writtenText text ++ rest = '"' :: inner ∧ readText inner = some (some text, rest) := by
  obtain ⟨parts, hread, hjoin⟩ := readParts_writtenChars text.toList rest
  refine ⟨text.toList.flatMap writtenChar ++ '"' :: rest, ?_, ?_⟩
  · simp [writtenText]
  · rw [readText, hread, Option.map_some]
    simp only [hjoin, Option.map_some, String.ofList_toList]

/-! ## Numbers -/

/-- Whether a number ends where this follows it. -/
def EndsNumber (rest : List Char) : Prop :=
  ∀ char ∈ rest.head?, char.isDigit = false ∧ char ≠ '.' ∧ char ≠ 'e' ∧ char ≠ 'E'

section Numbers

variable {chars rest : List Char}

theorem spanDigits_append (hrest : EndsNumber rest) :
    Decimal.spanDigits (chars ++ rest) =
      ((Decimal.spanDigits chars).1, (Decimal.spanDigits chars).2 ++ rest) := by
  induction chars with
  | nil =>
      cases rest with
      | nil => rfl
      | cons char rest =>
          have hchar : char.isDigit = false := (hrest char rfl).1
          simp [Decimal.spanDigits, hchar]
  | cons char chars ih =>
      simp only [Decimal.spanDigits, Prod.mk.injEq] at ih
      by_cases hchar : char.isDigit
      · simp [Decimal.spanDigits, hchar, ih.1, ih.2]
      · simp [Decimal.spanDigits, hchar]

theorem readFraction_append {fraction after : List Char} (hrest : EndsNumber rest)
    (hread : readFraction chars = some (fraction, after)) :
    readFraction (chars ++ rest) = some (fraction, after ++ rest) := by
  cases chars with
  | nil =>
      simp only [readFraction, Option.some.injEq, Prod.mk.injEq] at hread
      obtain ⟨rfl, rfl⟩ := hread
      cases rest with
      | nil => rfl
      | cons char rest =>
          have hchar := hrest char rfl
          simp [readFraction, hchar]
  | cons char chars =>
      by_cases hpoint : char = '.'
      · simp only [hpoint, List.cons_append, readFraction, spanDigits_append hrest] at hread ⊢
        split at hread
        · cases hread
        · next hdigits =>
            obtain ⟨rfl, rfl⟩ := Prod.mk.inj (Option.some.inj hread)
            rw [if_neg hdigits]
      · have hnone : ∀ chars, readFraction (char :: chars) = some ([], char :: chars) := by
          intro chars
          simp [readFraction, hpoint]
        rw [hnone] at hread
        obtain ⟨rfl, rfl⟩ := Prod.mk.inj (Option.some.inj hread)
        exact hnone (chars ++ rest)

theorem splitSign_append (hchars : chars ≠ []) :
    Decimal.splitSign (chars ++ rest) =
      ((Decimal.splitSign chars).1, (Decimal.splitSign chars).2 ++ rest) := by
  obtain ⟨char, chars, rfl⟩ := List.exists_cons_of_ne_nil hchars
  by_cases hminus : char = '-'
  · simp [hminus, Decimal.splitSign]
  · by_cases hplus : char = '+'
    · simp [hplus, Decimal.splitSign]
    · simp [hminus, hplus, Decimal.splitSign]

theorem readExponent_append {exponent : Option Int} {after : List Char}
    (hrest : EndsNumber rest) (hread : readExponent chars = some (exponent, after)) :
    readExponent (chars ++ rest) = some (exponent, after ++ rest) := by
  cases chars with
  | nil =>
      simp only [readExponent, Option.some.injEq, Prod.mk.injEq] at hread
      obtain ⟨rfl, rfl⟩ := hread
      cases rest with
      | nil => rfl
      | cons char rest =>
          have hchar := hrest char rfl
          simp [readExponent, hchar]
  | cons mark chars =>
      rw [readExponent] at hread
      rw [List.cons_append, readExponent]
      split at hread
      · next hmark =>
          have hsigned : chars ≠ [] := by
            rintro rfl
            simp [Decimal.splitSign, Decimal.spanDigits] at hread
          rw [if_pos hmark, splitSign_append hsigned]
          simp only [spanDigits_append hrest] at hread ⊢
          split at hread
          · cases hread
          · next hdigits =>
              obtain ⟨rfl, rfl⟩ := Prod.mk.inj (Option.some.inj hread)
              rw [if_neg hdigits]
      · next hmark =>
          obtain ⟨rfl, rfl⟩ := Prod.mk.inj (Option.some.inj hread)
          rw [if_neg hmark, List.cons_append]

/-- Whether digits may stand before a point: there are some, and no others behind a zero. -/
def IsWhole (digits : List Char) : Prop :=
  digits ≠ [] ∧ (digits.head? = some '0' → digits.length ≤ 1)

/-- Reads a number behind its sign, part by part. -/
def readUnsigned (negative : Bool) (chars : List Char) : Option (Json × List Char) :=
  let whole := (Decimal.spanDigits chars).1
  if whole.isEmpty || (whole.head? == some '0' && 1 < whole.length) then none
  else
    (readFraction (Decimal.spanDigits chars).2).bind fun fraction =>
      (readExponent fraction.2).map fun exponent =>
        (numberValue negative whole fraction.1 exponent.1, exponent.2)

theorem readNumber_minus (chars : List Char) :
    readNumber ('-' :: chars) = readUnsigned true chars := by
  simp only [readNumber, readUnsigned]
  cases readFraction (Decimal.spanDigits chars).2 with
  | none => rfl
  | some part =>
      obtain ⟨fraction, middle⟩ := part
      simp only [Option.bind_some]
      cases readExponent middle <;> rfl

theorem readNumber_unsigned (hchars : chars.head? ≠ some '-') :
    readNumber chars = readUnsigned false chars := by
  have hminus : ∀ after, chars ≠ '-' :: after := by
    rintro after rfl
    exact hchars rfl
  simp only [readNumber, readUnsigned]
  cases readFraction (Decimal.spanDigits chars).2 with
  | none => rfl
  | some part =>
      obtain ⟨fraction, middle⟩ := part
      simp only [Option.bind_some]
      cases readExponent middle <;> rfl

theorem readUnsigned_eq_some_iff {negative : Bool} {value : Json} {after : List Char} :
    readUnsigned negative chars = some (value, after) ↔
      IsWhole (Decimal.spanDigits chars).1 ∧
      ∃ fraction middle exponent,
        readFraction (Decimal.spanDigits chars).2 = some (fraction, middle) ∧
        readExponent middle = some (exponent, after) ∧
        numberValue negative (Decimal.spanDigits chars).1 fraction exponent = value := by
  have hwhole : ∀ digits : List Char,
      ¬(digits.isEmpty || (digits.head? == some '0' && 1 < digits.length)) = true ↔
        IsWhole digits := by
    intro digits
    simp [IsWhole]
  simp only [readUnsigned, Option.ite_none_left_eq_some, hwhole, Option.bind_eq_some_iff,
    Option.map_eq_some_iff, Prod.exists, Prod.mk.injEq]
  constructor
  · rintro ⟨hdigits, fraction, middle, hfraction, exponent, _, hexponent, hvalue, rfl⟩
    exact ⟨hdigits, fraction, middle, exponent, hfraction, hexponent, hvalue⟩
  · rintro ⟨hdigits, fraction, middle, exponent, hfraction, hexponent, hvalue⟩
    exact ⟨hdigits, fraction, middle, hfraction, exponent, after, hexponent, hvalue, rfl⟩

/-- A number is read the same where something else follows. -/
theorem readNumber_append {value : Json} (hrest : EndsNumber rest)
    (hread : readNumber chars = some (value, [])) :
    readNumber (chars ++ rest) = some (value, rest) := by
  have hunsigned : ∀ {negative chars}, readUnsigned negative chars = some (value, []) →
      readUnsigned negative (chars ++ rest) = some (value, rest) := by
    intro negative chars hread
    rw [readUnsigned_eq_some_iff, spanDigits_append hrest] at *
    obtain ⟨hwhole, fraction, middle, exponent, hfraction, hexponent, hvalue⟩ := hread
    exact ⟨hwhole, fraction, middle ++ rest, exponent,
      readFraction_append hrest hfraction, readExponent_append hrest hexponent, hvalue⟩
  cases chars with
  | nil => cases hread
  | cons char chars =>
      by_cases hminus : char = '-'
      · rw [hminus, readNumber_minus] at hread
        rw [hminus, List.cons_append, readNumber_minus]
        exact hunsigned hread
      · rw [readNumber_unsigned (by simpa using hminus)] at hread ⊢
        exact hunsigned hread

end Numbers

theorem digitsValue_toDigits (number : Nat) :
    Decimal.digitsValue (Nat.toDigits 10 number) = number :=
  Nat.ofDigitChars_toDigits (by decide) (by decide)

theorem head?_toDigits_ne_zero {number : Nat} (hpositive : 0 < number) :
    (Nat.toDigits 10 number).head? ≠ some '0' := by
  induction number using Nat.strongRecOn with
  | ind number ih =>
      by_cases hsmall : number < 10
      · rw [Nat.toDigits_of_lt_base hsmall]
        interval_cases number <;> decide
      · rw [Nat.toDigits_of_base_le (by decide) (by omega),
          List.head?_append_of_ne_nil _ Nat.toDigits_ne_nil]
        exact ih (number / 10) (by omega) (by omega)

theorem isWhole_toDigits (number : Nat) : IsWhole (Nat.toDigits 10 number) := by
  refine ⟨Nat.toDigits_ne_nil, ?_⟩
  intro hzero
  cases number with
  | zero => exact Nat.le_refl 1
  | succ number => exact absurd hzero (head?_toDigits_ne_zero (Nat.succ_pos number))

theorem readUnsigned_toDigits {negative : Bool} {number : Nat} {value : Int}
    (hvalue : (if negative then -(number : Int) else number) = value)
    (hzero : negative = true → number ≠ 0)
    (hword : (inSignedRange value || inUnsignedRange value) = true) :
    readUnsigned negative (Nat.toDigits 10 number) = some (.integer value, []) := by
  have hdigits : Decimal.spanDigits (Nat.toDigits 10 number) = (Nat.toDigits 10 number, []) :=
    Decimal.spanDigits_digits fun char => Decimal.isDigit_of_mem_toDigits
  have hnumber : numberValue negative (Nat.toDigits 10 number) [] none = .integer value := by
    have hwhole : (negative && number == 0) = false := by
      cases negative <;> simp_all
    simp only [numberValue, digitsValue_toDigits, hwhole, hvalue, hword, List.isEmpty_nil,
      Option.isNone_none, Bool.not_false, Bool.and_true, if_true]
  rw [readUnsigned_eq_some_iff, hdigits]
  exact ⟨isWhole_toDigits number, [], [], none, rfl, rfl, hnumber⟩

theorem readNumber_writtenInteger {value : Int}
    (hword : (inSignedRange value || inUnsignedRange value) = true) :
    readNumber (writtenInteger value) = some (.integer value, []) := by
  rw [writtenInteger]
  by_cases hnegative : value < 0
  · rw [if_pos hnegative, readNumber_minus]
    apply readUnsigned_toDigits _ _ hword
    · rw [if_pos rfl]
      omega
    · omega
  · have hunsigned : (Nat.toDigits 10 value.natAbs).head? ≠ some '-' := by
      intro hminus
      have hdigit := Decimal.isDigit_of_mem_toDigits (List.mem_of_mem_head? hminus)
      exact absurd hdigit (by decide)
    rw [if_neg hnegative, readNumber_unsigned hunsigned]
    apply readUnsigned_toDigits _ (by simp) hword
    rw [if_neg (by decide)]
    omega

end DecisionCanvas.Json
