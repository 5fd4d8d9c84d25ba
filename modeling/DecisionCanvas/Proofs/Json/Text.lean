import DecisionCanvas.Proofs.Json.Tokens

/-!
# Reading written documents

A written document is read back as it was, as long as its text has no more containers inside
one another than the reader allows.  A number with a point is read by another rule than it is
written by, so that it is read back is asked of each.
-/

namespace DecisionCanvas.Json

/-- Whether a number is read back from the text that it is written as. -/
def ReadsBack (number : Float) : Prop :=
  number.isFinite = true ∧
    readNumber (Decimal.Style.document.text number) = some (.decimal number, [])

mutual

/-- Whether a document has a text: nothing in it is unreadable, and its numbers are words or
are read back. -/
def Legible : Json → Prop
  | .integer value => (inSignedRange value || inUnsignedRange value) = true
  | .decimal number => ReadsBack number
  | .array items => ItemsLegible items
  | .object fields => FieldsLegible fields
  | .unreadable => False
  | _ => True

def ItemsLegible : List Json → Prop
  | [] => True
  | item :: rest => item.Legible ∧ ItemsLegible rest

def FieldsLegible : List (String × Json) → Prop
  | [] => True
  | (_, value) :: rest => value.Legible ∧ FieldsLegible rest

end

theorem itemsLegible_iff {items : List Json} :
    ItemsLegible items ↔ ∀ item ∈ items, item.Legible := by
  induction items with
  | nil => simp [ItemsLegible]
  | cons item rest ih => rw [ItemsLegible, ih, List.forall_mem_cons]

theorem fieldsLegible_iff {fields : List (String × Json)} :
    FieldsLegible fields ↔ ∀ field ∈ fields, field.2.Legible := by
  induction fields with
  | nil => simp [FieldsLegible]
  | cons field rest ih => rw [FieldsLegible, ih, List.forall_mem_cons]

mutual

/-- Nothing in a legible document is unreadable. -/
theorem isReadable_of_legible (document : Json) (hlegible : document.Legible) :
    document.isReadable = true := by
  cases document with
  | array items => exact itemsReadable_of_legible items hlegible
  | object fields => exact fieldsReadable_of_legible fields hlegible
  | unreadable => exact hlegible.elim
  | _ => rfl

theorem itemsReadable_of_legible (items : List Json) (hlegible : ItemsLegible items) :
    itemsReadable items = true := by
  cases items with
  | nil => rfl
  | cons item rest =>
      rw [itemsReadable, isReadable_of_legible item hlegible.1,
        itemsReadable_of_legible rest hlegible.2, Bool.and_self]

theorem fieldsReadable_of_legible (fields : List (String × Json))
    (hlegible : FieldsLegible fields) : fieldsReadable fields = true := by
  cases fields with
  | nil => rfl
  | cons field rest =>
      rw [fieldsReadable, isReadable_of_legible field.2 hlegible.1,
        fieldsReadable_of_legible rest hlegible.2, Bool.and_self]

end

/-! ## Values and what follows them -/

theorem skipSpace_cons {char : Char} (hchar : isSpace char = false) (rest : List Char) :
    skipSpace (char :: rest) = char :: rest := by
  rw [skipSpace, List.dropWhile_cons_of_neg (by simp [hchar])]

theorem skipSpace_newLine (level : Nat) (chars : List Char) :
    skipSpace (newLine level ++ chars) = skipSpace chars := by
  have hspaces : ∀ char ∈ newLine level, isSpace char = true := by
    rw [newLine, List.forall_mem_cons]
    refine ⟨by decide, ?_⟩
    intro char hchar
    rw [List.eq_of_mem_replicate hchar]
    decide
  rw [skipSpace, List.dropWhile_append_of_pos hspaces, skipSpace]

theorem endsNumber_newLine (level : Nat) (rest : List Char) :
    EndsNumber (newLine level ++ rest) := by
  rw [newLine]
  intro char hchar
  cases hchar
  decide

theorem endsNumber_comma (rest : List Char) : EndsNumber (',' :: rest) := by
  intro char hchar
  cases hchar
  decide

/-- Whether a text begins with what may begin a value. -/
def Opens (chars : List Char) : Prop :=
  ∃ first tail, chars = first :: tail ∧ isSpace first = false ∧ first ≠ ']'

theorem Opens.skipSpace_append {chars : List Char} (hopens : Opens chars) (rest : List Char) :
    skipSpace (chars ++ rest) = chars ++ rest := by
  obtain ⟨first, tail, rfl, hspace, -⟩ := hopens
  exact skipSpace_cons hspace (tail ++ rest)

/-- What is read as a number begins with a digit or a sign. -/
theorem exists_head_of_readNumber {chars : List Char} {result : Json × List Char}
    (hread : readNumber chars = some result) :
    ∃ first tail, chars = first :: tail ∧ (first = '-' ∨ first.isDigit = true) := by
  obtain ⟨value, after⟩ := result
  cases chars with
  | nil => cases hread
  | cons first tail =>
      refine ⟨first, tail, rfl, ?_⟩
      by_cases hminus : first = '-'
      · exact Or.inl hminus
      · rw [readNumber_unsigned (by simpa using hminus), readUnsigned_eq_some_iff] at hread
        by_cases hdigit : first.isDigit
        · exact Or.inr hdigit
        · simp [IsWhole, Decimal.spanDigits, hdigit] at hread

theorem opens_of_readNumber {chars : List Char} {result : Json × List Char}
    (hread : readNumber chars = some result) : Opens chars := by
  obtain ⟨first, tail, hchars, hfirst⟩ := exists_head_of_readNumber hread
  refine ⟨first, tail, hchars, ?_, ?_⟩
  · rw [← Bool.not_eq_true]
    intro hspace
    simp only [isSpace, Bool.or_eq_true, beq_iff_eq] at hspace
    rcases hspace with ((rfl | rfl) | rfl) | rfl <;> exact absurd hfirst (by decide)
  · rintro rfl
    exact absurd hfirst (by decide)

/-- The text of any legible document begins a value. -/
theorem opens_written {document : Json} (hlegible : document.Legible) (level : Nat) :
    Opens (written level document) := by
  cases document with
  | null => exact ⟨'n', _, rfl, rfl, by decide⟩
  | boolean truth => cases truth <;> exact ⟨_, _, rfl, rfl, by decide⟩
  | integer value => exact opens_of_readNumber (readNumber_writtenInteger hlegible)
  | decimal number =>
      rw [written, if_pos hlegible.1]
      exact opens_of_readNumber hlegible.2
  | string text => exact ⟨'"', _, rfl, rfl, by decide⟩
  | array items => cases items <;> exact ⟨'[', _, rfl, rfl, by decide⟩
  | object fields =>
      cases fields with
      | nil => exact ⟨'\x7b', _, rfl, rfl, by decide⟩
      | cons field rest => exact ⟨'\x7b', _, rfl, rfl, by decide⟩
  | unreadable => exact hlegible.elim

section Values

variable {fuel levels : Nat} {chars rest : List Char}

theorem readValue_newLine (level : Nat) (chars : List Char) :
    readValue fuel levels (newLine level ++ chars) = readValue fuel levels chars := by
  cases fuel with
  | zero => rfl
  | succ fuel => rw [readValue, readValue, skipSpace_newLine]

theorem readValue_blank (chars : List Char) :
    readValue fuel levels (' ' :: chars) = readValue fuel levels chars := by
  cases fuel with
  | zero => rfl
  | succ fuel =>
      have hskip : skipSpace (' ' :: chars) = skipSpace chars := rfl
      rw [readValue, readValue, hskip]

theorem readItems_newLine (level : Nat) (chars : List Char) :
    readItems fuel levels (newLine level ++ chars) = readItems fuel levels chars := by
  cases fuel with
  | zero => rfl
  | succ fuel => rw [readItems, readItems, readValue_newLine]

theorem readFields_newLine (level : Nat) (chars : List Char) :
    readFields fuel levels (newLine level ++ chars) = readFields fuel levels chars := by
  cases fuel with
  | zero => rfl
  | succ fuel => rw [readFields, readFields, skipSpace_newLine]

theorem readValue_number {value : Json} (hrest : EndsNumber rest)
    (hread : readNumber chars = some (value, [])) :
    readValue (fuel + 1) levels (chars ++ rest) = some (value, rest) := by
  have hwhole := readNumber_append hrest hread
  obtain ⟨first, tail, hchars, hfirst⟩ := exists_head_of_readNumber hread
  have hopens : Opens chars := opens_of_readNumber hread
  rw [readValue, hopens.skipSpace_append]
  -- None of the characters that announce another value begins a number.
  have hother : ∀ {char after}, chars ++ rest = char :: after →
      char = '-' ∨ char.isDigit = true := by
    intro char after hsame
    rw [hchars] at hsame
    rw [← (List.cons.inj hsame).1]
    exact hfirst
  split
  iterate 6 next hsame => exact absurd (hother hsame) (by decide)
  · exact hwhole

theorem readValue_text (text : String) (rest : List Char) :
    readValue (fuel + 1) levels (writtenText text ++ rest) = some (.string text, rest) := by
  obtain ⟨inner, hwritten, hread⟩ := readText_writtenText text rest
  rw [hwritten, readValue, skipSpace_cons (by decide)]
  simp only [hread, Option.map_some]

/-! ## Containers -/

/-- Written items, the first of them on the line that has begun. -/
def writtenRow (level : Nat) : List Json → List Char
  | [] => []
  | first :: rest => written level first ++ writtenItems level rest

/-- Written fields, the first of them on the line that has begun. -/
def writtenFieldRow (level : Nat) : List (String × Json) → List Char
  | [] => []
  | (key, value) :: rest =>
    writtenText key ++ ':' :: ' ' :: written level value ++ writtenFields level rest

theorem written_array {items : List Json} (hitems : items ≠ []) (level : Nat)
    (rest : List Char) :
    written level (.array items) ++ rest = '[' :: (newLine (level + 1) ++
      (writtenRow (level + 1) items ++ (newLine level ++ ']' :: rest))) := by
  obtain ⟨first, others, rfl⟩ := List.exists_cons_of_ne_nil hitems
  simp [written, writtenRow]

theorem written_object {fields : List (String × Json)} (hfields : fields ≠ []) (level : Nat)
    (rest : List Char) :
    written level (.object fields) ++ rest = '\x7b' :: (newLine (level + 1) ++
      (writtenFieldRow (level + 1) fields ++ (newLine level ++ '\x7d' :: rest))) := by
  obtain ⟨first, others, rfl⟩ := List.exists_cons_of_ne_nil hfields
  simp [written, writtenFieldRow]

theorem length_writtenRow_lt {items : List Json} (hitems : items ≠ []) (level : Nat) :
    (writtenRow (level + 1) items).length + 1 < (written level (.array items)).length := by
  have hwhole := congrArg List.length (written_array hitems level [])
  simp only [List.append_nil, List.length_cons, List.length_append] at hwhole
  omega

theorem length_writtenFieldRow_lt {fields : List (String × Json)} (hfields : fields ≠ [])
    (level : Nat) :
    (writtenFieldRow (level + 1) fields).length + 1 < (written level (.object fields)).length := by
  have hwhole := congrArg List.length (written_object hfields level [])
  simp only [List.append_nil, List.length_cons, List.length_append] at hwhole
  omega

theorem opens_writtenRow {items : List Json} (hitems : items ≠ [])
    (hlegible : ItemsLegible items) (level : Nat) : Opens (writtenRow level items) := by
  obtain ⟨first, others, rfl⟩ := List.exists_cons_of_ne_nil hitems
  obtain ⟨char, tail, hwritten, hspace, hclose⟩ := opens_written hlegible.1 level
  refine ⟨char, tail ++ writtenItems level others, ?_, hspace, hclose⟩
  rw [writtenRow, hwritten, List.cons_append]

theorem readValue_array {items : List Json} {level : Nat} (hitems : items ≠ [])
    (hlegible : ItemsLegible items) (hlevels : 1 < levels)
    (hread : readItems fuel (levels - 1)
      (writtenRow (level + 1) items ++ (newLine level ++ ']' :: rest)) = some (items, rest)) :
    readValue (fuel + 1) levels (written level (.array items) ++ rest) =
      some (.array items, rest) := by
  have hopens := opens_writtenRow hitems hlegible (level + 1)
  rw [written_array hitems, readValue, skipSpace_cons (by decide)]
  simp only [skipSpace_newLine, hopens.skipSpace_append]
  obtain ⟨first, tail, hrow, -, hclose⟩ := hopens
  have hdeep : ¬levels ≤ 1 := by omega
  rw [hrow, List.cons_append] at hread ⊢
  simp only [hdeep, if_false]
  split
  · next hsame => exact absurd (List.cons.inj hsame).1 hclose
  · rw [hread, Option.map_some]

theorem writtenItems_cons (level : Nat) (first : Json) (others : List Json) :
    writtenItems level (first :: others) =
      ',' :: (newLine level ++ writtenRow level (first :: others)) := by
  simp [writtenItems, writtenRow]

theorem writtenFields_cons (level : Nat) (first : String × Json)
    (others : List (String × Json)) :
    writtenFields level (first :: others) =
      ',' :: (newLine level ++ writtenFieldRow level (first :: others)) := by
  simp [writtenFields, writtenFieldRow]

theorem objectOf_map (fields : List (String × Json)) :
    objectOf (fields.map fun field => (some field.1, field.2)) = .object fields := by
  have hfields : (fields.map fun field => (some field.1, field.2)).mapM
      (fun field : Option String × Json => field.1.map (·, field.2)) = some fields := by
    induction fields with
    | nil => rfl
    | cons field rest ih => simp [ih]
  rw [objectOf, hfields]

theorem readValue_object {fields : List (String × Json)} {level : Nat} (hfields : fields ≠ [])
    (hlevels : 1 < levels)
    (hread : readFields fuel (levels - 1)
      (writtenFieldRow (level + 1) fields ++ (newLine level ++ '\x7d' :: rest)) =
        some (fields.map fun field => (some field.1, field.2), rest)) :
    readValue (fuel + 1) levels (written level (.object fields) ++ rest) =
      some (.object fields, rest) := by
  have hquoted : ∃ tail, writtenFieldRow (level + 1) fields = '"' :: tail := by
    obtain ⟨first, others, rfl⟩ := List.exists_cons_of_ne_nil hfields
    exact ⟨_, rfl⟩
  have hquote : isSpace '"' = false := by decide
  have hdeep : ¬levels ≤ 1 := by omega
  obtain ⟨tail, hrow⟩ := hquoted
  rw [hrow, List.cons_append] at hread
  rw [written_object hfields, hrow, List.cons_append, readValue, skipSpace_cons (by decide)]
  simp only [skipSpace_newLine, skipSpace_cons hquote, hdeep, if_false]
  split
  · next hsame => exact absurd (List.cons.inj hsame).1 (by decide)
  · rw [hread, Option.map_some, objectOf_map]

section Field

variable {key : String} {value : Json} {level : Nat} {after : List Char}
variable (hvalue : readValue fuel levels (written level value ++ after) = some (value, after))

include hvalue

/-- A field is the last one where its object is closed behind it. -/
theorem readFields_last (hclose : skipSpace after = '\x7d' :: rest) :
    readFields (fuel + 1) levels
      (writtenText key ++ ':' :: ' ' :: (written level value ++ after)) =
        some ([(some key, value)], rest) := by
  obtain ⟨inner, hwritten, hkey⟩ :=
    readText_writtenText key (':' :: ' ' :: (written level value ++ after))
  have hcolon : isSpace ':' = false := by decide
  rw [hwritten, readFields, skipSpace_cons (by decide)]
  simp only [hkey, skipSpace_cons hcolon, readValue_blank, hvalue, hclose]

theorem readFields_more {more : List Char} {others : List (Option String × Json)}
    (hcomma : skipSpace after = ',' :: more)
    (hmore : readFields fuel levels more = some (others, rest)) :
    readFields (fuel + 1) levels
      (writtenText key ++ ':' :: ' ' :: (written level value ++ after)) =
        some ((some key, value) :: others, rest) := by
  obtain ⟨inner, hwritten, hkey⟩ :=
    readText_writtenText key (':' :: ' ' :: (written level value ++ after))
  have hcolon : isSpace ':' = false := by decide
  rw [hwritten, readFields, skipSpace_cons (by decide)]
  simp only [hkey, skipSpace_cons hcolon, readValue_blank, hvalue, hcomma, hmore, Option.map_some]

end Field

mutual

/-- A written document is read back, with what follows it left over. -/
theorem readValue_written (document : Json) (hlegible : document.Legible) (level : Nat)
    {fuel levels : Nat} {rest : List Char} (hlevels : document.depth < levels)
    (hfuel : (written level document).length ≤ fuel) (hrest : EndsNumber rest) :
    readValue fuel levels (written level document ++ rest) = some (document, rest) := by
  have hsome : 0 < (written level document).length := by
    obtain ⟨first, tail, hopens, -, -⟩ := opens_written hlegible level
    rw [hopens]
    exact Nat.succ_pos _
  obtain ⟨fuel, rfl⟩ := Nat.exists_eq_succ_of_ne_zero (show fuel ≠ 0 by omega)
  cases document with
  | null => rfl
  | boolean truth => cases truth <;> rfl
  | integer value => exact readValue_number hrest (readNumber_writtenInteger hlegible)
  | decimal number =>
      rw [written, if_pos hlegible.1]
      exact readValue_number hrest hlegible.2
  | string text => exact readValue_text text rest
  | array items =>
      rw [depth] at hlevels
      cases items with
      | nil =>
          have hdeep : ¬levels ≤ 1 := by simpa [itemsDepth] using hlevels
          simp [written, readValue, skipSpace, isSpace, hdeep]
      | cons first others =>
          have hlength := length_writtenRow_lt (List.cons_ne_nil first others) level
          apply readValue_array (List.cons_ne_nil first others) hlegible (by omega)
          apply readItems_written (first :: others) hlegible (List.cons_ne_nil first others)
          · omega
          · omega
  | object fields =>
      rw [depth] at hlevels
      cases fields with
      | nil =>
          have hdeep : ¬levels ≤ 1 := by simpa [fieldsDepth] using hlevels
          simp [written, readValue, skipSpace, isSpace, hdeep, objectOf]
      | cons first others =>
          have hlength := length_writtenFieldRow_lt (List.cons_ne_nil first others) level
          apply readValue_object (List.cons_ne_nil first others) (by omega)
          apply readFields_written (first :: others) hlegible (List.cons_ne_nil first others)
          · omega
          · omega
  | unreadable => exact hlegible.elim

theorem readItems_written (items : List Json) (hlegible : ItemsLegible items)
    (hitems : items ≠ []) (level outer : Nat) {fuel levels : Nat} (rest : List Char)
    (hlevels : itemsDepth items < levels)
    (hfuel : (writtenRow level items).length + 1 ≤ fuel) :
    readItems fuel levels (writtenRow level items ++ (newLine outer ++ ']' :: rest)) =
      some (items, rest) := by
  obtain ⟨fuel, rfl⟩ := Nat.exists_eq_succ_of_ne_zero (show fuel ≠ 0 by omega)
  cases items with
  | nil => exact absurd rfl hitems
  | cons first others =>
      rw [itemsDepth] at hlevels
      rw [writtenRow, List.length_append] at hfuel
      cases others with
      | nil =>
          have hfirst : readValue fuel levels (written level first ++
              (newLine outer ++ ']' :: rest)) = some (first, newLine outer ++ ']' :: rest) :=
            readValue_written first hlegible.1 level (by omega) (by omega)
              (endsNumber_newLine outer _)
          have hclose : skipSpace (newLine outer ++ ']' :: rest) = ']' :: rest := by
            rw [skipSpace_newLine, skipSpace_cons (by decide)]
          rw [writtenRow, writtenItems, List.append_nil, readItems, hfirst]
          simp only [hclose]
      | cons second others =>
          let after := newLine level ++
            (writtenRow level (second :: others) ++ (newLine outer ++ ']' :: rest))
          have hfirst : readValue fuel levels (written level first ++ ',' :: after) =
              some (first, ',' :: after) :=
            readValue_written first hlegible.1 level (by omega) (by omega)
              (endsNumber_comma after)
          have hothers : readItems fuel levels after = some (second :: others, rest) := by
            rw [readItems_newLine]
            apply readItems_written (second :: others) hlegible.2 (by simp) level outer rest
            · omega
            · simp only [writtenItems_cons, List.length_cons, List.length_append] at hfuel
              omega
          have hcomma : skipSpace (',' :: after) = ',' :: after :=
            skipSpace_cons (by decide) after
          rw [writtenRow, writtenItems_cons, List.append_assoc, List.cons_append,
            List.append_assoc, readItems, hfirst]
          simp only [hcomma, hothers, Option.map_some]

theorem readFields_written (fields : List (String × Json)) (hlegible : FieldsLegible fields)
    (hfields : fields ≠ []) (level outer : Nat) {fuel levels : Nat} (rest : List Char)
    (hlevels : fieldsDepth fields < levels)
    (hfuel : (writtenFieldRow level fields).length + 1 ≤ fuel) :
    readFields fuel levels (writtenFieldRow level fields ++ (newLine outer ++ '\x7d' :: rest)) =
      some (fields.map fun field => (some field.1, field.2), rest) := by
  obtain ⟨fuel, rfl⟩ := Nat.exists_eq_succ_of_ne_zero (show fuel ≠ 0 by omega)
  cases fields with
  | nil => exact absurd rfl hfields
  | cons first others =>
      obtain ⟨key, value⟩ := first
      rw [fieldsDepth] at hlevels
      simp only [writtenFieldRow, List.length_append, List.length_cons] at hfuel
      cases others with
      | nil =>
          have hclose : skipSpace (newLine outer ++ '\x7d' :: rest) = '\x7d' :: rest := by
            rw [skipSpace_newLine, skipSpace_cons (by decide)]
          rw [writtenFieldRow, writtenFields, List.append_nil, List.append_assoc,
            List.cons_append, List.cons_append]
          apply readFields_last _ hclose
          apply readValue_written value hlegible.1 level
          · omega
          · omega
          · exact endsNumber_newLine outer _
      | cons second others =>
          let more := newLine level ++
            (writtenFieldRow level (second :: others) ++ (newLine outer ++ '\x7d' :: rest))
          have hmore : readFields fuel levels more =
              some ((second :: others).map fun field => (some field.1, field.2), rest) := by
            rw [readFields_newLine]
            apply readFields_written (second :: others) hlegible.2 (by simp) level outer rest
            · omega
            · simp only [writtenFields_cons, List.length_cons, List.length_append] at hfuel
              omega
          have hcomma : skipSpace (',' :: more) = ',' :: more := skipSpace_cons (by decide) more
          rw [writtenFieldRow, writtenFields_cons, List.append_assoc, List.append_assoc,
            List.cons_append, List.cons_append, List.cons_append, List.append_assoc]
          apply readFields_more _ hcomma hmore
          apply readValue_written value hlegible.1 level
          · omega
          · omega
          · exact endsNumber_comma more

end

end Values

/-! ## Whole texts -/

/-- Reads a whole text as one document in which fewer containers than `levels` nest. -/
def readWithin (levels : Nat) (text : String) : Option Json :=
  (readValue (2 * text.toList.length + 2) levels text.toList).bind fun read =>
    if (skipSpace read.2).isEmpty then some read.1 else none

theorem read?_eq_readWithin (text : String) : read? text = readWithin nestingLimit text := by
  rw [read?, readWithin]
  cases readValue (2 * text.toList.length + 2) nestingLimit text.toList <;> rfl

/-- A legible document is read back from its text by a reader that goes deep enough. -/
theorem readWithin_text {document : Json} (hlegible : document.Legible) {levels : Nat}
    (hlevels : document.depth < levels) : readWithin levels document.text = some document := by
  have hchars : document.text.toList = written 0 document := String.toList_ofList
  have hread : readValue (2 * (written 0 document).length + 2) levels (written 0 document ++ []) =
      some (document, []) := by
    apply readValue_written document hlegible 0 hlevels
    · omega
    · intro char hchar
      cases hchar
  rw [List.append_nil] at hread
  rw [readWithin, hchars, hread]
  rfl

end DecisionCanvas.Json
