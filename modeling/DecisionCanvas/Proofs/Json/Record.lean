import DecisionCanvas.Compiled.Json
import DecisionCanvas.Proofs.Json.Text
import DecisionCanvas.Tree.Json
import Mathlib.Data.List.Basic
import Mathlib.Data.List.Nodup

/-!
# Reading written records

The fields of a written record have distinct names out of those that its reader knows, so the
reader takes all of them; a part that is written only where there is something to write is found
exactly there.  Nothing here depends on which record it is.
-/

namespace DecisionCanvas.Json

theorem distinctKeys_eq_true_iff {fields : Fields} :
    distinctKeys fields = true ↔ (fields.map Prod.fst).Nodup := by
  induction fields with
  | nil => simp [distinctKeys]
  | cons field rest ih =>
      have hother : (!rest.any fun other => other.1 == field.1) = true ↔
          field.1 ∉ rest.map Prod.fst := by
        rw [Bool.not_eq_true', ← Bool.not_eq_true, List.any_eq_true, List.mem_map]
        simp only [beq_iff_eq]
      rw [distinctKeys, Bool.and_eq_true, ih, List.map_cons, List.nodup_cons, hother]

/-- Of an object whose known fields come first and are distinct, these are read. -/
theorem fields?_append {names : List String} {own others : Fields} (hdistinct : names.Nodup)
    (hown : (own.map Prod.fst).Sublist names) (hothers : ∀ field ∈ others, field.1 ∉ names) :
    fields? names (.object (own ++ others)) = some own := by
  have hkept : own.filter (fun field => names.contains field.1) = own := by
    rw [List.filter_eq_self]
    intro field hfield
    rw [List.contains_iff_mem]
    exact hown.subset (List.mem_map_of_mem hfield)
  have hdropped : others.filter (fun field => names.contains field.1) = [] := by
    rw [List.filter_eq_nil_iff]
    intro field hfield
    rw [List.contains_iff_mem]
    exact hothers field hfield
  have hkeys : distinctKeys own = true := distinctKeys_eq_true_iff.mpr (hdistinct.sublist hown)
  rw [fields?, List.filter_append, hkept, hdropped, List.append_nil, if_pos hkeys]

/-- The fields of an object that are all known are its fields. -/
theorem fields?_object {names : List String} {fields : Fields} (hdistinct : names.Nodup)
    (hnamed : (fields.map Prod.fst).Sublist names) :
    fields? names (.object fields) = some fields := by
  rw [← List.append_nil fields]
  rw [fields?_append hdistinct hnamed (by simp), List.append_nil]

/-- The tag of a tagged object is taken out of it. -/
theorem tagged?_object {key tag : String} {tags : List String} {nested : Bool}
    {fields : Fields} (hreadable : fieldsReadable fields = true)
    (hapart : key ∉ fields.map Prod.fst) :
    tagged? key tags nested (.object ((key, .string tag) :: fields)) =
      some (tag, .object fields) := by
  have hother : ∀ field ∈ fields, field.1 ≠ key := fun field hfield hsame =>
    hapart (hsame ▸ List.mem_map_of_mem hfield)
  have hkept : fields.filter (fun field => field.1 != key) = fields := by
    rw [List.filter_eq_self]
    intro field hfield
    rw [bne_iff_ne]
    exact hother field hfield
  have htag : fields.filter (fun field => field.1 == key) = [] := by
    rw [List.filter_eq_nil_iff]
    intro field hfield
    rw [beq_iff_eq]
    exact hother field hfield
  have hwhole : isReadable (.object ((key, .string tag) :: fields)) = true := by
    rw [isReadable, fieldsReadable, hreadable]
    rfl
  rw [tagged?, if_pos hwhole]
  simp only [List.filter_cons, beq_self_eq_true, if_true, htag, bne_self_eq_false,
    Bool.false_eq_true, if_false, hkept, tag?, Option.map_some]

/-! ## Parts that may be absent -/

section Present

variable {Part : Type} {name : String} {write : Part → Json} {part : Option Part}

theorem lookup_present (key : String) :
    (present name write part).lookup key = if key = name then part.map write else none := by
  cases part with
  | none => simp [present]
  | some part =>
      rw [present, List.lookup_cons]
      by_cases hkey : key = name
      · simp [hkey]
      · rw [beq_false_of_ne hkey, if_neg hkey]
        rfl

theorem names_present_sublist : ((present name write part).map Prod.fst).Sublist [name] := by
  cases part with
  | none => exact List.nil_sublist [name]
  | some part => exact List.Sublist.refl [name]

theorem names_append_present {fields : Fields} {names : List String}
    (hnamed : (fields.map Prod.fst).Sublist names) :
    ((fields ++ present name write part).map Prod.fst).Sublist (names ++ [name]) := by
  rw [List.map_append]
  exact hnamed.append names_present_sublist

theorem forall_mem_present {holds : Json → Prop} :
    (∀ field ∈ present name write part, holds field.2) ↔
      ∀ held, part = some held → holds (write held) := by
  cases part <;> simp [present]

/-- A part that is read back where it is written is read back, absent or not. -/
theorem optional_present {fields : Fields} {read : Json → Option Part}
    (hlookup : fields.lookup name = part.map write)
    (hread : ∀ held, part = some held → read (write held) = some held)
    (hnull : ∀ held, part = some held → write held ≠ .null) :
    optional fields name read = some part := by
  rw [optional, hlookup]
  cases part with
  | none => rfl
  | some held =>
      have hheld := hread held rfl
      have hwritten := hnull held rfl
      rw [Option.map_some]
      split
      · contradiction
      · simp_all
      · simp_all

end Present

/-! ## Lists -/

theorem list?_map {Item : Type} {read : Json → Option Item} {write : Item → Json}
    {items : List Item} (hread : ∀ item ∈ items, read (write item) = some item) :
    list? read (.array (items.map write)) = some items := by
  rw [list?]
  induction items with
  | nil => rfl
  | cons item rest ih =>
      rw [List.forall_mem_cons] at hread
      simp [hread.1, ih hread.2]

theorem itemsDepth_map_le {Item : Type} {write : Item → Json} {items : List Item} {bound : Nat}
    (hdepth : ∀ item, (write item).depth ≤ bound) : itemsDepth (items.map write) ≤ bound := by
  induction items with
  | nil => exact Nat.zero_le bound
  | cons item rest ih => exact Nat.max_le.mpr ⟨hdepth item, ih⟩

theorem fieldsDepth_le {fields : Fields} {bound : Nat}
    (hdepth : ∀ field ∈ fields, field.2.depth ≤ bound) : fieldsDepth fields ≤ bound := by
  induction fields with
  | nil => exact Nat.zero_le bound
  | cons field rest ih =>
      rw [List.forall_mem_cons] at hdepth
      exact Nat.max_le.mpr ⟨hdepth.1, ih hdepth.2⟩

theorem itemsLegible_map {Item : Type} {write : Item → Json} {items : List Item}
    (hlegible : ∀ item ∈ items, (write item).Legible) : ItemsLegible (items.map write) := by
  rw [itemsLegible_iff, List.forall_mem_map]
  exact hlegible

end DecisionCanvas.Json

namespace DecisionCanvas

theorem ConditionOperator.ofSymbol?_symbol (operator : ConditionOperator) :
    ofSymbol? operator.symbol = some operator := by
  cases operator <;> decide

theorem Arithmetic.ofSymbol?_symbol (operation : Arithmetic) :
    ofSymbol? operation.symbol = some operation := by
  cases operation <;> decide

theorem ExpressionKind.ofSymbol?_symbol (kind : ExpressionKind) :
    ofSymbol? kind.symbol = some kind := by
  cases kind <;> decide

theorem Reading.list_map {Item : Type} {read : Json → Reading Item} {write : Item → Json}
    {items : List Item} (hread : ∀ item ∈ items, read (write item) = pure item) :
    Reading.list read (items.map write) = pure items := by
  induction items with
  | nil => rfl
  | cons item rest ih =>
      rw [List.forall_mem_cons] at hread
      rw [List.map_cons, Reading.list, hread.1, ih hread.2]
      rfl

end DecisionCanvas
