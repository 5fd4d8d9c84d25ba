import DecisionCanvas.Proofs.Json.Record
import DecisionCanvas.Proofs.UuidText

/-!
# Trees through documents

Reading the document that a tree was written to gives the tree back, and draws no fresh
UUID.  A tree has to be readable to any depth, since a tagged record is looked at as a whole
before its shape is known.
-/

namespace DecisionCanvas

open Json

theorem Reading.lift_some {Item : Type} (item : Item) :
    (liftM (some item) : Reading Item) = pure item := rfl

/-! ## Values -/

section Selectors

variable {names : List String} {head : Fields} {selector : Option Uuid}

theorem Json.ofSelector_eq_present (selector : Option Uuid) :
    ofSelector selector = present "selector_id" (fun id => .string id.text) selector := by
  cases selector <;> rfl

theorem Json.fieldsLegible_ofSelector (selector : Option Uuid) :
    FieldsLegible (ofSelector selector) := by
  rw [ofSelector_eq_present, fieldsLegible_iff, forall_mem_present]
  exact fun _ _ => trivial

theorem Json.fields?_ofSelector (hdistinct : names.Nodup)
    (hnames : head.map Prod.fst ++ ["selector_id"] = names) :
    fields? names (.object (head ++ ofSelector selector)) =
      some (head ++ ofSelector selector) := by
  apply fields?_object hdistinct
  rw [← hnames, ofSelector_eq_present]
  exact names_append_present (List.Sublist.refl _)

theorem Json.selector?_ofSelector (hapart : head.lookup "selector_id" = none) :
    selector? (head ++ ofSelector selector) = some selector := by
  have hlookup : (head ++ ofSelector selector).lookup "selector_id" =
      selector.map fun id => .string id.text := by
    rw [List.lookup_append, hapart, Option.none_or, ofSelector_eq_present, lookup_present]
    rfl
  rw [selector?, withDefault, hlookup]
  cases selector with
  | none => rfl
  | some id => simp [uuid?, text?, Uuid.ofText?_text]

theorem Json.type_notMem_ofSelector (hapart : "type" ∉ head.map Prod.fst) :
    "type" ∉ (head ++ ofSelector selector).map Prod.fst := by
  rw [ofSelector_eq_present]
  intro hmem
  have hnamed := (names_append_present (List.Sublist.refl _)).subset hmem
  simp [hapart] at hnamed

end Selectors

namespace Value

theorem legible_toJson (value : Value) : value.toJson.Legible := by
  match value with
  | .literal text selector => exact ⟨trivial, trivial, fieldsLegible_ofSelector selector⟩
  | .variable reference selector =>
      exact ⟨trivial, trivial, trivial, trivial, trivial, fieldsLegible_ofSelector selector⟩
  | .statement expression selector =>
      cases expression <;> exact ⟨trivial, trivial, fieldsLegible_ofSelector (some selector)⟩
  | .boolean truth selector => exact ⟨trivial, trivial, fieldsLegible_ofSelector selector⟩
  | .choice option selector => exact ⟨trivial, trivial, fieldsLegible_ofSelector selector⟩
  | .unsupported => exact ⟨trivial, trivial⟩

theorem depth_toJson_le (value : Value) : value.toJson.depth ≤ 1 := by
  have hselector : ∀ selector, fieldsDepth (ofSelector selector) = 0 := by
    intro selector
    cases selector <;> rfl
  match value with
  | .literal text selector => simp [toJson, depth, fieldsDepth, hselector]
  | .variable reference selector => simp [toJson, depth, fieldsDepth, hselector]
  | .statement expression selector =>
      cases expression <;> simp [toJson, depth, fieldsDepth, hselector]
  | .boolean truth selector => simp [toJson, depth, fieldsDepth, hselector]
  | .choice option selector => simp [toJson, depth, fieldsDepth, hselector]
  | .unsupported => exact Nat.le_refl 1

theorem ofJson_eq_ofTagged {nested : Bool} {value : Value} {tag : String} {fields : Fields}
    (hwritten : value.toJson = .object (("type", .string tag) :: fields))
    (hapart : "type" ∉ fields.map Prod.fst) :
    ofJson nested value.toJson = ofTagged tag (.object fields) := by
  have hlegible := value.legible_toJson
  rw [hwritten] at hlegible
  have hreadable := fieldsReadable_of_legible fields hlegible.2
  rw [ofJson, hwritten, tagged?_object hreadable hapart]
  rfl

theorem ofJson_toJson (nested : Bool) (value : Value) :
    ofJson nested value.toJson = pure value := by
  match value with
  | .literal text selector =>
      have hfields : fields? ["value", "selector_id"]
          (.object ([("value", .string text)] ++ ofSelector selector)) = some _ :=
        fields?_ofSelector (by decide) rfl
      rw [ofJson_eq_ofTagged rfl (type_notMem_ofSelector (by simp)), ofTagged, hfields]
      rw [Reading.lift_some, pure_bind, selector?_ofSelector rfl]
      rfl
  | .variable reference selector =>
      have hfields : fields? ["var_key", "var_id", "var_type", "var_scope", "selector_id"]
          (.object ([("var_key", .string reference.key), ("var_id", .string reference.id),
            ("var_type", .string reference.type), ("var_scope", .string reference.scope)] ++
            ofSelector selector)) = some _ :=
        fields?_ofSelector (by decide) rfl
      rw [ofJson_eq_ofTagged rfl (type_notMem_ofSelector (by simp)), ofTagged, hfields]
      rw [Reading.lift_some, pure_bind, selector?_ofSelector rfl]
      rfl
  | .statement expression selector =>
      have hfields : fields? ["expression_id", "selector_id"]
          (.object ([("expression_id", (expression.map Json.string).getD .null)] ++
            ofSelector (some selector))) = some _ :=
        fields?_ofSelector (by decide) rfl
      rw [ofJson_eq_ofTagged rfl (type_notMem_ofSelector (by simp)), ofTagged, hfields]
      rw [Reading.lift_some, pure_bind, selector?_ofSelector rfl]
      cases expression <;> rfl
  | .boolean truth selector =>
      have hfields : fields? ["value", "selector_id"]
          (.object ([("value", .boolean truth)] ++ ofSelector selector)) = some _ :=
        fields?_ofSelector (by decide) rfl
      rw [ofJson_eq_ofTagged rfl (type_notMem_ofSelector (by simp)), ofTagged, hfields]
      rw [Reading.lift_some, pure_bind, selector?_ofSelector rfl]
      rfl
  | .choice option selector =>
      have hfields : fields? ["option_id", "selector_id"]
          (.object ([("option_id", .string option)] ++ ofSelector selector)) = some _ :=
        fields?_ofSelector (by decide) rfl
      rw [ofJson_eq_ofTagged rfl (type_notMem_ofSelector (by simp)), ofTagged, hfields]
      rw [Reading.lift_some, pure_bind, selector?_ofSelector rfl]
      rfl
  | .unsupported => rfl

end Value

/-! ## Conditions and adjustments -/

theorem Condition.legible_toJson (condition : Condition) : condition.toJson.Legible :=
  ⟨condition.left.legible_toJson, trivial, condition.right.legible_toJson, trivial⟩

theorem Condition.depth_toJson_le (condition : Condition) : condition.toJson.depth ≤ 2 := by
  have hleft := condition.left.depth_toJson_le
  have hright := condition.right.depth_toJson_le
  simp only [toJson, depth, fieldsDepth]
  omega

theorem Condition.ofJson_toJson (condition : Condition) :
    ofJson condition.toJson = pure condition := by
  let fields : Fields := [("left", condition.left.toJson),
    ("operator", .string condition.operator.symbol), ("right", condition.right.toJson)]
  have hfields : fields? ["left", "operator", "right"] condition.toJson = some fields :=
    fields?_object (by decide) (List.Sublist.refl _)
  have hleft : Reading.field fields "left" (Value.ofJson true) = pure condition.left :=
    condition.left.ofJson_toJson true
  have hoperator : required fields "operator" (fun json =>
      (json.symbol? true).bind ConditionOperator.ofSymbol?) = some condition.operator :=
    condition.operator.ofSymbol?_symbol
  have hright : Reading.field fields "right" (Value.ofJson true) = pure condition.right :=
    condition.right.ofJson_toJson true
  simp only [ofJson, hfields, hleft, hoperator, hright, Reading.lift_some, pure_bind]

theorem Adjustment.legible_toJson (adjustment : Adjustment) : adjustment.toJson.Legible :=
  ⟨trivial, adjustment.value.legible_toJson, trivial⟩

theorem Adjustment.ofJson_toJson (adjustment : Adjustment) :
    ofJson adjustment.toJson = pure adjustment := by
  let fields : Fields := [("operation", .string adjustment.operation.symbol),
    ("value", adjustment.value.toJson)]
  have hfields : fields? ["operation", "value"] adjustment.toJson = some fields :=
    fields?_object (by decide) (List.Sublist.refl _)
  have hoperation : required fields "operation" (fun json =>
      (json.symbol? true).bind Arithmetic.ofSymbol?) = some adjustment.operation :=
    adjustment.operation.ofSymbol?_symbol
  have hvalue : Reading.field fields "value" (Value.ofJson true) = pure adjustment.value :=
    adjustment.value.ofJson_toJson true
  simp only [ofJson, hfields, hoperation, hvalue, Reading.lift_some, pure_bind]

theorem Adjustment.legible_listToJson (adjustments : List Adjustment) :
    (listToJson adjustments).Legible :=
  itemsLegible_map fun adjustment _ => adjustment.legible_toJson

theorem Adjustment.depth_listToJson_le (adjustments : List Adjustment) :
    (listToJson adjustments).depth ≤ 3 := by
  have hitems : itemsDepth (adjustments.map toJson) ≤ 2 := by
    apply itemsDepth_map_le
    intro adjustment
    have hvalue := adjustment.value.depth_toJson_le
    simp only [toJson, depth, fieldsDepth]
    omega
  simp only [listToJson, depth]
  omega

theorem Adjustment.listOfJson_listToJson (adjustments : List Adjustment) :
    listOfJson (listToJson adjustments) = pure adjustments :=
  Reading.list_map fun adjustment _ => adjustment.ofJson_toJson

/-! ## Trees -/

namespace Tree

variable {Outcome : Type} {write : Outcome → Json} {readOutcome : Json → Reading Outcome}

mutual

theorem legible_toJson (hlegible : ∀ outcome, (write outcome).Legible) (tree : Tree Outcome) :
    (tree.toJson write).Legible := by
  cases tree with
  | returns outcome => exact ⟨trivial, hlegible outcome, trivial⟩
  | decides cases otherwise =>
      exact ⟨trivial, itemsLegible_casesToJson hlegible cases, legible_toJson hlegible otherwise,
        trivial⟩

theorem itemsLegible_casesToJson (hlegible : ∀ outcome, (write outcome).Legible)
    (cases : List (Case (Tree Outcome))) : ItemsLegible (casesToJson write cases) := by
  cases cases with
  | nil => trivial
  | cons first rest =>
      have hfirst := legible_toJson hlegible first.body
      exact ⟨⟨first.condition.legible_toJson, hfirst, trivial⟩,
        itemsLegible_casesToJson hlegible rest⟩

end

mutual

theorem depth_le_depth_toJson (write : Outcome → Json) (tree : Tree Outcome) :
    tree.depth ≤ (tree.toJson write).depth := by
  cases tree with
  | returns outcome => exact Nat.zero_le _
  | decides cases otherwise =>
      have hcases := deepestCase_le_itemsDepth write cases
      have hotherwise := depth_le_depth_toJson write otherwise
      simp only [toJson, depth, Json.depth, fieldsDepth]
      omega

theorem deepestCase_le_itemsDepth (write : Outcome → Json)
    (cases : List (Case (Tree Outcome))) :
    deepestCase cases ≤ itemsDepth (casesToJson write cases) := by
  cases cases with
  | nil => exact Nat.le_refl 0
  | cons first rest =>
      have hbody := depth_le_depth_toJson write first.body
      have hrest := deepestCase_le_itemsDepth write rest
      simp only [casesToJson, deepestCase, itemsDepth, Json.depth, fieldsDepth]
      omega

end

mutual

/-- A case opens three containers around its body: the cases, the case and the body. -/
theorem depth_toJson_le {bound : Nat} (hwrite : ∀ outcome, (write outcome).depth ≤ bound)
    (hbound : 1 ≤ bound) (tree : Tree Outcome) :
    (tree.toJson write).depth ≤ 3 * tree.depth + bound + 1 := by
  cases tree with
  | returns outcome =>
      have houtcome := hwrite outcome
      simp only [toJson, depth, Json.depth, fieldsDepth]
      omega
  | decides cases otherwise =>
      have hcases := itemsDepth_casesToJson_le hwrite hbound cases
      have hotherwise := depth_toJson_le hwrite hbound otherwise
      simp only [toJson, depth, Json.depth, fieldsDepth]
      omega

theorem itemsDepth_casesToJson_le {bound : Nat}
    (hwrite : ∀ outcome, (write outcome).depth ≤ bound) (hbound : 1 ≤ bound)
    (cases : List (Case (Tree Outcome))) :
    itemsDepth (casesToJson write cases) ≤ 3 * deepestCase cases + bound + 2 := by
  cases cases with
  | nil => exact Nat.zero_le _
  | cons first rest =>
      have hcondition := first.condition.depth_toJson_le
      have hbody := depth_toJson_le hwrite hbound first.body
      have hrest := itemsDepth_casesToJson_le hwrite hbound rest
      simp only [casesToJson, deepestCase, itemsDepth, Json.depth, fieldsDepth]
      omega

end

theorem caseOfJson_object {readBody : Json → Reading (Tree Outcome)} {written : Json}
    {body : Tree Outcome} (condition : Condition) (hbody : readBody written = pure body) :
    caseOfJson readBody (.object [("condition", condition.toJson), ("then", written)]) =
      pure ⟨condition, body⟩ := by
  let fields : Fields := [("condition", condition.toJson), ("then", written)]
  have hfields : fields? ["condition", "then"]
      (.object [("condition", condition.toJson), ("then", written)]) = some fields :=
    fields?_object (by decide) (List.Sublist.refl _)
  have hcondition : Reading.field fields "condition" Condition.ofJson = pure condition :=
    condition.ofJson_toJson
  have hthen : Reading.field fields "then" readBody = pure body := hbody
  simp only [caseOfJson, hfields, hcondition, hthen, Reading.lift_some, pure_bind]

mutual

/-- A tree is read back by a reader that goes deep enough. -/
theorem read_toJson (hlegible : ∀ outcome, (write outcome).Legible)
    (hread : ∀ outcome, readOutcome (write outcome) = pure outcome) (tree : Tree Outcome)
    {levels : Nat} (nested : Bool) (hlevels : tree.depth < levels) :
    read readOutcome levels nested (tree.toJson write) = pure tree := by
  obtain ⟨levels, rfl⟩ := Nat.exists_eq_succ_of_ne_zero (Nat.ne_zero_of_lt hlevels)
  cases tree with
  | returns outcome =>
      let fields : Fields := [("value", write outcome)]
      have hfields : fields? ["value"] (.object fields) = some fields :=
        fields?_object (by decide) (List.Sublist.refl _)
      have hvalue : Reading.field fields "value" readOutcome = pure outcome := hread outcome
      have hparts : fieldsReadable fields = true :=
        fieldsReadable_of_legible fields ⟨hlegible outcome, trivial⟩
      rw [toJson, read, tagged?_object hparts (by simp [fields])]
      simp only [Reading.lift_some, pure_bind]
      rw [hfields, Reading.lift_some, pure_bind, hvalue, pure_bind]
  | decides cases otherwise =>
      rw [depth] at hlevels
      let fields : Fields := [("cases", .array (casesToJson write cases)),
        ("else", otherwise.toJson write)]
      have hfields : fields? ["cases", "else"] (.object fields) = some fields :=
        fields?_object (by decide) (List.Sublist.refl _)
      have hparts : fieldsReadable fields = true :=
        fieldsReadable_of_legible fields
          ⟨itemsLegible_casesToJson hlegible cases, legible_toJson hlegible otherwise, trivial⟩
      have hcases : Reading.list (caseOfJson (read readOutcome levels true))
          (casesToJson write cases) = pure cases :=
        list_casesToJson hlegible hread cases (by omega)
      have hotherwise : Reading.field fields "else" (read readOutcome levels true) =
          pure otherwise :=
        read_toJson hlegible hread otherwise true (by omega)
      rw [toJson, read, tagged?_object hparts (by simp [fields])]
      simp only [Reading.lift_some, pure_bind]
      rw [hfields, Reading.lift_some, pure_bind, hotherwise]
      exact congrArg (· >>= fun held => pure (decides held otherwise)) hcases

theorem list_casesToJson (hlegible : ∀ outcome, (write outcome).Legible)
    (hread : ∀ outcome, readOutcome (write outcome) = pure outcome)
    (cases : List (Case (Tree Outcome))) {levels : Nat} (hlevels : deepestCase cases < levels) :
    Reading.list (caseOfJson (read readOutcome levels true)) (casesToJson write cases) =
      pure cases := by
  cases cases with
  | nil => rfl
  | cons first rest =>
      rw [deepestCase] at hlevels
      have hbody : read readOutcome levels true (first.body.toJson write) = pure first.body :=
        read_toJson hlegible hread first.body true (by omega)
      have hrest : Reading.list (caseOfJson (read readOutcome levels true))
          (casesToJson write rest) = pure rest :=
        list_casesToJson hlegible hread rest (by omega)
      rw [casesToJson, Reading.list, caseOfJson_object first.condition hbody, hrest]
      rfl

end

/-- Reading a written tree gives the tree, and leaves the source of UUIDs as it was. -/
theorem ofJson_toJson (hlegible : ∀ outcome, (write outcome).Legible)
    (hread : ∀ outcome, readOutcome (write outcome) = pure outcome) (tree : Tree Outcome) :
    ofJson readOutcome (tree.toJson write) = pure tree :=
  read_toJson hlegible hread tree false
    (Nat.lt_succ_of_le (depth_le_depth_toJson write tree))

end Tree

theorem IfTree.legible_toJson (tree : IfTree) : (IfTree.toJson tree).Legible :=
  Tree.legible_toJson Value.legible_toJson tree

theorem AdjustmentTree.legible_toJson (tree : AdjustmentTree) :
    (AdjustmentTree.toJson tree).Legible :=
  Tree.legible_toJson Adjustment.legible_listToJson tree

theorem IfTree.depth_toJson_le (tree : IfTree) :
    (IfTree.toJson tree).depth ≤ 3 * tree.depth + 2 :=
  Tree.depth_toJson_le Value.depth_toJson_le (Nat.le_refl 1) tree

theorem AdjustmentTree.depth_toJson_le (tree : AdjustmentTree) :
    (AdjustmentTree.toJson tree).depth ≤ 3 * tree.depth + 4 :=
  Tree.depth_toJson_le Adjustment.depth_listToJson_le (by decide) tree

theorem IfTree.ofJson_toJson (tree : IfTree) : IfTree.ofJson tree.toJson = pure tree :=
  Tree.ofJson_toJson Value.legible_toJson (Value.ofJson_toJson true) tree

theorem AdjustmentTree.ofJson_toJson (tree : AdjustmentTree) :
    AdjustmentTree.ofJson tree.toJson = pure tree :=
  Tree.ofJson_toJson Adjustment.legible_listToJson Adjustment.listOfJson_listToJson tree

end DecisionCanvas
