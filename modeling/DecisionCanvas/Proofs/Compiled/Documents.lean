import DecisionCanvas.Proofs.Compiled.Refusal
import DecisionCanvas.Proofs.Tree.Documents

/-!
# Compiled trees through documents

A compiled tree whose numbers are finite and whose ids and indexes are words of sixty-four bits
is read back from its document as it was.  The outcome of a branch shares an object with the
fields of the branch itself; which of the two outcomes it is shows in the name of its field.
With this nothing that travels as a document loses anything on the way, trees of either form.
-/

namespace DecisionCanvas

open Json

theorem Json.id?_integer {id : Int} (hword : inSignedRange id = true) :
    id? (.integer id) = some id := by
  rw [id?, if_pos hword]

theorem Json.legible_integer {id : Int} (hword : inSignedRange id = true) :
    (Json.integer id).Legible := by
  rw [Legible, hword, Bool.true_or]

theorem Json.count?_integer {count : Nat} (hword : inUnsignedRange count = true) :
    count? (.integer count) = some count := by
  rw [count?, if_pos hword, Int.toNat_natCast]

theorem Json.ofFloat_of_finite {number : Float} (hfinite : number.isFinite = true) :
    ofFloat number = .decimal number := by
  rw [ofFloat, if_pos hfinite]

theorem Json.optional_id {fields : Fields} {name : String} {id : Option Int}
    (hlookup : fields.lookup name = id.map .integer)
    (hwords : ∀ held, id = some held → inSignedRange held = true) :
    Json.optional fields name id? = some id :=
  optional_present hlookup (fun held hheld => id?_integer (hwords held hheld)) (by simp)

/-! ## Expressions -/

namespace Expression

/-- Whether an expression can be written: words for ids, and no number beyond the finite. -/
structure Representable (expression : Expression) : Prop where
  id_word : inSignedRange expression.id = true
  finite : expression.FiniteNumber
  children_words : ∀ child ∈ expression.children, inSignedRange child = true

/-- The fields of a written expression. -/
def written (expression : Expression) : Fields :=
  match expression.toJson with
  | .object fields => fields
  | _ => []

theorem fields?_toJson (expression : Expression) :
    fields? fieldNames expression.toJson = some expression.written := by
  apply fields?_object (by decide)
  change (_ : List String).Sublist (["id", "node_type"] ++ ["number_value"] ++
    ["boolean_value"] ++ ["string_value"] ++ ["ref_key"] ++ ["operator"] ++
    ["left_child_id"] ++ ["right_child_id"])
  iterate 7 apply names_append_present
  exact List.Sublist.refl _

/-- A part of an expression is found under its name, if it is there. -/
structure WrittenParts (expression : Expression) : Prop where
  id : expression.written.lookup "id" = some (.integer expression.id)
  kind : expression.written.lookup "node_type" = some (.string expression.kind.symbol)
  number : expression.written.lookup "number_value" = expression.number.map ofFloat
  truth : expression.written.lookup "boolean_value" = expression.truth.map .boolean
  text : expression.written.lookup "string_value" = expression.text.map .string
  reference : expression.written.lookup "ref_key" = expression.reference.map .string
  operator : expression.written.lookup "operator" =
    expression.operator.map fun operator => .string operator.symbol
  left : expression.written.lookup "left_child_id" = expression.left.map .integer
  right : expression.written.lookup "right_child_id" = expression.right.map .integer

theorem writtenParts (expression : Expression) : expression.WrittenParts := by
  constructor <;>
    simp [written, toJson, List.lookup_append, lookup_present, List.lookup_cons]

/-- The numbers of an expression are read back from their texts. -/
def NumberReadsBack (expression : Expression) : Prop :=
  ∀ number, expression.number = some number → ReadsBack number

/-- What holds of the parts of an expression holds of all its written fields. -/
theorem forall_mem_written {expression : Expression} (holds : Json → Prop)
    (hinteger : ∀ id, id = expression.id ∨ id ∈ expression.children → holds (.integer id))
    (hnumber : ∀ number, expression.number = some number → holds (ofFloat number))
    (htruth : ∀ truth, holds (.boolean truth)) (htext : ∀ text, holds (.string text)) :
    ∀ field ∈ expression.written, holds field.2 := by
  simp only [written, toJson, List.forall_mem_append, forall_mem_present, List.forall_mem_cons]
  refine ⟨⟨⟨⟨⟨⟨⟨⟨?id, htext _, by simp⟩, hnumber⟩, ?truth⟩, ?text⟩, ?reference⟩, ?operator⟩,
    ?left⟩, ?right⟩
  case id => exact hinteger _ (Or.inl rfl)
  case truth => exact fun truth _ => htruth truth
  case text => exact fun text _ => htext text
  case reference => exact fun text _ => htext text
  case operator => exact fun operator _ => htext operator.symbol
  case left => exact fun child hchild => hinteger child (Or.inr (by simp [children, hchild]))
  case right => exact fun child hchild => hinteger child (Or.inr (by simp [children, hchild]))

theorem legible_toJson {expression : Expression} (hwords : expression.Representable)
    (hnumber : expression.NumberReadsBack) : expression.toJson.Legible := by
  change FieldsLegible expression.written
  rw [fieldsLegible_iff]
  apply forall_mem_written Legible
  · rintro id (rfl | hchild)
    · exact legible_integer hwords.id_word
    · exact legible_integer (hwords.children_words id hchild)
  · intro number hheld
    rw [ofFloat_of_finite (hwords.finite number hheld)]
    exact hnumber number hheld
  · exact fun _ => trivial
  · exact fun _ => trivial

theorem depth_toJson_le (expression : Expression) : expression.toJson.depth ≤ 1 := by
  have hflat : fieldsDepth expression.written ≤ 0 := by
    apply fieldsDepth_le
    apply forall_mem_written fun document => document.depth ≤ 0
    · exact fun _ _ => Nat.le_refl 0
    · intro number _
      rw [ofFloat]
      split <;> exact Nat.le_refl 0
    · exact fun _ => Nat.le_refl 0
    · exact fun _ => Nat.le_refl 0
  change 1 + fieldsDepth expression.written ≤ 1
  omega

theorem ofJson?_toJson {expression : Expression} (hwords : expression.Representable) :
    ofJson? expression.toJson = some expression := by
  have hparts := expression.writtenParts
  have hid : required expression.written "id" id? = some expression.id := by
    rw [required, hparts.id]
    exact id?_integer hwords.id_word
  have hkind : required expression.written "node_type" (fun json =>
      (json.symbol? false).bind ExpressionKind.ofSymbol?) = some expression.kind := by
    rw [required, hparts.kind]
    exact expression.kind.ofSymbol?_symbol
  have hnumber : optional expression.written "number_value" float? =
      some expression.number := by
    apply optional_present hparts.number
    · intro number hnumber
      rw [ofFloat_of_finite (hwords.finite number hnumber)]
      rfl
    · intro number hnumber
      rw [ofFloat_of_finite (hwords.finite number hnumber)]
      simp
  have htruth : optional expression.written "boolean_value" bool? = some expression.truth :=
    optional_present hparts.truth (fun _ _ => rfl) (by simp)
  have htext : optional expression.written "string_value" text? = some expression.text :=
    optional_present hparts.text (fun _ _ => rfl) (by simp)
  have hreference : optional expression.written "ref_key" text? = some expression.reference :=
    optional_present hparts.reference (fun _ _ => rfl) (by simp)
  have hoperator : optional expression.written "operator" (fun json =>
      (json.symbol? false).bind ConditionOperator.ofSymbol?) = some expression.operator :=
    optional_present hparts.operator (fun operator _ => operator.ofSymbol?_symbol) (by simp)
  have hleft : optional expression.written "left_child_id" id? = some expression.left :=
    optional_id hparts.left fun child hchild =>
      hwords.children_words child (by simp [children, hchild])
  have hright : optional expression.written "right_child_id" id? = some expression.right :=
    optional_id hparts.right fun child hchild =>
      hwords.children_words child (by simp [children, hchild])
  rw [ofJson?, fields?_toJson]
  simp only [Option.bind_eq_bind, Option.bind_some, hid, hkind, hnumber, htruth, htext,
    hreference, hoperator, hleft, hright, Option.pure_def]

end Expression

/-! ## Branches -/

theorem StatementRecord.ofJson?_toJson {statement : StatementRecord}
    (hword : inSignedRange statement.value = true) :
    ofJson? statement.toJson = some statement := by
  let fields : Fields := [("operation", .string statement.operation.symbol),
    ("value_expression_id", .integer statement.value)]
  have hfields : fields? ["operation", "value_expression_id"] statement.toJson = some fields :=
    fields?_object (by decide) (List.Sublist.refl _)
  have hoperation : required fields "operation" (fun json =>
      (json.symbol? false).bind Arithmetic.ofSymbol?) = some statement.operation :=
    statement.operation.ofSymbol?_symbol
  have hvalue : required fields "value_expression_id" id? = some statement.value :=
    id?_integer hword
  rw [ofJson?, hfields]
  simp only [Option.bind_eq_bind, Option.bind_some, hoperation, hvalue, Option.pure_def]

theorem StatementRecord.legible_toJson {statement : StatementRecord}
    (hword : inSignedRange statement.value = true) : statement.toJson.Legible :=
  ⟨trivial, legible_integer hword, trivial⟩

namespace BranchOutcome

theorem legible_toField {outcome : BranchOutcome}
    (hwords : ∀ id ∈ outcome.expressions, inSignedRange id = true) :
    outcome.toField.2.Legible := by
  cases outcome with
  | returns expression => exact legible_integer (hwords expression (by simp [expressions]))
  | statements list =>
      apply itemsLegible_map
      intro statement hmem
      exact StatementRecord.legible_toJson (hwords statement.value (List.mem_map_of_mem hmem))

theorem readReturn?_returns {expression : Int} (hword : inSignedRange expression = true) :
    readReturn? (.object [toField (.returns expression)]) = some (.returns expression) := by
  have hfields : fields? ["return_expression_id"] (.object [toField (.returns expression)]) =
      some [toField (.returns expression)] :=
    fields?_object (by decide) (List.Sublist.refl _)
  have hexpression : required [toField (.returns expression)] "return_expression_id" id? =
      some expression :=
    id?_integer hword
  rw [readReturn?, hfields]
  simp only [Option.bind_eq_bind, Option.bind_some, hexpression, Option.pure_def]

/-- Statements do not pass for a return. -/
theorem readReturn?_statements (list : List StatementRecord) :
    readReturn? (.object [toField (.statements list)]) = none := by
  have hfields : fields? ["return_expression_id"]
      (.object ([] ++ [toField (.statements list)])) = some [] :=
    fields?_append (by decide) (List.nil_sublist _) (by simp [toField])
  rw [List.nil_append] at hfields
  rw [readReturn?, hfields]
  rfl

theorem readStatements?_statements {list : List StatementRecord}
    (hwords : ∀ statement ∈ list, inSignedRange statement.value = true) :
    readStatements? (.object [toField (.statements list)]) = some (.statements list) := by
  have hfields : fields? ["statements"] (.object [toField (.statements list)]) =
      some [toField (.statements list)] :=
    fields?_object (by decide) (List.Sublist.refl _)
  have hlist : required [toField (.statements list)] "statements"
      (list? StatementRecord.ofJson?) = some list :=
    list?_map fun statement hmem => StatementRecord.ofJson?_toJson (hwords statement hmem)
  rw [readStatements?, hfields]
  simp only [Option.bind_eq_bind, Option.bind_some, hlist, Option.pure_def]

theorem ofJson?_toField {outcome : BranchOutcome}
    (hwords : ∀ id ∈ outcome.expressions, inSignedRange id = true) :
    ofJson? (.object [outcome.toField]) = some outcome := by
  rw [ofJson?]
  cases outcome with
  | returns expression =>
      rw [readReturn?_returns (hwords expression (by simp [expressions])), Option.some_or]
  | statements list =>
      have hlist : ∀ statement ∈ list, inSignedRange statement.value = true :=
        fun statement hmem => hwords statement.value (List.mem_map_of_mem hmem)
      rw [readReturn?_statements, readStatements?_statements hlist, Option.none_or]

end BranchOutcome

namespace BranchRecord

/-- The fields of a written record besides that of its outcome. -/
def written (record : BranchRecord) : Fields :=
  [("order_index", .integer record.orderIndex),
    ("condition_expression_id", (record.condition.map Json.integer).getD .null)]

theorem toJson_eq (record : BranchRecord) :
    record.toJson = .object (record.written ++ [record.outcome.toField]) := rfl

theorem fields?_toJson (record : BranchRecord) :
    fields? ownFields record.toJson = some record.written := by
  have hother : ∀ field ∈ [record.outcome.toField], field.1 ∉ ownFields := by
    cases record.outcome <;> simp [ownFields, BranchOutcome.toField]
  rw [toJson_eq]
  exact fields?_append (by decide) (List.Sublist.refl _) hother

/-- What is left for the outcome is its field. -/
theorem filter_notOwn (record : BranchRecord) :
    ((record.written ++ [record.outcome.toField]).filter
      fun field => !ownFields.contains field.1) = [record.outcome.toField] := by
  cases record.outcome <;> simp [written, ownFields, BranchOutcome.toField]

theorem orderIndex_read {record : BranchRecord}
    (hindex : inUnsignedRange record.orderIndex = true) :
    required record.written "order_index" count? = some record.orderIndex := by
  have hlookup : record.written.lookup "order_index" = some (.integer record.orderIndex) := rfl
  rw [required, hlookup, Option.bind_some, count?_integer hindex]

theorem condition_read {record : BranchRecord}
    (hwords : ∀ id ∈ record.referenced, inSignedRange id = true) :
    Json.optional record.written "condition_expression_id" id? = some record.condition := by
  have hlookup : record.written.lookup "condition_expression_id" =
      some ((record.condition.map Json.integer).getD .null) := rfl
  rw [Json.optional, hlookup]
  cases hheld : record.condition with
  | none => rfl
  | some condition =>
      have hword := hwords condition (by simp [referenced, hheld])
      simp [id?_integer hword]

theorem ofJson?_toJson {record : BranchRecord}
    (hindex : inUnsignedRange record.orderIndex = true)
    (hwords : ∀ id ∈ record.referenced, inSignedRange id = true) :
    ofJson? record.toJson = some record := by
  have houtcome : BranchOutcome.ofJson? (.object [record.outcome.toField]) =
      some record.outcome :=
    BranchOutcome.ofJson?_toField fun id hid => hwords id (List.mem_append_left _ hid)
  have hreadable : isReadable (.object [record.outcome.toField]) = true := by
    apply isReadable_of_legible
    exact ⟨BranchOutcome.legible_toField fun id hid => hwords id (List.mem_append_left _ hid),
      trivial⟩
  have hfields := record.fields?_toJson
  rw [toJson_eq] at hfields ⊢
  rw [ofJson?, hfields]
  -- One part after the other: with all of them at once the kernel would compute the bounds.
  rw [Option.bind_eq_bind, Option.bind_some, orderIndex_read hindex]
  rw [Option.bind_eq_bind, Option.bind_some, condition_read hwords]
  rw [Option.bind_eq_bind, Option.bind_some]
  simp only [filter_notOwn, hreadable, if_true]
  rw [Option.bind_eq_bind, houtcome, Option.bind_some]
  rfl

theorem legible_toJson {record : BranchRecord}
    (hindex : inUnsignedRange record.orderIndex = true)
    (hwords : ∀ id ∈ record.referenced, inSignedRange id = true) : record.toJson.Legible := by
  have horder : (Json.integer record.orderIndex).Legible := by
    rw [Legible, hindex, Bool.or_true]
  have hcondition : ((record.condition.map Json.integer).getD .null).Legible := by
    cases hheld : record.condition with
    | none => trivial
    | some condition => exact legible_integer (hwords condition (by simp [referenced, hheld]))
  have houtcome : record.outcome.toField.2.Legible :=
    BranchOutcome.legible_toField fun id hid => hwords id (List.mem_append_left _ hid)
  exact ⟨horder, hcondition, houtcome, trivial⟩

theorem depth_toJson_le (record : BranchRecord) : record.toJson.depth ≤ 3 := by
  have hcondition : ((record.condition.map Json.integer).getD .null).depth = 0 := by
    cases record.condition <;> rfl
  have houtcome : record.outcome.toField.2.depth ≤ 2 := by
    cases record.outcome with
    | returns expression => exact Nat.zero_le 2
    | statements list =>
        have hlist : itemsDepth (list.map StatementRecord.toJson) ≤ 1 :=
          itemsDepth_map_le fun statement => Nat.le_refl 1
        change 1 + itemsDepth (list.map StatementRecord.toJson) ≤ 2
        omega
  simp only [toJson, depth, fieldsDepth, hcondition]
  omega

end BranchRecord

/-! ## Whole trees -/

namespace CompiledTree

/-- Whether a compiled tree can be written. -/
structure Representable (tree : CompiledTree) : Prop where
  expressions : ∀ expression ∈ tree.expressions, expression.Representable
  indexes : ∀ record ∈ tree.branches, inUnsignedRange record.orderIndex = true
  references : ∀ record ∈ tree.branches, ∀ id ∈ record.referenced, inSignedRange id = true

theorem ofJson?_toJson {tree : CompiledTree} (htree : tree.Representable) :
    ofJson? tree.toJson = some tree := by
  let fields : Fields := [("expressions", .array (tree.expressions.map Expression.toJson)),
    ("branches", .array (tree.branches.map BranchRecord.toJson))]
  have hfields : fields? ["expressions", "branches"] tree.toJson = some fields :=
    fields?_object (by decide) (List.Sublist.refl _)
  have hexpressions : required fields "expressions" (list? Expression.ofJson?) =
      some tree.expressions :=
    list?_map fun expression hmem => Expression.ofJson?_toJson (htree.expressions expression hmem)
  have hbranches : required fields "branches" (list? BranchRecord.ofJson?) =
      some tree.branches :=
    list?_map fun record hmem => BranchRecord.ofJson?_toJson (htree.indexes record hmem)
      (htree.references record hmem)
  rw [ofJson?, hfields]
  simp only [Option.bind_eq_bind, Option.bind_some, hexpressions, hbranches, Option.pure_def]

theorem legible_toJson {tree : CompiledTree} (htree : tree.Representable)
    (hnumbers : ∀ expression ∈ tree.expressions, expression.NumberReadsBack) :
    tree.toJson.Legible := by
  have hexpressions : ItemsLegible (tree.expressions.map Expression.toJson) :=
    itemsLegible_map fun expression hmem =>
      Expression.legible_toJson (htree.expressions expression hmem) (hnumbers expression hmem)
  have hbranches : ItemsLegible (tree.branches.map BranchRecord.toJson) :=
    itemsLegible_map fun record hmem =>
      BranchRecord.legible_toJson (htree.indexes record hmem) (htree.references record hmem)
  exact ⟨hexpressions, hbranches, trivial⟩

/-- Compiled trees are flat, so the reader always goes deep enough for them. -/
theorem depth_toJson_lt (tree : CompiledTree) : tree.toJson.depth < nestingLimit := by
  have hexpressions : itemsDepth (tree.expressions.map Expression.toJson) ≤ 1 :=
    itemsDepth_map_le Expression.depth_toJson_le
  have hbranches : itemsDepth (tree.branches.map BranchRecord.toJson) ≤ 3 :=
    itemsDepth_map_le BranchRecord.depth_toJson_le
  simp only [toJson, depth, fieldsDepth, nestingLimit]
  omega

end CompiledTree

/-! ## Nothing is lost -/

/-- What is written is read back, from the document and from its text by any reader that goes
deep enough. -/
structure Json.Restores {Item : Type} (read : Json → Option Item) (document : Json)
    (item : Item) : Prop where
  from_document : read document = some item
  from_text : ∀ levels, document.depth < levels →
    (readWithin levels document.text).bind read = some item

theorem Json.Legible.restores {Item : Type} {read : Json → Option Item} {document : Json}
    {item : Item} (hlegible : document.Legible) (hread : read document = some item) :
    Restores read document item where
  from_document := hread
  from_text := by
    intro levels hlevels
    rw [readWithin_text hlegible hlevels, Option.bind_some, hread]

theorem Json.Restores.from_read? {Item : Type} {read : Json → Option Item} {document : Json}
    {item : Item} (hrestores : Restores read document item)
    (hdepth : document.depth < nestingLimit) : (read? document.text).bind read = some item := by
  rw [read?_eq_readWithin]
  exact hrestores.from_text nestingLimit hdepth

/-- Trees of any shape are read back, and no UUID is drawn for it.  Compiled trees are read back
from their documents if they can be written at all, and from their texts if their numbers are.
The limit of the reader itself is met only by trees that nest some forty conditions. -/
theorem documents_restore_trees :
    (∀ (tree : IfTree) (source : IdSource),
      Restores (fun json => (IfTree.ofJson json).run source) tree.toJson (tree, source) ∧
      (3 * tree.depth + 2 < nestingLimit →
        (read? tree.toJson.text).bind (fun json => (IfTree.ofJson json).run source) =
          some (tree, source))) ∧
    (∀ (tree : AdjustmentTree) (source : IdSource),
      Restores (fun json => (AdjustmentTree.ofJson json).run source) tree.toJson
        (tree, source) ∧
      (3 * tree.depth + 4 < nestingLimit →
        (read? tree.toJson.text).bind (fun json => (AdjustmentTree.ofJson json).run source) =
          some (tree, source))) ∧
    ∀ tree : CompiledTree, tree.Representable →
      CompiledTree.ofJson? tree.toJson = some tree ∧
      ((∀ expression ∈ tree.expressions, expression.NumberReadsBack) →
        (read? tree.toJson.text).bind CompiledTree.ofJson? = some tree) := by
  refine ⟨?_, ?_, ?_⟩
  · intro tree source
    have hrestores : Restores (fun json => (IfTree.ofJson json).run source) tree.toJson
        (tree, source) := by
      apply (IfTree.legible_toJson tree).restores
      rw [IfTree.ofJson_toJson]
      rfl
    exact ⟨hrestores, fun hdepth =>
      hrestores.from_read? (Nat.lt_of_le_of_lt (IfTree.depth_toJson_le tree) hdepth)⟩
  · intro tree source
    have hrestores : Restores (fun json => (AdjustmentTree.ofJson json).run source) tree.toJson
        (tree, source) := by
      apply (AdjustmentTree.legible_toJson tree).restores
      rw [AdjustmentTree.ofJson_toJson]
      rfl
    exact ⟨hrestores, fun hdepth =>
      hrestores.from_read? (Nat.lt_of_le_of_lt (AdjustmentTree.depth_toJson_le tree) hdepth)⟩
  · intro tree htree
    have hread := CompiledTree.ofJson?_toJson htree
    refine ⟨hread, fun hnumbers => ?_⟩
    have hlegible := CompiledTree.legible_toJson htree hnumbers
    exact (hlegible.restores hread).from_read? tree.depth_toJson_lt

/-- A nested tree with values of all kinds. -/
def mixedTree : IfTree :=
  let selector := IdSource.uuidAt ⟨1, 0⟩ 0
  .decides
    [⟨⟨.variable ⟨"age", "7", "number", "fact"⟩ none, .atLeast, .statement none selector⟩,
      .decides [⟨⟨.boolean true (some selector), .either, .choice "" none⟩, .returns .unsupported⟩]
        (.returns (.literal "\"π\n\\" (some selector)))⟩]
    (.returns (.boolean false none))

/-- A compiled tree with both kinds of outcomes. -/
def mixedRecords : CompiledTree where
  expressions :=
    [{ id := -1, kind := .constant, number := some 1.5 },
      { id := -2, kind := .variableRef, reference := some "age" },
      { id := -3, kind := .operator, operator := some .less, left := some (-2),
        right := some (-1) }]
  branches := [⟨0, some (-3), .returns (-1)⟩, ⟨1, none, .statements [⟨.times, -1⟩]⟩]

theorem mixedRecords_representable : mixedRecords.Representable where
  expressions := by
    have hwords : ∀ expression ∈ mixedRecords.expressions,
        inSignedRange expression.id = true ∧
          ∀ child ∈ expression.children, inSignedRange child = true := by decide
    have hfinite : ∀ expression ∈ mixedRecords.expressions, expression.FiniteNumber := by
      simp [mixedRecords, Expression.FiniteNumber]
      decide
    exact fun expression hmem => ⟨(hwords expression hmem).1, hfinite expression hmem,
      (hwords expression hmem).2⟩
  indexes := by decide
  references := by decide

theorem documents_restore_trees_mixed :
    (read? (IfTree.toJson mixedTree).text).bind
        (fun json => (IfTree.ofJson json).run ⟨1, 1⟩) = some (mixedTree, ⟨1, 1⟩) ∧
      mixedRecords.Representable ∧
      (read? mixedRecords.toJson.text).bind CompiledTree.ofJson? = some mixedRecords := by
  obtain ⟨hif, -, hcompiled⟩ := documents_restore_trees
  refine ⟨?_, mixedRecords_representable, ?_⟩
  · exact (hif mixedTree ⟨1, 1⟩).2 (by decide)
  · apply (hcompiled mixedRecords mixedRecords_representable).2
    have hnumber : ReadsBack 1.5 := ⟨by decide +kernel, rfl⟩
    simpa [mixedRecords, Expression.NumberReadsBack] using hnumber

end DecisionCanvas
