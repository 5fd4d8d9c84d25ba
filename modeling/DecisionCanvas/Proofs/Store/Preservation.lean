import DecisionCanvas.Proofs.Compiled.Stabilization
import DecisionCanvas.Proofs.Store.RoundTrip

/-!
# Trees that a round trip preserves

What is loaded after a save is one decision with its values in normal form.  So a tree is
preserved exactly if it is one decision and its values are canonical, which is to say that
they are their own normal forms up to what only the editor needs.
-/

namespace DecisionCanvas

/-- Whether a variable is what the catalog has under its key.  The variable without
content stands for a key that the catalog does not know. -/
def Variable.KnownTo (reference : Variable) (catalog : Catalog) : Prop :=
  catalog.lookup reference.key = some ⟨reference.id, reference.type, reference.scope⟩ ∨
    reference = ⟨"", "", "", ""⟩ ∧ catalog.lookup "" = none

/-- Whether a variable is taken for a statement when it is read back. -/
def Variable.PassesForStatement (reference : Variable) : Prop :=
  reference.scope ≠ factScope ∧ (Uuid.ofText? reference.key).isSome

namespace Value

/-- Whether a value is written as it is read back. -/
def Canonical (catalog : Catalog) : Value → Prop
  | .literal text _ =>
    ∃ number, literalNumber? text = some number ∧ text = Decimal.plainText number
  | .variable reference _ => reference.KnownTo catalog ∧ ¬reference.PassesForStatement
  | .statement _ _ | .boolean _ _ | .choice _ _ => True
  | .unsupported => False

/-- Whether a value is a literal. -/
def IsLiteral (value : Value) : Prop :=
  ∃ text selector, value = .literal text selector

variable {catalog : Catalog} {kind : TreeKind} {alone : Bool}

theorem variableFor_eq_iff {reference : Variable} :
    catalog.variableFor reference.key = .variable reference none ↔
      reference.KnownTo catalog := by
  obtain ⟨key, id, type, scope⟩ := reference
  cases hlookup : catalog.lookup key with
  | none =>
      rw [variableFor_of_none hlookup, emptyVariable, Variable.KnownTo, hlookup]
      constructor
      · intro hempty
        simp only [variable.injEq, Variable.mk.injEq, and_true] at hempty
        obtain ⟨rfl, rfl, rfl, rfl⟩ := hempty
        exact Or.inr ⟨rfl, hlookup⟩
      · rintro (hknown | ⟨hempty, -⟩)
        · cases hknown
        · rw [hempty]
  | some fact =>
      obtain ⟨knownId, knownType, knownScope⟩ := fact
      rw [variableFor_of_some hlookup, Variable.KnownTo, hlookup]
      constructor
      · intro hsame
        simp only [variable.injEq, Variable.mk.injEq, true_and, and_true] at hsame
        obtain ⟨rfl, rfl, rfl⟩ := hsame
        exact Or.inl rfl
      · rintro (hknown | ⟨hempty, hnone⟩)
        · cases hknown
          rfl
        · rw [(Variable.mk.inj hempty).1, hnone] at hlookup
          cases hlookup

theorem meaning_variableFor (key : String) :
    (catalog.variableFor key).meaning = catalog.variableFor key := by
  rw [Catalog.variableFor]
  cases catalog.lookup key <;> rfl

section Variables

variable {reference : Variable} {selector : Option Uuid}

theorem normal_variable_of_passes {found : Uuid} (hscope : reference.scope ≠ factScope)
    (hfound : Uuid.ofText? reference.key = some found) :
    (Value.variable reference selector).normal catalog =
      .statement (some reference.key) found := by
  rw [normal, if_neg hscope, hfound]

theorem normal_variable_of_not_passes (hpasses : ¬reference.PassesForStatement) :
    (Value.variable reference selector).normal catalog = catalog.variableFor reference.key := by
  obtain hnormal | ⟨found, hscope, hfound, -⟩ := normal_variable_cases catalog reference selector
  · exact hnormal
  · exact absurd ⟨hscope, by rw [hfound, Option.isSome_some]⟩ hpasses

theorem steady_variable_iff :
    (Value.variable reference selector).Steady catalog kind alone ↔
      (Value.variable reference selector).Canonical catalog := by
  by_cases hpasses : reference.PassesForStatement
  · obtain ⟨found, hfound⟩ := Option.isSome_iff_exists.mp hpasses.2
    have hnormal : (Value.variable reference selector).normal catalog =
        .statement (some reference.key) found := normal_variable_of_passes hpasses.1 hfound
    rw [Steady, reread_eq_normal catalog kind alone (by simp [hnormal]), hnormal]
    simp [Canonical, meaning, hpasses]
  · have hnormal : (Value.variable reference selector).normal catalog =
        catalog.variableFor reference.key := normal_variable_of_not_passes hpasses
    rw [Steady, reread_eq_normal catalog kind alone (by
      rw [hnormal]
      exact variableFor_ne_literal catalog reference.key), hnormal, meaning_variableFor]
    simp [Canonical, meaning, hpasses, variableFor_eq_iff]

end Variables

section Literals

variable {text : String} {selector : Option Uuid} {number : Float}

/-- All that a conditional tree returns is read back as a truth value. -/
theorem reread_literal_settled (hnumber : literalNumber? text = some number) :
    ∃ truth, (literal text selector).reread catalog .conditional true = boolean truth none := by
  obtain ⟨truth, htruth⟩ := Option.isSome_iff_exists.mp (isSome_literalTruth?_plainText number)
  refine ⟨truth, ?_⟩
  rw [reread, if_pos rfl, TreeKind.settle, if_pos rfl, normal, hnumber]
  simp only [coerceBoolean, htruth]

/-- Any other literal is read back as its number is written. -/
theorem reread_literal_unsettled (hnumber : literalNumber? text = some number)
    (hunsettled : ¬(alone = true ∧ kind = .conditional)) :
    (literal text selector).reread catalog kind alone =
      literal (Decimal.plainText number) none := by
  have hnormal : (literal text selector).normal catalog =
      literal (Decimal.plainText number) none := by rw [normal, hnumber]
  rw [reread, hnormal]
  split
  · rename_i halone
    rw [TreeKind.settle, if_neg fun hkind => hunsettled ⟨halone, hkind⟩]
  · rfl

theorem steady_literal_iff (hfault : (literal text selector).fault? = none) :
    (literal text selector).Steady catalog kind alone ↔
      (literal text selector).Canonical catalog ∧ ¬(alone = true ∧ kind = .conditional) := by
  cases hnumber : literalNumber? text with
  | none => simp [fault?, hnumber] at hfault
  | some number =>
      by_cases hsettled : alone = true ∧ kind = .conditional
      · obtain ⟨rfl, rfl⟩ := hsettled
        obtain ⟨truth, hread⟩ := reread_literal_settled hnumber
        rw [Steady, hread]
        simp [meaning]
      · rw [Steady, reread_literal_unsettled hnumber hsettled]
        simp [Canonical, meaning, hsettled, hnumber, eq_comm]

end Literals

/-- A value that compiles means the same after it was read back exactly if it is canonical,
and is not a literal that is settled as a truth value. -/
theorem steady_iff {value : Value} (hfault : value.fault? = none) :
    value.Steady catalog kind alone ↔
      value.Canonical catalog ∧ ¬(alone = true ∧ kind = .conditional ∧ value.IsLiteral) := by
  match value with
  | .literal text selector =>
      rw [steady_literal_iff hfault]
      simp [IsLiteral]
  | .variable reference selector =>
      rw [steady_variable_iff]
      simp [IsLiteral]
  | .statement held selector => simp [steady_statement, Canonical, IsLiteral]
  | .boolean truth selector => simp [steady_boolean, Canonical, IsLiteral]
  | .choice option selector => simp [steady_choice, Canonical, IsLiteral]
  | .unsupported => simp [fault?] at hfault

/-- Where a value is not all that is returned, the kind of the tree does not matter. -/
theorem steady_inner_iff {value : Value} (hfault : value.fault? = none) :
    value.Steady catalog kind false ↔ value.Canonical catalog := by
  rw [steady_iff hfault]
  simp

end Value

theorem Condition.meaning_normal_iff {catalog : Catalog} (kind : TreeKind)
    {condition : Condition} :
    (condition.normal catalog).meaning = condition.meaning ↔
      condition.left.Steady catalog kind false ∧ condition.right.Steady catalog kind false := by
  simp [meaning, normal, Value.Steady, Value.reread]

/-! ## Trees -/

theorem Decision.tree_eq_returns_iff {Outcome : Type} {decision : Decision Outcome}
    {outcome : Outcome} :
    decision.tree = .returns outcome ↔
      decision.rows.isEmpty = true ∧ decision.otherwise = outcome := by
  rw [tree]
  split <;> simp [*]

/-- A decision is preserved exactly if its values are canonical, and no literal is settled. -/
theorem Decision.meaningBy_reread_iff {catalog : Catalog} {kind : TreeKind}
    {decision : Decision Value}
    (hcompiles : ∀ value ∈ decision.values fun value => [value], value.fault? = none) :
    Tree.meaningBy Value.meaning
        (decision.map (Condition.normal catalog) (Value.reread catalog kind)).tree =
      Tree.meaningBy Value.meaning decision.tree ↔
    (∀ value ∈ decision.values fun value => [value], value.Canonical catalog) ∧
      ¬(decision.rows.isEmpty = true ∧ kind = .conditional ∧ decision.otherwise.IsLiteral) := by
  have htrees (left right : Decision Value) : left.tree = right.tree ↔ left = right :=
    ⟨tree_injective, congrArg tree⟩
  obtain ⟨hrows, hotherwise⟩ := forall_values_iff.mp hcompiles
  have hrow : ∀ row ∈ decision.rows,
      ((row.1.normal catalog).meaning = row.1.meaning ∧
        row.2.Steady catalog kind false) ↔
      (row.1.left.Canonical catalog ∧ row.1.right.Canonical catalog ∧
        ∀ value ∈ [row.2], value.Canonical catalog) := by
    intro row hmem
    obtain ⟨hleft, hright, hresult⟩ := hrows row hmem
    have houtcome := hresult row.2 (List.mem_singleton_self _)
    rw [Condition.meaning_normal_iff kind, Value.steady_inner_iff hleft,
      Value.steady_inner_iff hright, Value.steady_inner_iff houtcome, List.forall_mem_singleton,
      and_assoc]
  have hlast : decision.otherwise.Steady catalog kind decision.rows.isEmpty ↔
      decision.otherwise.Canonical catalog ∧
        ¬(decision.rows.isEmpty = true ∧ kind = .conditional ∧ decision.otherwise.IsLiteral) :=
    Value.steady_iff (hotherwise _ (List.mem_singleton_self _))
  rw [meaningBy_tree, meaningBy_tree, htrees, map_map, map_eq_map_iff, forall_values_iff,
    List.forall_mem_singleton, and_assoc, ← hlast, ← forall₂_congr hrow]
  rfl

namespace IfTree

variable {catalog : Catalog} {kind : TreeKind} {tree : IfTree}

/-- What is loaded after a save is equivalent to what was saved exactly if that is one
decision of canonical values, and no literal that a conditional tree settles. -/
theorem equivalent_reloaded_iff (hcompiles : ∀ value ∈ tree.values, value.fault? = none) :
    equivalent (tree.reloaded catalog kind) tree = true ↔
      Tree.IsDecision tree ∧ (∀ value ∈ tree.values, value.Canonical catalog) ∧
        (kind = .conditional → ∀ text selector, tree ≠ .returns (.literal text selector)) := by
  rw [equivalent_iff, reloaded_eq]
  by_cases hdecision : Tree.IsDecision tree
  · obtain ⟨decision, rfl⟩ : ∃ decision : Decision Value, decision.tree = tree :=
      ⟨Tree.decision tree, hdecision.tree_decision⟩
    rw [values, Decision.values_tree] at hcompiles ⊢
    rw [Decision.decision_tree, Decision.meaningBy_reread_iff hcompiles]
    simp only [hdecision, true_and, ne_eq, Decision.tree_eq_returns_iff, Value.IsLiteral]
    refine and_congr_right fun _ => ?_
    constructor
    · rintro hnone hkind text selector ⟨hrows, hliteral⟩
      exact hnone ⟨hrows, hkind, text, selector, hliteral⟩
    · rintro hnone ⟨hrows, hkind, text, selector, hliteral⟩
      exact hnone hkind text selector ⟨hrows, hliteral⟩
  · -- What is loaded is always one decision, which a tree of another shape never means.
    constructor
    · intro hsame
      have hmeaning : Tree.IsDecision (Tree.meaningBy Value.meaning tree) := by
        rw [← hsame, Tree.isDecision_meaningBy]
        exact Tree.isDecision_tree _
      exact absurd (Tree.isDecision_meaningBy.mp hmeaning) hdecision
    · rintro ⟨hsame, -⟩
      exact absurd hsame hdecision

end IfTree

namespace TreeStore

/-- A round trip through a fresh store preserves exactly the trees that are one decision of
canonical values, except for the literals that a conditional tree returns alone. -/
theorem saveIf_loadIf_preserves_iff (catalog : Catalog) (key : String) (kind : TreeKind)
    {tree : IfTree} {compiled : CompiledTree} (hcompile : tree.compile = .ok compiled) :
    ∃ saved after loaded, (empty none).saveIf key tree kind = (.ok saved, after) ∧
      after.loadIf key catalog = .ok loaded ∧
      (IfTree.equivalent loaded tree = true ↔
        Tree.IsDecision tree ∧ (∀ value ∈ tree.values, value.Canonical catalog) ∧
          (kind = .conditional → ∀ text selector, tree ≠ .returns (.literal text selector))) := by
  have hroom : (empty none).HasRoom
      (1 + compiled.expressions.length + compiled.branches.length) := hasRoom_of_unlimited rfl _
  obtain ⟨saved, after, hsaved, hloaded⟩ :=
    saveIf_loadIf (Integrity.empty none) hcompile hroom key kind
  have hcompiles := IfTree.compiles_iff.mp ⟨compiled, hcompile⟩
  exact ⟨saved, after, tree.reloaded catalog kind, hsaved, hloaded catalog,
    IfTree.equivalent_reloaded_iff hcompiles⟩

/-- A guarded number over the variable without content. -/
theorem saveIf_loadIf_preserves_guarded :
    let adult : Condition := ⟨.emptyVariable, .atLeast, .literal "18" none⟩
    let tree : IfTree :=
      .decides [⟨adult, .returns (.literal "2.5" none)⟩] (.returns (.boolean false none))
    ∃ compiled saved after loaded, tree.compile = .ok compiled ∧
      (empty none).saveIf "roundtrip" tree .conditional = (.ok saved, after) ∧
      after.loadIf "roundtrip" .empty = .ok loaded ∧ IfTree.equivalent loaded tree = true := by
  intro adult tree
  have hcompile : tree.compile.isOk = true := by decide +kernel
  have hliteral : ∀ text ∈ ["18", "2.5"],
      (literalNumber? text).map Decimal.plainText = some text := by decide +kernel
  obtain ⟨compiled, hresult⟩ := exists_of_isOk hcompile
  obtain ⟨saved, after, loaded, hsaved, hloaded, hpreserved⟩ :=
    saveIf_loadIf_preserves_iff .empty "roundtrip" .conditional hresult
  refine ⟨compiled, saved, after, loaded, hresult, hsaved, hloaded, hpreserved.mpr ⟨?_, ?_, ?_⟩⟩
  · refine ⟨by simp, ?_, _, rfl⟩
    intro case hcase
    rw [List.mem_singleton.mp hcase]
    exact ⟨_, rfl⟩
  · have hcanonical : ∀ text ∈ ["18", "2.5"], (Value.literal text none).Canonical .empty := by
      intro text htext
      obtain ⟨number, hnumber, hwritten⟩ := Option.map_eq_some_iff.mp (hliteral text htext)
      exact ⟨number, hnumber, hwritten.symm⟩
    have hvariable : Value.emptyVariable.Canonical .empty := by
      refine ⟨Or.inr ⟨rfl, rfl⟩, ?_⟩
      rintro ⟨-, hfound⟩
      revert hfound
      decide
    have hboolean : (Value.boolean false none).Canonical .empty := trivial
    simp only [tree, adult, IfTree.values, Tree.values, Tree.caseValues,
      List.forall_mem_append, List.forall_mem_cons, List.not_mem_nil, false_implies,
      implies_true, and_true]
    exact ⟨⟨hvariable, hcanonical "18" (by simp), hcanonical "2.5" (by simp)⟩, hboolean⟩
  · simp [tree]

end TreeStore

end DecisionCanvas
