import DecisionCanvas.Proofs.Compiled.Failure
import DecisionCanvas.Proofs.Compiled.Reading
import DecisionCanvas.Proofs.Decimal.PlainText
import DecisionCanvas.Proofs.Tree.Decision

/-!
# Reading back again and again

Reading a value back gives its normal form, and most normal forms are their own.  Only a
variable may still change: the catalog may have put it into a scope in which its key is
read as the id of a statement, or may know the empty key that stands for a variable it
does not know.  Either way the next normal form is the last.
-/

namespace DecisionCanvas

/-- A catalog none of whose keys is empty or the text of a UUID. -/
def Catalog.PlainKeys (catalog : Catalog) : Prop :=
  ∀ definition ∈ catalog.definitions, definition.1 ≠ "" ∧ Uuid.ofText? definition.1 = none

theorem Catalog.PlainKeys.of_lookup {catalog : Catalog} (hplain : catalog.PlainKeys)
    {key : String} {fact : FactDefinition} (hlookup : catalog.lookup key = some fact) :
    key ≠ "" ∧ Uuid.ofText? key = none := by
  obtain ⟨before, after, hsplit, -⟩ := List.lookup_eq_some_iff.mp hlookup
  apply hplain (key, fact)
  rw [← List.mem_reverse, hsplit]
  exact List.mem_append_right _ List.mem_cons_self

theorem finite_of_literalNumber? {text : String} {number : Float}
    (hnumber : literalNumber? text = some number) : number.isFinite = true := by
  rw [literalNumber?] at hnumber
  split at hnumber
  · rw [← Option.some.inj hnumber]
    decide +kernel
  · exact (Option.filter_eq_some_iff.mp hnumber).2

namespace Value

/-- Whether the number of a literal is read from the text it is written as. -/
def ReadsBack : Value → Prop
  | .literal text _ => ∀ number ∈ literalNumber? text, Decimal.ReadsBack number
  | _ => True

instance (value : Value) : Decidable value.ReadsBack :=
  match value with
  | .literal text _ =>
    inferInstanceAs (Decidable (∀ number ∈ literalNumber? text, Decimal.ReadsBack number))
  | .variable _ _ | .statement _ _ | .boolean _ _ | .choice _ _ | .unsupported =>
    .isTrue trivial

/-- A value that can be compiled, now and after it was read back. -/
structure Storable (value : Value) : Prop where
  fault?_eq : value.fault? = none
  readsBack : value.ReadsBack

/-- What a value is read back as.  The kind of the tree counts where the value is all that
is returned. -/
def reread (catalog : Catalog) (kind : TreeKind) (alone : Bool) (value : Value) : Value :=
  if alone then kind.settle (value.normal catalog) else value.normal catalog

/-- A value that means the same after it was read back. -/
def Steady (catalog : Catalog) (kind : TreeKind) (alone : Bool) (value : Value) : Prop :=
  (value.reread catalog kind alone).meaning = value.meaning

variable {catalog : Catalog} {kind : TreeKind} {alone : Bool}

/-! ## Literals -/

theorem storable_literal_iff {text : String} {selector : Option Uuid} :
    (literal text selector).Storable ↔
      ∃ number, literalNumber? text = some number ∧ Decimal.ReadsBack number := by
  constructor
  · rintro ⟨hfault, hreads⟩
    cases hnumber : literalNumber? text with
    | none => simp [fault?, hnumber] at hfault
    | some number => exact ⟨number, rfl, hreads number hnumber⟩
  · rintro ⟨number, hnumber, hreads⟩
    constructor
    · rw [fault?, hnumber]
    · intro found hfound
      rw [hnumber] at hfound
      rw [← Option.some.inj hfound]
      exact hreads

/-- A literal that can be stored is read back as one that is its own normal form. -/
theorem normal_literal (catalog : Catalog) {text : String} {selector : Option Uuid}
    (hstorable : (literal text selector).Storable) :
    ∃ written, (literal text selector).normal catalog = literal written none ∧
      (literal written none).normal catalog = literal written none ∧
      (literal written none).Storable := by
  obtain ⟨number, hnumber, hreads⟩ := storable_literal_iff.mp hstorable
  have hagain := literalNumber?_plainText (finite_of_literalNumber? hnumber) hreads
  refine ⟨Decimal.plainText number, ?_, ?_, storable_literal_iff.mpr ⟨number, hagain, hreads⟩⟩
  · rw [normal, hnumber]
  · rw [normal, hagain]

/-- Settling leaves a literal as it is or makes it a truth value. -/
theorem settle_literal (kind : TreeKind) (text : String) (selector : Option Uuid) :
    kind.settle (literal text selector) = literal text selector ∨
      ∃ truth, kind.settle (literal text selector) = boolean truth selector := by
  rw [TreeKind.settle, coerceBoolean]
  cases literalTruth? text with
  | none => simp
  | some truth => by_cases hkind : kind = .conditional <;> simp [hkind]

/-- Only literals are settled. -/
theorem settle_eq_self (kind : TreeKind) {value : Value}
    (hvalue : ∀ text selector, value ≠ .literal text selector) : kind.settle value = value := by
  match value with
  | .literal text selector => exact absurd rfl (hvalue text selector)
  | .variable _ _ | .statement _ _ | .boolean _ _ | .choice _ _ | .unsupported =>
      cases kind <;> rfl

theorem reread_eq_normal (catalog : Catalog) (kind : TreeKind) (alone : Bool) {value : Value}
    (hnormal : ∀ text selector, value.normal catalog ≠ .literal text selector) :
    value.reread catalog kind alone = value.normal catalog := by
  rw [reread, settle_eq_self kind hnormal, ite_self]

/-- A literal is read back as a literal or a truth value that is kept from then on. -/
theorem reread_literal (catalog : Catalog) (kind : TreeKind) (alone : Bool) {text : String}
    {selector : Option Uuid} (hstorable : (literal text selector).Storable) :
    let result := (literal text selector).reread catalog kind alone
    result.reread catalog kind alone = result ∧
      ((∃ truth, result = boolean truth none) ∨
        ∃ written, result = literal written none ∧ result.Storable) := by
  obtain ⟨written, hnormal, hagain, hwritten⟩ := normal_literal catalog hstorable
  cases alone with
  | false =>
      have hresult : (literal text selector).reread catalog kind false = literal written none :=
        hnormal
      rw [hresult]
      exact ⟨hagain, Or.inr ⟨written, rfl, hwritten⟩⟩
  | true =>
      have hresult : (literal text selector).reread catalog kind true =
          kind.settle (literal written none) := by rw [← hnormal]; rfl
      obtain hsettled | ⟨truth, hsettled⟩ := settle_literal kind written none
      · rw [hresult, hsettled]
        refine ⟨?_, Or.inr ⟨written, rfl, hwritten⟩⟩
        rw [reread, if_pos rfl, hagain, hsettled]
      · rw [hresult, hsettled]
        refine ⟨?_, Or.inl ⟨truth, rfl⟩⟩
        apply reread_eq_normal
        simp [normal]

/-! ## Variables -/

theorem reread_statement (held : Option String) (selector : Uuid) :
    (statement held selector).reread catalog kind alone =
      statement (some selector.text) selector := by
  apply reread_eq_normal
  simp [normal]

theorem variableFor_ne_literal (catalog : Catalog) (key text : String)
    (selector : Option Uuid) : catalog.variableFor key ≠ literal text selector := by
  rw [Catalog.variableFor]
  cases catalog.lookup key <;> simp [emptyVariable]

/-- A variable of another scope than that of facts is written like a statement if its key is
the text of an id. -/
theorem normal_variable_cases (catalog : Catalog) (reference : Variable)
    (selector : Option Uuid) :
    (Value.variable reference selector).normal catalog = catalog.variableFor reference.key ∨
      ∃ found, reference.scope ≠ factScope ∧ Uuid.ofText? reference.key = some found ∧
        (Value.variable reference selector).normal catalog =
          statement (some reference.key) found := by
  rw [normal]
  split
  · exact Or.inl rfl
  · rename_i hscope
    cases hfound : Uuid.ofText? reference.key with
    | none => exact Or.inl rfl
    | some found => exact Or.inr ⟨found, hscope, rfl, rfl⟩

/-- A variable is read back as what the catalog has under its key, unless it is taken for a
statement. -/
theorem reread_variable (catalog : Catalog) (kind : TreeKind) (alone : Bool)
    (reference : Variable) (selector : Option Uuid) :
    let result := (Value.variable reference selector).reread catalog kind alone
    result = catalog.variableFor reference.key ∨
      ∃ found, Uuid.ofText? reference.key = some found ∧
        result = statement (some reference.key) found := by
  have hnormal := normal_variable_cases catalog reference selector
  have hresult : (Value.variable reference selector).reread catalog kind alone =
      (Value.variable reference selector).normal catalog := by
    apply reread_eq_normal
    intro text other
    obtain hvariable | ⟨found, -, -, hstatement⟩ := hnormal
    · rw [hvariable]
      exact variableFor_ne_literal catalog reference.key text other
    · simp [hstatement]
  intro result
  rw [← hresult] at hnormal
  obtain hvariable | ⟨found, -, hfound, hstatement⟩ := hnormal
  · exact Or.inl hvariable
  · exact Or.inr ⟨found, hfound, hstatement⟩

theorem reread_emptyVariable :
    emptyVariable.reread catalog kind alone = catalog.variableFor "" := by
  have hempty : Uuid.ofText? "" = none := by decide
  obtain hread | ⟨found, hfound, -⟩ := reread_variable catalog kind alone ⟨"", "", "", ""⟩ none
  · exact hread
  · rw [hempty] at hfound
    exact absurd hfound (by simp)

theorem variableFor_of_none {key : String} (hlookup : catalog.lookup key = none) :
    catalog.variableFor key = emptyVariable := by
  rw [Catalog.variableFor, hlookup]

theorem variableFor_of_some {key : String} {fact : FactDefinition}
    (hlookup : catalog.lookup key = some fact) :
    catalog.variableFor key = .variable ⟨key, fact.id, fact.type, fact.scope⟩ none := by
  rw [Catalog.variableFor, hlookup]

/-! ## Values that stay -/

theorem steady_statement (held : Option String) (selector : Uuid) :
    (statement held selector).Steady catalog kind alone := by
  rw [Steady, reread_statement]
  rfl

theorem steady_boolean (truth : Bool) (selector : Option Uuid) :
    (boolean truth selector).Steady catalog kind alone := by
  rw [Steady, reread_eq_normal _ _ _ (by simp [normal])]
  rfl

theorem steady_choice (option : String) (selector : Option Uuid) :
    (choice option selector).Steady catalog kind alone := by
  rw [Steady, reread_eq_normal _ _ _ (by simp [normal])]
  rfl

theorem steady_variableFor {key : String}
    (hknown : ∀ fact, catalog.lookup key = some fact → Uuid.ofText? key = none)
    (hunknown : catalog.lookup key = none → catalog.lookup "" = none) :
    (catalog.variableFor key).Steady catalog kind alone := by
  rw [Steady]
  cases hlookup : catalog.lookup key with
  | none =>
      rw [variableFor_of_none hlookup, reread_emptyVariable,
        variableFor_of_none (hunknown hlookup)]
  | some fact =>
      have hvariable := variableFor_of_some hlookup
      obtain hread | ⟨found, hfound, -⟩ :=
        reread_variable catalog kind alone ⟨key, fact.id, fact.type, fact.scope⟩ none
      · rw [hvariable, hread, hvariable]
      · simp only [hknown fact hlookup, reduceCtorEq] at hfound

theorem steady_variableFor_of_plainKeys (hplain : catalog.PlainKeys) (key : String) :
    (catalog.variableFor key).Steady catalog kind alone := by
  apply steady_variableFor
  · intro fact hlookup
    exact (hplain.of_lookup hlookup).2
  · intro _
    cases hempty : catalog.lookup "" with
    | none => rfl
    | some fact => exact absurd rfl (hplain.of_lookup hempty).1

/-- What the catalog has under a key changes at most once more. -/
theorem steady_reread_variableFor (key : String) :
    ((catalog.variableFor key).reread catalog kind alone).Steady catalog kind alone := by
  cases hlookup : catalog.lookup key with
  | none =>
      rw [variableFor_of_none hlookup, reread_emptyVariable]
      apply steady_variableFor _ id
      intro fact _
      decide
  | some fact =>
      have hvariable := variableFor_of_some hlookup
      obtain hread | ⟨found, -, hread⟩ :=
        reread_variable catalog kind alone ⟨key, fact.id, fact.type, fact.scope⟩ none
      · rw [hvariable, hread, Steady, hvariable, hread, hvariable]
      · rw [hvariable, hread]
        exact steady_statement _ found

/-! ## All values -/

theorem Storable.reread {value : Value} (hstorable : value.Storable) (catalog : Catalog)
    (kind : TreeKind) (alone : Bool) : (value.reread catalog kind alone).Storable := by
  have hvariable : ∀ key, (catalog.variableFor key).Storable := by
    intro key
    cases hlookup : catalog.lookup key with
    | none =>
        rw [variableFor_of_none hlookup]
        exact ⟨rfl, trivial⟩
    | some fact =>
        rw [variableFor_of_some hlookup]
        exact ⟨rfl, trivial⟩
  match value with
  | .literal text selector =>
      obtain ⟨-, ⟨truth, hread⟩ | ⟨written, -, hread⟩⟩ :=
        reread_literal catalog kind alone hstorable
      · rw [hread]
        exact ⟨rfl, trivial⟩
      · exact hread
  | .variable reference selector =>
      obtain hread | ⟨found, -, hread⟩ := reread_variable catalog kind alone reference selector
      · rw [hread]
        exact hvariable reference.key
      · rw [hread]
        exact ⟨rfl, trivial⟩
  | .statement held selector =>
      rw [reread_statement]
      exact ⟨rfl, trivial⟩
  | .boolean _ _ | .choice _ _ =>
      rw [reread_eq_normal _ _ _ (by simp [normal])]
      exact ⟨rfl, trivial⟩
  | .unsupported => exact absurd hstorable.fault?_eq (by simp [fault?])

/-- Whatever is not a variable stays once it was read back. -/
theorem steady_reread {value : Value} (hstorable : value.Storable)
    (hvalue : ∀ reference selector, value ≠ .variable reference selector) :
    (value.reread catalog kind alone).Steady catalog kind alone := by
  match value with
  | .literal text selector =>
      have hread := (reread_literal catalog kind alone hstorable).1
      rw [Steady, hread]
  | .variable reference selector => exact absurd rfl (hvalue reference selector)
  | .statement held selector =>
      rw [reread_statement]
      exact steady_statement _ selector
  | .boolean truth selector =>
      rw [reread_eq_normal _ _ _ (by simp [normal])]
      exact steady_boolean truth none
  | .choice option selector =>
      rw [reread_eq_normal _ _ _ (by simp [normal])]
      exact steady_choice option none
  | .unsupported => exact absurd hstorable.fault?_eq (by simp [fault?])

theorem reread_variableFor_or {value : Value} (hstorable : value.Storable) :
    (∃ key, value.reread catalog kind alone = catalog.variableFor key) ∨
      ∀ reference selector,
        value.reread catalog kind alone ≠ .variable reference selector := by
  match value with
  | .literal text selector =>
      obtain ⟨-, ⟨truth, hread⟩ | ⟨written, hread, -⟩⟩ :=
        reread_literal catalog kind alone hstorable
      · exact Or.inr (by simp [hread])
      · exact Or.inr (by simp [hread])
  | .variable reference selector =>
      obtain hread | ⟨found, -, hread⟩ := reread_variable catalog kind alone reference selector
      · exact Or.inl ⟨reference.key, hread⟩
      · exact Or.inr (by simp [hread])
  | .statement _ _ | .boolean _ _ | .choice _ _ | .unsupported =>
      rw [reread_eq_normal _ _ _ (by simp [normal])]
      exact Or.inr (by simp [normal])

/-- With plain keys in the catalog nothing changes any more once it was read back. -/
theorem steady_reread_of_plainKeys (hplain : catalog.PlainKeys) {value : Value}
    (hstorable : value.Storable) :
    (value.reread catalog kind alone).Steady catalog kind alone := by
  match value with
  | .variable reference selector =>
      obtain hread | ⟨found, -, hread⟩ := reread_variable catalog kind alone reference selector
      · rw [hread]
        exact steady_variableFor_of_plainKeys hplain reference.key
      · rw [hread]
        exact steady_statement _ found
  | .literal _ _ | .statement _ _ | .boolean _ _ | .choice _ _ | .unsupported =>
      exact steady_reread hstorable (by simp)

/-- With any catalog nothing changes any more once it was read back twice, wherever it
stood at first. -/
theorem steady_reread_reread {value : Value} (hstorable : value.Storable) (first : Bool) :
    ((value.reread catalog kind first).reread catalog kind alone).Steady catalog kind alone := by
  obtain ⟨key, hread⟩ | hread := reread_variableFor_or hstorable
  · rw [hread]
    exact steady_reread_variableFor key
  · exact steady_reread (hstorable.reread catalog kind first) hread

/-- Once is not enough where the catalog moves a UUID key out of the scope of facts. -/
example :
    let key := "00000000-0000-0000-0000-000000000007"
    let catalog : Catalog := ⟨[(key, ⟨"f-age", "number", "order"⟩)]⟩
    let value : Value := .variable ⟨key, "f-age", "number", factScope⟩ none
    ¬ (value.reread catalog .numeric true).Steady catalog .numeric true := by
  unfold Steady
  decide

end Value

/-! ## Trees -/

/-- A value that is kept once it was read back, wherever it stands. -/
def Value.SteadyOnceRead (catalog : Catalog) (kind : TreeKind) (value : Value) : Prop :=
  ∀ alone, (value.reread catalog kind alone).Steady catalog kind alone

theorem Condition.meaning_normal_normal {catalog : Catalog} {kind : TreeKind}
    {condition : Condition} (hleft : condition.left.SteadyOnceRead catalog kind)
    (hright : condition.right.SteadyOnceRead catalog kind) :
    ((condition.normal catalog).normal catalog).meaning = (condition.normal catalog).meaning := by
  have hleftMeaning : ((condition.left.normal catalog).normal catalog).meaning =
      (condition.left.normal catalog).meaning := hleft false
  have hrightMeaning : ((condition.right.normal catalog).normal catalog).meaning =
      (condition.right.normal catalog).meaning := hright false
  simp only [meaning, normal, hleftMeaning, hrightMeaning]

theorem Adjustment.meaning_normal_normal {catalog : Catalog} {adjustment : Adjustment}
    (hvalue : adjustment.value.SteadyOnceRead catalog .numeric) :
    ((adjustment.normal catalog).normal catalog).meaning =
      (adjustment.normal catalog).meaning := by
  have hmeaning : ((adjustment.value.normal catalog).normal catalog).meaning =
      (adjustment.value.normal catalog).meaning := hvalue false
  simp only [meaning, normal, hmeaning]

/-- How the outcomes of trees are read back: value by value, so that an outcome of values
that are kept once they were read back is kept as well. -/
structure Rereads {Outcome : Type} (catalog : Catalog) (kind : TreeKind)
    (ofOutcome : Outcome → List Value) (meaning : Outcome → Outcome)
    (onOutcome : Bool → Outcome → Outcome) : Prop where
  exists_original : ∀ {alone outcome}, ∀ value ∈ ofOutcome (onOutcome alone outcome),
    ∃ original ∈ ofOutcome outcome, ∃ place, value = original.reread catalog kind place
  kept : ∀ {alone outcome}, (∀ value ∈ ofOutcome outcome, value.SteadyOnceRead catalog kind) →
    meaning (onOutcome alone (onOutcome alone outcome)) = meaning (onOutcome alone outcome)

theorem Value.rereads (catalog : Catalog) (kind : TreeKind) :
    Rereads catalog kind (fun value => [value]) meaning (reread catalog kind) where
  exists_original := by
    intro alone outcome value hvalue
    exact ⟨outcome, List.mem_singleton_self outcome, alone, List.mem_singleton.mp hvalue⟩
  kept := by
    intro alone outcome hsteady
    exact hsteady outcome (List.mem_singleton_self outcome) alone

theorem Adjustment.rereads (catalog : Catalog) :
    Rereads catalog .numeric (List.map value) (List.map meaning)
      fun _ => List.map (normal catalog) where
  exists_original := by
    intro alone adjustments value hvalue
    rw [List.map_map] at hvalue
    obtain ⟨adjustment, hadjustment, rfl⟩ := List.mem_map.mp hvalue
    exact ⟨adjustment.value, List.mem_map_of_mem hadjustment, false, rfl⟩
  kept := by
    intro alone adjustments hsteady
    rw [List.map_map, List.map_map, List.map_map]
    apply List.map_congr_left
    intro adjustment hadjustment
    exact meaning_normal_normal (hsteady _ (List.mem_map_of_mem hadjustment))

namespace Rereads

variable {Outcome : Type} {catalog : Catalog} {kind : TreeKind}
variable {ofOutcome : Outcome → List Value} {meaning : Outcome → Outcome}
variable {onOutcome : Bool → Outcome → Outcome} {tree : Tree Outcome}

/-- The values of what is read back are values of the tree, read back. -/
theorem forall_values (hrereads : Rereads catalog kind ofOutcome meaning onOutcome)
    {holds becomes : Value → Prop}
    (hread : ∀ value place, holds value → becomes (value.reread catalog kind place))
    (hvalues : ∀ value ∈ tree.values ofOutcome, holds value) :
    ∀ value ∈ (tree.decision.map (Condition.normal catalog) onOutcome).tree.values ofOutcome,
      becomes value := by
  have hdecision : ∀ value ∈ tree.decision.values ofOutcome, holds value :=
    fun value hvalue => hvalues value (Tree.mem_values_of_decision hvalue)
  rw [Decision.values_tree]
  refine Decision.forall_values_map ?_ ?_ hdecision
  · intro condition hleft hright
    exact ⟨hread _ false hleft, hread _ false hright⟩
  · intro alone outcome houtcome value hvalue
    obtain ⟨original, horiginal, place, rfl⟩ := hrereads.exists_original value hvalue
    exact hread original place (houtcome original horiginal)

/-- What is read back again means the same if all values are kept. -/
theorem meaningBy_reread (hrereads : Rereads catalog kind ofOutcome meaning onOutcome)
    (hsteady : ∀ value ∈ tree.values ofOutcome, value.SteadyOnceRead catalog kind) :
    let first := (tree.decision.map (Condition.normal catalog) onOutcome).tree
    let second := (first.decision.map (Condition.normal catalog) onOutcome).tree
    Tree.meaningBy meaning second = Tree.meaningBy meaning first := by
  have hdecision : ∀ value ∈ tree.decision.values ofOutcome,
      value.SteadyOnceRead catalog kind :=
    fun value hvalue => hsteady value (Tree.mem_values_of_decision hvalue)
  intro first second
  rw [Decision.meaningBy_tree, Decision.meaningBy_tree, Decision.decision_tree,
    Decision.map_map, Decision.map_map, Decision.map_map]
  congr 1
  refine Decision.map_congr ?_ ?_ hdecision
  · intro condition hleft hright
    exact Condition.meaning_normal_normal hleft hright
  · intro alone outcome houtcome
    exact hrereads.kept houtcome

end Rereads

namespace IfTree

variable {catalog : Catalog} {kind : TreeKind} {tree : IfTree}

theorem reloaded_eq (catalog : Catalog) (kind : TreeKind) (tree : IfTree) :
    tree.reloaded catalog kind =
      ((Tree.decision tree).map (Condition.normal catalog) (Value.reread catalog kind)).tree :=
  Tree.ofReturns_map_guardedReturns _ _ _ _ tree

theorem forall_values_reloaded {holds becomes : Value → Prop}
    (hread : ∀ value place, holds value → becomes (value.reread catalog kind place))
    (hvalues : ∀ value ∈ tree.values, holds value) :
    ∀ value ∈ (tree.reloaded catalog kind).values, becomes value := by
  rw [reloaded_eq]
  exact (Value.rereads catalog kind).forall_values hread hvalues

theorem reloaded_reloaded_equivalent
    (hsteady : ∀ value ∈ tree.values, value.SteadyOnceRead catalog kind) :
    equivalent ((tree.reloaded catalog kind).reloaded catalog kind)
      (tree.reloaded catalog kind) = true := by
  rw [equivalent_iff, reloaded_eq catalog kind (tree.reloaded catalog kind), reloaded_eq]
  exact (Value.rereads catalog kind).meaningBy_reread hsteady

end IfTree

namespace AdjustmentTree

variable {catalog : Catalog} {tree : AdjustmentTree}

theorem reloaded_eq (catalog : Catalog) (tree : AdjustmentTree) :
    tree.reloaded catalog =
      ((Tree.decision tree).map (Condition.normal catalog)
        fun _ => List.map (Adjustment.normal catalog)).tree := by
  rw [reloaded, Tree.ofReturns_map_guardedReturns]
  simp only [id, ite_self]

theorem forall_values_reloaded {holds becomes : Value → Prop}
    (hread : ∀ value place, holds value → becomes (value.reread catalog .numeric place))
    (hvalues : ∀ value ∈ tree.values, holds value) :
    ∀ value ∈ (tree.reloaded catalog).values, becomes value := by
  rw [reloaded_eq]
  exact (Adjustment.rereads catalog).forall_values hread hvalues

theorem reloaded_reloaded_equivalent
    (hsteady : ∀ value ∈ tree.values, value.SteadyOnceRead catalog .numeric) :
    equivalent ((tree.reloaded catalog).reloaded catalog) (tree.reloaded catalog) = true := by
  rw [equivalent_iff, reloaded_eq catalog (tree.reloaded catalog), reloaded_eq]
  exact (Adjustment.rereads catalog).meaningBy_reread hsteady

end AdjustmentTree

end DecisionCanvas
