import DecisionCanvas.Proofs.Compiled.Failure
import DecisionCanvas.Proofs.Compiled.Stabilization

/-!
# Which values are refused

A value is refused if it is of no known kind, or if it is a literal whose text is neither
blank nor the numeral of a finite number.  Trees without such a value are compiled, to
finite numbers only; all others fail with the error of their first refused value, in the
order of evaluation.
-/

namespace DecisionCanvas

/-- Whether an item of a list is the first one with a property. -/
def FirstWith {Item : Type} (holds : Item → Prop) (items : List Item) (first : Item) : Prop :=
  ∃ before after, items = before ++ first :: after ∧ holds first ∧
    ∀ earlier ∈ before, ¬ holds earlier

theorem exists_firstWith_iff {Item Found : Type} {find : Item → Option Found}
    {items : List Item} {found : Found} :
    items.findSome? find = some found ↔
      ∃ item, FirstWith (fun other => find other ≠ none) items item ∧ find item = some found := by
  rw [List.findSome?_eq_some_iff]
  constructor
  · rintro ⟨before, item, after, hitems, hfound, hbefore⟩
    refine ⟨item, ⟨before, after, hitems, by simp [hfound], ?_⟩, hfound⟩
    intro earlier hearlier
    exact not_not_intro (hbefore earlier hearlier)
  · rintro ⟨item, ⟨before, after, hitems, -, hbefore⟩, hfound⟩
    refine ⟨before, item, after, hitems, hfound, ?_⟩
    intro earlier hearlier
    exact not_not.mp (hbefore earlier hearlier)

theorem literalNumber?_eq_none_iff {text : String} :
    literalNumber? text = none ↔ Text.trimChars text.toList ≠ [] ∧
      ∀ number, Decimal.readNumeral (Text.trimChars text.toList) = some number →
        number.isFinite = false := by
  rw [literalNumber?]
  by_cases hblank : Text.trimChars text.toList = []
  · simp [hblank]
  · simp [hblank, Option.filter_eq_none_iff]

namespace Value

/-- The error of a value that has no compiled form.  A literal is named by its text as it
stands, blanks at its ends included. -/
inductive RefusedWith : Value → CompileError → Prop where
  | unsupported : RefusedWith .unsupported .unsupportedValue
  | literal {text : String} {selector : Option Uuid}
    (hblank : Text.trimChars text.toList ≠ [])
    (hinfinite : ∀ number, Decimal.readNumeral (Text.trimChars text.toList) = some number →
      number.isFinite = false) :
    RefusedWith (.literal text selector) (.invalidLiteral text)

/-- A value that has no compiled form. -/
def Refused (value : Value) : Prop :=
  ∃ error, value.RefusedWith error

theorem fault?_eq_some_iff {value : Value} {error : CompileError} :
    value.fault? = some error ↔ value.RefusedWith error := by
  constructor
  · intro hfault
    match value with
    | .literal text selector =>
        rw [fault?] at hfault
        cases hnumber : literalNumber? text with
        | some number => simp [hnumber] at hfault
        | none =>
            simp only [hnumber, Option.some.injEq] at hfault
            obtain ⟨hblank, hinfinite⟩ := literalNumber?_eq_none_iff.mp hnumber
            exact hfault ▸ .literal hblank hinfinite
    | .unsupported =>
        simp only [fault?, Option.some.injEq] at hfault
        exact hfault ▸ .unsupported
    | .variable _ _ | .statement _ _ | .boolean _ _ | .choice _ _ => simp [fault?] at hfault
  · intro hrefused
    cases hrefused with
    | unsupported => rfl
    | literal hblank hinfinite =>
        rw [fault?, literalNumber?_eq_none_iff.mpr ⟨hblank, hinfinite⟩]

theorem refused_iff {value : Value} : value.Refused ↔ value.fault? ≠ none := by
  rw [Option.ne_none_iff_exists', Refused]
  exact exists_congr fun error => fault?_eq_some_iff.symm

end Value

/-! ## Numbers of compiled trees -/

/-- Whether the number of an expression is finite, if it has one. -/
def Expression.FiniteNumber (expression : Expression) : Prop :=
  ∀ number, expression.number = some number → number.isFinite = true

theorem Value.finiteNumber_of_lower {position : Nat} {value : Value} {expression : Expression}
    (hlower : value.lower position = .ok expression) : expression.FiniteNumber := by
  match value with
  | .literal text selector =>
      rw [lower] at hlower
      cases hnumber : literalNumber? text with
      | none => simp [hnumber] at hlower
      | some found =>
          simp only [hnumber, Except.ok.injEq] at hlower
          subst hlower
          intro number hsame
          rw [← Option.some.inj hsame]
          exact finite_of_literalNumber? hnumber
  | .variable _ _ | .statement _ _ | .boolean _ _ | .choice _ _ =>
      simp only [lower, Except.ok.injEq] at hlower
      subst hlower
      intro number hnumber
      cases hnumber
  | .unsupported => simp [lower] at hlower

theorem Condition.finiteNumber_of_lower {position : Nat} {condition : Condition}
    {guard : List Expression} (hlower : condition.lower position = .ok guard) :
    ∀ expression ∈ guard, expression.FiniteNumber := by
  obtain ⟨left, right, hleft, hright, rfl⟩ := lower_eq_ok hlower
  simp only [List.forall_mem_cons]
  refine ⟨Value.finiteNumber_of_lower hleft, Value.finiteNumber_of_lower hright, ?_, by simp⟩
  intro number hnumber
  cases hnumber

/-- Whether compiling an outcome leads to finite numbers only. -/
def LowerOutcome.Finite {Outcome : Type} (lower : LowerOutcome Outcome) : Prop :=
  ∀ {position outcome expressions result},
    lower position outcome = .ok (expressions, result) →
      ∀ expression ∈ expressions, expression.FiniteNumber

theorem Value.lowerOutcome_finite : LowerOutcome.Finite Value.lowerOutcome := by
  intro position value expressions result hlower
  obtain ⟨expression, hvalue, rfl, -⟩ := lowerOutcome_eq_ok hlower
  rw [List.forall_mem_singleton]
  exact finiteNumber_of_lower hvalue

theorem Adjustment.finiteNumber_of_lowerList {position : Nat} {adjustments : List Adjustment}
    {expressions : List Expression} {statements : List StatementRecord}
    (hlower : lowerList position adjustments = .ok (expressions, statements)) :
    ∀ expression ∈ expressions, expression.FiniteNumber := by
  induction adjustments generalizing position expressions statements with
  | nil =>
      rw [lowerList, Except.ok.injEq, Prod.mk.injEq] at hlower
      rw [← hlower.1]
      simp
  | cons adjustment rest ih =>
      obtain ⟨first, others, remaining, hvalue, hrest, rfl, -⟩ := lowerList_cons_eq_ok hlower
      rw [List.forall_mem_cons]
      exact ⟨Value.finiteNumber_of_lower hvalue, ih hrest⟩

theorem Adjustment.lowerOutcome_finite : LowerOutcome.Finite Adjustment.lowerOutcome := by
  intro position adjustments expressions result hlower
  obtain ⟨statements, hlist, -⟩ := lowerOutcome_eq_ok hlower
  exact finiteNumber_of_lowerList hlist

namespace Tree

variable {Outcome : Type} {lower : LowerOutcome Outcome}

theorem flattenInvariant_finite (hlower : lower.Finite) :
    FlattenInvariant lower
      (fun _ _ part => ∀ expression ∈ part.expressions, expression.FiniteNumber)
      (fun _ _ part => ∀ expression ∈ part.expressions, expression.FiniteNumber) where
  returns := fun houtcome => hlower houtcome
  decides := fun hfront hback => List.forall_mem_append.mpr ⟨hfront, hback⟩
  nil := by simp [Flattened.empty]
  cons := by
    intro position condition body rest guard inner others hguard hinner hothers
    have hcase : ∀ expression ∈ (Flattened.ofCase guard position inner).expressions,
        expression.FiniteNumber :=
      List.forall_mem_append.mpr ⟨condition.finiteNumber_of_lower hguard, hinner⟩
    exact List.forall_mem_append.mpr ⟨hcase, hothers⟩

end Tree

theorem IfTree.finiteNumber_of_compile {tree : IfTree} {compiled : CompiledTree}
    (hcompile : tree.compile = .ok compiled) :
    ∀ expression ∈ compiled.expressions, expression.FiniteNumber := by
  obtain ⟨whole, hflatten, rfl⟩ := compile_eq_ok hcompile
  exact (Tree.flattenInvariant_finite Value.lowerOutcome_finite).of_flatten hflatten

theorem AdjustmentTree.finiteNumber_of_compile {tree : AdjustmentTree} {compiled : CompiledTree}
    (hcompile : tree.compile = .ok compiled) :
    ∀ expression ∈ compiled.expressions, expression.FiniteNumber := by
  obtain ⟨whole, hflatten, rfl⟩ := compile_eq_ok hcompile
  exact (Tree.flattenInvariant_finite Adjustment.lowerOutcome_finite).of_flatten hflatten

/-! ## Compiling or failing -/

/-- How compiling ends for a tree with these values in the order of evaluation: with the
error of the first refused value, or if there is none with finite numbers. -/
structure StopsAtRefused (values : List Value) (result : Except CompileError CompiledTree) :
    Prop where
  fails_iff : (∃ error, result = .error error) ↔ ∃ value ∈ values, value.Refused
  error_iff : ∀ error, result = .error error ↔
    ∃ value, FirstWith Value.Refused values value ∧ value.RefusedWith error
  numbers_finite : ∀ compiled, result = .ok compiled →
    ∀ expression ∈ compiled.expressions, expression.FiniteNumber

theorem stopsAtRefused_of_failure? {values : List Value}
    {result : Except CompileError CompiledTree}
    (hfailure : failure? result = values.findSome? Value.fault?)
    (hfinite : ∀ {compiled}, result = .ok compiled →
      ∀ expression ∈ compiled.expressions, expression.FiniteNumber) :
    StopsAtRefused values result where
  fails_iff := by
    calc
      (∃ error, result = .error error) ↔ failure? result ≠ none := by
        rw [Option.ne_none_iff_exists']
        exact exists_congr fun error => failure?_eq_some_iff.symm
      _ ↔ ∃ value ∈ values, value.fault? ≠ none := by
        rw [hfailure, Ne, List.findSome?_eq_none_iff]
        simp only [not_forall, exists_prop, ne_eq]
      _ ↔ ∃ value ∈ values, value.Refused := by
        simp only [Value.refused_iff]
  error_iff := by
    intro error
    have hrefused : Value.Refused = fun value => value.fault? ≠ none := by
      funext value
      exact propext Value.refused_iff
    rw [← failure?_eq_some_iff, hfailure, exists_firstWith_iff, hrefused]
    simp only [Value.fault?_eq_some_iff]
  numbers_finite := fun compiled hcompiled => hfinite hcompiled

/-- A tree of either kind is compiled unless one of its values is refused, and then fails
with the error of the first of them. -/
theorem compile_stopsAtRefused (ifTree : IfTree) (adjustmentTree : AdjustmentTree) :
    StopsAtRefused ifTree.values ifTree.compile ∧
      StopsAtRefused adjustmentTree.values adjustmentTree.compile :=
  ⟨stopsAtRefused_of_failure? ifTree.failure?_compile IfTree.finiteNumber_of_compile,
    stopsAtRefused_of_failure? adjustmentTree.failure?_compile
      AdjustmentTree.finiteNumber_of_compile⟩

/-- The body of a case comes before the next case, and blanks are kept. -/
example : IfTree.compile (.decides
    [⟨⟨.literal "1" none, .less, .literal " " none⟩, .returns (.literal " 1e999" none)⟩,
      ⟨⟨.unsupported, .equal, .boolean true none⟩, .returns .unsupported⟩]
    (.returns (.literal "x" none))) = .error (.invalidLiteral " 1e999") := by
  decide +kernel

end DecisionCanvas
