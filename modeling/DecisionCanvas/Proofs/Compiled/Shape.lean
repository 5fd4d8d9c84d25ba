import DecisionCanvas.Compiled.Flatten
import DecisionCanvas.Proofs.Compiled.Relocation
import Mathlib.Data.List.Nodup

/-!
# The shape of compiled trees

Compiling writes every value down as an operand without children and every condition as
two operands followed by the operator over them.  Positions are counted through, so the
parts of a tree never share an id and whatever a part refers to is its own.
-/

namespace DecisionCanvas

/-! ## What a successful compilation has done -/

theorem exists_of_isOk {Failure Result : Type} {answer : Except Failure Result}
    (hanswer : answer.isOk = true) : ∃ result, answer = .ok result := by
  cases answer with
  | error failure => simp [Except.isOk, Except.toBool] at hanswer
  | ok result => exact ⟨result, rfl⟩

theorem exists_of_not_isOk {Failure Result : Type} {answer : Except Failure Result}
    (hanswer : answer.isOk = false) : ∃ failure, answer = .error failure := by
  cases answer with
  | error failure => exact ⟨failure, rfl⟩
  | ok result => simp [Except.isOk, Except.toBool] at hanswer

theorem scratchId_injective : Function.Injective scratchId := by
  intro left right heq
  simp only [scratchId] at heq
  omega

/-- A compiled value is one operand. -/
theorem Value.lower_eq_ok {position : Nat} {value : Value} {expression : Expression}
    (hlower : value.lower position = .ok expression) :
    expression.id = scratchId position ∧ expression.isOperator = false ∧
      expression.children = [] := by
  match value with
  | .literal text selector =>
      rw [lower] at hlower
      cases hnumber : literalNumber? text with
      | none => simp [hnumber] at hlower
      | some number =>
          simp only [hnumber, Except.ok.injEq] at hlower
          exact hlower ▸ ⟨rfl, rfl, rfl⟩
  | .variable reference selector =>
      simp only [lower, Except.ok.injEq] at hlower
      subst hlower
      refine ⟨rfl, ?_, rfl⟩
      by_cases hscope : reference.scope = factScope <;> simp [Expression.isOperator, hscope]
  | .statement expression selector | .boolean truth selector | .choice option selector =>
      simp only [lower, Except.ok.injEq] at hlower
      exact hlower ▸ ⟨rfl, rfl, rfl⟩
  | .unsupported => simp [lower] at hlower

/-- The operator over two compiled operands. -/
def Condition.operatorExpression (position : Nat) (condition : Condition)
    (left right : Expression) : Expression :=
  { id := scratchId (position + 2), kind := .operator, operator := some condition.operator,
    left := some left.id, right := some right.id }

theorem Condition.lower_eq_ok {position : Nat} {condition : Condition} {guard : List Expression}
    (hlower : condition.lower position = .ok guard) :
    ∃ left right, condition.left.lower position = .ok left ∧
      condition.right.lower (position + 1) = .ok right ∧
      guard = [left, right, condition.operatorExpression position left right] := by
  rw [lower] at hlower
  cases hleft : condition.left.lower position with
  | error error => simp [hleft] at hlower
  | ok left =>
      cases hright : condition.right.lower (position + 1) with
      | error error => simp [hleft, hright] at hlower
      | ok right =>
          simp only [hleft, hright, Except.ok.injEq] at hlower
          exact ⟨left, right, rfl, rfl, hlower.symm⟩

namespace Tree

variable {Outcome : Type} {lower : LowerOutcome Outcome}

theorem flatten_returns_eq_ok {position : Nat} {outcome : Outcome} {part : Flattened}
    (hflatten : flatten lower position (.returns outcome) = .ok part) :
    ∃ expressions result, lower position outcome = .ok (expressions, result) ∧
      part = ⟨expressions, [⟨none, result⟩]⟩ := by
  rw [flatten] at hflatten
  cases houtcome : lower position outcome with
  | error error => simp [houtcome] at hflatten
  | ok lowered =>
      simp only [houtcome, Except.ok.injEq] at hflatten
      exact ⟨lowered.1, lowered.2, rfl, hflatten.symm⟩

theorem flatten_decides_eq_ok {position : Nat} {cases : List (Case (Tree Outcome))}
    {otherwise : Tree Outcome} {part : Flattened}
    (hflatten : flatten lower position (.decides cases otherwise) = .ok part) :
    ∃ front back, flattenCases lower position cases = .ok front ∧
      flatten lower (position + front.expressions.length) otherwise = .ok back ∧
      part = front.append back := by
  rw [flatten] at hflatten
  cases hfront : flattenCases lower position cases with
  | error error => simp [hfront] at hflatten
  | ok front =>
      cases hback : flatten lower (position + front.expressions.length) otherwise with
      | error error => simp [hfront, hback] at hflatten
      | ok back =>
          simp only [hfront, hback, Except.ok.injEq] at hflatten
          exact ⟨front, back, rfl, hback, hflatten.symm⟩

theorem flattenCases_cons_eq_ok {position : Nat} {condition : Condition} {body : Tree Outcome}
    {rest : List (Case (Tree Outcome))} {part : Flattened}
    (hflatten : flattenCases lower position (⟨condition, body⟩ :: rest) = .ok part) :
    ∃ guard inner others, condition.lower position = .ok guard ∧
      flatten lower (position + 3) body = .ok inner ∧
      flattenCases lower
        (position + (Flattened.ofCase guard position inner).expressions.length) rest =
          .ok others ∧
      part = (Flattened.ofCase guard position inner).append others := by
  rw [flattenCases] at hflatten
  cases hguard : condition.lower position with
  | error error => simp [hguard] at hflatten
  | ok guard =>
      cases hinner : flatten lower (position + 3) body with
      | error error => simp [hguard, hinner] at hflatten
      | ok inner =>
          simp only [hguard, hinner] at hflatten
          cases hothers : flattenCases lower
              (position + (Flattened.ofCase guard position inner).expressions.length) rest with
          | error error => simp [hothers] at hflatten
          | ok others =>
              simp only [hothers, Except.ok.injEq] at hflatten
              exact ⟨guard, inner, others, rfl, rfl, hothers, hflatten.symm⟩

/-- Two properties of compiled parts, one for trees and one for cases, that every step of a
compilation keeps. -/
structure FlattenInvariant (lower : LowerOutcome Outcome)
    (motive : Nat → Tree Outcome → Flattened → Prop)
    (motiveCases : Nat → List (Case (Tree Outcome)) → Flattened → Prop) : Prop where
  returns : ∀ {position outcome expressions result},
    lower position outcome = .ok (expressions, result) →
      motive position (.returns outcome) ⟨expressions, [⟨none, result⟩]⟩
  decides : ∀ {position cases otherwise front back}, motiveCases position cases front →
    motive (position + front.expressions.length) otherwise back →
      motive position (.decides cases otherwise) (front.append back)
  nil : ∀ {position}, motiveCases position [] .empty
  cons : ∀ {position condition body rest guard inner others},
    condition.lower position = .ok guard → motive (position + 3) body inner →
    motiveCases (position + (Flattened.ofCase guard position inner).expressions.length) rest
      others →
      motiveCases position (⟨condition, body⟩ :: rest)
        ((Flattened.ofCase guard position inner).append others)

namespace FlattenInvariant

variable {motive : Nat → Tree Outcome → Flattened → Prop}
variable {motiveCases : Nat → List (Case (Tree Outcome)) → Flattened → Prop}

mutual

/-- What every step keeps holds of a compiled tree. -/
theorem of_flatten (hsteps : FlattenInvariant lower motive motiveCases) {position : Nat}
    {tree : Tree Outcome} {part : Flattened}
    (hflatten : flatten lower position tree = .ok part) : motive position tree part := by
  match tree with
  | .returns outcome =>
      obtain ⟨expressions, result, houtcome, rfl⟩ := flatten_returns_eq_ok hflatten
      exact hsteps.returns houtcome
  | .decides cases otherwise =>
      obtain ⟨front, back, hfront, hback, rfl⟩ := flatten_decides_eq_ok hflatten
      exact hsteps.decides (of_flattenCases hsteps hfront) (of_flatten hsteps hback)

/-- What every step keeps holds of compiled cases. -/
theorem of_flattenCases (hsteps : FlattenInvariant lower motive motiveCases) {position : Nat}
    {cases : List (Case (Tree Outcome))} {part : Flattened}
    (hflatten : flattenCases lower position cases = .ok part) :
    motiveCases position cases part := by
  match cases with
  | [] =>
      rw [flattenCases, Except.ok.injEq] at hflatten
      exact hflatten ▸ hsteps.nil
  | ⟨condition, body⟩ :: rest =>
      obtain ⟨guard, inner, others, hguard, hinner, hothers, rfl⟩ :=
        flattenCases_cons_eq_ok hflatten
      exact hsteps.cons hguard (of_flatten hsteps hinner) (of_flattenCases hsteps hothers)

end

end FlattenInvariant

end Tree

/-! ## Expressions in a row -/

/-- Expressions that count through from a position: operands without children, and
operators right after the two operands they are over. -/
structure Arranged (position : Nat) (expressions : List Expression) : Prop where
  ids : expressions.map Expression.id =
    (List.range' position expressions.length).map scratchId
  operands_childless : ∀ expression ∈ expressions, expression.isOperator = false →
    expression.children = []
  operators_adjacent : ∀ expression ∈ expressions, expression.isOperator = true →
    ∃ left right, [left, right, expression] <:+: expressions ∧
      left.isOperator = false ∧ right.isOperator = false ∧
      expression.left = some left.id ∧ expression.right = some right.id

namespace Arranged

variable {position : Nat} {expressions first second : List Expression}

theorem ids_nodup (harranged : Arranged position expressions) :
    (expressions.map Expression.id).Nodup := by
  rw [harranged.ids]
  exact List.Nodup.map scratchId_injective List.nodup_range'

/-- Only operands are children. -/
theorem child_is_operand (harranged : Arranged position expressions) {expression : Expression}
    (hexpression : expression ∈ expressions) {child : Int}
    (hchild : child ∈ expression.children) :
    ∃ operand ∈ expressions, operand.isOperator = false ∧ operand.id = child := by
  cases hkind : expression.isOperator with
  | false =>
      rw [harranged.operands_childless expression hexpression hkind] at hchild
      exact absurd hchild List.not_mem_nil
  | true =>
      obtain ⟨left, right, hadjacent, hleftKind, hrightKind, hleft, hright⟩ :=
        harranged.operators_adjacent expression hexpression hkind
      simp only [Expression.children, hleft, hright, Option.toList_some, List.mem_append,
        List.mem_singleton] at hchild
      cases hchild with
      | inl hchild => exact ⟨left, hadjacent.subset (by simp), hleftKind, hchild.symm⟩
      | inr hchild => exact ⟨right, hadjacent.subset (by simp), hrightKind, hchild.symm⟩

theorem nil : Arranged position [] :=
  ⟨rfl, by simp, by simp⟩

/-- Operands alone are arranged if their ids count through. -/
theorem of_operands
    (hids : expressions.map Expression.id =
      (List.range' position expressions.length).map scratchId)
    (hoperands : ∀ expression ∈ expressions, expression.isOperator = false ∧
      expression.children = []) : Arranged position expressions where
  ids := hids
  operands_childless := fun expression hmem _ => (hoperands expression hmem).2
  operators_adjacent := by
    intro expression hmem hoperator
    rw [(hoperands expression hmem).1] at hoperator
    exact absurd hoperator (by simp)

theorem append (hfirst : Arranged position first)
    (hsecond : Arranged (position + first.length) second) :
    Arranged position (first ++ second) where
  ids := by
    rw [List.map_append, hfirst.ids, hsecond.ids, List.length_append, ← List.map_append,
      List.range'_append_1]
  operands_childless := by
    intro expression hmem hoperand
    cases List.mem_append.mp hmem with
    | inl hmem => exact hfirst.operands_childless expression hmem hoperand
    | inr hmem => exact hsecond.operands_childless expression hmem hoperand
  operators_adjacent := by
    intro expression hmem hoperator
    cases List.mem_append.mp hmem with
    | inl hmem =>
        obtain ⟨left, right, hadjacent, hspec⟩ :=
          hfirst.operators_adjacent expression hmem hoperator
        exact ⟨left, right, hadjacent.trans (List.prefix_append _ _).isInfix, hspec⟩
    | inr hmem =>
        obtain ⟨left, right, hadjacent, hspec⟩ :=
          hsecond.operators_adjacent expression hmem hoperator
        exact ⟨left, right, hadjacent.trans (List.suffix_append _ _).isInfix, hspec⟩

/-- The expressions of a condition. -/
theorem of_condition {condition : Condition}
    (hlower : condition.lower position = .ok expressions) : Arranged position expressions := by
  obtain ⟨left, right, hleft, hright, rfl⟩ := Condition.lower_eq_ok hlower
  obtain ⟨hleftId, hleftOperand, hleftChildless⟩ := Value.lower_eq_ok hleft
  obtain ⟨hrightId, hrightOperand, hrightChildless⟩ := Value.lower_eq_ok hright
  refine ⟨?_, ?_, ?_⟩
  · simp [hleftId, hrightId, Condition.operatorExpression, List.range'_succ]
  · intro expression hmem hoperand
    simp only [List.mem_cons, List.not_mem_nil, or_false] at hmem
    obtain rfl | rfl | rfl := hmem
    · exact hleftChildless
    · exact hrightChildless
    · simp [Condition.operatorExpression, Expression.isOperator] at hoperand
  · intro expression hmem hoperator
    simp only [List.mem_cons, List.not_mem_nil, or_false] at hmem
    obtain rfl | rfl | rfl := hmem
    · simp [hleftOperand] at hoperator
    · simp [hrightOperand] at hoperator
    · exact ⟨left, right, List.infix_rfl, hleftOperand, hrightOperand, rfl, rfl⟩

end Arranged

/-- How an outcome has to be compiled: as operands whose ids count through, which are
exactly what the outcome then refers to. -/
structure LowerOutcome.Listed {Outcome : Type} (lower : LowerOutcome Outcome) : Prop where
  ids : ∀ {position outcome expressions result},
    lower position outcome = .ok (expressions, result) →
      expressions.map Expression.id = (List.range' position expressions.length).map scratchId
  operands : ∀ {position outcome expressions result},
    lower position outcome = .ok (expressions, result) →
      ∀ expression ∈ expressions, expression.isOperator = false ∧ expression.children = []
  referenced : ∀ {position outcome expressions result},
    lower position outcome = .ok (expressions, result) →
      result.expressions = expressions.map Expression.id

theorem Value.lowerOutcome_eq_ok {position : Nat} {value : Value}
    {expressions : List Expression} {result : BranchOutcome}
    (hlower : Value.lowerOutcome position value = .ok (expressions, result)) :
    ∃ expression, value.lower position = .ok expression ∧ expressions = [expression] ∧
      result = .returns expression.id := by
  rw [lowerOutcome] at hlower
  cases hvalue : value.lower position with
  | error error => simp [hvalue, Except.map] at hlower
  | ok expression =>
      simp only [hvalue, Except.map, Except.ok.injEq, Prod.mk.injEq] at hlower
      exact ⟨expression, rfl, hlower.1.symm, hlower.2.symm⟩

theorem Value.lowerOutcome_listed : LowerOutcome.Listed Value.lowerOutcome where
  ids := by
    intro position value expressions result hlower
    obtain ⟨expression, hvalue, rfl, rfl⟩ := lowerOutcome_eq_ok hlower
    simp [(lower_eq_ok hvalue).1]
  operands := by
    intro position value expressions result hlower
    obtain ⟨expression, hvalue, rfl, rfl⟩ := lowerOutcome_eq_ok hlower
    intro other hother
    rw [List.mem_singleton.mp hother]
    exact (lower_eq_ok hvalue).2
  referenced := by
    intro position value expressions result hlower
    obtain ⟨expression, hvalue, rfl, rfl⟩ := lowerOutcome_eq_ok hlower
    rfl

namespace Adjustment

theorem lowerList_cons_eq_ok {position : Nat} {adjustment : Adjustment} {rest : List Adjustment}
    {expressions : List Expression} {statements : List StatementRecord}
    (hlower : lowerList position (adjustment :: rest) = .ok (expressions, statements)) :
    ∃ expression others othersStatements, adjustment.value.lower position = .ok expression ∧
      lowerList (position + 1) rest = .ok (others, othersStatements) ∧
      expressions = expression :: others ∧
      statements = ⟨adjustment.operation, expression.id⟩ :: othersStatements := by
  rw [lowerList] at hlower
  cases hvalue : adjustment.value.lower position with
  | error error => simp [hvalue] at hlower
  | ok expression =>
      cases hrest : lowerList (position + 1) rest with
      | error error => simp [hvalue, hrest] at hlower
      | ok lowered =>
          simp only [hvalue, hrest, Except.ok.injEq, Prod.mk.injEq] at hlower
          exact ⟨expression, lowered.1, lowered.2, rfl, rfl, hlower.1.symm, hlower.2.symm⟩

theorem lowerList_spec {position : Nat} {adjustments : List Adjustment}
    {expressions : List Expression} {statements : List StatementRecord}
    (hlower : lowerList position adjustments = .ok (expressions, statements)) :
    expressions.map Expression.id = (List.range' position expressions.length).map scratchId ∧
      (∀ expression ∈ expressions,
        expression.isOperator = false ∧ expression.children = []) ∧
      statements.map StatementRecord.value = expressions.map Expression.id := by
  induction adjustments generalizing position expressions statements with
  | nil =>
      simp only [lowerList, Except.ok.injEq, Prod.mk.injEq] at hlower
      obtain ⟨rfl, rfl⟩ := hlower
      simp
  | cons adjustment rest ih =>
      obtain ⟨expression, others, othersStatements, hvalue, hrest, rfl, rfl⟩ :=
        lowerList_cons_eq_ok hlower
      obtain ⟨hid, hoperand⟩ := Value.lower_eq_ok hvalue
      obtain ⟨hids, hoperands, hvalues⟩ := ih hrest
      refine ⟨?_, ?_, ?_⟩
      · rw [List.map_cons, hid, hids, List.length_cons, List.range'_succ, List.map_cons]
      · exact List.forall_mem_cons.mpr ⟨hoperand, hoperands⟩
      · rw [List.map_cons, List.map_cons, hvalues]

theorem lowerOutcome_eq_ok {position : Nat} {adjustments : List Adjustment}
    {expressions : List Expression} {result : BranchOutcome}
    (hlower : lowerOutcome position adjustments = .ok (expressions, result)) :
    ∃ statements, lowerList position adjustments = .ok (expressions, statements) ∧
      result = .statements statements := by
  rw [lowerOutcome] at hlower
  cases hlist : lowerList position adjustments with
  | error error => simp [hlist, Except.map] at hlower
  | ok lowered =>
      simp only [hlist, Except.map, Except.ok.injEq, Prod.mk.injEq] at hlower
      obtain ⟨rfl, hresult⟩ := hlower
      exact ⟨lowered.2, rfl, hresult.symm⟩

theorem lowerOutcome_listed : LowerOutcome.Listed lowerOutcome where
  ids := by
    intro position adjustments expressions result hlower
    obtain ⟨statements, hlist, rfl⟩ := lowerOutcome_eq_ok hlower
    exact (lowerList_spec hlist).1
  operands := by
    intro position adjustments expressions result hlower
    obtain ⟨statements, hlist, rfl⟩ := lowerOutcome_eq_ok hlower
    exact (lowerList_spec hlist).2.1
  referenced := by
    intro position adjustments expressions result hlower
    obtain ⟨statements, hlist, rfl⟩ := lowerOutcome_eq_ok hlower
    exact (lowerList_spec hlist).2.2

end Adjustment

/-! ## Parts and whole trees -/

namespace Flattened

/-- A compiled part whose expressions are arranged and whose leaves refer to nothing
outside of it. -/
structure Shaped (position : Nat) (part : Flattened) : Prop where
  arranged : Arranged position part.expressions
  outcomes_defined : ∀ leaf ∈ part.leaves, ∀ id ∈ leaf.outcome.expressions,
    id ∈ part.expressions.map Expression.id
  conditions_operators : ∀ leaf ∈ part.leaves, ∀ id ∈ leaf.condition,
    ∃ operator ∈ part.expressions, operator.isOperator = true ∧ operator.id = id

theorem mem_guardFirst {condition : Int} {leaves : List Leaf} {leaf : Leaf}
    (hleaf : leaf ∈ guardFirst condition leaves) :
    ∃ original ∈ leaves, leaf.outcome = original.outcome ∧
      (leaf.condition = some condition ∨ leaf.condition = original.condition) := by
  cases leaves with
  | nil => exact absurd hleaf List.not_mem_nil
  | cons first rest =>
      cases List.mem_cons.mp hleaf with
      | inl hfirst => exact ⟨first, List.mem_cons_self, by simp [hfirst]⟩
      | inr hrest => exact ⟨leaf, List.mem_cons_of_mem _ hrest, by simp⟩

namespace Shaped

variable {position : Nat} {first second inner : Flattened}

theorem empty : Flattened.empty.Shaped position :=
  ⟨.nil, by simp [Flattened.empty], by simp [Flattened.empty]⟩

theorem append (hfirst : first.Shaped position)
    (hsecond : second.Shaped (position + first.expressions.length)) :
    (first.append second).Shaped position where
  arranged := hfirst.arranged.append hsecond.arranged
  outcomes_defined := by
    intro leaf hleaf id hid
    rw [Flattened.append, List.map_append]
    cases List.mem_append.mp hleaf with
    | inl hleaf => exact List.mem_append_left _ (hfirst.outcomes_defined leaf hleaf id hid)
    | inr hleaf => exact List.mem_append_right _ (hsecond.outcomes_defined leaf hleaf id hid)
  conditions_operators := by
    intro leaf hleaf id hid
    cases List.mem_append.mp hleaf with
    | inl hleaf =>
        obtain ⟨operator, hmem, hspec⟩ := hfirst.conditions_operators leaf hleaf id hid
        exact ⟨operator, List.mem_append_left _ hmem, hspec⟩
    | inr hleaf =>
        obtain ⟨operator, hmem, hspec⟩ := hsecond.conditions_operators leaf hleaf id hid
        exact ⟨operator, List.mem_append_right _ hmem, hspec⟩

theorem ofCase {condition : Condition} {guard : List Expression}
    (hguard : condition.lower position = .ok guard) (hinner : inner.Shaped (position + 3)) :
    (Flattened.ofCase guard position inner).Shaped position := by
  have hguardArranged := Arranged.of_condition hguard
  obtain ⟨left, right, -, -, rfl⟩ := Condition.lower_eq_ok hguard
  refine ⟨hguardArranged.append hinner.arranged, ?_, ?_⟩
  · intro leaf hleaf id hid
    obtain ⟨original, horiginal, houtcome, -⟩ := mem_guardFirst hleaf
    rw [houtcome] at hid
    rw [Flattened.ofCase, List.map_append]
    exact List.mem_append_right _ (hinner.outcomes_defined original horiginal id hid)
  · intro leaf hleaf id hid
    obtain ⟨original, horiginal, -, hcondition⟩ := mem_guardFirst hleaf
    cases hcondition with
    | inl hown =>
        rw [hown, Option.mem_some_iff] at hid
        refine ⟨condition.operatorExpression position left right, ?_, rfl, hid⟩
        simp [Flattened.ofCase]
    | inr hkept =>
        rw [hkept] at hid
        obtain ⟨operator, hmem, hspec⟩ :=
          hinner.conditions_operators original horiginal id hid
        exact ⟨operator, List.mem_append_right _ hmem, hspec⟩

end Shaped

theorem mem_records {leaves : List Leaf} {record : BranchRecord}
    (hrecord : record ∈ records leaves) :
    ∃ leaf ∈ leaves, record.condition = leaf.condition ∧ record.outcome = leaf.outcome := by
  obtain ⟨⟨leaf, index⟩, hleaf, rfl⟩ := List.mem_map.mp hrecord
  exact ⟨leaf, List.fst_mem_of_mem_zipIdx hleaf, rfl, rfl⟩

/-- A shaped whole is a layered tree. -/
theorem Shaped.layered {whole : Flattened} (hwhole : whole.Shaped 0) :
    whole.toCompiled.Layered where
  ids_distinct := hwhole.arranged.ids_nodup
  operands_childless := hwhole.arranged.operands_childless
  children_defined := by
    intro expression hexpression child hchild
    obtain ⟨operand, hoperand, -, rfl⟩ := hwhole.arranged.child_is_operand hexpression hchild
    exact List.mem_map_of_mem hoperand
  operators_on_operands := fun expression hexpression _ child hchild =>
    hwhole.arranged.child_is_operand hexpression hchild
  branches_defined := by
    intro record hrecord id hid
    obtain ⟨leaf, hleaf, hcondition, houtcome⟩ := mem_records hrecord
    rw [BranchRecord.referenced, hcondition, houtcome] at hid
    cases List.mem_append.mp hid with
    | inl hid => exact hwhole.outcomes_defined leaf hleaf id hid
    | inr hid =>
        obtain ⟨operator, hmem, -, rfl⟩ :=
          hwhole.conditions_operators leaf hleaf id (Option.mem_toList.mp hid)
        exact List.mem_map_of_mem hmem

end Flattened

namespace Tree

variable {Outcome : Type} {lower : LowerOutcome Outcome}

theorem flattenInvariant_shaped (hlower : lower.Listed) :
    FlattenInvariant lower (fun position _ part => part.Shaped position)
      (fun position _ part => part.Shaped position) where
  returns := by
    intro position outcome expressions result houtcome
    refine ⟨.of_operands (hlower.ids houtcome) (hlower.operands houtcome), ?_, ?_⟩
    · intro leaf hleaf id hid
      rw [List.mem_singleton.mp hleaf, hlower.referenced houtcome] at hid
      exact hid
    · intro leaf hleaf id hid
      rw [List.mem_singleton.mp hleaf] at hid
      exact absurd hid (by simp)
  decides := fun hfront hback => hfront.append hback
  nil := .empty
  cons := fun hguard hinner hothers => (Flattened.Shaped.ofCase hguard hinner).append hothers

/-- Whatever compiles has the shape. -/
theorem flatten_shaped (hlower : lower.Listed) {position : Nat} {tree : Tree Outcome}
    {part : Flattened} (hflatten : flatten lower position tree = .ok part) :
    part.Shaped position :=
  (flattenInvariant_shaped hlower).of_flatten hflatten

end Tree

theorem IfTree.compile_eq_ok {tree : IfTree} {compiled : CompiledTree}
    (hcompile : tree.compile = .ok compiled) :
    ∃ whole, Tree.flatten Value.lowerOutcome 0 tree = .ok whole ∧
      compiled = whole.toCompiled := by
  rw [compile] at hcompile
  cases hflatten : Tree.flatten Value.lowerOutcome 0 tree with
  | error error => simp [hflatten, Except.map] at hcompile
  | ok whole =>
      simp only [hflatten, Except.map, Except.ok.injEq] at hcompile
      exact ⟨whole, rfl, hcompile.symm⟩

theorem AdjustmentTree.compile_eq_ok {tree : AdjustmentTree} {compiled : CompiledTree}
    (hcompile : tree.compile = .ok compiled) :
    ∃ whole, Tree.flatten Adjustment.lowerOutcome 0 tree = .ok whole ∧
      compiled = whole.toCompiled := by
  rw [compile] at hcompile
  cases hflatten : Tree.flatten Adjustment.lowerOutcome 0 tree with
  | error error => simp [hflatten, Except.map] at hcompile
  | ok whole =>
      simp only [hflatten, Except.map, Except.ok.injEq] at hcompile
      exact ⟨whole, rfl, hcompile.symm⟩

end DecisionCanvas
