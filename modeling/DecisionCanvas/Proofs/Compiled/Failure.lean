import DecisionCanvas.Compiled.Flatten
import DecisionCanvas.Proofs.Tree.Selection

/-!
# Trees that cannot be compiled

Compiling looks at the values of a tree in the order in which they are evaluated, and stops
at the first one that has no compiled form.  Nothing else keeps a tree from being compiled.
-/

namespace DecisionCanvas

/-- The error that a computation ends in. -/
def failure? {Error Result : Type} : Except Error Result → Option Error
  | .error error => some error
  | .ok _ => none

theorem failure?_eq_none_iff {Error Result : Type} {outcome : Except Error Result} :
    failure? outcome = none ↔ ∃ result, outcome = .ok result := by
  cases outcome <;> simp [failure?]

theorem failure?_eq_some_iff {Error Result : Type} {outcome : Except Error Result}
    {error : Error} : failure? outcome = some error ↔ outcome = .error error := by
  cases outcome <;> simp [failure?]

@[simp]
theorem failure?_map {Error Result Other : Type} (change : Result → Other)
    (outcome : Except Error Result) : failure? (outcome.map change) = failure? outcome := by
  cases outcome <;> rfl

/-- Why a value has no compiled form. -/
def Value.fault? : Value → Option CompileError
  | .literal text _ =>
    match literalNumber? text with
    | some _ => none
    | none => some (.invalidLiteral text)
  | .unsupported => some .unsupportedValue
  | _ => none

theorem Value.failure?_lower (position : Nat) (value : Value) :
    failure? (value.lower position) = value.fault? := by
  match value with
  | .literal text selector =>
      rw [lower, fault?]
      cases literalNumber? text <;> rfl
  | .variable _ _ | .statement _ _ | .boolean _ _ | .choice _ _ | .unsupported => rfl

theorem Condition.failure?_lower (position : Nat) (condition : Condition) :
    failure? (condition.lower position) =
      [condition.left, condition.right].findSome? Value.fault? := by
  have hleft := Value.failure?_lower position condition.left
  have hright := Value.failure?_lower (position + 1) condition.right
  rw [lower, List.findSome?_cons, List.findSome?_cons, List.findSome?_nil, ← hleft, ← hright]
  cases condition.left.lower position with
  | error error => rfl
  | ok left => cases condition.right.lower (position + 1) <;> rfl

theorem Adjustment.failure?_lowerList (position : Nat) (adjustments : List Adjustment) :
    failure? (lowerList position adjustments) =
      (adjustments.map value).findSome? Value.fault? := by
  induction adjustments generalizing position with
  | nil => rfl
  | cons adjustment rest ih =>
      have hvalue := Value.failure?_lower position adjustment.value
      rw [lowerList, List.map_cons, List.findSome?_cons, ← hvalue, ← ih (position + 1)]
      cases adjustment.value.lower position with
      | error error => rfl
      | ok expression => cases lowerList (position + 1) rest <;> rfl

/-- Whether compiling an outcome stops at the first of its values that has no compiled
form. -/
def LowerOutcome.FailsAtFault {Outcome : Type} (lower : LowerOutcome Outcome)
    (ofOutcome : Outcome → List Value) : Prop :=
  ∀ position outcome,
    failure? (lower position outcome) = (ofOutcome outcome).findSome? Value.fault?

theorem Value.lowerOutcome_failsAtFault :
    LowerOutcome.FailsAtFault Value.lowerOutcome fun value => [value] := by
  intro position value
  rw [lowerOutcome, failure?_map, Value.failure?_lower, List.findSome?_singleton]

theorem Adjustment.lowerOutcome_failsAtFault :
    LowerOutcome.FailsAtFault Adjustment.lowerOutcome (List.map value) := by
  intro position adjustments
  rw [lowerOutcome, failure?_map, failure?_lowerList]

namespace Tree

variable {Outcome : Type} {lower : LowerOutcome Outcome} {ofOutcome : Outcome → List Value}

mutual

/-- Compiling a tree stops at the first of its values that has no compiled form. -/
theorem failure?_flatten (hlower : lower.FailsAtFault ofOutcome) (position : Nat)
    (tree : Tree Outcome) :
    failure? (flatten lower position tree) = (tree.values ofOutcome).findSome? Value.fault? := by
  match tree with
  | .returns outcome =>
      rw [flatten, values, ← hlower position outcome]
      cases lower position outcome <;> rfl
  | .decides cases otherwise =>
      have hfront := failure?_flattenCases hlower position cases
      rw [flatten, values, List.findSome?_append, ← hfront]
      cases flattenCases lower position cases with
      | error error => rfl
      | ok front =>
          have hback := otherwise.failure?_flatten hlower (position + front.expressions.length)
          rw [← hback]
          simp only
          cases flatten lower (position + front.expressions.length) otherwise <;> rfl

theorem failure?_flattenCases (hlower : lower.FailsAtFault ofOutcome) (position : Nat)
    (cases : List (Case (Tree Outcome))) :
    failure? (flattenCases lower position cases) =
      (caseValues ofOutcome cases).findSome? Value.fault? := by
  match cases with
  | [] =>
      rw [flattenCases, caseValues]
      rfl
  | ⟨condition, body⟩ :: rest =>
      have hguard := condition.failure?_lower position
      have hinner := body.failure?_flatten hlower (position + 3)
      have hvalues : caseValues ofOutcome (⟨condition, body⟩ :: rest) =
          [condition.left, condition.right] ++ (body.values ofOutcome ++
            caseValues ofOutcome rest) := by
        rw [caseValues]
        rfl
      rw [flattenCases, hvalues, List.findSome?_append, List.findSome?_append, ← hguard,
        ← hinner]
      cases condition.lower position with
      | error error => rfl
      | ok guard =>
          simp only
          cases flatten lower (position + 3) body with
          | error error => rfl
          | ok inner =>
              have hrest := failure?_flattenCases hlower
                (position + (Flattened.ofCase guard position inner).expressions.length) rest
              rw [← hrest]
              simp only
              cases flattenCases lower
                (position + (Flattened.ofCase guard position inner).expressions.length) rest <;>
                  rfl

end

end Tree

theorem IfTree.failure?_compile (tree : IfTree) :
    failure? tree.compile = tree.values.findSome? Value.fault? := by
  rw [compile, failure?_map, Tree.failure?_flatten Value.lowerOutcome_failsAtFault, values]

theorem AdjustmentTree.failure?_compile (tree : AdjustmentTree) :
    failure? tree.compile = tree.values.findSome? Value.fault? := by
  rw [compile, failure?_map, Tree.failure?_flatten Adjustment.lowerOutcome_failsAtFault, values]

/-- A tree can be compiled exactly if all of its values can. -/
theorem IfTree.compiles_iff {tree : IfTree} :
    (∃ compiled, tree.compile = .ok compiled) ↔ ∀ value ∈ tree.values, value.fault? = none := by
  rw [← failure?_eq_none_iff, failure?_compile, List.findSome?_eq_none_iff]

theorem AdjustmentTree.compiles_iff {tree : AdjustmentTree} :
    (∃ compiled, tree.compile = .ok compiled) ↔ ∀ value ∈ tree.values, value.fault? = none := by
  rw [← failure?_eq_none_iff, failure?_compile, List.findSome?_eq_none_iff]

end DecisionCanvas
