import DecisionCanvas.Tree.Equivalence

/-!
# Equivalence as equality of meanings

Without what only the editor needs, a value is its meaning.  Two values, and two trees,
are equivalent exactly when their meanings are equal, so equivalence is reflexive,
symmetric and transitive.
-/

namespace DecisionCanvas

namespace Value

/-- The value without selector, or for a statement without the resolved expression. -/
def meaning : Value → Value
  | .literal text _ => .literal text none
  | .variable reference _ => .variable reference none
  | .statement _ selector => .statement none selector
  | .boolean truth _ => .boolean truth none
  | .choice option _ => .choice option none
  | .unsupported => .unsupported

theorem equivalent_iff {left right : Value} :
    left.equivalent right = true ↔ left.meaning = right.meaning := by
  cases left <;> cases right <;> simp [equivalent, meaning]

@[simp]
theorem equivalent_refl (value : Value) : value.equivalent value = true :=
  equivalent_iff.mpr rfl

theorem equivalent_symm {left right : Value} (hequivalent : left.equivalent right = true) :
    right.equivalent left = true :=
  equivalent_iff.mpr (equivalent_iff.mp hequivalent).symm

theorem equivalent_trans {left middle right : Value} (hleft : left.equivalent middle = true)
    (hright : middle.equivalent right = true) : left.equivalent right = true :=
  equivalent_iff.mpr ((equivalent_iff.mp hleft).trans (equivalent_iff.mp hright))

end Value

namespace Condition

def meaning (condition : Condition) : Condition :=
  ⟨condition.left.meaning, condition.operator, condition.right.meaning⟩

theorem equivalent_iff {left right : Condition} :
    left.equivalent right = true ↔ left.meaning = right.meaning := by
  simp only [equivalent, meaning, Bool.and_eq_true, Value.equivalent_iff, beq_iff_eq,
    mk.injEq, and_assoc]

theorem equivalent_symm {left right : Condition} (hequivalent : left.equivalent right = true) :
    right.equivalent left = true :=
  equivalent_iff.mpr (equivalent_iff.mp hequivalent).symm

end Condition

namespace Adjustment

def meaning (adjustment : Adjustment) : Adjustment :=
  ⟨adjustment.operation, adjustment.value.meaning⟩

theorem equivalent_iff {left right : Adjustment} :
    left.equivalent right = true ↔ left.meaning = right.meaning := by
  simp only [equivalent, meaning, Bool.and_eq_true, Value.equivalent_iff, beq_iff_eq, mk.injEq]

theorem listEquivalent_iff {left right : List Adjustment} :
    listEquivalent left right = true ↔ left.map meaning = right.map meaning := by
  induction left generalizing right with
  | nil => cases right <;> simp [listEquivalent]
  | cons first rest ih =>
      cases right with
      | nil => simp [listEquivalent]
      | cons other others =>
          simp only [listEquivalent, Bool.and_eq_true, equivalent_iff, ih, List.map_cons,
            List.cons.injEq]

end Adjustment

namespace Tree

variable {Outcome : Type}

mutual

/-- The tree with the meanings of its values. -/
def meaningBy (onOutcome : Outcome → Outcome) : Tree Outcome → Tree Outcome
  | .returns outcome => .returns (onOutcome outcome)
  | .decides cases otherwise =>
    .decides (casesMeaningBy onOutcome cases) (meaningBy onOutcome otherwise)

/-- Cases with the meanings of their values. -/
def casesMeaningBy (onOutcome : Outcome → Outcome) :
    List (Case (Tree Outcome)) → List (Case (Tree Outcome))
  | [] => []
  | ⟨condition, body⟩ :: rest =>
    ⟨condition.meaning, meaningBy onOutcome body⟩ :: casesMeaningBy onOutcome rest

end

section Equivalence

variable {same : Outcome → Outcome → Bool} {onOutcome : Outcome → Outcome}

mutual

theorem equivalentBy_iff
    (hsame : ∀ left right, same left right = true ↔ onOutcome left = onOutcome right)
    (left right : Tree Outcome) :
    equivalentBy same left right = true ↔
      meaningBy onOutcome left = meaningBy onOutcome right := by
  match left, right with
  | .returns left, .returns right =>
      rw [equivalentBy, meaningBy, meaningBy, hsame, returns.injEq]
  | .decides leftCases left, .decides rightCases right =>
      rw [equivalentBy, meaningBy, meaningBy, Bool.and_eq_true,
        casesEquivalentBy_iff hsame leftCases rightCases, equivalentBy_iff hsame left right,
        decides.injEq]
  | .returns left, .decides rightCases right => simp [equivalentBy, meaningBy]
  | .decides leftCases left, .returns right => simp [equivalentBy, meaningBy]

theorem casesEquivalentBy_iff
    (hsame : ∀ left right, same left right = true ↔ onOutcome left = onOutcome right)
    (left right : List (Case (Tree Outcome))) :
    casesEquivalentBy same left right = true ↔
      casesMeaningBy onOutcome left = casesMeaningBy onOutcome right := by
  match left, right with
  | [], [] => simp [casesEquivalentBy]
  | ⟨leftCondition, leftBody⟩ :: lefts, ⟨rightCondition, rightBody⟩ :: rights =>
      rw [casesEquivalentBy, casesMeaningBy, casesMeaningBy, Bool.and_eq_true,
        Bool.and_eq_true, Condition.equivalent_iff, equivalentBy_iff hsame leftBody rightBody,
        casesEquivalentBy_iff hsame lefts rights, List.cons.injEq, Case.mk.injEq]
  | [], ⟨condition, body⟩ :: rest => simp [casesEquivalentBy, casesMeaningBy]
  | ⟨condition, body⟩ :: rest, [] => simp [casesEquivalentBy, casesMeaningBy]

end

end Equivalence

end Tree

theorem IfTree.equivalent_iff {left right : IfTree} : IfTree.equivalent left right = true ↔
    Tree.meaningBy Value.meaning left = Tree.meaningBy Value.meaning right :=
  have hsame (value other : Value) :
      value.equivalent other = true ↔ value.meaning = other.meaning := Value.equivalent_iff
  Tree.equivalentBy_iff hsame left right

theorem AdjustmentTree.equivalent_iff {left right : AdjustmentTree} :
    AdjustmentTree.equivalent left right = true ↔
      Tree.meaningBy (List.map Adjustment.meaning) left =
        Tree.meaningBy (List.map Adjustment.meaning) right :=
  have hsame (list other : List Adjustment) :
      Adjustment.listEquivalent list other = true ↔
        list.map Adjustment.meaning = other.map Adjustment.meaning :=
    Adjustment.listEquivalent_iff
  Tree.equivalentBy_iff hsame left right

@[simp]
theorem IfTree.equivalent_refl (tree : IfTree) : IfTree.equivalent tree tree = true :=
  equivalent_iff.mpr rfl

end DecisionCanvas
