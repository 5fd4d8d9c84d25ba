import DecisionCanvas.Compiled.Flatten
import DecisionCanvas.IdSource
import DecisionCanvas.Proofs.Tree.Equivalence
import Mathlib.Logic.Basic
import Mathlib.Logic.Relation

/-!
# Equivalent trees compile alike

Compiling looks at nothing that only the editor needs.  A tree of meanings is therefore
compiled to the same expressions and records as the tree itself, or fails with the same
error, and so are any two trees with equal meanings.
-/

namespace DecisionCanvas

/-- A comparison that comes to equality of forms is an equivalence. -/
theorem equivalence_of_iff {Item Form : Type} {same : Item → Item → Bool} {form : Item → Form}
    (hsame : ∀ left right, same left right = true ↔ form left = form right) :
    Equivalence fun left right => same left right = true := by
  have hform : (fun left right => same left right = true) =
      fun left right => form left = form right := by
    funext left right
    exact propext (hsame left right)
  rw [hform]
  exact eq_equivalence.comap form

theorem Value.lower_meaning (position : Nat) (value : Value) :
    value.meaning.lower position = value.lower position := by
  cases value <;> rfl

theorem Condition.lower_meaning (position : Nat) (condition : Condition) :
    condition.meaning.lower position = condition.lower position := by
  rw [lower, lower]
  simp only [meaning, Value.lower_meaning]

theorem Adjustment.lowerList_meaning (position : Nat) (adjustments : List Adjustment) :
    lowerList position (adjustments.map meaning) = lowerList position adjustments := by
  induction adjustments generalizing position with
  | nil => rfl
  | cons adjustment rest ih =>
      rw [List.map_cons, lowerList, lowerList]
      simp only [meaning, Value.lower_meaning, ih]

/-- Whether compiling an outcome depends on no more of it than is kept. -/
def LowerOutcome.SeesOnly {Outcome : Type} (lower : LowerOutcome Outcome)
    (kept : Outcome → Outcome) : Prop :=
  ∀ position outcome, lower position (kept outcome) = lower position outcome

theorem Value.lowerOutcome_seesOnly : LowerOutcome.SeesOnly Value.lowerOutcome meaning := by
  intro position value
  rw [lowerOutcome, lowerOutcome, lower_meaning]

theorem Adjustment.lowerOutcome_seesOnly :
    LowerOutcome.SeesOnly Adjustment.lowerOutcome (List.map meaning) := by
  intro position adjustments
  rw [lowerOutcome, lowerOutcome, lowerList_meaning]

namespace Tree

variable {Outcome : Type} {lower : LowerOutcome Outcome} {kept : Outcome → Outcome}

mutual

theorem flatten_meaningBy (hlower : lower.SeesOnly kept) (position : Nat)
    (tree : Tree Outcome) :
    flatten lower position (tree.meaningBy kept) = flatten lower position tree := by
  match tree with
  | .returns outcome => rw [meaningBy, flatten, flatten, hlower]
  | .decides cases otherwise =>
      rw [meaningBy, flatten, flatten, flattenCases_meaningBy hlower position cases]
      -- Where the other tree starts depends on what the cases were compiled to.
      cases flattenCases lower position cases with
      | error error => rfl
      | ok front =>
          simp only
          rw [flatten_meaningBy hlower _ otherwise]

theorem flattenCases_meaningBy (hlower : lower.SeesOnly kept) (position : Nat)
    (cases : List (Case (Tree Outcome))) :
    flattenCases lower position (casesMeaningBy kept cases) =
      flattenCases lower position cases := by
  match cases with
  | [] => rw [casesMeaningBy]
  | ⟨condition, body⟩ :: rest =>
      rw [casesMeaningBy, flattenCases, flattenCases, condition.lower_meaning,
        flatten_meaningBy hlower _ body]
      cases condition.lower position with
      | error error => rfl
      | ok guard =>
          simp only
          cases flatten lower (position + 3) body with
          | error error => rfl
          | ok inner =>
              simp only
              rw [flattenCases_meaningBy hlower _ rest]

end

end Tree

theorem IfTree.compile_meaning (tree : IfTree) :
    IfTree.compile (Tree.meaningBy Value.meaning tree) = tree.compile := by
  rw [compile, compile, Tree.flatten_meaningBy Value.lowerOutcome_seesOnly]

theorem AdjustmentTree.compile_meaning (tree : AdjustmentTree) :
    AdjustmentTree.compile (Tree.meaningBy (List.map Adjustment.meaning) tree) =
      tree.compile := by
  rw [compile, compile, Tree.flatten_meaningBy Adjustment.lowerOutcome_seesOnly]

theorem IfTree.compile_eq_of_equivalent {left right : IfTree}
    (hequivalent : left.equivalent right = true) : left.compile = right.compile :=
  calc
    left.compile = IfTree.compile (Tree.meaningBy Value.meaning left) :=
      left.compile_meaning.symm
    _ = IfTree.compile (Tree.meaningBy Value.meaning right) := by
      rw [equivalent_iff.mp hequivalent]
    _ = right.compile := right.compile_meaning

theorem AdjustmentTree.compile_eq_of_equivalent {left right : AdjustmentTree}
    (hequivalent : left.equivalent right = true) : left.compile = right.compile :=
  calc
    left.compile = AdjustmentTree.compile (Tree.meaningBy (List.map Adjustment.meaning) left) :=
      left.compile_meaning.symm
    _ = AdjustmentTree.compile (Tree.meaningBy (List.map Adjustment.meaning) right) := by
      rw [equivalent_iff.mp hequivalent]
    _ = right.compile := right.compile_meaning

/-- Equivalence of trees is an equivalence, and compiling respects it, in what it gives and
in the error it stops with. -/
theorem equivalence_respected_by_compile :
    (Equivalence (fun left right : IfTree => left.equivalent right = true) ∧
      ∀ left right : IfTree, left.equivalent right = true → left.compile = right.compile) ∧
    (Equivalence (fun left right : AdjustmentTree => left.equivalent right = true) ∧
      ∀ left right : AdjustmentTree, left.equivalent right = true →
        left.compile = right.compile) :=
  ⟨⟨equivalence_of_iff fun _ _ => IfTree.equivalent_iff,
      fun _ _ => IfTree.compile_eq_of_equivalent⟩,
    ⟨equivalence_of_iff fun _ _ => AdjustmentTree.equivalent_iff,
      fun _ _ => AdjustmentTree.compile_eq_of_equivalent⟩⟩

/-- Two trees that differ in selectors and in what a statement was resolved to, and two
lists of adjustments that fail at the same value. -/
theorem equivalence_respected_by_compile_selected :
    let selector := IdSource.uuidAt ⟨0, 0⟩ 0
    let statement (held : Option String) : Value := .statement held (IdSource.uuidAt ⟨0, 0⟩ 1)
    let nested (picked : Option Uuid) (held : Option String) : IfTree :=
      .decides
        [⟨⟨.variable ⟨"age", "f-age", "number", factScope⟩ picked, .greater, .literal "18" none⟩,
          .decides [⟨⟨statement held, .equal, .boolean true picked⟩, .returns (.choice "a" none)⟩]
            (.returns (.literal "2" picked))⟩]
        (.returns (.literal "" none))
    let failing (picked : Option Uuid) : AdjustmentTree :=
      .returns [⟨.plus, .literal "1" picked⟩, ⟨.times, .unsupported⟩, ⟨.over, .literal "x" picked⟩]
    ((nested none none).equivalent (nested (some selector) (some "e-1")) = true ∧
      IfTree.compile (nested none none) = IfTree.compile (nested (some selector) (some "e-1"))) ∧
    ((failing none).equivalent (failing (some selector)) = true ∧
      AdjustmentTree.compile (failing none) = AdjustmentTree.compile (failing (some selector))) := by
  intro selector statement nested failing
  have hnested : (nested none none).equivalent (nested (some selector) (some "e-1")) = true := by
    decide
  have hfailing : (failing none).equivalent (failing (some selector)) = true := by decide
  obtain ⟨⟨-, hifTrees⟩, ⟨-, hadjustments⟩⟩ := equivalence_respected_by_compile
  exact ⟨⟨hnested, hifTrees _ _ hnested⟩, ⟨hfailing, hadjustments _ _ hfailing⟩⟩

end DecisionCanvas
