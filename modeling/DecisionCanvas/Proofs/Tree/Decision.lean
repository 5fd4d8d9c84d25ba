import DecisionCanvas.Proofs.Tree.Equivalence
import DecisionCanvas.Proofs.Tree.Selection
import Mathlib.Data.List.Basic

/-!
# The decision of a tree

A tree is read back as one decision between its returns.  Reading changes the conditions
and the outcomes of this decision and nothing else, so what is read again and again is
one decision whose values change.
-/

namespace DecisionCanvas

/-- Cases whose bodies are returns, and what is returned otherwise. -/
structure Decision (Outcome : Type) where
  rows : List (Condition × Outcome)
  otherwise : Outcome

/-- The guarded returns of a tree as the cases of a decision, with the first default for
when none holds. -/
def Tree.decision {Outcome : Type} (tree : Tree Outcome) : Decision Outcome where
  rows := tree.guardedReturns.filterMap fun ret => ret.guard.map fun guard => (guard, ret.outcome)
  otherwise :=
    ((tree.guardedReturns.find? GuardedReturn.isDefault).map GuardedReturn.outcome).getD
      tree.lastReturn

namespace Decision

variable {Outcome : Type}

/-- The decision as a tree; without cases it is a bare return. -/
def tree (decision : Decision Outcome) : Tree Outcome :=
  if decision.rows.isEmpty then .returns decision.otherwise
  else
    .decides (decision.rows.map fun row => ⟨row.1, .returns row.2⟩)
      (.returns decision.otherwise)

/-- Changes conditions and outcomes.  An outcome may change in another way where it is
all there is. -/
def map (onGuard : Condition → Condition) (onOutcome : Bool → Outcome → Outcome)
    (decision : Decision Outcome) : Decision Outcome where
  rows := decision.rows.map fun row => (onGuard row.1, onOutcome false row.2)
  otherwise := onOutcome decision.rows.isEmpty decision.otherwise

def values (ofOutcome : Outcome → List Value) (decision : Decision Outcome) : List Value :=
  decision.rows.flatMap (fun row => row.1.left :: row.1.right :: ofOutcome row.2) ++
    ofOutcome decision.otherwise

variable {onGuard onGuardAgain : Condition → Condition}
variable {onOutcome onOutcomeAgain : Bool → Outcome → Outcome}
variable {ofOutcome : Outcome → List Value} {decision : Decision Outcome}

theorem map_map :
    (decision.map onGuard onOutcome).map onGuardAgain onOutcomeAgain =
      decision.map (onGuardAgain ∘ onGuard)
        fun alone => onOutcomeAgain alone ∘ onOutcome alone := by
  simp [map]

section Values

variable {holds becomes : Value → Prop}

theorem forall_values_iff : (∀ value ∈ decision.values ofOutcome, holds value) ↔
    (∀ row ∈ decision.rows, holds row.1.left ∧ holds row.1.right ∧
      ∀ value ∈ ofOutcome row.2, holds value) ∧
    ∀ value ∈ ofOutcome decision.otherwise, holds value := by
  simp only [values, List.forall_mem_append, List.forall_mem_flatMap, List.forall_mem_cons]

/-- What a change makes of values of some kind holds of the values it leads to. -/
theorem forall_values_map
    (hguard : ∀ condition, holds condition.left → holds condition.right →
      becomes (onGuard condition).left ∧ becomes (onGuard condition).right)
    (houtcome : ∀ alone outcome, (∀ value ∈ ofOutcome outcome, holds value) →
      ∀ value ∈ ofOutcome (onOutcome alone outcome), becomes value)
    (hvalues : ∀ value ∈ decision.values ofOutcome, holds value) :
    ∀ value ∈ (decision.map onGuard onOutcome).values ofOutcome, becomes value := by
  obtain ⟨hrows, hotherwise⟩ := forall_values_iff.mp hvalues
  refine forall_values_iff.mpr ⟨?_, houtcome _ _ hotherwise⟩
  intro row hrow
  obtain ⟨original, horiginal, rfl⟩ := List.mem_map.mp hrow
  obtain ⟨hleft, hright, hresult⟩ := hrows original horiginal
  obtain ⟨hnewLeft, hnewRight⟩ := hguard original.1 hleft hright
  exact ⟨hnewLeft, hnewRight, houtcome false original.2 hresult⟩

/-- Two changes that agree on values of some kind agree on a decision with such values. -/
theorem map_congr
    (hguard : ∀ condition, holds condition.left → holds condition.right →
      onGuard condition = onGuardAgain condition)
    (houtcome : ∀ alone outcome, (∀ value ∈ ofOutcome outcome, holds value) →
      onOutcome alone outcome = onOutcomeAgain alone outcome)
    (hvalues : ∀ value ∈ decision.values ofOutcome, holds value) :
    decision.map onGuard onOutcome = decision.map onGuardAgain onOutcomeAgain := by
  obtain ⟨hrows, hotherwise⟩ := forall_values_iff.mp hvalues
  rw [map, map, houtcome _ _ hotherwise, List.map_congr_left]
  intro row hrow
  obtain ⟨hleft, hright, hresult⟩ := hrows row hrow
  rw [hguard row.1 hleft hright, houtcome false row.2 hresult]

/-- What is picked from the values stays where the change keeps it for values of some kind. -/
theorem filterMap_values_map {Item : Type} {pick : Value → Option Item}
    (hguard : ∀ condition, holds condition.left → holds condition.right →
      pick (onGuard condition).left = pick condition.left ∧
        pick (onGuard condition).right = pick condition.right)
    (houtcome : ∀ alone outcome, (∀ value ∈ ofOutcome outcome, holds value) →
      (ofOutcome (onOutcome alone outcome)).filterMap pick =
        (ofOutcome outcome).filterMap pick)
    (hvalues : ∀ value ∈ decision.values ofOutcome, holds value) :
    ((decision.map onGuard onOutcome).values ofOutcome).filterMap pick =
      (decision.values ofOutcome).filterMap pick := by
  obtain ⟨hrows, hotherwise⟩ := forall_values_iff.mp hvalues
  rw [values, values, map, List.flatMap_map, List.filterMap_append, List.filterMap_append,
    houtcome _ _ hotherwise, List.filterMap_flatMap, List.filterMap_flatMap]
  congr 1
  apply List.flatMap_congr
  intro row hrow
  obtain ⟨hleft, hright, hresult⟩ := hrows row hrow
  obtain ⟨hnewLeft, hnewRight⟩ := hguard row.1 hleft hright
  simp only [List.filterMap_cons, hnewLeft, hnewRight, houtcome false row.2 hresult]

end Values

/-! ## Decisions as trees -/

theorem guardedReturns_tree (decision : Decision Outcome) :
    decision.tree.guardedReturns =
      (decision.rows.map fun row => ⟨some row.1, row.2⟩) ++ [⟨none, decision.otherwise⟩] := by
  have hcases : ∀ rows : List (Condition × Outcome),
      Tree.guardedCases (rows.map fun row => ⟨row.1, .returns row.2⟩) =
        rows.map fun row => ⟨some row.1, row.2⟩ := by
    intro rows
    induction rows with
    | nil => rw [List.map_nil, Tree.guardedCases, List.map_nil]
    | cons row rest ih =>
        rw [List.map_cons, Tree.guardedCases, ih, Tree.guardedReturns]
        rfl
  rw [tree]
  split
  · rename_i hrows
    rw [List.isEmpty_iff.mp hrows, Tree.guardedReturns, List.map_nil, List.nil_append]
  · rw [Tree.guardedReturns, hcases, Tree.guardedReturns]

/-- A decision is the decision of its tree. -/
@[simp]
theorem decision_tree (decision : Decision Outcome) : decision.tree.decision = decision := by
  have hdefault : (decision.rows.map fun row => (⟨some row.1, row.2⟩ :
      GuardedReturn Outcome)).find? GuardedReturn.isDefault = none := by
    simp [GuardedReturn.isDefault]
  have hrows : (decision.rows.map fun row => (⟨some row.1, row.2⟩ :
      GuardedReturn Outcome)).filterMap
        (fun ret => ret.guard.map fun guard => (guard, ret.outcome)) = decision.rows := by
    rw [List.filterMap_map]
    exact List.filterMap_some
  rw [Tree.decision, guardedReturns_tree, List.filterMap_append, hrows, List.find?_append,
    hdefault]
  simp [GuardedReturn.isDefault]

theorem values_tree (decision : Decision Outcome) :
    decision.tree.values ofOutcome = decision.values ofOutcome := by
  have hcases : ∀ rows : List (Condition × Outcome),
      Tree.caseValues ofOutcome (rows.map fun row => ⟨row.1, .returns row.2⟩) =
        rows.flatMap fun row => row.1.left :: row.1.right :: ofOutcome row.2 := by
    intro rows
    induction rows with
    | nil => rw [List.map_nil, Tree.caseValues, List.flatMap_nil]
    | cons row rest ih =>
        rw [List.map_cons, Tree.caseValues, ih, Tree.values, List.flatMap_cons]
  rw [tree, values]
  split
  · rename_i hrows
    rw [List.isEmpty_iff.mp hrows, Tree.values, List.flatMap_nil, List.nil_append]
  · rw [Tree.values, hcases, Tree.values]

theorem meaningBy_tree (meaning : Outcome → Outcome) (decision : Decision Outcome) :
    Tree.meaningBy meaning decision.tree =
      (decision.map Condition.meaning fun _ => meaning).tree := by
  have hcases : ∀ rows : List (Condition × Outcome),
      Tree.casesMeaningBy meaning (rows.map fun row => ⟨row.1, .returns row.2⟩) =
        (rows.map fun row => (row.1.meaning, meaning row.2)).map
          fun row => ⟨row.1, .returns row.2⟩ := by
    intro rows
    induction rows with
    | nil => rw [List.map_nil, Tree.casesMeaningBy, List.map_nil, List.map_nil]
    | cons row rest ih =>
        rw [List.map_cons, Tree.casesMeaningBy, ih, Tree.meaningBy, List.map_cons, List.map_cons]
  rw [tree, tree, map, List.isEmpty_map]
  split
  · rw [Tree.meaningBy]
  · rw [Tree.meaningBy, hcases, Tree.meaningBy]

end Decision

namespace Tree

variable {Outcome : Type}

/-- What is read back is the decision of the tree with its values changed.  A tree always
has a default, so none is ever missing. -/
theorem ofReturns_map_guardedReturns (missing : Outcome) (settle onOutcome : Outcome → Outcome)
    (onGuard : Condition → Condition) (tree : Tree Outcome) :
    ofReturns missing settle (tree.guardedReturns.map (.map onGuard onOutcome)) =
      (tree.decision.map onGuard fun alone outcome =>
        if alone then settle (onOutcome outcome) else onOutcome outcome).tree := by
  obtain ⟨default, hdefault⟩ := tree.exists_find?_isDefault
  have hcases : (tree.guardedReturns.map (.map onGuard onOutcome)).filterMap
      GuardedReturn.case? =
        (tree.decision.rows.map fun row => (onGuard row.1, onOutcome row.2)).map
          fun row => ⟨row.1, .returns row.2⟩ := by
    rw [List.filterMap_map, List.map_map, decision, List.map_filterMap]
    congr 1
    funext ret
    simp [GuardedReturn.case?, GuardedReturn.map, Function.comp_def]
  rw [ofReturns, hcases, GuardedReturn.find?_isDefault_map, Decision.tree, Decision.map]
  simp only [decision, hdefault, Option.map_some, Option.getD_some, List.isEmpty_map,
    Bool.false_eq_true, if_false, GuardedReturn.map]
  split <;> rfl

/-- The values of the decision are values of the tree. -/
theorem mem_values_of_decision {ofOutcome : Outcome → List Value} {tree : Tree Outcome}
    {value : Value} (hvalue : value ∈ tree.decision.values ofOutcome) :
    value ∈ tree.values ofOutcome := by
  have hreturn : ∀ ret ∈ tree.guardedReturns, ∀ value ∈ ret.values ofOutcome,
      value ∈ tree.values ofOutcome := mem_values_of_guardedReturns tree
  obtain ⟨default, hdefault⟩ := tree.exists_find?_isDefault
  simp only [Decision.values, decision, hdefault, Option.map_some, Option.getD_some,
    List.mem_append, List.mem_flatMap, List.mem_filterMap] at hvalue
  obtain ⟨row, ⟨ret, hret, hrow⟩, hmem⟩ | hmem := hvalue
  · obtain ⟨guard, hguard, rfl⟩ := Option.map_eq_some_iff.mp hrow
    apply hreturn ret hret
    rw [GuardedReturn.values, hguard]
    simpa using hmem
  · apply hreturn default (List.mem_of_find?_eq_some hdefault)
    exact List.mem_append_right _ hmem

/-! ## Trees that are one decision -/

/-- Whether a tree is a bare return, or has cases that lead to bare returns only. -/
def IsDecision : Tree Outcome → Prop
  | .returns _ => True
  | .decides cases otherwise =>
    cases ≠ [] ∧ (∀ case ∈ cases, ∃ outcome, case.body = .returns outcome) ∧
      ∃ outcome, otherwise = .returns outcome

theorem isDecision_tree (decision : Decision Outcome) : decision.tree.IsDecision := by
  rw [Decision.tree]
  split
  · trivial
  · rename_i hrows
    rw [List.isEmpty_iff] at hrows
    refine ⟨by simpa using hrows, ?_, decision.otherwise, rfl⟩
    intro case hcase
    obtain ⟨row, -, rfl⟩ := List.mem_map.mp hcase
    exact ⟨row.2, rfl⟩

/-- A tree that is one decision is the tree of its decision. -/
theorem IsDecision.tree_decision {tree : Tree Outcome} (htree : tree.IsDecision) :
    tree.decision.tree = tree := by
  have hdecision : ∃ decision : Decision Outcome, decision.tree = tree := by
    cases tree with
    | returns outcome => exact ⟨⟨[], outcome⟩, rfl⟩
    | decides cases otherwise =>
        obtain ⟨hcases, hbodies, last, rfl⟩ := htree
        refine ⟨⟨cases.map fun case => (case.condition, case.body.lastReturn), last⟩, ?_⟩
        have hrows : (cases.map fun case => (case.condition, case.body.lastReturn)).map
            (fun row => (⟨row.1, .returns row.2⟩ : Case (Tree Outcome))) = cases := by
          rw [List.map_map]
          refine (List.map_congr_left ?_).trans (List.map_id cases)
          intro ⟨condition, body⟩ hcase
          obtain ⟨outcome, rfl⟩ : ∃ outcome, body = .returns outcome := hbodies _ hcase
          rfl
        rw [Decision.tree, hrows, if_neg (by simpa using hcases)]
  obtain ⟨decision, rfl⟩ := hdecision
  rw [Decision.decision_tree]

theorem casesMeaningBy_eq_map (meaning : Outcome → Outcome)
    (cases : List (Case (Tree Outcome))) :
    casesMeaningBy meaning cases =
      cases.map fun case => ⟨case.condition.meaning, meaningBy meaning case.body⟩ := by
  induction cases with
  | nil => rw [casesMeaningBy, List.map_nil]
  | cons case rest ih => rw [casesMeaningBy, ih, List.map_cons]

theorem meaningBy_eq_returns_iff {meaning : Outcome → Outcome} {tree : Tree Outcome} :
    (∃ outcome, meaningBy meaning tree = .returns outcome) ↔
      ∃ outcome, tree = .returns outcome := by
  cases tree with
  | returns outcome => simp [meaningBy]
  | decides cases otherwise => simp [meaningBy]

/-- Whether a tree is one decision shows in its meaning. -/
theorem isDecision_meaningBy {meaning : Outcome → Outcome} {tree : Tree Outcome} :
    (meaningBy meaning tree).IsDecision ↔ tree.IsDecision := by
  cases tree with
  | returns outcome => rw [meaningBy, IsDecision, IsDecision]
  | decides cases otherwise =>
      rw [meaningBy, casesMeaningBy_eq_map, IsDecision, IsDecision, meaningBy_eq_returns_iff,
        List.forall_mem_map]
      simp only [ne_eq, List.map_eq_nil_iff, meaningBy_eq_returns_iff]

end Tree

namespace Decision

variable {Outcome : Type}

theorem tree_injective {decision other : Decision Outcome}
    (hsame : decision.tree = other.tree) : decision = other := by
  rw [← decision_tree decision, hsame, decision_tree]

/-- Two changes of a decision come to the same where they agree on each of its parts. -/
theorem map_eq_map_iff {onGuard onGuardAgain : Condition → Condition}
    {onOutcome onOutcomeAgain : Bool → Outcome → Outcome} {decision : Decision Outcome} :
    decision.map onGuard onOutcome = decision.map onGuardAgain onOutcomeAgain ↔
      (∀ row ∈ decision.rows, onGuard row.1 = onGuardAgain row.1 ∧
        onOutcome false row.2 = onOutcomeAgain false row.2) ∧
      onOutcome decision.rows.isEmpty decision.otherwise =
        onOutcomeAgain decision.rows.isEmpty decision.otherwise := by
  simp only [map, mk.injEq, List.map_inj_left, Prod.mk.injEq]

end Decision

end DecisionCanvas
