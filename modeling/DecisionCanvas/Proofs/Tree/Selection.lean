import DecisionCanvas.Proofs.Tree.Returns
import Mathlib.Data.List.Find

/-!
# What a tree selects

Under an assignment of truth values to conditions a tree selects one of its returns.  A
row of guarded returns selects as well: the first return whose guard holds, or the first
default.  The two agree for trees without cases inside bodies, and for no other tree
whose returns can be told apart.
-/

namespace DecisionCanvas

namespace Tree

variable {Outcome : Type}

mutual

/-- The return that is reached by taking the first case that holds. -/
def select (holds : Condition → Bool) : Tree Outcome → Outcome
  | .returns outcome => outcome
  | .decides cases otherwise => (selectCase holds cases).getD (otherwise.select holds)

/-- The return that is reached through the first case that holds, if there is one. -/
def selectCase (holds : Condition → Bool) : List (Case (Tree Outcome)) → Option Outcome
  | [] => none
  | ⟨condition, body⟩ :: rest =>
    if holds condition then some (body.select holds) else selectCase holds rest

end

mutual

/-- The values of a tree in the order in which they are evaluated. -/
def values (ofOutcome : Outcome → List Value) : Tree Outcome → List Value
  | .returns outcome => ofOutcome outcome
  | .decides cases otherwise => caseValues ofOutcome cases ++ otherwise.values ofOutcome

/-- The values of cases in the order in which they are evaluated. -/
def caseValues (ofOutcome : Outcome → List Value) : List (Case (Tree Outcome)) → List Value
  | [] => []
  | ⟨condition, body⟩ :: rest =>
    condition.left :: condition.right :: body.values ofOutcome ++ caseValues ofOutcome rest

end

end Tree

/-- The values of an if-tree in the order in which they are evaluated. -/
def IfTree.values (tree : IfTree) : List Value :=
  Tree.values (fun value => [value]) tree

/-- The values of an adjustment tree in the order in which they are evaluated. -/
def AdjustmentTree.values (tree : AdjustmentTree) : List Value :=
  Tree.values (List.map Adjustment.value) tree

namespace GuardedReturn

variable {Outcome : Type}

/-- Whether the guard of a return holds; a default has none. -/
def fires (holds : Condition → Bool) (ret : GuardedReturn Outcome) : Bool :=
  ret.guard.any holds

/-- The outcome of the first return whose guard holds, or else of the first default. -/
def chosen? (holds : Condition → Bool) (returns : List (GuardedReturn Outcome)) :
    Option Outcome :=
  ((returns.find? (fires holds)).or (returns.find? isDefault)).map outcome

/-- The values of a guarded return. -/
def values (ofOutcome : Outcome → List Value) (ret : GuardedReturn Outcome) : List Value :=
  ret.guard.toList.flatMap (fun condition => [condition.left, condition.right]) ++
    ofOutcome ret.outcome

theorem mem_of_chosen? {holds : Condition → Bool} {returns : List (GuardedReturn Outcome)}
    {chosen : Outcome} (hchosen : chosen? holds returns = some chosen) :
    ∃ ret ∈ returns, ret.outcome = chosen := by
  rw [chosen?, Option.map_eq_some_iff] at hchosen
  obtain ⟨ret, hret, hchosen⟩ := hchosen
  cases Option.or_eq_some_iff.mp hret with
  | inl hfires => exact ⟨ret, List.mem_of_find?_eq_some hfires, hchosen⟩
  | inr hdefault => exact ⟨ret, List.mem_of_find?_eq_some hdefault.2, hchosen⟩

theorem find?_isDefault_map (onGuard : Condition → Condition) (onOutcome : Outcome → Outcome)
    (returns : List (GuardedReturn Outcome)) :
    (returns.map (.map onGuard onOutcome)).find? isDefault =
      (returns.find? isDefault).map (.map onGuard onOutcome) := by
  rw [List.find?_map]
  congr 2
  funext ret
  exact ret.isDefault_map onGuard onOutcome

/-- The choice does not change with the form of outcomes, and not with that of
conditions that keep their truth value. -/
theorem chosen?_map {holds : Condition → Bool} {onGuard : Condition → Condition}
    (onOutcome : Outcome → Outcome) {returns : List (GuardedReturn Outcome)}
    (hkeeps : ∀ ret ∈ returns, ∀ condition ∈ ret.guard,
      holds (onGuard condition) = holds condition) :
    chosen? holds (returns.map (.map onGuard onOutcome)) =
      (chosen? holds returns).map onOutcome := by
  have hfires : (returns.map (.map onGuard onOutcome)).find? (fires holds) =
      (returns.find? (fires holds)).map (.map onGuard onOutcome) := by
    rw [List.find?_map]
    congr 1
    refine List.find?_congr fun ret hret => ?_
    cases hguard : ret.guard with
    | none => simp [fires, map, hguard]
    | some condition => simp [fires, map, hguard, hkeeps ret hret condition hguard]
  rw [chosen?, chosen?, hfires, find?_isDefault_map, Option.map_map]
  cases returns.find? (fires holds) <;> cases returns.find? isDefault <;> rfl

end GuardedReturn

namespace Tree

variable {Outcome : Type}

theorem selectCase_filterMap (holds : Condition → Bool) (returns : List (GuardedReturn Outcome)) :
    selectCase holds (returns.filterMap GuardedReturn.case?) =
      (returns.find? (GuardedReturn.fires holds)).map GuardedReturn.outcome := by
  induction returns with
  | nil => rfl
  | cons ret rest ih =>
      cases hguard : ret.guard with
      | none => simp [GuardedReturn.case?, GuardedReturn.fires, hguard, ih]
      | some condition =>
          by_cases hholds : holds condition = true
          · simp [GuardedReturn.case?, GuardedReturn.fires, hguard, hholds, selectCase, select]
          · simp [GuardedReturn.case?, GuardedReturn.fires, hguard, hholds, selectCase, ih]

/-- A decision made of guarded returns selects as they do. -/
theorem select_ofReturns (holds : Condition → Bool) (missing : Outcome)
    (returns : List (GuardedReturn Outcome)) :
    (ofReturns missing id returns).select holds =
      (GuardedReturn.chosen? holds returns).getD missing := by
  have hcase := selectCase_filterMap holds returns
  rw [ofReturns, GuardedReturn.chosen?]
  by_cases hcases : (returns.filterMap GuardedReturn.case?).isEmpty
  · rw [if_pos hcases, select]
    rw [List.isEmpty_iff.mp hcases] at hcase
    cases hfires : returns.find? (GuardedReturn.fires holds) with
    | none => rw [Option.none_or, id]
    | some ret => simp [hfires, selectCase] at hcase
  · rw [if_neg hcases, select, select, hcase]
    cases returns.find? (GuardedReturn.fires holds) <;> rfl

theorem exists_find?_isDefault (tree : Tree Outcome) :
    ∃ ret, tree.guardedReturns.find? GuardedReturn.isDefault = some ret := by
  obtain ⟨front, hfront⟩ := tree.exists_guardedReturns_eq_append
  rw [← Option.isSome_iff_exists, List.find?_isSome]
  exact ⟨⟨none, tree.lastReturn⟩, by rw [hfront]; simp, rfl⟩

theorem exists_chosen? (holds : Condition → Bool) (tree : Tree Outcome) :
    ∃ outcome, GuardedReturn.chosen? holds tree.guardedReturns = some outcome := by
  obtain ⟨ret, hret⟩ := tree.exists_find?_isDefault
  rw [GuardedReturn.chosen?, hret]
  cases tree.guardedReturns.find? (GuardedReturn.fires holds) with
  | none => exact ⟨ret.outcome, rfl⟩
  | some first => exact ⟨first.outcome, rfl⟩

/-! ## Trees whose bodies contain no cases -/

theorem select_of_caseless (holds : Condition → Bool) {tree : Tree Outcome}
    (htree : tree.bodies = []) : tree.select holds = tree.lastReturn := by
  match tree with
  | .returns outcome => rw [select, lastReturn]
  | .decides cases otherwise =>
      obtain ⟨rfl, hotherwise⟩ := bodies_decides_eq_nil htree
      rw [select, selectCase, Option.getD_none, lastReturn,
        select_of_caseless holds hotherwise]

theorem selectCase_of_flat (holds : Condition → Bool) {cases : List (Case (Tree Outcome))}
    (hflat : ∀ body ∈ caseBodies cases, body.hasCase = false) :
    selectCase holds cases =
      ((guardedCases cases).find? (GuardedReturn.fires holds)).map GuardedReturn.outcome := by
  rw [guardedCases_of_flat hflat]
  induction cases with
  | nil => rfl
  | cons first rest ih =>
      obtain ⟨hbody, hrest⟩ := caseBodies_cons_flat hflat
      rw [selectCase, ih hrest, select_of_caseless holds hbody, List.map_cons, List.find?_cons]
      by_cases hholds : holds first.condition = true
      · simp [GuardedReturn.fires, hholds]
      · simp [GuardedReturn.fires, hholds]

/-- Without cases inside bodies the guarded returns select as the tree does. -/
theorem chosen?_of_flat (holds : Condition → Bool) {tree : Tree Outcome}
    (hflat : tree.FlatBodies) :
    GuardedReturn.chosen? holds tree.guardedReturns = some (tree.select holds) := by
  match tree with
  | .returns outcome =>
      rw [guardedReturns, select]
      rfl
  | .decides cases otherwise =>
      obtain ⟨hcases, hotherwise⟩ := flatBodies_decides.mp hflat
      have hselect := chosen?_of_flat holds hotherwise
      have hcase := selectCase_of_flat holds hcases
      have hdefault : (guardedCases cases).find? GuardedReturn.isDefault = none := by
        rw [guardedCases_of_flat hcases]
        simp [GuardedReturn.isDefault]
      rw [GuardedReturn.chosen?] at hselect ⊢
      rw [guardedReturns, select, hcase, List.find?_append, List.find?_append, hdefault,
        Option.none_or]
      cases hfires : (guardedCases cases).find? (GuardedReturn.fires holds) with
      | none => exact hselect
      | some ret => rfl

/-! ## Other trees -/

theorem select_none (tree : Tree Outcome) : tree.select (fun _ => false) = tree.lastReturn := by
  induction tree using lastReturn.induct with
  | case1 outcome => rw [select, lastReturn]
  | case2 cases otherwise ih =>
      have hcases : selectCase (fun _ => false) cases = none := by
        induction cases with
        | nil => rfl
        | cons first rest ih => simp [selectCase, ih]
      rw [select, hcases, Option.getD_none, lastReturn, ih]

/-- If returns can be told apart and the guarded returns select the last one when nothing
holds, then no body of a case contains a case. -/
theorem flatBodies_of_chosen? {same : Outcome → Outcome → Bool} {tree : Tree Outcome}
    (hapart : tree.guardedReturns.Pairwise fun left right =>
      same left.outcome right.outcome = false)
    (hchosen : ∀ outcome,
      GuardedReturn.chosen? (fun _ => false) tree.guardedReturns = some outcome →
        same outcome tree.lastReturn = true) : tree.FlatBodies := by
  obtain ⟨front, hfront⟩ := tree.exists_guardedReturns_eq_append
  refine flatBodies_of_guarded hfront fun ret hret => ?_
  cases hdefault : ret.isDefault with
  | false => rfl
  | true =>
      have hfires : tree.guardedReturns.find? (GuardedReturn.fires fun _ => false) = none := by
        simp [GuardedReturn.fires]
      have hfirst : (front.find? GuardedReturn.isDefault).isSome = true :=
        List.find?_isSome.mpr ⟨ret, hret, hdefault⟩
      obtain ⟨first, hfound⟩ := Option.isSome_iff_exists.mp hfirst
      have hsame : same first.outcome tree.lastReturn = true := by
        refine hchosen first.outcome ?_
        rw [GuardedReturn.chosen?, hfires, Option.none_or, hfront, List.find?_append, hfound]
        rfl
      rw [hfront, List.pairwise_append] at hapart
      have hother := hapart.2.2 first (List.mem_of_find?_eq_some hfound)
        ⟨none, tree.lastReturn⟩ (List.mem_singleton_self _)
      exact absurd hsame (Bool.eq_false_iff.mp hother)

/-! ## Values -/

theorem mem_guardFirst_values {ofOutcome : Outcome → List Value} {condition : Condition}
    {returns : List (GuardedReturn Outcome)} {ret : GuardedReturn Outcome}
    (hret : ret ∈ GuardedReturn.guardFirst condition returns) {value : Value}
    (hvalue : value ∈ ret.values ofOutcome) :
    value = condition.left ∨ value = condition.right ∨
      ∃ original ∈ returns, value ∈ original.values ofOutcome := by
  cases returns with
  | nil => exact absurd hret List.not_mem_nil
  | cons first rest =>
      cases List.mem_cons.mp hret with
      | inr hrest => exact Or.inr (Or.inr ⟨ret, List.mem_cons_of_mem _ hrest, hvalue⟩)
      | inl hfirst =>
          subst hfirst
          simp only [GuardedReturn.values, Option.toList_some, List.flatMap_singleton,
            List.mem_append, List.mem_cons, List.not_mem_nil, or_false] at hvalue
          obtain (hleft | hright) | houtcome := hvalue
          · exact Or.inl hleft
          · exact Or.inr (Or.inl hright)
          · exact Or.inr (Or.inr ⟨first, List.mem_cons_self, List.mem_append_right _ houtcome⟩)

mutual

/-- The values of guarded returns are values of the tree. -/
theorem mem_values_of_guardedReturns {ofOutcome : Outcome → List Value} (tree : Tree Outcome) :
    ∀ ret ∈ tree.guardedReturns, ∀ value ∈ ret.values ofOutcome,
      value ∈ tree.values ofOutcome := by
  intro ret hret value hvalue
  match tree with
  | .returns outcome =>
      rw [guardedReturns, List.mem_singleton] at hret
      subst hret
      rw [values]
      exact hvalue
  | .decides cases otherwise =>
      rw [guardedReturns] at hret
      rw [values]
      cases List.mem_append.mp hret with
      | inl hret =>
          exact List.mem_append_left _ (mem_values_of_guardedCases cases ret hret value hvalue)
      | inr hret =>
          exact List.mem_append_right _
            (otherwise.mem_values_of_guardedReturns ret hret value hvalue)

theorem mem_values_of_guardedCases {ofOutcome : Outcome → List Value}
    (cases : List (Case (Tree Outcome))) :
    ∀ ret ∈ guardedCases cases, ∀ value ∈ ret.values ofOutcome,
      value ∈ caseValues ofOutcome cases := by
  intro ret hret value hvalue
  match cases with
  | [] =>
      rw [guardedCases] at hret
      exact absurd hret List.not_mem_nil
  | ⟨condition, body⟩ :: rest =>
      rw [guardedCases] at hret
      rw [caseValues]
      cases List.mem_append.mp hret with
      | inl hret =>
          refine List.mem_append_left _ ?_
          obtain rfl | rfl | ⟨original, horiginal, hmem⟩ := mem_guardFirst_values hret hvalue
          · exact List.mem_cons_self
          · exact List.mem_cons_of_mem _ List.mem_cons_self
          · exact List.mem_cons_of_mem _ (List.mem_cons_of_mem _
              (body.mem_values_of_guardedReturns original horiginal value hmem))
      | inr hret =>
          exact List.mem_append_right _ (mem_values_of_guardedCases rest ret hret value hvalue)

end

end Tree

end DecisionCanvas
