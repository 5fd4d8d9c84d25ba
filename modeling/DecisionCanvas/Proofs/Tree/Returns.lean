import DecisionCanvas.Tree.Basic

/-!
# The returns of a tree

A tree of any nesting has its returns in a row, from left to right.  Each case puts its
condition on the first return of its body, an outer case over an inner one, so a return
keeps at most one of the conditions above it.  Reading such a row back gives a single
decision, in which the guarded returns are the cases and the first unguarded return is
what holds otherwise.
-/

namespace DecisionCanvas

/-- A return and the condition that was put on it. -/
structure GuardedReturn (Outcome : Type) where
  guard : Option Condition
  outcome : Outcome

namespace GuardedReturn

variable {Outcome : Type}

def isDefault (ret : GuardedReturn Outcome) : Bool :=
  ret.guard.isNone

def map (onGuard : Condition → Condition) (onOutcome : Outcome → Outcome)
    (ret : GuardedReturn Outcome) : GuardedReturn Outcome :=
  ⟨ret.guard.map onGuard, onOutcome ret.outcome⟩

@[simp]
theorem isDefault_map (onGuard : Condition → Condition) (onOutcome : Outcome → Outcome)
    (ret : GuardedReturn Outcome) : (ret.map onGuard onOutcome).isDefault = ret.isDefault := by
  simp [isDefault, map]

/-- The case that a guarded return is read as. -/
def case? (ret : GuardedReturn Outcome) : Option (Case (Tree Outcome)) :=
  ret.guard.map fun condition => ⟨condition, .returns ret.outcome⟩

/-- Puts a condition on the first return, over the one it has. -/
def guardFirst (condition : Condition) :
    List (GuardedReturn Outcome) → List (GuardedReturn Outcome)
  | [] => []
  | first :: rest => { first with guard := some condition } :: rest

@[simp]
theorem map_outcome_guardFirst (condition : Condition) (returns : List (GuardedReturn Outcome)) :
    (guardFirst condition returns).map outcome = returns.map outcome := by
  cases returns with
  | nil => rfl
  | cons first rest => rfl

end GuardedReturn

namespace Tree

variable {Outcome : Type}

mutual

/-- The returns of a tree with the conditions put on them. -/
def guardedReturns : Tree Outcome → List (GuardedReturn Outcome)
  | .returns outcome => [⟨none, outcome⟩]
  | .decides cases otherwise => guardedCases cases ++ otherwise.guardedReturns

/-- The returns of cases with the conditions put on them. -/
def guardedCases : List (Case (Tree Outcome)) → List (GuardedReturn Outcome)
  | [] => []
  | ⟨condition, body⟩ :: rest =>
    GuardedReturn.guardFirst condition body.guardedReturns ++ guardedCases rest

end

mutual

/-- The bodies of all cases, at any depth. -/
def bodies : Tree Outcome → List (Tree Outcome)
  | .returns _ => []
  | .decides cases otherwise => caseBodies cases ++ otherwise.bodies

/-- The bodies of cases and all bodies inside them. -/
def caseBodies : List (Case (Tree Outcome)) → List (Tree Outcome)
  | [] => []
  | ⟨_, body⟩ :: rest => body :: body.bodies ++ caseBodies rest

end

/-- Whether a tree contains a case. -/
def hasCase (tree : Tree Outcome) : Bool :=
  !tree.bodies.isEmpty

/-- A tree in which no body of a case contains another case. -/
def FlatBodies (tree : Tree Outcome) : Prop :=
  ∀ body ∈ tree.bodies, body.hasCase = false

/-- The cases met on the way down the trees for when no case holds. -/
def spine : Tree Outcome → List (Case (Tree Outcome))
  | .returns _ => []
  | .decides cases otherwise => cases ++ otherwise.spine

/-- The return at the end of that way. -/
def lastReturn : Tree Outcome → Outcome
  | .returns outcome => outcome
  | .decides _ otherwise => otherwise.lastReturn

/-- One decision with the guarded returns as cases.  The first default is what holds
otherwise, or `missing` if there is none; without cases it is all there is, in the form
that `settle` gives it. -/
def ofReturns (missing : Outcome) (settle : Outcome → Outcome)
    (returns : List (GuardedReturn Outcome)) : Tree Outcome :=
  let fallback := ((returns.find? GuardedReturn.isDefault).map GuardedReturn.outcome).getD missing
  let cases := returns.filterMap GuardedReturn.case?
  if cases.isEmpty then .returns (settle fallback) else .decides cases (.returns fallback)

theorem hasCase_eq_false_iff {tree : Tree Outcome} : tree.hasCase = false ↔ tree.bodies = [] := by
  simp [hasCase]

theorem flatBodies_decides {cases : List (Case (Tree Outcome))} {otherwise : Tree Outcome} :
    (decides cases otherwise).FlatBodies ↔
      (∀ body ∈ caseBodies cases, body.hasCase = false) ∧ otherwise.FlatBodies := by
  simp only [FlatBodies, bodies, List.mem_append, or_imp, forall_and]

theorem bodies_decides_eq_nil {cases : List (Case (Tree Outcome))} {otherwise : Tree Outcome}
    (hbodies : (decides cases otherwise).bodies = []) : cases = [] ∧ otherwise.bodies = [] := by
  cases cases with
  | nil =>
      rw [bodies, caseBodies, List.nil_append] at hbodies
      exact ⟨rfl, hbodies⟩
  | cons first rest =>
      rw [bodies, caseBodies] at hbodies
      exact absurd hbodies (by simp)

/-- Where no body contains a case, neither the first body nor the others have bodies. -/
theorem caseBodies_cons_flat {first : Case (Tree Outcome)} {rest : List (Case (Tree Outcome))}
    (hflat : ∀ body ∈ caseBodies (first :: rest), body.hasCase = false) :
    first.body.bodies = [] ∧ ∀ body ∈ caseBodies rest, body.hasCase = false := by
  rw [caseBodies, List.cons_append, List.forall_mem_cons] at hflat
  obtain ⟨hfirst, hothers⟩ := hflat
  exact ⟨hasCase_eq_false_iff.mp hfirst, fun body hbody =>
    hothers body (List.mem_append_right _ hbody)⟩

/-- The last return is never guarded. -/
theorem exists_guardedReturns_eq_append (tree : Tree Outcome) :
    ∃ front, tree.guardedReturns = front ++ [⟨none, tree.lastReturn⟩] := by
  match tree with
  | .returns outcome => exact ⟨[], by rw [guardedReturns, lastReturn, List.nil_append]⟩
  | .decides cases otherwise =>
      obtain ⟨front, hfront⟩ := otherwise.exists_guardedReturns_eq_append
      refine ⟨guardedCases cases ++ front, ?_⟩
      rw [guardedReturns, lastReturn, hfront, List.append_assoc]

/-- A tree without cases has nothing but its last return. -/
theorem guardedReturns_of_caseless {tree : Tree Outcome} (htree : tree.bodies = []) :
    tree.guardedReturns = [⟨none, tree.lastReturn⟩] := by
  match tree with
  | .returns outcome => rw [guardedReturns, lastReturn]
  | .decides cases otherwise =>
      obtain ⟨rfl, hotherwise⟩ := bodies_decides_eq_nil htree
      rw [guardedReturns, guardedCases, List.nil_append, lastReturn,
        guardedReturns_of_caseless hotherwise]

theorem guardedCases_of_flat {cases : List (Case (Tree Outcome))}
    (hflat : ∀ body ∈ caseBodies cases, body.hasCase = false) :
    guardedCases cases =
      cases.map fun case => ⟨some case.condition, case.body.lastReturn⟩ := by
  induction cases with
  | nil => rw [guardedCases, List.map_nil]
  | cons first rest ih =>
      obtain ⟨hbody, hrest⟩ := caseBodies_cons_flat hflat
      rw [guardedCases, guardedReturns_of_caseless hbody, ih hrest]
      rfl

/-- Without cases inside bodies no condition is lost: every case of the spine guards the
one return of its body. -/
theorem guardedReturns_of_flat {tree : Tree Outcome} (hflat : tree.FlatBodies) :
    tree.guardedReturns =
      (tree.spine.map fun case => ⟨some case.condition, case.body.lastReturn⟩) ++
        [⟨none, tree.lastReturn⟩] := by
  match tree with
  | .returns outcome => rw [guardedReturns, spine, lastReturn, List.map_nil, List.nil_append]
  | .decides cases otherwise =>
      obtain ⟨hcases, hotherwise⟩ := flatBodies_decides.mp hflat
      rw [guardedReturns, spine, lastReturn, guardedCases_of_flat hcases,
        guardedReturns_of_flat hotherwise, List.map_append, List.append_assoc]

/-! ## Counting defaults -/

/-- The first return of a tree with a case is guarded. -/
theorem guardedReturns_of_hasCase {tree : Tree Outcome} (htree : tree.hasCase = true) :
    ∃ condition outcome rest, tree.guardedReturns = ⟨some condition, outcome⟩ :: rest := by
  match tree with
  | .returns outcome => simp [hasCase, bodies] at htree
  | .decides [] otherwise =>
      have hotherwise : otherwise.hasCase = true := by
        rw [hasCase, bodies, caseBodies, List.nil_append] at htree
        exact htree
      rw [guardedReturns, guardedCases, List.nil_append]
      exact guardedReturns_of_hasCase hotherwise
  | .decides (⟨condition, body⟩ :: rest) otherwise =>
      obtain ⟨front, hfront⟩ := body.exists_guardedReturns_eq_append
      rw [guardedReturns, guardedCases, hfront]
      cases front with
      | nil => exact ⟨condition, body.lastReturn, _, rfl⟩
      | cons first others => exact ⟨condition, first.outcome, _, rfl⟩

/-- Guarding the first return takes away the one default of a tree without cases, and no
default of any other tree. -/
theorem countP_guardFirst (condition : Condition) {tree : Tree Outcome}
    (hcount : tree.guardedReturns.countP GuardedReturn.isDefault =
      1 + tree.bodies.countP hasCase) :
    (GuardedReturn.guardFirst condition tree.guardedReturns).countP GuardedReturn.isDefault =
      (tree :: tree.bodies).countP hasCase := by
  cases hcase : tree.hasCase with
  | false =>
      have hbodies := hasCase_eq_false_iff.mp hcase
      rw [guardedReturns_of_caseless hbodies, List.countP_cons, hbodies, hcase]
      rfl
  | true =>
      obtain ⟨inner, outcome, rest, hreturns⟩ := guardedReturns_of_hasCase hcase
      rw [List.countP_cons, hcase, if_pos rfl, Nat.add_comm, ← hcount, hreturns]
      rfl

mutual

/-- A tree has one default of its own and one more for every body that contains a case. -/
theorem countP_isDefault_guardedReturns (tree : Tree Outcome) :
    tree.guardedReturns.countP GuardedReturn.isDefault = 1 + tree.bodies.countP hasCase := by
  match tree with
  | .returns outcome =>
      rw [guardedReturns, bodies]
      rfl
  | .decides cases otherwise =>
      rw [guardedReturns, bodies, List.countP_append, List.countP_append,
        countP_isDefault_guardedCases cases, otherwise.countP_isDefault_guardedReturns]
      omega

theorem countP_isDefault_guardedCases (cases : List (Case (Tree Outcome))) :
    (guardedCases cases).countP GuardedReturn.isDefault =
      (caseBodies cases).countP hasCase := by
  match cases with
  | [] =>
      rw [guardedCases, caseBodies]
      rfl
  | ⟨condition, body⟩ :: rest =>
      rw [guardedCases, caseBodies, List.countP_append, List.countP_append,
        countP_guardFirst condition body.countP_isDefault_guardedReturns,
        countP_isDefault_guardedCases rest]

end

/-- If the last return is the only default, no body of a case contains a case. -/
theorem flatBodies_of_guarded {tree : Tree Outcome} {front : List (GuardedReturn Outcome)}
    (hfront : tree.guardedReturns = front ++ [⟨none, tree.lastReturn⟩])
    (hguarded : ∀ ret ∈ front, ret.isDefault = false) : tree.FlatBodies := by
  have hcount := tree.countP_isDefault_guardedReturns
  have hnone : front.countP GuardedReturn.isDefault = 0 := by
    rw [List.countP_eq_zero]
    intro ret hret
    simp [hguarded ret hret]
  have hlast : [(⟨none, tree.lastReturn⟩ : GuardedReturn Outcome)].countP
      GuardedReturn.isDefault = 1 := rfl
  rw [hfront, List.countP_append, hnone, hlast] at hcount
  have hbodies : tree.bodies.countP hasCase = 0 := by omega
  intro body hbody
  exact Bool.eq_false_iff.mpr (List.countP_eq_zero.mp hbodies body hbody)

/-! ## Reading back -/

/-- Guarded returns before one default make up a decision between all of them. -/
theorem ofReturns_of_guarded {Item : Type} (missing : Outcome) (settle : Outcome → Outcome)
    (items : List Item) (guard : Item → Condition) (outcome : Item → Outcome) (last : Outcome) :
    ofReturns missing settle
        ((items.map fun item => ⟨some (guard item), outcome item⟩) ++ [⟨none, last⟩]) =
      if items.isEmpty then .returns (settle last)
      else .decides (items.map fun item => ⟨guard item, .returns (outcome item)⟩)
        (.returns last) := by
  have hdefault : (items.map fun item => (⟨some (guard item), outcome item⟩ :
      GuardedReturn Outcome)).find? GuardedReturn.isDefault = none := by
    simp [GuardedReturn.isDefault]
  have hcases : (items.map fun item => (⟨some (guard item), outcome item⟩ :
      GuardedReturn Outcome)).filterMap GuardedReturn.case? =
        items.map fun item => ⟨guard item, .returns (outcome item)⟩ := by
    rw [List.filterMap_map, ← List.filterMap_eq_map]
    rfl
  have hlast : [(⟨none, last⟩ : GuardedReturn Outcome)].filterMap GuardedReturn.case? = [] :=
    rfl
  rw [ofReturns, List.find?_append, hdefault, List.filterMap_append, hcases, hlast]
  simp [GuardedReturn.isDefault]

end Tree

end DecisionCanvas
