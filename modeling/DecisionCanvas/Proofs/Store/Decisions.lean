import DecisionCanvas.Proofs.Store.RoundTrip
import DecisionCanvas.Proofs.Tree.Selection

/-!
# What a stored tree decides

A record keeps one condition, so of the conditions above a return only the outermost one
that reaches it is stored.  A loaded tree therefore selects what the guarded returns of
the saved tree select.  That is what the saved tree selects as long as no body of a case
contains a case, and is not for any other tree whose returns can be told apart.
-/

namespace DecisionCanvas

/-- An assignment of truth values that does not tell equivalent conditions apart. -/
def RespectsEquivalence (holds : Condition → Bool) : Prop :=
  ∀ left right, Condition.equivalent left right = true → holds left = holds right

namespace IfTree

/-- A tree whose values are what they are read back as. -/
def Stable (catalog : Catalog) (tree : IfTree) : Prop :=
  ∀ value ∈ tree.values, value.equivalent (value.normal catalog) = true

/-- A tree no two of whose returns are equivalent. -/
def ReturnsApart (tree : IfTree) : Prop :=
  (Tree.guardedReturns tree).Pairwise fun left right =>
    left.outcome.equivalent right.outcome = false

/-- Whether two trees select equivalent values under every assignment. -/
def SelectsAs (tree other : IfTree) : Prop :=
  ∀ holds, RespectsEquivalence holds →
    (Tree.select holds tree).equivalent (Tree.select holds other) = true

variable {catalog : Catalog} {tree : IfTree}

theorem Stable.outcome (hstable : tree.Stable catalog) {ret : GuardedReturn Value}
    (hret : ret ∈ Tree.guardedReturns tree) :
    ret.outcome.equivalent (ret.outcome.normal catalog) = true :=
  hstable ret.outcome (Tree.mem_values_of_guardedReturns tree ret hret ret.outcome
    (List.mem_append_right _ (List.mem_singleton_self _)))

theorem Stable.guard (hstable : tree.Stable catalog) {ret : GuardedReturn Value}
    (hret : ret ∈ Tree.guardedReturns tree) {condition : Condition}
    (hcondition : condition ∈ ret.guard) :
    condition.equivalent (condition.normal catalog) = true := by
  have hside : ∀ value ∈ [condition.left, condition.right],
      value.equivalent (value.normal catalog) = true := by
    intro value hvalue
    refine hstable value (Tree.mem_values_of_guardedReturns tree ret hret value ?_)
    refine List.mem_append_left _ (List.mem_flatMap.mpr ⟨condition, ?_, hvalue⟩)
    exact Option.mem_toList.mpr hcondition
  have hleft := hside condition.left (by simp)
  have hright := hside condition.right (by simp)
  simp [Condition.equivalent, Condition.normal, hleft, hright]

/-- A tree with stable values that is read back selects what the guarded returns of the
saved one select. -/
theorem select_reloaded (hstable : tree.Stable catalog) {holds : Condition → Bool}
    (hrespects : RespectsEquivalence holds) :
    ∃ chosen, GuardedReturn.chosen? holds (Tree.guardedReturns tree) = some chosen ∧
      (Tree.select holds (tree.reloaded catalog .numeric)).equivalent chosen = true := by
  obtain ⟨chosen, hchosen⟩ := Tree.exists_chosen? holds tree
  refine ⟨chosen, hchosen, ?_⟩
  have hkeeps : ∀ ret ∈ Tree.guardedReturns tree, ∀ condition ∈ ret.guard,
      holds (condition.normal catalog) = holds condition := by
    intro ret hret condition hcondition
    exact (hrespects condition _ (hstable.guard hret hcondition)).symm
  have hsettle : TreeKind.settle .numeric = id := rfl
  have hnormal := GuardedReturn.chosen?_map (Value.normal catalog) hkeeps
  have houtcome : chosen.equivalent (chosen.normal catalog) = true := by
    obtain ⟨ret, hret, rfl⟩ := GuardedReturn.mem_of_chosen? hchosen
    exact hstable.outcome hret
  rw [reloaded, hsettle, Tree.select_ofReturns, hnormal, hchosen, Option.map_some,
    Option.getD_some]
  exact Value.equivalent_symm houtcome

theorem reloaded_selectsAs_of_flat (hstable : tree.Stable catalog)
    (hflat : Tree.FlatBodies tree) : (tree.reloaded catalog .numeric).SelectsAs tree := by
  intro holds hrespects
  obtain ⟨chosen, hchosen, hselect⟩ := select_reloaded hstable hrespects
  rw [Tree.chosen?_of_flat holds hflat, Option.some.injEq] at hchosen
  rw [hchosen]
  exact hselect

/-- When nothing holds, a tree with a case inside a body is read back as one that selects
another return than the last. -/
theorem flatBodies_of_reloaded_selectsAs (hstable : tree.Stable catalog)
    (hapart : tree.ReturnsApart) (hselects : (tree.reloaded catalog .numeric).SelectsAs tree) :
    Tree.FlatBodies tree := by
  have hrespects : RespectsEquivalence fun _ => false := fun _ _ _ => rfl
  refine Tree.flatBodies_of_chosen? hapart fun outcome houtcome => ?_
  obtain ⟨chosen, hchosen, hselect⟩ := select_reloaded hstable hrespects
  rw [houtcome, Option.some.injEq] at hchosen
  have hlast := hselects _ hrespects
  rw [Tree.select_none tree] at hlast
  rw [hchosen]
  exact Value.equivalent_trans (Value.equivalent_symm hselect) hlast

end IfTree

namespace TreeStore

/-- What is loaded after a tree with stable values was saved selects what the guarded
returns of the tree select.  It selects what the tree selects if no body of a case
contains a case, and if the returns can be told apart only then. -/
theorem saveIf_loadIf_select (writes : List Write) (key : String) {catalog : Catalog}
    {tree : IfTree} {compiled : CompiledTree} (hcompile : tree.compile = .ok compiled)
    (hstable : tree.Stable catalog) :
    ∃ saved after loaded,
      ((empty none).afterWrites writes).saveIf key tree .numeric = (.ok saved, after) ∧
      after.loadIf key catalog = .ok loaded ∧
      (∀ holds, RespectsEquivalence holds →
        ∃ chosen, GuardedReturn.chosen? holds (Tree.guardedReturns tree) = some chosen ∧
          (Tree.select holds loaded).equivalent chosen = true) ∧
      (Tree.FlatBodies tree → IfTree.SelectsAs loaded tree) ∧
      (tree.ReturnsApart → (IfTree.SelectsAs loaded tree ↔ Tree.FlatBodies tree)) := by
  have hstore := (Integrity.empty none).afterWrites writes
  have hroom := hasRoom_of_unlimited ((empty none).budget_afterWrites writes)
    (1 + compiled.expressions.length + compiled.branches.length)
  obtain ⟨saved, after, hsaved, hloaded⟩ := saveIf_loadIf hstore hcompile hroom key .numeric
  refine ⟨saved, after, tree.reloaded catalog .numeric, hsaved, hloaded catalog, ?_, ?_, ?_⟩
  · intro holds hrespects
    exact IfTree.select_reloaded hstable hrespects
  · exact IfTree.reloaded_selectsAs_of_flat hstable
  · intro hapart
    exact ⟨IfTree.flatBodies_of_reloaded_selectsAs hstable hapart,
      IfTree.reloaded_selectsAs_of_flat hstable⟩

/-- With a case inside a body the two differ. -/
theorem saveIf_loadIf_select_nested :
    let tree : IfTree :=
      .decides [⟨⟨.choice "member" none, .equal, .boolean true none⟩,
        .decides [⟨⟨.choice "adult" none, .equal, .boolean true none⟩,
          .returns (.choice "full" none)⟩] (.returns (.choice "half" none))⟩]
        (.returns (.choice "none" none))
    tree.ReturnsApart ∧ ∃ saved after loaded,
      ((empty none).afterWrites [.upsertTree ⟨"k", .adjustment, .numeric⟩]).saveIf "k" tree
        .numeric = (.ok saved, after) ∧
      after.loadIf "k" .empty = .ok loaded ∧
      ¬ IfTree.SelectsAs loaded tree := by
  intro tree
  have hcompile : ∃ compiled, tree.compile = .ok compiled := ⟨_, rfl⟩
  have hapart : tree.ReturnsApart := by
    unfold IfTree.ReturnsApart
    decide
  have hstable : tree.Stable .empty := by
    unfold IfTree.Stable
    decide
  obtain ⟨compiled, hcompile⟩ := hcompile
  obtain ⟨saved, after, loaded, hsaved, hloaded, -, -, hexact⟩ :=
    saveIf_loadIf_select [.upsertTree ⟨"k", .adjustment, .numeric⟩] "k" hcompile hstable
  have hnested : ¬ Tree.FlatBodies tree := by
    unfold Tree.FlatBodies
    decide
  exact ⟨hapart, saved, after, loaded, hsaved, hloaded, fun hselects =>
    hnested ((hexact hapart).mp hselects)⟩

/-- A tree of this kind that asks twice for an age is loaded as one that decides
differently. -/
theorem nested_body_selects_differently :
    let catalog : Catalog := ⟨[("age", ⟨"f-age", "number", factScope⟩)]⟩
    let age : Value := .variable ⟨"age", "f-age", "number", factScope⟩ none
    let above (limit : String) : Condition := ⟨age, .greater, .literal limit none⟩
    let inner : IfTree :=
      .decides [⟨above "30", .returns (.literal "2" none)⟩] (.returns (.literal "1" none))
    let tree : IfTree := .decides [⟨above "18", inner⟩] (.returns (.literal "0" none))
    tree.Stable catalog ∧
      ∃ saved after loaded, (empty none).saveIf "k" tree .numeric = (.ok saved, after) ∧
        after.loadIf "k" catalog = .ok loaded ∧ ¬ IfTree.SelectsAs loaded tree := by
  intro catalog age above inner tree
  have hstable : tree.Stable catalog := by
    unfold IfTree.Stable
    decide +kernel
  have hcompile : tree.compile.isOk = true := by decide +kernel
  refine ⟨hstable, ?_⟩
  cases hresult : tree.compile with
  | error error => simp [hresult, Except.isOk, Except.toBool] at hcompile
  | ok compiled =>
      obtain ⟨saved, after, hsaved, hloaded⟩ := saveIf_loadIf (Integrity.empty none) hresult
        (hasRoom_of_unlimited rfl _) "k" .numeric
      refine ⟨saved, after, _, hsaved, hloaded catalog, fun hselects => ?_⟩
      have hsame := hselects (fun _ => false) fun _ _ _ => rfl
      have hdiffers : (Tree.select (fun _ => false) (tree.reloaded catalog .numeric)).equivalent
          (Tree.select (fun _ => false) tree) = false := by decide +kernel
      rw [hdiffers] at hsame
      exact absurd hsame (by decide)

end TreeStore

end DecisionCanvas
