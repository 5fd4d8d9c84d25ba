import DecisionCanvas.Proofs.Store.Interruption

/-!
# What a save leaves behind

A tree that compiles has scratch ids that count down from minus one.  A save replaces them
by the ids that follow the last one of the store, operands first, and leaves exactly the
compiled tree under its key with all ids replaced.  Nothing else in the store changes.
-/

namespace DecisionCanvas

namespace Arranged

/-- Expressions that are arranged from the start have the ids from minus one downwards. -/
theorem mem_ids_iff {expressions : List Expression} (harranged : Arranged 0 expressions)
    {id : Int} :
    id ∈ expressions.map Expression.id ↔ -expressions.length ≤ id ∧ id ≤ -1 := by
  rw [harranged.ids, List.mem_map]
  constructor
  · rintro ⟨position, hposition, rfl⟩
    rw [List.mem_range'_1] at hposition
    rw [scratchId]
    omega
  · rintro ⟨hlow, hhigh⟩
    refine ⟨(-id - 1).toNat, ?_, ?_⟩
    · rw [List.mem_range'_1]
      omega
    · rw [scratchId]
      omega

end Arranged

theorem IfTree.arranged_of_compile {tree : IfTree} {compiled : CompiledTree}
    (hcompile : tree.compile = .ok compiled) : Arranged 0 compiled.expressions := by
  obtain ⟨whole, hflatten, rfl⟩ := compile_eq_ok hcompile
  exact (Tree.flatten_shaped Value.lowerOutcome_listed hflatten).arranged

theorem AdjustmentTree.arranged_of_compile {tree : AdjustmentTree} {compiled : CompiledTree}
    (hcompile : tree.compile = .ok compiled) : Arranged 0 compiled.expressions := by
  obtain ⟨whole, hflatten, rfl⟩ := compile_eq_ok hcompile
  exact (Tree.flatten_shaped Adjustment.lowerOutcome_listed hflatten).arranged

/-! ## Numbering -/

/-- Whether a map numbers the expressions of a compiled tree after some id: operands first,
then operators, both in the order in which they were compiled. -/
structure IdMap.Numbers (ids : IdMap) (compiled : CompiledTree) (last : Int) : Prop where
  domain : ∀ scratch, (ids.durable? scratch).isSome ↔
    -compiled.expressions.length ≤ scratch ∧ scratch ≤ -1
  injective : ∀ first second durable, ids.durable? first = some durable →
    ids.durable? second = some durable → first = second
  image : ∀ durable, (∃ scratch, ids.durable? scratch = some durable) ↔
    last + 1 ≤ durable ∧ durable ≤ last + compiled.expressions.length
  in_order : ∀ (place : Nat) (expression : Expression),
    (compiled.operands ++ compiled.operators)[place]? = some expression →
      ids.durable? expression.id = some (last + place + 1)

namespace CompiledTree.SelfContained

variable {tree : CompiledTree} (htree : tree.SelfContained) (last : Int)
include htree

theorem durable?_stored_place {place : Nat} {expression : Expression}
    (hplace : tree.storedOrder[place]? = some expression) :
    (tree.durableIds last).durable? expression.id = some (last + place + 1) := by
  obtain ⟨hshort, hexpression⟩ := List.getElem?_eq_some_iff.mp hplace
  obtain ⟨before, item, after, horder, hlength⟩ := exists_eq_append_cons hshort
  have hitem : item = expression := by
    rw [← hexpression]
    simp only [horder, ← hlength, List.getElem_append_right (Nat.le_refl _), Nat.sub_self,
      List.getElem_cons_zero]
  have hdistinct := htree.storedOrder_ids_nodup
  rw [durableIds, horder, ← hitem]
  rw [horder] at hdistinct
  rw [IdMap.durable?_assign last hdistinct, hlength]

/-- An id that has a durable one is that of an expression, which determines the durable
one by its place. -/
theorem durable?_eq_some_iff {scratch durable : Int} :
    (tree.durableIds last).durable? scratch = some durable ↔
      ∃ (place : Nat) (expression : Expression), tree.storedOrder[place]? = some expression ∧
        expression.id = scratch ∧ durable = last + place + 1 := by
  constructor
  · intro hdurable
    have hdefined : scratch ∈ tree.storedOrder.map Expression.id := by
      by_contra hunknown
      rw [durableIds, IdMap.durable?_assign_of_notMem hunknown] at hdurable
      cases hdurable
    obtain ⟨expression, hexpression, rfl⟩ := List.mem_map.mp hdefined
    obtain ⟨place, hplace⟩ := List.mem_iff_getElem?.mp hexpression
    rw [htree.durable?_stored_place last hplace, Option.some.injEq] at hdurable
    exact ⟨place, expression, hplace, rfl, hdurable.symm⟩
  · rintro ⟨place, expression, hplace, rfl, rfl⟩
    exact htree.durable?_stored_place last hplace

theorem isSome_durable?_iff {scratch : Int} :
    ((tree.durableIds last).durable? scratch).isSome ↔ scratch ∈ tree.definedIds := by
  constructor
  · intro hknown
    obtain ⟨durable, hdurable⟩ := Option.isSome_iff_exists.mp hknown
    obtain ⟨place, expression, hplace, rfl, -⟩ := (htree.durable?_eq_some_iff last).mp hdurable
    exact List.mem_map_of_mem (mem_storedOrder.mp (List.mem_of_getElem? hplace))
  · intro hdefined
    rw [htree.durableIds_durable? last hdefined, Option.isSome_some]

/-- The durable ids of a tree number it. -/
theorem numbers_durableIds (harranged : Arranged 0 tree.expressions) :
    (tree.durableIds last).Numbers tree last where
  domain := by
    intro scratch
    rw [htree.isSome_durable?_iff last]
    exact harranged.mem_ids_iff
  injective := by
    intro first second durable hfirst hsecond
    obtain ⟨place, expression, hplace, rfl, hdurable⟩ :=
      (htree.durable?_eq_some_iff last).mp hfirst
    obtain ⟨other, otherExpression, hother, rfl, hotherDurable⟩ :=
      (htree.durable?_eq_some_iff last).mp hsecond
    have hsame : place = other := by omega
    rw [hsame, hother, Option.some.injEq] at hplace
    rw [hplace]
  image := by
    intro durable
    have hlength := tree.length_storedOrder
    constructor
    · rintro ⟨scratch, hscratch⟩
      obtain ⟨place, expression, hplace, -, hdurable⟩ :=
        (htree.durable?_eq_some_iff last).mp hscratch
      obtain ⟨hshort, -⟩ := List.getElem?_eq_some_iff.mp hplace
      omega
    · rintro ⟨hlow, hhigh⟩
      have hshort : (durable - last - 1).toNat < tree.storedOrder.length := by omega
      refine ⟨tree.storedOrder[(durable - last - 1).toNat].id, ?_⟩
      rw [htree.durable?_stored_place last (List.getElem?_eq_getElem hshort),
        Option.some.injEq]
      omega
  in_order := by
    intro place expression hplace
    exact htree.durable?_stored_place last hplace

end CompiledTree.SelfContained

namespace TreeStore

/-! ## The attempts of a save -/

section Attempts

variable {tree : Int} {store : TreeStore}

/-- Filling an open tree attempts the writes of the expressions and of the branches. -/
theorem attempts_fill {held : StoredTree} {compiled : CompiledTree}
    (hcompiled : compiled.Layered) (hheld : store.tree? tree = some held)
    (hroom : store.HasRoom (compiled.expressions.length + compiled.branches.length)) :
    ((Script.fill tree compiled).attempts store).map Prod.snd =
      compiled.storedOrder.map
          (expressionWrite tree (compiled.durable store.lastExpression)) ++
        compiled.branches.map
          (branchWrite tree (compiled.durable store.lastExpression)) := by
  have hlength := compiled.length_storedOrder
  rw [CompiledTree.storedOrder, List.length_append] at hlength
  have hoperands := insertOperands_eq hcompiled hheld (hroom.mono (by omega))
  have hoperators := insertOperators_eq hcompiled hheld (hroom.mono (by omega))
  have hbranches := insertBranches_stored hcompiled hheld hroom
  have hunchanged : ∀ _ : IdMap, ∀ operand ∈ compiled.operands,
      (.ok operand : Except SaveError Expression) =
        .ok (operand.renameChildren (compiled.durable store.lastExpression)) := by
    intro _ operand hoperand
    rw [hcompiled.operand_unchanged _ hoperand]
  have hrenamed : ∀ more, ∀ operator ∈ compiled.operators,
      IdMap.renameExpression (IdMap.assign store.lastExpression compiled.operands ++ more)
          operator = .ok (operator.renameChildren (compiled.durable store.lastExpression)) := by
    intro more operator hoperator
    exact hcompiled.renameExpression_eq
      (fun operand => hcompiled.durable?_operand store.lastExpression more) hoperator
  have hknown : ∀ record ∈ compiled.branches, ∀ id ∈ record.referenced,
      (compiled.durableIds store.lastExpression).durable? id =
        some (compiled.durable store.lastExpression id) := by
    intro record hrecord id hid
    exact hcompiled.durableIds_durable? store.lastExpression
      (hcompiled.branches_defined record hrecord id hid)
  rw [Script.fill, attempts_insertExpressions hunchanged hoperands,
    attempts_insertExpressions hrenamed hoperators, attempts_insertBranches hknown hbranches]
  rw [Script.attempts, CompiledTree.storedOrder, List.map_append, List.map_nil, List.append_nil,
    List.append_assoc]

/-- The save of a layered tree attempts the writes that are known in advance. -/
theorem attempts_persist {compiled : CompiledTree} (hstore : store.Integrity)
    (hcompiled : compiled.Layered)
    (hroom : store.HasRoom (1 + compiled.expressions.length + compiled.branches.length))
    (record : TreeRecord) :
    ((Script.persist record compiled).attempts store).map Prod.snd =
      store.saveWrites record compiled := by
  obtain ⟨opened, hopened, hspec⟩ :=
    upsertTree_eq hstore (hroom.mono (by omega)) record
  have hcheck := CompiledTree.check_eq_ok_iff.mpr hcompiled.toSelfContained
  have hroomLeft : opened.HasRoom (compiled.expressions.length + compiled.branches.length) :=
    hspec.hasRoom (hroom.mono (by omega))
  have hfill := attempts_fill hcompiled hspec.tree?_self hroomLeft
  rw [hspec.lastExpression] at hfill
  simp only [Script.persist, hcheck, Script.attempts, hopened, List.map_cons, hfill]
  rfl

end Attempts

/-! ## Saving -/

/-- What a save of a compiled tree under a new record comes to. -/
structure SavedWhole (store : TreeStore) (record : TreeRecord) (compiled : CompiledTree)
    (saved : SavedTree) (after : TreeStore) : Prop where
  numbers : saved.ids.Numbers compiled store.lastExpression
  children_numbered : ∀ expression ∈ compiled.expressions, ∀ child ∈ expression.children,
    (saved.ids.durable? child).isSome
  branches_numbered : ∀ branch ∈ compiled.branches, ∀ id ∈ branch.referenced,
    (saved.ids.durable? id).isSome
  fetched : after.fetch record.key = .ok
    { id := saved.tree
      record := record
      expressions := (compiled.operands ++ compiled.operators).map
        (Expression.relocate saved.ids.apply)
      branches := compiled.branches.map (BranchRecord.relocate saved.ids.apply) }
  run : (Script.persist record compiled).run store = (.ok saved, after)
  attempted : ((Script.persist record compiled).attempts store).map Prod.snd =
    store.saveWrites record compiled
  accepted : ∀ attempt ∈ (Script.persist record compiled).attempts store,
    attempt.1.Accepts attempt.2
  written : after = store.afterWrites (store.saveWrites record compiled)
  others_kept : ∀ key, key ≠ record.key → after.fetch key = store.fetch key
  variables_kept : after.variableBindings = store.variableBindings
  conditionals_kept : after.conditionalBindings = store.conditionalBindings

/-- A layered tree whose ids count down is saved whole where there is room. -/
theorem persist_savedWhole {store : TreeStore} (hstore : store.Integrity)
    {compiled : CompiledTree} (hcompiled : compiled.Layered)
    (harranged : Arranged 0 compiled.expressions)
    (hroom : store.HasRoom (1 + compiled.expressions.length + compiled.branches.length))
    (record : TreeRecord) :
    ∃ saved after, store.persist record compiled = (.ok saved, after) ∧
      store.SavedWhole record compiled saved after := by
  obtain ⟨opened, hopened, hpersist⟩ := persist_eq hstore hcompiled hroom record
  have hrun := hpersist
  rw [← Script.run_persist] at hrun
  have hattempted := attempts_persist hstore hcompiled hroom record
  have hself := hcompiled.toSelfContained
  refine ⟨_, _, hpersist, ?_⟩
  exact {
    numbers := hself.numbers_durableIds store.lastExpression harranged
    children_numbered := by
      intro expression hexpression child hchild
      exact (hself.isSome_durable?_iff store.lastExpression).mpr
        (hself.children_defined expression hexpression child hchild)
    branches_numbered := by
      intro branch hbranch id hid
      exact (hself.isSome_durable?_iff store.lastExpression).mpr
        (hself.branches_defined branch hbranch id hid)
    fetched := hopened.fetch_grow _ _
    run := hrun
    attempted := hattempted
    accepted := Script.accepts_of_run hrun
    written := by
      rw [← hattempted, Script.afterWrites_attempts, hrun]
    others_kept := fun key hkey => hopened.fetch_grow_other hstore _ _ hkey
    variables_kept := hopened.variableBindings
    conditionals_kept := hopened.conditionalBindings }

/-- Saving any tree that compiles, whatever has been written before, leaves exactly its
compiled form under the key. -/
theorem save_stores_whole (writes : List Write) (key : String) :
    let store := (empty none).afterWrites writes
    (∀ (tree : IfTree) (kind : TreeKind) (compiled : CompiledTree),
      tree.compile = .ok compiled →
        ∃ saved after, store.saveIf key tree kind = (.ok saved, after) ∧
          store.SavedWhole ⟨key, .ifTree, kind⟩ compiled saved after) ∧
    ∀ (tree : AdjustmentTree) (compiled : CompiledTree), tree.compile = .ok compiled →
      ∃ saved after, store.saveAdjustment key tree = (.ok saved, after) ∧
        store.SavedWhole ⟨key, .adjustment, .numeric⟩ compiled saved after := by
  intro store
  have hstore : store.Integrity := (Integrity.empty none).afterWrites writes
  have hroom := hasRoom_of_unlimited ((empty none).budget_afterWrites writes)
  constructor
  · intro tree kind compiled hcompile
    rw [saveIf, hcompile]
    exact persist_savedWhole hstore (IfTree.layered_of_compile hcompile)
      (IfTree.arranged_of_compile hcompile) (hroom _) _
  · intro tree compiled hcompile
    rw [saveAdjustment, hcompile]
    exact persist_savedWhole hstore (AdjustmentTree.layered_of_compile hcompile)
      (AdjustmentTree.arranged_of_compile hcompile) (hroom _) _

/-- A key that holds an expression already gets a guarded value, or guarded adjustments. -/
theorem save_stores_whole_replaced :
    let adult : Condition :=
      ⟨.variable ⟨"age", "", "", factScope⟩ none, .greater, .literal "18" none⟩
    let tree : IfTree :=
      .decides [⟨adult, .returns (.literal "1" none)⟩] (.returns (.literal "0" none))
    let adjustments : AdjustmentTree :=
      .decides [⟨adult, .returns [⟨.plus, .literal "5" none⟩]⟩] (.returns [])
    let writes : List Write := [.upsertTree ⟨"price", .adjustment, .numeric⟩,
      .insertExpression 1 { id := 0, kind := .factRef, reference := some "age" }]
    let store := (empty none).afterWrites writes
    ∃ compiled saved after compiledAdjustments savedAdjustments afterAdjustments,
      tree.compile = .ok compiled ∧
      store.saveIf "price" tree .numeric = (.ok saved, after) ∧
      store.SavedWhole ⟨"price", .ifTree, .numeric⟩ compiled saved after ∧
      adjustments.compile = .ok compiledAdjustments ∧
      store.saveAdjustment "price" adjustments = (.ok savedAdjustments, afterAdjustments) ∧
      store.SavedWhole ⟨"price", .adjustment, .numeric⟩ compiledAdjustments savedAdjustments
        afterAdjustments := by
  intro adult tree adjustments writes store
  have hcompile : tree.compile.isOk = true := by decide +kernel
  have hcompileAdjustments : adjustments.compile.isOk = true := by decide +kernel
  obtain ⟨compiled, hresult⟩ := exists_of_isOk hcompile
  obtain ⟨compiledAdjustments, hresultAdjustments⟩ := exists_of_isOk hcompileAdjustments
  obtain ⟨hifTrees, hadjustments⟩ := save_stores_whole writes "price"
  obtain ⟨saved, after, hsaved, hwhole⟩ := hifTrees tree .numeric compiled hresult
  obtain ⟨savedAdjustments, afterAdjustments, hsavedAdjustments, hwholeAdjustments⟩ :=
    hadjustments adjustments compiledAdjustments hresultAdjustments
  exact ⟨compiled, saved, after, compiledAdjustments, savedAdjustments, afterAdjustments,
    hresult, hsaved, hwhole, hresultAdjustments, hsavedAdjustments, hwholeAdjustments⟩

end TreeStore

end DecisionCanvas
