import DecisionCanvas.Store.Load
import DecisionCanvas.Proofs.Store.Budget
import DecisionCanvas.Proofs.Compiled.Relocation

/-!
# What a save leaves in the store

Saving a compiled tree is a loop of writes whose ids are only known as it runs.  If
there is room for all of them, none is refused, and the content of the stored tree is
the compiled one with every scratch id replaced by the next durable one.
-/

namespace DecisionCanvas

namespace IdMap

/-- The ids that expressions get when they are written one after another. -/
def assign (last : Int) : List Expression → IdMap
  | [] => []
  | expression :: rest => (expression.id, last + 1) :: assign (last + 1) rest

/-- The durable id of a scratch id that has one. -/
def apply (ids : IdMap) (scratch : Int) : Int :=
  (ids.durable? scratch).getD 0

theorem durable?_append (ids more : IdMap) (scratch : Int) :
    (ids ++ more).durable? scratch = (ids.durable? scratch).or (more.durable? scratch) :=
  List.lookup_append

theorem assign_append (last : Int) (first second : List Expression) :
    assign last (first ++ second) = assign last first ++ assign (last + first.length) second := by
  induction first generalizing last with
  | nil => simp [assign]
  | cons expression rest ih =>
      simp only [List.cons_append, assign, ih, List.length_cons, Int.natCast_add,
        Int.natCast_one]
      rw [Int.add_assoc last 1, Int.add_comm 1]

theorem durable?_assign_of_notMem {last : Int} {order : List Expression} {scratch : Int}
    (hscratch : scratch ∉ order.map Expression.id) :
    (assign last order).durable? scratch = none := by
  induction order generalizing last with
  | nil => rfl
  | cons expression rest ih =>
      simp only [List.map_cons, List.mem_cons, not_or] at hscratch
      rw [assign, durable?, List.lookup_cons, beq_false_of_ne hscratch.1]
      exact ih hscratch.2

/-- The expression after `before` gets the id that many places further. -/
theorem durable?_assign (last : Int) {before after : List Expression} {expression : Expression}
    (hdistinct : ((before ++ expression :: after).map Expression.id).Nodup) :
    (assign last (before ++ expression :: after)).durable? expression.id =
      some (last + before.length + 1) := by
  have hnotin : expression.id ∉ before.map Expression.id := by
    rw [List.map_append, List.map_cons] at hdistinct
    intro hmem
    exact (List.nodup_append.mp hdistinct).2.2 _ hmem _ List.mem_cons_self rfl
  rw [assign_append, durable?_append, durable?_assign_of_notMem hnotin, Option.none_or, assign,
    durable?, List.lookup_cons_self]

theorem apply_assign (last : Int) {before after : List Expression} {expression : Expression}
    (hdistinct : ((before ++ expression :: after).map Expression.id).Nodup) :
    (assign last (before ++ expression :: after)).apply expression.id =
      last + before.length + 1 := by
  rw [apply, durable?_assign last hdistinct, Option.getD_some]

/-- Written ids are above all that were there. -/
theorem lt_apply_assign {last : Int} {order : List Expression}
    (hdistinct : (order.map Expression.id).Nodup) {expression : Expression}
    (hexpression : expression ∈ order) : last < (assign last order).apply expression.id := by
  obtain ⟨before, after, rfl⟩ := List.append_of_mem hexpression
  rw [apply_assign last hdistinct]
  omega

/-- A scratch id that has been written keeps its durable id while more is written. -/
theorem durable?_assign_prefix (last : Int) {written : List Expression} (rest : List Expression)
    (hdistinct : ((written ++ rest).map Expression.id).Nodup) {expression : Expression}
    (hexpression : expression ∈ written) :
    (assign last written).durable? expression.id =
      some ((assign last (written ++ rest)).apply expression.id) := by
  obtain ⟨before, after, rfl⟩ := List.append_of_mem hexpression
  have hwritten : ((before ++ expression :: after).map Expression.id).Nodup := by
    rw [List.map_append] at hdistinct
    exact (List.nodup_append.mp hdistinct).1
  rw [durable?_assign last hwritten]
  rw [List.append_assoc, List.cons_append] at hdistinct ⊢
  rw [apply_assign last hdistinct]

/-- Expressions written one after another get consecutive ids. -/
theorem map_apply_assign (last : Int) {order : List Expression}
    (hdistinct : (order.map Expression.id).Nodup) :
    (order.map Expression.id).map (assign last order).apply =
      (List.range order.length).map fun place : Nat => last + place + 1 := by
  rw [List.map_map]
  apply List.ext_getElem
  · simp
  · intro place hleft hright
    have hplace : place < order.length := by simpa using hleft
    have hsplit : order.take place ++ order[place] :: order.drop (place + 1) = order := by
      rw [List.getElem_cons_drop, List.take_append_drop]
    have hlength : (order.take place).length = place := by
      rw [List.length_take]
      omega
    have happly := apply_assign last (hsplit ▸ hdistinct)
    rw [hsplit, hlength] at happly
    simpa using happly

theorem apply_assign_nodup (last : Int) {order : List Expression}
    (hdistinct : (order.map Expression.id).Nodup) :
    ((order.map Expression.id).map (assign last order).apply).Nodup := by
  rw [map_apply_assign last hdistinct]
  refine List.Nodup.map ?_ List.nodup_range
  intro left right heq
  have hplaces : last + (left : Int) + 1 = last + (right : Int) + 1 := heq
  omega

/-! ## Renaming by what has been written -/

section Rename

variable {ids : IdMap} {durable : Int → Int}

theorem rename_eq {scratch : Int} (hknown : ids.durable? scratch = some (durable scratch)) :
    ids.rename scratch = .ok (durable scratch) := by
  rw [rename, hknown]

theorem renameOption_eq {scratch : Option Int}
    (hknown : ∀ id ∈ scratch, ids.durable? id = some (durable id)) :
    ids.renameOption scratch = .ok (scratch.map durable) := by
  cases scratch with
  | none => rfl
  | some id =>
      rw [renameOption, rename_eq (hknown id rfl)]
      rfl

theorem renameExpression_eq {expression : Expression}
    (hknown : ∀ child ∈ expression.children, ids.durable? child = some (durable child)) :
    ids.renameExpression expression =
      .ok (expression.renameChildren durable) := by
  have hleft : ids.renameOption expression.left = .ok (expression.left.map durable) := by
    refine renameOption_eq fun id hid => hknown id ?_
    exact List.mem_append_left _ (Option.mem_toList.mpr hid)
  have hright : ids.renameOption expression.right = .ok (expression.right.map durable) := by
    refine renameOption_eq fun id hid => hknown id ?_
    exact List.mem_append_right _ (Option.mem_toList.mpr hid)
  rw [renameExpression, hleft, hright]
  rfl

theorem renameStatements_eq {list : List StatementRecord}
    (hknown : ∀ statement ∈ list, ids.durable? statement.value =
      some (durable statement.value)) :
    ids.renameStatements list = .ok (list.map (StatementRecord.relocate durable)) := by
  induction list with
  | nil => rfl
  | cons statement rest ih =>
      rw [renameStatements, rename_eq (hknown statement List.mem_cons_self),
        ih fun other hother => hknown other (List.mem_cons_of_mem _ hother)]
      rfl

theorem renameOutcome_eq {outcome : BranchOutcome}
    (hknown : ∀ id ∈ outcome.expressions, ids.durable? id = some (durable id)) :
    ids.renameOutcome outcome = .ok (outcome.relocate durable) := by
  cases outcome with
  | returns expression =>
      rw [renameOutcome, rename_eq (hknown expression (List.mem_singleton_self _))]
      rfl
  | statements list =>
      rw [renameOutcome, renameStatements_eq fun statement hstatement =>
        hknown statement.value (List.mem_map_of_mem hstatement)]
      rfl

theorem renameBranch_eq {record : BranchRecord}
    (hknown : ∀ id ∈ record.referenced, ids.durable? id = some (durable id)) :
    ids.renameBranch record = .ok (record.relocate durable) := by
  have houtcome : ids.renameOutcome record.outcome = .ok (record.outcome.relocate durable) :=
    renameOutcome_eq fun id hid => hknown id (List.mem_append_left _ hid)
  have hcondition : ids.renameOption record.condition = .ok (record.condition.map durable) := by
    refine renameOption_eq fun id hid => hknown id ?_
    exact List.mem_append_right _ (Option.mem_toList.mpr hid)
  rw [renameBranch, houtcome, hcondition]
  rfl

end Rename

end IdMap

namespace CompiledTree

variable {tree : CompiledTree}

/-- The durable ids of a tree that is stored after so many expressions. -/
def durableIds (tree : CompiledTree) (last : Int) : IdMap :=
  IdMap.assign last tree.storedOrder

/-- The durable id in place of a scratch id. -/
def durable (tree : CompiledTree) (last : Int) : Int → Int :=
  (tree.durableIds last).apply

/-- The tree as it is stored. -/
def stored (tree : CompiledTree) (last : Int) : CompiledTree :=
  ⟨tree.storedOrder.map (Expression.relocate (tree.durable last)),
    tree.branches.map (BranchRecord.relocate (tree.durable last))⟩

@[simp]
theorem length_stored_expressions (tree : CompiledTree) (last : Int) :
    (tree.stored last).expressions.length = tree.expressions.length := by
  rw [stored, List.length_map, length_storedOrder]

@[simp]
theorem length_stored_branches (tree : CompiledTree) (last : Int) :
    (tree.stored last).branches.length = tree.branches.length := by
  rw [stored, List.length_map]

namespace SelfContained

variable (htree : tree.SelfContained) (last : Int)
include htree

theorem lt_durable {expression : Expression} (hexpression : expression ∈ tree.expressions) :
    last < tree.durable last expression.id :=
  IdMap.lt_apply_assign htree.storedOrder_ids_nodup (mem_storedOrder.mpr hexpression)

theorem stored_ids_nodup : (tree.stored last).definedIds.Nodup := by
  have hids := IdMap.apply_assign_nodup last htree.storedOrder_ids_nodup
  rw [List.map_map] at hids
  rw [definedIds, stored, List.map_map]
  exact hids

theorem durableIds_durable? {id : Int} (hid : id ∈ tree.definedIds) :
    (tree.durableIds last).durable? id = some (tree.durable last id) := by
  obtain ⟨expression, hexpression, rfl⟩ := List.mem_map.mp hid
  have hstored := IdMap.durable?_assign_prefix last []
    (by simpa using htree.storedOrder_ids_nodup) (mem_storedOrder.mpr hexpression)
  rw [List.append_nil] at hstored
  exact hstored

end SelfContained

end CompiledTree

/-- Expressions that can be written one after another over what has been written: each
gets the id that `durable` says, and refers only to what is there by then. -/
structure Writable (durable : Int → Int) (written : List Int) (last : Int)
    (order : List Expression) : Prop where
  id_eq : ∀ before expression after, order = before ++ expression :: after →
    durable expression.id = last + before.length + 1
  children_written : ∀ before expression after, order = before ++ expression :: after →
    ∀ child ∈ expression.children,
      durable child ∈ written ++ before.map fun earlier => durable earlier.id

namespace Writable

variable {durable : Int → Int} {written : List Int} {last : Int}
variable {first second : List Expression}

theorem left (horder : Writable durable written last (first ++ second)) :
    Writable durable written last first where
  id_eq := by
    intro before expression after hsplit
    exact horder.id_eq before expression (after ++ second)
      (by rw [hsplit, List.append_assoc, List.cons_append])
  children_written := by
    intro before expression after hsplit
    exact horder.children_written before expression (after ++ second)
      (by rw [hsplit, List.append_assoc, List.cons_append])

theorem right (horder : Writable durable written last (first ++ second)) :
    Writable durable (written ++ first.map fun earlier => durable earlier.id)
      (last + first.length) second where
  id_eq := by
    intro before expression after hsplit
    have hid := horder.id_eq (first ++ before) expression after
      (by rw [hsplit, List.append_assoc])
    rw [hid, List.length_append]
    omega
  children_written := by
    intro before expression after hsplit child hchild
    have hwritten := horder.children_written (first ++ before) expression after
      (by rw [hsplit, List.append_assoc]) child hchild
    rw [List.map_append, ← List.append_assoc] at hwritten
    exact hwritten

end Writable

namespace CompiledTree

variable {compiled : CompiledTree}

/-- In the stored order all operands come before the first operator. -/
theorem operands_subset_before {before after : List Expression} {expression : Expression}
    (horder : compiled.storedOrder = before ++ expression :: after)
    (hoperator : expression.isOperator = true) : compiled.operands ⊆ before := by
  rw [storedOrder] at horder
  rcases List.append_eq_append_iff.mp horder with
    ⟨others, rfl, hrest⟩ | ⟨others, hoperands, hrest⟩
  · exact List.subset_append_left _ _
  · cases others with
    | nil =>
        rw [hoperands, List.append_nil]
        exact List.Subset.refl _
    | cons other others =>
        rw [List.cons_append, List.cons.injEq] at hrest
        have hmem : expression ∈ compiled.operands := by
          rw [hoperands, hrest.1]
          exact List.mem_append_right _ List.mem_cons_self
        rw [(mem_operands.mp hmem).2] at hoperator
        exact absurd hoperator (by simp)

/-- A layered tree can be written in its stored order. -/
theorem Layered.writable (hcompiled : compiled.Layered) (written : List Int) (last : Int) :
    Writable (compiled.durable last) written last compiled.storedOrder where
  id_eq := by
    intro before expression after hsplit
    have hdistinct := hcompiled.storedOrder_ids_nodup
    rw [durable, durableIds]
    rw [hsplit] at hdistinct ⊢
    exact IdMap.apply_assign last hdistinct
  children_written := by
    intro before expression after hsplit child hchild
    have hmem : expression ∈ compiled.expressions :=
      mem_storedOrder.mp (hsplit ▸ List.mem_append_right before List.mem_cons_self)
    cases hkind : expression.isOperator with
    | false =>
        rw [hcompiled.operands_childless expression hmem hkind] at hchild
        exact absurd hchild List.not_mem_nil
    | true =>
        obtain ⟨operand, hoperand, hoperandKind, rfl⟩ :=
          hcompiled.operators_on_operands expression hmem hkind child hchild
        apply List.mem_append_right
        exact List.mem_map_of_mem
          (operands_subset_before hsplit hkind (mem_operands.mpr ⟨hoperand, hoperandKind⟩))

/-- Operands are written as they are. -/
theorem Layered.operand_unchanged (hcompiled : compiled.Layered) (durable : Int → Int)
    {operand : Expression} (hoperand : operand ∈ compiled.operands) :
    operand.renameChildren durable = operand := by
  obtain ⟨hmem, hkind⟩ := mem_operands.mp hoperand
  exact operand.renameChildren_childless durable (hcompiled.operands_childless operand hmem hkind)

/-- The ids of the operands are enough to rename an operator. -/
theorem Layered.renameExpression_eq (hcompiled : compiled.Layered) {ids : IdMap}
    {durable : Int → Int}
    (hknown : ∀ operand ∈ compiled.operands,
      ids.durable? operand.id = some (durable operand.id))
    {operator : Expression} (hoperator : operator ∈ compiled.operators) :
    ids.renameExpression operator = .ok (operator.renameChildren durable) := by
  obtain ⟨hmem, hkind⟩ := mem_operators.mp hoperator
  apply IdMap.renameExpression_eq
  intro child hchild
  obtain ⟨operand, hoperand, hoperandKind, rfl⟩ :=
    hcompiled.operators_on_operands operator hmem hkind child hchild
  exact hknown operand (mem_operands.mpr ⟨hoperand, hoperandKind⟩)

/-- Operands keep their ids while more is written. -/
theorem Layered.durable?_operand (hcompiled : compiled.Layered) (last : Int) (more : IdMap)
    {operand : Expression} (hoperand : operand ∈ compiled.operands) :
    (IdMap.assign last compiled.operands ++ more).durable? operand.id =
      some (compiled.durable last operand.id) := by
  have hwritten := IdMap.durable?_assign_prefix last compiled.operators
    hcompiled.storedOrder_ids_nodup hoperand
  rw [IdMap.durable?_append, hwritten, Option.some_or]
  rfl

end CompiledTree

/-- The tree with more content. -/
def StoredTree.append (tree : StoredTree) (expressions : List Expression)
    (branches : List BranchRecord) : StoredTree :=
  { tree with
    expressions := tree.expressions ++ expressions
    branches := tree.branches ++ branches }

@[simp]
theorem StoredTree.append_nil (tree : StoredTree) : tree.append [] [] = tree := by
  rw [append, List.append_nil, List.append_nil]

namespace TreeStore

/-- The store after more content was written into a tree. -/
def grow (store : TreeStore) (id : Int) (expressions : List Expression)
    (branches : List BranchRecord) : TreeStore :=
  { store.changeTree id fun tree => tree.append expressions branches with
    lastExpression := store.lastExpression + expressions.length
    writes := store.writes + expressions.length + branches.length }

section Grow

variable (store : TreeStore) (id : Int)
variable (expressions more : List Expression) (branches others : List BranchRecord)

@[simp]
theorem budget_grow : (store.grow id expressions branches).budget = store.budget := rfl

@[simp]
theorem keys_grow : (store.grow id expressions branches).keys = store.keys := rfl

@[simp]
theorem lastExpression_grow : (store.grow id expressions branches).lastExpression =
    store.lastExpression + expressions.length := rfl

@[simp]
theorem writes_grow : (store.grow id expressions branches).writes =
    store.writes + expressions.length + branches.length := rfl

@[simp]
theorem grow_nil : store.grow id [] [] = store := by
  simp [grow, changeTree, StoredTree.append]

theorem grow_grow : (store.grow id expressions branches).grow id more others =
    store.grow id (expressions ++ more) (branches ++ others) := by
  simp only [grow, changeTree, List.map_map, List.length_append, mk.injEq, true_and, and_true]
  refine ⟨?_, ?_, ?_⟩
  · omega
  · apply List.map_congr_left
    intro tree _
    by_cases htree : tree.id = id <;> simp [StoredTree.append, htree]
  · omega

/-- Changing one tree is seen under its id only. -/
theorem tree?_changeTree (change : StoredTree → StoredTree)
    (hid : ∀ tree, (change tree).id = tree.id) (other : Int) :
    (store.changeTree id change).tree? other =
      if other = id then (store.tree? other).map change else store.tree? other := by
  have hkeeps : ((fun tree : StoredTree => tree.id == other) ∘ fun tree =>
      if tree.id = id then change tree else tree) = fun tree => tree.id == other := by
    funext tree
    by_cases htree : tree.id = id <;> simp [htree, hid]
  rw [tree?, changeTree, List.find?_map, hkeeps, tree?]
  cases hfound : store.trees.find? fun tree => tree.id == other with
  | none => simp
  | some tree =>
      have hother : tree.id = other := by simpa using List.find?_some hfound
      subst hother
      by_cases htree : tree.id = id <;> simp [htree]

/-- Writing into one tree adds to that tree and to no other. -/
theorem tree?_grow (other : Int) :
    (store.grow id expressions branches).tree? other =
      if other = id then (store.tree? other).map fun tree => tree.append expressions branches
      else store.tree? other :=
  store.tree?_changeTree id (fun tree => tree.append expressions branches) (fun _ => rfl) other

theorem tree?_grow_self {held : StoredTree} (hheld : store.tree? id = some held) :
    (store.grow id expressions branches).tree? id =
      some (held.append expressions branches) := by
  rw [tree?_grow, if_pos rfl, hheld, Option.map_some]

theorem HasRoom.grow {store : TreeStore} {count : Nat}
    (hroom : store.HasRoom (expressions.length + branches.length + count)) :
    (store.grow id expressions branches).HasRoom count := by
  intro limit hlimit
  have := hroom limit hlimit
  change store.writes + expressions.length + branches.length + count ≤ limit
  omega

end Grow

/-! ## Writing a compiled tree -/

section Fill

variable {store : TreeStore} {tree : Int} {held : StoredTree}

theorem insertExpression_eq (hheld : store.tree? tree = some held) (hroom : store.HasRoom 1)
    {expression : Expression}
    (hchildren : ∀ child ∈ expression.children, child ∈ held.expressions.map Expression.id) :
    store.insertExpression tree expression = (.ok (store.lastExpression + 1),
      store.grow tree [{ expression with id := store.lastExpression + 1 }] []) := by
  have hrequired : store.tick.requireExpressions tree expression.children = .ok () :=
    requireExpressions_eq_ok_iff.mpr ⟨held, hheld, hchildren⟩
  refine counted_ok hroom.not_spent _ _ ?_
  simp only [hrequired]
  simp [grow, changeTree, tick, StoredTree.append]

theorem insertBranch_eq (hheld : store.tree? tree = some held) (hroom : store.HasRoom 1)
    {record : BranchRecord}
    (hreferenced : ∀ id ∈ record.referenced, id ∈ held.expressions.map Expression.id) :
    store.insertBranch tree record = (.ok (), store.grow tree [] [record]) := by
  have hrequired : store.tick.requireExpressions tree record.referenced = .ok () :=
    requireExpressions_eq_ok_iff.mpr ⟨held, hheld, hreferenced⟩
  refine counted_ok hroom.not_spent _ _ ?_
  simp only [hrequired]
  simp [grow, changeTree, tick, StoredTree.append]

/-- The next expression of a writable order gets the next id. -/
theorem insertNext_eq {durable : Int → Int} {expression : Expression} {rest : List Expression}
    (hheld : store.tree? tree = some held) (hroom : store.HasRoom 1)
    (horder : Writable durable (held.expressions.map Expression.id) store.lastExpression
      (expression :: rest)) :
    store.insertExpression tree (expression.renameChildren durable) =
      (.ok (store.lastExpression + 1), store.grow tree [expression.relocate durable] []) := by
  have hid : durable expression.id = store.lastExpression + 1 := by
    simpa using horder.id_eq [] expression rest rfl
  rw [insertExpression_eq hheld hroom]
  · rw [← hid]
    rfl
  · intro child hchild
    rw [Expression.children_renameChildren] at hchild
    obtain ⟨scratch, hscratch, rfl⟩ := List.mem_map.mp hchild
    simpa using horder.children_written [] expression rest rfl scratch hscratch

/-- Once the first of them are there, the others are writable over what is there then. -/
theorem writable_grow {durable : Int → Int} {first second : List Expression}
    (horder : Writable durable (held.expressions.map Expression.id) store.lastExpression
      (first ++ second)) :
    Writable durable
      ((held.append (first.map (Expression.relocate durable)) []).expressions.map Expression.id)
      (store.grow tree (first.map (Expression.relocate durable)) []).lastExpression second := by
  rw [StoredTree.append, List.map_append, List.map_map, lastExpression_grow, List.length_map]
  exact horder.right

/-- Writing expressions in order, as far as there is room, comes down to writing the
others afterwards. -/
theorem insertExpressions_append {rename : IdMap → Expression → Except SaveError Expression}
    {durable : Int → Int} {done : List Expression} (left : List Expression) {ids : IdMap}
    (hheld : store.tree? tree = some held) (hroom : store.HasRoom done.length)
    (horder : Writable durable (held.expressions.map Expression.id) store.lastExpression done)
    (hrename : ∀ more, ∀ expression ∈ done,
      rename (ids ++ more) expression = .ok (expression.renameChildren durable)) :
    insertExpressions tree rename (done ++ left) ids store =
      insertExpressions tree rename left (ids ++ IdMap.assign store.lastExpression done)
        (store.grow tree (done.map (Expression.relocate durable)) []) := by
  induction done generalizing ids store held with
  | nil => simp [IdMap.assign]
  | cons expression rest ih =>
      have hrenamed := hrename [] expression List.mem_cons_self
      rw [List.append_nil] at hrenamed
      have hwritten := insertNext_eq hheld (hroom.mono (by rw [List.length_cons]; omega)) horder
      rw [List.cons_append, insertExpressions, hrenamed]
      simp only [hwritten]
      rw [ih (store.tree?_grow_self tree _ _ hheld)]
      · rw [grow_grow, List.append_assoc]
        rfl
      · refine HasRoom.grow tree _ _ ?_
        simpa [Nat.add_comm] using hroom
      · exact writable_grow (List.singleton_append ▸ horder)
      · intro more other hother
        rw [List.append_assoc]
        exact hrename _ other (List.mem_cons_of_mem _ hother)

/-- Writing all of them. -/
theorem insertExpressions_eq {rename : IdMap → Expression → Except SaveError Expression}
    {durable : Int → Int} {order : List Expression} {ids : IdMap}
    (hheld : store.tree? tree = some held) (hroom : store.HasRoom order.length)
    (horder : Writable durable (held.expressions.map Expression.id) store.lastExpression order)
    (hrename : ∀ more, ∀ expression ∈ order,
      rename (ids ++ more) expression = .ok (expression.renameChildren durable)) :
    insertExpressions tree rename order ids store =
      (.ok (ids ++ IdMap.assign store.lastExpression order),
        store.grow tree (order.map (Expression.relocate durable)) []) := by
  have hall := insertExpressions_append [] hheld hroom horder hrename
  rw [List.append_nil] at hall
  rw [hall, insertExpressions]

/-- Writing branches whose references have been written, as far as there is room, comes
down to writing the others afterwards. -/
theorem insertBranches_append (durable : Int → Int) (ids : IdMap) {done : List BranchRecord}
    (left : List BranchRecord) (hheld : store.tree? tree = some held)
    (hroom : store.HasRoom done.length)
    (hknown : ∀ record ∈ done, ∀ id ∈ record.referenced, ids.durable? id = some (durable id))
    (hreferenced : ∀ record ∈ done, ∀ id ∈ record.referenced,
      durable id ∈ held.expressions.map Expression.id) :
    insertBranches tree ids (done ++ left) store =
      insertBranches tree ids left
        (store.grow tree [] (done.map (BranchRecord.relocate durable))) := by
  induction done generalizing store held with
  | nil => simp
  | cons record rest ih =>
      have hwritten : store.insertBranch tree (record.relocate durable) =
          (.ok (), store.grow tree [] [record.relocate durable]) := by
        apply insertBranch_eq hheld (hroom.mono (by rw [List.length_cons]; omega))
        intro id hid
        rw [BranchRecord.referenced_relocate] at hid
        obtain ⟨scratch, hscratch, rfl⟩ := List.mem_map.mp hid
        exact hreferenced record List.mem_cons_self scratch hscratch
      rw [List.cons_append, insertBranches,
        IdMap.renameBranch_eq (hknown record List.mem_cons_self)]
      simp only [hwritten]
      rw [ih (store.tree?_grow_self tree _ _ hheld)]
      · rw [grow_grow]
        rfl
      · refine HasRoom.grow tree _ _ ?_
        simpa [Nat.add_comm] using hroom
      · intro other hother
        exact hknown other (List.mem_cons_of_mem _ hother)
      · intro other hother id hid
        simpa [StoredTree.append] using
          hreferenced other (List.mem_cons_of_mem _ hother) id hid

/-- Writing all of them. -/
theorem insertBranches_eq (durable : Int → Int) (ids : IdMap) {branches : List BranchRecord}
    (hheld : store.tree? tree = some held) (hroom : store.HasRoom branches.length)
    (hknown : ∀ record ∈ branches, ∀ id ∈ record.referenced,
      ids.durable? id = some (durable id))
    (hreferenced : ∀ record ∈ branches, ∀ id ∈ record.referenced,
      durable id ∈ held.expressions.map Expression.id) :
    insertBranches tree ids branches store =
      (.ok (), store.grow tree [] (branches.map (BranchRecord.relocate durable))) := by
  have hall := insertBranches_append durable ids [] hheld hroom hknown hreferenced
  rw [List.append_nil] at hall
  rw [hall, insertBranches]

/-- A fill is its three rounds. -/
theorem fill_of_rounds {compiled : CompiledTree} {first second : IdMap}
    {afterOperands afterOperators afterBranches : TreeStore}
    (hoperands : insertExpressions tree (fun _ => .ok) compiled.operands [] store =
      (.ok first, afterOperands))
    (hoperators : insertExpressions tree IdMap.renameExpression compiled.operators first
      afterOperands = (.ok second, afterOperators))
    (hbranches : insertBranches tree second compiled.branches afterOperators =
      (.ok (), afterBranches)) :
    store.fill tree compiled = (.ok ⟨tree, second⟩, afterBranches) := by
  simp only [fill, hoperands, hoperators, hbranches]

/-- All that is referred to is there once the expressions of a tree are. -/
theorem durable_mem_append {compiled : CompiledTree} (last : Int) {id : Int}
    (hid : id ∈ compiled.definedIds) :
    compiled.durable last id ∈
      (held.append (compiled.stored last).expressions []).expressions.map Expression.id := by
  obtain ⟨expression, hexpression, rfl⟩ := List.mem_map.mp hid
  rw [StoredTree.append, List.map_append]
  apply List.mem_append_right
  refine List.mem_map.mpr ⟨expression.relocate (compiled.durable last), ?_, rfl⟩
  exact List.mem_map_of_mem (CompiledTree.mem_storedOrder.mpr hexpression)

section Rounds

variable {compiled : CompiledTree} (hcompiled : compiled.Layered)
variable (hheld : store.tree? tree = some held)
include hcompiled hheld

/-- The first round: operands are written as they are. -/
theorem insertOperands_eq (hroom : store.HasRoom compiled.operands.length) :
    insertExpressions tree (fun _ => .ok) compiled.operands [] store =
      (.ok (IdMap.assign store.lastExpression compiled.operands),
        store.grow tree
          (compiled.operands.map (Expression.relocate (compiled.durable store.lastExpression)))
          []) := by
  have horder := (hcompiled.writable (held.expressions.map Expression.id)
    store.lastExpression).left
  rw [insertExpressions_eq hheld hroom horder, List.nil_append]
  intro more operand hoperand
  rw [hcompiled.operand_unchanged _ hoperand]

/-- The second round: operators are written over the ids of the operands. -/
theorem insertOperators_eq (hroom : store.HasRoom compiled.expressions.length) :
    let operands :=
      compiled.operands.map (Expression.relocate (compiled.durable store.lastExpression))
    insertExpressions tree IdMap.renameExpression compiled.operators
        (IdMap.assign store.lastExpression compiled.operands) (store.grow tree operands []) =
      (.ok (compiled.durableIds store.lastExpression),
        store.grow tree (compiled.stored store.lastExpression).expressions []) := by
  intro operands
  have horder : Writable (compiled.durable store.lastExpression)
      ((held.append operands []).expressions.map Expression.id)
      (store.grow tree operands []).lastExpression compiled.operators :=
    writable_grow (hcompiled.writable _ _)
  have hroomLeft : (store.grow tree operands []).HasRoom compiled.operators.length := by
    apply HasRoom.grow
    rw [← compiled.length_storedOrder, CompiledTree.storedOrder, List.length_append] at hroom
    simpa [operands] using hroom
  rw [insertExpressions_eq (store.tree?_grow_self tree operands [] hheld) hroomLeft horder]
  · rw [grow_grow, lastExpression_grow, List.length_map, ← IdMap.assign_append,
      ← List.map_append, List.append_nil]
    rfl
  · intro more operator hoperator
    exact hcompiled.renameExpression_eq
      (fun operand => hcompiled.durable?_operand store.lastExpression more) hoperator

/-- The third round: branches are written over the ids of all expressions. -/
theorem insertBranches_stored (hroom : store.HasRoom
    (compiled.expressions.length + compiled.branches.length)) :
    insertBranches tree (compiled.durableIds store.lastExpression) compiled.branches
        (store.grow tree (compiled.stored store.lastExpression).expressions []) =
      (.ok (), store.grow tree (compiled.stored store.lastExpression).expressions
        (compiled.stored store.lastExpression).branches) := by
  rw [insertBranches_eq (compiled.durable store.lastExpression) _
    (store.tree?_grow_self tree _ [] hheld)]
  · rw [grow_grow, List.append_nil]
    rfl
  · apply HasRoom.grow
    simpa using hroom
  · intro record hrecord id hid
    exact hcompiled.durableIds_durable? store.lastExpression
      (hcompiled.branches_defined record hrecord id hid)
  · intro record hrecord id hid
    exact durable_mem_append store.lastExpression
      (hcompiled.branches_defined record hrecord id hid)

/-- Filling an open tree: all of the compiled tree arrives, under the next ids. -/
theorem fill_eq (hroom : store.HasRoom
    (compiled.expressions.length + compiled.branches.length)) :
    store.fill tree compiled =
      (.ok ⟨tree, compiled.durableIds store.lastExpression⟩,
        store.grow tree (compiled.stored store.lastExpression).expressions
          (compiled.stored store.lastExpression).branches) := by
  have hlength := compiled.length_storedOrder
  rw [CompiledTree.storedOrder, List.length_append] at hlength
  exact fill_of_rounds (insertOperands_eq hcompiled hheld (hroom.mono (by omega)))
    (insertOperators_eq hcompiled hheld (hroom.mono (by omega)))
    (insertBranches_stored hcompiled hheld hroom)

end Rounds

end Fill

/-! ## Opening a tree -/

/-- How a store differs from another in which the tree of a key has been emptied for a
new record. -/
structure Opened (store : TreeStore) (record : TreeRecord) (id : Int) (opened : TreeStore) :
    Prop where
  tree?_self : opened.tree? id = some ⟨id, record, [], []⟩
  key_self : opened.keys.get? record.key = some id
  tree?_other : ∀ other, other ≠ id → opened.tree? other = store.tree? other
  key_other : ∀ key, key ≠ record.key → opened.keys.get? key = store.keys.get? key
  variableBindings : opened.variableBindings = store.variableBindings
  conditionalBindings : opened.conditionalBindings = store.conditionalBindings
  lastExpression : opened.lastExpression = store.lastExpression
  writes : opened.writes = store.writes + 1
  budget : opened.budget = store.budget

/-- Opening a tree takes one write. -/
theorem Opened.hasRoom {store opened : TreeStore} {record : TreeRecord} {id : Int} {count : Nat}
    (hopened : store.Opened record id opened) (hroom : store.HasRoom (1 + count)) :
    opened.HasRoom count := by
  intro limit hlimit
  have := hroom limit (hopened.budget ▸ hlimit)
  rw [hopened.writes]
  omega

/-- The id of the tree that a key has, or gets with the next record written under it. -/
def treeFor (store : TreeStore) (key : String) : Int :=
  (store.keys.get? key).getD (store.lastTree + 1)

/-- The tree of a key that has one is emptied. -/
theorem upsertTree_filed {store : TreeStore} (hstore : store.Integrity)
    (hroom : store.HasRoom 1) {record : TreeRecord} {id : Int}
    (hkey : store.keys.get? record.key = some id) :
    ∃ opened, store.upsertTree record = (.ok id, opened) ∧ store.Opened record id opened := by
  obtain ⟨filed, hfiled⟩ := (hstore.filed_iff record.key id).mp hkey
  have hheld : store.tick.tree? id = some filed :=
    hstore.tree?_eq_some_iff.mpr ⟨hfiled.1, hfiled.2.1⟩
  let empty : StoredTree → StoredTree := fun tree =>
    { tree with record := record, expressions := [], branches := [] }
  have htree? := store.tick.tree?_changeTree id empty (fun _ => rfl)
  have hticked : store.tick.keys.get? record.key = some id := hkey
  refine ⟨store.tick.changeTree id empty, ?_, ?_, hkey, ?_, fun _ _ => rfl, rfl, rfl, rfl, rfl,
    rfl⟩
  · apply counted_ok hroom.not_spent
    simp only [hticked]
    rfl
  · rw [htree?, if_pos rfl, hheld, Option.map_some, ← hfiled.2.1]
  · intro other hother
    rw [htree?, if_neg hother]
    rfl

/-- A key that has no tree gets one with the next id. -/
theorem upsertTree_new {store : TreeStore} (hstore : store.Integrity) (hroom : store.HasRoom 1)
    {record : TreeRecord} (hkey : store.keys.get? record.key = none) :
    ∃ opened, store.upsertTree record = (.ok (store.lastTree + 1), opened) ∧
      store.Opened record (store.lastTree + 1) opened := by
  let id := store.lastTree + 1
  let opened : TreeStore := { store.tick with
    lastTree := id
    trees := store.trees ++ [⟨id, record, [], []⟩]
    keys := store.keys.insert record.key id }
  have hticked : store.tick.keys.get? record.key = none := hkey
  have hnone : store.trees.find? (fun tree => tree.id == id) = none := by
    rw [List.find?_eq_none]
    intro tree htree
    have := (hstore.tree_id_bounds htree).2
    rw [beq_iff_eq]
    change tree.id ≠ store.lastTree + 1
    omega
  refine ⟨opened, ?_, ?_, ?_, ?_, ?_, rfl, rfl, rfl, rfl, rfl⟩
  · apply counted_ok hroom.not_spent
    simp only [hticked]
    rfl
  · simp [opened, tree?, List.find?_append, hnone, id]
  · simp [opened, id]
  · intro other hother
    have hlast : ((⟨id, record, [], []⟩ : StoredTree).id == other) = false :=
      beq_false_of_ne hother.symm
    simp [opened, tree?, List.find?_append, hlast]
  · intro key hother
    simp [opened, hother]

theorem upsertTree_eq {store : TreeStore} (hstore : store.Integrity) (hroom : store.HasRoom 1)
    (record : TreeRecord) :
    ∃ opened, store.upsertTree record = (.ok (store.treeFor record.key), opened) ∧
      store.Opened record (store.treeFor record.key) opened := by
  rw [treeFor]
  cases hkey : store.keys.get? record.key with
  | some id => exact upsertTree_filed hstore hroom hkey
  | none => exact upsertTree_new hstore hroom hkey

/-- A save of a layered tree on a store with room for it: the tree of the key is opened,
and then holds exactly the relocated tree. -/
theorem persist_eq {store : TreeStore} (hstore : store.Integrity) {compiled : CompiledTree}
    (hcompiled : compiled.Layered)
    (hroom : store.HasRoom (1 + compiled.expressions.length + compiled.branches.length))
    (record : TreeRecord) :
    ∃ opened, store.Opened record (store.treeFor record.key) opened ∧
      store.persist record compiled =
        (.ok ⟨store.treeFor record.key, compiled.durableIds store.lastExpression⟩,
          opened.grow (store.treeFor record.key)
            (compiled.stored store.lastExpression).expressions
            (compiled.stored store.lastExpression).branches) := by
  obtain ⟨opened, hopened, hspec⟩ := upsertTree_eq hstore (hroom.mono (by omega)) record
  refine ⟨opened, hspec, ?_⟩
  have hcheck := CompiledTree.check_eq_ok_iff.mpr hcompiled.toSelfContained
  have hroomLeft : opened.HasRoom (compiled.expressions.length + compiled.branches.length) :=
    hspec.hasRoom (hroom.mono (by omega))
  simp only [persist, hcheck, hopened]
  rw [fill_eq hcompiled hspec.tree?_self hroomLeft, hspec.lastExpression]

/-- What is fetched under the key of an opened tree after it was filled. -/
theorem Opened.fetch_grow {store opened : TreeStore} {record : TreeRecord} {id : Int}
    (hopened : store.Opened record id opened) (expressions : List Expression)
    (branches : List BranchRecord) :
    (opened.grow id expressions branches).fetch record.key =
      .ok ⟨id, record, expressions, branches⟩ := by
  have hheld := opened.tree?_grow_self id expressions branches hopened.tree?_self
  rw [fetch, keys_grow, hopened.key_self, Option.bind_some, hheld]
  rfl

/-- The tree of a key is not the one that another key has or gets. -/
theorem ne_treeFor {store : TreeStore} (hstore : store.Integrity) {key other : String}
    (hkey : other ≠ key) {id : Int} (hfiled : store.keys.get? other = some id) :
    id ≠ store.treeFor key := by
  intro heq
  rw [treeFor] at heq
  cases hown : store.keys.get? key with
  | some own =>
      rw [hown, Option.getD_some] at heq
      exact hkey (hstore.keys_injective hfiled (heq ▸ hown))
  | none =>
      obtain ⟨tree, htree, hid, -⟩ := (hstore.filed_iff other id).mp hfiled
      have hle := (hstore.tree_id_bounds htree).2
      rw [hown, Option.getD_none] at heq
      omega

/-- Filling an opened tree changes nothing under other keys. -/
theorem Opened.fetch_grow_other {store opened : TreeStore} {record : TreeRecord}
    (hopened : store.Opened record (store.treeFor record.key) opened)
    (hstore : store.Integrity) (expressions : List Expression) (branches : List BranchRecord)
    {key : String} (hkey : key ≠ record.key) :
    (opened.grow (store.treeFor record.key) expressions branches).fetch key =
      store.fetch key := by
  rw [fetch, fetch, keys_grow, hopened.key_other key hkey]
  cases hfiled : store.keys.get? key with
  | none => rfl
  | some other =>
      have hother := ne_treeFor hstore hkey hfiled
      rw [Option.bind_some, Option.bind_some, tree?_grow, if_neg hother,
        hopened.tree?_other other hother]

end TreeStore

end DecisionCanvas
