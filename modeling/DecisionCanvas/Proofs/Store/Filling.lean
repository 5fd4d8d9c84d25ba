import DecisionCanvas.Proofs.Store.ScratchIds
import DecisionCanvas.Proofs.Store.Stabilization

/-!
# Filling a stored tree

What a script writes into a tree refers only to what it has written there before, whatever
ids the store has given out for it.  So no write is refused, and in the end the tree holds
the compiled one with every scratch id replaced by the id that was given out.
-/

namespace DecisionCanvas

/-- Whether a stored tree is the compiled one under the ids that its save returns. -/
structure SavedTree.Describes (saved : SavedTree) (compiled : CompiledTree)
    (held : StoredTree) : Prop where
  tree_eq : saved.tree = held.id
  content : (⟨held.expressions, held.branches⟩ : CompiledTree) =
    compiled.relocate saved.ids.apply

namespace Script

/-- Whether a script, whatever ids the store gives out, writes so many parts into a tree,
each of which refers only to what the tree holds by then, and completes a compiled tree. -/
inductive Fills (compiled : CompiledTree) : StoredTree → Nat → Script → Prop
  | done {held : StoredTree} {saved : SavedTree} (hsaved : saved.Describes compiled held) :
      Fills compiled held 0 (.done (.ok saved))
  | expression {held : StoredTree} {left : Nat} {expression : Expression}
      {next : Int → Script}
      (hchildren : ∀ child ∈ expression.children,
        child ∈ held.expressions.map Expression.id)
      (hnext : ∀ id,
        Fills compiled (held.append [{ expression with id := id }] []) left (next id)) :
      Fills compiled held (left + 1) (.insertExpression held.id expression next)
  | branch {held : StoredTree} {left : Nat} {record : BranchRecord} {next : Script}
      (hreferenced : ∀ id ∈ record.referenced, id ∈ held.expressions.map Expression.id)
      (hnext : Fills compiled (held.append [] [record]) left next) :
      Fills compiled held (left + 1) (.insertBranch held.id record next)

/-- A tree that holds the expressions written so far, under the ids that they got, and no
branch.  Later ids do not change what it holds. -/
structure Holding (held : StoredTree) (written : List Expression) (ids : IdMap) : Prop where
  scratch : ids.map Prod.fst = written.map Expression.id
  expressions : ∀ more,
    held.expressions = written.map (Expression.relocate (IdMap.apply (ids ++ more)))
  branches : held.branches = []

namespace Holding

variable {held : StoredTree} {written : List Expression} {ids : IdMap}

theorem empty (tree : Int) (record : TreeRecord) : Holding ⟨tree, record, [], []⟩ [] [] where
  scratch := rfl
  expressions _ := rfl
  branches := rfl

theorem knows (hheld : Holding held written ids) {scratch : Int}
    (hscratch : scratch ∈ written.map Expression.id) : ids.Knows scratch := by
  rw [← hheld.scratch] at hscratch
  obtain ⟨pair, hpair, rfl⟩ := List.mem_map.mp hscratch
  have hsome : (ids.durable? pair.1).isSome :=
    List.lookup_isSome_iff.mpr ⟨pair, hpair, beq_self_eq_true pair.1⟩
  obtain ⟨durable, hdurable⟩ := Option.isSome_iff_exists.mp hsome
  exact IdMap.knows_of_durable? hdurable

/-- What has been written is there. -/
theorem apply_mem (hheld : Holding held written ids) {scratch : Int}
    (hscratch : scratch ∈ written.map Expression.id) :
    ids.apply scratch ∈ held.expressions.map Expression.id := by
  have hexpressions := hheld.expressions []
  rw [List.append_nil] at hexpressions
  obtain ⟨expression, hexpression, rfl⟩ := List.mem_map.mp hscratch
  rw [hexpressions, List.map_map]
  exact List.mem_map.mpr ⟨expression, hexpression, rfl⟩

/-- An expression over what has been written refers to what is there. -/
theorem children_mem (hheld : Holding held written ids) {expression : Expression}
    (hchildren : ∀ child ∈ expression.children, child ∈ written.map Expression.id) :
    ∀ child ∈ (expression.renameChildren ids.apply).children,
      child ∈ held.expressions.map Expression.id := by
  intro child hchild
  rw [Expression.children_renameChildren] at hchild
  obtain ⟨scratch, hscratch, rfl⟩ := List.mem_map.mp hchild
  exact hheld.apply_mem (hchildren scratch hscratch)

theorem apply_new (hheld : Holding held written ids) {scratch : Int}
    (hscratch : scratch ∉ written.map Expression.id) (id : Int) (more : IdMap) :
    IdMap.apply (ids ++ (scratch, id) :: more) scratch = id := by
  have hnone : ids.durable? scratch = none := by
    apply List.lookup_eq_none_iff.mpr
    intro pair hpair
    rw [← hheld.scratch] at hscratch
    rw [bne_iff_ne]
    rintro rfl
    exact hscratch (List.mem_map_of_mem hpair)
  rw [IdMap.apply, IdMap.durable?_append, hnone, Option.none_or, IdMap.durable?,
    List.lookup_cons_self, Option.getD_some]

/-- An expression over what is there may be added under any id. -/
theorem add (hheld : Holding held written ids) {expression : Expression}
    (hnew : expression.id ∉ written.map Expression.id)
    (hchildren : ∀ child ∈ expression.children, child ∈ written.map Expression.id)
    (id : Int) :
    Holding (held.append [{ expression.renameChildren ids.apply with id := id }] [])
      (written ++ [expression]) (ids ++ [(expression.id, id)]) where
  scratch := by
    rw [List.map_append, hheld.scratch, List.map_append]
    rfl
  expressions := by
    intro more
    have hrenamed : expression.renameChildren ids.apply =
        expression.renameChildren (IdMap.apply (ids ++ (expression.id, id) :: more)) := by
      apply Expression.renameChildren_congr
      intro child hchild
      exact ((hheld.knows (hchildren child hchild)).apply_append _).symm
    have hid := hheld.apply_new hnew id more
    rw [List.append_assoc, List.singleton_append, List.map_append, List.map_singleton,
      ← hheld.expressions, StoredTree.append, hrenamed, Expression.relocate, hid]
    rfl
  branches := by
    rw [StoredTree.append, hheld.branches]
    rfl

end Holding

section Fill

variable {compiled : CompiledTree} {held : StoredTree} {ids : IdMap}

/-- A round of expressions that refer only to what was written before the round. -/
theorem fills_insertExpressions {written order : List Expression}
    {rename : IdMap → Expression → Except SaveError Expression} {next : IdMap → Script}
    {left : Nat} (hheld : Holding held written ids)
    (hdistinct : ((written ++ order).map Expression.id).Nodup)
    (hchildren : ∀ expression ∈ order, ∀ child ∈ expression.children,
      child ∈ written.map Expression.id)
    (hrename : ∀ (known : IdMap) (durable : Int → Int), ∀ expression ∈ order,
      (∀ child ∈ expression.children, known.durable? child = some (durable child)) →
        rename known expression = .ok (expression.renameChildren durable))
    (hnext : ∀ after known, after.id = held.id → Holding after (written ++ order) known →
      Fills compiled after left (next known)) :
    Fills compiled held (order.length + left)
      (insertExpressions held.id rename order ids next) := by
  induction order generalizing held written ids with
  | nil =>
      rw [List.append_nil] at hnext
      rw [insertExpressions, List.length_nil, Nat.zero_add]
      exact hnext held ids rfl hheld
  | cons expression rest ih =>
      have hwritten := hchildren expression List.mem_cons_self
      have hrenamed := hrename ids ids.apply expression List.mem_cons_self
        fun child hchild => hheld.knows (hwritten child hchild)
      have hlength : (expression :: rest).length + left = rest.length + left + 1 := by
        rw [List.length_cons]
        omega
      have hnew : expression.id ∉ written.map Expression.id := by
        rw [List.map_append] at hdistinct
        intro hmem
        exact (List.nodup_append.mp hdistinct).2.2 _ hmem _ List.mem_cons_self rfl
      have hsplit : written ++ expression :: rest = written ++ [expression] ++ rest := by
        rw [List.append_assoc, List.singleton_append]
      rw [insertExpressions, hrenamed, hlength]
      apply Fills.expression (hheld.children_mem hwritten)
      intro id
      rw [hsplit] at hdistinct hnext
      apply ih (hheld.add hnew hwritten id) hdistinct _ _ hnext
      · intro other hother child hchild
        rw [List.map_append]
        exact List.mem_append_left _
          (hchildren other (List.mem_cons_of_mem _ hother) child hchild)
      · intro known durable other hother
        exact hrename known durable other (List.mem_cons_of_mem _ hother)

/-- The branches that are left, once all expressions are there. -/
theorem fills_insertBranches (hcompiled : compiled.SelfContained)
    (hknown : ∀ id ∈ compiled.definedIds, ids.Knows id)
    (hexpressions : held.expressions = (compiled.relocate ids.apply).expressions)
    {done rest : List BranchRecord} (hall : compiled.branches = done ++ rest)
    (hbranches : held.branches = done.map (BranchRecord.relocate ids.apply)) :
    Fills compiled held rest.length
      (insertBranches held.id ids rest (.done (.ok ⟨held.id, ids⟩))) := by
  induction rest generalizing held done with
  | nil =>
      rw [List.append_nil] at hall
      refine Fills.done ⟨rfl, ?_⟩
      rw [hexpressions, hbranches, ← hall]
      rfl
  | cons record rest ih =>
      have hrecord : record ∈ compiled.branches :=
        hall ▸ List.mem_append_right _ List.mem_cons_self
      have hdefined := hcompiled.branches_defined record hrecord
      rw [insertBranches, IdMap.renameBranch_eq fun id hid => hknown id (hdefined id hid)]
      apply Fills.branch
      · intro id hid
        rw [BranchRecord.referenced_relocate] at hid
        obtain ⟨scratch, hscratch, rfl⟩ := List.mem_map.mp hid
        obtain ⟨expression, hexpression, rfl⟩ := List.mem_map.mp (hdefined scratch hscratch)
        rw [hexpressions, CompiledTree.relocate, List.map_map]
        exact List.mem_map.mpr ⟨expression, CompiledTree.mem_storedOrder.mpr hexpression, rfl⟩
      · have hallNext : compiled.branches = done ++ [record] ++ rest := by
          rw [hall, List.append_assoc, List.singleton_append]
        apply ih _ hallNext
        · rw [StoredTree.append, hbranches, List.map_append]
          rfl
        · rw [StoredTree.append, List.append_nil, hexpressions]

/-- What is left once the operands are there. -/
theorem fills_operators (hcompiled : compiled.Layered)
    (hheld : Holding held compiled.operands ids) :
    Fills compiled held (compiled.operators.length + compiled.branches.length)
      (insertExpressions held.id IdMap.renameExpression compiled.operators ids fun ids =>
        insertBranches held.id ids compiled.branches (.done (.ok ⟨held.id, ids⟩))) := by
  apply fills_insertExpressions hheld hcompiled.storedOrder_ids_nodup
  · intro operator hoperator child hchild
    obtain ⟨hmem, hkind⟩ := CompiledTree.mem_operators.mp hoperator
    obtain ⟨operand, hoperand, hoperandKind, rfl⟩ :=
      hcompiled.operators_on_operands operator hmem hkind child hchild
    exact List.mem_map_of_mem (CompiledTree.mem_operands.mpr ⟨hoperand, hoperandKind⟩)
  · intro known durable operator _ hknown
    exact IdMap.renameExpression_eq hknown
  · intro after known hid hafter
    have hknown : ∀ id ∈ compiled.definedIds, known.Knows id := by
      intro id hid
      obtain ⟨expression, hexpression, rfl⟩ := List.mem_map.mp hid
      exact hafter.knows (List.mem_map_of_mem (CompiledTree.mem_storedOrder.mpr hexpression))
    have hexpressions := hafter.expressions []
    rw [List.append_nil] at hexpressions
    have hnone : after.branches = [].map (BranchRecord.relocate known.apply) := hafter.branches
    rw [← hid]
    exact fills_insertBranches hcompiled.toSelfContained hknown hexpressions
      (List.nil_append compiled.branches).symm hnone

/-- The script of a layered tree fills an empty tree with it. -/
theorem fills_fill (hcompiled : compiled.Layered) (tree : Int) (record : TreeRecord) :
    Fills compiled ⟨tree, record, [], []⟩
      (compiled.expressions.length + compiled.branches.length) (fill tree compiled) := by
  have hdistinct := hcompiled.storedOrder_ids_nodup
  rw [CompiledTree.storedOrder, List.map_append] at hdistinct
  have hchildless : ∀ operand ∈ compiled.operands, operand.children = [] := by
    intro operand hoperand
    obtain ⟨hmem, hkind⟩ := CompiledTree.mem_operands.mp hoperand
    exact hcompiled.operands_childless operand hmem hkind
  rw [← compiled.length_storedOrder, CompiledTree.storedOrder, List.length_append,
    Nat.add_assoc]
  apply fills_insertExpressions (Holding.empty tree record)
  · exact (List.nodup_append.mp hdistinct).1
  · intro operand hoperand child hchild
    rw [hchildless operand hoperand] at hchild
    exact absurd hchild List.not_mem_nil
  · intro known durable operand hoperand _
    rw [hcompiled.operand_unchanged durable hoperand]
  · intro after known hid hafter
    change after.id = tree at hid
    rw [← hid]
    exact fills_operators hcompiled hafter

end Fill

/-- A script that fills a tree has not failed. -/
theorem Fills.ne_error {compiled : CompiledTree} {held : StoredTree} {left : Nat}
    {script : Script} (hfills : Fills compiled held left script) (error : SaveError) :
    script ≠ .done (.error error) := by
  cases hfills <;> simp

/-- It is done when nothing is left to be written. -/
theorem Fills.done_iff {compiled : CompiledTree} {held : StoredTree} {left : Nat}
    {script : Script} (hfills : Fills compiled held left script) :
    (∃ saved, script = .done (.ok saved)) ↔ left = 0 := by
  cases hfills <;> simp

theorem Fills.describes {compiled : CompiledTree} {held : StoredTree} {script : Script}
    (hfills : Fills compiled held 0 script) :
    ∃ saved : SavedTree, saved.Describes compiled held := by
  cases hfills with
  | done hsaved => exact ⟨_, hsaved⟩

end Script

namespace TreeStore

variable {store : TreeStore}

/-! ## Steps -/

section Fetch

variable (hstore : store.Integrity) {key : String} {held : StoredTree}
include hstore

theorem fetch_eq_ok_iff : store.fetch key = .ok held ↔
    store.keys.get? key = some held.id ∧ store.tree? held.id = some held := by
  rw [fetch]
  cases hkey : store.keys.get? key with
  | none => simp
  | some id =>
      cases htree : store.tree? id with
      | none =>
          simp only [Option.bind_some, htree, Option.some.injEq]
          constructor
          · intro hfalse
            cases hfalse
          · rintro ⟨rfl, hheld⟩
            exact absurd (htree.symm.trans hheld) (by simp)
      | some tree =>
          have hid := (hstore.tree?_eq_some_iff.mp htree).2
          simp only [Option.bind_some, htree, Option.some.injEq, Except.ok.injEq]
          constructor
          · rintro rfl
            rw [hid]
            exact ⟨rfl, htree⟩
          · rintro ⟨rfl, hheld⟩
            exact Option.some.inj (htree.symm.trans hheld)

variable (hfetch : store.fetch key = .ok held)
variable (expressions : List Expression) (branches : List BranchRecord)
include hfetch

/-- What is written into a tree is fetched with it. -/
theorem fetch_grow_self : (store.grow held.id expressions branches).fetch key =
    .ok (held.append expressions branches) := by
  obtain ⟨hkey, hheld⟩ := (fetch_eq_ok_iff hstore).mp hfetch
  rw [fetch, keys_grow, hkey, Option.bind_some,
    store.tree?_grow_self held.id expressions branches hheld]

/-- What is written into a tree is not seen under other keys. -/
theorem fetch_grow_other {other : String} (hother : other ≠ key) :
    (store.grow held.id expressions branches).fetch other = store.fetch other := by
  obtain ⟨hkey, -⟩ := (fetch_eq_ok_iff hstore).mp hfetch
  rw [fetch, fetch, keys_grow]
  cases hfiled : store.keys.get? other with
  | none => rfl
  | some id =>
      have hid : id ≠ held.id := by
        rintro rfl
        exact hother (hstore.keys_injective hfiled hkey)
      rw [Option.bind_some, Option.bind_some, tree?_grow, if_neg hid]

end Fetch

/-- A step of a script that fills a stored tree. -/
theorem step_of_fills (hstore : store.Unlimited) {compiled : CompiledTree}
    {held : StoredTree} {left : Nat} {script : Script}
    (hheld : store.tree? held.id = some held) (hfills : script.Fills compiled held left) :
    ∃ expressions branches next,
      script.step store = (next, store.grow held.id expressions branches) ∧
      next.Fills compiled (held.append expressions branches) (left - 1) := by
  have hroom := hasRoom_of_unlimited hstore.budget_eq 1
  cases hfills with
  | @done held saved hsaved =>
      refine ⟨[], [], .done (.ok saved), ?_, ?_⟩
      · rw [grow_nil]
        rfl
      · rw [StoredTree.append_nil]
        exact .done hsaved
  | expression hchildren hnext =>
      have hwritten := insertExpression_eq hheld hroom hchildren
      refine ⟨_, [], _, ?_, hnext (store.lastExpression + 1)⟩
      rw [Script.step, hwritten]
      rfl
  | branch hreferenced hnext =>
      have hwritten := insertBranch_eq hheld hroom hreferenced
      refine ⟨[], _, _, ?_, hnext⟩
      rw [Script.step, hwritten]
      rfl

end TreeStore

end DecisionCanvas
