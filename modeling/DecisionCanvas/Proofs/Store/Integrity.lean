import DecisionCanvas.Store.Basic
import DecisionCanvas.Directory.Lookup
import Mathlib.Data.List.Nodup

/-!
# Integrity of the tree store

Clients may try any writes in any order, and every write may be refused.  Whatever
they do, keys and tree ids correspond to each other, no expression id comes twice,
and nothing in the store refers to anything that is not there.  All of it follows
from what a single write can change.
-/

namespace DecisionCanvas

/-- A write that a client may try. -/
inductive Write where
  | upsertTree (record : TreeRecord)
  | insertExpression (tree : Int) (expression : Expression)
  | insertBranch (tree : Int) (record : BranchRecord)
  | bindVariable (key : String) (tree : Int)
  | bindConditional (key : String) (tree : Int)
  deriving DecidableEq

/-- In a list whose keys are distinct, the item found under a key is the item that
has it. -/
theorem find?_eq_some_iff_mem {Item : Type} {key : Item → Int} {items : List Item}
    (hdistinct : (items.map key).Nodup) {id : Int} {item : Item} :
    items.find? (fun other => key other == id) = some item ↔ item ∈ items ∧ key item = id := by
  induction items with
  | nil => simp
  | cons first rest ih =>
      obtain ⟨hfirst, hrest⟩ := List.nodup_cons.mp hdistinct
      rw [List.find?_cons]
      by_cases hkey : key first = id
      · have hnotin : ∀ other ∈ rest, key other ≠ id := fun other hother heq =>
          hfirst (hkey ▸ heq ▸ List.mem_map_of_mem hother)
        simp only [hkey, beq_self_eq_true, Option.some.injEq, List.mem_cons]
        constructor
        · rintro rfl
          exact ⟨Or.inl rfl, hkey⟩
        · rintro ⟨rfl | hmem, heq⟩
          · rfl
          · exact absurd heq (hnotin item hmem)
      · simp only [beq_false_of_ne hkey, ih hrest, List.mem_cons]
        constructor
        · rintro ⟨hmem, heq⟩
          exact ⟨Or.inr hmem, heq⟩
        · rintro ⟨rfl | hmem, heq⟩
          · exact absurd heq hkey
          · exact ⟨hmem, heq⟩

/-- A stored tree whose expressions come in the order of their ids and which refers
only to expressions of its own, an expression only to earlier ones. -/
structure StoredTree.Closed (tree : StoredTree) : Prop where
  ids_positive : ∀ expression ∈ tree.expressions, 0 < expression.id
  ids_ascending : tree.expressions.Pairwise fun earlier later => earlier.id < later.id
  children_earlier : ∀ (place : Nat) (expression : Expression),
    tree.expressions[place]? = some expression → ∀ child ∈ expression.children,
      ∃ earlier < place, (tree.expressions[earlier]?).map Expression.id = some child
  branches_closed : ∀ record ∈ tree.branches, ∀ id ∈ record.referenced,
    id ∈ tree.expressions.map Expression.id

namespace StoredTree.Closed

theorem ids_nodup {tree : StoredTree} (htree : tree.Closed) :
    (tree.expressions.map Expression.id).Nodup :=
  List.pairwise_map.mpr (htree.ids_ascending.imp fun hlt => Int.ne_of_lt hlt)

/-- A tree without content refers to nothing. -/
theorem cleared (id : Int) (record : TreeRecord) : Closed ⟨id, record, [], []⟩ where
  ids_positive := by simp
  ids_ascending := List.Pairwise.nil
  children_earlier := by simp
  branches_closed := by simp

/-- An expression may be added under an id above all others, if its children are
there already. -/
theorem addExpression {tree : StoredTree} (htree : tree.Closed) {expression : Expression}
    (hpositive : 0 < expression.id)
    (habove : ∀ other ∈ tree.expressions, other.id < expression.id)
    (hchildren : ∀ child ∈ expression.children, child ∈ tree.expressions.map Expression.id) :
    Closed { tree with expressions := tree.expressions ++ [expression] } where
  ids_positive := by
    intro other hother
    rcases List.mem_append.mp hother with hold | hnew
    · exact htree.ids_positive other hold
    · rw [List.mem_singleton.mp hnew]
      exact hpositive
  ids_ascending := by
    rw [List.pairwise_append]
    refine ⟨htree.ids_ascending, List.pairwise_singleton _ _, ?_⟩
    intro other hother new hnew
    rw [List.mem_singleton.mp hnew]
    exact habove other hother
  children_earlier := by
    intro place parent hparent child hchild
    rcases Nat.lt_trichotomy place tree.expressions.length with hbefore | hlast | hbeyond
    · rw [List.getElem?_append_left hbefore] at hparent
      obtain ⟨earlier, hearlier, hid⟩ :=
        htree.children_earlier place parent hparent child hchild
      refine ⟨earlier, hearlier, ?_⟩
      rw [List.getElem?_append_left (Nat.lt_trans hearlier hbefore)]
      exact hid
    · subst hlast
      simp only [List.getElem?_concat_length, Option.some.injEq] at hparent
      subst hparent
      obtain ⟨other, hother, rfl⟩ := List.mem_map.mp (hchildren child hchild)
      obtain ⟨earlier, hearlier, rfl⟩ := List.mem_iff_getElem.mp hother
      refine ⟨earlier, hearlier, ?_⟩
      simp [List.getElem?_append_left hearlier, List.getElem?_eq_getElem hearlier]
    · rw [List.getElem?_eq_none (by simp; omega)] at hparent
      exact absurd hparent (by simp)
  branches_closed := by
    intro record hrecord id hid
    rw [List.map_append]
    exact List.mem_append_left _ (htree.branches_closed record hrecord id hid)

/-- A branch may be added if everything it refers to is there already. -/
theorem addBranch {tree : StoredTree} (htree : tree.Closed) {record : BranchRecord}
    (hreferenced : ∀ id ∈ record.referenced, id ∈ tree.expressions.map Expression.id) :
    Closed { tree with branches := tree.branches ++ [record] } where
  ids_positive := htree.ids_positive
  ids_ascending := htree.ids_ascending
  children_earlier := htree.children_earlier
  branches_closed := by
    intro other hother
    rcases List.mem_append.mp hother with hold | hnew
    · exact htree.branches_closed other hold
    · rw [List.mem_singleton.mp hnew]
      exact hreferenced

end StoredTree.Closed

/-- Under which id and which key a tree is filed. -/
def StoredTree.filing (tree : StoredTree) : Int × String :=
  (tree.id, tree.record.key)

namespace TreeStore

/-- The store after one write was tried. -/
def afterWrite (store : TreeStore) : Write → TreeStore
  | .upsertTree record => (store.upsertTree record).2
  | .insertExpression tree expression => (store.insertExpression tree expression).2
  | .insertBranch tree record => (store.insertBranch tree record).2
  | .bindVariable key tree => (store.bindVariable key tree).2
  | .bindConditional key tree => (store.bindConditional key tree).2

/-- The store after writes were tried one after another. -/
def afterWrites (store : TreeStore) (writes : List Write) : TreeStore :=
  writes.foldl afterWrite store

/-- A store in which everything that is referred to is there, and is what it is taken
for. -/
structure Integrity (store : TreeStore) : Prop where
  tree_ids : store.trees.map StoredTree.id =
    (List.range store.trees.length).map fun place : Nat => (place : Int) + 1
  last_tree : store.lastTree = store.trees.length
  filed_iff : ∀ key id, store.keys.get? key = some id ↔
    ∃ tree ∈ store.trees, tree.id = id ∧ tree.record.key = key
  closed : ∀ tree ∈ store.trees, tree.Closed
  last_expression_nonneg : 0 ≤ store.lastExpression
  expression_ids_le : ∀ tree ∈ store.trees, ∀ expression ∈ tree.expressions,
    expression.id ≤ store.lastExpression
  expression_ids_apart : ∀ left ∈ store.trees, ∀ right ∈ store.trees,
    ∀ expression ∈ left.expressions, ∀ other ∈ right.expressions,
      expression.id = other.id → left.id = right.id
  variables_bound : ∀ key id, store.variableBindings.get? key = some id →
    ∃ tree ∈ store.trees, tree.id = id
  conditionals_bound : ∀ key id, store.conditionalBindings.get? key = some id →
    ∃ tree ∈ store.trees, tree.id = id

/-- The store after a write that only counts. -/
def tick (store : TreeStore) : TreeStore :=
  { store with writes := store.writes + 1 }

section Counted

variable {Result : Type} {store : TreeStore}
variable {attempt : TreeStore → Except Rejection (Result × TreeStore)}

theorem counted_spent (hspent : store.isSpent = true) :
    store.counted attempt = (.error (.rejected (.budgetSpent store.writes)), store) := by
  simp only [counted, hspent, if_true]

theorem counted_ok (hopen : store.isSpent = false) (result : Result) (next : TreeStore)
    (hattempt : attempt store.tick = .ok (result, next)) :
    store.counted attempt = (.ok result, next) := by
  rw [tick] at hattempt
  simp only [counted, hopen, Bool.false_eq_true, if_false, hattempt]

theorem counted_error (hopen : store.isSpent = false) {reason : Rejection}
    (hattempt : attempt store.tick = .error reason) :
    store.counted attempt = (.error (.rejected reason), store.tick) := by
  rw [tick] at hattempt
  simp only [counted, hopen, Bool.false_eq_true, if_false, hattempt, tick]

/-- A counted write leaves the store alone, only counts, or does what it attempts. -/
theorem counted_cases (store : TreeStore)
    (attempt : TreeStore → Except Rejection (Result × TreeStore)) :
    (store.counted attempt).2 = store ∨ (store.counted attempt).2 = store.tick ∨
      ∃ result, attempt store.tick = .ok (result, (store.counted attempt).2) := by
  cases hspent : store.isSpent with
  | true => exact Or.inl (by rw [counted_spent hspent])
  | false =>
      cases hattempt : attempt store.tick with
      | error reason => exact Or.inr (Or.inl (by rw [counted_error hspent hattempt]))
      | ok done =>
          refine Or.inr (Or.inr ⟨done.1, ?_⟩)
          rw [counted_ok hspent done.1 done.2 hattempt]

/-- What counting and the attempt preserve, a counted write preserves. -/
theorem counted_preserves {Holds : TreeStore → Prop} (hstore : Holds store)
    (htick : ∀ before, Holds before → Holds before.tick)
    (hattempt : ∀ before result after, Holds before →
      attempt before = .ok (result, after) → Holds after) :
    Holds (store.counted attempt).2 := by
  rcases counted_cases store attempt with hsame | hcounted | ⟨result, hdone⟩
  · rw [hsame]
    exact hstore
  · rw [hcounted]
    exact htick store hstore
  · exact hattempt store.tick result _ (htick store hstore) hdone

/-- A write that needs something succeeds only if it is there. -/
theorem required_eq_ok {required : Except Rejection Unit} {done : Result × TreeStore}
    {result : Result} {after : TreeStore}
    (hdone : (match required with
      | .error reason => .error reason
      | .ok () => .ok done) = Except.ok (result, after)) :
    required = .ok () ∧ done.2 = after := by
  cases required with
  | error reason => simp at hdone
  | ok _ =>
      simp only [Except.ok.injEq] at hdone
      exact ⟨rfl, congrArg Prod.snd hdone⟩

end Counted

theorem missingExpression?_eq_none_iff {tree : StoredTree} {expressions : List Int} :
    missingExpression? tree expressions = none ↔
      ∀ expression ∈ expressions, expression ∈ tree.expressions.map Expression.id := by
  simp only [missingExpression?, List.find?_eq_none, Bool.not_eq_true', Bool.not_eq_false,
    List.any_eq_true, beq_iff_eq, List.mem_map]

theorem requireExpressions_eq_ok_iff {store : TreeStore} {id : Int} {expressions : List Int} :
    store.requireExpressions id expressions = .ok () ↔
      ∃ tree, store.tree? id = some tree ∧
        ∀ expression ∈ expressions, expression ∈ tree.expressions.map Expression.id := by
  unfold requireExpressions
  cases store.tree? id with
  | none => simp
  | some tree =>
      simp only [Option.some.injEq, exists_eq_left', ← missingExpression?_eq_none_iff]
      cases missingExpression? tree expressions with
      | none => simp
      | some missing => simp

/-! ## Trees that change -/

section Changed

variable {store : TreeStore} {id last : Int} {change : StoredTree → StoredTree}

/-- Whether every expression of some trees is one that a tree of the same id holds already, or
is new in one tree and numbered on from the last, up to another. -/
def Extends (store : TreeStore) (trees : List StoredTree) (id last : Int) : Prop :=
  ∀ tree ∈ trees, ∀ expression ∈ tree.expressions,
    (∃ old ∈ store.trees, old.id = tree.id ∧ expression ∈ old.expressions) ∨
      tree.id = id ∧ store.lastExpression < expression.id ∧ expression.id ≤ last

theorem mem_filings_iff {trees : List StoredTree} {key : String} :
    (id, key) ∈ trees.map StoredTree.filing ↔
      ∃ tree ∈ trees, tree.id = id ∧ tree.record.key = key := by
  simp [StoredTree.filing]

/-- A tree after a change is what has become of a stored one. -/
theorem mem_changeTree {tree : StoredTree} (hmem : tree ∈ (store.changeTree id change).trees) :
    ∃ old ∈ store.trees, (old.id = id ∧ change old = tree) ∨ (old.id ≠ id ∧ old = tree) := by
  obtain ⟨old, hold, rfl⟩ := List.mem_map.mp hmem
  refine ⟨old, hold, ?_⟩
  split
  · rename_i hid
    exact Or.inl ⟨hid, rfl⟩
  · rename_i hid
    exact Or.inr ⟨hid, rfl⟩

/-- A change of the content leaves all trees filed where they are. -/
theorem map_filing_changeTree (hid : ∀ tree, (change tree).id = tree.id)
    (hkey : ∀ tree ∈ store.trees, tree.id = id → (change tree).record.key = tree.record.key) :
    (store.changeTree id change).trees.map StoredTree.filing =
      store.trees.map StoredTree.filing := by
  rw [changeTree, List.map_map]
  apply List.map_congr_left
  intro tree hmem
  rw [Function.comp_apply]
  split
  · rename_i htree
    rw [StoredTree.filing, hid, hkey tree hmem htree, StoredTree.filing]
  · rfl

theorem extends_changeTree (hid : ∀ tree, (change tree).id = tree.id)
    (hids : ∀ tree ∈ store.trees, tree.id = id → ∀ expression ∈ (change tree).expressions,
      expression ∈ tree.expressions ∨
        store.lastExpression < expression.id ∧ expression.id ≤ last) :
    store.Extends (store.changeTree id change).trees id last := by
  intro tree hmem expression hexpression
  obtain ⟨old, hold, ⟨heq, rfl⟩ | ⟨-, rfl⟩⟩ := mem_changeTree hmem
  · rcases hids old hold heq expression hexpression with hheld | hnew
    · exact Or.inl ⟨old, hold, (hid old).symm, hheld⟩
    · exact Or.inr ⟨(hid old).trans heq, hnew⟩
  · exact Or.inl ⟨old, hold, rfl, hexpression⟩

end Changed

namespace Integrity

variable {store : TreeStore}

theorem tick (hstore : store.Integrity) : store.tick.Integrity :=
  ⟨hstore.tree_ids, hstore.last_tree, hstore.filed_iff, hstore.closed,
    hstore.last_expression_nonneg, hstore.expression_ids_le, hstore.expression_ids_apart,
    hstore.variables_bound, hstore.conditionals_bound⟩

/-- A counted write keeps integrity if what it attempts does. -/
theorem counted {Result : Type} (hstore : store.Integrity)
    {attempt : TreeStore → Except Rejection (Result × TreeStore)}
    (hattempt : ∀ before result after, before.Integrity →
      attempt before = .ok (result, after) → after.Integrity) :
    (store.counted attempt).2.Integrity :=
  counted_preserves hstore (fun _ => tick) hattempt

theorem tree_ids_nodup (hstore : store.Integrity) :
    (store.trees.map StoredTree.id).Nodup := by
  rw [hstore.tree_ids]
  refine List.Nodup.map ?_ List.nodup_range
  intro left right heq
  have hsucc : (left : Int) + 1 = (right : Int) + 1 := heq
  omega

theorem tree?_eq_some_iff (hstore : store.Integrity) {id : Int} {tree : StoredTree} :
    store.tree? id = some tree ↔ tree ∈ store.trees ∧ tree.id = id :=
  find?_eq_some_iff_mem hstore.tree_ids_nodup

theorem tree_id_bounds (hstore : store.Integrity) {tree : StoredTree}
    (htree : tree ∈ store.trees) : 0 < tree.id ∧ tree.id ≤ store.lastTree := by
  have hid : tree.id ∈ store.trees.map StoredTree.id := List.mem_map_of_mem htree
  rw [hstore.tree_ids, List.mem_map] at hid
  obtain ⟨place, hplace, heq⟩ := hid
  rw [List.mem_range] at hplace
  rw [hstore.last_tree]
  omega

theorem eq_of_id_eq (hstore : store.Integrity) {left right : StoredTree}
    (hleft : left ∈ store.trees) (hright : right ∈ store.trees) (hid : left.id = right.id) :
    left = right :=
  List.inj_on_of_nodup_map hstore.tree_ids_nodup hleft hright hid

/-- Two keys never lead to one tree. -/
theorem keys_injective (hstore : store.Integrity) {left right : String} {id : Int}
    (hleft : store.keys.get? left = some id) (hright : store.keys.get? right = some id) :
    left = right := by
  obtain ⟨tree, htree, hid, hkey⟩ := (hstore.filed_iff left id).mp hleft
  obtain ⟨other, hother, hotherId, hotherKey⟩ := (hstore.filed_iff right id).mp hright
  rw [← hkey, ← hotherKey, hstore.eq_of_id_eq htree hother (hid.trans hotherId.symm)]

/-! ## Changes that keep integrity -/

section Changes

variable {trees : List StoredTree} {id last : Int} {change : StoredTree → StoredTree}

/-- Expressions that are held already, and new ones of one tree, numbered on from the last, have
ids up to the new last. -/
theorem ids_le_of_extends (hstore : store.Integrity) (htrees : store.Extends trees id last)
    (hlast : store.lastExpression ≤ last) :
    ∀ tree ∈ trees, ∀ expression ∈ tree.expressions, expression.id ≤ last := by
  intro tree htree expression hexpression
  obtain ⟨old, hold, -, hheld⟩ | ⟨-, -, hnew⟩ := htrees tree htree expression hexpression
  · exact Int.le_trans (hstore.expression_ids_le old hold expression hheld) hlast
  · exact hnew

theorem ids_apart_of_extends (hstore : store.Integrity) (htrees : store.Extends trees id last) :
    ∀ left ∈ trees, ∀ right ∈ trees, ∀ expression ∈ left.expressions,
      ∀ other ∈ right.expressions, expression.id = other.id → left.id = right.id := by
  intro left hleft right hright expression hexpression other hother heq
  have hfirst := htrees left hleft expression hexpression
  have hsecond := htrees right hright other hother
  rcases hfirst with ⟨leftOld, hleftOld, hleftId, hheld⟩ | ⟨hleftId, habove, -⟩
  · have hle := hstore.expression_ids_le leftOld hleftOld expression hheld
    rcases hsecond with ⟨rightOld, hrightOld, hrightId, hotherHeld⟩ | ⟨-, habove, -⟩
    · rw [← hleftId, ← hrightId]
      exact hstore.expression_ids_apart leftOld hleftOld rightOld hrightOld expression hheld
        other hotherHeld heq
    · omega
  · rcases hsecond with ⟨rightOld, hrightOld, -, hotherHeld⟩ | ⟨hrightId, -, -⟩
    · have hle := hstore.expression_ids_le rightOld hrightOld other hotherHeld
      omega
    · rw [hleftId, hrightId]

/-- The content of one tree may be changed, if the tree stays closed and every id that
is new in it is new in the store. -/
theorem changeTree (hstore : store.Integrity) (id last : Int) {change : StoredTree → StoredTree}
    (hlast : store.lastExpression ≤ last)
    (hid : ∀ tree, (change tree).id = tree.id)
    (hkey : ∀ tree ∈ store.trees, tree.id = id → (change tree).record.key = tree.record.key)
    (hclosed : ∀ tree ∈ store.trees, tree.id = id → (change tree).Closed)
    (hids : ∀ tree ∈ store.trees, tree.id = id → ∀ expression ∈ (change tree).expressions,
      expression ∈ tree.expressions ∨
        store.lastExpression < expression.id ∧ expression.id ≤ last) :
    Integrity { store.changeTree id change with lastExpression := last } := by
  let changed := (store.changeTree id change).trees
  have hlength : changed.length = store.trees.length := List.length_map _
  have hfilings : changed.map StoredTree.filing = store.trees.map StoredTree.filing :=
    map_filing_changeTree hid hkey
  have hsameIds : changed.map StoredTree.id = store.trees.map StoredTree.id := by
    have hfirst := congrArg (List.map Prod.fst) hfilings
    rwa [List.map_map, List.map_map] at hfirst
  have hnamed : ∀ other, (∃ tree ∈ store.trees, tree.id = other) →
      ∃ tree ∈ changed, tree.id = other := by
    intro other hother
    rw [← List.mem_map, hsameIds]
    exact List.mem_map.mpr hother
  have hextends : store.Extends changed id last := extends_changeTree hid hids
  exact
    { tree_ids := by
        change changed.map StoredTree.id = (List.range changed.length).map _
        rw [hsameIds, hlength]
        exact hstore.tree_ids
      last_tree := hlength ▸ hstore.last_tree
      filed_iff := fun key other => by
        change store.keys.get? key = some other ↔ ∃ tree ∈ changed, _
        rw [← mem_filings_iff, hfilings, mem_filings_iff]
        exact hstore.filed_iff key other
      closed := fun tree hmem => by
        obtain ⟨old, hold, ⟨heq, rfl⟩ | ⟨-, rfl⟩⟩ := mem_changeTree hmem
        · exact hclosed old hold heq
        · exact hstore.closed _ hold
      last_expression_nonneg := Int.le_trans hstore.last_expression_nonneg hlast
      expression_ids_le := hstore.ids_le_of_extends hextends hlast
      expression_ids_apart := hstore.ids_apart_of_extends hextends
      variables_bound := fun key other hbound =>
        hnamed other (hstore.variables_bound key other hbound)
      conditionals_bound := fun key other hbound =>
        hnamed other (hstore.conditionals_bound key other hbound) }

/-- A key without a tree gets a new one, whose id is the next. -/
theorem addTree (hstore : store.Integrity) {record : TreeRecord}
    (hfree : store.keys.get? record.key = none) :
    Integrity { store with
      lastTree := store.lastTree + 1
      trees := store.trees ++ [⟨store.lastTree + 1, record, [], []⟩]
      keys := store.keys.insert record.key (store.lastTree + 1) } := by
  let created : StoredTree := ⟨store.lastTree + 1, record, [], []⟩
  have hnamed : ∀ other, (∃ tree ∈ store.trees, tree.id = other) →
      ∃ tree ∈ store.trees ++ [created], tree.id = other := by
    rintro other ⟨tree, hmem, heq⟩
    exact ⟨tree, List.mem_append_left _ hmem, heq⟩
  have hextends : store.Extends (store.trees ++ [created]) created.id store.lastExpression := by
    intro tree hmem expression hexpression
    rcases List.mem_append.mp hmem with hold | hnew
    · exact Or.inl ⟨tree, hold, rfl, hexpression⟩
    · rw [List.mem_singleton.mp hnew] at hexpression
      exact absurd hexpression List.not_mem_nil
  exact
    { tree_ids := by
        simp only [List.map_append, hstore.tree_ids, List.length_append, List.map_cons,
          List.map_nil, List.length_singleton, List.range_succ, hstore.last_tree]
      last_tree := by
        simp only [List.length_append, List.length_singleton, hstore.last_tree, Int.natCast_add,
          Int.natCast_one]
      filed_iff := fun key id => by
        have hcreated : (id, key) ∈ [created].map StoredTree.filing ↔
            id = store.lastTree + 1 ∧ key = record.key := by
          simp [created, StoredTree.filing]
        rw [← mem_filings_iff, List.map_append, List.mem_append, hcreated, mem_filings_iff,
          ← hstore.filed_iff, Directory.get?_insert]
        split
        · rename_i hkey
          simp [hkey, hfree, eq_comm]
        · rename_i hkey
          simp [hkey]
      closed := fun tree hmem => by
        rcases List.mem_append.mp hmem with hold | hnew
        · exact hstore.closed tree hold
        · rw [List.mem_singleton.mp hnew]
          exact StoredTree.Closed.cleared _ _
      last_expression_nonneg := hstore.last_expression_nonneg
      expression_ids_le := hstore.ids_le_of_extends hextends (Int.le_refl _)
      expression_ids_apart := hstore.ids_apart_of_extends hextends
      variables_bound := fun key other hbound =>
        hnamed other (hstore.variables_bound key other hbound)
      conditionals_bound := fun key other hbound =>
        hnamed other (hstore.conditionals_bound key other hbound) }

end Changes

/-! ## Writes -/

theorem upsertTree (hstore : store.Integrity) (record : TreeRecord) :
    (store.upsertTree record).2.Integrity := by
  refine hstore.counted fun before result after hbefore hdone => ?_
  cases hkey : before.keys.get? record.key with
  | none =>
      simp only [hkey, Except.ok.injEq, Prod.mk.injEq] at hdone
      rw [← hdone.2]
      exact hbefore.addTree hkey
  | some id =>
      simp only [hkey, Except.ok.injEq, Prod.mk.injEq] at hdone
      rw [← hdone.2]
      obtain ⟨filed, hfiled, hid, hfiledKey⟩ := (hbefore.filed_iff record.key id).mp hkey
      refine hbefore.changeTree id before.lastExpression (Int.le_refl _) (fun _ => rfl)
        ?_ ?_ ?_
      · intro tree hmem htree
        rw [hbefore.eq_of_id_eq hmem hfiled (htree.trans hid.symm), hfiledKey]
      · intro tree _ _
        exact StoredTree.Closed.cleared _ _
      · intro tree _ _ expression hexpression
        exact absurd hexpression List.not_mem_nil

/-- A write that refers to expressions needs a tree that holds them. -/
theorem requireExpressions_ok (hstore : store.Integrity) {id : Int} {expressions : List Int} :
    store.requireExpressions id expressions = .ok () ↔
      ∃ tree ∈ store.trees, tree.id = id ∧
        ∀ expression ∈ expressions, expression ∈ tree.expressions.map Expression.id := by
  rw [requireExpressions_eq_ok_iff]
  constructor
  · rintro ⟨tree, htree, hall⟩
    obtain ⟨hmem, hid⟩ := hstore.tree?_eq_some_iff.mp htree
    exact ⟨tree, hmem, hid, hall⟩
  · rintro ⟨tree, hmem, hid, hall⟩
    exact ⟨tree, hstore.tree?_eq_some_iff.mpr ⟨hmem, hid⟩, hall⟩

theorem insertExpression (hstore : store.Integrity) (id : Int) (expression : Expression) :
    (store.insertExpression id expression).2.Integrity := by
  refine hstore.counted fun before result after hbefore hdone => ?_
  obtain ⟨hrequired, rfl⟩ := required_eq_ok hdone
  obtain ⟨holder, hholder, hid, hchildren⟩ := hbefore.requireExpressions_ok.mp hrequired
  refine hbefore.changeTree id (before.lastExpression + 1) (by omega) (fun _ => rfl)
    (fun _ _ _ => rfl) ?_ ?_
  · intro tree hmem htree
    obtain rfl := hbefore.eq_of_id_eq hmem hholder (htree.trans hid.symm)
    refine (hbefore.closed tree hmem).addExpression ?_ ?_ hchildren
    · have := hbefore.last_expression_nonneg
      change 0 < before.lastExpression + 1
      omega
    · intro other hother
      have := hbefore.expression_ids_le tree hmem other hother
      change other.id < before.lastExpression + 1
      omega
  · intro tree hmem _ other hother
    rcases List.mem_append.mp hother with hold | hnew
    · exact Or.inl hold
    · rw [List.mem_singleton.mp hnew]
      refine Or.inr ⟨?_, Int.le_refl _⟩
      change before.lastExpression < before.lastExpression + 1
      omega

theorem insertBranch (hstore : store.Integrity) (id : Int) (record : BranchRecord) :
    (store.insertBranch id record).2.Integrity := by
  refine hstore.counted fun before result after hbefore hdone => ?_
  obtain ⟨hrequired, rfl⟩ := required_eq_ok hdone
  obtain ⟨holder, hholder, hid, hreferenced⟩ := hbefore.requireExpressions_ok.mp hrequired
  refine hbefore.changeTree id before.lastExpression (Int.le_refl _) (fun _ => rfl)
    (fun _ _ _ => rfl) ?_ ?_
  · intro tree hmem htree
    obtain rfl := hbefore.eq_of_id_eq hmem hholder (htree.trans hid.symm)
    exact (hbefore.closed tree hmem).addBranch hreferenced
  · intro tree _ _ expression hexpression
    exact Or.inl hexpression

theorem requireTree_ok (hstore : store.Integrity) {id : Int} :
    store.requireTree id = .ok () ↔ ∃ tree ∈ store.trees, tree.id = id := by
  unfold requireTree
  cases htree : store.tree? id with
  | none =>
      simp only [Option.isSome_none, Bool.false_eq_true, if_false, reduceCtorEq, false_iff]
      rintro ⟨tree, hmem, hid⟩
      exact absurd (hstore.tree?_eq_some_iff.mpr ⟨hmem, hid⟩) (by simp [htree])
  | some tree =>
      simp only [Option.isSome_some, if_true, true_iff]
      exact ⟨tree, hstore.tree?_eq_some_iff.mp htree⟩

/-- Bindings stay good when one more name is bound to a stored tree. -/
theorem bound_insert {bindings : Directory Int} {key : String} {id : Int}
    (hbound : ∀ other tree, bindings.get? other = some tree →
      ∃ stored ∈ store.trees, stored.id = tree)
    (hid : ∃ stored ∈ store.trees, stored.id = id) :
    ∀ other tree, (bindings.insert key id).get? other = some tree →
      ∃ stored ∈ store.trees, stored.id = tree := by
  intro other tree hget
  rw [Directory.get?_insert] at hget
  split at hget
  · rw [← Option.some.inj hget]
    exact hid
  · exact hbound other tree hget

theorem bindVariable (hstore : store.Integrity) (key : String) (id : Int) :
    (store.bindVariable key id).2.Integrity := by
  refine hstore.counted fun before result after hbefore hdone => ?_
  obtain ⟨hrequired, rfl⟩ := required_eq_ok hdone
  have hid := hbefore.requireTree_ok.mp hrequired
  exact { hbefore with variables_bound := bound_insert hbefore.variables_bound hid }

theorem bindConditional (hstore : store.Integrity) (key : String) (id : Int) :
    (store.bindConditional key id).2.Integrity := by
  refine hstore.counted fun before result after hbefore hdone => ?_
  obtain ⟨hrequired, rfl⟩ := required_eq_ok hdone
  have hid := hbefore.requireTree_ok.mp hrequired
  exact { hbefore with conditionals_bound := bound_insert hbefore.conditionals_bound hid }

theorem empty (budget : Option Nat) : (TreeStore.empty budget).Integrity where
  tree_ids := rfl
  last_tree := rfl
  filed_iff := by simp [TreeStore.empty]
  closed := by simp [TreeStore.empty]
  last_expression_nonneg := Int.le_refl _
  expression_ids_le := by simp [TreeStore.empty]
  expression_ids_apart := by simp [TreeStore.empty]
  variables_bound := by simp [TreeStore.empty]
  conditionals_bound := by simp [TreeStore.empty]

theorem afterWrite (hstore : store.Integrity) (write : Write) :
    (store.afterWrite write).Integrity := by
  cases write with
  | upsertTree record => exact hstore.upsertTree record
  | insertExpression tree expression => exact hstore.insertExpression tree expression
  | insertBranch tree record => exact hstore.insertBranch tree record
  | bindVariable key tree => exact hstore.bindVariable key tree
  | bindConditional key tree => exact hstore.bindConditional key tree

theorem afterWrites (hstore : store.Integrity) (writes : List Write) :
    (store.afterWrites writes).Integrity := by
  induction writes generalizing store with
  | nil => exact hstore
  | cons write rest ih => exact ih (hstore.afterWrite write)

end Integrity

/-- Whatever clients write, with or without a budget, the store keeps its integrity, and
keys and trees correspond one to one. -/
theorem integrity_afterWrites (budget : Option Nat) (writes : List Write) :
    ((empty budget).afterWrites writes).Integrity ∧
      ∀ left right id, ((empty budget).afterWrites writes).keys.get? left = some id →
        ((empty budget).afterWrites writes).keys.get? right = some id → left = right := by
  have hstore := (Integrity.empty budget).afterWrites writes
  exact ⟨hstore, fun left right id => hstore.keys_injective⟩

end TreeStore

end DecisionCanvas
