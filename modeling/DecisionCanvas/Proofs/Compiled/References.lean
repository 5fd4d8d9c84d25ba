import DecisionCanvas.Proofs.Compiled.Leaves

/-!
# Who refers to what

In a compiled tree every operand is referred to once, by the operator over it or by the
outcome it belongs to.  Operators are referred to only as conditions.  A condition may
have been replaced by that of an outer case, so not every operator is still referred to,
but none is twice.
-/

namespace DecisionCanvas

namespace CompiledTree

/-- The ids that are referred to for a value, by operators and by outcomes. -/
def references (tree : CompiledTree) : List Int :=
  tree.expressions.flatMap Expression.children ++
    tree.branches.flatMap fun record => record.outcome.expressions

/-- The ids that are referred to as conditions. -/
def guards (tree : CompiledTree) : List Int :=
  tree.branches.filterMap BranchRecord.condition

/-- The shape of what compiling leads to: expressions count down from minus one,
every operator comes right after its two operands, and every operand is used once. -/
structure Canonical (tree : CompiledTree) : Prop where
  ids : ∀ (place : Nat) (expression : Expression),
    tree.expressions[place]? = some expression → expression.id = -((place : Int) + 1)
  operators_over : ∀ expression ∈ tree.expressions, expression.isOperator = true →
    ∃ left ∈ tree.expressions, ∃ right ∈ tree.expressions,
      left.isOperator = false ∧ right.isOperator = false ∧
      left.id = expression.id + 2 ∧ right.id = expression.id + 1 ∧
      expression.left = some left.id ∧ expression.right = some right.id
  operands_once : ∀ expression ∈ tree.expressions, expression.isOperator = false →
    expression.children = [] ∧
      tree.references.count expression.id = 1 ∧ tree.guards.count expression.id = 0
  operators_guard : ∀ expression ∈ tree.expressions, expression.isOperator = true →
    tree.references.count expression.id = 0 ∧ tree.guards.count expression.id ≤ 1
  guards_operators : ∀ id ∈ tree.guards, ∃ operator ∈ tree.expressions,
    operator.isOperator = true ∧ operator.id = id
  order : ∀ (place : Nat) (record : BranchRecord),
    tree.branches[place]? = some record → record.orderIndex = place
  checked : tree.check = .ok ()

end CompiledTree

namespace Flattened

def operandIds (part : Flattened) : List Int :=
  (part.expressions.filter fun expression => !expression.isOperator).map Expression.id

def operatorIds (part : Flattened) : List Int :=
  (part.expressions.filter Expression.isOperator).map Expression.id

def references (part : Flattened) : List Int :=
  part.expressions.flatMap Expression.children ++
    part.leaves.flatMap fun leaf => leaf.outcome.expressions

def guards (part : Flattened) : List Int :=
  part.leaves.filterMap Leaf.condition

theorem references_toCompiled (whole : Flattened) :
    whole.toCompiled.references = whole.references := by
  have houtcomes := List.flatMap_map BranchRecord.leaf
    (fun leaf : Leaf => leaf.outcome.expressions) (records whole.leaves)
  rw [map_leaf_records] at houtcomes
  rw [references, houtcomes]
  rfl

theorem guards_toCompiled (whole : Flattened) : whole.toCompiled.guards = whole.guards := by
  have hconditions : ((records whole.leaves).map BranchRecord.leaf).filterMap Leaf.condition =
      (records whole.leaves).filterMap (Leaf.condition ∘ BranchRecord.leaf) :=
    List.filterMap_map
  rw [map_leaf_records] at hconditions
  rw [guards, hconditions]
  rfl

/-- A part in which every operand is referred to once, and conditions are operators in
their order. -/
structure Accounted (part : Flattened) : Prop where
  references_perm : part.references.Perm part.operandIds
  guards_sublist : part.guards.Sublist part.operatorIds

theorem outcomes_guardFirst (condition : Int) (leaves : List Leaf) :
    (guardFirst condition leaves).map Leaf.outcome = leaves.map Leaf.outcome := by
  cases leaves with
  | nil => rfl
  | cons first rest => rfl

/-- The condition that is put on the first leaf comes before all other conditions. -/
theorem guards_guardFirst (condition : Int) (leaves : List Leaf) :
    ((guardFirst condition leaves).filterMap Leaf.condition).Sublist
      (condition :: leaves.filterMap Leaf.condition) := by
  cases leaves with
  | nil => exact List.nil_sublist _
  | cons first rest =>
      have hrest : (rest.filterMap Leaf.condition).Sublist
          ((first :: rest).filterMap Leaf.condition) :=
        (List.sublist_cons_self first rest).filterMap Leaf.condition
      exact hrest.cons_cons condition

namespace Accounted

variable {first second inner : Flattened}

theorem empty : Flattened.empty.Accounted :=
  ⟨List.Perm.refl _, List.Sublist.refl _⟩

theorem append (hfirst : first.Accounted) (hsecond : second.Accounted) :
    (first.append second).Accounted where
  references_perm := by
    apply List.perm_iff_count.mpr
    intro id
    have hleft := hfirst.references_perm.count_eq id
    have hright := hsecond.references_perm.count_eq id
    simp only [references, operandIds, Flattened.append, List.flatMap_append,
      List.filter_append, List.map_append, List.count_append] at hleft hright ⊢
    omega
  guards_sublist := by
    simp only [guards, operatorIds, Flattened.append, List.filterMap_append,
      List.filter_append, List.map_append]
    exact hfirst.guards_sublist.append hsecond.guards_sublist

theorem ofCase {position : Nat} {condition : Condition} {guard : List Expression}
    (hguard : condition.lower position = .ok guard) (hinner : inner.Accounted) :
    (Flattened.ofCase guard position inner).Accounted := by
  obtain ⟨left, right, hleft, hright, rfl⟩ := Condition.lower_eq_ok hguard
  obtain ⟨-, hleftOperand, hleftChildless⟩ := Value.lower_eq_ok hleft
  obtain ⟨-, hrightOperand, hrightChildless⟩ := Value.lower_eq_ok hright
  let operator := condition.operatorExpression position left right
  have hoperator : operator.isOperator = true := rfl
  have hchildren : operator.children = [left.id, right.id] := rfl
  constructor
  · have houtcomes : (guardFirst (scratchId (position + 2)) inner.leaves).flatMap
        (fun leaf => leaf.outcome.expressions) =
          inner.leaves.flatMap fun leaf => leaf.outcome.expressions := by
      have hmap := List.flatMap_map Leaf.outcome BranchOutcome.expressions
      rw [← hmap, ← hmap, outcomes_guardFirst]
    have hreferences : (Flattened.ofCase [left, right, operator] position inner).references =
        left.id :: right.id :: inner.references := by
      simp only [references, Flattened.ofCase, houtcomes, List.flatMap_cons,
        hleftChildless, hrightChildless, hchildren,
        List.nil_append, List.cons_append]
    have hoperands : (Flattened.ofCase [left, right, operator] position inner).operandIds =
        left.id :: right.id :: inner.operandIds := by
      simp [operandIds, Flattened.ofCase, hleftOperand, hrightOperand, hoperator]
    rw [hreferences, hoperands]
    exact (hinner.references_perm.cons right.id).cons left.id
  · have hoperators : (Flattened.ofCase [left, right, operator] position inner).operatorIds =
        operator.id :: inner.operatorIds := by
      simp [operatorIds, Flattened.ofCase, hleftOperand, hrightOperand, hoperator]
    rw [hoperators]
    exact (guards_guardFirst operator.id inner.leaves).trans
      (hinner.guards_sublist.cons_cons operator.id)

end Accounted

end Flattened

namespace Tree

variable {Outcome : Type} {lower : LowerOutcome Outcome}

theorem flattenInvariant_accounted (hlower : lower.Listed) :
    FlattenInvariant lower (fun _ _ part => part.Accounted) (fun _ _ part => part.Accounted) where
  returns := by
    intro position outcome expressions result houtcome
    have hoperands := hlower.operands houtcome
    have hchildless : expressions.flatMap Expression.children = [] :=
      List.flatMap_eq_nil_iff.mpr fun expression hexpression =>
        (hoperands expression hexpression).2
    have hfilter : (expressions.filter fun expression => !expression.isOperator) =
        expressions := by
      apply List.filter_eq_self.mpr
      intro expression hexpression
      rw [(hoperands expression hexpression).1, Bool.not_false]
    constructor
    · simp only [Flattened.references, Flattened.operandIds, hchildless, hfilter,
        hlower.referenced houtcome, List.flatMap_cons, List.flatMap_nil, List.nil_append,
        List.append_nil]
      exact List.Perm.refl _
    · exact List.nil_sublist _
  decides := fun hfront hback => hfront.append hback
  nil := .empty
  cons := fun hguard hinner hothers => (Flattened.Accounted.ofCase hguard hinner).append hothers

/-- In whatever compiles, operands are used once and operators guard at most once. -/
theorem flatten_accounted (hlower : lower.Listed) {position : Nat} {tree : Tree Outcome}
    {part : Flattened} (hflatten : flatten lower position tree = .ok part) : part.Accounted :=
  (flattenInvariant_accounted hlower).of_flatten hflatten

end Tree

namespace Arranged

variable {position place : Nat} {expressions : List Expression} {expression : Expression}

/-- The expression at a place has the id of the place. -/
theorem id_eq (harranged : Arranged position expressions)
    (hplace : expressions[place]? = some expression) :
    expression.id = scratchId (position + place) := by
  have hid := congrArg (fun ids => ids[place]?) harranged.ids
  obtain ⟨hlt, -⟩ := List.getElem?_eq_some_iff.mp hplace
  simp only [List.getElem?_map, hplace, Option.map_some, List.getElem?_range' hlt,
    Option.some.injEq] at hid
  rw [hid, Nat.one_mul]

/-- An operator comes right after the operands it is over. -/
theorem operator_over (harranged : Arranged position expressions)
    (hexpression : expression ∈ expressions) (hoperator : expression.isOperator = true) :
    ∃ left ∈ expressions, ∃ right ∈ expressions,
      left.isOperator = false ∧ right.isOperator = false ∧
      left.id = expression.id + 2 ∧ right.id = expression.id + 1 ∧
      expression.left = some left.id ∧ expression.right = some right.id := by
  obtain ⟨left, right, hadjacent, hleftKind, hrightKind, hleft, hright⟩ :=
    harranged.operators_adjacent expression hexpression hoperator
  obtain ⟨before, after, hsplit⟩ := hadjacent
  have hplaces : ∀ place < 3, expressions[before.length + place]? =
      [left, right, expression][place]? := by
    intro place hplace
    rw [← hsplit, List.append_assoc, List.getElem?_append_right (Nat.le_add_right _ _),
      Nat.add_sub_cancel_left, List.getElem?_append_left hplace]
  have hfirst := hplaces 0 (by omega)
  have hsecond := hplaces 1 (by omega)
  have hleftId := harranged.id_eq hfirst
  have hrightId := harranged.id_eq hsecond
  have hid := harranged.id_eq (hplaces 2 (by omega))
  simp only [scratchId] at hleftId hrightId hid
  refine ⟨left, List.mem_of_getElem? hfirst, right, List.mem_of_getElem? hsecond, hleftKind,
    hrightKind, ?_, ?_, hleft, hright⟩
  · omega
  · omega

/-- Operands and operators have no id in common. -/
theorem kinds_disjoint {part : Flattened} (harranged : Arranged position part.expressions) :
    part.operandIds.Disjoint part.operatorIds := by
  intro id hoperand hoperator
  obtain ⟨operand, hmem, rfl⟩ := List.mem_map.mp hoperand
  obtain ⟨operator, hother, hid⟩ := List.mem_map.mp hoperator
  rw [List.mem_filter] at hmem hother
  have hsame := List.inj_on_of_nodup_map harranged.ids_nodup hother.1 hmem.1 hid
  rw [hsame] at hother
  simp [hother.2] at hmem

end Arranged

theorem Flattened.orderIndex_records {leaves : List Leaf} {place : Nat} {record : BranchRecord}
    (hplace : (records leaves)[place]? = some record) : record.orderIndex = place := by
  rw [records, List.getElem?_map, List.getElem?_zipIdx] at hplace
  obtain ⟨numbered, hnumbered, rfl⟩ := Option.map_eq_some_iff.mp hplace
  obtain ⟨leaf, -, rfl⟩ := Option.map_eq_some_iff.mp hnumbered
  exact Nat.zero_add place

namespace Flattened

section Counts

variable {position : Nat} {whole : Flattened} {expression : Expression}

/-- Operands are referred to once and guard nothing. -/
theorem Accounted.count_operand (haccounted : whole.Accounted)
    (harranged : Arranged position whole.expressions) (hexpression : expression ∈ whole.expressions)
    (hoperand : expression.isOperator = false) :
    whole.references.count expression.id = 1 ∧ whole.guards.count expression.id = 0 := by
  have hmem : expression.id ∈ whole.operandIds :=
    List.mem_map_of_mem (List.mem_filter.mpr ⟨hexpression, by rw [hoperand]; rfl⟩)
  have hdistinct : whole.operandIds.Nodup :=
    harranged.ids_nodup.sublist (List.filter_sublist.map Expression.id)
  have hnotin : expression.id ∉ whole.operatorIds := harranged.kinds_disjoint hmem
  constructor
  · rw [haccounted.references_perm.count_eq]
    exact List.count_eq_one_of_mem hdistinct hmem
  · have hle := haccounted.guards_sublist.count_le expression.id
    rw [List.count_eq_zero_of_not_mem hnotin] at hle
    exact Nat.le_zero.mp hle

/-- Operators are referred to by nothing and guard at most once. -/
theorem Accounted.count_operator (haccounted : whole.Accounted)
    (harranged : Arranged position whole.expressions) (hexpression : expression ∈ whole.expressions)
    (hoperator : expression.isOperator = true) :
    whole.references.count expression.id = 0 ∧ whole.guards.count expression.id ≤ 1 := by
  have hmem : expression.id ∈ whole.operatorIds :=
    List.mem_map_of_mem (List.mem_filter.mpr ⟨hexpression, hoperator⟩)
  have hdistinct : whole.operatorIds.Nodup :=
    harranged.ids_nodup.sublist (List.filter_sublist.map Expression.id)
  have hnotin : expression.id ∉ whole.operandIds :=
    fun hoperand => harranged.kinds_disjoint hoperand hmem
  constructor
  · rw [haccounted.references_perm.count_eq]
    exact List.count_eq_zero_of_not_mem hnotin
  · rw [← List.count_eq_one_of_mem hdistinct hmem]
    exact haccounted.guards_sublist.count_le expression.id

end Counts

/-- A shaped whole in which all references are accounted for is canonical. -/
theorem Shaped.canonical {whole : Flattened} (hshaped : whole.Shaped 0)
    (haccounted : whole.Accounted) : whole.toCompiled.Canonical where
  ids place expression hplace := by
    have hid := hshaped.arranged.id_eq hplace
    rw [Nat.zero_add] at hid
    exact hid
  operators_over expression hexpression hoperator :=
    hshaped.arranged.operator_over hexpression hoperator
  operands_once expression hexpression hoperand := by
    rw [references_toCompiled, guards_toCompiled]
    exact ⟨hshaped.arranged.operands_childless expression hexpression hoperand,
      haccounted.count_operand hshaped.arranged hexpression hoperand⟩
  operators_guard expression hexpression hoperator := by
    rw [references_toCompiled, guards_toCompiled]
    exact haccounted.count_operator hshaped.arranged hexpression hoperator
  guards_operators id hid := by
    rw [guards_toCompiled] at hid
    obtain ⟨operator, hmem, rfl⟩ := List.mem_map.mp (haccounted.guards_sublist.subset hid)
    obtain ⟨hexpression, hoperator⟩ := List.mem_filter.mp hmem
    exact ⟨operator, hexpression, hoperator, rfl⟩
  order place record hplace := orderIndex_records hplace
  checked := CompiledTree.check_eq_ok_iff.mpr hshaped.layered.toSelfContained

end Flattened

end DecisionCanvas
