import DecisionCanvas.Proofs.Store.Attempts
import DecisionCanvas.Proofs.Store.RoundTrip

/-!
# Interrupted saves

A save is a sequence of writes that is known in advance.  Where the budget ends within
it, the writes that fit have taken effect and no other, and every part of the tree that
has been written refers to parts that were written before.  So a tree that was cut off
anywhere after its record still loads, with the branches that arrived.
-/

namespace DecisionCanvas

theorem exists_eq_append_cons {Item : Type} {items : List Item} {place : Nat}
    (hplace : place < items.length) :
    ∃ before item after, items = before ++ item :: after ∧ before.length = place := by
  refine ⟨items.take place, items[place], items.drop (place + 1), ?_, ?_⟩
  · rw [List.getElem_cons_drop, List.take_append_drop]
  · rw [List.length_take]
    omega

namespace TreeStore

/-! ## The writes of a save -/

/-- The write of an expression whose children have durable ids. -/
def expressionWrite (tree : Int) (durable : Int → Int) (expression : Expression) : Write :=
  .insertExpression tree (expression.renameChildren durable)

def branchWrite (tree : Int) (durable : Int → Int) (record : BranchRecord) : Write :=
  .insertBranch tree (record.relocate durable)

/-- The writes of a save: the record of the tree, the operands, the operators over the ids
of the operands, and the branches.  Expressions get their own ids from the store. -/
def saveWrites (store : TreeStore) (record : TreeRecord) (compiled : CompiledTree) :
    List Write :=
  let tree := store.treeFor record.key
  let durable := compiled.durable store.lastExpression
  .upsertTree record ::
    (compiled.storedOrder.map (expressionWrite tree durable) ++
      compiled.branches.map (branchWrite tree durable))

section Rounds

variable {tree : Int} {durable : Int → Int} {store next : TreeStore}

/-- A round of expressions attempts their writes one after another. -/
theorem attempts_insertExpressions
    {rename : IdMap → Expression → Except SaveError Expression} {order : List Expression}
    {ids known : IdMap}
    (hrename : ∀ more, ∀ expression ∈ order,
      rename (ids ++ more) expression = .ok (expression.renameChildren durable))
    (hdone : insertExpressions tree rename order ids store = (.ok known, next))
    (script : IdMap → Script) :
    ((Script.insertExpressions tree rename order ids script).attempts store).map Prod.snd =
      order.map (expressionWrite tree durable) ++
        ((script known).attempts next).map Prod.snd := by
  induction order generalizing ids store with
  | nil =>
      rw [insertExpressions, Prod.mk.injEq, Except.ok.injEq] at hdone
      rw [Script.insertExpressions, hdone.1, hdone.2]
      rfl
  | cons expression rest ih =>
      have hrenamed := hrename [] expression List.mem_cons_self
      rw [List.append_nil] at hrenamed
      rcases hwritten : store.insertExpression tree (expression.renameChildren durable)
        with ⟨answer, after⟩
      cases answer with
      | error error => simp [insertExpressions, hrenamed, hwritten] at hdone
      | ok id =>
          simp only [insertExpressions, hrenamed, hwritten] at hdone
          have hrest := ih (fun more other hother => by
            rw [List.append_assoc]
            exact hrename _ other (List.mem_cons_of_mem _ hother)) hdone
          simp only [Script.insertExpressions, hrenamed, Script.attempts, hwritten,
            List.map_cons, hrest]
          rfl

theorem attempts_insertBranches {ids : IdMap} {branches : List BranchRecord}
    (hknown : ∀ record ∈ branches, ∀ id ∈ record.referenced,
      ids.durable? id = some (durable id))
    (hdone : insertBranches tree ids branches store = (.ok (), next)) (script : Script) :
    ((Script.insertBranches tree ids branches script).attempts store).map Prod.snd =
      branches.map (branchWrite tree durable) ++ (script.attempts next).map Prod.snd := by
  induction branches generalizing store with
  | nil =>
      rw [insertBranches, Prod.mk.injEq] at hdone
      rw [Script.insertBranches, hdone.2]
      rfl
  | cons record rest ih =>
      have hrenamed := IdMap.renameBranch_eq (hknown record List.mem_cons_self)
      rcases hwritten : store.insertBranch tree (record.relocate durable) with ⟨answer, after⟩
      cases answer with
      | error error => simp [insertBranches, hrenamed, hwritten] at hdone
      | ok _ =>
          simp only [insertBranches, hrenamed, hwritten] at hdone
          have hrest := ih (fun other hother => hknown other (List.mem_cons_of_mem _ hother))
            hdone
          simp only [Script.insertBranches, hrenamed, Script.attempts, hwritten, List.map_cons,
            hrest]
          rfl

/-- Expressions that were all written were written one after another. -/
theorem insertExpressions_writes
    {rename : IdMap → Expression → Except SaveError Expression} {order : List Expression}
    {ids known : IdMap}
    (hrename : ∀ more, ∀ expression ∈ order,
      rename (ids ++ more) expression = .ok (expression.renameChildren durable))
    (hdone : insertExpressions tree rename order ids store = (.ok known, next)) :
    store.afterWrites (order.map (expressionWrite tree durable)) = next := by
  let ending : IdMap → Script := fun ids => .done (.ok ⟨tree, ids⟩)
  have hattempts := attempts_insertExpressions hrename hdone ending
  have hrun := Script.run_insertExpressions tree rename order ids ending store
  rw [Script.attempts, List.map_nil, List.append_nil] at hattempts
  rw [hdone] at hrun
  rw [← hattempts, Script.afterWrites_attempts, hrun]
  rfl

theorem insertBranches_writes {ids : IdMap} {branches : List BranchRecord}
    (hknown : ∀ record ∈ branches, ∀ id ∈ record.referenced,
      ids.durable? id = some (durable id))
    (hdone : insertBranches tree ids branches store = (.ok (), next)) :
    store.afterWrites (branches.map (branchWrite tree durable)) = next := by
  let ending : Script := .done (.ok ⟨tree, ids⟩)
  have hattempts := attempts_insertBranches hknown hdone ending
  have hrun := Script.run_insertBranches tree ids branches ending store
  rw [Script.attempts, List.map_nil, List.append_nil] at hattempts
  rw [hdone] at hrun
  rw [← hattempts, Script.afterWrites_attempts, hrun]
  rfl

end Rounds

/-! ## Where the budget ends -/

section Fill

variable {store : TreeStore} {tree : Int} {held : StoredTree} {room : Nat}

theorem Allows.grow {expressions : List Expression} {branches : List BranchRecord}
    (hallows : store.Allows (expressions.length + branches.length + room)) :
    (store.grow tree expressions branches).Allows room := by
  rw [Allows, budget_grow, hallows]
  change some (store.writes + (expressions.length + branches.length + room)) =
    some (store.writes + expressions.length + branches.length + room)
  congr 1
  omega

/-- The budget ends within a round of expressions. -/
theorem insertExpressions_cut {rename : IdMap → Expression → Except SaveError Expression}
    {durable : Int → Int} {order : List Expression} {ids : IdMap}
    (hheld : store.tree? tree = some held) (hallows : store.Allows room)
    (hshort : room < order.length)
    (horder : Writable durable (held.expressions.map Expression.id) store.lastExpression order)
    (hrename : ∀ more, ∀ expression ∈ order,
      rename (ids ++ more) expression = .ok (expression.renameChildren durable)) :
    insertExpressions tree rename order ids store =
      (.error (.store (.rejected (.budgetSpent (store.writes + room)))),
        store.grow tree ((order.map (Expression.relocate durable)).take room) []) := by
  obtain ⟨done, expression, left, rfl, rfl⟩ := exists_eq_append_cons hshort
  have hspent : (store.grow tree (done.map (Expression.relocate durable)) []).isSpent = true := by
    apply Allows.spent
    apply Allows.grow
    simpa using hallows
  have hrenamed := hrename (IdMap.assign store.lastExpression done) expression
    (List.mem_append_right _ List.mem_cons_self)
  rw [insertExpressions_append (expression :: left) hheld (hallows.hasRoom (Nat.le_refl _))
    horder.left fun more other hother => hrename more other (List.mem_append_left _ hother)]
  rw [insertExpressions, hrenamed]
  simp only [insertExpression, counted_spent hspent, writes_grow, List.length_map,
    List.length_nil, Nat.add_zero]
  rw [List.map_append, List.take_left' (List.length_map _)]

/-- The budget ends within the branches. -/
theorem insertBranches_cut (durable : Int → Int) (ids : IdMap) {branches : List BranchRecord}
    (hheld : store.tree? tree = some held) (hallows : store.Allows room)
    (hshort : room < branches.length)
    (hknown : ∀ record ∈ branches, ∀ id ∈ record.referenced,
      ids.durable? id = some (durable id))
    (hreferenced : ∀ record ∈ branches, ∀ id ∈ record.referenced,
      durable id ∈ held.expressions.map Expression.id) :
    insertBranches tree ids branches store =
      (.error (.store (.rejected (.budgetSpent (store.writes + room)))),
        store.grow tree [] ((branches.map (BranchRecord.relocate durable)).take room)) := by
  obtain ⟨done, record, left, rfl, rfl⟩ := exists_eq_append_cons hshort
  have hspent : (store.grow tree [] (done.map (BranchRecord.relocate durable))).isSpent = true := by
    apply Allows.spent
    apply Allows.grow
    simpa using hallows
  have hrenamed := IdMap.renameBranch_eq
    (hknown record (List.mem_append_right _ List.mem_cons_self))
  rw [insertBranches_append durable ids (record :: left) hheld
    (hallows.hasRoom (Nat.le_refl _))
    (fun other hother => hknown other (List.mem_append_left _ hother))
    fun other hother => hreferenced other (List.mem_append_left _ hother)]
  rw [insertBranches, hrenamed]
  simp only [insertBranch, counted_spent hspent, writes_grow, List.length_map,
    List.length_nil, Nat.add_zero]
  rw [List.map_append, List.take_left' (List.length_map _)]

/-- Writable expressions are written by their writes. -/
theorem afterWrites_expressions {durable : Int → Int} {order : List Expression}
    (hheld : store.tree? tree = some held) (hroom : store.HasRoom order.length)
    (horder : Writable durable (held.expressions.map Expression.id) store.lastExpression order) :
    store.afterWrites (order.map (expressionWrite tree durable)) =
      store.grow tree (order.map (Expression.relocate durable)) [] := by
  have hwritten : insertExpressions tree
      (fun _ expression => .ok (expression.renameChildren durable)) order [] store =
        (.ok ([] ++ IdMap.assign store.lastExpression order),
          store.grow tree (order.map (Expression.relocate durable)) []) :=
    insertExpressions_eq hheld hroom horder fun _ _ _ => rfl
  exact insertExpressions_writes (fun _ _ _ => rfl) hwritten

section Rounds

variable {compiled : CompiledTree} (hcompiled : compiled.Layered)
variable (hheld : store.tree? tree = some held)
include hcompiled hheld

/-- The budget ends within the operands. -/
theorem insertOperands_cut (hallows : store.Allows room)
    (hshort : room < compiled.operands.length) :
    insertExpressions tree (fun _ => .ok) compiled.operands [] store =
      (.error (.store (.rejected (.budgetSpent (store.writes + room)))),
        store.grow tree ((compiled.stored store.lastExpression).expressions.take room) []) := by
  have horder := (hcompiled.writable (held.expressions.map Expression.id)
    store.lastExpression).left
  rw [insertExpressions_cut hheld hallows hshort horder]
  · rw [CompiledTree.stored, CompiledTree.storedOrder, List.map_append,
      List.take_append_of_le_length (by rw [List.length_map]; omega)]
  · intro more operand hoperand
    rw [hcompiled.operand_unchanged _ hoperand]

/-- The budget ends within the operators. -/
theorem insertOperators_cut (hallows : store.Allows (compiled.operands.length + room))
    (hshort : room < compiled.operators.length) :
    let operands :=
      compiled.operands.map (Expression.relocate (compiled.durable store.lastExpression))
    insertExpressions tree IdMap.renameExpression compiled.operators
        (IdMap.assign store.lastExpression compiled.operands) (store.grow tree operands []) =
      (.error (.store (.rejected (.budgetSpent
        (store.writes + (compiled.operands.length + room))))),
        store.grow tree ((compiled.stored store.lastExpression).expressions.take
          (compiled.operands.length + room)) []) := by
  intro operands
  have hlength : operands.length = compiled.operands.length := List.length_map _
  have horder : Writable (compiled.durable store.lastExpression)
      ((held.append operands []).expressions.map Expression.id)
      (store.grow tree operands []).lastExpression compiled.operators :=
    writable_grow (hcompiled.writable _ _)
  have hleft : (store.grow tree operands []).Allows room := by
    apply Allows.grow
    simpa [hlength] using hallows
  have htake : (compiled.stored store.lastExpression).expressions.take
      (compiled.operands.length + room) = operands ++
        (compiled.operators.map
          (Expression.relocate (compiled.durable store.lastExpression))).take room := by
    rw [CompiledTree.stored, CompiledTree.storedOrder, List.map_append, ← hlength]
    exact List.take_length_add_append room
  rw [insertExpressions_cut (store.tree?_grow_self tree operands [] hheld) hleft hshort horder]
  · rw [grow_grow, htake, writes_grow, hlength]
    simp [Nat.add_assoc]
  · intro more operator hoperator
    exact hcompiled.renameExpression_eq
      (fun operand => hcompiled.durable?_operand store.lastExpression more) hoperator

/-- The budget ends within the branches. -/
theorem insertBranches_stored_cut
    (hallows : store.Allows (compiled.expressions.length + room))
    (hshort : room < compiled.branches.length) :
    insertBranches tree (compiled.durableIds store.lastExpression) compiled.branches
        (store.grow tree (compiled.stored store.lastExpression).expressions []) =
      (.error (.store (.rejected (.budgetSpent
        (store.writes + (compiled.expressions.length + room))))),
        store.grow tree (compiled.stored store.lastExpression).expressions
          ((compiled.stored store.lastExpression).branches.take room)) := by
  have hleft : (store.grow tree (compiled.stored store.lastExpression).expressions []).Allows
      room := by
    apply Allows.grow
    simpa using hallows
  rw [insertBranches_cut (compiled.durable store.lastExpression) _
    (store.tree?_grow_self tree _ [] hheld) hleft hshort]
  · rw [grow_grow, writes_grow]
    simp [CompiledTree.stored, CompiledTree.length_storedOrder, Nat.add_assoc]
  · intro record hrecord id hid
    exact hcompiled.durableIds_durable? store.lastExpression
      (hcompiled.branches_defined record hrecord id hid)
  · intro record hrecord id hid
    exact durable_mem_append store.lastExpression
      (hcompiled.branches_defined record hrecord id hid)

/-- The budget ends within a fill: what fits of the expressions arrives and, if all of
them do, what fits of the branches. -/
theorem fill_cut (hallows : store.Allows room)
    (hshort : room < compiled.expressions.length + compiled.branches.length) :
    store.fill tree compiled =
      (.error (.store (.rejected (.budgetSpent (store.writes + room)))),
        store.grow tree ((compiled.stored store.lastExpression).expressions.take room)
          ((compiled.stored store.lastExpression).branches.take
            (room - compiled.expressions.length))) := by
  have hlength := compiled.length_storedOrder
  rw [CompiledTree.storedOrder, List.length_append] at hlength
  by_cases hoperands : room < compiled.operands.length
  · have hnone : room - compiled.expressions.length = 0 := by omega
    simp only [fill, insertOperands_cut hcompiled hheld hallows hoperands]
    rw [hnone, List.take_zero]
  · have hfirst := insertOperands_eq hcompiled hheld (hallows.hasRoom (by omega))
    by_cases hoperators : room < compiled.expressions.length
    · obtain ⟨left, rfl⟩ := Nat.exists_eq_add_of_le (Nat.not_lt.mp hoperands)
      have hnone : compiled.operands.length + left - compiled.expressions.length = 0 := by omega
      simp only [fill, hfirst, insertOperators_cut hcompiled hheld hallows (by omega)]
      rw [hnone, List.take_zero]
    · obtain ⟨left, rfl⟩ := Nat.exists_eq_add_of_le (Nat.not_lt.mp hoperators)
      have hsecond := insertOperators_eq hcompiled hheld (hallows.hasRoom (by omega))
      have hall : (compiled.stored store.lastExpression).expressions.length ≤
          compiled.expressions.length + left := by
        rw [CompiledTree.length_stored_expressions]
        omega
      simp only [fill, hfirst, hsecond,
        insertBranches_stored_cut hcompiled hheld hallows (by omega)]
      rw [List.take_of_length_le hall, Nat.add_sub_cancel_left]

/-- A fill gets as far as the budget does. -/
theorem fill_upTo (hallows : store.Allows room) :
    ∃ answer,
      store.fill tree compiled = (answer,
        store.grow tree ((compiled.stored store.lastExpression).expressions.take room)
          ((compiled.stored store.lastExpression).branches.take
            (room - compiled.expressions.length))) ∧
      ((∃ result, answer = .ok result) ↔
        compiled.expressions.length + compiled.branches.length ≤ room) ∧
      (room < compiled.expressions.length + compiled.branches.length →
        answer = .error (.store (.rejected (.budgetSpent (store.writes + room))))) := by
  by_cases hshort : room < compiled.expressions.length + compiled.branches.length
  · refine ⟨_, fill_cut hcompiled hheld hallows hshort, ?_, fun _ => rfl⟩
    constructor
    · rintro ⟨result, hresult⟩
      simp at hresult
    · intro hroom
      omega
  · have hexpressions : (compiled.stored store.lastExpression).expressions.length ≤ room := by
      rw [CompiledTree.length_stored_expressions]
      omega
    have hbranches : (compiled.stored store.lastExpression).branches.length ≤
        room - compiled.expressions.length := by
      rw [CompiledTree.length_stored_branches]
      omega
    rw [List.take_of_length_le hexpressions, List.take_of_length_le hbranches]
    refine ⟨_, fill_eq hcompiled hheld (hallows.hasRoom (by omega)), ?_, fun hroom => ?_⟩
    · exact ⟨fun _ => by omega, fun _ => ⟨_, rfl⟩⟩
    · exact absurd hroom hshort

/-- Once all expressions are written, branches are written by their writes. -/
theorem afterWrites_branches
    (hroom : (store.grow tree (compiled.stored store.lastExpression).expressions []).HasRoom
      room) :
    (store.grow tree (compiled.stored store.lastExpression).expressions []).afterWrites
        ((compiled.branches.map
          (branchWrite tree (compiled.durable store.lastExpression))).take room) =
      store.grow tree (compiled.stored store.lastExpression).expressions
        ((compiled.stored store.lastExpression).branches.take room) := by
  have hdefined : ∀ record ∈ compiled.branches.take room, ∀ id ∈ record.referenced,
      id ∈ compiled.definedIds :=
    fun record hrecord => hcompiled.branches_defined record (List.mem_of_mem_take hrecord)
  have hknown : ∀ record ∈ compiled.branches.take room, ∀ id ∈ record.referenced,
      (compiled.durableIds store.lastExpression).durable? id =
        some (compiled.durable store.lastExpression id) :=
    fun record hrecord id hid =>
      hcompiled.durableIds_durable? store.lastExpression (hdefined record hrecord id hid)
  have hfits : (compiled.branches.take room).length ≤ room := List.length_take_le _ _
  have hwritten := insertBranches_eq (compiled.durable store.lastExpression) _
    (store.tree?_grow_self tree _ [] hheld) (hroom.mono hfits) hknown fun record hrecord id hid =>
      durable_mem_append store.lastExpression (hdefined record hrecord id hid)
  rw [← List.map_take, insertBranches_writes hknown hwritten, grow_grow, List.append_nil,
    List.map_take]
  rfl

/-- The writes that fit leave the same behind. -/
theorem afterWrites_fill (hallows : store.Allows room) :
    store.afterWrites
        ((compiled.storedOrder.map (expressionWrite tree (compiled.durable store.lastExpression)) ++
          compiled.branches.map
            (branchWrite tree (compiled.durable store.lastExpression))).take room) =
      store.grow tree ((compiled.stored store.lastExpression).expressions.take room)
        ((compiled.stored store.lastExpression).branches.take
          (room - compiled.expressions.length)) := by
  have horder : Writable (compiled.durable store.lastExpression)
      (held.expressions.map Expression.id) store.lastExpression
      (compiled.storedOrder.take room ++ compiled.storedOrder.drop room) := by
    rw [List.take_append_drop]
    exact hcompiled.writable _ _
  have hexpressions : store.afterWrites ((compiled.storedOrder.map
      (expressionWrite tree (compiled.durable store.lastExpression))).take room) =
        store.grow tree ((compiled.stored store.lastExpression).expressions.take room) [] := by
    rw [CompiledTree.stored, ← List.map_take, ← List.map_take]
    exact afterWrites_expressions hheld (hallows.hasRoom (List.length_take_le _ _)) horder.left
  rw [List.take_append, List.length_map, compiled.length_storedOrder, afterWrites_append,
    hexpressions]
  by_cases hroom : room ≤ compiled.expressions.length
  · rw [Nat.sub_eq_zero_of_le hroom, List.take_zero, List.take_zero]
    rfl
  · obtain ⟨left, rfl⟩ := Nat.exists_eq_add_of_le (Nat.le_of_not_le hroom)
    have hlength := compiled.length_stored_expressions store.lastExpression
    have hall : (compiled.stored store.lastExpression).expressions.length ≤
        compiled.expressions.length + left := by omega
    have hleft : (store.grow tree (compiled.stored store.lastExpression).expressions []).Allows
        left := by
      apply Allows.grow
      simpa using hallows
    rw [Nat.add_sub_cancel_left, List.take_of_length_le hall]
    exact afterWrites_branches hcompiled hheld (hleft.hasRoom (Nat.le_refl _))

end Rounds

end Fill

/-! ## Saves within a budget -/

/-- What a save comes to in a store that allows so many more writes. -/
structure SavedUpTo (store : TreeStore) (record : TreeRecord) (compiled : CompiledTree)
    (room : Nat) (saved : Outcome SaveError SavedTree) : Prop where
  succeeds_iff : (∃ result, saved.1 = .ok result) ↔
    1 + compiled.expressions.length + compiled.branches.length ≤ room
  refused : room < 1 + compiled.expressions.length + compiled.branches.length →
    saved.1 = .error (.store (.rejected (.budgetSpent (store.writes + room))))
  written : saved.2 = store.afterWrites ((store.saveWrites record compiled).take room)
  counted : saved.2.writes =
    store.writes + min room (1 + compiled.expressions.length + compiled.branches.length)
  untouched : room = 0 → saved.2 = store
  fetched : 0 < room → saved.2.fetch record.key = .ok
    ⟨store.treeFor record.key, record,
      (compiled.stored store.lastExpression).expressions.take (room - 1),
      (compiled.stored store.lastExpression).branches.take
        (room - 1 - compiled.expressions.length)⟩
  other_keys : ∀ key, key ≠ record.key → saved.2.fetch key = store.fetch key
  variableBindings : saved.2.variableBindings = store.variableBindings
  conditionalBindings : saved.2.conditionalBindings = store.conditionalBindings

theorem Opened.allows {store opened : TreeStore} {record : TreeRecord} {id : Int} {room : Nat}
    (hopened : store.Opened record id opened) (hallows : store.Allows (room + 1)) :
    opened.Allows room := by
  rw [Allows, hopened.budget, hopened.writes, hallows]
  congr 1
  omega

section Persist

variable {store : TreeStore} {room : Nat} {compiled : CompiledTree}

/-- Without any room nothing happens. -/
theorem persist_savedUpTo_zero (hcompiled : compiled.Layered) (hallows : store.Allows 0)
    (record : TreeRecord) :
    SavedUpTo store record compiled 0 (store.persist record compiled) := by
  have hcheck := CompiledTree.check_eq_ok_iff.mpr hcompiled.toSelfContained
  have hpersist : store.persist record compiled =
      (.error (.store (.rejected (.budgetSpent store.writes))), store) := by
    simp only [persist, hcheck, upsertTree, counted_spent hallows.spent]
  rw [hpersist]
  refine ⟨?_, fun _ => rfl, rfl, ?_, fun _ => rfl, ?_, fun _ _ => rfl, rfl, rfl⟩
  · constructor
    · rintro ⟨result, hresult⟩
      simp at hresult
    · intro hroom
      omega
  · rw [Nat.zero_min, Nat.add_zero]
  · intro hroom
    omega

/-- The tree is opened, and of its content arrives what fits. -/
theorem persist_savedUpTo_succ (hstore : store.Integrity) (hcompiled : compiled.Layered)
    (hallows : store.Allows (room + 1)) (record : TreeRecord) :
    SavedUpTo store record compiled (room + 1) (store.persist record compiled) := by
  have hcheck := CompiledTree.check_eq_ok_iff.mpr hcompiled.toSelfContained
  obtain ⟨opened, hopened, hspec⟩ := upsertTree_eq hstore (hallows.hasRoom (by omega)) record
  have hroom := hspec.allows hallows
  obtain ⟨answer, hfill, hsucceeds, hrefused⟩ := fill_upTo hcompiled hspec.tree?_self hroom
  have hpersist : store.persist record compiled =
      opened.fill (store.treeFor record.key) compiled := by
    simp only [persist, hcheck, hopened]
  have hwrites := afterWrites_fill hcompiled hspec.tree?_self hroom
  have hfirst : store.afterWrite (.upsertTree record) = opened := congrArg Prod.snd hopened
  rw [hspec.lastExpression] at hfill hwrites
  rw [hspec.writes] at hrefused
  rw [hpersist, hfill]
  refine ⟨?_, ?_, ?_, ?_, ?_, ?_, ?_, hspec.variableBindings, hspec.conditionalBindings⟩
  · rw [hsucceeds]
    omega
  · intro hshort
    rw [hrefused (by omega), Nat.add_assoc, Nat.add_comm 1]
  · rw [saveWrites, List.take_succ_cons, afterWrites, List.foldl_cons, hfirst]
    exact hwrites.symm
  · rw [writes_grow, hspec.writes, List.length_take, List.length_take,
      CompiledTree.length_stored_expressions, CompiledTree.length_stored_branches]
    omega
  · intro hzero
    omega
  · intro _
    exact hspec.fetch_grow _ _
  · intro key hkey
    exact hspec.fetch_grow_other hstore _ _ hkey

theorem persist_savedUpTo (hstore : store.Integrity) (hcompiled : compiled.Layered)
    (hallows : store.Allows room) (record : TreeRecord) :
    SavedUpTo store record compiled room (store.persist record compiled) := by
  cases room with
  | zero => exact persist_savedUpTo_zero hcompiled hallows record
  | succ room => exact persist_savedUpTo_succ hstore hcompiled hallows record

end Persist

end TreeStore

/-! ## Loading what arrived -/

/-- The tree with the first of its branches only. -/
def CompiledTree.firstBranches (tree : CompiledTree) (count : Nat) : CompiledTree :=
  ⟨tree.expressions, tree.branches.take count⟩

/-- The tree that is read back when only so many branches of an if-tree were stored. -/
def IfTree.reloadedUpTo (catalog : Catalog) (kind : TreeKind) (count : Nat) (tree : IfTree) :
    IfTree :=
  Tree.ofReturns (.boolean false none) kind.settle
    ((tree.guardedReturns.take count).map (.map (Condition.normal catalog) (Value.normal catalog)))

/-- The tree that is read back when only so many branches of an adjustment tree were
stored. -/
def AdjustmentTree.reloadedUpTo (catalog : Catalog) (count : Nat) (tree : AdjustmentTree) :
    AdjustmentTree :=
  Tree.ofReturns [] id
    ((tree.guardedReturns.take count).map
      (.map (Condition.normal catalog) (List.map (Adjustment.normal catalog))))

section Stored

variable {Outcome : Type} {lower : LowerOutcome Outcome}
variable {read : Rebuilder → BranchRecord → Except RebuildError Outcome}
variable {normal : Catalog → Outcome → Outcome}

/-- The first leaves are read back if the expressions have arrived; no leaves need none. -/
theorem Tree.stored_reads_take (hlisted : lower.Listed) (hback : lower.ReadBack read normal)
    {tree : Tree Outcome} {whole : Flattened} (hflatten : flatten lower 0 tree = .ok whole)
    {last : Int} (hlast : 0 ≤ last) (catalog : Catalog) {arrived : List Expression}
    {count : Nat}
    (harrived : 0 < count → arrived = (whole.toCompiled.stored last).expressions) :
    let source : Rebuilder := ⟨arrived, catalog⟩
    List.Forall₂ (source.ReadsAs (whole.toCompiled.durable last) (read source) (normal catalog))
      (whole.leaves.take count) (tree.guardedReturns.take count) := by
  cases count with
  | zero => exact .nil
  | succ count =>
      rw [harrived (Nat.succ_pos count)]
      exact List.forall₂_take _ (Tree.stored_reads hlisted hback hflatten hlast catalog)

end Stored

theorem CompiledTree.take_stored_branches (whole : Flattened) (last : Int) (count : Nat) :
    (whole.toCompiled.stored last).branches.take count =
      storedRecords (whole.toCompiled.durable last) 0 (whole.leaves.take count) := by
  rw [← take_storedRecords, ← map_relocate_records]
  rfl

theorem IfTree.rebuildIf_take {tree : IfTree} {compiled : CompiledTree}
    (hcompile : tree.compile = .ok compiled) {last : Int} (hlast : 0 ≤ last)
    (catalog : Catalog) (kind : TreeKind) {arrived : List Expression} {count : Nat}
    (harrived : 0 < count → arrived = (compiled.stored last).expressions) :
    CompiledTree.rebuildIf ⟨arrived, (compiled.stored last).branches.take count⟩ catalog kind =
      .ok (tree.reloadedUpTo catalog kind count) := by
  obtain ⟨whole, hflatten, rfl⟩ := compile_eq_ok hcompile
  rw [CompiledTree.take_stored_branches]
  exact CompiledTree.rebuildIf_eq kind (Tree.stored_reads_take Value.lowerOutcome_listed
    Value.lowerOutcome_readBack hflatten hlast catalog harrived)

theorem AdjustmentTree.rebuildAdjustment_take {tree : AdjustmentTree} {compiled : CompiledTree}
    (hcompile : tree.compile = .ok compiled) {last : Int} (hlast : 0 ≤ last)
    (catalog : Catalog) {arrived : List Expression} {count : Nat}
    (harrived : 0 < count → arrived = (compiled.stored last).expressions) :
    CompiledTree.rebuildAdjustment ⟨arrived, (compiled.stored last).branches.take count⟩
        catalog =
      .ok (tree.reloadedUpTo catalog count) := by
  obtain ⟨whole, hflatten, rfl⟩ := compile_eq_ok hcompile
  rw [CompiledTree.take_stored_branches]
  exact CompiledTree.rebuildAdjustment_eq (Tree.stored_reads_take
    Adjustment.lowerOutcome_listed Adjustment.lowerOutcome_readBack hflatten hlast catalog
    harrived)

namespace TreeStore

/-- Where a branch has arrived, all expressions have. -/
theorem take_stored_expressions (compiled : CompiledTree) (last : Int) (count : Nat)
    (hcount : 0 < count - compiled.expressions.length) :
    (compiled.stored last).expressions.take count = (compiled.stored last).expressions := by
  apply List.take_of_length_le
  rw [CompiledTree.length_stored_expressions]
  omega

namespace SavedUpTo

variable {store : TreeStore} {key : String} {compiled : CompiledTree} {room : Nat}
variable {saved : Outcome SaveError SavedTree}

theorem loadIf {kind : TreeKind}
    (hsaved : SavedUpTo store ⟨key, .ifTree, kind⟩ compiled room saved) (hroom : 0 < room)
    (hlast : 0 ≤ store.lastExpression) {tree : IfTree} (hcompile : tree.compile = .ok compiled)
    (catalog : Catalog) :
    saved.2.loadIf key catalog =
      .ok (tree.reloadedUpTo catalog kind (room - 1 - compiled.expressions.length)) := by
  apply loadIf_of_fetch (hsaved.fetched hroom) rfl
  exact IfTree.rebuildIf_take hcompile hlast catalog kind
    (take_stored_expressions compiled store.lastExpression (room - 1))

theorem loadAdjustment
    (hsaved : SavedUpTo store ⟨key, .adjustment, .numeric⟩ compiled room saved)
    (hroom : 0 < room) (hlast : 0 ≤ store.lastExpression) {tree : AdjustmentTree}
    (hcompile : tree.compile = .ok compiled) (catalog : Catalog) :
    saved.2.loadAdjustment key catalog =
      .ok (tree.reloadedUpTo catalog (room - 1 - compiled.expressions.length)) := by
  apply loadAdjustment_of_fetch (hsaved.fetched hroom) rfl
  exact AdjustmentTree.rebuildAdjustment_take hcompile hlast catalog
    (take_stored_expressions compiled store.lastExpression (room - 1))

end SavedUpTo

section Save

variable {store : TreeStore} {room : Nat} {compiled : CompiledTree}
variable (hstore : store.Integrity) (hallows : store.Allows room)
include hstore hallows

theorem saveIf_savedUpTo {tree : IfTree} (hcompile : tree.compile = .ok compiled) (key : String)
    (kind : TreeKind) :
    SavedUpTo store ⟨key, .ifTree, kind⟩ compiled room (store.saveIf key tree kind) := by
  rw [saveIf, hcompile]
  exact persist_savedUpTo hstore (IfTree.layered_of_compile hcompile) hallows _

theorem saveAdjustment_savedUpTo {tree : AdjustmentTree} (hcompile : tree.compile = .ok compiled)
    (key : String) :
    SavedUpTo store ⟨key, .adjustment, .numeric⟩ compiled room
      (store.saveAdjustment key tree) := by
  rw [saveAdjustment, hcompile]
  exact persist_savedUpTo hstore (AdjustmentTree.layered_of_compile hcompile) hallows _

end Save

/-- A save on a store with a budget writes as far as the budget goes, and what it leaves
behind loads as the branches that arrived.  A tree that does not compile is not written
at all. -/
theorem save_upTo_budget (limit : Nat) (writes : List Write) (key : String) :
    let store := (empty (some limit)).afterWrites writes
    let room := limit - store.writes
    (∀ (tree : IfTree) (kind : TreeKind),
      (∀ error, tree.compile = .error error →
        store.saveIf key tree kind = (.error (.compile error), store)) ∧
      ∀ compiled, tree.compile = .ok compiled →
        let saved := store.saveIf key tree kind
        let arrived := room - 1 - compiled.expressions.length
        SavedUpTo store ⟨key, .ifTree, kind⟩ compiled room saved ∧
        (0 < room → ∀ catalog,
          saved.2.loadIf key catalog = .ok (tree.reloadedUpTo catalog kind arrived) ∧
          ((compiled.stored store.lastExpression).firstBranches arrived).rebuildIf catalog kind =
            .ok (tree.reloadedUpTo catalog kind arrived))) ∧
    ∀ tree : AdjustmentTree,
      (∀ error, tree.compile = .error error →
        store.saveAdjustment key tree = (.error (.compile error), store)) ∧
      ∀ compiled, tree.compile = .ok compiled →
        let saved := store.saveAdjustment key tree
        let arrived := room - 1 - compiled.expressions.length
        SavedUpTo store ⟨key, .adjustment, .numeric⟩ compiled room saved ∧
        (0 < room → ∀ catalog,
          saved.2.loadAdjustment key catalog = .ok (tree.reloadedUpTo catalog arrived) ∧
          ((compiled.stored store.lastExpression).firstBranches arrived).rebuildAdjustment
            catalog = .ok (tree.reloadedUpTo catalog arrived)) := by
  intro store room
  have hstore : store.Integrity := (Integrity.empty (some limit)).afterWrites writes
  have hallows : store.Allows room := allows_afterWrites limit writes
  have hlast := hstore.last_expression_nonneg
  constructor
  · intro tree kind
    constructor
    · intro error hcompile
      rw [saveIf, hcompile]
    · intro compiled hcompile saved arrived
      have hsaved : SavedUpTo store ⟨key, .ifTree, kind⟩ compiled room saved :=
        saveIf_savedUpTo hstore hallows hcompile key kind
      refine ⟨hsaved, fun hroom catalog => ⟨hsaved.loadIf hroom hlast hcompile catalog, ?_⟩⟩
      exact IfTree.rebuildIf_take hcompile hlast catalog kind fun _ => rfl
  · intro tree
    constructor
    · intro error hcompile
      rw [saveAdjustment, hcompile]
    · intro compiled hcompile saved arrived
      have hsaved : SavedUpTo store ⟨key, .adjustment, .numeric⟩ compiled room saved :=
        saveAdjustment_savedUpTo hstore hallows hcompile key
      refine ⟨hsaved, fun hroom catalog =>
        ⟨hsaved.loadAdjustment hroom hlast hcompile catalog, ?_⟩⟩
      exact AdjustmentTree.rebuildAdjustment_take hcompile hlast catalog fun _ => rfl

/-- Three writes are left for a key that has a tree: of a guarded value and of guarded
adjustments only the record and two operands arrive. -/
theorem save_upTo_budget_three :
    let adult : Condition :=
      ⟨.variable ⟨"age", "", "", factScope⟩ none, .greater, .literal "18" none⟩
    let tree : IfTree :=
      .decides [⟨adult, .returns (.literal "1" none)⟩] (.returns (.literal "0" none))
    let adjustments : AdjustmentTree :=
      .decides [⟨adult, .returns [⟨.plus, .literal "5" none⟩]⟩] (.returns [])
    let unread : IfTree := .returns (.literal "twelve" none)
    let store := (empty (some 4)).afterWrites [.upsertTree ⟨"price", .adjustment, .numeric⟩]
    ∃ compiled compiledAdjustments error,
      tree.compile = .ok compiled ∧ adjustments.compile = .ok compiledAdjustments ∧
      unread.compile = .error error ∧ 0 < 4 - store.writes ∧
      SavedUpTo store ⟨"price", .ifTree, .numeric⟩ compiled (4 - store.writes)
        (store.saveIf "price" tree .numeric) ∧
      (store.saveIf "price" tree .numeric).2.loadIf "price" .empty =
        .ok (IfTree.reloadedUpTo .empty .numeric
          (4 - store.writes - 1 - compiled.expressions.length) tree) ∧
      SavedUpTo store ⟨"price", .adjustment, .numeric⟩ compiledAdjustments (4 - store.writes)
        (store.saveAdjustment "price" adjustments) ∧
      (store.saveAdjustment "price" adjustments).2.loadAdjustment "price" .empty =
        .ok (AdjustmentTree.reloadedUpTo .empty
          (4 - store.writes - 1 - compiledAdjustments.expressions.length) adjustments) ∧
      store.saveIf "price" unread .numeric = (.error (.compile error), store) := by
  intro adult tree adjustments unread store
  have hcompile : tree.compile.isOk = true := by decide +kernel
  have hcompileAdjustments : adjustments.compile.isOk = true := by decide +kernel
  have hunread : unread.compile.isOk = false := by decide +kernel
  have hroom : 0 < 4 - store.writes := by decide +kernel
  obtain ⟨compiled, hresult⟩ := exists_of_isOk hcompile
  obtain ⟨compiledAdjustments, hresultAdjustments⟩ := exists_of_isOk hcompileAdjustments
  obtain ⟨error, herror⟩ := exists_of_not_isOk hunread
  obtain ⟨hifTrees, hadjustments⟩ :=
    save_upTo_budget 4 [.upsertTree ⟨"price", .adjustment, .numeric⟩] "price"
  obtain ⟨hsaved, hloads⟩ := (hifTrees tree .numeric).2 compiled hresult
  obtain ⟨hsavedAdjustments, hloadsAdjustments⟩ :=
    (hadjustments adjustments).2 compiledAdjustments hresultAdjustments
  exact ⟨compiled, compiledAdjustments, error, hresult, hresultAdjustments, herror, hroom,
    hsaved, (hloads hroom .empty).1, hsavedAdjustments, (hloadsAdjustments hroom .empty).1,
    (hifTrees unread .numeric).1 error herror⟩

end TreeStore

end DecisionCanvas
