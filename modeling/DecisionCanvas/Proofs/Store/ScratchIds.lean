import DecisionCanvas.Proofs.Compiled.References
import DecisionCanvas.Proofs.Store.Persist

/-!
# Saves and scratch ids

Operators are written after all operands and branches after all expressions, so a save
of a compiled tree never meets a scratch id without a durable one, whatever the store
holds and answers.  Only the store itself can stop such a save.
-/

namespace DecisionCanvas

namespace IdMap

/-- Whether a scratch id has a durable one. -/
def Knows (ids : IdMap) (scratch : Int) : Prop :=
  ids.durable? scratch = some (ids.apply scratch)

variable {ids more : IdMap} {scratch durable : Int}

theorem knows_of_durable? (hdurable : ids.durable? scratch = some durable) :
    ids.Knows scratch := by
  rw [Knows, apply, hdurable, Option.getD_some]

theorem Knows.append (hknown : ids.Knows scratch) : (ids ++ more).Knows scratch := by
  apply knows_of_durable?
  rw [durable?_append, hknown, Option.some_or]

theorem Knows.apply_append (hknown : ids.Knows scratch) (more : IdMap) :
    (ids ++ more).apply scratch = ids.apply scratch := by
  rw [apply, durable?_append, hknown, Option.some_or, Option.getD_some]

theorem knows_append_self : (ids ++ [(scratch, durable)]).Knows scratch := by
  have hlast : durable? [(scratch, durable)] scratch = some durable := List.lookup_cons_self
  rw [Knows, apply, durable?_append, hlast]
  cases ids.durable? scratch with
  | none => rfl
  | some known => rfl

end IdMap

namespace TreeStore

/-- A step of a save that has a result with some property unless the store has stopped
it. -/
def StoppedByStoreOr {Result : Type} (holds : Result → Prop)
    (outcome : Outcome SaveError Result) : Prop :=
  (∃ result next, outcome = (.ok result, next) ∧ holds result) ∨
    ∃ error next, outcome = (.error (.store error), next)

/-- A save of a compiled tree that knows all its ids in the end, unless the store has
stopped it. -/
abbrev SavesUnlessStopped (compiled : CompiledTree) (outcome : Outcome SaveError SavedTree) :
    Prop :=
  StoppedByStoreOr (fun saved => ∀ expression ∈ compiled.expressions,
    saved.ids.Knows expression.id) outcome

/-- Expressions that can be renamed by what is known before and written since get an id
each. -/
theorem insertExpressions_stoppedByStoreOr
    {rename : IdMap → Expression → Except SaveError Expression} {ids : IdMap}
    {order : List Expression}
    (hrename : ∀ known : IdMap, (∀ scratch, ids.Knows scratch → known.Knows scratch) →
      ∀ expression ∈ order, ∃ renamed, rename known expression = .ok renamed)
    (tree : Int) (store : TreeStore) :
    StoppedByStoreOr
      (fun known => (∀ scratch, ids.Knows scratch → known.Knows scratch) ∧
        ∀ expression ∈ order, known.Knows expression.id)
      (insertExpressions tree rename order ids store) := by
  induction order generalizing ids store with
  | nil => exact Or.inl ⟨ids, store, rfl, fun _ => id, by simp⟩
  | cons expression rest ih =>
      obtain ⟨renamed, hrenamed⟩ := hrename ids (fun _ => id) expression List.mem_cons_self
      rcases hwritten : store.insertExpression tree renamed with ⟨answer, next⟩
      cases answer with
      | error error =>
          simp only [insertExpressions, hrenamed, hwritten]
          exact Or.inr ⟨error, next, rfl⟩
      | ok durable =>
          simp only [insertExpressions, hrenamed, hwritten]
          have hmore : ∀ scratch, ids.Knows scratch →
              (ids ++ [(expression.id, durable)]).Knows scratch :=
            fun _ hscratch => hscratch.append
          apply (ih (fun known hknown other hother => ?_) next).imp_left
          · rintro ⟨known, after, hok, hknown, hids⟩
            refine ⟨known, after, hok, fun scratch hscratch => ?_, ?_⟩
            · exact hknown scratch (hmore scratch hscratch)
            · exact List.forall_mem_cons.mpr ⟨hknown _ IdMap.knows_append_self, hids⟩
          · exact hrename known (fun scratch hscratch => hknown scratch (hmore scratch hscratch))
              other (List.mem_cons_of_mem _ hother)

theorem insertBranches_stoppedByStoreOr {ids : IdMap} {branches : List BranchRecord}
    (hknown : ∀ record ∈ branches, ∀ id ∈ record.referenced, ids.Knows id)
    (tree : Int) (store : TreeStore) :
    StoppedByStoreOr (fun _ => True) (insertBranches tree ids branches store) := by
  induction branches generalizing store with
  | nil => exact Or.inl ⟨(), store, rfl, trivial⟩
  | cons record rest ih =>
      have hrenamed := IdMap.renameBranch_eq (hknown record List.mem_cons_self)
      rcases hwritten : store.insertBranch tree (record.relocate ids.apply) with ⟨answer, next⟩
      cases answer with
      | error error =>
          simp only [insertBranches, hrenamed, hwritten]
          exact Or.inr ⟨error, next, rfl⟩
      | ok _ =>
          simp only [insertBranches, hrenamed, hwritten]
          exact ih (fun other hother => hknown other (List.mem_cons_of_mem _ hother)) next

theorem knows_expressions {compiled : CompiledTree} {ids : IdMap}
    (hoperands : ∀ operand ∈ compiled.operands, ids.Knows operand.id)
    (hoperators : ∀ operator ∈ compiled.operators, ids.Knows operator.id) :
    ∀ expression ∈ compiled.expressions, ids.Knows expression.id := by
  intro expression hexpression
  rw [← CompiledTree.mem_storedOrder, CompiledTree.storedOrder, List.mem_append] at hexpression
  exact hexpression.elim (hoperands expression) (hoperators expression)

section Layered

variable {compiled : CompiledTree} (hcompiled : compiled.Layered)
include hcompiled

/-- Once the operands are known, operators can be renamed, and once the operators are,
branches can. -/
theorem fill_stoppedByStoreOr (tree : Int) (store : TreeStore) :
    SavesUnlessStopped compiled (store.fill tree compiled) := by
  have hoperands := @insertExpressions_stoppedByStoreOr (fun _ => .ok) [] compiled.operands
    (fun _ _ operand _ => ⟨operand, rfl⟩) tree store
  obtain ⟨first, afterOperands, hfirst, -, hfirstKnown⟩ | ⟨error, next, hstopped⟩ := hoperands
  · have hchildren : ∀ known : IdMap, (∀ scratch, first.Knows scratch → known.Knows scratch) →
        ∀ operator ∈ compiled.operators,
          ∃ renamed, known.renameExpression operator = .ok renamed := by
      intro known hknown operator hoperator
      have hoperandsKnown : ∀ operand ∈ compiled.operands, known.Knows operand.id :=
        fun operand hoperand => hknown _ (hfirstKnown operand hoperand)
      exact ⟨_, hcompiled.renameExpression_eq hoperandsKnown hoperator⟩
    obtain ⟨second, afterOperators, hsecond, hkept, hsecondKnown⟩ | ⟨error, next, hstopped⟩ :=
      insertExpressions_stoppedByStoreOr hchildren tree afterOperands
    · have hknown := knows_expressions
        (fun operand hoperand => hkept _ (hfirstKnown operand hoperand)) hsecondKnown
      have hreferenced : ∀ record ∈ compiled.branches, ∀ id ∈ record.referenced,
          second.Knows id := by
        intro record hrecord id hid
        obtain ⟨expression, hexpression, rfl⟩ :=
          List.mem_map.mp (hcompiled.branches_defined record hrecord id hid)
        exact hknown expression hexpression
      obtain ⟨_, after, hbranches, -⟩ | ⟨error, next, hstopped⟩ :=
        insertBranches_stoppedByStoreOr hreferenced tree afterOperators
      · exact Or.inl ⟨⟨tree, second⟩, after, fill_of_rounds hfirst hsecond hbranches, hknown⟩
      · refine Or.inr ⟨error, next, ?_⟩
        simp only [fill, hfirst, hsecond, hstopped]
    · refine Or.inr ⟨error, next, ?_⟩
      simp only [fill, hfirst, hstopped]
  · refine Or.inr ⟨error, next, ?_⟩
    simp only [fill, hstopped]

theorem persist_stoppedByStoreOr (store : TreeStore) (record : TreeRecord) :
    SavesUnlessStopped compiled (store.persist record compiled) := by
  have hcheck := CompiledTree.check_eq_ok_iff.mpr hcompiled.toSelfContained
  rcases hopened : store.upsertTree record with ⟨answer, next⟩
  cases answer with
  | error error =>
      refine Or.inr ⟨error, next, ?_⟩
      simp only [persist, hcheck, hopened]
  | ok tree =>
      simp only [persist, hcheck, hopened]
      exact fill_stoppedByStoreOr hcompiled tree next

end Layered

/-- A write after a save can only be stopped by the store. -/
theorem thenWrite_stoppedByStoreOr {holds : SavedTree → Prop}
    {saved : Outcome SaveError SavedTree} (hsaved : StoppedByStoreOr holds saved)
    (write : TreeStore → Int → Outcome StoreError Unit) :
    StoppedByStoreOr holds (thenWrite saved write) := by
  obtain ⟨result, next, rfl, hresult⟩ | ⟨error, next, rfl⟩ := hsaved
  · rcases hwritten : write next result.tree with ⟨answer, after⟩
    cases answer with
    | error error => exact Or.inr ⟨error, after, by simp only [thenWrite, hwritten]⟩
    | ok _ => exact Or.inl ⟨result, after, by simp only [thenWrite, hwritten], hresult⟩
  · exact Or.inr ⟨error, next, rfl⟩

end TreeStore

namespace CompiledTree

/-- Whatever compiles has the canonical shape, and no save of it, on any store and with
or without a binding that follows, fails in its check or misses an id. -/
theorem compile_canonical :
    (∀ (tree : IfTree) (compiled : CompiledTree), tree.compile = .ok compiled →
      compiled.Canonical ∧ ∀ (store : TreeStore) (key : String) (kind : TreeKind),
        TreeStore.SavesUnlessStopped compiled (store.saveIf key tree kind) ∧
        ∀ bind, TreeStore.SavesUnlessStopped compiled
          (TreeStore.thenWrite (store.saveIf key tree kind) bind)) ∧
    ∀ (tree : AdjustmentTree) (compiled : CompiledTree), tree.compile = .ok compiled →
      compiled.Canonical ∧ ∀ (store : TreeStore) (key : String),
        TreeStore.SavesUnlessStopped compiled (store.saveAdjustment key tree) := by
  constructor
  · intro tree compiled hcompile
    obtain ⟨whole, hflatten, rfl⟩ := IfTree.compile_eq_ok hcompile
    have hshaped := Tree.flatten_shaped Value.lowerOutcome_listed hflatten
    have haccounted := Tree.flatten_accounted Value.lowerOutcome_listed hflatten
    refine ⟨hshaped.canonical haccounted, ?_⟩
    intro store key kind
    have hsaves : TreeStore.SavesUnlessStopped whole.toCompiled (store.saveIf key tree kind) := by
      rw [TreeStore.saveIf, hcompile]
      exact TreeStore.persist_stoppedByStoreOr hshaped.layered store _
    exact ⟨hsaves, fun bind => TreeStore.thenWrite_stoppedByStoreOr hsaves bind⟩
  · intro tree compiled hcompile
    obtain ⟨whole, hflatten, rfl⟩ := AdjustmentTree.compile_eq_ok hcompile
    have hshaped := Tree.flatten_shaped Adjustment.lowerOutcome_listed hflatten
    have haccounted := Tree.flatten_accounted Adjustment.lowerOutcome_listed hflatten
    refine ⟨hshaped.canonical haccounted, ?_⟩
    intro store key
    rw [TreeStore.saveAdjustment, hcompile]
    exact TreeStore.persist_stoppedByStoreOr hshaped.layered store _

/-- A guarded value and guarded adjustments, on stores that take three and any writes. -/
theorem compile_canonical_guarded :
    let adult : Condition :=
      ⟨.variable ⟨"age", "", "", factScope⟩ none, .greater, .literal "18" none⟩
    let tree : IfTree :=
      .decides [⟨adult, .returns (.literal "1" none)⟩] (.returns (.literal "0" none))
    let adjustments : AdjustmentTree :=
      .decides [⟨adult, .returns [⟨.plus, .literal "5" none⟩]⟩] (.returns [])
    ∃ compiled compiledAdjustments,
      tree.compile = .ok compiled ∧ adjustments.compile = .ok compiledAdjustments ∧
      compiled.Canonical ∧ compiledAdjustments.Canonical ∧
      TreeStore.SavesUnlessStopped compiled
        ((TreeStore.empty (some 3)).saveVariable "price" tree) ∧
      TreeStore.SavesUnlessStopped compiledAdjustments
        ((TreeStore.empty none).saveAdjustment "discount" adjustments) := by
  intro adult tree adjustments
  have hcompile : tree.compile.isOk = true := by decide +kernel
  have hcompileAdjustments : adjustments.compile.isOk = true := by decide +kernel
  obtain ⟨compiled, hresult⟩ := exists_of_isOk hcompile
  obtain ⟨compiledAdjustments, hresultAdjustments⟩ := exists_of_isOk hcompileAdjustments
  obtain ⟨hcanonical, hsaves⟩ := compile_canonical.1 tree compiled hresult
  obtain ⟨hcanonicalAdjustments, hsavesAdjustments⟩ :=
    compile_canonical.2 adjustments compiledAdjustments hresultAdjustments
  have hvariable := (hsaves (TreeStore.empty (some 3)) (TreeStore.variableKey "price") .numeric).2
  exact ⟨compiled, compiledAdjustments, hresult, hresultAdjustments, hcanonical,
    hcanonicalAdjustments, hvariable _, hsavesAdjustments (TreeStore.empty none) "discount"⟩

end CompiledTree

end DecisionCanvas
