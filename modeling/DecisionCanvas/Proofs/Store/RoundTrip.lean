import DecisionCanvas.Proofs.Compiled.Reading
import DecisionCanvas.Proofs.Store.Persist
import DecisionCanvas.Proofs.Tree.Equivalence

/-!
# Saving and loading again

What is loaded after a save depends on the saved tree, the catalog and the kind only,
and not on what the store held before or on the ids it gave out.  If no body of a case
contains another case, it is the chain of the cases met on the way down.
-/

namespace DecisionCanvas

/-! ## Reading a stored tree -/

namespace CompiledTree

variable {compiled : CompiledTree} {durable : Int → Int}

/-- Whether every expression of a tree can be looked up once it has been relocated. -/
structure Findable (compiled : CompiledTree) (durable : Int → Int) : Prop where
  nonneg : ∀ expression ∈ compiled.expressions, 0 ≤ durable expression.id
  distinct : (compiled.relocate durable).definedIds.Nodup

theorem SelfContained.findable (htree : compiled.SelfContained) {last : Int}
    (hlast : 0 ≤ last) : compiled.Findable (compiled.durable last) where
  nonneg := by
    intro expression hexpression
    have habove := htree.lt_durable last hexpression
    omega
  distinct := htree.stored_ids_nodup last

/-- Every expression of a relocated tree is found under its durable id. -/
theorem Findable.holds (hfindable : compiled.Findable durable) (catalog : Catalog) :
    ∀ expression ∈ compiled.expressions,
      Rebuilder.Holds ⟨(compiled.relocate durable).expressions, catalog⟩ durable
        expression := by
  intro expression hexpression
  have hdistinct :
      ((compiled.relocate durable).expressions.reverse.map Expression.id).Nodup := by
    rw [List.map_reverse, List.nodup_reverse]
    exact hfindable.distinct
  have hmem : expression.relocate durable ∈
      (compiled.relocate durable).expressions.reverse := by
    rw [List.mem_reverse]
    exact List.mem_map_of_mem (mem_storedOrder.mpr hexpression)
  exact ⟨hfindable.nonneg expression hexpression,
    (find?_eq_some_iff_mem hdistinct).mpr ⟨hmem, rfl⟩⟩

end CompiledTree

section Relocated

variable {Outcome : Type} {lower : LowerOutcome Outcome}
variable {read : Rebuilder → BranchRecord → Except RebuildError Outcome}
variable {normal : Catalog → Outcome → Outcome}

/-- The leaves of a compiled tree are read back from the relocated tree. -/
theorem Tree.relocated_reads (hback : lower.ReadBack read normal)
    {tree : Tree Outcome} {whole : Flattened} (hflatten : flatten lower 0 tree = .ok whole)
    {durable : Int → Int} (hfindable : whole.toCompiled.Findable durable) (catalog : Catalog) :
    let source : Rebuilder := ⟨(whole.toCompiled.relocate durable).expressions, catalog⟩
    List.Forall₂ (source.ReadsAs durable (read source) (normal catalog))
      whole.leaves tree.guardedReturns :=
  flatten_reads hback hflatten (hfindable.holds catalog)

/-- The leaves of a compiled tree are read back from the stored tree. -/
theorem Tree.stored_reads (hlisted : lower.Listed) (hback : lower.ReadBack read normal)
    {tree : Tree Outcome} {whole : Flattened} (hflatten : flatten lower 0 tree = .ok whole)
    {last : Int} (hlast : 0 ≤ last) (catalog : Catalog) :
    let source : Rebuilder := ⟨(whole.toCompiled.stored last).expressions, catalog⟩
    List.Forall₂ (source.ReadsAs (whole.toCompiled.durable last) (read source) (normal catalog))
      whole.leaves tree.guardedReturns :=
  relocated_reads hback hflatten ((flatten_shaped hlisted hflatten).layered.findable hlast)
    catalog

end Relocated

theorem IfTree.layered_of_compile {tree : IfTree} {compiled : CompiledTree}
    (hcompile : tree.compile = .ok compiled) : compiled.Layered := by
  obtain ⟨whole, hflatten, rfl⟩ := compile_eq_ok hcompile
  exact (Tree.flatten_shaped Value.lowerOutcome_listed hflatten).layered

theorem AdjustmentTree.layered_of_compile {tree : AdjustmentTree} {compiled : CompiledTree}
    (hcompile : tree.compile = .ok compiled) : compiled.Layered := by
  obtain ⟨whole, hflatten, rfl⟩ := compile_eq_ok hcompile
  exact (Tree.flatten_shaped Adjustment.lowerOutcome_listed hflatten).layered

/-- What is read back from a relocated tree does not depend on the new ids. -/
theorem IfTree.rebuildIf_relocate {tree : IfTree} {compiled : CompiledTree}
    (hcompile : tree.compile = .ok compiled) {durable : Int → Int}
    (hfindable : compiled.Findable durable) (catalog : Catalog) (kind : TreeKind) :
    (compiled.relocate durable).rebuildIf catalog kind = .ok (tree.reloaded catalog kind) := by
  obtain ⟨whole, hflatten, rfl⟩ := compile_eq_ok hcompile
  have hreads := Tree.relocated_reads Value.lowerOutcome_readBack hflatten hfindable catalog
  have hrebuilt := CompiledTree.rebuildIf_eq kind hreads
  rw [← map_relocate_records durable whole.leaves] at hrebuilt
  exact hrebuilt

theorem AdjustmentTree.rebuildAdjustment_relocate {tree : AdjustmentTree}
    {compiled : CompiledTree} (hcompile : tree.compile = .ok compiled) {durable : Int → Int}
    (hfindable : compiled.Findable durable) (catalog : Catalog) :
    (compiled.relocate durable).rebuildAdjustment catalog = .ok (tree.reloaded catalog) := by
  obtain ⟨whole, hflatten, rfl⟩ := compile_eq_ok hcompile
  have hreads := Tree.relocated_reads Adjustment.lowerOutcome_readBack hflatten hfindable
    catalog
  have hrebuilt := CompiledTree.rebuildAdjustment_eq hreads
  rw [← map_relocate_records durable whole.leaves] at hrebuilt
  exact hrebuilt

theorem IfTree.rebuildIf_stored {tree : IfTree} {compiled : CompiledTree}
    (hcompile : tree.compile = .ok compiled) {last : Int} (hlast : 0 ≤ last)
    (catalog : Catalog) (kind : TreeKind) :
    (compiled.stored last).rebuildIf catalog kind = .ok (tree.reloaded catalog kind) :=
  rebuildIf_relocate hcompile ((layered_of_compile hcompile).findable hlast) catalog kind

theorem AdjustmentTree.rebuildAdjustment_stored {tree : AdjustmentTree}
    {compiled : CompiledTree} (hcompile : tree.compile = .ok compiled) {last : Int}
    (hlast : 0 ≤ last) (catalog : Catalog) :
    (compiled.stored last).rebuildAdjustment catalog = .ok (tree.reloaded catalog) :=
  rebuildAdjustment_relocate hcompile ((layered_of_compile hcompile).findable hlast) catalog

namespace TreeStore

variable {store : TreeStore}

/-! ## Loading -/

section Load

variable {key : String} {held : StoredTree} {catalog : Catalog}
variable (hfetch : store.fetch key = .ok held)
include hfetch

/-- What is loaded is what is rebuilt from the tree under the key. -/
theorem loadIf_of_fetch {kind : TreeKind} {tree : IfTree}
    (hrecord : held.record = ⟨key, .ifTree, kind⟩)
    (hrebuilt : CompiledTree.rebuildIf ⟨held.expressions, held.branches⟩ catalog kind =
      .ok tree) :
    store.loadIf key catalog = .ok tree := by
  simp only [loadIf, fetchTyped, hfetch, hrecord, hrebuilt, if_true]
  rfl

theorem loadAdjustment_of_fetch {kind : TreeKind} {tree : AdjustmentTree}
    (hrecord : held.record = ⟨key, .adjustment, kind⟩)
    (hrebuilt : CompiledTree.rebuildAdjustment ⟨held.expressions, held.branches⟩ catalog =
      .ok tree) :
    store.loadAdjustment key catalog = .ok tree := by
  simp only [loadAdjustment, fetchTyped, hfetch, hrecord, hrebuilt, if_true]
  rfl

end Load

section Save

variable (hstore : store.Integrity)
include hstore

/-- An if-tree that compiles is saved where there is room, and what is loaded then does
not depend on the store. -/
theorem saveIf_loadIf {tree : IfTree} {compiled : CompiledTree}
    (hcompile : tree.compile = .ok compiled)
    (hroom : store.HasRoom (1 + compiled.expressions.length + compiled.branches.length))
    (key : String) (kind : TreeKind) :
    ∃ saved after, store.saveIf key tree kind = (.ok saved, after) ∧
      ∀ catalog, after.loadIf key catalog = .ok (tree.reloaded catalog kind) := by
  obtain ⟨opened, hopened, hpersist⟩ :=
    persist_eq hstore (IfTree.layered_of_compile hcompile) hroom ⟨key, .ifTree, kind⟩
  refine ⟨_, _, by rw [saveIf, hcompile]; exact hpersist, fun catalog => ?_⟩
  apply loadIf_of_fetch (hopened.fetch_grow _ _) rfl
  exact IfTree.rebuildIf_stored hcompile hstore.last_expression_nonneg catalog kind

/-- An adjustment tree that compiles is saved where there is room, and what is loaded
then does not depend on the store. -/
theorem saveAdjustment_loadAdjustment {tree : AdjustmentTree} {compiled : CompiledTree}
    (hcompile : tree.compile = .ok compiled)
    (hroom : store.HasRoom (1 + compiled.expressions.length + compiled.branches.length))
    (key : String) :
    ∃ saved after, store.saveAdjustment key tree = (.ok saved, after) ∧
      ∀ catalog, after.loadAdjustment key catalog = .ok (tree.reloaded catalog) := by
  obtain ⟨opened, hopened, hpersist⟩ :=
    persist_eq hstore (AdjustmentTree.layered_of_compile hcompile) hroom
      ⟨key, .adjustment, .numeric⟩
  refine ⟨_, _, by rw [saveAdjustment, hcompile]; exact hpersist, fun catalog => ?_⟩
  apply loadAdjustment_of_fetch (hopened.fetch_grow _ _) rfl
  exact AdjustmentTree.rebuildAdjustment_stored hcompile hstore.last_expression_nonneg catalog

end Save

end TreeStore

/-! ## Chains -/

/-- The cases met on the way down, each with the one return of its body, and the last
return; all values are in normal form.  Without cases only the return is left, in the
form of its kind. -/
def IfTree.chain (catalog : Catalog) (kind : TreeKind) (tree : IfTree) : IfTree :=
  let last := (Tree.lastReturn tree).normal catalog
  if (Tree.spine tree).isEmpty then .returns (kind.settle last)
  else
    .decides
      ((Tree.spine tree).map fun case =>
        ⟨case.condition.normal catalog, .returns (case.body.lastReturn.normal catalog)⟩)
      (.returns last)

/-- Without cases inside bodies the tree that is read back is the chain. -/
theorem IfTree.reloaded_eq_chain {tree : IfTree} (hflat : Tree.FlatBodies tree)
    (catalog : Catalog) (kind : TreeKind) :
    tree.reloaded catalog kind = tree.chain catalog kind := by
  rw [reloaded, chain, Tree.guardedReturns_of_flat hflat, List.map_append, List.map_map]
  exact Tree.ofReturns_of_guarded _ _ (Tree.spine tree)
    (fun case => case.condition.normal catalog)
    (fun case => case.body.lastReturn.normal catalog) ((Tree.lastReturn tree).normal catalog)

namespace TreeStore

/-- Saving any if-tree whose bodies contain no cases, whatever has been written before,
succeeds, and what is loaded then is its chain. -/
theorem saveIf_loadIf_chain (writes : List Write) (key : String) (catalog : Catalog)
    (kind : TreeKind) {tree : IfTree} {compiled : CompiledTree}
    (hcompile : tree.compile = .ok compiled) (hflat : Tree.FlatBodies tree) :
    ∃ saved after loaded,
      ((empty none).afterWrites writes).saveIf key tree kind = (.ok saved, after) ∧
      after.loadIf key catalog = .ok loaded ∧
      IfTree.equivalent loaded (tree.chain catalog kind) = true := by
  have hstore := (Integrity.empty none).afterWrites writes
  have hroom := hasRoom_of_unlimited ((empty none).budget_afterWrites writes)
    (1 + compiled.expressions.length + compiled.branches.length)
  obtain ⟨saved, after, hsaved, hloaded⟩ := saveIf_loadIf hstore hcompile hroom key kind
  refine ⟨saved, after, tree.reloaded catalog kind, hsaved, hloaded catalog, ?_⟩
  rw [IfTree.reloaded_eq_chain hflat]
  exact IfTree.equivalent_refl _

/-- A chain through an inner decision, over a tree that was written under the same key. -/
theorem saveIf_loadIf_chain_inner :
    let adult : Condition :=
      ⟨.variable ⟨"age", "", "", factScope⟩ none, .atLeast, .literal "18" none⟩
    let member : Condition := ⟨.choice "member" none, .equal, .boolean true none⟩
    let tree : IfTree := .decides [⟨adult, .decides [] (.returns (.literal " 2.50" none))⟩]
      (.decides [⟨member, .returns (.literal "" none)⟩] (.returns (.boolean false none)))
    ∃ saved after loaded,
      ((empty none).afterWrites [.upsertTree ⟨"price", .adjustment, .numeric⟩]).saveIf "price"
        tree .numeric = (.ok saved, after) ∧
      after.loadIf "price" .empty = .ok loaded ∧
      IfTree.equivalent loaded (IfTree.chain .empty .numeric tree) = true := by
  intro adult member tree
  have hcompile : tree.compile.isOk = true := by decide +kernel
  have hflat : ∀ body ∈ Tree.bodies tree, body.hasCase = false := by
    intro body hbody
    simp [tree, Tree.bodies, Tree.caseBodies] at hbody
    obtain rfl | rfl := hbody <;> simp [Tree.hasCase, Tree.bodies, Tree.caseBodies]
  cases hresult : tree.compile with
  | error error => simp [hresult, Except.isOk, Except.toBool] at hcompile
  | ok compiled => exact saveIf_loadIf_chain _ "price" .empty .numeric hresult hflat

end TreeStore

end DecisionCanvas
