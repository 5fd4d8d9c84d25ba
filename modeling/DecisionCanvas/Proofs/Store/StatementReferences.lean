import DecisionCanvas.Proofs.Store.NamedSaves

/-!
# References to statements

A tree points to the tree of a statement by the text of a selector and by nothing else, and
the two are saved apart.  Where no variable could be taken for a statement, the statements
that are read back are the saved ones, and each points to the key under which its tree is
stored, whichever of the two was saved first.
-/

namespace DecisionCanvas

/-! ## Statements that are read back -/

namespace Value

/-- Whether a value that is no statement cannot be read back as one: a variable outside the
scope of facts must not have a UUID for its key. -/
def PlainKey : Value → Prop
  | .variable reference _ => reference.scope ≠ factScope → Uuid.ofText? reference.key = none
  | .literal _ _ | .statement _ _ | .boolean _ _ | .choice _ _ | .unsupported => True

instance (value : Value) : Decidable value.PlainKey :=
  match value with
  | .variable reference _ =>
    inferInstanceAs (Decidable (reference.scope ≠ factScope →
      Uuid.ofText? reference.key = none))
  | .literal _ _ | .statement _ _ | .boolean _ _ | .choice _ _ | .unsupported => .isTrue trivial

/-- The selector of a statement. -/
def statementSelector? : Value → Option Uuid
  | .statement _ selector => some selector
  | .literal _ _ | .variable _ _ | .boolean _ _ | .choice _ _ | .unsupported => none

theorem statementSelector?_eq_some_iff {value : Value} {selector : Uuid} :
    value.statementSelector? = some selector ↔ ∃ held, value = .statement held selector := by
  cases value <;> simp [statementSelector?]

theorem statementSelector?_variableFor (catalog : Catalog) (key : String) :
    (catalog.variableFor key).statementSelector? = none := by
  rw [Catalog.variableFor]
  cases catalog.lookup key <;> rfl

theorem normal_of_plainKey (catalog : Catalog) {reference : Variable} {selector : Option Uuid}
    (hplain : (Value.variable reference selector).PlainKey) :
    (Value.variable reference selector).normal catalog = catalog.variableFor reference.key := by
  obtain hnormal | ⟨found, hscope, hfound, -⟩ := normal_variable_cases catalog reference selector
  · exact hnormal
  · rw [hplain hscope] at hfound
    exact absurd hfound (by simp)

/-- The number of a literal is written as a literal. -/
theorem exists_normal_literal (catalog : Catalog) (text : String) (selector : Option Uuid) :
    ∃ written kept, (literal text selector).normal catalog = .literal written kept := by
  rw [normal]
  cases literalNumber? text with
  | some number => exact ⟨_, _, rfl⟩
  | none => exact ⟨_, _, rfl⟩

/-- Statements are read back as statements with the same selector, and nothing else is. -/
theorem statementSelector?_reread (catalog : Catalog) (kind : TreeKind) (alone : Bool)
    {value : Value} (hplain : value.PlainKey) :
    (value.reread catalog kind alone).statementSelector? = value.statementSelector? := by
  match value with
  | .literal text selector =>
      obtain ⟨written, kept, hnormal⟩ := exists_normal_literal catalog text selector
      rw [reread, hnormal]
      obtain hsettled | ⟨truth, hsettled⟩ := settle_literal kind written kept
      · rw [hsettled, ite_self]
        rfl
      · rw [hsettled]
        cases alone <;> rfl
  | .variable reference selector =>
      have hnormal := normal_of_plainKey catalog hplain
      have hread : (Value.variable reference selector).reread catalog kind alone =
          catalog.variableFor reference.key := by
        rw [reread_eq_normal, hnormal]
        intro text other
        rw [hnormal]
        exact variableFor_ne_literal catalog reference.key text other
      rw [hread]
      exact statementSelector?_variableFor catalog reference.key
  | .statement held selector =>
      rw [reread_statement]
      rfl
  | .boolean _ _ | .choice _ _ | .unsupported =>
      rw [reread_eq_normal _ _ _ (by simp [normal])]
      rfl

/-- A statement that is read back points to the text of its selector. -/
theorem eq_text_of_reread {catalog : Catalog} {kind : TreeKind} {alone : Bool} {value : Value}
    (hplain : value.PlainKey) {held : Option String} {selector : Uuid}
    (hread : value.reread catalog kind alone = .statement held selector) :
    held = some selector.text ∧ ∃ original, value = .statement original selector := by
  have hselector : value.statementSelector? = some selector := by
    rw [← statementSelector?_reread catalog kind alone hplain, hread]
    rfl
  obtain ⟨original, rfl⟩ := statementSelector?_eq_some_iff.mp hselector
  rw [reread_statement, Value.statement.injEq] at hread
  exact ⟨hread.1.symm, original, rfl⟩

end Value

namespace IfTree

variable {tree : IfTree} {catalog : Catalog} {kind : TreeKind}

/-- The selectors of the statements of a tree in the order of its values. -/
def statementSelectors (tree : IfTree) : List Uuid :=
  tree.values.filterMap Value.statementSelector?

theorem mem_statementSelectors_iff {selector : Uuid} :
    selector ∈ tree.statementSelectors ↔ ∃ held, .statement held selector ∈ tree.values := by
  simp only [statementSelectors, List.mem_filterMap, Value.statementSelector?_eq_some_iff]
  constructor
  · rintro ⟨value, hvalue, held, rfl⟩
    exact ⟨held, hvalue⟩
  · rintro ⟨held, hmem⟩
    exact ⟨_, hmem, held, rfl⟩

/-- The statements that are read back are those of the decision of the tree, in their
order. -/
theorem statementSelectors_reloaded (hplain : ∀ value ∈ tree.values, value.PlainKey) :
    (tree.reloaded catalog kind).statementSelectors =
      statementSelectors (Tree.decision tree).tree := by
  have hdecision : ∀ value ∈ (Tree.decision tree).values (fun value => [value]),
      value.PlainKey :=
    fun value hvalue => hplain value (Tree.mem_values_of_decision hvalue)
  rw [reloaded_eq, statementSelectors, statementSelectors, values, values,
    Decision.values_tree, Decision.values_tree]
  refine Decision.filterMap_values_map ?_ ?_ hdecision
  · intro condition hleft hright
    exact ⟨Value.statementSelector?_reread catalog kind false hleft,
      Value.statementSelector?_reread catalog kind false hright⟩
  · intro alone value hvalue
    have hread := Value.statementSelector?_reread catalog kind alone
      (hvalue value (List.mem_singleton_self value))
    rw [List.filterMap_cons, List.filterMap_cons, hread]

/-- Every statement that is read back has its selector from a statement of the tree, and
points to the text of it. -/
theorem statement_of_mem_reloaded (catalog : Catalog) (kind : TreeKind)
    (hplain : ∀ value ∈ tree.values, value.PlainKey) :
    ∀ held selector, .statement held selector ∈ (tree.reloaded catalog kind).values →
      held = some selector.text ∧ ∃ original, .statement original selector ∈ tree.values := by
  have hread : ∀ value ∈ (tree.reloaded catalog kind).values, ∀ held selector,
      value = .statement held selector →
        held = some selector.text ∧ ∃ original, .statement original selector ∈ tree.values := by
    have hvalues : ∀ value ∈ tree.values, value.PlainKey ∧ value ∈ tree.values :=
      fun value hvalue => ⟨hplain value hvalue, hvalue⟩
    refine forall_values_reloaded ?_ hvalues
    rintro value place ⟨hvalue, hmem⟩ held selector hstatement
    obtain ⟨htext, original, rfl⟩ := Value.eq_text_of_reread hvalue hstatement
    exact ⟨htext, original, hmem⟩
  intro held selector hmem
  exact hread _ hmem held selector rfl

end IfTree

/-! ## Saves of trees -/

/-- A save of an if-tree, for a statement or under a key of its own. -/
inductive TreeSave where
  | forStatement (selector : Uuid) (tree : IfTree)
  | underKey (key : String) (tree : IfTree) (kind : TreeKind)

namespace TreeSave

open TreeStore

def key : TreeSave → String
  | .forStatement selector _ => selector.text
  | .underKey key _ _ => key

def tree : TreeSave → IfTree
  | .forStatement _ tree => tree
  | .underKey _ tree _ => tree

def kind : TreeSave → TreeKind
  | .forStatement _ _ => .numeric
  | .underKey _ _ kind => kind

def run (store : TreeStore) : TreeSave → Outcome SaveError SavedTree
  | .forStatement selector tree => store.saveStatement selector tree
  | .underKey key tree kind => store.saveIf key tree kind

/-- The store after saves were tried one after another. -/
def runAll (store : TreeStore) (saves : List TreeSave) : TreeStore :=
  saves.foldl (fun store save => (save.run store).2) store

/-- Whether a store has what a save has written under its key.  For a statement the key is
bound as well. -/
structure Holds (save : TreeSave) (stored : StoredTree) (store : TreeStore) : Prop where
  fetched : store.fetch save.key = .ok stored
  loads : ∀ catalog, store.loadIf save.key catalog = .ok (save.tree.reloaded catalog save.kind)
  bound : ∀ selector tree, save = .forStatement selector tree →
    store.variableBinding? save.key = some stored.id

/-- Whether two stores have the same under a key. -/
structure Agree (key : String) (store after : TreeStore) : Prop where
  fetch_eq : after.fetch key = store.fetch key
  binding_eq : after.variableBinding? key = store.variableBinding? key

/-- What a save comes to that succeeded. -/
structure Done (save : TreeSave) (store : TreeStore) (stored : StoredTree)
    (after : TreeStore) : Prop where
  unlimited : after.Unlimited
  holds : save.Holds stored after
  agree : ∀ key, key ≠ save.key → Agree key store after

variable {store : TreeStore} {save : TreeSave}

/-- A tree that does not compile is not saved. -/
theorem run_of_error {error : CompileError} (hcompile : save.tree.compile = .error error) :
    save.run store = (.error (.compile error), store) := by
  cases save with
  | forStatement selector tree =>
      have htree : tree.compile = .error error := hcompile
      rw [run, saveStatement, saveIf, htree]
      rfl
  | underKey key tree kind =>
      have htree : tree.compile = .error error := hcompile
      rw [run, saveIf, htree]

/-- A tree that compiles is saved. -/
theorem run_of_compile (hstore : store.Unlimited) (save : TreeSave) {compiled : CompiledTree}
    (hcompile : save.tree.compile = .ok compiled) :
    ∃ saved stored after, save.run store = (.ok saved, after) ∧
      save.Done store stored after := by
  obtain ⟨saved, stored, filled, hsaved, htree, hfilled⟩ :=
    saveIf_of_compile hstore hcompile save.key save.kind
  cases save with
  | underKey key tree kind =>
      refine ⟨saved, stored, filled, hsaved, hfilled.unlimited,
        ⟨hfilled.fetched, hfilled.loads, ?_⟩, fun other hother => ⟨?_, ?_⟩⟩
      · intro selector other hsame
        cases hsame
      · exact hfilled.other_keys other hother
      · rw [hfilled.variableBinding?]
  | forStatement selector tree =>
      have hfiled : store.saveIf selector.text tree .numeric = (.ok saved, filled) := hsaved
      have hwritten := bindVariable_eq hfilled.unlimited hfilled.held selector.text
      have hleads := filled.leadsTo_afterWrite (.bindVariable selector.text stored.id)
      rw [afterWrite, hwritten] at hleads
      let bound : TreeStore := { filled.tick with
        variableBindings := filled.variableBindings.insert selector.text stored.id }
      have hbindings : ∀ key, bound.variableBinding? key =
          if key = selector.text then some stored.id else store.variableBinding? key := by
        intro key
        rw [← hfilled.variableBinding?]
        exact filled.variableBindings.get?_insert selector.text key stored.id
      refine ⟨saved, stored, bound, ?_, hleads.unlimited hfilled.unlimited,
        ⟨hfilled.fetched, hfilled.loads, fun _ _ _ => ?_⟩, fun other hother => ⟨?_, ?_⟩⟩
      · simp only [run, saveStatement, thenWrite, hfiled, htree]
        rw [hwritten]
      · exact (hbindings selector.text).trans (if_pos rfl)
      · exact hfilled.other_keys other hother
      · exact (hbindings other).trans (if_neg hother)

/-- A save changes nothing under other keys, also where it fails. -/
theorem agree_run (hstore : store.Unlimited) (save : TreeSave) :
    (save.run store).2.Unlimited ∧
      ∀ key, key ≠ save.key → Agree key store (save.run store).2 := by
  cases hcompile : save.tree.compile with
  | error error =>
      rw [run_of_error hcompile]
      exact ⟨hstore, fun key _ => ⟨rfl, rfl⟩⟩
  | ok compiled =>
      obtain ⟨saved, stored, after, hrun, hdone⟩ := run_of_compile hstore save hcompile
      rw [hrun]
      exact ⟨hdone.unlimited, hdone.agree⟩

/-- Saves change nothing under keys that none of them has. -/
theorem agree_runAll (hstore : store.Unlimited) (saves : List TreeSave) :
    (runAll store saves).Unlimited ∧
      ∀ key, (∀ save ∈ saves, key ≠ save.key) → Agree key store (runAll store saves) := by
  induction saves generalizing store with
  | nil => exact ⟨hstore, fun key _ => ⟨rfl, rfl⟩⟩
  | cons save rest ih =>
      obtain ⟨hunlimited, hfirst⟩ := agree_run hstore save
      obtain ⟨hend, hrest⟩ := ih hunlimited
      refine ⟨hend, fun key hkey => ?_⟩
      rw [List.forall_mem_cons] at hkey
      have hsave := hfirst key hkey.1
      have hothers := hrest key hkey.2
      exact ⟨hothers.fetch_eq.trans hsave.fetch_eq, hothers.binding_eq.trans hsave.binding_eq⟩

theorem Holds.of_agree {stored : StoredTree} {after : TreeStore} (hholds : save.Holds stored store)
    (hagree : Agree save.key store after) : save.Holds stored after where
  fetched := hagree.fetch_eq.trans hholds.fetched
  loads catalog := (loadIf_congr hagree.fetch_eq catalog).trans (hholds.loads catalog)
  bound selector tree hsave := hagree.binding_eq.trans (hholds.bound selector tree hsave)

/-- What the last save under a key has written is there in the end. -/
theorem holds_runAll (hstore : store.Unlimited) (save : TreeSave) {compiled : CompiledTree}
    (hcompile : save.tree.compile = .ok compiled) (before : List TreeSave)
    {after : List TreeSave} (hlast : ∀ other ∈ after, save.key ≠ other.key) :
    ∃ stored, save.Holds stored (runAll store (before ++ save :: after)) := by
  obtain ⟨hbefore, -⟩ := agree_runAll hstore before
  obtain ⟨saved, stored, next, hrun, hdone⟩ := run_of_compile hbefore save hcompile
  obtain ⟨-, hafter⟩ := agree_runAll hdone.unlimited after
  have hsplit : runAll store (before ++ save :: after) = runAll next after := by
    rw [runAll, List.foldl_append, List.foldl_cons]
    exact congrArg (runAll · after) (congrArg Prod.snd hrun)
  rw [hsplit]
  exact ⟨stored, hdone.holds.of_agree (hafter save.key hlast)⟩

/-- Where the saves under two keys are one each, the first of them is the last under its
key. -/
theorem exists_last_of_perm {saves : List TreeSave} {first second : TreeSave}
    {concerns : TreeSave → Bool} (honly : (saves.filter concerns).Perm [first, second])
    (hconcerns : ∀ save : TreeSave, save.key = first.key → concerns save = true)
    (hkeys : first.key ≠ second.key) :
    ∃ before after, saves = before ++ first :: after ∧
      ∀ other ∈ after, first.key ≠ other.key := by
  have hmem : first ∈ saves := by
    have hfiltered : first ∈ saves.filter concerns := honly.mem_iff.mpr List.mem_cons_self
    exact List.mem_of_mem_filter hfiltered
  obtain ⟨before, after, rfl⟩ := List.mem_iff_append.mp hmem
  refine ⟨before, after, rfl, fun other hother hsame => ?_⟩
  rw [List.filter_append, List.filter_cons_of_pos (hconcerns first rfl)] at honly
  have hrest := (List.perm_middle.symm.trans honly).cons_inv
  have hsecond : other ∈ [second] := by
    apply hrest.mem_iff.mp
    exact List.mem_append_right _ (List.mem_filter.mpr ⟨hother, hconcerns other hsame.symm⟩)
  rw [List.mem_singleton] at hsecond
  exact hkeys (hsame.trans (congrArg key hsecond))

end TreeSave

/-! ## References -/

namespace TreeStore

/-- Whether an expression leads to the tree that was saved for a statement: it is bound to
the tree that is stored under it, and that tree is loaded as it is from a store in which
nothing else was ever saved. -/
structure Resolves (store : TreeStore) (selector : Uuid) (target : IfTree)
    (expression : String) : Prop where
  bound : ∃ stored, store.variableBinding? expression = some stored.id ∧
    store.fetch expression = .ok stored
  loads : ∀ catalog, ∃ resolved saved alone direct,
    store.loadIf expression catalog = .ok resolved ∧
    (empty none).saveStatement selector target = (.ok saved, alone) ∧
    alone.loadIf expression catalog = .ok direct ∧ resolved.equivalent direct = true

theorem resolves_of_holds {store : TreeStore} {selector : Uuid} {target : IfTree}
    {stored : StoredTree} {compiled : CompiledTree} (hcompile : target.compile = .ok compiled)
    (hholds : (TreeSave.forStatement selector target).Holds stored store) :
    store.Resolves selector target selector.text where
  bound := ⟨stored, hholds.bound selector target rfl, hholds.fetched⟩
  loads catalog := by
    obtain ⟨saved, _, alone, hsaved, hdone⟩ := TreeSave.run_of_compile
      HoldsLast.empty.unlimited (.forStatement selector target) hcompile
    exact ⟨_, saved, alone, _, hholds.loads catalog, hsaved, hdone.holds.loads catalog,
      IfTree.equivalent_refl _⟩

/-- A tree and a statement that it may point to are saved in either order, among any saves
under other keys.  The statements in the tree that is loaded are those of the decision that
it is stored as; each is one of the saved tree and points to the text of its selector, and
where it points to the saved statement, it leads to the tree of that. -/
theorem statements_resolve (writes : List Write) (saves : List TreeSave) {selector : Uuid}
    {key : String} {target tree : IfTree} {kind : TreeKind}
    {compiledTarget compiledTree : CompiledTree}
    (htarget : target.compile = .ok compiledTarget) (htree : tree.compile = .ok compiledTree)
    (hplain : ∀ value ∈ tree.values, value.PlainKey) (hkey : key ≠ selector.text)
    (hsaves : (saves.filter fun save => save.key = selector.text ∨ save.key = key).Perm
      [.forStatement selector target, .underKey key tree kind]) (catalog : Catalog) :
    let store := TreeSave.runAll ((empty none).afterWrites writes) saves
    ∃ loaded, store.loadIf key catalog = .ok loaded ∧
      loaded.statementSelectors = IfTree.statementSelectors (Tree.decision tree).tree ∧
      (∀ held other, .statement held other ∈ loaded.values →
        held = some other.text ∧ ∃ original, .statement original other ∈ tree.values) ∧
      ∀ held, .statement held selector ∈ loaded.values →
        ∃ expression, held = some expression ∧ store.Resolves selector target expression := by
  intro store
  have hstore : ((empty none).afterWrites writes).Unlimited := unlimited_afterWrites writes
  have hresolves : store.Resolves selector target selector.text := by
    obtain ⟨before, after, hsplit, hlast⟩ := TreeSave.exists_last_of_perm hsaves
      (fun save hsave => decide_eq_true (Or.inl hsave)) hkey.symm
    obtain ⟨stored, hholds⟩ := TreeSave.holds_runAll hstore (.forStatement selector target)
      htarget before hlast
    rw [← hsplit] at hholds
    exact resolves_of_holds htarget hholds
  have hloaded : store.loadIf key catalog = .ok (tree.reloaded catalog kind) := by
    obtain ⟨before, after, hsplit, hlast⟩ := TreeSave.exists_last_of_perm
      (hsaves.trans (.swap _ _ _)) (fun save hsave => decide_eq_true (Or.inr hsave)) hkey
    obtain ⟨stored, hholds⟩ := TreeSave.holds_runAll hstore (.underKey key tree kind)
      htree before hlast
    rw [← hsplit] at hholds
    exact hholds.loads catalog
  have hstatements := IfTree.statement_of_mem_reloaded catalog kind hplain
  refine ⟨_, hloaded, IfTree.statementSelectors_reloaded hplain, hstatements, ?_⟩
  intro held hmem
  exact ⟨selector.text, (hstatements held selector hmem).1, hresolves⟩

/-- The tree is saved first, and points to the statement from a condition and from a body
that contains a case.  The text of the selector has been in use for other things. -/
theorem statements_resolve_forward :
    let selector : Uuid := ⟨List.replicate 32 7, rfl⟩
    let other : Uuid := ⟨List.replicate 32 10, rfl⟩
    let target : IfTree := .returns (.literal " 7.50" none)
    let limit : Condition := ⟨.statement none selector, .greater, .literal "2e1" none⟩
    let named : Condition :=
      ⟨.variable ⟨selector.text, "", "", factScope⟩ none, .equal, .boolean true none⟩
    let tree : IfTree := .decides
      [⟨limit, .decides [⟨named, .returns (.statement (some "stale") selector)⟩]
        (.returns (.statement none other))⟩] (.returns (.literal "" none))
    let writes : List Write := [.upsertTree ⟨"old", .ifTree, .numeric⟩,
      .bindVariable selector.text 1, .upsertTree ⟨selector.text, .adjustment, .numeric⟩]
    let saves : List TreeSave := [.forStatement other tree, .underKey "price" tree .conditional,
      .forStatement other (.returns .unsupported), .forStatement selector target,
      .forStatement other target]
    let store := TreeSave.runAll ((empty none).afterWrites writes) saves
    ∃ loaded, store.loadIf "price" .empty = .ok loaded ∧
      loaded.statementSelectors = [selector, selector, other] ∧
      ∃ expression, .statement (some expression) selector ∈ loaded.values ∧
        store.Resolves selector target expression := by
  intro selector other target limit named tree writes saves store
  have htarget : target.compile.isOk = true := by decide +kernel
  have htree : tree.compile.isOk = true := by decide +kernel
  have hplain : ∀ value ∈ tree.values, value.PlainKey := by decide +kernel
  have hkey : "price" ≠ selector.text := by decide +kernel
  have hsaves : (saves.filter fun save => save.key = selector.text ∨ save.key = "price").Perm
      [.forStatement selector target, .underKey "price" tree .conditional] :=
    .swap _ _ _
  obtain ⟨compiledTarget, htarget⟩ := exists_of_isOk htarget
  obtain ⟨compiledTree, htree⟩ := exists_of_isOk htree
  obtain ⟨loaded, hloaded, hselectors, -, hresolves⟩ :=
    statements_resolve writes saves htarget htree hplain hkey hsaves .empty
  have hlisted : loaded.statementSelectors = [selector, selector, other] :=
    hselectors.trans (by decide +kernel)
  obtain ⟨held, hmem⟩ := IfTree.mem_statementSelectors_iff.mp
    (hlisted ▸ List.mem_cons_self : selector ∈ loaded.statementSelectors)
  obtain ⟨expression, rfl, hresolved⟩ := hresolves held hmem
  exact ⟨loaded, hloaded, hlisted, expression, hmem, hresolved⟩

end TreeStore

end DecisionCanvas
