import DecisionCanvas.Proofs.Store.Interruption
import DecisionCanvas.Proofs.Store.Stabilization
import DecisionCanvas.Proofs.UuidText

/-!
# Saves under names

Variables, conditionals and statements keep their trees under keys of one store.  No two of
them share a key, so what is loaded for one is what was last saved for it, as if nothing
else had ever been saved.
-/

namespace DecisionCanvas

/-! ## Keys -/

namespace Uuid

/-- A UUID begins with two digits. -/
theorem exists_text_eq (id : Uuid) :
    ∃ first second rest, id.text.toList = hexChar first :: hexChar second :: rest := by
  have hlength := id.length_digits
  rw [text, String.toList_ofList]
  cases hdigits : id.digits with
  | nil => simp [hdigits] at hlength
  | cons first others =>
      cases others with
      | nil => simp [hdigits] at hlength
      | cons second rest => exact ⟨first, second, _, rfl⟩

theorem hexChar_ne : ∀ digit : Fin 16, hexChar digit ≠ 'v' ∧ hexChar digit ≠ 'o' := by
  decide

theorem text_ne_variableKey (id : Uuid) (name : String) :
    id.text ≠ TreeStore.variableKey name := by
  intro hsame
  have hchars := congrArg String.toList hsame
  obtain ⟨first, second, rest, htext⟩ := id.exists_text_eq
  rw [htext, TreeStore.variableKey, String.toList_append] at hchars
  exact (hexChar_ne first).1 (List.cons.inj hchars).1

/-- The first character of the key of a conditional may be a digit, the second is none. -/
theorem text_ne_conditionalKey (id : Uuid) (name : String) :
    id.text ≠ TreeStore.conditionalKey name := by
  intro hsame
  have hchars := congrArg String.toList hsame
  obtain ⟨first, second, rest, htext⟩ := id.exists_text_eq
  rw [htext, TreeStore.conditionalKey, String.toList_append] at hchars
  exact (hexChar_ne second).2 (List.cons.inj (List.cons.inj hchars).2).1

end Uuid

theorem TreeStore.variableKey_ne_conditionalKey (name other : String) :
    variableKey name ≠ conditionalKey other := by
  intro hsame
  have hchars := congrArg String.toList hsame
  rw [variableKey, conditionalKey, String.toList_append, String.toList_append] at hchars
  exact absurd (List.cons.inj hchars).1 (by decide)

/-- What a tree is saved for. -/
inductive TreeName where
  | ofVariable (name : String)
  | ofConditional (name : String)
  | ofStatement (selector : Uuid)
  deriving DecidableEq

namespace TreeName

def key : TreeName → String
  | .ofVariable name => TreeStore.variableKey name
  | .ofConditional name => TreeStore.conditionalKey name
  | .ofStatement selector => selector.text

def kind : TreeName → TreeKind
  | .ofVariable _ => .numeric
  | .ofConditional _ => .conditional
  | .ofStatement _ => .numeric

/-- No two names share a key. -/
theorem key_injective : Function.Injective key := by
  intro left right hsame
  cases left with
  | ofVariable name =>
      cases right with
      | ofVariable other => simpa [key, TreeStore.variableKey] using hsame
      | ofConditional other =>
          exact absurd hsame (TreeStore.variableKey_ne_conditionalKey name other)
      | ofStatement other => exact absurd hsame.symm (other.text_ne_variableKey name)
  | ofConditional name =>
      cases right with
      | ofVariable other =>
          exact absurd hsame.symm (TreeStore.variableKey_ne_conditionalKey other name)
      | ofConditional other => simpa [key, TreeStore.conditionalKey] using hsame
      | ofStatement other => exact absurd hsame.symm (other.text_ne_conditionalKey name)
  | ofStatement selector =>
      cases right with
      | ofVariable other => exact absurd hsame (selector.text_ne_variableKey other)
      | ofConditional other => exact absurd hsame (selector.text_ne_conditionalKey other)
      | ofStatement other =>
          have hread := congrArg Uuid.ofText? hsame
          simp only [key, Uuid.ofText?_text, Option.some.injEq] at hread
          rw [hread]

end TreeName

namespace TreeStore

variable {store : TreeStore}

/-! ## One save -/

def saveNamed (store : TreeStore) (name : TreeName) (tree : IfTree) :
    Outcome SaveError SavedTree :=
  match name with
  | .ofVariable name => store.saveVariable name tree
  | .ofConditional name => store.saveConditional name tree
  | .ofStatement selector => store.saveStatement selector tree

def loadNamed (store : TreeStore) (name : TreeName) (catalog : Catalog) :
    Except LoadError IfTree :=
  match name with
  | .ofVariable name => store.loadVariable name catalog
  | .ofConditional name => store.loadConditional name catalog
  | .ofStatement selector => store.loadIf selector.text catalog

/-- The write that binds a name to its tree. -/
def bindNamed (store : TreeStore) (name : TreeName) (tree : Int) : Outcome StoreError Unit :=
  match name with
  | .ofVariable name => store.bindVariable name tree
  | .ofConditional name => store.bindConditional name tree
  | .ofStatement selector => store.bindVariable selector.text tree

theorem saveNamed_eq (store : TreeStore) (name : TreeName) (tree : IfTree) :
    store.saveNamed name tree =
      thenWrite (store.saveIf name.key tree name.kind) fun store id =>
        store.bindNamed name id := by
  cases name <;> rfl

theorem loadNamed_eq (store : TreeStore) (name : TreeName) (catalog : Catalog) :
    store.loadNamed name catalog = store.loadIf name.key catalog := by
  cases name <;> rfl

/-- A tree that does not compile is not written. -/
theorem saveNamed_of_error {name : TreeName} {tree : IfTree} {error : CompileError}
    (hcompile : tree.compile = .error error) :
    store.saveNamed name tree = (.error (.compile error), store) := by
  rw [saveNamed_eq, saveIf, hcompile]
  rfl

theorem requireTree_eq {tree : Int} {held : StoredTree} (hheld : store.tree? tree = some held) :
    store.requireTree tree = .ok () := by
  rw [requireTree, if_pos]
  exact Option.isSome_iff_exists.mpr ⟨held, hheld⟩

section Bindings

variable (hstore : store.Unlimited) {tree : Int} {held : StoredTree}
variable (hheld : store.tree? tree = some held)
include hstore hheld

theorem bindVariable_eq (key : String) :
    store.bindVariable key tree = (.ok (), { store.tick with
      variableBindings := store.variableBindings.insert key tree }) := by
  have hstored : store.tick.requireTree tree = .ok () := requireTree_eq hheld
  apply counted_ok (hasRoom_of_unlimited hstore.budget_eq 1).not_spent
  simp only [hstored]
  rfl

theorem bindConditional_eq (key : String) :
    store.bindConditional key tree = (.ok (), { store.tick with
      conditionalBindings := store.conditionalBindings.insert key tree }) := by
  have hstored : store.tick.requireTree tree = .ok () := requireTree_eq hheld
  apply counted_ok (hasRoom_of_unlimited hstore.budget_eq 1).not_spent
  simp only [hstored]
  rfl

/-- A stored tree can be bound, which changes no tree, and of the conditionals only the one
that is bound. -/
theorem bindNamed_eq (name : TreeName) :
    ∃ after, store.bindNamed name tree = (.ok (), after) ∧ after.Unlimited ∧
      after.fetch = store.fetch ∧
      ∀ other, after.conditionalBinding? other =
        if name = .ofConditional other then some tree else store.conditionalBinding? other := by
  have hvariable : ∀ key, Unlimited { store.tick with
      variableBindings := store.variableBindings.insert key tree } := by
    intro key
    have hleads := store.leadsTo_afterWrite (.bindVariable key tree)
    rw [afterWrite, bindVariable_eq hstore hheld] at hleads
    exact hleads.unlimited hstore
  cases name with
  | ofVariable name =>
      exact ⟨_, bindVariable_eq hstore hheld name, hvariable name, rfl, fun other => rfl⟩
  | ofStatement selector =>
      exact ⟨_, bindVariable_eq hstore hheld selector.text, hvariable selector.text, rfl,
        fun other => rfl⟩
  | ofConditional name =>
      have hleads := store.leadsTo_afterWrite (.bindConditional name tree)
      rw [afterWrite, bindConditional_eq hstore hheld] at hleads
      refine ⟨_, bindConditional_eq hstore hheld name, hleads.unlimited hstore, rfl,
        fun other => ?_⟩
      rw [conditionalBinding?, Directory.get?_insert]
      by_cases hother : other = name
      · rw [if_pos hother, if_pos (congrArg _ hother.symm)]
      · rw [if_neg hother, if_neg fun hsame => hother (TreeName.ofConditional.inj hsame).symm]
        rfl

end Bindings

/-- What is loaded depends on what is fetched only. -/
theorem loadIf_congr {after : TreeStore} {key : String}
    (hfetch : after.fetch key = store.fetch key) (catalog : Catalog) :
    after.loadIf key catalog = store.loadIf key catalog := by
  simp only [loadIf, fetchTyped, hfetch]

/-- What a save under a key comes to that succeeded. -/
structure SavedUnder (store : TreeStore) (key : String) (tree : IfTree) (kind : TreeKind)
    (stored : StoredTree) (after : TreeStore) : Prop where
  unlimited : after.Unlimited
  held : after.tree? stored.id = some stored
  fetched : after.fetch key = .ok stored
  loads : ∀ catalog, after.loadIf key catalog = .ok (tree.reloaded catalog kind)
  other_keys : ∀ other, other ≠ key → after.fetch other = store.fetch other
  variableBinding? : after.variableBinding? = store.variableBinding?
  conditionalBinding? : after.conditionalBinding? = store.conditionalBinding?

/-- Any tree that compiles can be saved under any key. -/
theorem saveIf_of_compile (hstore : store.Unlimited) {tree : IfTree}
    {compiled : CompiledTree} (hcompile : tree.compile = .ok compiled) (key : String)
    (kind : TreeKind) :
    ∃ saved stored after, store.saveIf key tree kind = (.ok saved, after) ∧
      saved.tree = stored.id ∧ store.SavedUnder key tree kind stored after := by
  have hroom := hasRoom_of_unlimited hstore.budget_eq
    (1 + compiled.expressions.length + compiled.branches.length)
  let record : TreeRecord := ⟨key, .ifTree, kind⟩
  obtain ⟨opened, hopened, hpersist⟩ := persist_eq hstore.toIntegrity
    (IfTree.layered_of_compile hcompile) hroom record
  let content := compiled.stored store.lastExpression
  let id := store.treeFor key
  let filled := opened.grow id content.expressions content.branches
  have hsaved : store.saveIf key tree kind =
      (.ok ⟨id, compiled.durableIds store.lastExpression⟩, filled) := by
    rw [saveIf, hcompile]
    exact hpersist
  have hleads := store.leadsTo_saveIf key tree kind
  rw [hsaved] at hleads
  let stored : StoredTree := ⟨id, record, content.expressions, content.branches⟩
  have hfetched : filled.fetch key = .ok stored :=
    hopened.fetch_grow content.expressions content.branches
  refine ⟨_, stored, filled, hsaved, rfl, ?_⟩
  exact {
    unlimited := hleads.unlimited hstore
    held := opened.tree?_grow_self id content.expressions content.branches hopened.tree?_self
    fetched := hfetched
    loads := fun catalog => loadIf_of_fetch hfetched rfl
      (IfTree.rebuildIf_stored hcompile hstore.last_expression_nonneg catalog kind)
    other_keys := fun other hother =>
      hopened.fetch_grow_other hstore.toIntegrity content.expressions content.branches hother
    variableBinding? := congrArg Directory.get? hopened.variableBindings
    conditionalBinding? := congrArg Directory.get? hopened.conditionalBindings }

/-- What a save under a name comes to that succeeded. -/
structure SavedAs (store : TreeStore) (name : TreeName) (tree : IfTree) (after : TreeStore) :
    Prop where
  unlimited : after.Unlimited
  loads : ∀ catalog, after.loadNamed name catalog = .ok (tree.reloaded catalog name.kind)
  other_keys : ∀ key, key ≠ name.key → after.fetch key = store.fetch key
  bound : ∃ stored, after.fetch name.key = .ok stored ∧ ∀ other,
    after.conditionalBinding? other =
      if name = .ofConditional other then some stored.id else store.conditionalBinding? other

/-- Any tree that compiles can be saved under any name. -/
theorem saveNamed_of_compile (hstore : store.Unlimited) {tree : IfTree}
    {compiled : CompiledTree} (hcompile : tree.compile = .ok compiled) (name : TreeName) :
    ∃ saved after, store.saveNamed name tree = (.ok saved, after) ∧
      store.SavedAs name tree after := by
  obtain ⟨saved, stored, filled, hsaved, htree, hfilled⟩ :=
    saveIf_of_compile hstore hcompile name.key name.kind
  obtain ⟨after, hbound, hunlimited, hfetch, hbindings⟩ :=
    bindNamed_eq hfilled.unlimited hfilled.held name
  refine ⟨saved, after, ?_, hunlimited, fun catalog => ?_, fun key hkey => ?_, ?_⟩
  · simp only [saveNamed_eq, thenWrite, hsaved, htree]
    rw [hbound]
  · rw [loadNamed_eq, loadIf_congr (congrFun hfetch name.key)]
    exact hfilled.loads catalog
  · rw [hfetch]
    exact hfilled.other_keys key hkey
  · refine ⟨stored, (congrFun hfetch name.key).trans hfilled.fetched, fun other => ?_⟩
    rw [hbindings other, hfilled.conditionalBinding?]

/-! ## Any saves -/

/-- The store after saves were tried one after another. -/
def afterSaves (store : TreeStore) (saves : List (TreeName × IfTree)) : TreeStore :=
  saves.foldl (fun store save => (store.saveNamed save.1 save.2).2) store

/-- The saves that succeed when they are tried one after another. -/
def succeeded (store : TreeStore) : List (TreeName × IfTree) → List (TreeName × IfTree)
  | [] => []
  | save :: rest =>
    match store.saveNamed save.1 save.2 with
    | (.ok _, next) => save :: next.succeeded rest
    | (.error _, next) => next.succeeded rest

/-- The tree that was saved last for a name. -/
def lastFor (name : TreeName) (saves : List (TreeName × IfTree)) : Option IfTree :=
  saves.reverse.lookup name

theorem lastFor_append (name other : TreeName) (tree : IfTree)
    (saves : List (TreeName × IfTree)) :
    lastFor other (saves ++ [(name, tree)]) =
      if other = name then some tree else lastFor other saves := by
  rw [lastFor, List.reverse_append, List.reverse_singleton, List.singleton_append,
    List.lookup_cons]
  by_cases hother : other = name
  · simp [hother]
  · simp [hother, beq_false_of_ne hother, lastFor]

/-- A store in which every name has the tree that was saved last for it, if there is one,
and the conditionals that have a tree are bound to theirs. -/
structure HoldsLast (store : TreeStore) (saved : List (TreeName × IfTree)) : Prop where
  unlimited : store.Unlimited
  loads : ∀ name tree, lastFor name saved = some tree → ∀ catalog,
    store.loadNamed name catalog = .ok (tree.reloaded catalog name.kind)
  missing : ∀ name, lastFor name saved = none →
    store.fetch name.key = .error (.notFound name.key)
  bound : ∀ name, store.conditionalBinding? name =
    (store.fetch (conditionalKey name)).toOption.map StoredTree.id

namespace HoldsLast

variable {saved : List (TreeName × IfTree)}

theorem empty : (TreeStore.empty none).HoldsLast [] where
  unlimited := ⟨Integrity.empty none, rfl⟩
  loads _ _ hlast := absurd hlast (by simp [lastFor])
  missing _ _ := rfl
  bound _ := rfl

/-- A save changes what is held for its name only. -/
theorem savedAs (hstore : store.HoldsLast saved) {name : TreeName} {tree : IfTree}
    {after : TreeStore} (hsaved : store.SavedAs name tree after) :
    after.HoldsLast (saved ++ [(name, tree)]) where
  unlimited := hsaved.unlimited
  loads other last hlast catalog := by
    rw [lastFor_append] at hlast
    split at hlast
    · rename_i hother
      rw [hother, ← Option.some.inj hlast]
      exact hsaved.loads catalog
    · rename_i hother
      have hkey := hsaved.other_keys other.key (TreeName.key_injective.ne hother)
      rw [loadNamed_eq, loadIf_congr hkey, ← loadNamed_eq]
      exact hstore.loads other last hlast catalog
  missing other hlast := by
    rw [lastFor_append] at hlast
    split at hlast
    · exact absurd hlast (by simp)
    · rename_i hother
      rw [hsaved.other_keys other.key (TreeName.key_injective.ne hother)]
      exact hstore.missing other hlast
  bound other := by
    obtain ⟨stored, hfetched, hbound⟩ := hsaved.bound
    rw [hbound]
    split
    · rename_i hother
      rw [hother] at hfetched
      rw [show conditionalKey other = (TreeName.ofConditional other).key from rfl, hfetched]
      rfl
    · rename_i hother
      have hkey : conditionalKey other ≠ name.key :=
        TreeName.key_injective.ne fun hname => hother hname.symm
      rw [hsaved.other_keys _ hkey]
      exact hstore.bound other

/-- Saves keep for every name what was saved last. -/
theorem afterSaves (hstore : store.HoldsLast saved) (saves : List (TreeName × IfTree)) :
    (store.afterSaves saves).HoldsLast (saved ++ store.succeeded saves) := by
  induction saves generalizing store saved with
  | nil =>
      rw [succeeded, List.append_nil]
      exact hstore
  | cons save rest ih =>
      cases hcompile : save.2.compile with
      | error error =>
          have hrefused : store.saveNamed save.1 save.2 = (.error (.compile error), store) :=
            saveNamed_of_error hcompile
          rw [TreeStore.afterSaves, List.foldl_cons, succeeded, hrefused]
          exact ih hstore
      | ok compiled =>
          obtain ⟨result, after, hsave, hsaved⟩ :=
            saveNamed_of_compile hstore.unlimited hcompile save.1
          have hrest := ih (hstore.savedAs hsaved)
          rw [List.append_assoc] at hrest
          rw [TreeStore.afterSaves, List.foldl_cons, succeeded, hsave]
          exact hrest

end HoldsLast

theorem lastFor_eq_none_iff {name : TreeName} {saves : List (TreeName × IfTree)} :
    lastFor name saves = none ↔ ∀ tree, (name, tree) ∉ saves := by
  rw [lastFor, List.lookup_eq_none_iff]
  constructor
  · intro hnone tree hmem
    exact absurd (hnone (name, tree) (List.mem_reverse.mpr hmem)) (by simp)
  · rintro hnone ⟨other, tree⟩ hmem
    rw [bne_iff_ne]
    rintro rfl
    exact hnone tree (List.mem_reverse.mp hmem)

theorem mem_of_lastFor {name : TreeName} {tree : IfTree} {saves : List (TreeName × IfTree)}
    (hlast : lastFor name saves = some tree) : (name, tree) ∈ saves := by
  obtain ⟨later, earlier, hsaves, -⟩ := List.lookup_eq_some_iff.mp hlast
  rw [← List.mem_reverse, hsaves]
  exact List.mem_append_right _ List.mem_cons_self

/-- Only trees that compile are saved. -/
theorem exists_compile_of_succeeded {saves : List (TreeName × IfTree)}
    {save : TreeName × IfTree} (hsave : save ∈ store.succeeded saves) :
    ∃ compiled, save.2.compile = .ok compiled := by
  induction saves generalizing store with
  | nil => exact absurd hsave List.not_mem_nil
  | cons first rest ih =>
      rw [succeeded] at hsave
      rcases hfirst : store.saveNamed first.1 first.2 with ⟨answer, next⟩
      rw [hfirst] at hsave
      cases answer with
      | error error => exact ih hsave
      | ok result =>
          obtain rfl | hsave := List.mem_cons.mp hsave
          · cases hcompile : save.2.compile with
            | ok compiled => exact ⟨compiled, rfl⟩
            | error error =>
                rw [saveNamed_of_error hcompile] at hfirst
                exact absurd hfirst (by simp)
          · exact ih hsave

theorem exists_fetch_of_loadIf {key : String} {catalog : Catalog} {loaded : IfTree}
    (hloaded : store.loadIf key catalog = .ok loaded) : ∃ stored, store.fetch key = .ok stored := by
  cases hfetch : store.fetch key with
  | ok stored => exact ⟨stored, rfl⟩
  | error error => simp [loadIf, fetchTyped, hfetch] at hloaded

/-- Exactly the conditionals that were saved are bound to the tree that is stored for
them. -/
theorem HoldsLast.bound_iff {saved : List (TreeName × IfTree)} (hstore : store.HoldsLast saved)
    (name : String) :
    (∃ stored, store.fetch (conditionalKey name) = .ok stored ∧
        store.conditionalBinding? name = some stored.id) ↔
      ∃ tree, (.ofConditional name, tree) ∈ saved := by
  constructor
  · rintro ⟨stored, hfetch, -⟩
    by_contra hnever
    rw [not_exists] at hnever
    have hmissing := hstore.missing _ (lastFor_eq_none_iff.mpr hnever)
    rw [TreeName.key, hfetch] at hmissing
    exact absurd hmissing (by simp)
  · rintro ⟨tree, hmem⟩
    cases hlast : lastFor (.ofConditional name) saved with
    | none => exact absurd hmem (lastFor_eq_none_iff.mp hlast tree)
    | some last =>
        have hloads := hstore.loads _ last hlast .empty
        rw [loadNamed_eq] at hloads
        obtain ⟨stored, hfetch⟩ := exists_fetch_of_loadIf hloads
        rw [TreeName.key] at hfetch
        refine ⟨stored, hfetch, ?_⟩
        rw [hstore.bound, hfetch]
        rfl

/-- Whatever was saved for which names, what is loaded for a name is what is loaded from a
store in which only the last save for it that succeeded was made, or there is nothing if
none did.  A conditional is bound to the tree that is stored for it exactly if a save for it
has succeeded. -/
theorem loadNamed_afterSaves (saves : List (TreeName × IfTree)) (catalog : Catalog) :
    let store := (empty none).afterSaves saves
    let saved := (empty none).succeeded saves
    (∀ name,
      match lastFor name saved with
      | some tree => ∃ loaded alone result after,
          store.loadNamed name catalog = .ok loaded ∧
          (empty none).saveNamed name tree = (.ok result, after) ∧
          after.loadNamed name catalog = .ok alone ∧ loaded.equivalent alone = true
      | none => store.loadNamed name catalog = .error (.store (.notFound name.key))) ∧
    ∀ name,
      (∃ stored, store.fetch (conditionalKey name) = .ok stored ∧
        store.conditionalBinding? name = some stored.id) ↔
      ∃ tree, (.ofConditional name, tree) ∈ saved := by
  intro store saved
  have hstore : store.HoldsLast saved := HoldsLast.empty.afterSaves saves
  refine ⟨fun name => ?_, hstore.bound_iff⟩
  cases hlast : lastFor name saved with
  | some tree =>
      obtain ⟨compiled, hcompile⟩ := exists_compile_of_succeeded (mem_of_lastFor hlast)
      obtain ⟨result, after, hsave, halone⟩ :=
        saveNamed_of_compile HoldsLast.empty.unlimited hcompile name
      exact ⟨_, _, result, after, hstore.loads name tree hlast catalog, hsave,
        halone.loads catalog, IfTree.equivalent_refl _⟩
  | none =>
      have hmissing := hstore.missing name hlast
      simp only [loadNamed_eq, loadIf, fetchTyped, hmissing]

end TreeStore

end DecisionCanvas
