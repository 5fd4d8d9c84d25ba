import DecisionCanvas.Proofs.Compiled.Stabilization
import DecisionCanvas.Proofs.Store.Histories
import DecisionCanvas.Proofs.Store.RoundTrip

/-!
# Saving and loading again and again

A tree that can be saved is loaded as one that can be saved again.  From the second time
on the loaded trees are equivalent, and from the first time on if the catalog has plain
keys only.
-/

namespace DecisionCanvas

namespace IfTree

variable {catalog : Catalog} {kind : TreeKind} {tree : IfTree}

/-- A tree whose values can all be stored, now and after they were read back. -/
def Storable (tree : IfTree) : Prop :=
  ∀ value ∈ tree.values, value.Storable

theorem storable_of_compile {compiled : CompiledTree} (hcompile : tree.compile = .ok compiled)
    (hreads : ∀ value ∈ tree.values, value.ReadsBack) : tree.Storable := by
  intro value hvalue
  exact ⟨compiles_iff.mp ⟨compiled, hcompile⟩ value hvalue, hreads value hvalue⟩

theorem Storable.compiles (hstorable : tree.Storable) :
    ∃ compiled, tree.compile = .ok compiled :=
  compiles_iff.mpr fun value hvalue => (hstorable value hvalue).fault?_eq

theorem Storable.reloaded (hstorable : tree.Storable) (catalog : Catalog) (kind : TreeKind) :
    (tree.reloaded catalog kind).Storable :=
  forall_values_reloaded (fun _ alone hvalue => hvalue.reread catalog kind alone) hstorable

/-- Whatever was read back twice stays. -/
theorem Storable.equivalent_reloaded (hstorable : tree.Storable) (catalog : Catalog)
    (kind : TreeKind) :
    let first := tree.reloaded catalog kind
    let second := first.reloaded catalog kind
    equivalent (second.reloaded catalog kind) second = true := by
  apply reloaded_reloaded_equivalent
  refine forall_values_reloaded ?_ hstorable
  intro value first hvalue alone
  exact Value.steady_reread_reread hvalue first

theorem Storable.equivalent_reloaded_of_plainKeys (hstorable : tree.Storable)
    (hplain : catalog.PlainKeys) (kind : TreeKind) :
    let first := tree.reloaded catalog kind
    equivalent (first.reloaded catalog kind) first = true := by
  apply reloaded_reloaded_equivalent
  intro value hvalue alone
  exact Value.steady_reread_of_plainKeys hplain (hstorable value hvalue)

end IfTree

namespace AdjustmentTree

variable {catalog : Catalog} {tree : AdjustmentTree}

/-- A tree whose values can all be stored, now and after they were read back. -/
def Storable (tree : AdjustmentTree) : Prop :=
  ∀ value ∈ tree.values, value.Storable

theorem storable_of_compile {compiled : CompiledTree} (hcompile : tree.compile = .ok compiled)
    (hreads : ∀ value ∈ tree.values, value.ReadsBack) : tree.Storable := by
  intro value hvalue
  exact ⟨compiles_iff.mp ⟨compiled, hcompile⟩ value hvalue, hreads value hvalue⟩

theorem Storable.compiles (hstorable : tree.Storable) :
    ∃ compiled, tree.compile = .ok compiled :=
  compiles_iff.mpr fun value hvalue => (hstorable value hvalue).fault?_eq

theorem Storable.reloaded (hstorable : tree.Storable) (catalog : Catalog) :
    (tree.reloaded catalog).Storable :=
  forall_values_reloaded (fun _ alone hvalue => hvalue.reread catalog .numeric alone) hstorable

/-- Whatever was read back twice stays. -/
theorem Storable.equivalent_reloaded (hstorable : tree.Storable) (catalog : Catalog) :
    let first := tree.reloaded catalog
    let second := first.reloaded catalog
    equivalent (second.reloaded catalog) second = true := by
  apply reloaded_reloaded_equivalent
  refine forall_values_reloaded ?_ hstorable
  intro value first hvalue alone
  exact Value.steady_reread_reread hvalue first

theorem Storable.equivalent_reloaded_of_plainKeys (hstorable : tree.Storable)
    (hplain : catalog.PlainKeys) :
    let first := tree.reloaded catalog
    equivalent (first.reloaded catalog) first = true := by
  apply reloaded_reloaded_equivalent
  intro value hvalue alone
  exact Value.steady_reread_of_plainKeys hplain (hstorable value hvalue)

end AdjustmentTree

namespace TreeStore

/-- Whether a tree that is saved under a key is loaded as another one, and what store is
left. -/
def ReloadsIf (store : TreeStore) (key : String) (kind : TreeKind) (catalog : Catalog)
    (tree loaded : IfTree) (after : TreeStore) : Prop :=
  ∃ saved, store.saveIf key tree kind = (.ok saved, after) ∧
    after.loadIf key catalog = .ok loaded

/-- Whether an adjustment tree that is saved under a key is loaded as another one, and what
store is left. -/
def ReloadsAdjustment (store : TreeStore) (key : String) (catalog : Catalog)
    (tree loaded : AdjustmentTree) (after : TreeStore) : Prop :=
  ∃ saved, store.saveAdjustment key tree = (.ok saved, after) ∧
    after.loadAdjustment key catalog = .ok loaded

/-- A store with integrity that takes any number of writes. -/
structure Unlimited (store : TreeStore) : Prop extends Integrity store where
  budget_eq : store.budget = none

theorem LeadsTo.unlimited {store later : TreeStore} (hleads : store.LeadsTo later)
    (hstore : store.Unlimited) : later.Unlimited where
  toIntegrity := hleads.integrity hstore.toIntegrity
  budget_eq := hleads.budget_eq.trans hstore.budget_eq

theorem unlimited_afterWrites (writes : List Write) :
    ((empty none).afterWrites writes).Unlimited :=
  LeadsTo.unlimited ⟨writes, rfl⟩ ⟨Integrity.empty none, rfl⟩

section Reload

variable {store : TreeStore} (hstore : store.Unlimited) (key : String) (catalog : Catalog)
include hstore

theorem reloadsIf (kind : TreeKind) {tree : IfTree} (hstorable : tree.Storable) :
    ∃ after, store.ReloadsIf key kind catalog tree (tree.reloaded catalog kind) after ∧
      after.Unlimited := by
  obtain ⟨compiled, hcompile⟩ := hstorable.compiles
  obtain ⟨saved, after, hsaved, hloaded⟩ := saveIf_loadIf hstore.toIntegrity hcompile
    (hasRoom_of_unlimited hstore.budget_eq _) key kind
  have hleads := store.leadsTo_saveIf key tree kind
  rw [hsaved] at hleads
  exact ⟨after, ⟨saved, hsaved, hloaded catalog⟩, hleads.unlimited hstore⟩

theorem reloadsAdjustment {tree : AdjustmentTree} (hstorable : tree.Storable) :
    ∃ after, store.ReloadsAdjustment key catalog tree (tree.reloaded catalog) after ∧
      after.Unlimited := by
  obtain ⟨compiled, hcompile⟩ := hstorable.compiles
  obtain ⟨saved, after, hsaved, hloaded⟩ := saveAdjustment_loadAdjustment hstore.toIntegrity
    hcompile (hasRoom_of_unlimited hstore.budget_eq _) key
  have hleads := store.leadsTo_saveAdjustment key tree
  rw [hsaved] at hleads
  exact ⟨after, ⟨saved, hsaved, hloaded catalog⟩, hleads.unlimited hstore⟩

end Reload

/-- A tree that compiles, and whose numbers are read from the texts they are written as, can
be saved and loaded three times in a row, after any writes.  The third time it is loaded as
the second time, and with plain keys in the catalog the second time as the first. -/
theorem save_load_stabilizes (writes : List Write) (key : String) (catalog : Catalog) :
    let store := (empty none).afterWrites writes
    (∀ (tree : IfTree) (kind : TreeKind) (compiled : CompiledTree),
      tree.compile = .ok compiled → (∀ value ∈ tree.values, value.ReadsBack) →
      ∃ first second third afterFirst afterSecond afterThird,
        store.ReloadsIf key kind catalog tree first afterFirst ∧
        afterFirst.ReloadsIf key kind catalog first second afterSecond ∧
        afterSecond.ReloadsIf key kind catalog second third afterThird ∧
        third.equivalent second = true ∧
        (catalog.PlainKeys → second.equivalent first = true)) ∧
    ∀ (tree : AdjustmentTree) (compiled : CompiledTree),
      tree.compile = .ok compiled → (∀ value ∈ tree.values, value.ReadsBack) →
      ∃ first second third afterFirst afterSecond afterThird,
        store.ReloadsAdjustment key catalog tree first afterFirst ∧
        afterFirst.ReloadsAdjustment key catalog first second afterSecond ∧
        afterSecond.ReloadsAdjustment key catalog second third afterThird ∧
        third.equivalent second = true ∧
        (catalog.PlainKeys → second.equivalent first = true) := by
  intro store
  have hstore : store.Unlimited := unlimited_afterWrites writes
  constructor
  · intro tree kind compiled hcompile hreads
    have htree := IfTree.storable_of_compile hcompile hreads
    have hfirst := htree.reloaded catalog kind
    have hsecond := hfirst.reloaded catalog kind
    obtain ⟨afterFirst, hreloadFirst, hstore⟩ := reloadsIf hstore key catalog kind htree
    obtain ⟨afterSecond, hreloadSecond, hstore⟩ := reloadsIf hstore key catalog kind hfirst
    obtain ⟨afterThird, hreloadThird, -⟩ := reloadsIf hstore key catalog kind hsecond
    exact ⟨_, _, _, afterFirst, afterSecond, afterThird, hreloadFirst, hreloadSecond,
      hreloadThird, htree.equivalent_reloaded catalog kind,
      fun hplain => htree.equivalent_reloaded_of_plainKeys hplain kind⟩
  · intro tree compiled hcompile hreads
    have htree := AdjustmentTree.storable_of_compile hcompile hreads
    have hfirst := htree.reloaded catalog
    have hsecond := hfirst.reloaded catalog
    obtain ⟨afterFirst, hreloadFirst, hstore⟩ := reloadsAdjustment hstore key catalog htree
    obtain ⟨afterSecond, hreloadSecond, hstore⟩ := reloadsAdjustment hstore key catalog hfirst
    obtain ⟨afterThird, hreloadThird, -⟩ := reloadsAdjustment hstore key catalog hsecond
    exact ⟨_, _, _, afterFirst, afterSecond, afterThird, hreloadFirst, hreloadSecond,
      hreloadThird, htree.equivalent_reloaded catalog,
      fun hplain => htree.equivalent_reloaded_of_plainKeys hplain⟩

/-- The catalog moves one variable into another scope and does not know the other. -/
theorem save_load_stabilizes_rescoped :
    let catalog : Catalog := ⟨[("age", ⟨"f-age", "number", "order"⟩)]⟩
    let age : Value := .variable ⟨"age", "", "", factScope⟩ none
    let gone : Value := .variable ⟨"gone", "f-gone", "number", factScope⟩ none
    let inner : IfTree :=
      .decides [⟨⟨gone, .equal, .boolean true none⟩, .returns (.literal "1e3" none)⟩]
        (.returns gone)
    let tree : IfTree :=
      .decides [⟨⟨age, .atLeast, .literal " 18.50" none⟩, inner⟩] (.returns (.literal "" none))
    let adjustments : AdjustmentTree :=
      .returns [⟨.times, .literal "1.10" none⟩, ⟨.plus, gone⟩]
    let store := (empty none).afterWrites [.upsertTree ⟨"price", .adjustment, .numeric⟩]
    (∃ first second third afterFirst afterSecond afterThird,
      store.ReloadsIf "price" .conditional catalog tree first afterFirst ∧
      afterFirst.ReloadsIf "price" .conditional catalog first second afterSecond ∧
      afterSecond.ReloadsIf "price" .conditional catalog second third afterThird ∧
      third.equivalent second = true ∧ second.equivalent first = true) ∧
    ∃ first second third afterFirst afterSecond afterThird,
      store.ReloadsAdjustment "price" catalog adjustments first afterFirst ∧
      afterFirst.ReloadsAdjustment "price" catalog first second afterSecond ∧
      afterSecond.ReloadsAdjustment "price" catalog second third afterThird ∧
      third.equivalent second = true ∧ second.equivalent first = true := by
  intro catalog age gone inner tree adjustments store
  have hcompile : tree.compile.isOk = true := by decide +kernel
  have hcompileAdjustments : adjustments.compile.isOk = true := by decide +kernel
  have hreads : ∀ value ∈ tree.values, value.ReadsBack := by decide +kernel
  have hreadsAdjustments : ∀ value ∈ adjustments.values, value.ReadsBack := by decide +kernel
  have hplain : catalog.PlainKeys := by
    unfold Catalog.PlainKeys
    decide
  obtain ⟨compiled, hresult⟩ := exists_of_isOk hcompile
  obtain ⟨compiledAdjustments, hresultAdjustments⟩ := exists_of_isOk hcompileAdjustments
  obtain ⟨hifTrees, hadjustments⟩ := save_load_stabilizes
    [.upsertTree ⟨"price", .adjustment, .numeric⟩] "price" catalog
  obtain ⟨first, second, third, afterFirst, afterSecond, afterThird, hfirst, hsecond, hthird,
    hlast, honce⟩ := hifTrees tree .conditional compiled hresult hreads
  obtain ⟨firstList, secondList, thirdList, afterFirstList, afterSecondList, afterThirdList,
    hfirstList, hsecondList, hthirdList, hlastList, honceList⟩ :=
      hadjustments adjustments compiledAdjustments hresultAdjustments hreadsAdjustments
  exact ⟨⟨first, second, third, afterFirst, afterSecond, afterThird, hfirst, hsecond, hthird,
      hlast, honce hplain⟩,
    firstList, secondList, thirdList, afterFirstList, afterSecondList, afterThirdList,
    hfirstList, hsecondList, hthirdList, hlastList, honceList hplain⟩

end TreeStore

end DecisionCanvas
