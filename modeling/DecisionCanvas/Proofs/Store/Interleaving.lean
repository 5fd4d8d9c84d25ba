import DecisionCanvas.Proofs.Store.Filling

/-!
# Interleaved saves

Saves under different keys may take turns, write by write, in any order.  None of them
changes what is stored under the key of another, so each ends as if it were alone; only the
ids that the store gives out are others.
-/

namespace DecisionCanvas

namespace TreeStore

variable {store : TreeStore}

/-! ## Calls -/

/-- What is left of a save of a compiled tree after so many calls. -/
inductive Progress (store : TreeStore) (record : TreeRecord) (compiled : CompiledTree) :
    Nat → Script → Prop
  | waiting : Progress store record compiled 0 (.persist record compiled)
  | filling {taken : Nat} {held : StoredTree} {script : Script}
      (hfetch : store.fetch record.key = .ok held) (hrecord : held.record = record)
      (hfills : script.Fills compiled held
        (compiled.expressions.length + compiled.branches.length - taken)) :
      Progress store record compiled (taken + 1) script

namespace Progress

variable {record : TreeRecord} {compiled : CompiledTree} {taken : Nat} {script : Script}

/-- Progress depends on the tree under the own key only. -/
theorem congr (hprogress : store.Progress record compiled taken script) {after : TreeStore}
    (hfetch : after.fetch record.key = store.fetch record.key) :
    after.Progress record compiled taken script := by
  cases hprogress with
  | waiting => exact .waiting
  | filling hown hrecord hfills => exact .filling (hfetch.trans hown) hrecord hfills

variable (hstore : store.Unlimited) (hcompiled : compiled.Layered)
include hstore hcompiled

/-- One call makes progress and changes nothing under other keys. -/
theorem step (hprogress : store.Progress record compiled taken script) :
    (script.step store).2.Progress record compiled (taken + 1) (script.step store).1 ∧
      ∀ key, key ≠ record.key → (script.step store).2.fetch key = store.fetch key := by
  cases hprogress with
  | waiting =>
      obtain ⟨opened, hanswer, hopened⟩ := upsertTree_eq hstore.toIntegrity
        (hasRoom_of_unlimited hstore.budget_eq 1) record
      have hcheck := CompiledTree.check_eq_ok_iff.mpr hcompiled.toSelfContained
      have hstep : (Script.persist record compiled).step store =
          (.fill (store.treeFor record.key) compiled, opened) := by
        rw [Script.persist, hcheck]
        simp only [Script.step, hanswer]
        rfl
      have hfetch := hopened.fetch_grow [] []
      rw [grow_nil] at hfetch
      rw [hstep]
      constructor
      · exact .filling hfetch rfl (Script.fills_fill hcompiled _ record)
      · intro key hkey
        have hother := hopened.fetch_grow_other hstore.toIntegrity [] [] hkey
        rw [grow_nil] at hother
        exact hother
  | filling hfetch hrecord hfills =>
      have hheld := ((fetch_eq_ok_iff hstore.toIntegrity).mp hfetch).2
      obtain ⟨expressions, branches, next, hstep, hnext⟩ := step_of_fills hstore hheld hfills
      rw [Nat.sub_sub] at hnext
      rw [hstep]
      constructor
      · exact .filling (fetch_grow_self hstore.toIntegrity hfetch expressions branches)
          hrecord hnext
      · intro key hkey
        exact fetch_grow_other hstore.toIntegrity hfetch expressions branches hkey

omit hstore in
theorem ne_error (hprogress : store.Progress record compiled taken script)
    (error : SaveError) : script ≠ .done (.error error) := by
  cases hprogress with
  | waiting =>
      have hcheck := CompiledTree.check_eq_ok_iff.mpr hcompiled.toSelfContained
      simp [Script.persist, hcheck]
  | filling hfetch hrecord hfills => exact hfills.ne_error error

omit hstore in
/-- A save is done after as many calls as the tree has parts, and one for the tree. -/
theorem done_iff (hprogress : store.Progress record compiled taken script) :
    (∃ saved, script = .done (.ok saved)) ↔
      1 + compiled.expressions.length + compiled.branches.length ≤ taken := by
  cases hprogress with
  | waiting =>
      have hcheck := CompiledTree.check_eq_ok_iff.mpr hcompiled.toSelfContained
      simp [Script.persist, hcheck]
  | filling hfetch hrecord hfills =>
      rw [hfills.done_iff]
      omega

omit hstore hcompiled in
/-- After all calls the compiled tree is stored under the key. -/
theorem describes (hprogress : store.Progress record compiled taken script)
    (hcalls : 1 + compiled.expressions.length + compiled.branches.length ≤ taken) :
    ∃ (held : StoredTree) (saved : SavedTree), store.fetch record.key = .ok held ∧
      held.record = record ∧ saved.Describes compiled held := by
  cases hprogress with
  | waiting => omega
  | @filling taken held _ hfetch hrecord hfills =>
      have hleft : compiled.expressions.length + compiled.branches.length - taken = 0 := by
        omega
      rw [hleft] at hfills
      obtain ⟨saved, hsaved⟩ := hfills.describes
      exact ⟨held, saved, hfetch, hrecord, hsaved⟩

end Progress

end TreeStore

/-! ## Taking turns -/

/-- A save of a tree under a key. -/
inductive Saving where
  | ofIf (key : String) (tree : IfTree) (kind : TreeKind)
  | ofAdjustment (key : String) (tree : AdjustmentTree)

namespace Saving

def record : Saving → TreeRecord
  | .ofIf key _ kind => ⟨key, .ifTree, kind⟩
  | .ofAdjustment key _ => ⟨key, .adjustment, .numeric⟩

def compile : Saving → Except CompileError CompiledTree
  | .ofIf _ tree _ => tree.compile
  | .ofAdjustment _ tree => tree.compile

/-- The whole save, without interruption. -/
def save (store : TreeStore) : Saving → Outcome SaveError SavedTree
  | .ofIf key tree kind => store.saveIf key tree kind
  | .ofAdjustment key tree => store.saveAdjustment key tree

def script (saving : Saving) : Script :=
  match saving.compile with
  | .error error => .done (.error (.compile error))
  | .ok compiled => .persist saving.record compiled

/-- Whether the key of a save leads to equivalent trees in two stores. -/
def LoadsAlike (saving : Saving) (left right : TreeStore) : Prop :=
  ∀ catalog, match saving with
    | .ofIf key _ _ => ∃ tree other, left.loadIf key catalog = .ok tree ∧
        right.loadIf key catalog = .ok other ∧ tree.equivalent other = true
    | .ofAdjustment key _ => ∃ tree other, left.loadAdjustment key catalog = .ok tree ∧
        right.loadAdjustment key catalog = .ok other ∧ tree.equivalent other = true

theorem run_script (saving : Saving) (store : TreeStore) :
    saving.script.run store = saving.save store := by
  cases saving with
  | ofIf key tree kind =>
      rw [script, save, TreeStore.saveIf, compile]
      cases tree.compile with
      | error error => rfl
      | ok compiled => exact Script.run_persist _ compiled store
  | ofAdjustment key tree =>
      rw [script, save, TreeStore.saveAdjustment, compile]
      cases tree.compile with
      | error error => rfl
      | ok compiled => exact Script.run_persist _ compiled store

theorem script_eq {saving : Saving} {compiled : CompiledTree}
    (hcompile : saving.compile = .ok compiled) :
    saving.script = .persist saving.record compiled := by
  simp only [script, hcompile]

theorem layered_of_compile {saving : Saving} {compiled : CompiledTree}
    (hcompile : saving.compile = .ok compiled) : compiled.Layered := by
  cases saving with
  | ofIf key tree kind => exact IfTree.layered_of_compile hcompile
  | ofAdjustment key tree => exact AdjustmentTree.layered_of_compile hcompile

end Saving

/-- The tree that a save describes can be read. -/
theorem SavedTree.Describes.findable {saved : SavedTree} {compiled : CompiledTree}
    {held : StoredTree} (hsaved : saved.Describes compiled held) (hclosed : held.Closed) :
    compiled.Findable saved.ids.apply where
  nonneg := by
    intro expression hexpression
    have hexpressions : held.expressions = (compiled.relocate saved.ids.apply).expressions :=
      congrArg CompiledTree.expressions hsaved.content
    have hmem : expression.relocate saved.ids.apply ∈ held.expressions := by
      rw [hexpressions]
      exact List.mem_map_of_mem (CompiledTree.mem_storedOrder.mpr hexpression)
    exact Int.le_of_lt (hclosed.ids_positive _ hmem)
  distinct := by
    rw [← hsaved.content]
    exact hclosed.ids_nodup

namespace TreeStore

variable {store : TreeStore}

section Load

variable {key : String} {compiled : CompiledTree} {held : StoredTree} {saved : SavedTree}
variable (hstore : store.Integrity) (hfetch : store.fetch key = .ok held)
variable (hsaved : saved.Describes compiled held)
include hstore hfetch hsaved

theorem findable_of_fetch : compiled.Findable saved.ids.apply := by
  have hheld := ((fetch_eq_ok_iff hstore).mp hfetch).2
  exact hsaved.findable (hstore.closed held (hstore.tree?_eq_some_iff.mp hheld).1)

theorem loadIf_of_describes {tree : IfTree} {kind : TreeKind}
    (hcompile : tree.compile = .ok compiled) (hrecord : held.record = ⟨key, .ifTree, kind⟩)
    (catalog : Catalog) : store.loadIf key catalog = .ok (tree.reloaded catalog kind) := by
  apply loadIf_of_fetch hfetch hrecord
  rw [hsaved.content]
  exact IfTree.rebuildIf_relocate hcompile (findable_of_fetch hstore hfetch hsaved) catalog kind

theorem loadAdjustment_of_describes {tree : AdjustmentTree}
    (hcompile : tree.compile = .ok compiled)
    (hrecord : held.record = ⟨key, .adjustment, .numeric⟩) (catalog : Catalog) :
    store.loadAdjustment key catalog = .ok (tree.reloaded catalog) := by
  apply loadAdjustment_of_fetch hfetch hrecord
  rw [hsaved.content]
  exact AdjustmentTree.rebuildAdjustment_relocate hcompile
    (findable_of_fetch hstore hfetch hsaved) catalog

end Load

/-- What a save has stored is loaded as after the save alone. -/
theorem loadsAlike_of_describes (hstore : store.Unlimited) {later : TreeStore}
    (hlater : later.Integrity) {saving : Saving} {compiled : CompiledTree}
    (hcompile : saving.compile = .ok compiled) {held : StoredTree} {saved : SavedTree}
    (hfetch : later.fetch saving.record.key = .ok held) (hrecord : held.record = saving.record)
    (hsaved : saved.Describes compiled held) :
    ∃ result alone, saving.save store = (.ok result, alone) ∧
      saving.LoadsAlike later alone := by
  have hroom := hasRoom_of_unlimited hstore.budget_eq
    (1 + compiled.expressions.length + compiled.branches.length)
  cases saving with
  | ofIf key tree kind =>
      obtain ⟨result, alone, hsave, hloads⟩ :=
        saveIf_loadIf hstore.toIntegrity hcompile hroom key kind
      have hlaterLoads := loadIf_of_describes hlater hfetch hsaved hcompile hrecord
      exact ⟨result, alone, hsave, fun catalog => ⟨_, _, hlaterLoads catalog, hloads catalog,
        IfTree.equivalent_refl _⟩⟩
  | ofAdjustment key tree =>
      obtain ⟨result, alone, hsave, hloads⟩ :=
        saveAdjustment_loadAdjustment hstore.toIntegrity hcompile hroom key
      have hlaterLoads := loadAdjustment_of_describes hlater hfetch hsaved hcompile hrecord
      exact ⟨result, alone, hsave, fun catalog => ⟨_, _, hlaterLoads catalog, hloads catalog,
        AdjustmentTree.equivalent_iff.mpr rfl⟩⟩

end TreeStore

/-- Saves that take turns on one store. -/
structure Interleaving (Index : Type) where
  store : TreeStore
  scripts : Index → Script

namespace Interleaving

variable {Index : Type} [DecidableEq Index]

def start (store : TreeStore) (saves : Index → Saving) : Interleaving Index :=
  ⟨store, fun index => (saves index).script⟩

/-- One save makes its next call. -/
def turn (state : Interleaving Index) (index : Index) : Interleaving Index where
  store := ((state.scripts index).step state.store).2
  scripts := Function.update state.scripts index ((state.scripts index).step state.store).1

def afterTurns (state : Interleaving Index) (turns : List Index) : Interleaving Index :=
  turns.foldl turn state

@[simp]
theorem scripts_turn_self (state : Interleaving Index) (index : Index) :
    (state.turn index).scripts index = ((state.scripts index).step state.store).1 :=
  Function.update_self ..

@[simp]
theorem scripts_turn_of_ne (state : Interleaving Index) {index other : Index}
    (hother : other ≠ index) : (state.turn index).scripts other = state.scripts other :=
  Function.update_of_ne hother ..

/-- Saves each of which has made the progress of its own calls. -/
structure OnTrack (state : Interleaving Index) (saves : Index → Saving)
    (compiled : Index → CompiledTree) (taken : Index → Nat) : Prop where
  unlimited : state.store.Unlimited
  progress : ∀ index, state.store.Progress (saves index).record (compiled index) (taken index)
    (state.scripts index)

section Track

variable {saves : Index → Saving} {compiled : Index → CompiledTree} {taken : Index → Nat}
variable {state : Interleaving Index}
variable (hcompile : ∀ index, (saves index).compile = .ok (compiled index))
include hcompile

omit [DecidableEq Index] in
theorem onTrack_start {store : TreeStore} (hstore : store.Unlimited) :
    (start store saves).OnTrack saves compiled fun _ => 0 where
  unlimited := hstore
  progress index := by
    have hscript : (start store saves).scripts index =
        .persist (saves index).record (compiled index) := Saving.script_eq (hcompile index)
    rw [hscript]
    exact .waiting

variable (hkeys : Function.Injective fun index => (saves index).record.key)
include hkeys

/-- A turn of one save leaves the others where they are. -/
theorem OnTrack.turn (hstate : state.OnTrack saves compiled taken) (index : Index) :
    (state.turn index).OnTrack saves compiled
      (Function.update taken index (taken index + 1)) := by
  have hlayered := Saving.layered_of_compile (hcompile index)
  obtain ⟨hown, hothers⟩ := (hstate.progress index).step hstate.unlimited hlayered
  constructor
  · exact (state.store.leadsTo_step (state.scripts index)).unlimited hstate.unlimited
  · intro other
    by_cases hother : other = index
    · subst hother
      rw [scripts_turn_self, Function.update_self]
      exact hown
    · rw [scripts_turn_of_ne state hother, Function.update_of_ne hother]
      exact (hstate.progress other).congr (hothers _ (hkeys.ne hother))

theorem OnTrack.afterTurns (hstate : state.OnTrack saves compiled taken)
    (turns : List Index) :
    (state.afterTurns turns).OnTrack saves compiled
      fun index => taken index + turns.count index := by
  induction turns generalizing state taken with
  | nil => exact hstate
  | cons index rest ih =>
      have hrest := ih (hstate.turn hcompile hkeys index)
      have htaken : (fun other => Function.update taken index (taken index + 1) other +
          rest.count other) = fun other => taken other + (index :: rest).count other := by
        funext other
        by_cases hother : other = index
        · subst hother
          rw [Function.update_self, List.count_cons_self]
          omega
        · rw [Function.update_of_ne hother, List.count_cons_of_ne (Ne.symm hother)]
      rw [htaken] at hrest
      exact hrest

end Track

/-- Saves of trees that compile, under different keys of a store that takes any number of
writes, may take turns in any order.  None of them fails, each is done once it has made all
its calls, and from then on its key leads to a tree that is equivalent to the one that is
loaded after the save alone. -/
theorem afterTurns_loads_as_alone (saves : Index → Saving) (compiled : Index → CompiledTree)
    (hcompile : ∀ index, (saves index).compile = .ok (compiled index))
    (hkeys : Function.Injective fun index => (saves index).record.key)
    (writes : List Write) (turns : List Index) (index : Index) :
    let store := (TreeStore.empty none).afterWrites writes
    let state := (start store saves).afterTurns turns
    let calls := 1 + (compiled index).expressions.length + (compiled index).branches.length
    (∀ before, (saves index).script.run before = (saves index).save before) ∧
      (∀ error, state.scripts index ≠ .done (.error error)) ∧
      ((∃ saved, state.scripts index = .done (.ok saved)) ↔ calls ≤ turns.count index) ∧
      (calls ≤ turns.count index → ∃ saved alone,
        (saves index).save store = (.ok saved, alone) ∧
        (saves index).LoadsAlike state.store alone) := by
  intro store state calls
  have hstore : store.Unlimited := TreeStore.unlimited_afterWrites writes
  have hstate : state.OnTrack saves compiled _ :=
    (onTrack_start hcompile hstore).afterTurns hcompile hkeys turns
  have hlayered := Saving.layered_of_compile (hcompile index)
  have hprogress := hstate.progress index
  rw [Nat.zero_add] at hprogress
  refine ⟨(saves index).run_script, hprogress.ne_error hlayered, hprogress.done_iff hlayered,
    fun hcalls => ?_⟩
  obtain ⟨held, saved, hfetch, hrecord, hsaved⟩ := hprogress.describes hcalls
  exact TreeStore.loadsAlike_of_describes hstore hstate.unlimited.toIntegrity
    (hcompile index) hfetch hrecord hsaved

/-- An if-tree and an adjustment tree that are saved by turns, call by call, the if-tree over
another tree under its key. -/
theorem afterTurns_loads_as_alone_by_turns :
    let member : Condition := ⟨.choice "member" none, .equal, .boolean true none⟩
    let price : IfTree :=
      .decides [⟨member, .returns (.literal "10" none)⟩] (.returns (.literal "12" none))
    let discount : AdjustmentTree :=
      .returns [⟨.times, .literal "1.10" none⟩, ⟨.plus, .literal "3" none⟩]
    let saves : Bool → Saving := fun side =>
      bif side then .ofIf "price" price .numeric else .ofAdjustment "discount" discount
    let store := (TreeStore.empty none).afterWrites
      [.upsertTree ⟨"price", .adjustment, .numeric⟩]
    let state := (start store saves).afterTurns (List.replicate 8 [true, false]).flatten
    ∀ side, (∃ result, state.scripts side = .done (.ok result)) ∧
      ∃ saved alone, (saves side).save store = (.ok saved, alone) ∧
        (saves side).LoadsAlike state.store alone := by
  intro member price discount saves store state side
  have hcompiles : ∀ side, (saves side).compile.isOk = true := by decide +kernel
  have hcalls : ∀ side, (((saves side).compile.map fun compiled =>
      1 + compiled.expressions.length + compiled.branches.length).toOption.getD 9) ≤ 8 := by
    decide +kernel
  have hcount : ∀ side, (List.replicate 8 [true, false]).flatten.count side = 8 := by decide
  have hkeys : ∀ left right, (saves left).record.key = (saves right).record.key →
    left = right := by decide +kernel
  choose compiled hcompile using fun side => exists_of_isOk (hcompiles side)
  obtain ⟨-, -, hdone, hloads⟩ := afterTurns_loads_as_alone saves compiled hcompile hkeys
    [.upsertTree ⟨"price", .adjustment, .numeric⟩] (List.replicate 8 [true, false]).flatten side
  have hside := hcalls side
  rw [hcompile side] at hside
  rw [hcount side] at hdone hloads
  exact ⟨hdone.mpr hside, hloads hside⟩

end Interleaving

end DecisionCanvas
