import DecisionCanvas.Proofs.Store.Budget
import DecisionCanvas.Proofs.Store.Script
import DecisionCanvas.Store.Load

/-!
# Saves as writes

Whatever a save does to a store is done by writes, also where it is refused or ends
early.  What holds after any writes therefore holds after any saves.
-/

namespace DecisionCanvas

namespace TreeStore

/-- Whether some writes lead from one store to another. -/
def LeadsTo (store later : TreeStore) : Prop :=
  ∃ writes, store.afterWrites writes = later

variable {store next later : TreeStore}

@[simp]
theorem LeadsTo.refl (store : TreeStore) : store.LeadsTo store :=
  ⟨[], rfl⟩

theorem LeadsTo.trans (hfirst : store.LeadsTo next) (hsecond : next.LeadsTo later) :
    store.LeadsTo later := by
  obtain ⟨first, rfl⟩ := hfirst
  obtain ⟨second, rfl⟩ := hsecond
  exact ⟨first ++ second, store.afterWrites_append first second⟩

theorem leadsTo_afterWrite (store : TreeStore) (write : Write) :
    store.LeadsTo (store.afterWrite write) :=
  ⟨[write], rfl⟩

theorem LeadsTo.integrity (hleads : store.LeadsTo later) (hstore : store.Integrity) :
    later.Integrity := by
  obtain ⟨writes, rfl⟩ := hleads
  exact hstore.afterWrites writes

theorem LeadsTo.budget_eq (hleads : store.LeadsTo later) : later.budget = store.budget := by
  obtain ⟨writes, rfl⟩ := hleads
  exact store.budget_afterWrites writes

/-! ## Scripts -/

theorem leadsTo_step (store : TreeStore) (script : Script) :
    store.LeadsTo (script.step store).2 := by
  cases script with
  | done result => exact LeadsTo.refl store
  | upsertTree record next =>
      rw [Script.step, Script.snd_resume]
      exact store.leadsTo_afterWrite (.upsertTree record)
  | insertExpression tree expression next =>
      rw [Script.step, Script.snd_resume]
      exact store.leadsTo_afterWrite (.insertExpression tree expression)
  | insertBranch tree record next =>
      rw [Script.step, Script.snd_resume]
      exact store.leadsTo_afterWrite (.insertBranch tree record)

theorem leadsTo_resume {Result : Type} {script : Result → Script}
    {outcome : Outcome StoreError Result} (hwrite : store.LeadsTo outcome.2)
    (hscript : ∀ result after, LeadsTo after ((script result).run after).2) :
    store.LeadsTo
      ((Script.resume script outcome).1.run (Script.resume script outcome).2).2 := by
  obtain ⟨answer, after⟩ := outcome
  cases answer with
  | error error => exact hwrite
  | ok result => exact hwrite.trans (hscript result after)

theorem leadsTo_run (script : Script) (store : TreeStore) :
    store.LeadsTo (script.run store).2 := by
  induction script generalizing store with
  | done result => exact LeadsTo.refl store
  | upsertTree record next ih =>
      rw [← Script.run_step]
      exact leadsTo_resume (store.leadsTo_afterWrite (.upsertTree record)) ih
  | insertExpression tree expression next ih =>
      rw [← Script.run_step]
      exact leadsTo_resume (store.leadsTo_afterWrite (.insertExpression tree expression)) ih
  | insertBranch tree record next ih =>
      rw [← Script.run_step]
      exact leadsTo_resume (store.leadsTo_afterWrite (.insertBranch tree record)) fun _ => ih

theorem leadsTo_persist (store : TreeStore) (record : TreeRecord) (compiled : CompiledTree) :
    store.LeadsTo (store.persist record compiled).2 := by
  rw [← Script.run_persist]
  exact leadsTo_run _ store

/-! ## Saves -/

theorem leadsTo_saveIf (store : TreeStore) (key : String) (tree : IfTree) (kind : TreeKind) :
    store.LeadsTo (store.saveIf key tree kind).2 := by
  rw [saveIf]
  cases tree.compile with
  | error error => exact LeadsTo.refl store
  | ok compiled => exact leadsTo_persist store _ compiled

theorem leadsTo_saveAdjustment (store : TreeStore) (key : String) (tree : AdjustmentTree) :
    store.LeadsTo (store.saveAdjustment key tree).2 := by
  rw [saveAdjustment]
  cases tree.compile with
  | error error => exact LeadsTo.refl store
  | ok compiled => exact leadsTo_persist store _ compiled

end TreeStore

end DecisionCanvas
