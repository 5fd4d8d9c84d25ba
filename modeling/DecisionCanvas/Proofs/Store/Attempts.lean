import DecisionCanvas.Proofs.Store.Integrity
import DecisionCanvas.Proofs.Store.Script

/-!
# The writes that a script attempts

Each write of a script is tried on the store that the writes before it have left, and is
accepted there only if what it refers to is kept already.  A save that succeeds has had all
of its writes accepted.
-/

namespace DecisionCanvas

namespace TreeStore

/-- Whether a tree is stored that holds expressions with all of some ids. -/
def Keeps (store : TreeStore) (tree : Int) (ids : List Int) : Prop :=
  ∃ held, store.tree? tree = some held ∧ ∀ id ∈ ids, id ∈ held.expressions.map Expression.id

/-- Whether a write is not refused, and finds in the store what it refers to. -/
def Accepts (store : TreeStore) : Write → Prop
  | .upsertTree record => ∃ tree, (store.upsertTree record).1 = .ok tree
  | .insertExpression tree expression =>
    (∃ id, (store.insertExpression tree expression).1 = .ok id) ∧
      store.Keeps tree expression.children
  | .insertBranch tree record =>
    (store.insertBranch tree record).1 = .ok () ∧ store.Keeps tree record.referenced
  | .bindVariable key tree => (store.bindVariable key tree).1 = .ok ()
  | .bindConditional key tree => (store.bindConditional key tree).1 = .ok ()

section Accepted

variable {store after : TreeStore} {tree : Int}

theorem attempt_of_counted {Result : Type} {result : Result}
    {attempt : TreeStore → Except Rejection (Result × TreeStore)}
    (hcounted : store.counted attempt = (.ok result, after)) :
    attempt store.tick = .ok (result, after) := by
  cases hspent : store.isSpent with
  | true => simp [counted_spent hspent] at hcounted
  | false =>
      cases hattempt : attempt store.tick with
      | error reason => simp [counted_error hspent hattempt] at hcounted
      | ok done =>
          rw [counted_ok hspent done.1 done.2 hattempt, Prod.mk.injEq, Except.ok.injEq]
            at hcounted
          rw [← hcounted.1, ← hcounted.2]

theorem accepts_insertExpression {expression : Expression} {id : Int}
    (hwritten : store.insertExpression tree expression = (.ok id, after)) :
    store.Accepts (.insertExpression tree expression) := by
  have hattempt := attempt_of_counted hwritten
  exact ⟨⟨id, congrArg Prod.fst hwritten⟩,
    requireExpressions_eq_ok_iff.mp (required_eq_ok hattempt).1⟩

theorem accepts_insertBranch {record : BranchRecord}
    (hwritten : store.insertBranch tree record = (.ok (), after)) :
    store.Accepts (.insertBranch tree record) := by
  have hattempt := attempt_of_counted hwritten
  exact ⟨congrArg Prod.fst hwritten,
    requireExpressions_eq_ok_iff.mp (required_eq_ok hattempt).1⟩

end Accepted

end TreeStore

namespace Script

/-- The writes that a run attempts, each with the store it is tried on. -/
def attempts : Script → TreeStore → List (TreeStore × Write)
  | .done _, _ => []
  | .upsertTree record next, store =>
    (store, .upsertTree record) ::
      match store.upsertTree record with
      | (.error _, _) => []
      | (.ok tree, after) => (next tree).attempts after
  | .insertExpression tree expression next, store =>
    (store, .insertExpression tree expression) ::
      match store.insertExpression tree expression with
      | (.error _, _) => []
      | (.ok id, after) => (next id).attempts after
  | .insertBranch tree record next, store =>
    (store, .insertBranch tree record) ::
      match store.insertBranch tree record with
      | (.error _, _) => []
      | (.ok (), after) => next.attempts after

/-- A run leaves the store that its writes leave. -/
theorem afterWrites_attempts (script : Script) (store : TreeStore) :
    store.afterWrites ((script.attempts store).map Prod.snd) = (script.run store).2 := by
  induction script generalizing store with
  | done result => rfl
  | upsertTree record next ih =>
      rw [attempts, run]
      rcases hanswer : store.upsertTree record with ⟨answer, after⟩
      have hfirst : store.afterWrite (.upsertTree record) = after := congrArg Prod.snd hanswer
      cases answer with
      | error error => exact hfirst
      | ok tree =>
          rw [List.map_cons, TreeStore.afterWrites, List.foldl_cons, hfirst]
          exact ih tree after
  | insertExpression tree expression next ih =>
      rw [attempts, run]
      rcases hanswer : store.insertExpression tree expression with ⟨answer, after⟩
      have hfirst : store.afterWrite (.insertExpression tree expression) = after :=
        congrArg Prod.snd hanswer
      cases answer with
      | error error => exact hfirst
      | ok id =>
          rw [List.map_cons, TreeStore.afterWrites, List.foldl_cons, hfirst]
          exact ih id after
  | insertBranch tree record next ih =>
      rw [attempts, run]
      rcases hanswer : store.insertBranch tree record with ⟨answer, after⟩
      have hfirst : store.afterWrite (.insertBranch tree record) = after :=
        congrArg Prod.snd hanswer
      cases answer with
      | error error => exact hfirst
      | ok _ =>
          rw [List.map_cons, TreeStore.afterWrites, List.foldl_cons, hfirst]
          exact ih after

/-- A run that succeeds has had all of its writes accepted. -/
theorem accepts_of_run {script : Script} {store after : TreeStore} {saved : SavedTree}
    (hrun : script.run store = (.ok saved, after)) :
    ∀ attempt ∈ script.attempts store, attempt.1.Accepts attempt.2 := by
  induction script generalizing store with
  | done result => simp [attempts]
  | upsertTree record next ih =>
      rw [run] at hrun
      rw [attempts]
      rcases hanswer : store.upsertTree record with ⟨answer, opened⟩
      cases answer with
      | error error => simp [hanswer] at hrun
      | ok tree =>
          rw [hanswer] at hrun
          rw [List.forall_mem_cons]
          exact ⟨⟨tree, congrArg Prod.fst hanswer⟩, ih tree hrun⟩
  | insertExpression tree expression next ih =>
      rw [run] at hrun
      rw [attempts]
      rcases hanswer : store.insertExpression tree expression with ⟨answer, written⟩
      cases answer with
      | error error => simp [hanswer] at hrun
      | ok id =>
          rw [hanswer] at hrun
          rw [List.forall_mem_cons]
          exact ⟨TreeStore.accepts_insertExpression hanswer, ih id hrun⟩
  | insertBranch tree record next ih =>
      rw [run] at hrun
      rw [attempts]
      rcases hanswer : store.insertBranch tree record with ⟨answer, written⟩
      cases answer with
      | error error => simp [hanswer] at hrun
      | ok _ =>
          rw [hanswer] at hrun
          rw [List.forall_mem_cons]
          exact ⟨TreeStore.accepts_insertBranch hanswer, ih hrun⟩

end Script

end DecisionCanvas
