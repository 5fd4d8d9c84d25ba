import DecisionCanvas.Store.Save

/-!
# Saves as scripts

A save makes its writes one at a time, and the store is free for others in between.  A
script is what is left of a save: the write it makes next and, for every answer to that,
the script from there on.  A script that is run without interruption is the save.
-/

namespace DecisionCanvas

/-- What is left of a save. -/
inductive Script where
  | done (result : Except SaveError SavedTree)
  | upsertTree (record : TreeRecord) (next : Int → Script)
  | insertExpression (tree : Int) (expression : Expression) (next : Int → Script)
  | insertBranch (tree : Int) (record : BranchRecord) (next : Script)

namespace Script

/-! ## The script of a save -/

/-- Writes expressions one after another and goes on with the ids they got. -/
def insertExpressions (tree : Int)
    (rename : IdMap → Expression → Except SaveError Expression) :
    List Expression → IdMap → (IdMap → Script) → Script
  | [], ids, next => next ids
  | expression :: rest, ids, next =>
    match rename ids expression with
    | .error error => .done (.error error)
    | .ok renamed =>
      .insertExpression tree renamed fun id =>
        insertExpressions tree rename rest (ids ++ [(expression.id, id)]) next

def insertBranches (tree : Int) (ids : IdMap) : List BranchRecord → Script → Script
  | [], next => next
  | record :: rest, next =>
    match ids.renameBranch record with
    | .error error => .done (.error error)
    | .ok renamed => .insertBranch tree renamed (insertBranches tree ids rest next)

def fill (tree : Int) (compiled : CompiledTree) : Script :=
  insertExpressions tree (fun _ => .ok) compiled.operands [] fun ids =>
    insertExpressions tree IdMap.renameExpression compiled.operators ids fun ids =>
      insertBranches tree ids compiled.branches (.done (.ok ⟨tree, ids⟩))

def persist (record : TreeRecord) (compiled : CompiledTree) : Script :=
  match compiled.check with
  | .error fault => .done (.error (.compile fault))
  | .ok () => .upsertTree record fun tree => fill tree compiled

/-! ## Writing -/

/-- What is left after an answer.  A write that is rejected ends the save. -/
def resume {Result : Type} (next : Result → Script) :
    Outcome StoreError Result → Script × TreeStore
  | (.error error, store) => (.done (.error (.store error)), store)
  | (.ok result, store) => (next result, store)

/-- Makes the next write, if there is one. -/
def step (store : TreeStore) : Script → Script × TreeStore
  | .done result => (.done result, store)
  | .upsertTree record next => resume next (store.upsertTree record)
  | .insertExpression tree expression next =>
    resume next (store.insertExpression tree expression)
  | .insertBranch tree record next => resume (fun _ => next) (store.insertBranch tree record)

/-- Makes all writes that are left. -/
def run : Script → TreeStore → Outcome SaveError SavedTree
  | .done result, store => (result, store)
  | .upsertTree record next, store =>
    match store.upsertTree record with
    | (.error error, store) => (.error (.store error), store)
    | (.ok tree, store) => (next tree).run store
  | .insertExpression tree expression next, store =>
    match store.insertExpression tree expression with
    | (.error error, store) => (.error (.store error), store)
    | (.ok id, store) => (next id).run store
  | .insertBranch tree record next, store =>
    match store.insertBranch tree record with
    | (.error error, store) => (.error (.store error), store)
    | (.ok (), store) => next.run store

variable {store : TreeStore}

@[simp]
theorem snd_resume {Result : Type} (next : Result → Script)
    (outcome : Outcome StoreError Result) : (resume next outcome).2 = outcome.2 := by
  obtain ⟨answer, store⟩ := outcome
  cases answer <;> rfl

/-- A run starts with a step. -/
theorem run_step (script : Script) (store : TreeStore) :
    (script.step store).1.run (script.step store).2 = script.run store := by
  cases script with
  | done result => rfl
  | upsertTree record next =>
      rcases hanswer : store.upsertTree record with ⟨answer, after⟩
      cases answer <;> simp only [step, run, hanswer, resume]
  | insertExpression tree expression next =>
      rcases hanswer : store.insertExpression tree expression with ⟨answer, after⟩
      cases answer <;> simp only [step, run, hanswer, resume]
  | insertBranch tree record next =>
      rcases hanswer : store.insertBranch tree record with ⟨answer, after⟩
      cases answer <;> simp only [step, run, hanswer, resume]

/-! ## A run is the save -/

theorem run_insertExpressions (tree : Int)
    (rename : IdMap → Expression → Except SaveError Expression) (order : List Expression)
    (ids : IdMap) (next : IdMap → Script) (store : TreeStore) :
    (insertExpressions tree rename order ids next).run store =
      match TreeStore.insertExpressions tree rename order ids store with
      | (.error error, store) => (.error error, store)
      | (.ok ids, store) => (next ids).run store := by
  induction order generalizing ids store with
  | nil => rfl
  | cons expression rest ih =>
      rw [insertExpressions, TreeStore.insertExpressions]
      cases hrenamed : rename ids expression with
      | error error => rfl
      | ok renamed =>
          simp only [run]
          rcases hanswer : store.insertExpression tree renamed with ⟨answer, after⟩
          cases answer with
          | error error => rfl
          | ok id => exact ih (ids ++ [(expression.id, id)]) after

theorem run_insertBranches (tree : Int) (ids : IdMap) (branches : List BranchRecord)
    (next : Script) (store : TreeStore) :
    (insertBranches tree ids branches next).run store =
      match TreeStore.insertBranches tree ids branches store with
      | (.error error, store) => (.error error, store)
      | (.ok (), store) => next.run store := by
  induction branches generalizing store with
  | nil => rfl
  | cons record rest ih =>
      rw [insertBranches, TreeStore.insertBranches]
      cases hrenamed : ids.renameBranch record with
      | error error => rfl
      | ok renamed =>
          simp only [run]
          rcases hanswer : store.insertBranch tree renamed with ⟨answer, after⟩
          cases answer with
          | error error => rfl
          | ok _ => exact ih after

theorem run_fill (tree : Int) (compiled : CompiledTree) (store : TreeStore) :
    (fill tree compiled).run store = store.fill tree compiled := by
  simp only [fill, TreeStore.fill, run_insertExpressions, run_insertBranches]
  rfl

/-- Run without interruption, the script of a save does what the save does. -/
theorem run_persist (record : TreeRecord) (compiled : CompiledTree) (store : TreeStore) :
    (persist record compiled).run store = store.persist record compiled := by
  rw [persist, TreeStore.persist]
  cases compiled.check with
  | error fault => rfl
  | ok _ =>
      simp only [run]
      rcases store.upsertTree record with ⟨answer, opened⟩
      cases answer with
      | error error => rfl
      | ok tree => exact run_fill tree compiled opened

end Script

end DecisionCanvas
