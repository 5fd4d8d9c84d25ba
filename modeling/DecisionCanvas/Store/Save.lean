import DecisionCanvas.Store.Basic
import DecisionCanvas.Compiled.Flatten
import DecisionCanvas.Compiled.Check

/-!
# Saving trees

A tree is compiled, checked and then written in a fixed order: the record of the
tree, which clears what its key held before; the expressions without children,
which gives each scratch id its durable one; the operators, with their children
renamed; and the branches, renamed as well.  The first write that fails ends the
save, and what has been written stays.
-/

namespace DecisionCanvas

inductive SaveError where
  | compile (error : CompileError)
  | store (error : StoreError)
  | unmapped (id : Int)
  deriving DecidableEq

def SaveError.message : SaveError → String
  | .compile error => "Failed to compile tree: " ++ error.message
  | .store error => "Failed to persist tree: " ++ error.message
  | .unmapped id => "Expression " ++ toString id ++ " has no persisted id"

/-- Durable ids under the scratch ids they replace, in the order of writing. -/
abbrev IdMap := List (Int × Int)

/-- The durable id of a scratch id. -/
def IdMap.durable? (ids : IdMap) (scratch : Int) : Option Int :=
  ids.lookup scratch

structure SavedTree where
  tree : Int
  ids : IdMap
  deriving DecidableEq

namespace IdMap

/-- The durable id of a scratch id, or an error. -/
def rename (ids : IdMap) (scratch : Int) : Except SaveError Int :=
  match ids.durable? scratch with
  | some durable => .ok durable
  | none => .error (.unmapped scratch)

def renameOption (ids : IdMap) : Option Int → Except SaveError (Option Int)
  | some scratch => (ids.rename scratch).map some
  | none => .ok none

def renameExpression (ids : IdMap) (expression : Expression) : Except SaveError Expression := do
  let left ← ids.renameOption expression.left
  let right ← ids.renameOption expression.right
  .ok { expression with left := left, right := right }

def renameStatements (ids : IdMap) :
    List StatementRecord → Except SaveError (List StatementRecord)
  | [] => .ok []
  | statement :: rest => do
    let value ← ids.rename statement.value
    let others ← ids.renameStatements rest
    .ok (⟨statement.operation, value⟩ :: others)

def renameOutcome (ids : IdMap) : BranchOutcome → Except SaveError BranchOutcome
  | .returns expression => (ids.rename expression).map .returns
  | .statements list => (ids.renameStatements list).map .statements

def renameBranch (ids : IdMap) (record : BranchRecord) : Except SaveError BranchRecord := do
  let outcome ← ids.renameOutcome record.outcome
  let condition ← ids.renameOption record.condition
  .ok ⟨record.orderIndex, condition, outcome⟩

end IdMap

namespace TreeStore

/-- Writes expressions one after another, each in the form that `rename` gives
it from the ids known so far. -/
def insertExpressions (tree : Int) (rename : IdMap → Expression → Except SaveError Expression) :
    List Expression → IdMap → TreeStore → Outcome SaveError IdMap
  | [], ids, store => (.ok ids, store)
  | expression :: rest, ids, store =>
    match rename ids expression with
    | .error error => (.error error, store)
    | .ok renamed =>
      match store.insertExpression tree renamed with
      | (.error error, store) => (.error (.store error), store)
      | (.ok id, store) => insertExpressions tree rename rest (ids ++ [(expression.id, id)]) store

def insertBranches (tree : Int) (ids : IdMap) :
    List BranchRecord → TreeStore → Outcome SaveError Unit
  | [], store => (.ok (), store)
  | record :: rest, store =>
    match ids.renameBranch record with
    | .error error => (.error error, store)
    | .ok renamed =>
      match store.insertBranch tree renamed with
      | (.error error, store) => (.error (.store error), store)
      | (.ok (), store) => insertBranches tree ids rest store

def fill (store : TreeStore) (tree : Int) (compiled : CompiledTree) :
    Outcome SaveError SavedTree :=
  match insertExpressions tree (fun _ => .ok) compiled.operands [] store with
  | (.error error, store) => (.error error, store)
  | (.ok ids, store) =>
    match insertExpressions tree IdMap.renameExpression compiled.operators ids store with
    | (.error error, store) => (.error error, store)
    | (.ok ids, store) =>
      match insertBranches tree ids compiled.branches store with
      | (.error error, store) => (.error error, store)
      | (.ok (), store) => (.ok ⟨tree, ids⟩, store)

/-- Checks a compiled tree and writes it under the key of a record. -/
def persist (store : TreeStore) (record : TreeRecord) (compiled : CompiledTree) :
    Outcome SaveError SavedTree :=
  match compiled.check with
  | .error fault => (.error (.compile fault), store)
  | .ok () =>
    match store.upsertTree record with
    | (.error error, store) => (.error (.store error), store)
    | (.ok tree, store) => store.fill tree compiled

def saveIf (store : TreeStore) (key : String) (tree : IfTree) (kind : TreeKind) :
    Outcome SaveError SavedTree :=
  match tree.compile with
  | .error error => (.error (.compile error), store)
  | .ok compiled => store.persist ⟨key, .ifTree, kind⟩ compiled

def saveAdjustment (store : TreeStore) (key : String) (tree : AdjustmentTree) :
    Outcome SaveError SavedTree :=
  match tree.compile with
  | .error error => (.error (.compile error), store)
  | .ok compiled => store.persist ⟨key, .adjustment, .numeric⟩ compiled

/-- Follows a save by a write that concerns the saved tree. -/
def thenWrite (saved : Outcome SaveError SavedTree)
    (write : TreeStore → Int → Outcome StoreError Unit) : Outcome SaveError SavedTree :=
  match saved with
  | (.error error, store) => (.error error, store)
  | (.ok saved, store) =>
    match write store saved.tree with
    | (.error error, store) => (.error (.store error), store)
    | (.ok (), store) => (.ok saved, store)

def variableKey (name : String) : String := "variable:" ++ name

def conditionalKey (name : String) : String := "conditional:" ++ name

def saveVariable (store : TreeStore) (name : String) (tree : IfTree) :
    Outcome SaveError SavedTree :=
  thenWrite (store.saveIf (variableKey name) tree .numeric) fun store id =>
    store.bindVariable name id

/-- Saves the tree a statement points to, under the selector of the statement. -/
def saveStatement (store : TreeStore) (selector : Uuid) (tree : IfTree) :
    Outcome SaveError SavedTree :=
  thenWrite (store.saveIf selector.text tree .numeric) fun store id =>
    store.bindVariable selector.text id

/-- Saves the tree of a named condition and binds the name to it. -/
def saveConditional (store : TreeStore) (name : String) (tree : IfTree) :
    Outcome SaveError SavedTree :=
  thenWrite (store.saveIf (conditionalKey name) tree .conditional) fun store id =>
    store.bindConditional name id

end TreeStore

end DecisionCanvas
