import DecisionCanvas.Compiled.Rebuild
import DecisionCanvas.Directory

/-!
# The tree store

The store keeps compiled trees under keys and binds names to them.  It guards
its references: an expression may refer only to expressions stored before it in
the same tree, a branch only to expressions of its tree, a binding only to a
stored tree.  Every attempted write counts, also one that is refused for its
references; a store may be given a budget of writes, after which all are
refused.
-/

namespace DecisionCanvas

/-- What the branches of a stored tree produce. -/
inductive TreeType where
  | ifTree
  | adjustment
  deriving DecidableEq, Inhabited

def TreeType.name : TreeType → String
  | .ifTree => "If"
  | .adjustment => "Adjustment"

/-- What is known about a stored tree besides its content. -/
structure TreeRecord where
  key : String
  type : TreeType
  kind : TreeKind
  deriving DecidableEq, Inhabited

/-- A stored tree. -/
structure StoredTree where
  id : Int
  record : TreeRecord
  expressions : List Expression
  branches : List BranchRecord
  deriving DecidableEq, Inhabited

inductive Rejection where
  | budgetSpent (writes : Nat)
  | unknownTree (tree : Int)
  | unknownExpression (expression tree : Int)
  deriving DecidableEq

def Rejection.message : Rejection → String
  | .budgetSpent writes => "injected failure after " ++ toString writes ++ " writes"
  | .unknownTree tree => "unknown tree " ++ toString tree
  | .unknownExpression expression tree =>
    "expression " ++ toString expression ++ " is not stored in tree " ++ toString tree

inductive StoreError where
  | notFound (key : String)
  | rejected (reason : Rejection)
  deriving DecidableEq

def StoreError.message : StoreError → String
  | .notFound key => "No tree stored under key " ++ key
  | .rejected reason => "Store rejected the write: " ++ reason.message

/-- A store of trees, oldest tree first, with the last ids handed out. -/
structure TreeStore where
  lastTree : Int
  lastExpression : Int
  trees : List StoredTree
  keys : Directory Int
  variableBindings : Directory Int
  conditionalBindings : Directory Int
  writes : Nat
  budget : Option Nat
  deriving DecidableEq

/-- What a call returns, and the store after it. -/
abbrev Outcome (Error Result : Type) := Except Error Result × TreeStore

namespace TreeStore

/-- The store without trees, with or without a budget of writes. -/
def empty (budget : Option Nat) : TreeStore :=
  ⟨0, 0, [], .empty, .empty, .empty, 0, budget⟩

instance : Inhabited TreeStore := ⟨empty none⟩

/-- Whether the budget allows no further write. -/
def isSpent (store : TreeStore) : Bool :=
  match store.budget with
  | some limit => limit ≤ store.writes
  | none => false

def tree? (store : TreeStore) (id : Int) : Option StoredTree :=
  store.trees.find? fun tree => tree.id == id

def changeTree (store : TreeStore) (id : Int) (change : StoredTree → StoredTree) : TreeStore :=
  { store with trees := store.trees.map fun tree => if tree.id = id then change tree else tree }

/-- Counts a write and then tries it; a refused one changes only the count. -/
def counted {Result : Type} (store : TreeStore)
    (attempt : TreeStore → Except Rejection (Result × TreeStore)) : Outcome StoreError Result :=
  if store.isSpent then (.error (.rejected (.budgetSpent store.writes)), store)
  else
    let counted := { store with writes := store.writes + 1 }
    match attempt counted with
    | .ok (result, next) => (.ok result, next)
    | .error reason => (.error (.rejected reason), counted)

/-- Creates the tree of a key, or empties it if there is one. -/
def upsertTree (store : TreeStore) (record : TreeRecord) : Outcome StoreError Int :=
  store.counted fun store =>
    match store.keys.get? record.key with
    | some id =>
      .ok (id, store.changeTree id fun tree =>
        { tree with record := record, expressions := [], branches := [] })
    | none =>
      let id := store.lastTree + 1
      .ok (id, { store with
        lastTree := id
        trees := store.trees ++ [⟨id, record, [], []⟩]
        keys := store.keys.insert record.key id })

/-- The first of some ids that no expression of a tree has. -/
def missingExpression? (tree : StoredTree) (ids : List Int) : Option Int :=
  ids.find? fun id => !(tree.expressions.any fun expression => expression.id == id)

/-- Finds a tree and makes sure that it holds expressions with these ids. -/
def requireExpressions (store : TreeStore) (id : Int) (expressions : List Int) :
    Except Rejection Unit :=
  match store.tree? id with
  | none => .error (.unknownTree id)
  | some tree =>
    match missingExpression? tree expressions with
    | some missing => .error (.unknownExpression missing id)
    | none => .ok ()

def insertExpression (store : TreeStore) (tree : Int) (expression : Expression) :
    Outcome StoreError Int :=
  store.counted fun store =>
    match store.requireExpressions tree expression.children with
    | .error reason => .error reason
    | .ok () =>
      let id := store.lastExpression + 1
      let changed := store.changeTree tree fun stored =>
        { stored with expressions := stored.expressions ++ [{ expression with id := id }] }
      .ok (id, { changed with lastExpression := id })

def insertBranch (store : TreeStore) (tree : Int) (record : BranchRecord) :
    Outcome StoreError Unit :=
  store.counted fun store =>
    match store.requireExpressions tree record.referenced with
    | .error reason => .error reason
    | .ok () =>
      .ok ((), store.changeTree tree fun stored =>
        { stored with branches := stored.branches ++ [record] })

/-- Makes sure that a tree is stored. -/
def requireTree (store : TreeStore) (tree : Int) : Except Rejection Unit :=
  if (store.tree? tree).isSome then .ok () else .error (.unknownTree tree)

def bindVariable (store : TreeStore) (key : String) (tree : Int) : Outcome StoreError Unit :=
  store.counted fun store =>
    match store.requireTree tree with
    | .error reason => .error reason
    | .ok () => .ok ((), { store with variableBindings := store.variableBindings.insert key tree })

def bindConditional (store : TreeStore) (key : String) (tree : Int) : Outcome StoreError Unit :=
  store.counted fun store =>
    match store.requireTree tree with
    | .error reason => .error reason
    | .ok () =>
      .ok ((), { store with conditionalBindings := store.conditionalBindings.insert key tree })

def variableBinding? (store : TreeStore) (key : String) : Option Int :=
  store.variableBindings.get? key

def conditionalBinding? (store : TreeStore) (key : String) : Option Int :=
  store.conditionalBindings.get? key

def fetch (store : TreeStore) (key : String) : Except StoreError StoredTree :=
  match (store.keys.get? key).bind store.tree? with
  | some tree => .ok tree
  | none => .error (.notFound key)

end TreeStore

end DecisionCanvas
