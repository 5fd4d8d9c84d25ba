import DecisionCanvas.Compiled.Basic
import DecisionCanvas.Catalog
import DecisionCanvas.Decimal.Style

/-!
# Rebuilding trees

A compiled tree is turned back into one decision: the records with a condition
are its cases in the order of their indexes, and the first default is what holds
otherwise.  A reference to a missing expression or a condition that is no
operator is an error; parts that an unfinished edit has left out become empty
slots.
-/

namespace DecisionCanvas

/-- What an if-tree is for; the single return of a conditional tree is read as a
truth value. -/
inductive TreeKind where
  | numeric
  | conditional
  deriving DecidableEq, Inhabited

inductive RebuildError where
  | missingExpression (id : Int)
  | notAnOperator (id : Int)
  | unexpectedOutcome (orderIndex : Nat)
  deriving DecidableEq

def RebuildError.message : RebuildError → String
  | .missingExpression id => "Expression " ++ toString id ++ " does not exist"
  | .notAnOperator id => "Condition expression " ++ toString id ++ " is not an operator"
  | .unexpectedOutcome orderIndex =>
    "Branch " ++ toString orderIndex ++ " has the wrong outcome shape for this tree"

/-- The value of a constant: its number, else its truth value, else its option. -/
def Expression.constantValue (expression : Expression) : Value :=
  match expression.number, expression.truth, expression.text with
  | some number, _, _ => .literal (Decimal.plainText number) none
  | none, some truth, _ => .boolean truth none
  | none, none, some option => .choice option none
  | none, none, none => .emptyLiteral

/-- The variable under a key of the catalog, or an empty slot. -/
def Catalog.variableFor (catalog : Catalog) (key : String) : Value :=
  match catalog.lookup key with
  | some fact => .variable ⟨key, fact.id, fact.type, fact.scope⟩ none
  | none => .emptyVariable

/-- The value of an expression.  A reference by UUID is a statement, any other
reference goes through the catalog. -/
def Expression.value (catalog : Catalog) (expression : Expression) : Value :=
  let key := expression.reference.getD ""
  match expression.kind with
  | .constant => expression.constantValue
  | .variableRef =>
    match Uuid.ofText? key with
    | some selector => .statement (some key) selector
    | none => catalog.variableFor key
  | .factRef => catalog.variableFor key
  | .operator => .emptyVariable

/-- What a tree is rebuilt from. -/
structure Rebuilder where
  expressions : List Expression
  catalog : Catalog

namespace Rebuilder

/-- The last expression with an id. -/
def expression? (source : Rebuilder) (id : Int) : Option Expression :=
  source.expressions.reverse.find? fun expression => expression.id == id

/-- The value of the expression with an id. -/
def value (source : Rebuilder) (id : Int) : Except RebuildError Value :=
  match source.expression? id with
  | some expression => .ok (expression.value source.catalog)
  | none => .error (.missingExpression id)

/-- The value of a child, or an empty slot if it was left out.  A child below
zero was left out on purpose. -/
def childValue (source : Rebuilder) (empty : Value) : Option Int → Except RebuildError Value
  | some id => if 0 ≤ id then source.value id else .ok empty
  | none => .ok empty

/-- The condition whose operator has an id. -/
def condition (source : Rebuilder) (id : Int) : Except RebuildError Condition :=
  match source.expression? id with
  | none => .error (.missingExpression id)
  | some expression =>
    if expression.isOperator then do
      let left ← source.childValue .emptyVariable expression.left
      let right ← source.childValue .emptyLiteral expression.right
      .ok ⟨left, expression.operator.getD .equal, right⟩
    else .error (.notAnOperator id)

def returned (source : Rebuilder) (record : BranchRecord) : Except RebuildError Value :=
  match record.outcome with
  | .returns id => source.value id
  | .statements _ => .error (.unexpectedOutcome record.orderIndex)

/-- The adjustments of stored statements. -/
def adjustments (source : Rebuilder) :
    List StatementRecord → Except RebuildError (List Adjustment)
  | [] => .ok []
  | statement :: rest => do
    let value ← source.value statement.value
    let others ← source.adjustments rest
    .ok (⟨statement.operation, value⟩ :: others)

def adjusted (source : Rebuilder) (record : BranchRecord) :
    Except RebuildError (List Adjustment) :=
  match record.outcome with
  | .statements list => source.adjustments list
  | .returns _ => .error (.unexpectedOutcome record.orderIndex)

/-- The cases of the records that have a condition. -/
def cases {Outcome : Type} (source : Rebuilder)
    (outcome : BranchRecord → Except RebuildError Outcome) :
    List BranchRecord → Except RebuildError (List (Case (Tree Outcome)))
  | [] => .ok []
  | record :: rest =>
    match record.condition with
    | none => source.cases outcome rest
    | some id => do
      let condition ← source.condition id
      let result ← outcome record
      let others ← source.cases outcome rest
      .ok (⟨condition, .returns result⟩ :: others)

end Rebuilder

/-- The records in the order of their indexes; equal indexes keep their order. -/
def inOrder (branches : List BranchRecord) : List BranchRecord :=
  branches.mergeSort fun earlier later => earlier.orderIndex ≤ later.orderIndex

/-- The first default and its outcome. -/
def defaultOutcome {Outcome : Type} (outcome : BranchRecord → Except RebuildError Outcome)
    (ordered : List BranchRecord) : Except RebuildError (Option Outcome) :=
  match ordered.find? BranchRecord.isDefault with
  | some record => (outcome record).map some
  | none => .ok none

namespace CompiledTree

def rebuildIf (tree : CompiledTree) (catalog : Catalog) (kind : TreeKind) :
    Except RebuildError IfTree := do
  let source : Rebuilder := ⟨tree.expressions, catalog⟩
  let ordered := inOrder tree.branches
  let otherwise ← defaultOutcome source.returned ordered
  let cases ← source.cases source.returned ordered
  let fallback := otherwise.getD (.boolean false none)
  if cases.isEmpty then
    .ok (.returns (if kind = .conditional then fallback.coerceBoolean else fallback))
  else .ok (.decides cases (.returns fallback))

def rebuildAdjustment (tree : CompiledTree) (catalog : Catalog) :
    Except RebuildError AdjustmentTree := do
  let source : Rebuilder := ⟨tree.expressions, catalog⟩
  let ordered := inOrder tree.branches
  let otherwise ← defaultOutcome source.adjusted ordered
  let cases ← source.cases source.adjusted ordered
  let fallback := otherwise.getD []
  if cases.isEmpty then .ok (.returns fallback)
  else .ok (.decides cases (.returns fallback))

end CompiledTree

end DecisionCanvas
