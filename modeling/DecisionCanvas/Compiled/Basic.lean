import DecisionCanvas.Tree.Basic

/-!
# Compiled trees

The stored form of a tree is a flat list of expressions, which refer to each
other by id, and an ordered list of branch records that refer to expressions.
Ids below zero are scratch ids, meaningful within one compiled tree only; a store
hands out positive ones.
-/

namespace DecisionCanvas

/-- What an expression is. -/
inductive ExpressionKind where
  | constant
  | variableRef
  | factRef
  | operator
  deriving DecidableEq, Inhabited

/-- A stored expression.  Which of the optional parts mean something depends on
the kind; incomplete ones are kept as they are. -/
structure Expression where
  id : Int
  kind : ExpressionKind
  number : Option Float := none
  truth : Option Bool := none
  text : Option String := none
  reference : Option String := none
  operator : Option ConditionOperator := none
  left : Option Int := none
  right : Option Int := none
  deriving DecidableEq, Inhabited

namespace Expression

/-- Whether an expression combines others. -/
def isOperator (expression : Expression) : Bool :=
  expression.kind == .operator

/-- The ids an expression refers to, left before right. -/
def children (expression : Expression) : List Int :=
  expression.left.toList ++ expression.right.toList

end Expression

/-- One stored adjustment: the operation and the expression of its value. -/
structure StatementRecord where
  operation : Arithmetic
  value : Int
  deriving DecidableEq, Inhabited

/-- What a stored branch produces. -/
inductive BranchOutcome where
  | returns (expression : Int)
  | statements (list : List StatementRecord)
  deriving DecidableEq, Inhabited

/-- The expressions an outcome refers to. -/
def BranchOutcome.expressions : BranchOutcome → List Int
  | .returns expression => [expression]
  | .statements list => list.map StatementRecord.value

/-- A stored branch; one without a condition is a default. -/
structure BranchRecord where
  orderIndex : Nat
  condition : Option Int
  outcome : BranchOutcome
  deriving DecidableEq, Inhabited

namespace BranchRecord

/-- Whether a branch is taken when no condition holds. -/
def isDefault (record : BranchRecord) : Bool :=
  record.condition.isNone

/-- The expressions a branch refers to, its outcome before its condition. -/
def referenced (record : BranchRecord) : List Int :=
  record.outcome.expressions ++ record.condition.toList

end BranchRecord

/-- A tree in its stored form. -/
structure CompiledTree where
  expressions : List Expression
  branches : List BranchRecord
  deriving DecidableEq, Inhabited

namespace CompiledTree

/-- The first expression with an id. -/
def expression? (tree : CompiledTree) (id : Int) : Option Expression :=
  tree.expressions.find? fun expression => expression.id == id

/-- The expressions that refer to no other. -/
def operands (tree : CompiledTree) : List Expression :=
  tree.expressions.filter fun expression => !expression.isOperator

/-- The expressions that refer to others. -/
def operators (tree : CompiledTree) : List Expression :=
  tree.expressions.filter Expression.isOperator

/-- The number of branches without a condition. -/
def defaultCount (tree : CompiledTree) : Nat :=
  tree.branches.countP BranchRecord.isDefault

end CompiledTree

/-- Why a tree cannot be compiled, or a compiled tree not be stored. -/
inductive CompileError where
  | unsupportedValue
  | invalidLiteral (text : String)
  | duplicateId (id : Int)
  | danglingReference (source missing : Int)
  | danglingBranch (orderIndex : Nat) (missing : Int)
  deriving DecidableEq

end DecisionCanvas
