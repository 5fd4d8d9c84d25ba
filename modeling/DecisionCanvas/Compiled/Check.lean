import DecisionCanvas.Compiled.Basic
import DecisionCanvas.Text.Quoted

/-!
# Checking compiled trees

A compiled tree stands on its own when its ids are distinct and every id that is
referred to is one of them.  A tree that does not is reported by its first
fault: repeated ids first, then expressions, then branches.
-/

namespace DecisionCanvas

/-- The first element that has occurred before. -/
def firstRepeated (seen : List Int) : List Int → Option Int
  | [] => none
  | id :: rest => if seen.contains id then some id else firstRepeated (id :: seen) rest

/-- The first id that is not among the defined ones. -/
def firstUndefined (defined ids : List Int) : Option Int :=
  ids.find? fun id => !defined.contains id

def danglingExpression? (defined : List Int) (expressions : List Expression) :
    Option CompileError :=
  expressions.findSome? fun expression =>
    (firstUndefined defined expression.children).map (.danglingReference expression.id)

def danglingBranch? (defined : List Int) (branches : List BranchRecord) : Option CompileError :=
  branches.findSome? fun record =>
    (firstUndefined defined record.referenced).map (.danglingBranch record.orderIndex)

namespace CompiledTree

/-- The first fault of a compiled tree. -/
def fault? (tree : CompiledTree) : Option CompileError :=
  let defined := tree.expressions.map Expression.id
  ((firstRepeated [] defined).map .duplicateId).or
    ((danglingExpression? defined tree.expressions).or
      (danglingBranch? defined tree.branches))

/-- Succeeds exactly on compiled trees that stand on their own. -/
def check (tree : CompiledTree) : Except CompileError Unit :=
  match tree.fault? with
  | some fault => .error fault
  | none => .ok ()

end CompiledTree

def CompileError.message : CompileError → String
  | .unsupportedValue => "Unsupported value kind in tree"
  | .invalidLiteral text => "Literal " ++ Text.quoted text ++ " is not a number"
  | .duplicateId id => "Expression id " ++ toString id ++ " defined more than once"
  | .danglingReference source missing =>
    "Expression " ++ toString source ++ " references undefined expression " ++ toString missing
  | .danglingBranch orderIndex missing =>
    "Branch " ++ toString orderIndex ++ " references undefined expression " ++ toString missing

end DecisionCanvas
