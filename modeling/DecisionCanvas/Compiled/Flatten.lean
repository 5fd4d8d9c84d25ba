import DecisionCanvas.Compiled.Basic

/-!
# Compiling trees

Compiling lists the values of a tree in the order in which they are evaluated:
for each case the left side, the right side and the operator of the condition,
then the body of the case; the tree for when no case holds comes last.  The
expression at position `n` gets the scratch id `-(n + 1)`.

Every return of the tree becomes one branch record, from left to right.  A case
puts its condition on the first record of its body, over a condition that a case
inside the body has put there.
-/

namespace DecisionCanvas

/-- The scratch id of the expression at a position. -/
def scratchId (position : Nat) : Int :=
  -((position : Int) + 1)

/-- The number a literal stands for; a blank one is zero. -/
def literalNumber? (text : String) : Option Float :=
  let chars := Text.trimChars text.toList
  if chars.isEmpty then some 0
  else (Decimal.readNumeral chars).filter Float.isFinite

def Value.lower (position : Nat) : Value → Except CompileError Expression
  | .literal text _ =>
    match literalNumber? text with
    | some number =>
      .ok { id := scratchId position, kind := .constant, number := some number }
    | none => .error (.invalidLiteral text)
  | .boolean truth _ => .ok { id := scratchId position, kind := .constant, truth := some truth }
  | .choice option _ => .ok { id := scratchId position, kind := .constant, text := some option }
  | .variable reference _ =>
    .ok { id := scratchId position,
          kind := if reference.scope = factScope then .factRef else .variableRef,
          reference := some reference.key }
  | .statement _ selector =>
    .ok { id := scratchId position, kind := .variableRef, reference := some selector.text }
  | .unsupported => .error .unsupportedValue

/-- The three expressions of a condition: both sides and the operator. -/
def Condition.lower (position : Nat) (condition : Condition) :
    Except CompileError (List Expression) :=
  match condition.left.lower position with
  | .error error => .error error
  | .ok left =>
    match condition.right.lower (position + 1) with
    | .error error => .error error
    | .ok right =>
      .ok [left, right,
        { id := scratchId (position + 2), kind := .operator,
          operator := some condition.operator,
          left := some left.id, right := some right.id }]

def Adjustment.lowerList (position : Nat) :
    List Adjustment → Except CompileError (List Expression × List StatementRecord)
  | [] => .ok ([], [])
  | adjustment :: rest =>
    match adjustment.value.lower position with
    | .error error => .error error
    | .ok expression =>
      match lowerList (position + 1) rest with
      | .error error => .error error
      | .ok (expressions, statements) =>
        .ok (expression :: expressions, ⟨adjustment.operation, expression.id⟩ :: statements)

/-- A compiled return: its condition, if a case has put one on it, and what it
produces. -/
structure Leaf where
  condition : Option Int
  outcome : BranchOutcome
  deriving DecidableEq

/-- The compiled form of a part of a tree. -/
structure Flattened where
  expressions : List Expression
  leaves : List Leaf
  deriving DecidableEq

namespace Flattened

/-- Nothing. -/
def empty : Flattened := ⟨[], []⟩

/-- One part after another. -/
def append (first second : Flattened) : Flattened :=
  ⟨first.expressions ++ second.expressions, first.leaves ++ second.leaves⟩

/-- Puts a condition on the first leaf. -/
def guardFirst (condition : Int) : List Leaf → List Leaf
  | [] => []
  | first :: rest => { first with condition := some condition } :: rest

/-- A case: the expressions of its condition, then its body under the condition. -/
def ofCase (guard : List Expression) (position : Nat) (body : Flattened) : Flattened :=
  ⟨guard ++ body.expressions, guardFirst (scratchId (position + 2)) body.leaves⟩

/-- The branch records of leaves, numbered from left to right. -/
def records (leaves : List Leaf) : List BranchRecord :=
  leaves.zipIdx.map fun (leaf, index) => ⟨index, leaf.condition, leaf.outcome⟩

def toCompiled (whole : Flattened) : CompiledTree :=
  ⟨whole.expressions, records whole.leaves⟩

end Flattened

/-- How an outcome is compiled at a position. -/
abbrev LowerOutcome (Outcome : Type) :=
  Nat → Outcome → Except CompileError (List Expression × BranchOutcome)

namespace Tree

variable {Outcome : Type}

mutual

/-- Compiles a tree whose first expression stands at a position. -/
def flatten (lower : LowerOutcome Outcome) (position : Nat) :
    Tree Outcome → Except CompileError Flattened
  | .returns outcome =>
    match lower position outcome with
    | .error error => .error error
    | .ok (expressions, result) => .ok ⟨expressions, [⟨none, result⟩]⟩
  | .decides cases otherwise =>
    match flattenCases lower position cases with
    | .error error => .error error
    | .ok front =>
      match flatten lower (position + front.expressions.length) otherwise with
      | .error error => .error error
      | .ok back => .ok (front.append back)

/-- Compiles cases, first case first. -/
def flattenCases (lower : LowerOutcome Outcome) (position : Nat) :
    List (Case (Tree Outcome)) → Except CompileError Flattened
  | [] => .ok .empty
  | ⟨condition, body⟩ :: rest =>
    match condition.lower position with
    | .error error => .error error
    | .ok guard =>
      match flatten lower (position + 3) body with
      | .error error => .error error
      | .ok inner =>
        let first := Flattened.ofCase guard position inner
        match flattenCases lower (position + first.expressions.length) rest with
        | .error error => .error error
        | .ok others => .ok (first.append others)

end

end Tree

def Value.lowerOutcome : LowerOutcome Value := fun position value =>
  (value.lower position).map fun expression => ([expression], .returns expression.id)

def Adjustment.lowerOutcome : LowerOutcome (List Adjustment) := fun position adjustments =>
  (lowerList position adjustments).map fun (expressions, statements) =>
    (expressions, .statements statements)

def IfTree.compile (tree : IfTree) : Except CompileError CompiledTree :=
  (Tree.flatten Value.lowerOutcome 0 tree).map Flattened.toCompiled

def AdjustmentTree.compile (tree : AdjustmentTree) : Except CompileError CompiledTree :=
  (Tree.flatten Adjustment.lowerOutcome 0 tree).map Flattened.toCompiled

end DecisionCanvas
