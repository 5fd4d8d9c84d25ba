import DecisionCanvas.Proofs.Compiled.Shape
import DecisionCanvas.Proofs.Tree.Places
import Mathlib.Data.List.Forall2

/-!
# What compiling keeps of a tree

However deep a tree nests, its records are its returns from left to right, each compiled
at its own place.  Of the conditions above a return only one is kept: that of the
outermost case that opens there.
-/

namespace DecisionCanvas

/-- The id of the operator of the condition. -/
def CasePlace.operatorId (case : CasePlace) : Int :=
  scratchId (case.position + 2)

/-- What a record says besides its number. -/
def BranchRecord.leaf (record : BranchRecord) : Leaf :=
  ⟨record.condition, record.outcome⟩

@[simp]
theorem Flattened.map_leaf_records (leaves : List Leaf) :
    (records leaves).map BranchRecord.leaf = leaves := by
  rw [records, List.map_map]
  exact List.zipIdx_map_fst 0 leaves

/-- How many expressions an outcome takes when it is compiled. -/
structure LowerOutcome.Takes {Outcome : Type} (lower : LowerOutcome Outcome)
    (width : Outcome → Nat) : Prop where
  length_eq : ∀ {position outcome expressions result},
    lower position outcome = .ok (expressions, result) → expressions.length = width outcome

theorem Value.lowerOutcome_takes : LowerOutcome.Takes Value.lowerOutcome fun _ => 1 where
  length_eq := by
    intro position value expressions result hlower
    obtain ⟨expression, -, rfl, -⟩ := lowerOutcome_eq_ok hlower
    rfl

theorem Adjustment.length_lowerList {position : Nat} {adjustments : List Adjustment}
    {expressions : List Expression} {statements : List StatementRecord}
    (hlower : lowerList position adjustments = .ok (expressions, statements)) :
    expressions.length = adjustments.length := by
  induction adjustments generalizing position expressions statements with
  | nil =>
      simp only [lowerList, Except.ok.injEq, Prod.mk.injEq] at hlower
      rw [← hlower.1]
      rfl
  | cons adjustment rest ih =>
      obtain ⟨expression, others, othersStatements, -, hrest, rfl, -⟩ :=
        lowerList_cons_eq_ok hlower
      rw [List.length_cons, List.length_cons, ih hrest]

theorem Adjustment.lowerOutcome_takes : LowerOutcome.Takes lowerOutcome List.length where
  length_eq := by
    intro position adjustments expressions result hlower
    obtain ⟨statements, hlist, -⟩ := lowerOutcome_eq_ok hlower
    exact length_lowerList hlist

section Compiled

variable {Outcome : Type} (lower : LowerOutcome Outcome) (expressions : List Expression)

/-- Whether a leaf is what a return at its place is compiled to: its outcome, and the
condition of the outermost of the cases that open there. -/
structure ReturnPlace.CompiledTo (place : ReturnPlace Outcome) (leaf : Leaf) : Prop where
  outcome : ∃ operands, lower place.position place.outcome = .ok (operands, leaf.outcome) ∧
    operands ⊆ expressions
  opening : ∀ case ∈ place.opening, ∃ left right operator,
    case.condition.lower case.position = .ok [left, right, operator] ∧
      operator.id = case.operatorId ∧ [left, right, operator] ⊆ expressions
  condition : leaf.condition = place.opening.head?.map CasePlace.operatorId

end Compiled

namespace ReturnPlace.CompiledTo

variable {Outcome : Type} {lower : LowerOutcome Outcome} {expressions more : List Expression}
variable {place : ReturnPlace Outcome} {leaf : Leaf}

theorem mono (hplace : place.CompiledTo lower expressions leaf) (hmore : expressions ⊆ more) :
    place.CompiledTo lower more leaf where
  outcome := by
    obtain ⟨operands, hlower, hoperands⟩ := hplace.outcome
    exact ⟨operands, hlower, List.Subset.trans hoperands hmore⟩
  opening := by
    intro case hcase
    obtain ⟨left, right, operator, hlower, hid, hguard⟩ := hplace.opening case hcase
    exact ⟨left, right, operator, hlower, hid, List.Subset.trans hguard hmore⟩
  condition := hplace.condition

theorem forall₂_mono {places : List (ReturnPlace Outcome)} {leaves : List Leaf}
    (hplaces : List.Forall₂ (CompiledTo lower expressions) places leaves)
    (hmore : expressions ⊆ more) : List.Forall₂ (CompiledTo lower more) places leaves :=
  hplaces.imp fun _ _ hplace => hplace.mono hmore

/-- A return keeps its outcome when one more case opens there, and takes the condition of
that case. -/
theorem openFirst {position : Nat} {condition : Condition} {guard : List Expression}
    (hguard : condition.lower position = .ok guard) (hwritten : guard ⊆ expressions)
    {places : List (ReturnPlace Outcome)} {leaves : List Leaf}
    (hplaces : List.Forall₂ (CompiledTo lower expressions) places leaves) :
    List.Forall₂ (CompiledTo lower expressions)
      (ReturnPlace.openFirst ⟨position, condition⟩ places)
      (Flattened.guardFirst (scratchId (position + 2)) leaves) := by
  cases hplaces with
  | nil => exact .nil
  | @cons place leaf places leaves hfirst hrest =>
      refine .cons ⟨hfirst.outcome, ?_, rfl⟩ hrest
      intro case hcase
      cases List.mem_cons.mp hcase with
      | inl hown =>
          obtain ⟨left, right, -, -, rfl⟩ := Condition.lower_eq_ok hguard
          rw [hown]
          exact ⟨left, right, _, hguard, rfl, hwritten⟩
      | inr hinner => exact hfirst.opening case hinner

/-- A leaf has a condition exactly if its return is guarded. -/
theorem isNone_condition (hplace : place.CompiledTo lower expressions leaf) :
    leaf.condition.isNone = place.guarded.isDefault := by
  rw [hplace.condition, GuardedReturn.isDefault, guarded, Option.isNone_map, Option.isNone_map]

end ReturnPlace.CompiledTo

namespace Tree

variable {Outcome : Type} {lower : LowerOutcome Outcome} {width : Outcome → Nat}

/-- Compiling counts through the places of a tree, and compiles each return at its own. -/
theorem flattenInvariant_places
    (hwidth : lower.Takes width) : FlattenInvariant lower
      (fun position tree part => part.expressions.length = tree.span width ∧
        List.Forall₂ (ReturnPlace.CompiledTo lower part.expressions)
          (tree.returnPlaces width position) part.leaves)
      (fun position cases part => part.expressions.length = spanCases width cases ∧
        List.Forall₂ (ReturnPlace.CompiledTo lower part.expressions)
          (casePlaces width position cases) part.leaves) where
  returns := by
    intro position outcome expressions result houtcome
    refine ⟨by rw [span]; exact hwidth.length_eq houtcome, ?_⟩
    rw [returnPlaces]
    exact .cons ⟨⟨expressions, houtcome, List.Subset.refl _⟩, by simp, rfl⟩ .nil
  decides := by
    rintro position cases otherwise front back ⟨hfrontSpan, hfront⟩ ⟨hbackSpan, hback⟩
    constructor
    · rw [Flattened.append, span, List.length_append, hfrontSpan, hbackSpan]
    · rw [returnPlaces, ← hfrontSpan]
      apply List.rel_append
      · exact ReturnPlace.CompiledTo.forall₂_mono hfront (List.subset_append_left _ _)
      · exact ReturnPlace.CompiledTo.forall₂_mono hback (List.subset_append_right _ _)
  nil := by
    intro position
    rw [spanCases, casePlaces]
    exact ⟨rfl, .nil⟩
  cons := by
    rintro position condition body rest guard inner others hguard ⟨hinnerSpan, hinner⟩
      ⟨hothersSpan, hothers⟩
    obtain ⟨left, right, -, -, rfl⟩ := Condition.lower_eq_ok hguard
    have hspan : (Flattened.ofCase [left, right, condition.operatorExpression position left
        right] position inner).expressions.length = 3 + body.span width := by
      rw [Flattened.ofCase, List.length_append, hinnerSpan]
      rfl
    rw [hspan] at hothers
    constructor
    · rw [Flattened.append, List.length_append, hspan, hothersSpan, spanCases]
    · rw [casePlaces]
      apply List.rel_append
      · have hopened := ReturnPlace.CompiledTo.openFirst hguard (List.subset_append_left _ _)
          (ReturnPlace.CompiledTo.forall₂_mono hinner (List.subset_append_right _ _))
        exact ReturnPlace.CompiledTo.forall₂_mono hopened (List.subset_append_left _ _)
      · exact ReturnPlace.CompiledTo.forall₂_mono hothers (List.subset_append_right _ _)

/-- What a compiled tree keeps of a tree.  Its records are the returns of the tree in
order, and a return without condition is left for every body that contains a case. -/
structure KeptBy (lower : LowerOutcome Outcome) (width : Outcome → Nat) (tree : Tree Outcome)
    (compiled : CompiledTree) : Prop where
  records : List.Forall₂
    (fun place record => place.CompiledTo lower compiled.expressions record.leaf)
    (tree.returnPlaces width 0) compiled.branches
  last_default : compiled.branches.getLast?.map BranchRecord.isDefault = some true
  default_count : compiled.defaultCount = 1 + tree.bodies.countP hasCase
  single_default_iff : compiled.defaultCount = 1 ↔ ∀ body ∈ tree.bodies, body.hasCase = false

/-- The records of returns are defaults where the returns are. -/
theorem map_isDefault_of_records {tree : Tree Outcome} {compiled : CompiledTree}
    (hrecords : List.Forall₂
      (fun place record => ReturnPlace.CompiledTo lower compiled.expressions place record.leaf)
      (tree.returnPlaces width 0) compiled.branches) :
    compiled.branches.map BranchRecord.isDefault =
      tree.guardedReturns.map GuardedReturn.isDefault := by
  have hsame : List.Forall₂ (· = ·)
      (compiled.branches.map BranchRecord.isDefault)
      ((tree.returnPlaces width 0).map (GuardedReturn.isDefault ∘ ReturnPlace.guarded)) := by
    rw [List.forall₂_map_left_iff, List.forall₂_map_right_iff]
    exact hrecords.flip.imp fun _ _ hplace => hplace.isNone_condition
  rw [List.forall₂_eq_eq_eq] at hsame
  rw [hsame, ← List.map_map, map_guarded_returnPlaces]

theorem flatten_keptBy (hwidth : lower.Takes width)
    {tree : Tree Outcome} {whole : Flattened} (hflatten : flatten lower 0 tree = .ok whole) :
    tree.KeptBy lower width whole.toCompiled := by
  have hplaces := ((flattenInvariant_places hwidth).of_flatten hflatten).2
  have hrecords : List.Forall₂
      (fun place record => ReturnPlace.CompiledTo lower whole.expressions place record.leaf)
      (tree.returnPlaces width 0) (Flattened.records whole.leaves) := by
    rw [← List.forall₂_map_right_iff, Flattened.map_leaf_records]
    exact hplaces
  have hdefaults : whole.toCompiled.branches.map BranchRecord.isDefault =
      tree.guardedReturns.map GuardedReturn.isDefault := map_isDefault_of_records hrecords
  have hcount : whole.toCompiled.defaultCount = 1 + tree.bodies.countP hasCase := by
    rw [← tree.countP_isDefault_guardedReturns, CompiledTree.defaultCount]
    have hboth := congrArg (List.countP id) hdefaults
    rw [List.countP_map, List.countP_map] at hboth
    exact hboth
  refine ⟨hrecords, ?_, hcount, ?_⟩
  · obtain ⟨front, hfront⟩ := tree.exists_guardedReturns_eq_append
    rw [← List.getLast?_map, hdefaults, hfront, List.map_append, List.getLast?_append]
    rfl
  · rw [hcount]
    constructor
    · intro hone body hbody
      have hnone : tree.bodies.countP hasCase = 0 := by omega
      exact Bool.eq_false_iff.mpr (List.countP_eq_zero.mp hnone body hbody)
    · intro hflat
      have hnone : tree.bodies.countP hasCase = 0 := by
        apply List.countP_eq_zero.mpr
        intro body hbody
        simp [hflat body hbody]
      omega

end Tree

namespace CompiledTree

/-- What compiling keeps of any tree that compiles, however deep it nests. -/
theorem compile_keptBy :
    (∀ (tree : IfTree) (compiled : CompiledTree), tree.compile = .ok compiled →
      Tree.KeptBy Value.lowerOutcome (fun _ => 1) tree compiled) ∧
    ∀ (tree : AdjustmentTree) (compiled : CompiledTree), tree.compile = .ok compiled →
      Tree.KeptBy Adjustment.lowerOutcome List.length tree compiled := by
  constructor
  · intro tree compiled hcompile
    obtain ⟨whole, hflatten, rfl⟩ := IfTree.compile_eq_ok hcompile
    exact Tree.flatten_keptBy Value.lowerOutcome_takes hflatten
  · intro tree compiled hcompile
    obtain ⟨whole, hflatten, rfl⟩ := AdjustmentTree.compile_eq_ok hcompile
    exact Tree.flatten_keptBy Adjustment.lowerOutcome_takes hflatten

/-- A decision inside a body, once over values and once over adjustments. -/
theorem compile_keptBy_nested :
    let adult : Condition :=
      ⟨.variable ⟨"age", "", "", factScope⟩ none, .greater, .literal "18" none⟩
    let member : Condition := ⟨.choice "member" none, .equal, .boolean true none⟩
    let tree : IfTree :=
      .decides [⟨adult, .decides [⟨member, .returns (.literal "2" none)⟩]
        (.returns (.literal "1" none))⟩] (.returns (.literal "0" none))
    let adjustments : AdjustmentTree :=
      .decides [⟨adult, .decides [⟨member, .returns [⟨.plus, .literal "2" none⟩]⟩]
        (.returns [])⟩] (.returns [⟨.plus, .literal "1" none⟩, ⟨.times, .literal "3" none⟩])
    ∃ compiled compiledAdjustments,
      tree.compile = .ok compiled ∧ adjustments.compile = .ok compiledAdjustments ∧
      Tree.KeptBy Value.lowerOutcome (fun _ => 1) tree compiled ∧
      Tree.KeptBy Adjustment.lowerOutcome List.length adjustments compiledAdjustments := by
  intro adult member tree adjustments
  have hcompile : tree.compile.isOk = true := by decide +kernel
  have hcompileAdjustments : adjustments.compile.isOk = true := by decide +kernel
  obtain ⟨compiled, hresult⟩ := exists_of_isOk hcompile
  obtain ⟨compiledAdjustments, hresultAdjustments⟩ := exists_of_isOk hcompileAdjustments
  exact ⟨compiled, compiledAdjustments, hresult, hresultAdjustments,
    compile_keptBy.1 tree compiled hresult,
    compile_keptBy.2 adjustments compiledAdjustments hresultAdjustments⟩

end CompiledTree

end DecisionCanvas
