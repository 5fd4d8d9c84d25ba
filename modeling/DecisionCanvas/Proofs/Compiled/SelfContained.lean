import DecisionCanvas.Compiled.Check

/-!
# Self-contained compiled trees

The check of a compiled tree looks for a first fault.  It finds none exactly when
ids are distinct and everything that is referred to is defined.
-/

namespace DecisionCanvas

namespace CompiledTree

/-- The ids that the expressions of a tree define. -/
def definedIds (tree : CompiledTree) : List Int :=
  tree.expressions.map Expression.id

/-- A compiled tree that stands on its own. -/
structure SelfContained (tree : CompiledTree) : Prop where
  ids_distinct : tree.definedIds.Nodup
  children_defined : ∀ expression ∈ tree.expressions, ∀ child ∈ expression.children,
    child ∈ tree.definedIds
  branches_defined : ∀ record ∈ tree.branches, ∀ id ∈ record.referenced,
    id ∈ tree.definedIds

end CompiledTree

theorem firstRepeated_eq_none_iff {seen ids : List Int} :
    firstRepeated seen ids = none ↔ ids.Nodup ∧ ∀ id ∈ ids, id ∉ seen := by
  induction ids generalizing seen with
  | nil => simp [firstRepeated]
  | cons id rest ih =>
      rw [firstRepeated]
      by_cases hseen : id ∈ seen
      · simp [hseen]
      · rw [if_neg (by simpa using hseen), ih]
        simp only [List.nodup_cons, List.mem_cons, not_or]
        constructor
        · rintro ⟨hrest, hapart⟩
          refine ⟨⟨fun hmem => (hapart id hmem).1 rfl, hrest⟩, ?_⟩
          rintro other (rfl | hother)
          · exact hseen
          · exact (hapart other hother).2
        · rintro ⟨⟨hnotin, hrest⟩, hapart⟩
          refine ⟨hrest, fun other hother => ⟨?_, hapart other (Or.inr hother)⟩⟩
          rintro rfl
          exact hnotin hother

theorem firstUndefined_eq_none_iff {defined ids : List Int} :
    firstUndefined defined ids = none ↔ ∀ id ∈ ids, id ∈ defined := by
  simp [firstUndefined, List.find?_eq_none]

theorem danglingExpression?_eq_none_iff {defined : List Int} {expressions : List Expression} :
    danglingExpression? defined expressions = none ↔
      ∀ expression ∈ expressions, ∀ child ∈ expression.children, child ∈ defined := by
  simp only [danglingExpression?, List.findSome?_eq_none_iff, Option.map_eq_none_iff,
    firstUndefined_eq_none_iff]

theorem danglingBranch?_eq_none_iff {defined : List Int} {branches : List BranchRecord} :
    danglingBranch? defined branches = none ↔
      ∀ record ∈ branches, ∀ id ∈ record.referenced, id ∈ defined := by
  simp only [danglingBranch?, List.findSome?_eq_none_iff, Option.map_eq_none_iff,
    firstUndefined_eq_none_iff]

namespace CompiledTree

theorem fault?_eq_none_iff {tree : CompiledTree} : tree.fault? = none ↔ tree.SelfContained := by
  simp only [fault?, Option.or_eq_none_iff, Option.map_eq_none_iff, firstRepeated_eq_none_iff,
    danglingExpression?_eq_none_iff, danglingBranch?_eq_none_iff]
  constructor
  · rintro ⟨⟨hdistinct, _⟩, hchildren, hbranches⟩
    exact ⟨hdistinct, hchildren, hbranches⟩
  · rintro ⟨hdistinct, hchildren, hbranches⟩
    exact ⟨⟨hdistinct, fun _ _ => List.not_mem_nil⟩, hchildren, hbranches⟩

theorem check_eq_ok_iff {tree : CompiledTree} : tree.check = .ok () ↔ tree.SelfContained := by
  rw [← fault?_eq_none_iff, check]
  cases tree.fault? with
  | none => simp
  | some fault => simp

end CompiledTree

end DecisionCanvas
