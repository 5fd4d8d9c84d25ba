import DecisionCanvas.Proofs.Tree.Returns

/-!
# Places in a tree

A tree is evaluated in a fixed order: every case by the three parts of its condition and
then its body, and what holds otherwise last.  Counting through in that order gives every
case and every return a place.  A case opens at the first return of its body.  Where cases
stand at the beginning of bodies, several of them open at one return.
-/

namespace DecisionCanvas

/-- A case and the place where its condition begins. -/
structure CasePlace where
  position : Nat
  condition : Condition

/-- A return, the place where it begins, and the cases whose body begins with it,
outermost case first. -/
structure ReturnPlace (Outcome : Type) where
  position : Nat
  outcome : Outcome
  opening : List CasePlace

namespace ReturnPlace

variable {Outcome : Type}

/-- The return with the condition of the outermost case that opens at it. -/
def guarded (place : ReturnPlace Outcome) : GuardedReturn Outcome :=
  ⟨place.opening.head?.map CasePlace.condition, place.outcome⟩

/-- Lets a case open at the first of some returns, outside of all that open there. -/
def openFirst (case : CasePlace) : List (ReturnPlace Outcome) → List (ReturnPlace Outcome)
  | [] => []
  | first :: rest => { first with opening := case :: first.opening } :: rest

theorem map_guarded_openFirst (case : CasePlace) (places : List (ReturnPlace Outcome)) :
    (openFirst case places).map guarded =
      GuardedReturn.guardFirst case.condition (places.map guarded) := by
  cases places with
  | nil => rfl
  | cons first rest => rfl

end ReturnPlace

namespace Tree

variable {Outcome : Type} (width : Outcome → Nat)

mutual

/-- How many places a tree takes, if an outcome takes as many as its width. -/
def span : Tree Outcome → Nat
  | .returns outcome => width outcome
  | .decides cases otherwise => spanCases cases + otherwise.span

/-- How many places cases take. -/
def spanCases : List (Case (Tree Outcome)) → Nat
  | [] => 0
  | ⟨_, body⟩ :: rest => 3 + body.span + spanCases rest

end

mutual

/-- The returns of a tree that begins at a position, from left to right. -/
def returnPlaces (position : Nat) : Tree Outcome → List (ReturnPlace Outcome)
  | .returns outcome => [⟨position, outcome, []⟩]
  | .decides cases otherwise =>
    casePlaces position cases ++ otherwise.returnPlaces (position + spanCases width cases)

/-- The returns of cases that begin at a position. -/
def casePlaces (position : Nat) : List (Case (Tree Outcome)) → List (ReturnPlace Outcome)
  | [] => []
  | ⟨condition, body⟩ :: rest =>
    ReturnPlace.openFirst ⟨position, condition⟩ (body.returnPlaces (position + 3)) ++
      casePlaces (position + (3 + body.span width)) rest

end

mutual

/-- Of the cases that open at a return the outermost one guards it. -/
theorem map_guarded_returnPlaces (position : Nat) (tree : Tree Outcome) :
    (tree.returnPlaces width position).map ReturnPlace.guarded = tree.guardedReturns := by
  match tree with
  | .returns outcome =>
      rw [returnPlaces, guardedReturns]
      rfl
  | .decides cases otherwise =>
      rw [returnPlaces, guardedReturns, List.map_append, map_guarded_casePlaces,
        map_guarded_returnPlaces]

theorem map_guarded_casePlaces (position : Nat) (cases : List (Case (Tree Outcome))) :
    (casePlaces width position cases).map ReturnPlace.guarded = guardedCases cases := by
  match cases with
  | [] =>
      rw [casePlaces, guardedCases]
      rfl
  | ⟨condition, body⟩ :: rest =>
      rw [casePlaces, guardedCases, List.map_append, ReturnPlace.map_guarded_openFirst,
        map_guarded_returnPlaces, map_guarded_casePlaces]

end

end Tree

end DecisionCanvas
