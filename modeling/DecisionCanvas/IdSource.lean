import DecisionCanvas.Uuid

/-!
# Fresh UUIDs

A source hands out UUIDs one after another.  Sixty bits come from its seed and
sixty more count what has been handed out, so no UUID comes twice; the rest says
that the UUID is a random one.
-/

namespace DecisionCanvas

structure IdSource where
  seed : Nat
  drawn : Nat
  deriving DecidableEq, Inhabited

namespace IdSource

def lastDigits (count number : Nat) : List (Fin 16) :=
  (List.range count).map fun place =>
    ⟨number / Nat.pow 16 (count - 1 - place) % 16, Nat.mod_lt _ (Nat.succ_pos 15)⟩

theorem length_lastDigits (count number : Nat) : (lastDigits count number).length = count := by
  simp [lastDigits]

/-- The UUID handed out after so many others. -/
def uuidAt (source : IdSource) (drawn : Nat) : Uuid where
  digits := lastDigits 12 (source.seed / Nat.pow 16 3) ++
    ⟨4, by decide⟩ :: lastDigits 3 source.seed ++ ⟨8, by decide⟩ :: lastDigits 15 drawn
  length_digits := by simp [length_lastDigits]

def draw (source : IdSource) : Uuid × IdSource :=
  (source.uuidAt source.drawn, { source with drawn := source.drawn + 1 })

end IdSource

end DecisionCanvas
