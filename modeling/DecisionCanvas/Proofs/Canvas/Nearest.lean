import DecisionCanvas.Proofs.Canvas.Layout
import Mathlib.Algebra.Order.Group.Unbundled.Abs
import Mathlib.Algebra.Order.Ring.Rat

/-!
# The nearest of several

In exact arithmetic a scan that goes over to an element only where it is strictly nearer ends
at the first of those with the least distance.  The rows that a fact snaps to and the slots
of a line are both found by such a scan.
-/

namespace DecisionCanvas

namespace Scalar

theorem distance_eq_abs (left right : Rat) : distance left right = |left - right| := by
  change (if left - right < 0 then -(left - right) else left - right) = |left - right|
  split
  · rename_i hneg
    exact (abs_of_neg hneg).symm
  · rename_i hnonneg
    exact (abs_of_nonneg (not_lt.mp hnonneg)).symm

theorem nearer_iff {left right : Rat} : nearer left right = true ↔ left < right :=
  decide_eq_true_iff

variable {Element : Type} {distance : Element → Rat}

/-- Whether the element at a place is the first of those with the least distance. -/
structure FirstNearest (distance : Element → Rat) (elements : List Element) (place : Nat)
    (element : Element) : Prop where
  here : elements[place]? = some element
  least : ∀ other ∈ elements, distance element ≤ distance other
  first : ∀ earlier < place, ∀ other, elements[earlier]? = some other →
    distance element < distance other

theorem firstNearest_singleton (distance : Element → Rat) (element : Element) :
    FirstNearest distance [element] 0 element where
  here := rfl
  least other hother := by rw [List.mem_singleton.mp hother]
  first earlier hearlier := absurd hearlier (Nat.not_lt_zero earlier)

namespace FirstNearest

variable {elements : List Element} {place : Nat} {element next : Element}

theorem lt_length (hnearest : FirstNearest distance elements place element) :
    place < elements.length :=
  (List.getElem?_eq_some_iff.mp hnearest.here).1

/-- One more element at the end is the new first if it is strictly nearer. -/
theorem concat_nearer (hnearest : FirstNearest distance elements place element)
    (hnext : distance next < distance element) :
    FirstNearest distance (elements ++ [next]) elements.length next where
  here := List.getElem?_concat_length
  least other hother := by
    rcases List.mem_append.mp hother with hold | hnew
    · exact hnext.le.trans (hnearest.least other hold)
    · rw [List.mem_singleton.mp hnew]
  first earlier hearlier other hother := by
    rw [List.getElem?_append_left hearlier] at hother
    exact hnext.trans_le (hnearest.least other (List.mem_of_getElem? hother))

theorem concat_not_nearer (hnearest : FirstNearest distance elements place element)
    (hnext : ¬ distance next < distance element) :
    FirstNearest distance (elements ++ [next]) place element where
  here := by
    rw [List.getElem?_append_left hnearest.lt_length]
    exact hnearest.here
  least other hother := by
    rcases List.mem_append.mp hother with hold | hnew
    · exact hnearest.least other hold
    · rw [List.mem_singleton.mp hnew]
      exact not_lt.mp hnext
  first earlier hearlier other hother := by
    rw [List.getElem?_append_left (hearlier.trans hnearest.lt_length)] at hother
    exact hnearest.first earlier hearlier other hother

/-- Some element is within a bound just when the first of the nearest is. -/
theorem exists_le_iff (hnearest : FirstNearest distance elements place element) {bound : Rat} :
    (∃ other ∈ elements, distance other ≤ bound) ↔ distance element ≤ bound := by
  constructor
  · rintro ⟨other, hother, hle⟩
    exact (hnearest.least other hother).trans hle
  · intro hle
    exact ⟨element, List.mem_of_getElem? hnearest.here, hle⟩

/-- Where elements go with their places, the place comes with the element. -/
theorem of_zipIdx {slot : Element × Nat}
    (hnearest : FirstNearest (fun slot => distance slot.1) elements.zipIdx place slot) :
    slot.2 = place ∧ FirstNearest distance elements place slot.1 := by
  have hslot : ∀ index : Nat,
      elements.zipIdx[index]? = elements[index]?.map fun item => (item, index) := by
    intro index
    rw [List.getElem?_zipIdx, Nat.zero_add]
  have hhere := hnearest.here
  rw [hslot, Option.map_eq_some_iff] at hhere
  obtain ⟨element, helement, rfl⟩ := hhere
  refine ⟨rfl, helement, fun other hother => ?_, fun earlier hearlier other hother => ?_⟩
  · obtain ⟨index, hindex⟩ := List.getElem?_of_mem hother
    refine hnearest.least (other, index) (List.mem_of_getElem? (i := index) ?_)
    rw [hslot, hindex, Option.map_some]
  · refine hnearest.first earlier hearlier (other, earlier) ?_
    rw [hslot, hother, Option.map_some]

end FirstNearest

/-- A scan carries on from the first nearest of what it has passed. -/
theorem exists_firstNearest_scan {passed : List Element} {place : Nat} {best : Element}
    (hbest : FirstNearest distance passed place best) (rest : List Element) :
    ∃ place, FirstNearest distance (passed ++ rest) place
      (rest.foldl (fun best next =>
        if nearer (distance next) (distance best) then next else best) best) := by
  induction rest generalizing passed place best with
  | nil =>
      rw [List.append_nil]
      exact ⟨place, hbest⟩
  | cons next rest ih =>
      rw [List.append_cons, List.foldl_cons]
      by_cases hnext : distance next < distance best
      · rw [if_pos (nearer_iff.mpr hnext)]
        exact ih (hbest.concat_nearer hnext)
      · rw [if_neg (nearer_iff.not.mpr hnext)]
        exact ih (hbest.concat_not_nearer hnext)

/-- The scan of any elements ends at the first nearest of them. -/
theorem exists_firstNearest (distance : Element → Rat) {elements : List Element}
    (hsome : elements ≠ []) :
    ∃ place element, nearestBy distance elements = some element ∧
      FirstNearest distance elements place element := by
  cases elements with
  | nil => exact absurd rfl hsome
  | cons first rest =>
      obtain ⟨place, hnearest⟩ :=
        exists_firstNearest_scan (firstNearest_singleton distance first) rest
      exact ⟨place, _, rfl, hnearest⟩

end Scalar

namespace Line

/-- The slot that is found is the first of those whose centre is nearest. -/
theorem firstNearest_closestSlot (place width : Rat) {count : Nat} (hcount : 0 < count) :
    Scalar.FirstNearest (fun centre => |place - centre|) (centres width count)
      (closestSlot place width count)
      (centre width count (closestSlot place width count)) := by
  have habs : (fun centre => |place - centre|) = Scalar.distance place :=
    funext fun centre => (Scalar.distance_eq_abs place centre).symm
  rw [habs]
  unfold closestSlot
  split
  · have hone : count = 1 := by omega
    subst hone
    exact Scalar.firstNearest_singleton _ _
  · have hsome : (centres width count).zipIdx ≠ [] := by
      rw [← List.length_pos_iff, List.length_zipIdx, length_centres]
      exact hcount
    obtain ⟨index, slot, hfound, hnearest⟩ :=
      Scalar.exists_firstNearest (fun slot => Scalar.distance place slot.1) hsome
    obtain ⟨hindex, hslot⟩ := hnearest.of_zipIdx
    simp only [hfound, hindex]
    have hlt : index < count := length_centres width count ▸ hslot.lt_length
    have hcentre := hslot.here.symm.trans (getElem?_centres width hlt)
    rwa [Option.some.inj hcentre] at hslot

end Line

end DecisionCanvas
