import DecisionCanvas.Proofs.Canvas.Nearest
import DecisionCanvas.Proofs.Canvas.Spacing
import Mathlib.Data.Rat.Floor

/-!
# The closest slot in closed form

In exact arithmetic two neighbouring centres are equally far from the border of their slots.
So the scan over all centres ends at the slot that holds a place, borders counting to the slot
on their left, and at the first or the last slot for a place outside the line.
-/

namespace DecisionCanvas

namespace Line

/-- Of two points the left one is at least as near up to the middle between them. -/
theorem abs_sub_le_abs_sub_iff {left right place : Rat} (hlt : left < right) :
    |place - left| ≤ |place - right| ↔ place ≤ (left + right) / 2 := by
  have hfactors : (place - right) ^ 2 - (place - left) ^ 2 =
      (right - left) * (left + right - 2 * place) := by ring
  rw [← sq_le_sq, ← sub_nonneg, hfactors, mul_nonneg_iff_of_pos_left (sub_pos.mpr hlt)]
  constructor <;> intro h <;> linarith

section Borders

variable {count : Nat} {width place : Rat} (hcount : 0 < count) (hwidth : 0 < width)
include hcount hwidth

theorem slot_pos : 0 < width / count :=
  div_pos hwidth (Nat.cast_pos.mpr hcount)

/-- The centre of a slot is at least as near as that of the next one up to the border between
them. -/
theorem nearer_than_next_iff (index : Nat) :
    |place - centre width count index| ≤ |place - centre width count (index + 1)| ↔
      place ≤ (index + 1) * (width / count) := by
  have hlt : centre width count index < centre width count (index + 1) := by
    rw [← sub_pos, centre_sub_centre]
    have hslot := slot_pos hcount hwidth
    push_cast
    linarith
  have hmiddle : (centre width count index + centre width count (index + 1)) / 2 =
      (index + 1) * (width / count) := by
    rw [centre_eq, centre_eq]
    push_cast
    ring
  rw [abs_sub_le_abs_sub_iff hlt, hmiddle]

/-- Only the border between two slots is equally far from both centres. -/
theorem eq_border_of_tie {index : Nat}
    (htie : |place - centre width count index| = |place - centre width count (index + 1)|) :
    place = (index + 1) * (width / count) := by
  have hslot := slot_pos hcount hwidth
  rw [centre_eq, centre_eq, abs_eq_abs, Nat.cast_add_one] at htie
  obtain hsame | hopposite := htie <;> linarith

/-- Whether a place belongs to a slot: it is right of the left border, unless the slot is the
first one, and not right of the right border, unless the slot is the last one. -/
structure InSlot (width : Rat) (count : Nat) (place : Rat) (slot : Nat) : Prop where
  lt_count : slot < count
  left : 0 < slot → slot * (width / count) < place
  right : slot + 1 < count → place ≤ (slot + 1) * (width / count)

theorem inSlot_closestSlot (place : Rat) :
    InSlot width count place (closestSlot place width count) := by
  have hnearest := firstNearest_closestSlot place width hcount
  have hlt := hnearest.lt_length
  rw [length_centres] at hlt
  generalize closestSlot place width count = slot at hnearest hlt
  refine ⟨hlt, fun hpos => ?_, fun hnext => ?_⟩
  · obtain ⟨before, rfl⟩ := Nat.exists_eq_add_one_of_ne_zero hpos.ne'
    have hstrict := hnearest.first before (Nat.lt_succ_self before) _
      (getElem?_centres width (Nat.lt_of_succ_lt hlt))
    have hborder := (nearer_than_next_iff hcount hwidth before).not.mp (not_le.mpr hstrict)
    rw [Nat.cast_add_one]
    exact not_le.mp hborder
  · have hnextCentre := List.mem_of_getElem? (getElem?_centres width hnext)
    exact (nearer_than_next_iff hcount hwidth slot).mp (hnearest.least _ hnextCentre)

/-- Slots are in the order of the places that belong to them. -/
theorem InSlot.mono {further : Rat} {slot other : Nat} (hslot : InSlot width count place slot)
    (hother : InSlot width count further other) (hle : place ≤ further) : slot ≤ other := by
  by_contra hback
  have hbefore : other + 1 ≤ slot := not_le.mp hback
  have hborders : ((other : Rat) + 1) * (width / count) ≤ slot * (width / count) :=
    mul_le_mul_of_nonneg_right (by exact_mod_cast hbefore) (slot_pos hcount hwidth).le
  have hround : place < place :=
    calc place ≤ further := hle
      _ ≤ (other + 1) * (width / count) := hother.right (hbefore.trans_lt hslot.lt_count)
      _ ≤ slot * (width / count) := hborders
      _ < place := hslot.left (Nat.zero_lt_of_lt hbefore)
  exact lt_irrefl place hround

theorem closestSlot_eq_iff {slot : Nat} :
    closestSlot place width count = slot ↔ InSlot width count place slot := by
  have hclosest := inSlot_closestSlot hcount hwidth place
  constructor
  · rintro rfl
    exact hclosest
  · intro hslot
    exact le_antisymm (hclosest.mono hcount hwidth hslot le_rfl)
      (hslot.mono hcount hwidth hclosest le_rfl)

/-- A slot is known by how many slots, of which the last may be cut, reach from the start of
the line to the place. -/
theorem InSlot.eq_ceil {slot : Nat} (hslot : InSlot width count place slot) :
    (slot : Int) = min (count - 1 : Int) (max 0 (⌈place * count / width⌉ - 1)) := by
  have hcount : 0 < (count : Rat) := Nat.cast_pos.mpr hcount
  have hleft : 0 < slot → (slot : Int) < ⌈place * count / width⌉ := by
    intro hpos
    have hborder := hslot.left hpos
    rw [← mul_div_assoc, div_lt_iff₀ hcount] at hborder
    rw [Int.lt_ceil, lt_div_iff₀ hwidth]
    exact_mod_cast hborder
  have hright : slot + 1 < count → ⌈place * count / width⌉ ≤ (slot : Int) + 1 := by
    intro hnext
    have hborder := hslot.right hnext
    rw [← mul_div_assoc, le_div_iff₀ hcount] at hborder
    rw [Int.ceil_le, div_le_iff₀ hwidth]
    exact_mod_cast hborder
  have hlt := hslot.lt_count
  omega

/-- The border between two slots belongs to the left one. -/
theorem inSlot_of_border {index : Nat} (hindex : index + 1 < count)
    (hborder : place = (index + 1) * (width / count)) : InSlot width count place index where
  lt_count := Nat.lt_of_succ_lt hindex
  left _ := by
    rw [hborder]
    exact mul_lt_mul_of_pos_right (lt_add_one _) (slot_pos hcount hwidth)
  right _ := hborder.le

omit hcount hwidth in
/-- A place that is less than half a slot from a centre belongs to its slot. -/
theorem inSlot_of_near {index : Nat} (hindex : index < count)
    (hnear : |place - centre width count index| < width / count / 2) :
    InSlot width count place index := by
  rw [abs_lt, centre_eq] at hnear
  refine ⟨hindex, fun _ => ?_, fun _ => ?_⟩ <;> linarith

end Borders

/-! ## The slot that is found -/

/-- What the slot that is found for a place is. -/
structure Closest (width : Rat) (count : Nat) (place : Rat) (slot : Nat) : Prop where
  closed_form : (slot : Int) = min (count - 1 : Int) (max 0 (⌈place * count / width⌉ - 1))
  lt_count : slot < count
  nearest : ∀ index < count,
    |place - centre width count slot| ≤ |place - centre width count index|
  left_of_tie : ∀ index, index + 1 < count →
    |place - centre width count index| = |place - centre width count (index + 1)| → slot = index
  within_half : ∀ index < count,
    |place - centre width count index| < width / count / 2 → slot = index

/-- In a line of some width with some slots, the slot that is found for a place has a closed
form, no centre is nearer to the place, of two neighbours equally far it is the left one, and
it never goes back as the place moves on. -/
theorem closest_closestSlot {count : Nat} (hcount : 0 < count) {width : Rat}
    (hwidth : 0 < width) :
    (∀ place, Closest width count place (closestSlot place width count)) ∧
      Monotone fun place => closestSlot place width count := by
  have hslot := inSlot_closestSlot hcount hwidth
  refine ⟨fun place => ⟨(hslot place).eq_ceil hcount hwidth, (hslot place).lt_count,
    fun index hindex => ?_, fun index hindex htie => ?_, fun index hindex hnear => ?_⟩,
    fun place further hle => (hslot place).mono hcount hwidth (hslot further) hle⟩
  · exact (firstNearest_closestSlot place width hcount).least _
      (List.mem_of_getElem? (getElem?_centres width hindex))
  · have hborder := eq_border_of_tie hcount hwidth htie
    exact (closestSlot_eq_iff hcount hwidth).mpr (inSlot_of_border hcount hwidth hindex hborder)
  · exact (closestSlot_eq_iff hcount hwidth).mpr (inSlot_of_near hindex hnear)

/-- The border between the second and the third of four slots belongs to the second, and a
place beyond the line to the last. -/
theorem closest_closestSlot_four :
    closestSlot (176 : Rat) 352 4 = 1 ∧ Closest 352 4 176 1 ∧
      closestSlot (402 : Rat) 352 4 = 3 ∧
      closestSlot (176 : Rat) 352 4 ≤ closestSlot (402 : Rat) 352 4 := by
  have hborder : closestSlot (176 : Rat) 352 4 = 1 := by decide +kernel
  obtain ⟨hclosest, hmono⟩ := @closest_closestSlot 4 (by decide) 352 (by decide +kernel)
  exact ⟨hborder, hborder ▸ hclosest 176, by decide +kernel, hmono (by decide +kernel)⟩

end Line

end DecisionCanvas
