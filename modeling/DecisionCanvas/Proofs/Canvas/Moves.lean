import DecisionCanvas.Canvas.Line
import Mathlib.Data.List.InsertIdx
import Mathlib.Data.List.Nodup
import Mathlib.Data.List.Perm.Basic

/-!
# Moving an item of a line

A line before and after a move lists the same others in the same order, once each is rid of
the item that was moved.  That says as much of one line as of the other, and leaves only one
line that a move can come to.  So a move back restores the line.
-/

namespace DecisionCanvas

namespace Line

variable {Item : Type} {items moved : List Item} {source target place : Nat} {item : Item}

/-! ## An item and the others -/

theorem insertIdx_eraseIdx (hitem : items[place]? = some item) :
    (items.eraseIdx place).insertIdx place item = items := by
  obtain ⟨hlt, rfl⟩ := List.getElem?_eq_some_iff.mp hitem
  exact List.insertIdx_eraseIdx_getElem hlt

theorem cons_eraseIdx_perm (hitem : items[place]? = some item) :
    (item :: items.eraseIdx place).Perm items := by
  obtain ⟨hlt, rfl⟩ := List.getElem?_eq_some_iff.mp hitem
  exact List.getElem_cons_eraseIdx_perm hlt

theorem relocate_of_none (hsource : items[source]? = none) :
    relocate items source target = items := by
  rw [relocate, hsource]

/-- The last place that is left to go to is the last of the line. -/
theorem relocate_of_some (hsource : items[source]? = some item) :
    relocate items source target =
      (items.eraseIdx source).insertIdx (min target (items.length - 1)) item := by
  obtain ⟨hlt, -⟩ := List.getElem?_eq_some_iff.mp hsource
  rw [relocate, hsource, ← List.length_eraseIdx_of_lt hlt]

/-! ## Lines that differ by a move -/

/-- Whether a line is another one with the item at a place taken to some place: the item has
arrived there, and all others are in their order. -/
structure Relocated (items : List Item) (source : Nat) (moved : List Item) (place : Nat) :
    Prop where
  present : source < items.length
  arrived : moved[place]? = items[source]?
  others : moved.eraseIdx place = items.eraseIdx source

namespace Relocated

theorem refl (hsource : source < items.length) : Relocated items source items source :=
  ⟨hsource, rfl, rfl⟩

variable (hmoved : Relocated items source moved place)
include hmoved

theorem exists_item : ∃ item, items[source]? = some item ∧ moved[place]? = some item := by
  have hitem := List.getElem?_eq_getElem hmoved.present
  exact ⟨_, hitem, hmoved.arrived.trans hitem⟩

theorem place_lt : place < moved.length := by
  obtain ⟨item, -, harrived⟩ := hmoved.exists_item
  exact (List.getElem?_eq_some_iff.mp harrived).1

/-- Which of the two lines was there first cannot be told. -/
theorem symm : Relocated moved place items source :=
  ⟨hmoved.place_lt, hmoved.arrived.symm, hmoved.others.symm⟩

theorem perm : moved.Perm items := by
  obtain ⟨item, hitem, harrived⟩ := hmoved.exists_item
  have hline := (cons_eraseIdx_perm harrived).symm
  rw [hmoved.others] at hline
  exact hline.trans (cons_eraseIdx_perm hitem)

/-- There is no other line than the one that moving the item gives. -/
theorem relocate_eq : relocate items source place = moved := by
  obtain ⟨item, hitem, harrived⟩ := hmoved.exists_item
  have hplace : place ≤ items.length - 1 := by
    have hlt := hmoved.place_lt
    rw [hmoved.perm.length_eq] at hlt
    exact Nat.le_sub_one_of_lt hlt
  calc relocate items source place
      = (items.eraseIdx source).insertIdx (min place (items.length - 1)) item :=
        relocate_of_some hitem
    _ = (moved.eraseIdx place).insertIdx place item := by
        rw [Nat.min_eq_left hplace, hmoved.others]
    _ = moved := insertIdx_eraseIdx harrived

end Relocated

/-- Moving an item takes it as far as it is told to, but not beyond the end. -/
theorem relocated_relocate (hsource : source < items.length) (target : Nat) :
    Relocated items source (relocate items source target) (min target (items.length - 1)) := by
  have hitem := List.getElem?_eq_getElem hsource
  have hplace : min target (items.length - 1) ≤ (items.eraseIdx source).length := by
    rw [List.length_eraseIdx_of_lt hsource]
    exact Nat.min_le_right _ _
  refine ⟨hsource, ?_, ?_⟩
  · rw [relocate_of_some hitem, List.getElem?_insertIdx_self, if_pos hplace, hitem]
  · rw [relocate_of_some hitem, List.eraseIdx_insertIdx_self]

/-! ## Any move -/

/-- What is moved to its own place stays there. -/
theorem relocate_self (items : List Item) (place : Nat) : relocate items place place = items := by
  by_cases hplace : place < items.length
  · exact (Relocated.refl hplace).relocate_eq
  · exact relocate_of_none (List.getElem?_eq_none (Nat.le_of_not_lt hplace))

theorem relocate_perm (items : List Item) (source target : Nat) :
    (relocate items source target).Perm items := by
  by_cases hsource : source < items.length
  · exact (relocated_relocate hsource target).perm
  · rw [relocate_of_none (List.getElem?_eq_none (Nat.le_of_not_lt hsource))]

/-- The item that is moved arrives. -/
theorem getElem?_relocate (hsource : items[source]? = some item)
    (htarget : target < items.length) : (relocate items source target)[target]? = some item := by
  obtain ⟨hlt, -⟩ := List.getElem?_eq_some_iff.mp hsource
  have harrived := (relocated_relocate hlt target).arrived
  rwa [Nat.min_eq_left (Nat.le_sub_one_of_lt htarget), hsource] at harrived

/-- A move takes the item at a place of the line to the place it is told, or to the end if that
is nearer.  It keeps all others in their order, and moving the item back from there restores
the line.  A move from beyond the end does nothing. -/
theorem relocate_moves_one_item (items : List Item) (source target : Nat) :
    let place := min target (items.length - 1)
    let moved := relocate items source target
    (source < items.length →
      moved.Perm items ∧ Relocated items source moved place ∧
        relocate moved place source = items) ∧
      (items.length ≤ source → moved = items) := by
  intro place moved
  constructor
  · intro hsource
    have hmoved : Relocated items source moved place := relocated_relocate hsource target
    exact ⟨hmoved.perm, hmoved, hmoved.symm.relocate_eq⟩
  · intro hsource
    exact relocate_of_none (List.getElem?_eq_none hsource)

/-- The first of two equal items goes to the end and back. -/
theorem relocate_moves_one_item_past_end :
    relocate ["a", "b", "a", "c"] 0 99 = ["b", "a", "c", "a"] ∧
      Relocated ["a", "b", "a", "c"] 0 ["b", "a", "c", "a"] 3 ∧
      relocate ["b", "a", "c", "a"] 3 0 = ["a", "b", "a", "c"] ∧
      relocate ["b", "a", "c", "a"] 9 0 = ["b", "a", "c", "a"] := by
  obtain ⟨hpresent, -⟩ := relocate_moves_one_item ["a", "b", "a", "c"] 0 99
  obtain ⟨-, hmoved, hback⟩ := hpresent (by decide)
  obtain ⟨-, habsent⟩ := relocate_moves_one_item ["b", "a", "c", "a"] 9 0
  exact ⟨rfl, hmoved, hback, habsent (by decide)⟩

/-! ## Moves among distinct items -/

section Distinct

variable [DecidableEq Item]

/-- Of distinct items the moved one is taken out and put back at its new place. -/
theorem relocate_eq_insertIdx (hdistinct : items.Nodup) (hsource : items[source]? = some item)
    (htarget : target < items.length) :
    relocate items source target = (items.erase item).insertIdx target item := by
  rw [relocate_of_some hsource, Nat.min_eq_left (Nat.le_sub_one_of_lt htarget)]
  obtain ⟨hlt, rfl⟩ := List.getElem?_eq_some_iff.mp hsource
  rw [hdistinct.erase_getElem]

/-- An item that is put back where it was changes nothing. -/
theorem erase_insertIdx (hdistinct : items.Nodup) (htarget : items[target]? = some item) :
    (items.erase item).insertIdx target item = items := by
  obtain ⟨hlt, -⟩ := List.getElem?_eq_some_iff.mp htarget
  rw [← relocate_eq_insertIdx hdistinct htarget hlt, relocate_self]

/-- A new item that is put in and taken out again changes nothing. -/
theorem insertIdx_erase (hnew : item ∉ items) (htarget : target ≤ items.length) :
    (items.insertIdx target item).erase item = items := by
  induction items generalizing target with
  | nil =>
      rw [Nat.le_zero.mp htarget]
      exact List.erase_cons_head item []
  | cons first rest ih =>
      cases target with
      | zero => exact List.erase_cons_head item (first :: rest)
      | succ target =>
          have hfirst : ¬ (first == item) = true := by
            intro hsame
            exact hnew (beq_iff_eq.mp hsame ▸ List.mem_cons_self)
          rw [List.insertIdx_succ_cons, List.erase_cons_tail hfirst,
            ih (fun hmem => hnew (List.mem_cons_of_mem _ hmem)) (Nat.le_of_succ_le_succ htarget)]

/-- Moving from a place takes an item to another place exactly if it is the item that
stands at the first, or none stands there and it is at the second already. -/
theorem relocate_eq_insertIdx_iff (hdistinct : items.Nodup)
    (htarget : target ≤ items.length - 1) :
    relocate items source target = (items.erase item).insertIdx target item ↔
      items[source]? = some item ∨ items[source]? = none ∧ items[target]? = some item := by
  constructor
  · intro hmoved
    have hfits : target ≤ (items.erase item).length :=
      Nat.le_trans htarget List.le_length_erase
    have harrived : (relocate items source target)[target]? = some item := by
      rw [hmoved, List.getElem?_insertIdx_self, if_pos hfits]
    cases hsource : items[source]? with
    | none =>
        rw [relocate_of_none hsource] at harrived
        exact Or.inr ⟨rfl, harrived⟩
    | some other =>
        obtain ⟨hlt, -⟩ := List.getElem?_eq_some_iff.mp hsource
        rw [getElem?_relocate hsource (by omega)] at harrived
        exact Or.inl harrived
  · rintro (hsource | ⟨hsource, hheld⟩)
    · obtain ⟨hlt, -⟩ := List.getElem?_eq_some_iff.mp hsource
      exact relocate_eq_insertIdx hdistinct hsource (by omega)
    · rw [relocate_of_none hsource, erase_insertIdx hdistinct hheld]

end Distinct

end Line

end DecisionCanvas
