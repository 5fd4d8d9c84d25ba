import DecisionCanvas.Directory

/-!
# Looking things up in changed directories

What is filed under a key after one operation, as an equation in what was filed
before.  A change under one key is never seen under another.
-/

namespace DecisionCanvas.Directory

variable {Entry : Type}

/-- The first pair answers for its key, the others for all other keys. -/
theorem lookup_pair (key other : String) (entry : Entry) (entries : List (String × Entry)) :
    ((key, entry) :: entries).lookup other =
      if other = key then some entry else entries.lookup other := by
  by_cases same : other = key
  · simp [same]
  · simp [List.lookup_cons, same, beq_false_of_ne same]

/-- Placing an entry changes what is found under its key only. -/
theorem lookup_place (key other : String) (entry : Entry) (entries : List (String × Entry)) :
    (place key entry entries).lookup other =
      if other = key then some entry else entries.lookup other := by
  induction entries with
  | nil => simp only [place, lookup_pair]
  | cons first rest ih =>
    obtain ⟨firstKey, firstEntry⟩ := first
    unfold place
    split
    · simp only [lookup_pair]
    · split
      · rename_i equal
        simp only at equal
        subst equal
        simp only [lookup_pair]
        split <;> rfl
      · rename_i different
        simp only [lookup_pair, ih]
        by_cases same : other = key
        · subst same
          simp only [if_neg different, if_true]
        · simp only [if_neg same]

theorem lookup_filter_ne (key other : String) (entries : List (String × Entry)) :
    (entries.filter fun pair => pair.1 != key).lookup other =
      if other = key then none else entries.lookup other := by
  induction entries with
  | nil => simp
  | cons first rest ih =>
    obtain ⟨firstKey, firstEntry⟩ := first
    by_cases kept : firstKey = key
    · subst kept
      simp only [List.filter_cons, bne_self_eq_false, lookup_pair]
      split <;> simp_all
    · simp only [List.filter_cons, bne_iff_ne.2 kept, if_true, lookup_pair, ih]
      by_cases same : other = key
      · subst same
        simp [Ne.symm kept]
      · simp [same]

theorem lookup_map_at (key other : String) (change : Entry → Entry)
    (entries : List (String × Entry)) :
    (entries.map fun pair => if pair.1 = key then (pair.1, change pair.2) else pair).lookup other =
      if other = key then (entries.lookup other).map change else entries.lookup other := by
  induction entries with
  | nil => simp
  | cons first rest ih =>
    obtain ⟨firstKey, firstEntry⟩ := first
    simp only [List.map_cons]
    by_cases here : firstKey = key
    · subst here
      simp only [if_true, lookup_pair, ih]
      split <;> rfl
    · simp only [if_neg here, lookup_pair, ih]
      by_cases same : other = key
      · subst same
        simp [Ne.symm here]
      · simp [same]

@[simp] theorem get?_empty (key : String) : (empty : Directory Entry).get? key = none := rfl

@[simp] theorem get?_insert (directory : Directory Entry) (key other : String) (entry : Entry) :
    (directory.insert key entry).get? other =
      if other = key then some entry else directory.get? other :=
  lookup_place key other entry directory.entries

@[simp] theorem get?_erase (directory : Directory Entry) (key other : String) :
    (directory.erase key).get? other = if other = key then none else directory.get? other :=
  lookup_filter_ne key other directory.entries

@[simp] theorem get?_modify (directory : Directory Entry) (key other : String)
    (change : Entry → Entry) :
    (directory.modify key change).get? other =
      if other = key then (directory.get? other).map change else directory.get? other :=
  lookup_map_at key other change directory.entries

end DecisionCanvas.Directory
