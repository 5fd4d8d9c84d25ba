/-!
# Directories

A directory files one entry under each of its keys and lists them in the order
of the keys, which compare by code point.  The order belongs to the type, so two
directories with the same entries are the same directory.
-/

namespace DecisionCanvas

/-- Entries under distinct keys, keys ascending. -/
structure Directory (Entry : Type) where
  entries : List (String × Entry)
  ascending : entries.Pairwise fun earlier later => earlier.1 < later.1

namespace Directory

variable {Entry Other : Type}

instance [DecidableEq Entry] : DecidableEq (Directory Entry) := fun left right =>
  decidable_of_iff (left.entries = right.entries)
    ⟨fun same => by cases left; cases right; cases same; rfl, fun same => by rw [same]⟩

def empty : Directory Entry := ⟨[], List.Pairwise.nil⟩

instance : Inhabited (Directory Entry) := ⟨empty⟩

def get? (directory : Directory Entry) (key : String) : Option Entry :=
  directory.entries.lookup key

def contains (directory : Directory Entry) (key : String) : Bool :=
  (directory.get? key).isSome

def keys (directory : Directory Entry) : List String :=
  directory.entries.map Prod.fst

def values (directory : Directory Entry) : List Entry :=
  directory.entries.map Prod.snd

/-- Places an entry before the first greater key, over an equal one. -/
def place (key : String) (entry : Entry) : List (String × Entry) → List (String × Entry)
  | [] => [(key, entry)]
  | first :: rest =>
    if key < first.1 then (key, entry) :: first :: rest
    else if key = first.1 then (key, entry) :: rest
    else first :: place key entry rest

theorem mem_place {key : String} {entry : Entry} {entries : List (String × Entry)}
    {pair : String × Entry} (member : pair ∈ place key entry entries) :
    pair = (key, entry) ∨ pair ∈ entries := by
  induction entries with
  | nil => simpa [place] using member
  | cons first rest ih =>
    unfold place at member
    split at member
    · simpa using member
    · split at member
      · rcases List.mem_cons.1 member with here | there
        · exact Or.inl here
        · exact Or.inr (List.mem_cons_of_mem _ there)
      · rcases List.mem_cons.1 member with here | there
        · exact Or.inr (here ▸ List.mem_cons_self)
        · exact (ih there).imp_right (List.mem_cons_of_mem _)

theorem place_ascending (key : String) (entry : Entry) {entries : List (String × Entry)}
    (ascending : entries.Pairwise fun earlier later => earlier.1 < later.1) :
    (place key entry entries).Pairwise fun earlier later => earlier.1 < later.1 := by
  induction entries with
  | nil => simp [place]
  | cons first rest ih =>
    have tail := List.pairwise_cons.1 ascending
    unfold place
    split
    · rename_i before
      refine List.pairwise_cons.2 ⟨fun pair member => ?_, ascending⟩
      rcases List.mem_cons.1 member with here | there
      · exact here ▸ before
      · exact String.lt_trans before (tail.1 pair there)
    · split
      · rename_i same
        exact List.pairwise_cons.2 ⟨fun pair member => same ▸ tail.1 pair member, tail.2⟩
      · rename_i notBefore different
        refine List.pairwise_cons.2 ⟨fun pair member => ?_, ih tail.2⟩
        rcases mem_place member with here | there
        · subst here
          have atMost := String.not_lt.1 notBefore
          refine Classical.byContradiction fun notAfter => ?_
          exact different (String.le_antisymm (String.not_lt.1 notAfter) atMost)
        · exact tail.1 pair there

/-- Files an entry under a key, in place of what was there. -/
def insert (directory : Directory Entry) (key : String) (entry : Entry) : Directory Entry :=
  ⟨place key entry directory.entries, place_ascending key entry directory.ascending⟩

def erase (directory : Directory Entry) (key : String) : Directory Entry :=
  ⟨directory.entries.filter fun pair => pair.1 != key, directory.ascending.filter _⟩

def modify (directory : Directory Entry) (key : String) (change : Entry → Entry) :
    Directory Entry :=
  ⟨directory.entries.map fun pair => if pair.1 = key then (pair.1, change pair.2) else pair, by
    refine List.pairwise_map.2 (directory.ascending.imp fun {earlier later} before => ?_)
    split <;> split <;> exact before⟩

/-- The directory of a list of entries; a later one replaces an earlier one
under the same key. -/
def ofList (pairs : List (String × Entry)) : Directory Entry :=
  pairs.foldl (fun directory pair => directory.insert pair.1 pair.2) empty

end Directory

end DecisionCanvas
