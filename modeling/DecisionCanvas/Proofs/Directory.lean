import DecisionCanvas.Directory.Lookup
import Mathlib.Data.List.Nodup
import Mathlib.Data.List.Perm.Basic

/-!
# Directories by what they hold

A directory is determined by what is filed under each key.  One that is made of a list of
entries files the last entry of the list under each key.
-/

namespace DecisionCanvas

/-- Of pairs with distinct keys each one is found under its key, from either end. -/
theorem lookup_reverse_of_mem {Entry : Type} {pairs : List (String × Entry)}
    (hdistinct : (pairs.map Prod.fst).Nodup) {key : String} {entry : Entry}
    (hmem : (key, entry) ∈ pairs) : pairs.reverse.lookup key = some entry := by
  obtain ⟨before, after, rfl⟩ := List.append_of_mem hmem
  rw [List.map_append, List.map_cons, List.nodup_append, List.nodup_cons] at hdistinct
  refine List.lookup_eq_some_iff.mpr ⟨after.reverse, before.reverse, by simp, ?_⟩
  intro pair hpair
  rw [List.mem_reverse] at hpair
  refine bne_iff_ne.mpr fun heq => hdistinct.2.1.1 ?_
  exact List.mem_map.mpr ⟨pair, hpair, heq.symm⟩

theorem lookup_reverse_of_notMem {Entry : Type} {pairs : List (String × Entry)} {key : String}
    (hkey : key ∉ pairs.map Prod.fst) : pairs.reverse.lookup key = none := by
  refine List.lookup_eq_none_iff.mpr fun pair hpair => ?_
  rw [List.mem_reverse] at hpair
  refine bne_iff_ne.mpr fun heq => hkey ?_
  exact List.mem_map.mpr ⟨pair, hpair, heq.symm⟩

namespace Directory

variable {Entry : Type}

theorem keys_nodup (directory : Directory Entry) :
    (directory.entries.map Prod.fst).Nodup := by
  rw [List.Nodup, List.pairwise_map]
  refine directory.ascending.imp fun {earlier later} hbefore hsame => ?_
  rw [hsame] at hbefore
  exact String.lt_irrefl _ hbefore

theorem mem_entries_iff {directory : Directory Entry} {key : String} {entry : Entry} :
    (key, entry) ∈ directory.entries ↔ directory.get? key = some entry := by
  constructor
  · intro hmem
    have hreversed : (directory.entries.reverse.map Prod.fst).Nodup := by
      rw [List.map_reverse, List.nodup_reverse]
      exact directory.keys_nodup
    have hfound := lookup_reverse_of_mem hreversed (List.mem_reverse.mpr hmem)
    rwa [List.reverse_reverse] at hfound
  · intro hfound
    obtain ⟨before, after, hentries, -⟩ := List.lookup_eq_some_iff.mp hfound
    rw [hentries]
    exact List.mem_append_right _ List.mem_cons_self

theorem mem_keys_iff {directory : Directory Entry} {key : String} :
    key ∈ directory.keys ↔ (directory.get? key).isSome = true := by
  rw [keys, List.mem_map, Option.isSome_iff_exists]
  constructor
  · rintro ⟨⟨_, entry⟩, hmem, rfl⟩
    exact ⟨entry, mem_entries_iff.mp hmem⟩
  · rintro ⟨entry, hfound⟩
    exact ⟨(key, entry), mem_entries_iff.mpr hfound, rfl⟩

/-- Directories that hold the same under every key are the same. -/
theorem ext_get? {left right : Directory Entry}
    (hsame : ∀ key, left.get? key = right.get? key) : left = right := by
  have hperm : left.entries.Perm right.entries := by
    rw [List.perm_ext_iff_of_nodup left.keys_nodup.of_map right.keys_nodup.of_map]
    intro pair
    rw [mem_entries_iff, mem_entries_iff, hsame]
  have hentries : left.entries = right.entries := by
    refine hperm.eq_of_pairwise (fun earlier later _ _ hbefore hafter => ?_) left.ascending
      right.ascending
    exact absurd (String.lt_trans hbefore hafter) (String.lt_irrefl _)
  cases left
  cases right
  cases hentries
  rfl

theorem get?_erase_ne (directory : Directory Entry) {key other : String} (hother : other ≠ key) :
    (directory.erase key).get? other = directory.get? other := by
  rw [get?_erase, if_neg hother]

theorem get?_erase_eq_some_iff {directory : Directory Entry} {key other : String}
    {entry : Entry} :
    (directory.erase key).get? other = some entry ↔
      other ≠ key ∧ directory.get? other = some entry := by
  rw [get?_erase]
  by_cases hother : other = key <;> simp [hother]

/-- The last entry under a key is the one that is found. -/
theorem get?_ofList (pairs : List (String × Entry)) (key : String) :
    (ofList pairs).get? key = pairs.reverse.lookup key := by
  have hinsert (directory : Directory Entry) :
      (pairs.foldl (fun directory pair => directory.insert pair.1 pair.2) directory).get? key =
        (pairs.reverse.lookup key).or (directory.get? key) := by
    induction pairs generalizing directory with
    | nil => rfl
    | cons pair rest ih =>
        rw [List.foldl_cons, ih, get?_insert, List.reverse_cons, List.lookup_append,
          show [pair].lookup key = if key = pair.1 then some pair.2 else none from
            lookup_pair pair.1 key pair.2 [], Option.or_assoc]
        by_cases hkey : key = pair.1 <;> simp [hkey]
  rw [ofList, hinsert, get?_empty, Option.or_none]

end Directory

end DecisionCanvas
