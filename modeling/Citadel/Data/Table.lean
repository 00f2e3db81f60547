import Mathlib.Data.List.Nodup

/-!
# Keyed tables

A `Table` is a finite map whose values carry their own key, kept as a list with
at most one entry for each key. The distinctness proof is a field, so a table
with two entries under one key cannot be built.
-/

namespace Citadel

/-- A list of values with distinct keys. -/
structure Table (κ ν : Type) (key : ν → κ) where
  entries : List ν
  distinct : (entries.map key).Nodup

namespace Table

variable {κ ν : Type} {key : ν → κ}

/-- The table with no entry. -/
def empty : Table κ ν key := ⟨[], List.nodup_nil⟩

variable [DecidableEq κ]

/-- The value stored under a key. -/
def find? (table : Table κ ν key) (target : κ) : Option ν :=
  table.entries.find? fun entry => key entry = target

/-- Replace every entry of the list that has the key of `value`. -/
private def replaced (key : ν → κ) (value : ν) (entries : List ν) : List ν :=
  entries.map fun entry => if key entry = key value then value else entry

private theorem map_key_replaced (value : ν) (entries : List ν) :
    (replaced key value entries).map key = entries.map key := by
  induction entries with
  | nil => rfl
  | cons entry rest ih =>
      have tail : (replaced key value rest).map key = rest.map key := ih
      by_cases same : key entry = key value
      · simp [replaced, same] at tail ⊢
        exact tail
      · simp [replaced, same] at tail ⊢
        exact tail

/-- Store a value under its own key, replacing the entry that was there. -/
def insert (table : Table κ ν key) (value : ν) : Table κ ν key :=
  if present : key value ∈ table.entries.map key then
    ⟨replaced key value table.entries, by
      rw [map_key_replaced]
      exact table.distinct⟩
  else
    ⟨table.entries ++ [value], by
      rw [List.map_append, List.nodup_append]
      refine ⟨table.distinct, by simp, ?_⟩
      intro left leftMem right rightMem equal
      rw [List.map_singleton, List.mem_singleton] at rightMem
      exact present (rightMem ▸ equal ▸ leftMem)⟩

/-- Remove the entry under a key. -/
def erase (table : Table κ ν key) (target : κ) : Table κ ν key :=
  ⟨table.entries.filter fun entry => key entry ≠ target,
    table.distinct.sublist (List.filter_sublist.map key)⟩

@[simp] theorem find?_empty (target : κ) :
    (empty : Table κ ν key).find? target = none := rfl

/-- A value is found under its own key. -/
theorem key_of_find? {table : Table κ ν key} {target : κ} {value : ν}
    (found : table.find? target = some value) : key value = target := by
  simpa using List.find?_some found

/-- An entry is found under its key. -/
private theorem find?_eq_of_mem {entries : List ν} (distinct : (entries.map key).Nodup)
    {value : ν} (member : value ∈ entries) :
    (entries.find? fun entry => key entry = key value) = some value := by
  induction entries with
  | nil => cases member
  | cons entry rest ih =>
      rw [List.map_cons, List.nodup_cons] at distinct
      rcases List.mem_cons.mp member with rfl | later
      · simp
      · have different : key entry ≠ key value := by
          intro equal
          exact distinct.1 (equal ▸ List.mem_map_of_mem later)
        simp [different, ih distinct.2 later]

/-- The entries are exactly the values found under their own key. -/
theorem mem_entries_iff {table : Table κ ν key} {value : ν} :
    value ∈ table.entries ↔ table.find? (key value) = some value := by
  constructor
  · exact find?_eq_of_mem table.distinct
  · intro found
    exact List.mem_of_find?_eq_some found

/-- Whatever is found is an entry. -/
theorem mem_of_find? {table : Table κ ν key} {target : κ} {value : ν}
    (found : table.find? target = some value) : value ∈ table.entries :=
  List.mem_of_find?_eq_some found

/-- The entries after an insertion. -/
private theorem mem_insert_entries {table : Table κ ν key} {value other : ν} :
    other ∈ (table.insert value).entries ↔
      other = value ∨ (other ∈ table.entries ∧ key other ≠ key value) := by
  unfold insert
  split
  · rename_i present
    simp only [replaced, List.mem_map]
    constructor
    · rintro ⟨entry, member, rfl⟩
      by_cases same : key entry = key value
      · simp [same]
      · simp [same, member]
    · rintro (rfl | ⟨member, different⟩)
      · obtain ⟨entry, member, same⟩ := List.mem_map.mp present
        exact ⟨entry, member, by simp [same]⟩
      · exact ⟨other, member, by simp [different]⟩
  · rename_i absent
    simp only [List.mem_append, List.mem_singleton]
    constructor
    · rintro (member | rfl)
      · refine Or.inr ⟨member, fun same => ?_⟩
        exact absent (same ▸ List.mem_map_of_mem member)
      · exact Or.inl rfl
    · rintro (rfl | ⟨member, -⟩)
      · exact Or.inr rfl
      · exact Or.inl member

/-- The stored value is found. -/
@[simp] theorem find?_insert_self (table : Table κ ν key) (value : ν) :
    (table.insert value).find? (key value) = some value := by
  rw [← mem_entries_iff, mem_insert_entries]
  exact Or.inl rfl

/-- Storing a value leaves the other keys alone. -/
theorem find?_insert_of_ne (table : Table κ ν key) {value : ν} {target : κ}
    (different : target ≠ key value) :
    (table.insert value).find? target = table.find? target := by
  ext other
  constructor
  · intro found
    have own := key_of_find? found
    subst own
    have member := mem_insert_entries.mp (mem_of_find? found)
    rcases member with rfl | ⟨member, -⟩
    · exact absurd rfl different
    · exact mem_entries_iff.mp member
  · intro found
    have own := key_of_find? found
    subst own
    exact mem_entries_iff.mp (mem_insert_entries.mpr (Or.inr ⟨mem_of_find? found, different⟩))

/-- Looking up any key after storing a value. -/
theorem find?_insert (table : Table κ ν key) (value : ν) (target : κ) :
    (table.insert value).find? target =
      if target = key value then some value else table.find? target := by
  split
  · rename_i same
    rw [same, find?_insert_self]
  · rename_i different
    exact find?_insert_of_ne table different

/-- Looking up any key after removing one. -/
theorem find?_erase (table : Table κ ν key) (removed target : κ) :
    (table.erase removed).find? target =
      if target = removed then none else table.find? target := by
  have members : ∀ {value : ν}, value ∈ (table.erase removed).entries ↔
      value ∈ table.entries ∧ key value ≠ removed := by
    intro value
    simp [erase]
  split
  · rename_i same
    cases found : (table.erase removed).find? target with
    | none => rfl
    | some value =>
        have kept := (members.mp (mem_of_find? found)).2
        exact absurd ((key_of_find? found).trans same) kept
  · rename_i different
    ext value
    constructor
    · intro found
      have own := key_of_find? found
      subst own
      exact mem_entries_iff.mp (members.mp (mem_of_find? found)).1
    · intro found
      have own := key_of_find? found
      subst own
      exact mem_entries_iff.mp (members.mpr ⟨mem_of_find? found, different⟩)

/-- Replacing an entry keeps the number of entries. -/
theorem length_insert_of_find? {table : Table κ ν key} {value old : ν}
    (found : table.find? (key value) = some old) :
    (table.insert value).entries.length = table.entries.length := by
  have present : key value ∈ table.entries.map key := by
    have own := key_of_find? found
    exact own ▸ List.mem_map_of_mem (mem_of_find? found)
  simp [insert, present, replaced]

/-- How a count changes when an entry is replaced. -/
private theorem countP_replaced {entries : List ν} {value old : ν} (counts : ν → Bool)
    (distinct : (entries.map key).Nodup) (member : old ∈ entries) (same : key old = key value) :
    (replaced key value entries).countP counts + (if counts old then 1 else 0) =
      entries.countP counts + if counts value then 1 else 0 := by
  unfold replaced
  induction entries with
  | nil => cases member
  | cons entry rest ih =>
      rw [List.map_cons, List.nodup_cons] at distinct
      obtain ⟨fresh, distinct⟩ := distinct
      rw [List.map_cons, List.countP_cons, List.countP_cons]
      rcases List.mem_cons.mp member with rfl | later
      · -- no other entry has the key
        have others : (rest.map fun entry => if key entry = key value then value else entry) =
            rest := by
          rw [List.map_congr_left, List.map_id']
          intro entry listed
          rw [if_neg]
          intro equal
          exact fresh (same.trans equal.symm ▸ List.mem_map_of_mem listed)
        rw [others, if_pos same]
        omega
      · have different : key entry ≠ key value := by
          intro equal
          exact fresh ((equal.trans same.symm) ▸ List.mem_map_of_mem later)
        rw [if_neg different]
        have counted := ih distinct later
        omega

/-- Replacing an entry trades it for the new one in every count. -/
theorem countP_insert_of_find? {table : Table κ ν key} {value old : ν} (counts : ν → Bool)
    (found : table.find? (key value) = some old) :
    (table.insert value).entries.countP counts + (if counts old then 1 else 0) =
      table.entries.countP counts + if counts value then 1 else 0 := by
  have own := key_of_find? found
  have present : key value ∈ table.entries.map key :=
    own ▸ List.mem_map_of_mem (mem_of_find? found)
  rw [insert, dif_pos present]
  exact countP_replaced counts table.distinct (mem_of_find? found) own

end Table

end Citadel
