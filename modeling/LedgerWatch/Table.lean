/-!
# Small tables

A table is a list of pairs in which every key occurs at most once. A key is found with
`List.lookup`.

## Main definitions

- `Table`, `Table.put`, `Table.erase`, `Table.update`
-/

namespace LedgerWatch

/-- Values under keys. -/
abbrev Table (κ α : Type) := List (κ × α)

namespace Table

variable {κ α : Type} [DecidableEq κ]

def erase (key : κ) (table : Table κ α) : Table κ α :=
  table.filter fun entry => entry.1 ≠ key

/-- Puts a value under a key, in place of the one there. -/
def put (key : κ) (value : α) (table : Table κ α) : Table κ α :=
  (key, value) :: Table.erase key table

/-- Changes the value under a key, if there is one. -/
def update (key : κ) (f : α → α) (table : Table κ α) : Table κ α :=
  table.map fun entry => if entry.1 = key then (entry.1, f entry.2) else entry

theorem lookup_cons_of_ne {key other : κ} (h : other ≠ key) (value : α) (rest : Table κ α) :
    List.lookup other ((key, value) :: rest) = rest.lookup other := by
  rw [List.lookup_cons, beq_false_of_ne h]

theorem lookup_put_self (key : κ) (value : α) (table : Table κ α) :
    (Table.put key value table).lookup key = some value := by
  simp [put]

theorem lookup_erase_self (key : κ) (table : Table κ α) :
    (Table.erase key table).lookup key = none := by
  simpa [erase, List.lookup_eq_none_iff] using fun _ _ _ h h' => h h'.symm

theorem lookup_erase_of_ne {key other : κ} (h : other ≠ key) (table : Table κ α) :
    (Table.erase key table).lookup other = table.lookup other := by
  induction table with
  | nil => rfl
  | cons entry rest ih =>
    obtain ⟨k, a⟩ := entry
    by_cases hk : k = key
    · have herase : Table.erase key ((k, a) :: rest) = Table.erase key rest := by
        simp [erase, hk]
      rw [herase, ih, lookup_cons_of_ne (by rwa [hk])]
    · have herase : Table.erase key ((k, a) :: rest) = (k, a) :: Table.erase key rest := by
        simp [erase, hk]
      rw [herase, List.lookup_cons, List.lookup_cons, ih]

theorem lookup_put_of_ne {key other : κ} (h : other ≠ key) (value : α) (table : Table κ α) :
    (Table.put key value table).lookup other = table.lookup other := by
  rw [put, lookup_cons_of_ne h, lookup_erase_of_ne h]

theorem lookup_update (key other : κ) (f : α → α) (table : Table κ α) :
    (Table.update key f table).lookup other =
      (table.lookup other).map (if other = key then f else fun value => value) := by
  induction table with
  | nil => rfl
  | cons entry rest ih =>
    obtain ⟨k, value⟩ := entry
    rw [update, List.map_cons, ← update]
    by_cases hother : other = k
    · subst hother
      by_cases hkey : other = key <;> simp [hkey]
    · rw [lookup_cons_of_ne hother, ← ih]
      by_cases hkey : k = key
      · rw [if_pos hkey, lookup_cons_of_ne hother]
      · rw [if_neg hkey, lookup_cons_of_ne hother]

/-- What is found after an erasure was there before, under another key. -/
theorem of_lookup_erase {key other : κ} {value : α} {table : Table κ α}
    (h : (Table.erase key table).lookup other = some value) :
    other ≠ key ∧ table.lookup other = some value := by
  have hne : other ≠ key := by
    rintro rfl
    simp [lookup_erase_self] at h
  exact ⟨hne, by rwa [lookup_erase_of_ne hne] at h⟩

theorem erase_of_lookup_eq_none {key : κ} {table : Table κ α} (h : table.lookup key = none) :
    Table.erase key table = table := by
  refine List.filter_eq_self.mpr fun entry hentry => ?_
  have hne := bne_iff_ne.mp (List.lookup_eq_none_iff.mp h entry hentry)
  exact decide_eq_true (Ne.symm hne)

theorem put_of_lookup_eq_none {key : κ} {table : Table κ α} (h : table.lookup key = none)
    (value : α) : Table.put key value table = (key, value) :: table := by
  rw [put, erase_of_lookup_eq_none h]

theorem lookup_eq_none_of_notMem {key : κ} {table : Table κ α}
    (h : key ∉ table.map Prod.fst) : table.lookup key = none := by
  refine List.lookup_eq_none_iff.mpr fun entry hentry => ?_
  have hne : key ≠ entry.1 := fun heq => h (heq ▸ List.mem_map_of_mem hentry)
  simpa using hne

/-- An erasure takes away what is found under the key, and nothing else. -/
theorem erase_append_perm {table : Table κ α} (hkeys : (table.map Prod.fst).Nodup) (key : κ) :
    (Table.erase key table ++ ((table.lookup key).map (key, ·)).toList).Perm table := by
  induction table with
  | nil => exact .refl _
  | cons entry rest ih =>
    obtain ⟨k, value⟩ := entry
    rw [List.map_cons, List.nodup_cons] at hkeys
    by_cases hk : key = k
    · subst hk
      have hnone := lookup_eq_none_of_notMem hkeys.1
      have herase : Table.erase key ((key, value) :: rest) = rest := by
        rw [← erase_of_lookup_eq_none hnone]
        simp [erase]
      rw [herase, List.lookup_cons_self]
      exact List.perm_append_singleton _ _
    · have herase : Table.erase key ((k, value) :: rest) = (k, value) :: Table.erase key rest := by
        simp [erase, Ne.symm hk]
      rw [herase, lookup_cons_of_ne hk]
      exact (ih hkeys.2).cons _

theorem mem_iff_lookup {table : Table κ α} (hkeys : (table.map Prod.fst).Nodup) {key : κ}
    {value : α} : (key, value) ∈ table ↔ table.lookup key = some value := by
  rw [← (erase_append_perm hkeys key).mem_iff]
  simp [erase]

end Table

end LedgerWatch
