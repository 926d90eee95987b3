import Mathlib

/-!
# Tables

A map with finitely many entries, kept as the list of them. A key has one entry, which the table carries
as a proof; the order of the list is not observable through `get`.
-/

structure Table (κ ν : Type) where
  entries : List (κ × ν)
  distinct : (entries.map Prod.fst).Nodup

namespace Table

open List Option

variable {κ ν : Type} [DecidableEq κ]

instance [DecidableEq ν] : DecidableEq (Table κ ν) := fun a b =>
  decidable_of_iff (a.entries = b.entries) (by cases a; cases b; simp)

def empty : Table κ ν := ⟨[], nodup_nil⟩

/-- The value under the key. -/
def get (table : Table κ ν) (key : κ) : Option ν :=
  (table.entries.find? fun entry => entry.1 = key).map Prod.snd

/-- A value is under the key. -/
def contains (table : Table κ ν) (key : κ) : Bool := (table.get key).isSome

omit [DecidableEq κ] in
theorem distinct_filter (table : Table κ ν) (keep : κ × ν → Bool) :
    ((table.entries.filter keep).map Prod.fst).Nodup :=
  table.distinct.sublist (List.filter_sublist.map _)

/-- The entries that satisfy a condition. -/
def retain (table : Table κ ν) (keep : κ → ν → Bool) : Table κ ν where
  entries := table.entries.filter fun entry => keep entry.1 entry.2
  distinct := table.distinct_filter _

def erase (table : Table κ ν) (key : κ) : Table κ ν := table.retain fun other _ => other ≠ key

def insert (table : Table κ ν) (key : κ) (value : ν) : Table κ ν where
  entries := (table.erase key).entries ++ [(key, value)]
  distinct := by
    rw [map_append, nodup_append]
    refine ⟨(table.erase key).distinct, nodup_singleton _, ?_⟩
    intro a ha b hb
    simp only [erase, retain, List.mem_map, mem_filter, decide_eq_true_eq] at ha
    obtain ⟨entry, ⟨-, hne⟩, rfl⟩ := ha
    rw [mem_singleton.mp hb]
    exact hne

/-- Every value replaced by what a function makes of it. -/
def mapValues (table : Table κ ν) (change : κ → ν → ν) : Table κ ν where
  entries := table.entries.map fun entry => (entry.1, change entry.1 entry.2)
  distinct := by
    rw [List.map_map]
    exact table.distinct

def modify (table : Table κ ν) (key : κ) (change : ν → ν) : Table κ ν :=
  table.mapValues fun other value => if other = key then change value else value

def count (table : Table κ ν) (counted : ν → Bool) : Nat :=
  table.entries.countP fun entry => counted entry.2

variable {table : Table κ ν}

theorem get_eq_some {key : κ} {value : ν} : table.get key = some value ↔ (key, value) ∈ table.entries := by
  constructor
  · intro h
    obtain ⟨entry, hfind, rfl⟩ := map_eq_some_iff.mp h
    have hkey : entry.1 = key := by simpa using find?_some hfind
    rw [← hkey]
    exact mem_of_find?_eq_some hfind
  · intro h
    cases hfind : table.entries.find? fun entry => entry.1 = key with
    | none =>
      have := find?_eq_none.mp hfind _ h
      simp at this
    | some entry =>
      have hkey : entry.1 = key := by simpa using find?_some hfind
      have hmem := mem_of_find?_eq_some hfind
      have : entry = (key, value) := inj_on_of_nodup_map table.distinct hmem h hkey
      rw [get, hfind, this]
      rfl

@[simp] theorem get_empty (key : κ) : (empty : Table κ ν).get key = none := rfl

theorem get_retain (table : Table κ ν) (keep : κ → ν → Bool) (key : κ) :
    (table.retain keep).get key = (table.get key).filter (keep key) := by
  ext value
  rw [get_eq_some, filter_eq_some_iff, get_eq_some, retain, mem_filter]

@[simp] theorem get_erase (table : Table κ ν) (key other : κ) :
    (table.erase key).get other = if other = key then none else table.get other := by
  rw [erase, get_retain]
  by_cases h : other = key
  · simp [h]
  · cases table.get other <;> simp [h]

@[simp] theorem get_insert (table : Table κ ν) (key other : κ) (value : ν) :
    (table.insert key value).get other = if other = key then some value else table.get other := by
  ext found
  rw [get_eq_some, insert, mem_append, ← get_eq_some, get_erase, mem_singleton, Prod.mk.injEq]
  by_cases h : other = key
  · simp [h, eq_comm]
  · simp [h]

@[simp] theorem get_mapValues (table : Table κ ν) (change : κ → ν → ν) (key : κ) :
    (table.mapValues change).get key = (table.get key).map (change key) := by
  ext value
  rw [get_eq_some, map_eq_some_iff, mapValues, List.mem_map]
  constructor
  · rintro ⟨⟨other, old⟩, hmem, heq⟩
    cases heq
    exact ⟨old, get_eq_some.mpr hmem, rfl⟩
  · rintro ⟨old, hget, rfl⟩
    exact ⟨(key, old), get_eq_some.mp hget, rfl⟩

@[simp] theorem get_modify (table : Table κ ν) (key other : κ) (change : ν → ν) :
    (table.modify key change).get other =
      if other = key then (table.get other).map change else table.get other := by
  rw [modify, get_mapValues]
  by_cases h : other = key
  · simp [h]
  · simp [h]

theorem length_erase_le (table : Table κ ν) (key : κ) :
    (table.erase key).entries.length ≤ table.entries.length :=
  List.filter_sublist.length_le

theorem length_insert_le (table : Table κ ν) (key : κ) (value : ν) :
    (table.insert key value).entries.length ≤ table.entries.length + 1 := by
  rw [insert, length_append]
  exact Nat.add_le_add_right (table.length_erase_le key) 1

theorem length_insert_of_get {key : κ} {old : ν} (h : table.get key = some old) (value : ν) :
    (table.insert key value).entries.length ≤ table.entries.length := by
  have hless : (table.erase key).entries.length < table.entries.length := by
    refine length_filter_lt_length_iff_exists.mpr ⟨(key, old), get_eq_some.mp h, ?_⟩
    simp
  rw [insert, length_append]
  exact hless

theorem length_le_of_keys {keys : List κ} (hkeys : keys.Nodup)
    (h : ∀ key ∈ keys, ∃ value, table.get key = some value) : keys.length ≤ table.entries.length := by
  have hsubset : keys ⊆ table.entries.map Prod.fst := by
    intro key hkey
    obtain ⟨value, hvalue⟩ := h key hkey
    exact List.mem_map.mpr ⟨(key, value), get_eq_some.mp hvalue, rfl⟩
  have hlength := (hkeys.subperm hsubset).length_le
  rwa [length_map] at hlength

omit [DecidableEq κ] in
@[simp] theorem count_empty (counted : ν → Bool) : (empty : Table κ ν).count counted = 0 := rfl

omit [DecidableEq κ] in
theorem count_retain_le (table : Table κ ν) (keep : κ → ν → Bool) (counted : ν → Bool) :
    (table.retain keep).count counted ≤ table.count counted :=
  filter_sublist.countP_le

theorem count_erase_le (table : Table κ ν) (key : κ) (counted : ν → Bool) :
    (table.erase key).count counted ≤ table.count counted :=
  table.count_retain_le _ _

theorem count_of_get {key : κ} {value : ν} (h : table.get key = some value) (counted : ν → Bool) :
    table.count counted = (table.erase key).count counted + if counted value then 1 else 0 := by
  have hmem := get_eq_some.mp h
  have hself : table.entries.filter (fun entry => entry.1 = key) = [(key, value)] := by
    have hnodup : (table.entries.filter fun entry => entry.1 = key).Nodup :=
      table.distinct.of_map.filter _
    refine perm_singleton.mp ((perm_ext_iff_of_nodup hnodup (nodup_singleton _)).mpr fun entry => ?_)
    rw [mem_filter, decide_eq_true_eq, mem_singleton]
    constructor
    · rintro ⟨hentry, hkey⟩
      exact inj_on_of_nodup_map table.distinct hentry hmem hkey
    · rintro rfl
      exact ⟨hmem, rfl⟩
  have hsplit := countP_eq_countP_filter_add table.entries (fun entry => counted entry.2)
    fun entry => decide (entry.1 = key)
  have herase : (table.erase key).entries = table.entries.filter fun entry => !decide (entry.1 = key) := by
    rw [erase, retain]
    exact filter_congr fun entry _ => decide_not
  rw [count, hsplit, hself, countP_singleton, count, herase, Nat.add_comm]

omit [DecidableEq κ] in
theorem count_eq_zero {counted : ν → Bool} :
    table.count counted = 0 ↔ ∀ entry ∈ table.entries, counted entry.2 = false := by
  rw [count, countP_eq_zero]
  exact forall₂_congr fun _ _ => Bool.eq_false_iff.symm

theorem count_insert_le (table : Table κ ν) (key : κ) (value : ν) (counted : ν → Bool) :
    (table.insert key value).count counted ≤ table.count counted + 1 := by
  rw [count, insert, countP_append]
  exact Nat.add_le_add (table.count_erase_le key counted) (countP_le_length)

theorem count_mapValues_le (table : Table κ ν) (change : κ → ν → ν) (counted : ν → Bool)
    (h : ∀ key value, table.get key = some value → counted (change key value) → counted value) :
    (table.mapValues change).count counted ≤ table.count counted := by
  rw [count, mapValues, countP_map]
  apply countP_mono_left
  intro entry hmem hcounted
  exact h _ _ (get_eq_some.mpr hmem) hcounted

theorem count_modify_le (table : Table κ ν) (key : κ) (change : ν → ν) (counted : ν → Bool)
    (h : ∀ value, table.get key = some value → counted (change value) → counted value) :
    (table.modify key change).count counted ≤ table.count counted := by
  apply count_mapValues_le
  intro other value hget hcounted
  by_cases hkey : other = key
  · rw [if_pos hkey] at hcounted
    exact h value (hkey ▸ hget) hcounted
  · rw [if_neg hkey] at hcounted
    exact hcounted

theorem contains_iff {key : κ} : table.contains key ↔ ∃ value, table.get key = some value :=
  isSome_iff_exists

@[simp] theorem contains_modify (table : Table κ ν) (key other : κ) (change : ν → ν) :
    (table.modify key change).contains other = table.contains other := by
  rw [contains, contains, get_modify]
  by_cases h : other = key
  · rw [if_pos h, isSome_map]
  · rw [if_neg h]

@[simp] theorem contains_mapValues (table : Table κ ν) (change : κ → ν → ν) (key : κ) :
    (table.mapValues change).contains key = table.contains key := by
  rw [contains, contains, get_mapValues, isSome_map]

end Table
