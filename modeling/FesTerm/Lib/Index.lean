import FesTerm.Lib.Table

/-!
# Indices

A table that tells for every key of a list at which position it is. When a key is taken out of the list, the
keys behind it are numbered anew.
-/

namespace Table

open List

variable {κ : Type} [DecidableEq κ]

def Indexes (table : Table κ Nat) (keys : List κ) : Prop :=
  ∀ key position, table.get key = some position ↔ keys[position]? = some key

/-- The keys get the positions from a first one on. Nothing where one of them has no entry. -/
def renumber (table : Table κ Nat) : List κ → Nat → Option (Table κ Nat)
  | [], _ => some table
  | key :: keys, position =>
    if table.contains key then (table.modify key fun _ => position).renumber keys (position + 1) else none

variable {table : Table κ Nat} {keys : List κ} {key : κ} {position index : Nat}

theorem Indexes.empty : (.empty : Table κ Nat).Indexes [] := by
  intro key position
  simp

theorem Indexes.get (h : table.Indexes keys) (hkey : keys[position]? = some key) :
    table.get key = some position := (h key position).mpr hkey

theorem Indexes.nodup (h : table.Indexes keys) : keys.Nodup := by
  refine nodup_iff_getElem?_ne_getElem?.mpr fun i j hij hj heq => ?_
  have hi : keys[i]? = some keys[i] := getElem?_eq_getElem (hij.trans hj)
  have hfirst := h.get hi
  have hsecond := h.get (heq ▸ hi)
  exact hij.ne (Option.some.inj (hfirst.symm.trans hsecond))

theorem Indexes.append (h : table.Indexes keys) (hnew : table.contains key = false) :
    (table.insert key keys.length).Indexes (keys ++ [key]) := by
  have hnone : table.get key = none := Option.isSome_eq_false_iff.mp hnew |> Option.isNone_iff_eq_none.mp
  intro other position
  rw [get_insert]
  by_cases hother : other = key
  · subst hother
    rw [if_pos rfl, Option.some.injEq]
    constructor
    · rintro rfl
      simp
    · intro hget
      by_contra hne
      rcases Nat.lt_or_gt_of_ne hne with hlt | hlt
      · rw [getElem?_eq_none (by rw [length_append]; exact hlt)] at hget
        cases hget
      · rw [getElem?_append_left hlt] at hget
        rw [h.get hget] at hnone
        cases hnone
  · rw [if_neg hother, h other position]
    by_cases hlt : position < keys.length
    · rw [getElem?_append_left hlt]
    · rw [getElem?_append_right (Nat.not_lt.mp hlt), getElem?_eq_none (Nat.not_lt.mp hlt)]
      cases hrest : position - keys.length with
      | zero => simp [Ne.symm hother]
      | succ rest => simp

theorem renumber_spec (position : Nat) (hkeys : ∀ key ∈ keys, table.contains key = true) (hdistinct : keys.Nodup) :
    ∃ table', table.renumber keys position = some table' ∧
      (∀ i key, keys[i]? = some key → table'.get key = some (position + i)) ∧
      ∀ key ∉ keys, table'.get key = table.get key := by
  induction keys generalizing table position with
  | nil => exact ⟨table, rfl, by simp, fun _ _ => rfl⟩
  | cons first keys ih =>
    obtain ⟨hfirst, hrest⟩ := nodup_cons.mp hdistinct
    obtain ⟨value, hvalue⟩ := contains_iff.mp (hkeys first mem_cons_self)
    have hnext : ∀ key ∈ keys, (table.modify first fun _ => position).contains key = true := by
      intro key hkey
      rw [contains_modify]
      exact hkeys key (mem_cons_of_mem first hkey)
    obtain ⟨table', hrun, hnumbered, hothers⟩ := ih (position + 1) hnext hrest
    refine ⟨table', ?_, fun i key hkey => ?_, fun key hkey => ?_⟩
    · rw [renumber, if_pos (hkeys first mem_cons_self)]
      exact hrun
    · cases i with
      | zero =>
        cases hkey
        rw [hothers first hfirst, get_modify, if_pos rfl, hvalue]
        rfl
      | succ i =>
        rw [hnumbered i key hkey]
        congr 1
        omega
    · obtain ⟨hne, hnot⟩ := not_or.mp (mem_cons.not.mp hkey)
      rw [hothers key hnot, get_modify, if_neg hne]

theorem Indexes.erase (h : table.Indexes keys) (hget : table.get key = some index) :
    ∃ table', (table.erase key).renumber ((keys.eraseIdx index).drop index) index = some table' ∧
      table'.Indexes (keys.eraseIdx index) := by
  have hnodup := h.nodup
  have hkey := (h key index).mp hget
  -- where the keys are that are left
  have hleft : ∀ other position, (keys.eraseIdx index)[position]? = some other → other ≠ key ∧
      table.get other = some (if position < index then position else position + 1) := by
    intro other position hother
    rw [getElem?_eraseIdx] at hother
    have hfound : table.get other = some (if position < index then position else position + 1) := by
      split at hother
      · next hlt => rw [if_pos hlt, h.get hother]
      · next hle => rw [if_neg hle, h.get hother]
    refine ⟨?_, hfound⟩
    rintro rfl
    have hsame := Option.some.inj (hget.symm.trans hfound)
    split at hsame <;> omega
  have hbehind : ∀ other ∈ (keys.eraseIdx index).drop index, (table.erase key).contains other = true := by
    intro other hother
    obtain ⟨position, hposition⟩ := mem_iff_getElem?.mp (mem_of_mem_drop hother)
    obtain ⟨hne, hfound⟩ := hleft other position hposition
    rw [contains_iff, get_erase, if_neg hne]
    exact ⟨_, hfound⟩
  have hdistinct : ((keys.eraseIdx index).drop index).Nodup :=
    (hnodup.sublist (eraseIdx_sublist keys index)).sublist (drop_sublist _ _)
  obtain ⟨table', hrun, hnumbered, hothers⟩ := renumber_spec index hbehind hdistinct
  refine ⟨table', hrun, fun other position => ?_⟩
  constructor
  · intro hfound
    by_cases hmem : other ∈ (keys.eraseIdx index).drop index
    · obtain ⟨i, hi⟩ := mem_iff_getElem?.mp hmem
      cases (hnumbered i other hi).symm.trans hfound
      rwa [getElem?_drop] at hi
    · rw [hothers other hmem, get_erase] at hfound
      split at hfound
      · cases hfound
      · next hne =>
        have hold := (h other position).mp hfound
        have hlt : position < index := by
          by_contra hle
          apply hmem
          have hpast : index < position := by
            refine lt_of_le_of_ne (Nat.not_lt.mp hle) ?_
            rintro rfl
            exact hne (Option.some.inj (hold.symm.trans hkey))
          refine mem_iff_getElem?.mpr ⟨position - 1 - index, ?_⟩
          rw [getElem?_drop, getElem?_eraseIdx, if_neg (by omega)]
          rw [show index + (position - 1 - index) + 1 = position by omega]
          exact hold
        rw [getElem?_eraseIdx, if_pos hlt]
        exact hold
  · intro hother
    obtain ⟨hne, hfound⟩ := hleft other position hother
    by_cases hlt : position < index
    · have hnot : other ∉ (keys.eraseIdx index).drop index := by
        intro hmem
        obtain ⟨i, hi⟩ := mem_iff_getElem?.mp hmem
        rw [getElem?_drop] at hi
        have hagain := (hleft other _ hi).2
        rw [if_neg (by omega)] at hagain
        rw [if_pos hlt, hagain] at hfound
        have := Option.some.inj hfound
        omega
      rw [hothers other hnot, get_erase, if_neg hne, hfound, if_pos hlt]
    · have hdrop : ((keys.eraseIdx index).drop index)[position - index]? = some other := by
        rw [getElem?_drop, show index + (position - index) = position by omega]
        exact hother
      rw [hnumbered _ _ hdrop]
      congr 1
      omega

end Table
