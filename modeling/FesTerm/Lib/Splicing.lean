import Mathlib

/-!
# Patches of weighed lists

A list whose elements have sizes is addressed by the total size in front of a position, and only the
positions between elements can be addressed. `cut` splits a list at such an offset.

An ordered edit script names disjoint ranges of one list by their offsets in it, ascending.
`Patch size origin script before after` says that the script, its offsets counted from `origin`,
takes `before` to `after`: it decomposes both lists into the pieces that they share, and the removed and
inserted ones. Read with the roles of its two texts exchanged, it takes `after` back to `before`.
-/

namespace Splicing

open List

variable {α : Type}

def weigh (size : α → Nat) (xs : List α) : Nat := (xs.map size).sum

section Weigh

variable (size : α → Nat)

@[simp] theorem weigh_nil : weigh size [] = 0 := rfl

@[simp] theorem weigh_cons (x : α) (xs : List α) : weigh size (x :: xs) = size x + weigh size xs := by
  simp [weigh]

@[simp] theorem weigh_append (xs ys : List α) : weigh size (xs ++ ys) = weigh size xs + weigh size ys := by
  simp [weigh]

end Weigh

/-- Split a list at an offset; `none` when the offset lies inside an element or past the end. -/
def cut (size : α → Nat) : List α → Nat → Option (List α × List α)
  | xs, 0 => some ([], xs)
  | [], _ + 1 => none
  | x :: xs, n + 1 =>
    if size x ≤ n + 1 then
      (cut size xs (n + 1 - size x)).map fun parts => (x :: parts.1, parts.2)
    else none

section Cut

variable {size : α → Nat}

theorem cut_zero (xs : List α) : cut size xs 0 = some ([], xs) := by
  cases xs <;> rfl

theorem append_of_cut {xs front back : List α} {n : Nat} (h : cut size xs n = some (front, back)) :
    xs = front ++ back ∧ weigh size front = n := by
  induction xs generalizing n front with
  | nil =>
    cases n with
    | zero => simp_all [cut]
    | succ n => simp [cut] at h
  | cons x xs ih =>
    cases n with
    | zero => simp_all [cut]
    | succ n =>
      simp only [cut] at h
      split at h
      · rename_i hle
        simp only [Option.map_eq_some_iff, Prod.mk.injEq] at h
        obtain ⟨⟨front', back'⟩, hcut, rfl, rfl⟩ := h
        obtain ⟨rfl, hw⟩ := ih hcut
        exact ⟨rfl, by simp only [weigh_cons]; omega⟩
      · cases h

theorem cut_append (hpos : ∀ x, 0 < size x) (front back : List α) :
    cut size (front ++ back) (weigh size front) = some (front, back) := by
  induction front with
  | nil => exact cut_zero _
  | cons x front ih =>
    have hx := hpos x
    obtain ⟨n, hn⟩ : ∃ n, weigh size (x :: front) = n + 1 :=
      ⟨size x + weigh size front - 1, by simp only [weigh_cons]; omega⟩
    rw [hn, cons_append, cut]
    rw [weigh_cons] at hn
    rw [if_pos (by omega), show n + 1 - size x = weigh size front by omega, ih]
    rfl

theorem cut_eq_some_iff (hpos : ∀ x, 0 < size x) {xs front back : List α} {n : Nat} :
    cut size xs n = some (front, back) ↔ xs = front ++ back ∧ weigh size front = n := by
  constructor
  · exact append_of_cut
  · rintro ⟨rfl, rfl⟩
    exact cut_append hpos front back

end Cut

/-- One replacement of what stands at an offset. -/
structure Edit (α : Type) where
  start : Nat
  removed : List α
  inserted : List α
deriving DecidableEq

/-- The script takes the first list to the second; its offsets are offsets in the first, counted
from `origin`. -/
inductive Patch (size : α → Nat) : Nat → List (Edit α) → List α → List α → Prop
  | done (origin : Nat) (tail : List α) : Patch size origin [] tail tail
  | edit {origin : Nat} {script : List (Edit α)} {before after : List α} (kept : List α)
      (e : Edit α) (hstart : e.start = origin + weigh size kept)
      (hrest : Patch size (e.start + weigh size e.removed) script before after) :
      Patch size origin (e :: script) (kept ++ (e.removed ++ before)) (kept ++ (e.inserted ++ after))

section Scripts

variable {size : α → Nat}

variable {origin : Nat} {script : List (Edit α)} {before after : List α}

theorem Patch.shift (kept : List α) (h : Patch size (origin + weigh size kept) script before after) :
    Patch size origin script (kept ++ before) (kept ++ after) := by
  cases h with
  | done => exact .done origin (kept ++ _)
  | edit kept' e hstart hrest =>
    have hjoint : e.start = origin + weigh size (kept ++ kept') := by
      rw [hstart, weigh_append]
      omega
    have hjoined := Patch.edit (kept ++ kept') e hjoint hrest
    simpa only [append_assoc] using hjoined

theorem Patch.filter_changes [DecidableEq α] (h : Patch size origin script before after) :
    Patch size origin (script.filter fun e => e.removed ≠ e.inserted) before after := by
  induction h with
  | done origin tail => exact .done origin tail
  | edit kept e hstart _ ih =>
    by_cases hsame : e.removed = e.inserted
    · rw [filter_cons_of_neg (by simpa using hsame), ← hsame]
      rw [hstart] at ih
      exact Patch.shift kept (Patch.shift e.removed ih)
    · rw [filter_cons_of_pos (by simpa using hsame)]
      exact .edit kept e hstart ih

theorem Patch.nil_iff : Patch size origin [] before after ↔ before = after := by
  constructor
  · intro h
    cases h
    rfl
  · rintro rfl
    exact .done _ _

theorem Patch.weigh_eq (h : Patch size origin script before after) :
    weigh size before + (script.map fun e => weigh size e.inserted).sum =
      weigh size after + (script.map fun e => weigh size e.removed).sum := by
  induction h with
  | done origin tail => simp
  | edit kept e hstart _ ih =>
    simp only [weigh_append, map_cons, sum_cons]
    omega

theorem Patch.removed_le (h : Patch size origin script before after) :
    (script.map fun e => weigh size e.removed).sum ≤ weigh size before := by
  induction h with
  | done origin tail => simp
  | edit kept e hstart _ ih =>
    simp only [weigh_append, map_cons, sum_cons]
    omega

end Scripts

end Splicing
