import Mathlib.Data.List.Basic

/-!
# Longest common subsequences

`IsLongest n xs ys`: the longest subsequences that two lists have in common have length `n`. The
rules are the ones a table of a dynamic program is filled by, together with what becomes of the
length when equal ends are put on both lists.
-/

namespace Subsequences

open List

variable {α : Type}

/-- The length of a longest common subsequence. -/
structure IsLongest (n : Nat) (xs ys : List α) : Prop where
  attained : ∃ zs : List α, zs.Sublist xs ∧ zs.Sublist ys ∧ zs.length = n
  bound : ∀ zs : List α, zs.Sublist xs → zs.Sublist ys → zs.length ≤ n

variable {m n : Nat} {xs ys : List α} {x y : α}

theorem IsLongest.unique (hm : IsLongest m xs ys) (hn : IsLongest n xs ys) : m = n := by
  obtain ⟨zs, hxs, hys, rfl⟩ := hm.attained
  obtain ⟨zs', hxs', hys', rfl⟩ := hn.attained
  exact Nat.le_antisymm (hn.bound zs hxs hys) (hm.bound zs' hxs' hys')

theorem isLongest_nil_left (ys : List α) : IsLongest 0 [] ys := by
  refine ⟨⟨[], nil_sublist _, nil_sublist _, rfl⟩, fun zs hxs _ => ?_⟩
  rw [sublist_nil.mp hxs]
  exact Nat.le_refl 0

theorem IsLongest.symm (h : IsLongest n xs ys) : IsLongest n ys xs := by
  obtain ⟨zs, hxs, hys, hlen⟩ := h.attained
  exact ⟨⟨zs, hys, hxs, hlen⟩, fun zs hys hxs => h.bound zs hxs hys⟩

theorem isLongest_nil_right (xs : List α) : IsLongest 0 xs [] := (isLongest_nil_left xs).symm

theorem IsLongest.cons_same (h : IsLongest n xs ys) (x : α) : IsLongest (n + 1) (x :: xs) (x :: ys) := by
  obtain ⟨zs, hxs, hys, hlen⟩ := h.attained
  refine ⟨⟨x :: zs, hxs.cons_cons x, hys.cons_cons x, congrArg (· + 1) hlen⟩, fun zs hxs hys => ?_⟩
  -- a common subsequence without its first element is one of the two tails
  cases zs with
  | nil => exact Nat.zero_le _
  | cons z zs =>
    have htail : zs.length ≤ n := h.bound zs hxs.tail hys.tail
    exact Nat.succ_le_succ htail

theorem IsLongest.cons_ne (hxy : x ≠ y) (hm : IsLongest m xs (y :: ys))
    (hn : IsLongest n (x :: xs) ys) : IsLongest (max m n) (x :: xs) (y :: ys) := by
  constructor
  · rcases Nat.le_total m n with hle | hge
    · obtain ⟨zs, hxs, hys, hlen⟩ := hn.attained
      exact ⟨zs, hxs, hys.cons y, by omega⟩
    · obtain ⟨zs, hxs, hys, hlen⟩ := hm.attained
      exact ⟨zs, hxs.cons x, hys, by omega⟩
  · intro zs hxs hys
    cases hxs with
    | cons _ hxs =>
      have := hm.bound zs hxs hys
      omega
    | cons_cons _ hxs =>
      -- the subsequence takes the first element of one list, so it does not take the other's
      cases hys with
      | cons _ hys =>
        have := hn.bound _ (hxs.cons_cons x) hys
        omega
      | cons_cons _ hys => exact absurd rfl hxy

theorem IsLongest.reverse (h : IsLongest n xs ys) : IsLongest n xs.reverse ys.reverse := by
  obtain ⟨zs, hxs, hys, hlen⟩ := h.attained
  refine ⟨⟨zs.reverse, hxs.reverse, hys.reverse, by rw [length_reverse, hlen]⟩, ?_⟩
  intro zs hxs hys
  have hbound := h.bound zs.reverse (reverse_sublist.mp (by rwa [reverse_reverse]))
    (reverse_sublist.mp (by rwa [reverse_reverse]))
  rwa [length_reverse] at hbound

theorem IsLongest.append_left (h : IsLongest n xs ys) (front : List α) :
    IsLongest (front.length + n) (front ++ xs) (front ++ ys) := by
  induction front with
  | nil => rwa [length_nil, Nat.zero_add]
  | cons x front ih =>
    rw [length_cons, Nat.add_right_comm]
    exact ih.cons_same x

theorem IsLongest.append_right (h : IsLongest n xs ys) (back : List α) :
    IsLongest (n + back.length) (xs ++ back) (ys ++ back) := by
  have hreverse := (h.reverse.append_left back.reverse).reverse
  rwa [← reverse_append, ← reverse_append, reverse_reverse, reverse_reverse,
    length_reverse, Nat.add_comm] at hreverse

end Subsequences
