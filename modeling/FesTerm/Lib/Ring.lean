import Mathlib

/-!
# Rotated lists

A ring buffer keeps a list of a fixed length together with the position of its first element. What it
stands for is the list rotated to that position: element `i` of the rotation is stored at `top + i`,
reduced by the length, so a write through the ring is a write to the rotation, and moving the position
on rotates once more.
-/

namespace Ring

open List

variable {α : Type}

theorem getElem?_rotate {l : List α} (h : 0 < l.length) (top i : Nat) :
    (l.rotate top)[i % l.length]? = l[(top + i) % l.length]? := by
  rw [List.getElem?_rotate (Nat.mod_lt i h), Nat.mod_add_mod, Nat.add_comm i top]

theorem index_eq_iff {n : Nat} (top i j : Nat) : (top + i) % n = (top + j) % n ↔ i % n = j % n := by
  constructor
  · intro h
    exact Nat.ModEq.add_left_cancel' top h
  · intro h
    exact Nat.ModEq.add_left top h

theorem set_rotate {l : List α} (h : 0 < l.length) (top i : Nat) (x : α) :
    (l.set ((top + i) % l.length) x).rotate top = (l.rotate top).set (i % l.length) x := by
  apply ext_getElem?
  intro k
  by_cases hk : k < l.length
  · have hget := getElem?_rotate (l := l.set ((top + i) % l.length) x)
      (by rw [length_set]; exact h) top k
    have hold := getElem?_rotate h top k
    rw [length_set, Nat.mod_eq_of_lt hk] at hget
    rw [Nat.mod_eq_of_lt hk] at hold
    rw [hget, getElem?_set, getElem?_set, hold, length_rotate,
      if_congr (index_eq_iff top i k) rfl rfl, Nat.mod_eq_of_lt hk]
    by_cases hik : i % l.length = k
    · rw [if_pos hik, if_pos hik, if_pos (Nat.mod_lt _ h), if_pos (Nat.mod_lt _ h)]
    · rw [if_neg hik, if_neg hik]
  · rw [getElem?_eq_none (by simpa using hk), getElem?_eq_none (by simpa using hk)]

theorem rotate_advance (l : List α) (top count : Nat) :
    l.rotate ((top + count) % l.length) = (l.rotate top).rotate count := by
  rw [rotate_mod, rotate_rotate]

end Ring
