import Mathlib

/-!
# Greedy wrapping

Units of different sizes are laid out in rows one after the other. A row takes the next unit while there is
room for it, and an empty row takes any unit.
-/

namespace GreedyWrap

open List

variable {α : Type} (size : α → Nat) (limit : Nat)

def total (row : List α) : Nat := (row.map size).sum

/-- The rows of some units behind a row that is still open. -/
def wrap : List α → List α → List (List α)
  | row, [] => [row]
  | row, unit :: units =>
    if row ≠ [] ∧ limit < total size row + size unit then row :: wrap [unit] units else wrap (row ++ [unit]) units

/-- Where the rows end that begin at a place. -/
def ends : Nat → List (List α) → List Nat
  | _, [] => []
  | start, row :: rows => (start + total size row) :: ends (start + total size row) rows

def Fits (row : List α) : Prop := total size row ≤ limit ∨ row.length ≤ 1

/-- Every row fits, and the first unit of the next one did not fit into it as well. -/
inductive Greedy : List (List α) → Prop
  | last {row : List α} (hfits : Fits size limit row) : Greedy [row]
  | next {row more : List α} {unit : α} {rows : List (List α)} (hne : row ≠ []) (hfits : Fits size limit row)
    (hfull : limit < total size row + size unit) (h : Greedy ((unit :: more) :: rows)) :
    Greedy (row :: (unit :: more) :: rows)

theorem wrap_cases (row : List α) (unit : α) (units : List α) :
    row ≠ [] ∧ limit < total size row + size unit ∧
        wrap size limit row (unit :: units) = row :: wrap size limit [unit] units ∨
      (row = [] ∨ total size row + size unit ≤ limit) ∧
        wrap size limit row (unit :: units) = wrap size limit (row ++ [unit]) units := by
  by_cases hfull : row ≠ [] ∧ limit < total size row + size unit
  · exact .inl ⟨hfull.1, hfull.2, by rw [wrap, if_pos hfull]⟩
  · refine .inr ⟨?_, by rw [wrap, if_neg hfull]⟩
    rw [not_and_or, not_not, Nat.not_lt] at hfull
    exact hfull

theorem wrap_eq_cons (row units : List α) : ∃ more rows, wrap size limit row units = (row ++ more) :: rows := by
  induction units generalizing row with
  | nil => exact ⟨[], [], by rw [wrap, append_nil]⟩
  | cons unit units ih =>
    rcases wrap_cases size limit row unit units with ⟨-, -, h⟩ | ⟨-, h⟩
    · exact ⟨[], _, by rw [h, append_nil]⟩
    · obtain ⟨more, rows, hrows⟩ := ih (row ++ [unit])
      exact ⟨unit :: more, rows, by rw [h, hrows, append_assoc, singleton_append]⟩

variable {size limit} {row : List α} {rows : List (List α)}

@[simp] theorem total_nil : total size [] = 0 := rfl

@[simp] theorem total_singleton (unit : α) : total size [unit] = size unit := by simp [total]

@[simp] theorem total_append (row row' : List α) : total size (row ++ row') = total size row + total size row' := by
  simp [total]

theorem flatten_wrap (row units : List α) : (wrap size limit row units).flatten = row ++ units := by
  induction units generalizing row with
  | nil => simp [wrap]
  | cons unit units ih =>
    rcases wrap_cases size limit row unit units with ⟨-, -, h⟩ | ⟨-, h⟩
    · rw [h, flatten_cons, ih, singleton_append]
    · rw [h, ih, append_assoc, singleton_append]

theorem greedy_wrap (hrow : Fits size limit row) (units : List α) : Greedy size limit (wrap size limit row units) := by
  induction units generalizing row with
  | nil => exact .last hrow
  | cons unit units ih =>
    rcases wrap_cases size limit row unit units with ⟨hne, hfull, h⟩ | ⟨hroom, h⟩
    · obtain ⟨more, rows, hrows⟩ := wrap_eq_cons size limit [unit] units
      have hrest := @ih [unit] (.inr le_rfl)
      rw [h]
      rw [hrows] at hrest ⊢
      exact .next hne hrow hfull hrest
    · rw [h]
      refine ih ?_
      rcases hroom with rfl | hroom
      · exact .inr le_rfl
      · rw [Fits, total_append, total_singleton]
        exact .inl hroom

theorem Greedy.fits (h : Greedy size limit rows) : ∀ row ∈ rows, Fits size limit row := by
  induction h with
  | last hfits => simpa using hfits
  | next _ hfits _ _ ih => exact forall_mem_cons.mpr ⟨hfits, ih⟩

theorem Greedy.ne_nil (h : Greedy size limit rows) (hunits : rows.flatten ≠ []) : ∀ row ∈ rows, row ≠ [] := by
  induction h with
  | last _ => simpa using hunits
  | next hne _ _ _ ih => exact forall_mem_cons.mpr ⟨hne, ih (by simp)⟩

theorem Greedy.full (h : Greedy size limit rows) {i : Nat} {row next : List α} (hrow : rows[i]? = some row)
    (hnext : rows[i + 1]? = some next) : ∃ unit more, next = unit :: more ∧ limit < total size row + size unit := by
  induction h generalizing i with
  | last _ => simp at hnext
  | next _ _ hfull _ ih =>
    cases i with
    | zero =>
      cases hrow
      cases hnext
      exact ⟨_, _, rfl, hfull⟩
    | succ i => exact ih hrow hnext

theorem le_of_mem_ends {start stop : Nat} (h : stop ∈ ends size start rows) : start ≤ stop := by
  induction rows generalizing start with
  | nil => cases h
  | cons row rows ih =>
    rcases mem_cons.mp h with rfl | h
    · exact Nat.le_add_right _ _
    · exact (Nat.le_add_right _ _).trans (ih h)

theorem pairwise_ends (start : Nat) (rows : List (List α)) : (ends size start rows).Pairwise (· ≤ ·) := by
  induction rows generalizing start with
  | nil => exact .nil
  | cons row rows ih => exact .cons (fun _ h => le_of_mem_ends h) (ih _)

theorem getLast?_ends (start : Nat) (hrows : rows ≠ []) :
    (ends size start rows).getLast? = some (start + total size rows.flatten) := by
  induction rows generalizing start with
  | nil => exact absurd rfl hrows
  | cons row rows ih =>
    rw [ends, getLast?_cons, flatten_cons, total_append, ← Nat.add_assoc]
    cases rows with
    | nil => rfl
    | cons next rows =>
      rw [ih _ (cons_ne_nil _ _)]
      rfl

/-- From each end to the next there is a row. -/
theorem isChain_ends {p : Nat → Prop} (h : ∀ row ∈ rows, p (total size row)) (start : Nat) :
    List.IsChain (fun start stop => start ≤ stop ∧ p (stop - start)) (start :: ends size start rows) := by
  induction rows generalizing start with
  | nil => exact .singleton _
  | cons row rows ih =>
    refine .cons_cons ⟨Nat.le_add_right _ _, ?_⟩ (ih (fun other hother => h other (mem_cons_of_mem _ hother)) _)
    rw [Nat.add_sub_cancel_left]
    exact h row mem_cons_self

/-- The ends are the lengths of the first rows, one, two, and so on of them. -/
theorem ends_eq_inits (start : Nat) (rows : List (List α)) :
    ends size start rows = rows.inits.tail.map fun front => start + total size front.flatten := by
  induction rows generalizing start with
  | nil => rfl
  | cons row rows ih =>
    rw [ends, ih, inits_cons, tail_cons, List.map_map]
    cases rows with
    | nil => simp
    | cons next rows => simp [Function.comp_def, Nat.add_assoc]

/-- A place is the end of a row exactly when it is behind some of the first rows. -/
theorem mem_ends {start stop : Nat} : stop ∈ ends size start rows ↔
    ∃ front row back, rows = front ++ row :: back ∧ stop = start + total size (front ++ [row]).flatten := by
  induction rows generalizing start with
  | nil => simp [ends]
  | cons row rows ih =>
    rw [ends, mem_cons, ih]
    constructor
    · rintro (rfl | ⟨front, other, back, rfl, rfl⟩)
      · exact ⟨[], row, rows, rfl, by simp⟩
      · exact ⟨row :: front, other, back, rfl, by simp; omega⟩
    · rintro ⟨front, other, back, hrows, rfl⟩
      cases front with
      | nil =>
        cases hrows
        exact .inl (by simp)
      | cons first front =>
        cases hrows
        exact .inr ⟨front, other, back, rfl, by simp; omega⟩

@[simp] theorem length_ends (start : Nat) (rows : List (List α)) : (ends size start rows).length = rows.length := by
  induction rows generalizing start with
  | nil => rfl
  | cons row rows ih => exact congrArg (· + 1) (ih _)

/-- No layout of the same units has fewer rows: whatever is `gone` before, it goes no further in a row. -/
theorem Greedy.length_le (h : Greedy size limit rows) (hunits : rows.flatten ≠ []) {gone : List α}
    {other : List (List α)} (hother : other.flatten = gone ++ rows.flatten)
    (hfits : ∀ row ∈ other, Fits size limit row) : rows.length ≤ other.length := by
  induction h generalizing gone other with
  | last _ =>
    cases other with
    | nil => exact absurd (append_eq_nil_iff.mp hother.symm).2 hunits
    | cons row other => exact Nat.succ_le_succ (Nat.zero_le _)
  | @next row more unit rows hne _ hfull _ ih =>
    cases other with
    | nil => exact absurd (append_eq_nil_iff.mp hother.symm).2 hunits
    | cons first other =>
      obtain ⟨hfirst, hrest⟩ := forall_mem_cons.mp hfits
      refine Nat.succ_le_succ ?_
      rw [flatten_cons, flatten_cons, ← append_assoc] at hother
      rcases append_eq_append_iff.mp hother with ⟨left, -, hother⟩ | ⟨taken, rfl, htaken⟩
      · exact ih (by simp) hother hrest
      · cases taken with
        | nil => exact @ih (by simp) [] _ htaken.symm hrest
        | cons unit' taken =>
          -- the row does not fit together with the unit behind it
          obtain ⟨rfl, -⟩ := List.cons.inj htaken
          have hlength := length_pos_iff.mpr hne
          simp only [Fits, total, map_append, sum_append, map_cons, sum_cons,
            length_append, length_cons] at hfirst hfull
          omega

end GreedyWrap
