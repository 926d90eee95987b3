import Mathlib

/-!
# Lines from wrapped rows

Text that is laid out in rows consists of lines: a row that wraps is continued by the row after it.
Rows come from any type, with functions for what they hold and whether they wrap. `lines` puts the
lines back together, the last row ending the last line; `separated` writes them out with a separator
between them.
-/

namespace SoftWrap

open List

variable {ρ α : Type} (cells : ρ → List α) (wraps : ρ → Bool)

/-- The lines of a list of rows. -/
def lines : List ρ → List (List α)
  | [] => []
  | [row] => [cells row]
  | row :: next :: rest =>
    if wraps row then (lines (next :: rest)).modifyHead (cells row ++ ·)
    else cells row :: lines (next :: rest)

def terminated (sep : α) (rows : List ρ) : List α :=
  rows.flatMap fun row => cells row ++ if wraps row then [] else [sep]

/-- The rows written out with a separator between those that do not wrap and the next. -/
def separated (sep : α) : List ρ → List α
  | [] => []
  | [row] => cells row
  | row :: next :: rest => (cells row ++ if wraps row then [] else [sep]) ++ separated sep (next :: rest)

/-- The rows that come after a row, each with the separator in front that the row above asks for. -/
def followed (sep : α) : Bool → List ρ → List α
  | _, [] => []
  | wrapped, row :: rest =>
    (if wrapped then [] else [sep]) ++ (cells row ++ followed sep (wraps row) rest)

theorem lines_singleton (row : ρ) : lines cells wraps [row] = [cells row] := rfl

theorem lines_cons_cons (row next : ρ) (rest : List ρ) : lines cells wraps (row :: next :: rest) =
      if wraps row then (lines cells wraps (next :: rest)).modifyHead (cells row ++ ·)
      else cells row :: lines cells wraps (next :: rest) := rfl

theorem lines_eq_cons (row : ρ) (rest : List ρ) :
    ∃ line more, lines cells wraps (row :: rest) = line :: more := by
  induction rest generalizing row with
  | nil => exact ⟨_, _, rfl⟩
  | cons next rest ih =>
    obtain ⟨line, more, hl⟩ := ih next
    rw [lines_cons_cons, hl]
    split
    · exact ⟨_, _, rfl⟩
    · exact ⟨_, _, rfl⟩

def offset (rows : List ρ) (k : Nat) : Nat := ((rows.take k).flatMap cells).length

variable {cells wraps} {rows rows' : List ρ} {row : ρ}

theorem flatten_lines (rows : List ρ) : (lines cells wraps rows).flatten = rows.flatMap cells := by
  induction rows with
  | nil => rfl
  | cons row rest ih =>
    cases rest with
    | nil => rw [lines_singleton, flatten_singleton, flatMap_singleton]
    | cons next rest =>
      obtain ⟨line, more, hl⟩ := lines_eq_cons cells wraps next rest
      rw [flatMap_cons, ← ih, lines_cons_cons]
      split
      · simp [hl]
      · simp

theorem lines_append (hlast : rows.getLast? = some row) (hhard : wraps row = false) (hne : rows' ≠ []) :
    lines cells wraps (rows ++ rows') = lines cells wraps rows ++ lines cells wraps rows' := by
  induction rows with
  | nil => cases hlast
  | cons first rest ih =>
    cases rest with
    | nil =>
      obtain rfl : first = row := by simpa using hlast
      obtain ⟨next, more, rfl⟩ := exists_cons_of_ne_nil hne
      simp [lines_cons_cons, lines_singleton, hhard]
    | cons next rest =>
      have ih := ih (by simpa using hlast)
      obtain ⟨line, more, hl⟩ := lines_eq_cons cells wraps next rest
      simp only [cons_append] at ih ⊢
      rw [lines_cons_cons, ih, lines_cons_cons]
      split
      · simp [hl]
      · simp

theorem lines_wrapped (h : ∀ row ∈ rows.dropLast, wraps row = true) (hne : rows ≠ []) :
    lines cells wraps rows = [rows.flatMap cells] := by
  induction rows with
  | nil => exact absurd rfl hne
  | cons row rest ih =>
    cases rest with
    | nil => simp [lines_singleton]
    | cons next rest =>
      rw [dropLast_cons_of_ne_nil (by simp)] at h
      rw [lines_cons_cons, if_pos (h row mem_cons_self),
        ih (fun r hr => h r (mem_cons_of_mem _ hr)) (by simp)]
      simp

theorem lines_concat_empty {empty : ρ} (hempty : cells empty = []) (hlast : rows.getLast? = some row)
    (hwraps : wraps row = true) :
    lines cells wraps (rows ++ [empty]) = lines cells wraps rows := by
  induction rows with
  | nil => cases hlast
  | cons first rest ih =>
    cases rest with
    | nil =>
      obtain rfl : first = row := by simpa using hlast
      simp [lines_cons_cons, lines_singleton, hwraps, hempty]
    | cons next rest =>
      have ih := ih (by simpa using hlast)
      simp only [cons_append] at ih ⊢
      rw [lines_cons_cons, ih, lines_cons_cons]

theorem lines_append_empty (hlast : rows.getLast? = some row) (hwraps : wraps row = true)
    (hempty : ∀ more ∈ rows', cells more = []) (hmore : ∀ more ∈ rows'.dropLast, wraps more = true) :
    lines cells wraps (rows ++ rows') = lines cells wraps rows := by
  induction rows' generalizing rows row with
  | nil => rw [append_nil]
  | cons first rest ih =>
    have hfirst := lines_concat_empty (hempty first mem_cons_self) hlast hwraps
    cases rest with
    | nil => exact hfirst
    | cons next rest =>
      rw [dropLast_cons_of_ne_nil (by simp)] at hmore
      rw [append_cons, ih getLast?_concat (hmore first mem_cons_self)
        (fun r hr => hempty r (mem_cons_of_mem first hr))
        (fun r hr => hmore r (mem_cons_of_mem first hr)), hfirst]

theorem lines_map {β : Type} (f : α → β) (rows : List ρ) :
    lines (fun row => (cells row).map f) wraps rows = (lines cells wraps rows).map (List.map f) := by
  induction rows with
  | nil => rfl
  | cons row rest ih =>
    cases rest with
    | nil => rfl
    | cons next rest =>
      obtain ⟨line, more, hl⟩ := lines_eq_cons cells wraps next rest
      rw [lines_cons_cons, ih, lines_cons_cons]
      split
      · simp [hl]
      · simp

variable (sep : α)

theorem terminated_append (rows rows' : List ρ) : terminated cells wraps sep (rows ++ rows') =
      terminated cells wraps sep rows ++ terminated cells wraps sep rows' := flatMap_append

theorem separated_append (rows : List ρ) (hne : rows' ≠ []) :
    separated cells wraps sep (rows ++ rows') =
      terminated cells wraps sep rows ++ separated cells wraps sep rows' := by
  induction rows with
  | nil => rfl
  | cons row rest ih =>
    obtain ⟨next, more, hl⟩ : ∃ next more, rest ++ rows' = next :: more :=
      exists_cons_of_ne_nil (by simp [hne])
    rw [cons_append, hl, separated, ← hl, ih]
    simp [terminated]

theorem separated_cons (row : ρ) (rest : List ρ) :
    separated cells wraps sep (row :: rest) = cells row ++ followed cells wraps sep (wraps row) rest := by
  induction rest generalizing row with
  | nil => simp [separated, followed]
  | cons next rest ih => rw [separated, followed, ih, append_assoc]

theorem separated_eq (rows : List ρ) :
    separated cells wraps sep rows = List.intercalate [sep] (lines cells wraps rows) := by
  induction rows with
  | nil => rfl
  | cons row rest ih =>
    cases rest with
    | nil => simp [separated, lines_singleton, List.intercalate]
    | cons next rest =>
      obtain ⟨line, more, hl⟩ := lines_eq_cons cells wraps next rest
      rw [separated, ih, lines_cons_cons, hl]
      split
      · cases more <;> simp [List.intercalate]
      · simp [List.intercalate]

variable {k : Nat}

theorem offset_succ (h : rows[k]? = some row) :
    offset cells rows (k + 1) = offset cells rows k + (cells row).length := by
  obtain ⟨hlt, rfl⟩ := List.getElem?_eq_some_iff.mp h
  rw [offset, offset, take_add_one, getElem?_eq_getElem hlt, flatMap_append,
    length_append]
  simp only [Option.toList_some, flatMap_singleton]

theorem offset_mono {j : Nat} (h : j ≤ k) : offset cells rows j ≤ offset cells rows k := by
  obtain ⟨d, rfl⟩ := Nat.exists_eq_add_of_le h
  rw [offset, offset, take_add, flatMap_append, length_append]
  omega

theorem offset_of_length_le (h : rows.length ≤ k) :
    offset cells rows k = (rows.flatMap cells).length := by
  rw [offset, take_of_length_le h]

theorem offset_append (h : k ≤ rows.length) :
    offset cells (rows ++ rows') k = offset cells rows k := by
  rw [offset, offset, take_append_of_le_length h]

theorem offset_append_add (k : Nat) : offset cells (rows ++ rows') (rows.length + k) =
      (rows.flatMap cells).length + offset cells rows' k := by
  rw [offset, offset, take_length_add_append, flatMap_append, length_append]

theorem getElem?_flatMap {column : Nat} (h : rows[k]? = some row) (hc : column < (cells row).length) :
    (rows.flatMap cells)[offset cells rows k + column]? = (cells row)[column]? := by
  obtain ⟨hlt, rfl⟩ := List.getElem?_eq_some_iff.mp h
  have hsplit : rows.flatMap cells =
      (rows.take k).flatMap cells ++ (cells rows[k] ++ (rows.drop (k + 1)).flatMap cells) := by
    rw [← flatMap_cons, ← drop_eq_getElem_cons hlt, ← flatMap_append, take_append_drop]
  rw [hsplit, offset, getElem?_append_right (Nat.le_add_right _ _), Nat.add_sub_cancel_left,
    getElem?_append_left hc]

end SoftWrap
