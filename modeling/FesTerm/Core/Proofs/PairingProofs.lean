import FesTerm.Core.Cell

/-!
# Wide-cell pairing

A row of cells is paired when every `double` cell is directly followed by a `continuation` and every
`continuation` directly preceded by a `double`. `Paired` says it position by position, which suits
edits of single cells; `Pairs` builds a paired row from its left end, which suits appending and
rewrapping. `paired_iff_pairs` identifies the two.
-/

namespace FesTerm

open List

def widthAt (cells : List Cell) (i : Nat) : Option CellWidth := (cells[i]?).map Cell.width

/-- The cell at a position has its other half, if it is half of a pair. -/
def PairedAt (cells : List Cell) (i : Nat) : Prop :=
  (widthAt cells i = some .double → widthAt cells (i + 1) = some .continuation) ∧
    (widthAt cells i = some .continuation → ∃ j, i = j + 1 ∧ widthAt cells j = some .double)

def Paired (cells : List Cell) : Prop := ∀ i, PairedAt cells i

/-- A row made of single cells and whole pairs. -/
inductive Pairs : List Cell → Prop
  | nil : Pairs []
  | single {cell : Cell} {cells : List Cell} (hw : cell.width = .single) (h : Pairs cells) :
      Pairs (cell :: cells)
  | pair {lead trail : Cell} {cells : List Cell} (hl : lead.width = .double)
      (ht : trail.width = .continuation) (h : Pairs cells) : Pairs (lead :: trail :: cells)

@[simp] theorem widthAt_nil (i : Nat) : widthAt [] i = none := rfl

@[simp] theorem widthAt_cons_zero (cell : Cell) (cells : List Cell) :
    widthAt (cell :: cells) 0 = some cell.width := rfl

@[simp] theorem widthAt_cons_succ (cell : Cell) (cells : List Cell) (i : Nat) :
    widthAt (cell :: cells) (i + 1) = widthAt cells i := rfl

variable {cells : List Cell}

theorem PairedAt.cons_succ {cell : Cell} {i : Nat} (h : PairedAt cells i) :
    PairedAt (cell :: cells) (i + 1) := by
  obtain ⟨hd, hc⟩ := h
  refine ⟨by simpa using hd, fun hw => ?_⟩
  rw [widthAt_cons_succ] at hw
  obtain ⟨j, rfl, hj⟩ := hc hw
  exact ⟨j + 1, rfl, by simpa using hj⟩

theorem Pairs.paired (h : Pairs cells) : Paired cells := by
  induction h with
  | nil => intro i; exact ⟨by simp, by simp⟩
  | single hw h ih =>
    intro i
    cases i with
    | zero => exact ⟨by simp [hw], by simp [hw]⟩
    | succ i => exact (ih i).cons_succ
  | pair hl ht h ih =>
    intro i
    match i with
    | 0 => exact ⟨by simp [ht], by simp [hl]⟩
    | 1 => exact ⟨by simp [ht], fun _ => ⟨0, rfl, by simp [hl]⟩⟩
    | i + 2 => exact (ih i).cons_succ.cons_succ

theorem Paired.head {cell : Cell} (h : Paired (cell :: cells)) : cell.width = .single ∨
      cell.width = .double ∧ ∃ trail rest, cells = trail :: rest ∧ trail.width = .continuation := by
  cases hw : cell.width with
  | single => exact .inl rfl
  | double =>
    have h0 := (h 0).1 (by simp [hw])
    cases cells with
    | nil => cases h0
    | cons trail rest => exact .inr ⟨rfl, trail, rest, rfl, by simpa using h0⟩
  | continuation =>
    obtain ⟨j, hj, -⟩ := (h 0).2 (by simp [hw])
    cases hj

theorem Paired.tail_of_single {cell : Cell} (h : Paired (cell :: cells))
    (hw : cell.width = .single) : Paired cells := by
  intro i
  obtain ⟨hd, hc⟩ := h (i + 1)
  refine ⟨by simpa using hd, fun hcont => ?_⟩
  obtain ⟨j, hj, hjd⟩ := hc (by simpa using hcont)
  cases j with
  | zero => simp [hw] at hjd
  | succ j => exact ⟨j, by omega, by simpa using hjd⟩

theorem Paired.tail_of_pair {lead trail : Cell}
    (h : Paired (lead :: trail :: cells)) (ht : trail.width = .continuation) : Paired cells := by
  intro i
  obtain ⟨hd, hc⟩ := h (i + 2)
  refine ⟨by simpa using hd, fun hcont => ?_⟩
  obtain ⟨j, hj, hjd⟩ := hc (by simpa using hcont)
  match j with
  | 0 => omega
  | 1 => simp [ht] at hjd
  | j + 2 => exact ⟨j, by omega, by simpa using hjd⟩

theorem Paired.pairs : ∀ {cells : List Cell}, Paired cells → Pairs cells
  | [], _ => .nil
  | [cell], h => by
    rcases h.head with hw | ⟨-, trail, rest, hrest, -⟩
    · exact .single hw .nil
    · cases hrest
  | cell :: next :: rest, h => by
    rcases h.head with hw | ⟨hw, trail, rest', hrest, ht⟩
    · exact .single hw (h.tail_of_single hw).pairs
    · cases hrest
      exact .pair hw ht (h.tail_of_pair ht).pairs

theorem paired_iff_pairs : Paired cells ↔ Pairs cells :=
  ⟨Paired.pairs, Pairs.paired⟩

theorem Pairs.append {xs ys : List Cell} (hx : Pairs xs) (hy : Pairs ys) : Pairs (xs ++ ys) := by
  induction hx with
  | nil => exact hy
  | single hw _ ih => exact .single hw ih
  | pair hl ht _ ih => exact .pair hl ht ih

def usedColumns (cells : List Cell) : Nat := (cells.map fun cell => cell.width.columns).sum

theorem Pairs.usedColumns_eq (h : Pairs cells) : usedColumns cells = cells.length := by
  induction h with
  | nil => rfl
  | single hw _ ih =>
    simp only [usedColumns, map_cons, sum_cons, length_cons, hw, CellWidth.columns] at ih ⊢
    omega
  | pair hl ht _ ih =>
    simp only [usedColumns, map_cons, sum_cons, length_cons, hl, ht, CellWidth.columns] at ih ⊢
    omega

end FesTerm
