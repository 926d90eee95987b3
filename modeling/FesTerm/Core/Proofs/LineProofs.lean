import FesTerm.Core.Screen
import FesTerm.Core.Proofs.PairingProofs

/-!
# Edits of one row

What every edit of `screen.rs` keeps of a row: its sizes, the bounds on the text of its cells, the
recorded extent, the pairing of wide cells and the marking of visible cells. The last two can be
broken by a selective erase, so a `Promise` says which of them is kept track of, and the lemmas hold
for every promise.

An edit writes part of the row and then repairs the columns around the ends of what it wrote.
`Rewrites` describes the writing cell by cell; `Repaired` says what repairing can change.
-/

namespace FesTerm

open Checked List Option

/-- The properties of the terminal that depend on how it was driven. -/
structure Promise where
  /-- Wide cells stay whole. -/
  pairs : Bool
  /-- Visible cells stay marked as occupied. -/
  marks : Bool
  /-- A pending wrap waits in the last column. -/
  wraps : Bool
  /-- The title keeps to the length that recovery accepts. -/
  titles : Bool

/-- What holds of a cell and its marker. -/
structure CellOk (promise : Promise) (cell : Cell) (occupied : Bool) : Prop where
  text : cell.TextOk
  pairs : promise.pairs = true → cell.width = .continuation → occupied = true
  marks : promise.marks = true → isStructuralBlank cell = false → occupied = true

theorem CellOk.of_occupied {promise : Promise} {cell : Cell} (h : cell.TextOk) :
    CellOk promise cell true := ⟨h, fun _ _ => rfl, fun _ _ => rfl⟩

/-- A cell that may fill erased columns. -/
structure FillOk (cell : Cell) : Prop where
  text : cell.TextOk
  single : cell.width = .single

theorem CellOk.of_fill {promise : Promise} {cell : Cell} (h : FillOk cell) :
    CellOk promise cell (!isStructuralBlank cell) where
  text := h.text
  pairs _ hc := by rw [h.single] at hc; cases hc
  marks _ hb := by rw [hb]; rfl

theorem blankCell_fillOk [Platform] : FillOk blankCell := ⟨blankCell_textOk, rfl⟩

/-! ## Pairing under edits -/

variable {cells : List Cell} {i : Nat} {marks : List Bool}

theorem PairedAt.of_single (h : widthAt cells i = some .single) : PairedAt cells i := ⟨by simp [h], by simp [h]⟩

theorem PairedAt.of_none (h : widthAt cells i = none) : PairedAt cells i := ⟨by simp [h], by simp [h]⟩

variable {j : Nat} {cells' : List Cell}

theorem PairedAt.congr (h : PairedAt cells j)
    (hi : widthAt cells' i = widthAt cells j) (hnext : widthAt cells' (i + 1) = widthAt cells (j + 1))
    (hprev : ∀ j', j = j' + 1 → ∃ i', i = i' + 1 ∧ widthAt cells' i' = widthAt cells j') :
    PairedAt cells' i := by
  refine ⟨fun hd => ?_, fun hc => ?_⟩
  · rw [hnext]
    exact h.1 (hi ▸ hd)
  · obtain ⟨j', rfl, hj'⟩ := h.2 (hi ▸ hc)
    obtain ⟨i', rfl, hi'⟩ := hprev j' rfl
    exact ⟨i', rfl, hi'.trans hj'⟩

theorem PairedAt.congr_same (h : PairedAt cells i)
    (hsame : ∀ k, i ≤ k + 1 → k ≤ i + 1 → widthAt cells' k = widthAt cells k) : PairedAt cells' i :=
  h.congr (hsame i (by omega) (by omega)) (hsame (i + 1) (by omega) (by omega))
    (fun j' hj' => ⟨j', hj', hsame j' (by omega) (by omega)⟩)

theorem widthAt_eq_none (h : cells.length ≤ i) : widthAt cells i = none := by
  rw [widthAt, getElem?_eq_none h]
  rfl

theorem widthAt_of_getElem? {cell : Cell} (h : cells[i]? = some cell) : widthAt cells i = some cell.width := by
  rw [widthAt, h]
  rfl

/-! ## The recorded extent -/

theorem occupiedExtent_eq_zero (h : ∀ k : Nat, marks[k]? ≠ some true) : occupiedExtent marks = 0 := by
  induction marks with
  | nil => rfl
  | cons mark rest ih =>
    have hrest := ih fun k => h (k + 1)
    have hmark : mark ≠ true := fun hm => h 0 (by simp [hm])
    simp [occupiedExtent, hrest, hmark]

variable {n : Nat}

theorem occupiedExtent_eq_succ (hset : marks[n]? = some true)
    (hlast : ∀ k, n < k → marks[k]? ≠ some true) : occupiedExtent marks = n + 1 := by
  induction marks generalizing n with
  | nil => cases hset
  | cons mark rest ih =>
    cases n with
    | zero =>
      have hrest := occupiedExtent_eq_zero fun k => hlast (k + 1) (by omega)
      have hmark : mark = true := by simpa using hset
      simp [occupiedExtent, hrest, hmark]
    | succ n =>
      have hrest := ih (n := n) (by simpa using hset) fun k hk => hlast (k + 1) (by omega)
      simp [occupiedExtent, hrest]

theorem lt_occupiedExtent {k : Nat} (h : marks[k]? = some true) : k < occupiedExtent marks := by
  induction marks generalizing k with
  | nil => cases h
  | cons mark rest ih =>
    rw [occupiedExtent]
    cases k with
    | zero =>
      have hmark : mark = true := by simpa using h
      rw [if_pos hmark]
      split <;> omega
    | succ k =>
      have hk := ih (k := k) (by simpa using h)
      rw [if_pos (by omega)]
      omega

theorem occupiedExtent_le (marks : List Bool) : occupiedExtent marks ≤ marks.length := by
  induction marks with
  | nil => exact le_rfl
  | cons mark rest ih =>
    rw [occupiedExtent, length_cons]
    split
    · omega
    · split <;> omega

theorem occupiedExtent_set (h : occupiedExtent marks = n + 1) : marks[n]? = some true := by
  induction marks generalizing n with
  | nil => cases h
  | cons mark rest ih =>
    rw [occupiedExtent] at h
    split at h
    · next hpos =>
      obtain ⟨m, hm⟩ : ∃ m, occupiedExtent rest = m + 1 := ⟨occupiedExtent rest - 1, by omega⟩
      have hn : n = m + 1 := by omega
      subst hn
      simpa using ih hm
    · split at h
      · next hmark =>
        have hn : n = 0 := by omega
        subst hn
        simp [hmark]
      · omega

theorem occupiedExtent_replicate (n : Nat) (mark : Bool) :
    occupiedExtent (List.replicate n mark) = if mark then n else 0 := by
  cases mark with
  | false =>
    refine occupiedExtent_eq_zero fun k hk => ?_
    rw [getElem?_replicate] at hk
    split at hk <;> cases hk
  | true =>
    cases n with
    | zero => rfl
    | succ n =>
      refine occupiedExtent_eq_succ ?_ fun k hk => ?_
      · rw [getElem?_replicate, if_pos (by omega)]
      · rw [getElem?_replicate, if_neg (by omega)]
        simp

namespace Line

def entry (line : Line) (i : Nat) : Option Cell × Option Bool :=
  (line.cells[i]?, line.occupiedCells[i]?)

theorem entry_cells {line line' : Line} {i : Nat} (h : line'.entry i = line.entry j) :
    line'.cells[i]? = line.cells[j]? := congrArg Prod.fst h

theorem entry_marks {line line' : Line} {i : Nat} (h : line'.entry i = line.entry j) :
    line'.occupiedCells[i]? = line.occupiedCells[j]? := congrArg Prod.snd h

theorem entry_width {line line' : Line} {i : Nat} (h : line'.entry i = line.entry j) :
    widthAt line'.cells i = widthAt line.cells j := by
  unfold widthAt
  rw [entry_cells h]

/-- A row in the middle of an edit: its sizes and its cells. -/
structure Loose (promise : Promise) (columns : Nat) (line : Line) : Prop where
  cells_length : line.cells.length = columns
  marks_length : line.occupiedCells.length = columns
  cell : ∀ {i cell occupied}, line.entry i = (some cell, some occupied) → CellOk promise cell occupied

/-- A row between edits. -/
structure Good (promise : Promise) (columns : Nat) (line : Line) : Prop
    extends Loose promise columns line where
  extent : line.occupiedColumns = occupiedExtent line.occupiedCells
  paired : promise.pairs = true → Paired line.cells

section

variable {promise : Promise} {columns : Nat} {line line' line'' : Line} {fill cell : Cell}

theorem Loose.entry_some (h : line.Loose promise columns) {i : Nat} (hi : i < columns) :
    ∃ cell occupied, line.entry i = (some cell, some occupied) ∧ CellOk promise cell occupied := by
  have hc : i < line.cells.length := by rw [h.cells_length]; exact hi
  have hm : i < line.occupiedCells.length := by rw [h.marks_length]; exact hi
  have he : line.entry i = (some line.cells[i], some line.occupiedCells[i]) := by
    rw [entry, getElem?_eq_getElem hc, getElem?_eq_getElem hm]
  exact ⟨_, _, he, h.cell he⟩

theorem Loose.cell_some (h : line.Loose promise columns) {i : Nat} (hi : i < columns) :
    ∃ cell occupied, line.cells[i]? = some cell ∧ line.occupiedCells[i]? = some occupied := by
  obtain ⟨cell, occupied, he, -⟩ := h.entry_some hi
  exact ⟨cell, occupied, congrArg Prod.fst he, congrArg Prod.snd he⟩

theorem Loose.recomputeOccupied (h : line.Loose promise columns)
    (hp : promise.pairs = true → Paired line.cells) :
    line.recomputeOccupied.Good promise columns where
  toLoose := ⟨h.cells_length, h.marks_length, h.cell⟩
  extent := rfl
  paired := hp

/-! ### Writing -/

/-- The second row is the first one with the given entries; extent and flags are not touched. -/
structure Rewrites (line line' : Line) (entry : Nat → Option Cell × Option Bool) : Prop where
  cells_length : line'.cells.length = line.cells.length
  marks_length : line'.occupiedCells.length = line.occupiedCells.length
  occupiedColumns : line'.occupiedColumns = line.occupiedColumns
  entry : ∀ k, line'.entry k = entry k

variable {entry : Nat → Option Cell × Option Bool} {first last destination start k : Nat} {boundaries : List Nat}

theorem Rewrites.loose (h : Rewrites line line' entry) (hl : line.Loose promise columns)
    (hentry : ∀ {i cell occupied}, entry i = (some cell, some occupied) →
      CellOk promise cell occupied) : line'.Loose promise columns where
  cells_length := h.cells_length.trans hl.cells_length
  marks_length := h.marks_length.trans hl.marks_length
  cell := fun hi => hentry ((h.entry _).symm.trans hi)

theorem setCell_spec (hl : line.Loose promise columns) {column : Nat} (hc : column < columns)
    (cell : Cell) (occupied : Bool) :
    ∃ line', line.setCell column cell occupied = some line' ∧
      Rewrites line line' (fun k => if k = column then (some cell, some occupied) else line.entry k) := by
  have h1 : column < line.cells.length := by rw [hl.cells_length]; exact hc
  have h2 : column < line.occupiedCells.length := by rw [hl.marks_length]; exact hc
  refine ⟨{ line with
      cells := splice line.cells column [cell]
      occupiedCells := splice line.occupiedCells column [occupied] },
    by rw [setCell, setAt_eq h1, setAt_eq h2]; rfl, ?_, ?_, rfl, fun k => ?_⟩
  · exact length_splice (by simp only [length_singleton]; omega)
  · exact length_splice (by simp only [length_singleton]; omega)
  · simp only [entry, getElem?_splice_singleton h1, getElem?_splice_singleton h2]
    split <;> rfl

def filled (line : Line) (first last : Nat) (cell : Cell) (k : Nat) : Option Cell × Option Bool :=
  if first ≤ k ∧ k < last then (some cell, some (!isStructuralBlank cell)) else line.entry k

variable {occupied : Bool}

theorem Loose.filled (hl : line.Loose promise columns) (hf : FillOk fill) {i : Nat}
    {cell : Cell} (he : filled line first last fill i = (some cell, some occupied)) :
    CellOk promise cell occupied := by
  unfold Line.filled at he
  split at he
  · obtain ⟨rfl, rfl⟩ : fill = cell ∧ (!isStructuralBlank fill) = occupied := by simpa using he
    exact .of_fill hf
  · exact hl.cell he

theorem fill_spec (hl : line.Loose promise columns) (hle : first ≤ last)
    (hlast : last ≤ columns) (cell : Cell) : ∃ line', line.fill first last cell = some line' ∧
      Rewrites line line' (filled line first last cell) := by
  have h1 : last ≤ line.cells.length := by rw [hl.cells_length]; exact hlast
  have h2 : last ≤ line.occupiedCells.length := by rw [hl.marks_length]; exact hlast
  refine ⟨{ line with
      cells := splice line.cells first (List.replicate (last - first) cell)
      occupiedCells :=
        splice line.occupiedCells first (List.replicate (last - first) (!isStructuralBlank cell)) },
    by rw [fill, fillRange_eq hle h1, fillRange_eq hle h2]; rfl, ?_, ?_, rfl, fun k => ?_⟩
  · exact length_splice (by simp only [length_replicate]; omega)
  · exact length_splice (by simp only [length_replicate]; omega)
  · simp only [entry, filled]
    rw [getElem?_splice (by simp only [length_replicate]; omega),
      getElem?_splice (by simp only [length_replicate]; omega)]
    simp only [length_replicate]
    by_cases hk : first ≤ k ∧ k < last
    · rw [if_pos (by omega), if_pos (by omega), if_pos hk, getElem?_replicate,
        getElem?_replicate, if_pos (by omega), if_pos (by omega)]
    · rw [if_neg (by omega), if_neg (by omega), if_neg hk]

theorem copyCell_spec (hl : line.Loose promise columns) {source : Nat}
    (hs : source < columns) (hd : destination < columns) :
    ∃ line', line.copyCell source destination = some line' ∧
      Rewrites line line' (fun k => if k = destination then line.entry source else line.entry k) := by
  obtain ⟨cell, occupied, he, -⟩ := hl.entry_some hs
  obtain ⟨line', hset, hw⟩ := setCell_spec hl hd cell occupied
  have h1 : line.cells[source]? = some cell := congrArg Prod.fst he
  have h2 : line.occupiedCells[source]? = some occupied := congrArg Prod.snd he
  refine ⟨line', by rw [copyCell, h1, h2]; exact hset, ?_⟩
  rw [he]
  exact hw

/-- What has been moved after some of the copies: the columns from `low` up to `high`. -/
def moved (line : Line) (start destination low high k : Nat) : Option Cell × Option Bool :=
  if destination + low ≤ k ∧ k < destination + high then line.entry (k - destination + start)
  else line.entry k

theorem Loose.moved (hl : line.Loose promise columns) {low high i : Nat} {cell : Cell}
    (he : moved line start destination low high i = (some cell, some occupied)) :
    CellOk promise cell occupied := by
  unfold Line.moved at he
  split at he
  · exact hl.cell he
  · exact hl.cell he

theorem copyCell_moved (hl : line.Loose promise columns) {current : Line} {low high low' high' offset : Nat}
    (hw : Rewrites line current (moved line start destination low high))
    (hs : start + offset < columns) (hd : destination + offset < columns)
    (hsource : ¬ (destination + low ≤ start + offset ∧ start + offset < destination + high))
    (hnew : ∀ k, (destination + low' ≤ k ∧ k < destination + high') ↔
      k = destination + offset ∨ destination + low ≤ k ∧ k < destination + high) :
    ∃ next, current.copyCell (start + offset) (destination + offset) = some next ∧
      Rewrites line next (moved line start destination low' high') := by
  have hcl : current.Loose promise columns := hw.loose hl hl.moved
  obtain ⟨next, hnext, hw'⟩ := copyCell_spec hcl hs hd
  refine ⟨next, hnext, hw'.cells_length.trans hw.cells_length, hw'.marks_length.trans hw.marks_length,
    hw'.occupiedColumns.trans hw.occupiedColumns, fun k => ?_⟩
  rw [hw'.entry, hw.entry, hw.entry]
  by_cases hk : k = destination + offset
  · have hin := (hnew k).mpr (.inl hk)
    rw [if_pos hk]
    unfold moved
    rw [if_neg hsource, if_pos hin, show k - destination + start = start + offset by omega]
  · rw [if_neg hk]
    unfold moved
    by_cases hin : destination + low ≤ k ∧ k < destination + high
    · rw [if_pos hin, if_pos ((hnew k).mpr (.inr hin))]
    · rw [if_neg hin, if_neg fun h => ((hnew k).mp h).elim hk hin]

theorem moveCellsWithinRow_spec (hl : line.Loose promise columns) {stop : Nat}
    (hle : start ≤ stop) (hstop : stop ≤ columns) (hdest : destination + (stop - start) ≤ columns) :
    ∃ line', line.moveCellsWithinRow start stop destination = some line' ∧
      Rewrites line line' (moved line start destination 0 (stop - start)) := by
  have hnone : ∀ i, Rewrites line line (moved line start destination i i) := fun i => by
    refine ⟨rfl, rfl, rfl, fun k => ?_⟩
    unfold moved
    rw [if_neg (by omega)]
  rw [moveCellsWithinRow, sub_eq hle]
  simp only [some_bind]
  by_cases hdir : destination > start
  · rw [if_pos hdir]
    -- copied from the right: what lies left of the current column is untouched
    exact forRangeRev_inv (fun i current =>
        Rewrites line current (moved line start destination i (stop - start))) (Nat.zero_le _)
      (hnone _) fun i current _ hi hw =>
        copyCell_moved hl hw (by omega) (by omega) (by omega) (fun k => by omega)
  · rw [if_neg hdir]
    exact forRange_inv (fun i current =>
        Rewrites line current (moved line start destination 0 i)) (Nat.zero_le _)
      (hnone _) fun i current _ hi hw =>
        copyCell_moved hl hw (by omega) (by omega) (by omega) (fun k => by omega)

/-! ### Repairing -/

/-- What repairing does: a cell that lost its other half becomes the fill cell. -/
structure Repaired (fill : Cell) (line line' : Line) : Prop where
  cells_length : line'.cells.length = line.cells.length
  marks_length : line'.occupiedCells.length = line.occupiedCells.length
  occupiedColumns : line'.occupiedColumns = line.occupiedColumns
  entry : ∀ k, line'.entry k = line.entry k ∨
    ¬ PairedAt line.cells k ∧ line'.entry k = (some fill, some (!isStructuralBlank fill))
  paired : ∀ {k}, PairedAt line.cells k → PairedAt line'.cells k

theorem Repaired.refl (fill : Cell) (line : Line) : Repaired fill line line :=
  ⟨rfl, rfl, rfl, fun _ => .inl rfl, id⟩

theorem Repaired.trans (h : Repaired fill line line') (h' : Repaired fill line' line'') :
    Repaired fill line line'' where
  cells_length := h'.cells_length.trans h.cells_length
  marks_length := h'.marks_length.trans h.marks_length
  occupiedColumns := h'.occupiedColumns.trans h.occupiedColumns
  entry k := by
    rcases h'.entry k with he' | ⟨hn, he'⟩
    · rw [he']; exact h.entry k
    · exact .inr ⟨fun hp => hn (h.paired hp), he'⟩
  paired hp := h'.paired (h.paired hp)

theorem Repaired.loose (h : Repaired fill line line') (hl : line.Loose promise columns)
    (hf : FillOk fill) : line'.Loose promise columns where
  cells_length := h.cells_length.trans hl.cells_length
  marks_length := h.marks_length.trans hl.marks_length
  cell {i cell occupied} hi := by
    rcases h.entry i with he | ⟨-, he⟩
    · exact hl.cell (he.symm.trans hi)
    · obtain ⟨rfl, rfl⟩ : fill = cell ∧ (!isStructuralBlank fill) = occupied := by
        simpa using he.symm.trans hi
      exact CellOk.of_fill hf

/-- Replacing an unpaired cell by a single one pairs its column and breaks no other. -/
theorem Repaired.of_set {column : Nat} (hw : fill.width = .single) (hn : ¬ PairedAt line.cells column)
    (h : Rewrites line line' (fun k =>
      if k = column then (some fill, some (!isStructuralBlank fill)) else line.entry k)) :
    Repaired fill line line' ∧ PairedAt line'.cells column := by
  have hat : widthAt line'.cells column = some .single := by
    have he := h.entry column
    rw [if_pos rfl] at he
    rw [widthAt_of_getElem? (congrArg Prod.fst he), hw]
  have hother : ∀ k, k ≠ column → widthAt line'.cells k = widthAt line.cells k := fun k hk => by
    have he := h.entry k
    rw [if_neg hk] at he
    exact entry_width he
  refine ⟨⟨h.cells_length, h.marks_length, h.occupiedColumns, fun k => ?_, fun {k} hp => ?_⟩, .of_single hat⟩
  · by_cases hk : k = column
    · subst hk
      exact .inr ⟨hn, by rw [h.entry, if_pos rfl]⟩
    · exact .inl (by rw [h.entry, if_neg hk])
  · have hk : k ≠ column := fun hk => hn (hk ▸ hp)
    refine ⟨fun hd => ?_, fun hc => ?_⟩
    · rw [hother k hk] at hd
      have hnext := hp.1 hd
      -- a column that follows a double cell as its continuation is paired
      have hne : k + 1 ≠ column := fun he => hn (he ▸ ⟨by simp [hnext], fun _ => ⟨k, rfl, hd⟩⟩)
      rw [hother _ hne, hnext]
    · rw [hother k hk] at hc
      obtain ⟨j, rfl, hj⟩ := hp.2 hc
      have hne : j ≠ column := fun he => hn (he ▸ ⟨fun _ => hc, by simp [hj]⟩)
      exact ⟨j, rfl, by rw [hother _ hne, hj]⟩

theorem repairCell_spec (hl : line.Loose promise columns) {column : Nat} (hc : column < columns)
    (hw : fill.width = .single) :
    ∃ line', line.repairCell columns column fill = some line' ∧ Repaired fill line line' ∧
      PairedAt line'.cells column := by
  obtain ⟨cell, occupied, hcell, -⟩ := hl.cell_some hc
  have hwidth := widthAt_of_getElem? hcell
  have hset : ¬ PairedAt line.cells column → ∃ line',
      line.setCell column fill (!isStructuralBlank fill) = some line' ∧ Repaired fill line line' ∧
        PairedAt line'.cells column := fun hn => by
    obtain ⟨line', hset, hwr⟩ := setCell_spec hl hc fill (!isStructuralBlank fill)
    obtain ⟨hr, hp⟩ := Repaired.of_set hw hn hwr
    exact ⟨line', hset, hr, hp⟩
  have hkeep : PairedAt line.cells column → ∃ line', some line = some line' ∧
      Repaired fill line line' ∧ PairedAt line'.cells column := fun hp =>
    ⟨line, rfl, .refl fill line, hp⟩
  rw [repairCell, hcell]
  simp only [bind_eq_bind, bind_some]
  cases hcw : cell.width with
  | single =>
    simp only [Bool.false_eq_true, if_false]
    exact hkeep (.of_single (hwidth.trans (by rw [hcw])))
  | double =>
    rw [hcw] at hwidth
    simp only
    by_cases hend : column + 1 = columns
    · rw [if_pos hend]
      simp only [if_true]
      refine hset fun hp => ?_
      have := hp.1 hwidth
      rw [widthAt_eq_none (by rw [hl.cells_length]; omega)] at this
      cases this
    · rw [if_neg hend]
      obtain ⟨next, _, hnc, -⟩ := hl.cell_some (show column + 1 < columns by omega)
      have hnw := widthAt_of_getElem? hnc
      simp only [hnc, bind_some]
      by_cases hcont : next.width = .continuation
      · rw [if_neg (by simp [hcont])]
        exact hkeep ⟨fun _ => by rw [hnw, hcont], by simp [hwidth]⟩
      · rw [if_pos (by simpa using hcont)]
        refine hset fun hp => hcont ?_
        have := hp.1 hwidth
        rw [hnw] at this
        exact some.inj this
  | continuation =>
    rw [hcw] at hwidth
    simp only
    by_cases hzero : column = 0
    · rw [if_pos hzero]
      simp only [if_true]
      refine hset fun hp => ?_
      obtain ⟨j, hj, -⟩ := hp.2 hwidth
      omega
    · rw [if_neg hzero]
      obtain ⟨previous, _, hpc, -⟩ := hl.cell_some (show column - 1 < columns by omega)
      have hpw := widthAt_of_getElem? hpc
      simp only [hpc, bind_some]
      by_cases hdouble : previous.width = .double
      · rw [if_neg (by simp [hdouble])]
        exact hkeep ⟨by simp [hwidth], fun _ => ⟨column - 1, by omega, by rw [hpw, hdouble]⟩⟩
      · rw [if_pos (by simpa using hdouble)]
        refine hset fun hp => hdouble ?_
        obtain ⟨j, hj, hjd⟩ := hp.2 hwidth
        rw [show column - 1 = j by omega, hjd] at hpw
        exact (some.inj hpw).symm

theorem repairRange_spec (hl : line.Loose promise columns) (hle : first ≤ last)
    (hlast : last ≤ columns) (hf : FillOk fill) :
    ∃ line', forRange first last line (fun line column => line.repairCell columns column fill) =
        some line' ∧ Repaired fill line line' ∧
      ∀ k, first ≤ k → k < last → PairedAt line'.cells k := by
  refine forRange_inv (fun i current => Repaired fill line current ∧
    ∀ k, first ≤ k → k < i → PairedAt current.cells k) hle ⟨.refl fill line, by omega⟩ ?_
  rintro i current hi hlt ⟨hr, hp⟩
  obtain ⟨next, hnext, hr', hp'⟩ := repairCell_spec (hr.loose hl hf)
    (show i < columns by omega) hf.single
  refine ⟨next, hnext, hr.trans hr', fun k hk hki => ?_⟩
  by_cases hkeq : k = i
  · rw [hkeq]; exact hp'
  · exact hr'.paired (hp k hk (by omega))

theorem repairNeighborhood_spec (hl : line.Loose promise columns) (hpos : 0 < columns) (boundary : Nat)
    (hf : FillOk fill) :
    ∃ line', line.repairNeighborhood columns boundary fill = some line' ∧ Repaired fill line line' ∧
      ∀ k, boundary ≤ k + 1 → k ≤ boundary + 1 → PairedAt line'.cells k := by
  have hpast : ∀ {line' : Line} {k : Nat}, Repaired fill line line' → columns ≤ k →
      PairedAt line'.cells k := fun hr hk =>
    .of_none (widthAt_eq_none (by rw [hr.cells_length, hl.cells_length]; exact hk))
  unfold repairNeighborhood
  simp only
  by_cases hskip : boundary - 1 > min (boundary + 1) (columns - 1)
  · rw [if_pos hskip]
    exact ⟨line, rfl, .refl fill line, fun k hk _ => hpast (.refl fill line) (by omega)⟩
  · rw [if_neg hskip]
    obtain ⟨line', heq, hr, hp⟩ := repairRange_spec hl
      (show boundary - 1 ≤ min (boundary + 1) (columns - 1) + 1 by omega) (by omega) hf
    refine ⟨line', heq, hr, fun k hk hk' => ?_⟩
    by_cases hkc : k < columns
    · exact hp k (by omega) (by omega)
    · exact hpast hr (by omega)

def Near (boundary k : Nat) : Prop := boundary ≤ k + 1 ∧ k ≤ boundary + 1

theorem repairs_spec (hl : line.Loose promise columns) (hpos : 0 < columns) (boundaries : List Nat)
    (hf : FillOk fill) :
    ∃ line', boundaries.foldlM (fun line boundary => line.repairNeighborhood columns boundary fill)
        line = some line' ∧ Repaired fill line line' ∧
      ∀ k, (∃ boundary ∈ boundaries, Near boundary k) → PairedAt line'.cells k := by
  induction boundaries generalizing line with
  | nil => exact ⟨line, rfl, .refl fill line, by simp⟩
  | cons boundary rest ih =>
    obtain ⟨line1, h1, hr1, hp1⟩ := repairNeighborhood_spec hl hpos boundary hf
    obtain ⟨line2, h2, hr2, hp2⟩ := ih (hr1.loose hl hf)
    refine ⟨line2, by rw [foldlM_cons, h1]; exact h2, hr1.trans hr2, ?_⟩
    rintro k ⟨b, hb, hnear⟩
    rcases mem_cons.mp hb with rfl | hb
    · exact hr2.paired (hp1 k hnear.1 hnear.2)
    · exact hp2 k ⟨b, hb, hnear⟩

theorem repairs_good (hl : line.Loose promise columns) (hpos : 0 < columns) (boundaries : List Nat)
    (hf : FillOk fill)
    (hpaired : promise.pairs = true → ∀ k, (∀ boundary ∈ boundaries, ¬ Near boundary k) →
      PairedAt line.cells k) :
    ∃ line', boundaries.foldlM (fun line boundary => line.repairNeighborhood columns boundary fill)
        line = some line' ∧ line'.recomputeOccupied.Good promise columns := by
  obtain ⟨line', h', hr, hp⟩ := repairs_spec hl hpos boundaries hf
  refine ⟨line', h', (hr.loose hl hf).recomputeOccupied fun hpairs k => ?_⟩
  by_cases hnear : ∃ boundary ∈ boundaries, Near boundary k
  · exact hp k hnear
  · exact hr.paired (hpaired hpairs k fun b hb hn => hnear ⟨b, hb, hn⟩)

/-! ### Edits -/

theorem Rewrites.paired_same (h : Rewrites line line' entry) (hp : PairedAt line.cells k)
    (hsame : ∀ m, k ≤ m + 1 → m ≤ k + 1 → entry m = line.entry m) : PairedAt line'.cells k :=
  hp.congr_same fun m hm hm' => entry_width ((h.entry m).trans (hsame m hm hm'))

variable {source : Line}

theorem Rewrites.paired_shift (h : Rewrites line line' entry) (hp : PairedAt source.cells (j + 1))
    (hshift : ∀ d, d ≤ 2 → entry (k + d) = source.entry (j + d)) : PairedAt line'.cells (k + 1) := by
  have hw : ∀ d, d ≤ 2 → widthAt line'.cells (k + d) = widthAt source.cells (j + d) := fun d hd =>
    entry_width ((h.entry _).trans (hshift d hd))
  refine hp.congr (hw 1 (by omega)) (hw 2 (by omega)) fun j' hj' => ⟨k, rfl, ?_⟩
  rw [show j' = j by omega]
  exact hw 0 (by omega)

theorem Rewrites.paired_fill {mark : Option Bool}
    (h : Rewrites line line' entry) (hf : FillOk fill) (hk : entry k = (some fill, mark)) :
    PairedAt line'.cells k :=
  .of_single (by rw [widthAt_of_getElem? (congrArg Prod.fst ((h.entry k).trans hk)), hf.single])

/-- The common part of inserting and deleting: cells move within a window of the row, the columns they
leave are filled, and the three boundaries are repaired. -/
theorem shift_good (hg : line.Good promise columns) (hpos : 0 < columns) (hf : FillOk cell)
    {low high stop : Nat} (hhigh : high ≤ columns)
    (hstart : low ≤ start) (hle : start ≤ stop) (hstop : stop ≤ high) (hfl : first ≤ last)
    (hcover : low = destination ∧ destination + (stop - start) = first ∧ last = high ∨
      low = first ∧ last = destination ∧ destination + (stop - start) = high) (boundaries : List Nat)
    (hb : ∀ b, b = low ∨ b = high ∨ b = first ∨ b = last → b ∈ boundaries) :
    ∃ line1 line2 line3, line.moveCellsWithinRow start stop destination = some line1 ∧
      line1.fill first last cell = some line2 ∧
      boundaries.foldlM (fun line boundary => line.repairNeighborhood columns boundary cell) line2 =
        some line3 ∧ line3.recomputeOccupied.Good promise columns := by
  have hl := hg.toLoose
  obtain ⟨line1, h1, hw1⟩ := moveCellsWithinRow_spec hl hle (by omega)
    (show destination + (stop - start) ≤ columns by omega)
  have hl1 : line1.Loose promise columns := hw1.loose hl hl.moved
  obtain ⟨line2, h2, hw2⟩ := fill_spec hl1 hfl (show last ≤ columns by omega) cell
  have hl2 : line2.Loose promise columns := hw2.loose hl1 (hl1.filled hf)
  obtain ⟨line3, h3, hg3⟩ := repairs_good hl2 hpos boundaries hf fun hpairs k hfar => by
    have hlow := hfar low (hb low (.inl rfl))
    have hhigh := hfar high (hb high (.inr (.inl rfl)))
    have hfirst := hfar first (hb first (.inr (.inr (.inl rfl))))
    have hlast := hfar last (hb last (.inr (.inr (.inr rfl))))
    unfold Near at hlow hhigh hfirst hlast
    -- away from the boundaries a column is filled, shifted or unchanged
    by_cases hfilled : first ≤ k ∧ k < last
    · exact hw2.paired_fill hf (if_pos hfilled)
    by_cases hshift : destination ≤ k ∧ k < destination + (stop - start)
    · obtain ⟨k', rfl⟩ : ∃ k', k = k' + 1 := ⟨k - 1, by omega⟩
      refine hw2.paired_shift (j := k' - destination + start)
        (hg.paired hpairs _) fun d hd => ?_
      rw [filled, if_neg (by omega), hw1.entry, moved, if_pos (by omega)]
      congr 1
      omega
    · refine hw2.paired_same (hw1.paired_same (hg.paired hpairs k) fun m hm hm' => ?_)
        fun m hm hm' => ?_
      · rw [moved, if_neg (by omega)]
      · rw [filled, if_neg (by omega)]
  exact ⟨line1, line2, line3, h1, h2, h3, hg3⟩

theorem insertCharacters_good (hg : line.Good promise columns) (hpos : 0 < columns) (column count : Nat)
    (hf : FillOk cell) (span : ColumnSpan) :
    ∃ line', line.insertCharacters columns column count cell span = some line' ∧
      line'.Good promise columns := by
  unfold insertCharacters
  simp only [Option.pure_def, bind_eq_bind]
  by_cases hout : column > min span.right (columns - 1)
  · rw [if_pos hout]
    exact ⟨line, rfl, hg⟩
  rw [if_neg hout, sub_eq (show column ≤ min span.right (columns - 1) + 1 by omega)]
  simp only [bind_some]
  generalize hright : min span.right (columns - 1) = right at hout ⊢
  generalize hcount : min count (right + 1 - column) = n
  rw [sub_eq (show n ≤ right + 1 by omega)]
  have hcover : column = column + n ∧ column + n + (right + 1 - n - column) = column ∧
        column + n = right + 1 ∨
      column = column ∧ column + n = column + n ∧ column + n + (right + 1 - n - column) = right + 1 := by
    omega
  obtain ⟨line1, line2, line3, h1, h2, h3, hg3⟩ := shift_good hg hpos hf
    (show right + 1 ≤ columns by omega) (le_refl column) (show column ≤ right + 1 - n by omega)
    (by omega) (show column ≤ column + n by omega) hcover [column, column + n, right + 1] (by simp)
  simp only [foldlM_cons, foldlM_nil, Option.pure_def, bind_eq_bind,
    bind_fun_some] at h3
  simp only [bind_some, h1, h2]
  simp only [← bind_assoc] at h3 ⊢
  rw [h3]
  exact ⟨_, rfl, hg3⟩

theorem deleteCharacters_good (hg : line.Good promise columns) (hpos : 0 < columns) (column count : Nat)
    (hf : FillOk cell) (span : ColumnSpan) :
    ∃ line', line.deleteCharacters columns column count cell span = some line' ∧
      line'.Good promise columns := by
  unfold deleteCharacters
  simp only [Option.pure_def, bind_eq_bind]
  by_cases hout : column > min span.right (columns - 1)
  · rw [if_pos hout]
    exact ⟨line, rfl, hg⟩
  rw [if_neg hout, sub_eq (show column ≤ min span.right (columns - 1) + 1 by omega)]
  simp only [bind_some]
  generalize hright : min span.right (columns - 1) = right at hout ⊢
  generalize hcount : min count (right + 1 - column) = n
  have hcover : column = column ∧ column + (right + 1 - (column + n)) = right + 1 - n ∧
        right + 1 = right + 1 ∨
      column = right + 1 - n ∧ right + 1 = column ∧ column + (right + 1 - (column + n)) = right + 1 := by
    omega
  obtain ⟨line1, line2, line3, h1, h2, h3, hg3⟩ := shift_good hg hpos hf
    (show right + 1 ≤ columns by omega) (show column ≤ column + n by omega)
    (show column + n ≤ right + 1 by omega) le_rfl (show right + 1 - n ≤ right + 1 by omega)
    hcover [column, right + 1 - n, right + 1] (by simp)
  simp only [foldlM_cons, foldlM_nil, Option.pure_def, bind_eq_bind,
    bind_fun_some] at h3
  simp only [bind_some, sub_eq (show n ≤ right + 1 by omega), h1, h2]
  simp only [← bind_assoc] at h3 ⊢
  rw [h3]
  exact ⟨_, rfl, hg3⟩

/-- A run of entries from other rows written over part of the row. -/
def spliced (line : Line) (left : Nat) (cells : List Cell) (occupied : List Bool) (k : Nat) :
    Option Cell × Option Bool :=
  if left ≤ k ∧ k < left + cells.length then (cells[k - left]?, occupied[k - left]?) else line.entry k

theorem splice_spec (hl : line.Loose promise columns) {left : Nat} {cells : List Cell}
    {occupied : List Bool} (hlen : occupied.length = cells.length) (hfit : left + cells.length ≤ columns) :
    ∃ cells' occupied', writeAt line.cells left cells = some cells' ∧
      writeAt line.occupiedCells left occupied = some occupied' ∧
      Rewrites line { line with cells := cells', occupiedCells := occupied' }
        (spliced line left cells occupied) := by
  have h1 : left + cells.length ≤ line.cells.length := by rw [hl.cells_length]; exact hfit
  have h2 : left + occupied.length ≤ line.occupiedCells.length := by
    rw [hl.marks_length, hlen]; exact hfit
  refine ⟨_, _, writeAt_eq h1, writeAt_eq h2, length_splice h1, length_splice h2, rfl, fun k => ?_⟩
  simp only [entry, spliced, getElem?_splice h1, getElem?_splice h2, hlen]
  split <;> rfl

variable {span : ColumnSpan} {o : Bool} {c : Cell}

section

variable [Platform]

theorem repairSpanEdges_good (hl : line.Loose promise columns) (hpos : 0 < columns) (span : ColumnSpan)
    (hpaired : promise.pairs = true → ∀ k, ¬ Near span.left k → ¬ Near (span.right + 1) k →
      PairedAt line.cells k) :
    ∃ line', line.repairSpanEdges columns span = some line' ∧
      line'.recomputeOccupied.Good promise columns := by
  obtain ⟨line', h', hg⟩ := repairs_good hl hpos [span.left, span.right + 1] blankCell_fillOk
    fun hpairs k hfar => hpaired hpairs k (hfar _ (by simp)) (hfar _ (by simp))
  refine ⟨line', ?_, hg⟩
  simpa [repairSpanEdges] using h'

theorem fillRowSpan_good (hg : line.Good promise columns) (hpos : 0 < columns) (hf : FillOk cell)
    (hspan : span.left ≤ span.right) (hfit : span.right < columns) :
    ∃ line', line.fillRowSpan columns cell span = some line' ∧ line'.Good promise columns := by
  have hl := hg.toLoose
  have hwidth : span.width = some (span.right + 1 - span.left) := sub_eq (by omega)
  obtain ⟨line1, h1, hw1⟩ := fill_spec hl
    (show span.left ≤ span.left + (span.right + 1 - span.left) by omega) (by omega) cell
  obtain ⟨line2, h2, hg2⟩ := repairSpanEdges_good (hw1.loose hl (hl.filled hf)) hpos span
    fun hpairs k hleft hright => by
      unfold Near at hleft hright
      by_cases hk : span.left ≤ k ∧ k < span.left + (span.right + 1 - span.left)
      · exact hw1.paired_fill hf (if_pos hk)
      · exact hw1.paired_same (hg.paired hpairs k) fun m hm hm' => by
          rw [filled, if_neg (by omega)]
  exact ⟨_, by rw [fillRowSpan, hwidth]; simp only [some_bind, h1, h2]; rfl, hg2⟩

/-- A span of a row, written over columns of another one. -/
theorem writeSpan_good (hg : line.Good promise columns)
    (hs : source.Good promise columns) (hpos : 0 < columns) {from' left : Nat} (hn : 0 < n)
    (hsource : from' + n ≤ columns) (hfit : left + n ≤ columns) :
    ∃ line', Screen.writeSpan line columns left ((source.cells.drop from').take n)
        ((source.occupiedCells.drop from').take n) ⟨left, left + n - 1⟩ = some line' ∧
      line'.Good promise columns := by
  have hl := hg.toLoose
  have hc := hs.cells_length
  have hm := hs.marks_length
  have hclen : ((source.cells.drop from').take n).length = n := by
    rw [length_take, length_drop]; omega
  have hmlen : ((source.occupiedCells.drop from').take n).length = n := by
    rw [length_take, length_drop]; omega
  obtain ⟨cells', occupied', h3, h4, hw⟩ := splice_spec hl
    (hmlen.trans hclen.symm) (show left + _ ≤ columns by omega)
  have hin : ∀ k, left ≤ k → k < left + n →
      spliced line left ((source.cells.drop from').take n)
        ((source.occupiedCells.drop from').take n) k = source.entry (k - left + from') :=
    fun k hk hk' => by
      rw [spliced, if_pos (by omega), getElem?_take_of_lt (by omega), getElem?_drop,
        getElem?_take_of_lt (by omega), getElem?_drop, Nat.add_comm]
      rfl
  have hout : ∀ k, ¬ (left ≤ k ∧ k < left + n) →
      spliced line left ((source.cells.drop from').take n)
        ((source.occupiedCells.drop from').take n) k = line.entry k := fun k hk => by
    rw [spliced, if_neg (by omega)]
  have hl1 := hw.loose hl fun {i c o} he => by
    by_cases hi : left ≤ i ∧ i < left + n
    · exact hs.cell ((hin i hi.1 hi.2).symm.trans he)
    · exact hl.cell ((hout i hi).symm.trans he)
  obtain ⟨line2, h5, hg2⟩ := repairSpanEdges_good hl1 hpos ⟨left, left + n - 1⟩
    fun hpairs k hleft hright => by
      simp only [Near] at hleft hright
      by_cases hk : left ≤ k ∧ k < left + n
      · obtain ⟨k', rfl⟩ : ∃ k', k = k' + 1 := ⟨k - 1, by omega⟩
        refine hw.paired_shift (j := k' - left + from') (hs.paired hpairs _)
          fun d hd => ?_
        rw [hin _ (by omega) (by omega)]
        congr 1
        omega
      · exact hw.paired_same (hg.paired hpairs k) fun m hm hm' => hout m (by omega)
  exact ⟨_, by rw [Screen.writeSpan, h3, h4]; simp only [some_bind, h5]; rfl, hg2⟩

theorem copyRowSpan_good (hg : line.Good promise columns)
    (hs : source.Good promise columns) (hpos : 0 < columns)
    (hspan : span.left ≤ span.right) (hfit : span.right < columns) :
    ∃ line', line.copyRowSpan source columns span = some line' ∧ line'.Good promise columns := by
  have hwidth : span.width = some (span.right + 1 - span.left) := sub_eq (by omega)
  have hc := hs.cells_length
  have hm := hs.marks_length
  obtain ⟨line', h', hg'⟩ := writeSpan_good hg hs hpos
    (show 0 < span.right + 1 - span.left by omega)
    (show span.left + (span.right + 1 - span.left) ≤ columns by omega)
    (show span.left + (span.right + 1 - span.left) ≤ columns by omega)
  refine ⟨line', ?_, hg'⟩
  rw [show (⟨span.left, span.left + (span.right + 1 - span.left) - 1⟩ : ColumnSpan) = span by
    rw [show span.left + (span.right + 1 - span.left) - 1 = span.right by omega]] at h'
  simp only [copyRowSpan, hwidth, some_bind,
    slice_eq (show span.left ≤ span.left + (span.right + 1 - span.left) by omega)
      (show span.left + (span.right + 1 - span.left) ≤ source.cells.length by omega),
    slice_eq (show span.left ≤ span.left + (span.right + 1 - span.left) by omega)
      (show span.left + (span.right + 1 - span.left) ≤ source.occupiedCells.length by omega),
    show span.left + (span.right + 1 - span.left) - span.left = span.right + 1 - span.left by omega]
  exact h'

omit [Platform] in
theorem uniform_good (hf : FillOk cell) (columns : Nat) (softWrapped : Bool) : Good promise columns {
      cells := List.replicate columns cell
      occupiedCells := List.replicate columns (!isStructuralBlank cell)
      softWrapped := softWrapped
      occupiedColumns := if isStructuralBlank cell then 0 else columns } where
  cells_length := length_replicate
  marks_length := length_replicate
  cell {i c o} he := by
    simp only [entry, getElem?_replicate, Prod.mk.injEq] at he
    split at he
    · obtain ⟨rfl, rfl⟩ : cell = c ∧ (!isStructuralBlank cell) = o := by simpa using he
      exact .of_fill hf
    · cases he.1
  extent := by
    rw [occupiedExtent_replicate]
    cases isStructuralBlank cell <;> rfl
  paired _ k := by
    by_cases hk : k < columns
    · refine .of_single ?_
      rw [widthAt, getElem?_replicate, if_pos hk, map_some, hf.single]
    · exact .of_none (widthAt_eq_none (by rw [length_replicate]; omega))

omit [Platform] in
theorem fillRow_good (hg : line.Good promise columns) (hf : FillOk cell) :
    ∃ line', line.fillRow columns cell = some line' ∧ line'.Good promise columns := by
  have h1 : fillRange line.cells 0 columns cell = some (List.replicate columns cell) := by
    rw [fillRange_eq (Nat.zero_le _) (by rw [hg.cells_length]), splice]
    simp [hg.cells_length]
  have h2 : fillRange line.occupiedCells 0 columns (!isStructuralBlank cell) =
      some (List.replicate columns (!isStructuralBlank cell)) := by
    rw [fillRange_eq (Nat.zero_le _) (by rw [hg.marks_length]), splice]
    simp [hg.marks_length]
  exact ⟨_, by rw [fillRow, fill, h1, h2]; rfl, uniform_good hf columns false⟩

theorem blank_good (columns : Nat) : (Line.blank columns).Good promise columns :=
  uniform_good blankCell_fillOk columns false

/-- The entries of a row with a cluster written over it. -/
def clustered (line : Line) (column : Nat) (cell : Cell) (k : Nat) : Option Cell × Option Bool :=
  if k = column then (some cell, some true)
  else if k = column + 1 ∧ cell.width = .double then (some (continuationOf cell), some true)
  else line.entry k

theorem continuationOf_textOk (cell : Cell) : (continuationOf cell).TextOk :=
  textOk_of_short (by decide) (show utf8Len [] ≤ maxGraphemeBytes by decide) rfl
    (show '\n' ∉ [] by decide)

variable {column : Nat}

/-- The writes of `replace_cluster`, before anything is repaired. -/
theorem setCluster_spec (hl : line.Loose promise columns)
    (hfit : column + cell.width.columns ≤ columns) (hw : cell.width ≠ .continuation) (htext : cell.TextOk) :
    ∃ line1 line2, line.setCell column cell true = some line1 ∧
      (if cell.width.columns = 2 then line1.setCell (column + 1) (continuationOf cell) true
        else some line1) = some line2 ∧ Rewrites line line2 (clustered line column cell) := by
  cases hcw : cell.width with
  | continuation => exact absurd hcw hw
  | single =>
    rw [hcw, CellWidth.columns] at hfit
    obtain ⟨line1, h1, hw1⟩ := setCell_spec hl (show column < columns by omega) cell true
    refine ⟨line1, line1, h1, by simp [CellWidth.columns], ?_⟩
    refine ⟨hw1.cells_length, hw1.marks_length, hw1.occupiedColumns, fun k => ?_⟩
    rw [hw1.entry, clustered, hcw]
    simp
  | double =>
    rw [hcw, CellWidth.columns] at hfit
    obtain ⟨line1, h1, hw1⟩ := setCell_spec hl (show column < columns by omega) cell true
    have hl1 : line1.Loose promise columns := hw1.loose hl fun {i c o} he => by
      split at he
      · obtain ⟨rfl, rfl⟩ : cell = c ∧ true = o := by simpa using he
        exact .of_occupied htext
      · exact hl.cell he
    obtain ⟨line2, h2, hw2⟩ := setCell_spec hl1 (show column + 1 < columns by omega)
      (continuationOf cell) true
    refine ⟨line1, line2, h1, by simpa [CellWidth.columns] using h2, ?_⟩
    refine ⟨hw2.cells_length.trans hw1.cells_length, hw2.marks_length.trans hw1.marks_length,
      hw2.occupiedColumns.trans hw1.occupiedColumns, fun k => ?_⟩
    rw [hw2.entry, clustered]
    by_cases hk : k = column + 1
    · rw [if_pos hk, if_neg (by omega), if_pos ⟨hk, hcw⟩]
    · rw [if_neg hk, hw1.entry]
      simp [hk]

theorem Loose.clustered (hl : line.Loose promise columns) (htext : cell.TextOk) {i : Nat}
    (he : clustered line column cell i = (some c, some o)) : CellOk promise c o := by
  unfold Line.clustered at he
  split at he
  · obtain ⟨rfl, rfl⟩ : cell = c ∧ true = o := by simpa using he
    exact .of_occupied htext
  · split at he
    · obtain ⟨rfl, rfl⟩ : continuationOf cell = c ∧ true = o := by simpa using he
      exact .of_occupied (continuationOf_textOk cell)
    · exact hl.cell he

theorem clustered_last (hw : Rewrites line line' (clustered line column cell))
    (hcw : cell.width ≠ .continuation) : line'.occupiedCells[column + cell.width.columns - 1]? = some true ∧
      PairedAt line'.cells (column + cell.width.columns - 1) := by
  have hlead : line'.entry column = (some cell, some true) := by
    rw [hw.entry, Line.clustered, if_pos rfl]
  have hleadWidth := widthAt_of_getElem? (congrArg Prod.fst hlead)
  cases hc : cell.width with
  | continuation => exact absurd hc hcw
  | single =>
    simp only [CellWidth.columns, Nat.add_sub_cancel]
    exact ⟨congrArg Prod.snd hlead, .of_single (by rw [hleadWidth, hc])⟩
  | double =>
    have htrail : line'.entry (column + 1) = (some (continuationOf cell), some true) := by
      rw [hw.entry, Line.clustered, if_neg (by omega), if_pos ⟨rfl, hc⟩]
    have htrailWidth : widthAt line'.cells (column + 1) = some .continuation :=
      widthAt_of_getElem? (congrArg Prod.fst htrail)
    simp only [CellWidth.columns, show column + 2 - 1 = column + 1 by omega]
    exact ⟨congrArg Prod.snd htrail, by simp [htrailWidth], fun _ => ⟨column, rfl, by rw [hleadWidth, hc]⟩⟩

theorem isStructuralBlank_blankCell : isStructuralBlank blankCell = true := by
  simp [isStructuralBlank, blankCell]

theorem replaceCluster_good (hg : line.Good promise columns)
    (hfit : column + cell.width.columns ≤ columns) (hcw : cell.width ≠ .continuation) (htext : cell.TextOk) :
    ∃ line', line.replaceCluster columns column cell = some line' ∧ line'.Good promise columns := by
  have hl := hg.toLoose
  have hwidth : 0 < cell.width.columns ∧ cell.width.columns ≤ 2 := by
    cases hc : cell.width with
    | continuation => exact absurd hc hcw
    | single | double => decide
  obtain ⟨line1, line2, h1, h2, hw⟩ := setCluster_spec hl hfit hcw htext
  have hl2 : line2.Loose promise columns := hw.loose hl (hl.clustered htext)
  obtain ⟨line3, h3, hr, hp⟩ := repairs_spec hl2 (by omega) [column, column + cell.width.columns]
    blankCell_fillOk
  have hl3 := hr.loose hl2 blankCell_fillOk
  have hpaired : promise.pairs = true → Paired line3.cells := fun hpairs k => by
    by_cases hnear : ∃ b ∈ [column, column + cell.width.columns], Near b k
    · exact hp k hnear
    · have hn1 : ¬ Near column k := fun hn => hnear ⟨_, by simp, hn⟩
      have hn2 : ¬ Near (column + cell.width.columns) k := fun hn => hnear ⟨_, by simp, hn⟩
      unfold Near at hn1 hn2
      refine hr.paired (hw.paired_same (hg.paired hpairs k) fun m hm hm' => ?_)
      rw [Line.clustered, if_neg (by omega), if_neg (by omega)]
  have heq : line.replaceCluster columns column cell =
      some (line3.extendOccupiedOrRecompute column cell.width.columns) := by
    simp only [foldlM_cons, foldlM_nil, Option.pure_def, bind_eq_bind,
      bind_fun_some] at h3
    simp only [replaceCluster, bind_eq_bind, Option.pure_def, h1, bind_some]
    by_cases htwo : cell.width.columns = 2
    · rw [if_pos htwo] at h2 ⊢
      rw [h2, bind_some, ← bind_assoc, h3]
      rfl
    · rw [if_neg htwo] at h2 ⊢
      rw [some.inj h2, ← bind_assoc, h3]
      rfl
  refine ⟨_, heq, ?_⟩
  unfold extendOccupiedOrRecompute
  split
  case isFalse => exact hl3.recomputeOccupied hpaired
  case isTrue hbeyond =>
    -- nothing is occupied past the old extent, and the cluster itself is not repaired
    refine ⟨⟨hl3.cells_length, hl3.marks_length, hl3.cell⟩, ?_, hpaired⟩
    obtain ⟨hset, hlastPaired⟩ := clustered_last hw hcw
    have hmark : ∀ k, line3.occupiedCells[k]? = line2.occupiedCells[k]? ∨
        ¬ PairedAt line2.cells k ∧ line3.occupiedCells[k]? = some false := fun k => by
      rcases hr.entry k with he | ⟨hn, he⟩
      · exact .inl (entry_marks he)
      · refine .inr ⟨hn, ?_⟩
        rw [isStructuralBlank_blankCell] at he
        exact congrArg Prod.snd he
    show column + cell.width.columns = occupiedExtent line3.occupiedCells
    rw [occupiedExtent_eq_succ (n := column + cell.width.columns - 1)]
    · omega
    · rcases hmark (column + cell.width.columns - 1) with he | ⟨hn, -⟩
      · rw [he, hset]
      · exact absurd hlastPaired hn
    · intro k hk hset'
      rcases hmark k with he | ⟨-, he⟩
      · rw [he] at hset'
        have hsame : line2.entry k = line.entry k := by
          rw [hw.entry, Line.clustered, if_neg (by omega), if_neg]
          rintro ⟨rfl, hd⟩
          rw [hd, CellWidth.columns] at hk
          omega
        rw [entry_marks hsame] at hset'
        have := lt_occupiedExtent hset'
        rw [hr.occupiedColumns, hw.occupiedColumns, hg.extent] at hbeyond
        omega
      · rw [he] at hset'
        cases hset'

omit [Platform] in
theorem replaceCell_good (hg : line.Good promise columns)
    (hwidth : widthAt line.cells column = some cell.width) (htext : cell.TextOk) :
    ∃ line', line.setCell column cell true = some line' ∧
      line'.recomputeOccupied.Good promise columns := by
  have hl := hg.toLoose
  have hc : column < columns := by
    by_contra hout
    rw [widthAt_eq_none (by rw [hl.cells_length]; omega)] at hwidth
    cases hwidth
  obtain ⟨line1, h1, hw⟩ := setCell_spec hl hc cell true
  have hsame : ∀ k, widthAt line1.cells k = widthAt line.cells k := fun k => by
    by_cases hk : k = column
    · subst hk
      have he := hw.entry k
      rw [if_pos rfl] at he
      rw [widthAt_of_getElem? (congrArg Prod.fst he), hwidth]
    · have he := hw.entry k
      rw [if_neg hk] at he
      exact entry_width he
  refine ⟨line1, h1, (hw.loose hl fun {i c o} he => ?_).recomputeOccupied fun hpairs k =>
    (hg.paired hpairs k).congr_same fun m _ _ => hsame m⟩
  split at he
  · obtain ⟨rfl, rfl⟩ : cell = c ∧ true = o := by simpa using he
    exact .of_occupied htext
  · exact hl.cell he

theorem repairRow_good (hl : line.Loose promise columns) :
    ∃ line', line.repairRow columns = some line' ∧ line'.Good promise columns := by
  obtain ⟨line1, h1, hr, hp⟩ := repairRange_spec hl (Nat.zero_le columns) le_rfl
    blankCell_fillOk
  have hl1 := hr.loose hl blankCell_fillOk
  refine ⟨line1.recomputeOccupied, by rw [repairRow, h1]; rfl, hl1.recomputeOccupied fun _ k => ?_⟩
  by_cases hk : k < columns
  · exact hp k (Nat.zero_le _) hk
  · exact .of_none (widthAt_eq_none (by rw [hl1.cells_length]; omega))

end

/-! ### Selective erasure -/

instance (boundary k : Nat) : Decidable (Near boundary k) := inferInstanceAs (Decidable (_ ∧ _))

/-- The pair at `k` would lose one half to a selective erase while the other half is protected and
lies away from every boundary that is repaired. -/
def keepsHalf (line : Line) (boundaries : List Nat) (k : Nat) : Bool :=
  match line.cells[k]?, line.cells[k + 1]? with
  | some lead, some trail =>
    lead.width == .double && trail.width == .continuation &&
      (lead.isProtected && !trail.isProtected && boundaries.all (fun b => decide ¬ Near b k) ||
        !lead.isProtected && trail.isProtected && boundaries.all (fun b => decide ¬ Near b (k + 1)))
  | _, _ => false

/-- A selective erase of the columns from `first` up to `last` would cut a pair in two. -/
def splitsPair (line : Line) (first last : Nat) (boundaries : List Nat) : Bool :=
  (List.range' first (last - 1 - first)).any (line.keepsHalf boundaries)

def sparedCells (line : Line) (first last : Nat) : List Cell :=
  ((line.cells.drop first).take (last - first)).filter Cell.isProtected

/-- A selective erase keeps the promise on this row: it splits no pair and, where it resets the
markers of the cells it spares, none of those has to stay marked. -/
def sparingKeeps (promise : Promise) (line : Line) (first last : Nat) (boundaries : List Nat)
    (cell : Cell) (keepMarks : Bool) : Bool :=
  (!promise.pairs || !line.splitsPair first last boundaries) &&
    (keepMarks || !isStructuralBlank cell ||
      (line.sparedCells first last).all fun spared =>
        !(promise.pairs && spared.isContinuation || promise.marks && !isStructuralBlank spared))

/-- The entries of a row after an erase that may spare protected cells and keep their markers. -/
def erased (line : Line) (first last : Nat) (cell : Cell) (spare keepMarks : Bool) (k : Nat) :
    Option Cell × Option Bool :=
  if first ≤ k ∧ k < last then
    ((line.cells[k]?).map fun old => if spare && old.isProtected then old else cell,
      match line.cells[k]?, line.occupiedCells[k]? with
      | some old, some mark =>
        some (if (spare && old.isProtected) && keepMarks then mark else !isStructuralBlank cell)
      | _, _ => none)
  else line.entry k

theorem keepsHalf_of_splitsPair (hfirst : first ≤ k)
    (hlast : k + 1 < last) (h : line.splitsPair first last boundaries = false) :
    line.keepsHalf boundaries k = false := by
  rw [splitsPair, List.any_eq_false] at h
  exact Bool.eq_false_iff.mpr (h k (by rw [mem_range'_1]; omega))

theorem partner_protected {lead trail : Cell}
    (hlead : line.cells[k]? = some lead) (htrail : line.cells[k + 1]? = some trail)
    (hlw : lead.width = .double) (htw : trail.width = .continuation) (h : line.keepsHalf boundaries k = false) :
    ((∀ b ∈ boundaries, ¬ Near b k) → lead.isProtected = true → trail.isProtected = true) ∧
      ((∀ b ∈ boundaries, ¬ Near b (k + 1)) → trail.isProtected = true → lead.isProtected = true) := by
  simp only [keepsHalf, hlead, htrail, hlw, htw, beq_self_eq_true, Bool.true_and, Bool.or_eq_false_iff] at h
  refine ⟨fun hfar hp => ?_, fun hfar hp => ?_⟩
  · have hall : boundaries.all (fun b => decide ¬ Near b k) = true :=
      List.all_eq_true.mpr fun b hb => decide_eq_true (hfar b hb)
    have := h.1
    rw [hp, hall] at this
    simpa using this
  · have hall : boundaries.all (fun b => decide ¬ Near b (k + 1)) = true :=
      List.all_eq_true.mpr fun b hb => decide_eq_true (hfar b hb)
    have := h.2
    rw [hp, hall] at this
    simpa using this

theorem mem_sparedCells {old : Cell} (hk : first ≤ k ∧ k < last)
    (hc : line.cells[k]? = some old) (hp : old.isProtected = true) : old ∈ line.sparedCells first last := by
  rw [sparedCells, mem_filter]
  refine ⟨mem_iff_getElem?.mpr ⟨k - first, ?_⟩, hp⟩
  rw [getElem?_take_of_lt (by omega), getElem?_drop, show first + (k - first) = k by omega, hc]

variable {spare : Bool}

theorem Loose.erased (hl : line.Loose promise columns) (hf : FillOk fill) {i : Nat} {keepMarks : Bool}
    (hkeep : spare = true → line.sparingKeeps promise first last boundaries fill keepMarks = true)
    (he : erased line first last fill spare keepMarks i = (some c, some o)) : CellOk promise c o := by
  unfold Line.erased at he
  split at he
  case isFalse => exact hl.cell he
  case isTrue hi =>
    cases hold : line.cells[i]? with
    | none => simp [hold] at he
    | some old =>
      cases hmark : line.occupiedCells[i]? with
      | none => simp [hold, hmark] at he
      | some mark =>
        simp only [hold, hmark, map_some, Prod.mk.injEq, some.injEq] at he
        obtain ⟨rfl, rfl⟩ := he
        have hok : CellOk promise old mark := hl.cell (by rw [entry, hold, hmark])
        by_cases hsp : (spare && old.isProtected) = true
        · obtain ⟨hs, hprot⟩ : spare = true ∧ old.isProtected = true := by simpa using hsp
          rw [if_pos hsp]
          cases keepMarks with
          | true => rw [if_pos (by simp [hsp])]; exact hok
          | false =>
            rw [if_neg (by simp)]
            have hk := hkeep hs
            simp only [sparingKeeps, Bool.and_eq_true, Bool.false_or, Bool.or_eq_true,
              Bool.not_eq_true', List.all_eq_true] at hk
            rcases hk.2 with hblank | hnone
            · rw [hblank]
              exact .of_occupied hok.text
            · have hthis := hnone old (mem_sparedCells hi hold hprot)
              simp only [Bool.or_eq_false_iff, Bool.and_eq_false_iff, Bool.not_eq_false'] at hthis
              refine ⟨hok.text, fun hp hc => ?_, fun hm hb => ?_⟩
              · rcases hthis.1 with h | h
                · rw [hp] at h; cases h
                · simp [Cell.isContinuation, hc] at h
              · rcases hthis.2 with h | h
                · rw [hm] at h; cases h
                · rw [hb] at h; cases h
        · rw [if_neg hsp, if_neg (by simp [Bool.eq_false_iff.mpr hsp])]
          exact .of_fill hf

/-- A pair inside the erased range is kept whole, erased whole or repaired. -/
theorem erased_paired (hg : line.Good promise columns) (hpairs : promise.pairs = true) (hf : FillOk fill)
    {keepMarks : Bool} (hw : Rewrites line line' (erased line first last fill spare keepMarks))
    (hfirst : first ∈ boundaries ∨ first = 0) (hlast : last ∈ boundaries ∨ last = columns)
    (hkeep : spare = true → line.sparingKeeps promise first last boundaries fill keepMarks = true)
    (hfar : ∀ b ∈ boundaries, ¬ Near b k) : PairedAt line'.cells k := by
  have hpaired := hg.paired hpairs
  have hsplit : spare = true → line.splitsPair first last boundaries = false := fun hs => by
    have hk := hkeep hs
    simp only [sparingKeeps, Bool.and_eq_true, hpairs, Bool.not_true, Bool.false_or, Bool.not_eq_true'] at hk
    exact hk.1
  have hcell : ∀ m, line'.cells[m]? = if first ≤ m ∧ m < last
      then (line.cells[m]?).map fun old => if spare && old.isProtected then old else fill
      else line.cells[m]? := fun m => by
    have he := congrArg Prod.fst (hw.entry m)
    rw [erased] at he
    split at he
    · rw [if_pos (by assumption)]; exact he
    · rw [if_neg (by assumption)]; exact he
  have hlow : first ≤ k ∨ k + 1 < first := by
    rcases hfirst with hm | rfl
    · have := hfar _ hm
      unfold Near at this
      omega
    · omega
  have hhigh : k < last ∨ last < k ∨ columns ≤ k := by
    rcases hlast with hm | rfl
    · have := hfar _ hm
      unfold Near at this
      omega
    · omega
  have hold : ∀ {m : Nat} {cell : Cell}, line.cells[m]? = some cell → first ≤ m → m < last →
      (spare && cell.isProtected) = true → widthAt line'.cells m = some cell.width :=
    fun {m cell} hc hm hm' hs => by
      rw [widthAt, hcell, if_pos ⟨hm, hm'⟩, hc]
      simp only [map_some, if_pos hs]
  by_cases hin : first ≤ k ∧ k < last
  · cases hk : line.cells[k]? with
    | none =>
      refine .of_none ?_
      rw [widthAt, hcell, if_pos hin, hk]
      rfl
    | some old =>
      by_cases hs : (spare && old.isProtected) = true
      · obtain ⟨hspare, hprot⟩ : spare = true ∧ old.isProtected = true := by simpa using hs
        have hkw := hold hk hin.1 hin.2 hs
        cases hw' : old.width with
        | single => exact .of_single (by rw [hkw, hw'])
        | double =>
          have hnext := (hpaired k).1 (by rw [widthAt_of_getElem? hk, hw'])
          obtain ⟨trail, htrail, htw⟩ := map_eq_some_iff.mp hnext
          have hlt : k + 1 < last := by
            rcases hlast with hm | rfl
            · have := hfar _ hm
              unfold Near at this
              omega
            · have := (List.getElem?_eq_some_iff.mp htrail).1
              rw [hg.cells_length] at this
              exact this
          have htp := (partner_protected hk htrail hw' htw
            (keepsHalf_of_splitsPair hin.1 hlt (hsplit hspare))).1 hfar hprot
          have htk := hold htrail (by omega) hlt (by simp [hspare, htp])
          exact ⟨fun _ => by rw [htk, htw], by simp [hkw, hw']⟩
        | continuation =>
          obtain ⟨j, rfl, hj⟩ := (hpaired k).2 (by rw [widthAt_of_getElem? hk, hw'])
          obtain ⟨lead, hlead, hlw⟩ := map_eq_some_iff.mp hj
          have hge : first ≤ j := by
            rcases hfirst with hm | rfl
            · have := hfar _ hm
              unfold Near at this
              omega
            · omega
          have hlp := (partner_protected hlead hk hlw hw'
            (keepsHalf_of_splitsPair hge hin.2 (hsplit hspare))).2 hfar hprot
          have hlk := hold hlead hge (by omega) (by simp [hspare, hlp])
          exact ⟨by simp [hkw, hw'], fun _ => ⟨j, rfl, by rw [hlk, hlw]⟩⟩
      · refine .of_single ?_
        rw [widthAt, hcell, if_pos hin, hk]
        simp only [map_some, if_neg hs, hf.single]
  · by_cases hend : columns ≤ k
    · refine .of_none (widthAt_eq_none ?_)
      rw [hw.cells_length, hg.cells_length]
      exact hend
    · refine (hpaired k).congr_same fun m hm hm' => ?_
      rw [widthAt, widthAt, hcell, if_neg (by omega)]

theorem rewrites_erased (hl : line.Loose promise columns) (hle : first ≤ last)
    (hlast : last ≤ columns) (cell : Cell) (spare keepMarks : Bool) {marks : List Bool}
    (hlen : marks.length = last - first) (hmarks : ∀ k, first ≤ k → k < last → marks[k - first]? =
      (erased line first last cell spare keepMarks k).2) :
    ∃ cells' occupied', slice line.cells first last = some ((line.cells.drop first).take (last - first)) ∧
      writeAt line.cells first (((line.cells.drop first).take (last - first)).map fun old =>
        if spare && old.isProtected then old else cell) = some cells' ∧
      writeAt line.occupiedCells first marks = some occupied' ∧
      Rewrites line { line with cells := cells', occupiedCells := occupied' }
        (erased line first last cell spare keepMarks) := by
  have hc := hl.cells_length
  have hclen : (((line.cells.drop first).take (last - first)).map fun old : Cell =>
      if spare && old.isProtected then old else cell).length = last - first := by
    rw [length_map, length_take, length_drop]
    omega
  obtain ⟨cells', occupied', h1, h2, hw⟩ := splice_spec hl (hlen.trans hclen.symm)
    (show first + _ ≤ columns by omega)
  refine ⟨cells', occupied', slice_eq hle (by omega), h1, h2, hw.cells_length, hw.marks_length,
    hw.occupiedColumns, fun k => ?_⟩
  rw [hw.entry, spliced]
  by_cases hk : first ≤ k ∧ k < last
  · rw [if_pos (by omega), hmarks k hk.1 hk.2, getElem?_map, getElem?_take_of_lt (by omega),
      getElem?_drop, show first + (k - first) = k by omega]
    simp only [erased, if_pos hk]
  · rw [if_neg (by omega), erased, if_neg hk]

/-- The writes of `fill_linear_with` on one row. -/
theorem eraseLinear_spec (hl : line.Loose promise columns) (hle : first ≤ last)
    (hlast : last ≤ columns) (cell : Cell) (spare : Bool) :
    ∃ line', (if spare then line.fillSparing first last cell else line.fill first last cell) =
        some line' ∧ Rewrites line line' (erased line first last cell spare false) := by
  have hmarks : ∀ spare k, first ≤ k → k < last →
      (List.replicate (last - first) (!isStructuralBlank cell))[k - first]? =
        (erased line first last cell spare false k).2 := fun spare k hk hk' => by
    obtain ⟨old, mark, hold, hmark⟩ := hl.cell_some (show k < columns by omega)
    rw [getElem?_replicate, if_pos (by omega), erased, if_pos ⟨hk, hk'⟩]
    simp [hold, hmark]
  cases spare with
  | true =>
    obtain ⟨cells', occupied', h1, h2, h3, hw⟩ := rewrites_erased hl hle hlast cell true
      false length_replicate (hmarks true)
    refine ⟨_, ?_, hw⟩
    simp only [if_true, fillSparing, fillRange, if_pos hle, h1, h3, bind_eq_bind, bind_some]
    simp only [Bool.true_and] at h2
    rw [h2]
    rfl
  | false =>
    obtain ⟨line', h', hw⟩ := fill_spec hl hle hlast cell
    refine ⟨line', h', hw.cells_length, hw.marks_length, hw.occupiedColumns, fun k => ?_⟩
    rw [hw.entry, filled, erased]
    by_cases hk : first ≤ k ∧ k < last
    · obtain ⟨old, mark, hold, hmark⟩ := hl.cell_some (show k < columns by omega)
      rw [if_pos hk, if_pos hk]
      simp [hold, hmark]
    · rw [if_neg hk, if_neg hk]

theorem fillSpan_spec (hl : line.Loose promise columns) (hle : first ≤ last)
    (hlast : last ≤ columns) (cell : Cell) (spare : Bool) :
    ∃ line', line.fillSpan first last cell spare = some line' ∧
      Rewrites line line' (erased line first last cell spare true) := by
  have hc := hl.cells_length
  have hm := hl.marks_length
  have hlen : (List.zipWith
      (fun (old : Cell) marker => if spare && old.isProtected then marker else !isStructuralBlank cell)
      ((line.cells.drop first).take (last - first))
      ((line.occupiedCells.drop first).take (last - first))).length = last - first := by
    simp only [length_zipWith, length_take, length_drop]
    omega
  obtain ⟨cells', occupied', h1, h2, h3, hw⟩ := rewrites_erased hl hle hlast cell spare true hlen
    fun k hk hk' => by
      obtain ⟨old, mark, hold, hmark⟩ := hl.cell_some (show k < columns by omega)
      rw [getElem?_zipWith, getElem?_take_of_lt (by omega), getElem?_drop,
        getElem?_take_of_lt (by omega), getElem?_drop,
        show first + (k - first) = k by omega, hold, hmark, erased, if_pos ⟨hk, hk'⟩]
      simp [hold, hmark]
  refine ⟨_, ?_, hw⟩
  have h1' := slice_eq hle (show last ≤ line.occupiedCells.length by omega)
  simp only [fillSpan, h1, h1', h2, h3, some_bind]

section

variable [Platform]

theorem fillSpan_good (hg : line.Good promise columns) (hpos : 0 < columns) (hf : FillOk cell)
    (hspan : span.left ≤ span.right) (hfit : span.right < columns) (spare : Bool)
    (hkeep : spare = true → line.sparingKeeps promise span.left (span.right + 1)
      [span.left, span.right + 1] cell true = true) :
    ∃ line1 line2, line.fillSpan span.left (span.right + 1) cell spare = some line1 ∧
      line1.repairSpanEdges columns span = some line2 ∧
      line2.recomputeOccupied.Good promise columns := by
  have hl := hg.toLoose
  obtain ⟨line1, h1, hw⟩ := fillSpan_spec hl (show span.left ≤ span.right + 1 by omega) (by omega)
    cell spare
  obtain ⟨line2, h2, hg2⟩ := repairSpanEdges_good (hw.loose hl (hl.erased hf hkeep)) hpos span
    fun hpairs k hleft hright => erased_paired hg hpairs hf hw (.inl (by simp)) (.inl (by simp)) hkeep
      (by simpa using ⟨hleft, hright⟩)
  exact ⟨line1, line2, h1, h2, hg2⟩

end

end

end Line

end FesTerm
