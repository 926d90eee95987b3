import FesTerm.Core.Proofs.HistoryRunProofs
import FesTerm.Core.Proofs.PairingProofs

/-!
# Scrollback recovery

`Scrollback::validate_recovery_state` on the scrollbacks that a terminal drives. The rows that a
terminal pushes fit its width and are paired, and rewrapping keeps them so. The validator then accepts
every reachable scrollback as long as no step loses the open line that `active_oversize_line` names.
-/

namespace FesTerm

open Checked List

/-- A row of history that fits a width. -/
structure RowOk (columns : Nat) (cells : List Cell) : Prop where
  pairs : Pairs cells
  fits : cells.length ≤ columns
  text : ∀ cell ∈ cells, cell.TextOk

/-! ## Rewrapped rows -/

namespace LogicalLine

/-- The cells from `start` to the first of the ends, and between consecutive ends, are paired. -/
def RowsPaired (cells : List Cell) : Nat → List Nat → Prop
  | _, [] => True
  | start, stop :: ends =>
    Pairs ((cells.drop start).take (stop - start)) ∧ RowsPaired cells stop ends

variable {cells : List Cell}

theorem pairs_of_mem_units {unit : List Cell} (h : Pairs cells) (hunit : unit ∈ units cells) : Pairs unit := by
  induction cells using units.induct with
  | case1 => cases hunit
  | case2 cell =>
    obtain rfl := mem_singleton.mp hunit
    exact h
  | case3 cell next rest hpair ih =>
    rw [units, if_pos hpair] at hunit
    rcases mem_cons.mp hunit with rfl | hunit
    · exact .pair hpair.1 hpair.2 .nil
    · exact ih (h.paired.tail_of_pair hpair.2).pairs hunit
  | case4 cell next rest hpair ih =>
    rw [units, if_neg hpair] at hunit
    have hsingle : cell.width = .single := by
      rcases h.paired.head with hw | ⟨hw, trail, rest', hr, ht⟩
      · exact hw
      · cases hr
        exact absurd ⟨hw, ht⟩ hpair
    rcases mem_cons.mp hunit with rfl | hunit
    · exact .single hsingle .nil
    · exact ih (h.paired.tail_of_single hsingle).pairs hunit

theorem pairs_flatten {rows : List (List Cell)} (h : ∀ row ∈ rows, Pairs row) : Pairs rows.flatten := by
  induction rows with
  | nil => exact .nil
  | cons row rows ih =>
    obtain ⟨hrow, hrows⟩ := forall_mem_cons.mp h
    exact hrow.append (ih hrows)

theorem rowsPaired_ends {rows : List (List (List Cell))} (h : ∀ row ∈ rows, Pairs row.flatten) (before : List Cell) :
    RowsPaired (before ++ rows.flatten.flatten) before.length (GreedyWrap.ends List.length before.length rows) := by
  induction rows generalizing before with
  | nil => trivial
  | cons row rows ih =>
    obtain ⟨hrow, hrows⟩ := forall_mem_cons.mp h
    rw [GreedyWrap.ends, flatten_cons, flatten_append, ← length_flatten_row, ← length_append,
      ← append_assoc]
    refine ⟨?_, ih hrows _⟩
    rw [append_assoc, drop_left, length_append, Nat.add_sub_cancel_left, take_left]
    exact hrow

theorem wrapRows_paired (columns : Nat) (h : Pairs cells) :
    RowsPaired cells 0 (wrapRows columns cells 0 0) := by
  have hpairs : ∀ row ∈ wrapped columns cells, Pairs row.flatten := fun row hrow =>
    pairs_flatten fun unit hunit => pairs_of_mem_units h (mem_units_of_row hrow hunit)
  have hrows := rowsPaired_ends hpairs []
  rw [flatten_wrapped, flatten_units] at hrows
  rw [wrapRows_start]
  exact hrows

variable {columns : Nat}

/-- Whatever the cells are, the rows of a line that is not empty have a cell and fit the width. -/
theorem wrapRows_chain (hcols : 2 ≤ columns) (hne : cells ≠ []) :
    List.IsChain (fun start stop => start < stop ∧ stop ≤ start + columns) (0 :: wrapRows columns cells 0 0) := by
  rw [wrapRows_start]
  have hrows := greedyRows_wrapped columns cells
  rw [Nat.max_eq_left (Nat.le_of_succ_le hcols)] at hrows
  have hwithin : ∀ row ∈ wrapped columns cells,
      0 < GreedyWrap.total List.length row ∧ GreedyWrap.total List.length row ≤ columns := by
    intro row hrow
    rw [← length_flatten_row]
    have hrow := List.mem_map_of_mem (f := List.flatten) hrow
    refine ⟨length_pos_of_ne_nil (hrows.filled hne _ hrow), ?_⟩
    rcases hrows.fits _ hrow with hfits | ⟨hnarrow, -⟩
    · omega
    · omega
  refine (GreedyWrap.isChain_ends (p := fun n => 0 < n ∧ n ≤ columns) hwithin 0).imp fun start stop h => ?_
  omega

variable {start : Nat}

theorem RowsPaired.getElem {ends : List Nat}
    (h : RowsPaired cells start ends) {i stop : Nat} (hi : ends[i]? = some stop) :
    Pairs ((cells.drop (((start :: ends)[i]?).getD 0)).take
      (stop - ((start :: ends)[i]?).getD 0)) := by
  induction ends generalizing start i with
  | nil => cases hi
  | cons e ends ih =>
    obtain ⟨hpairs, hrest⟩ := h
    cases i with
    | zero =>
      obtain rfl : e = stop := by simpa using hi
      exact hpairs
    | succ i => exact ih hrest (by simpa using hi)

section

variable [Platform] {line : LogicalLine}

omit [Platform] in
theorem rowStart_eq_getElem? (line : LogicalLine) (row : Nat) :
    line.rowStart row = ((0 :: line.rowEnds)[row]?).getD 0 := by
  cases row <;> rfl

theorem Ok.pairs_cells (h : line.Ok) (hrows : ∀ row ∈ line.screenRows, Pairs row.cells) :
    Pairs line.cells := by
  rw [h.cells_eq]
  refine pairs_flatten fun cells hcells => ?_
  obtain ⟨row, hrow, rfl⟩ := List.mem_map.mp hcells
  exact hrows row hrow

theorem Ok.mem_cells (h : line.Ok) {cell : Cell} (hc : cell ∈ line.cells) :
    ∃ row ∈ line.screenRows, cell ∈ row.cells := by
  rw [h.cells_eq, mem_flatten] at hc
  obtain ⟨cells, hcells, hc⟩ := hc
  obtain ⟨row, hrow, rfl⟩ := List.mem_map.mp hcells
  exact ⟨row, hrow, hc⟩

omit [Platform] in
theorem mem_screenRows {row : ScreenRow} (hr : row ∈ line.screenRows) :
    ∃ i < line.physicalRows, row.cells = line.rowCells i := by
  obtain ⟨i, hi, rfl⟩ := List.mem_map.mp hr
  exact ⟨i, mem_range.mp hi, rfl⟩

theorem reflow_rowEnds (line : LogicalLine) (hcols : 2 ≤ columns) :
    (line.reflow columns).rowEnds = wrapRows columns line.cells 0 0 := by
  simp only [LogicalLine.reflow, LogicalLine.recalculateCharge, Nat.max_eq_left (by omega : 1 ≤ columns)]

theorem Ok.reflow_row_length (h : line.Ok) {i : Nat} (hcols : 2 ≤ columns)
    (hi : i < (line.reflow columns).physicalRows) :
    ((line.reflow columns).rowCells i).length ≤ columns ∧
      (line.cells ≠ [] → 0 < ((line.reflow columns).rowCells i).length) := by
  have hok' := h.reflow columns
  rw [hok'.length_rowCells hi]
  by_cases hcells : line.cells = []
  · have hle := hok'.rowStart_le (show i + 1 ≤ (line.reflow columns).physicalRows from hi)
    have hlen : (line.reflow columns).cells.length = 0 := length_eq_zero_iff.mpr hcells
    exact ⟨by omega, absurd hcells⟩
  · have hchain := wrapRows_chain hcols hcells
    rw [← line.reflow_rowEnds hcols, isChain_iff_getElem] at hchain
    have hlt : i + 1 < (0 :: (line.reflow columns).rowEnds).length := by
      rw [length_cons, hok'.ends_len]
      omega
    have hstep := hchain i hlt
    have hstart : ∀ k (hk : k < (0 :: (line.reflow columns).rowEnds).length),
        (0 :: (line.reflow columns).rowEnds)[k] = (line.reflow columns).rowStart k := fun k hk => by
      rw [rowStart_eq_getElem?, getElem?_eq_getElem hk, Option.getD_some]
    rw [hstart, hstart] at hstep
    exact ⟨by omega, fun _ => by omega⟩

theorem Ok.reflow_rows (h : line.Ok) {old : Nat} (hcols : 2 ≤ columns)
    (hrows : ∀ row ∈ line.screenRows, RowOk old row.cells) :
    ∀ row ∈ (line.reflow columns).screenRows, RowOk columns row.cells := by
  intro row hrow
  have hok' := h.reflow columns
  obtain ⟨i, hi, hcells⟩ := mem_screenRows hrow
  have hpaired := wrapRows_paired columns (h.pairs_cells fun r hr => (hrows r hr).pairs)
  have hget := hok'.rowEnds_getElem? hi
  rw [line.reflow_rowEnds hcols] at hget
  have hpairs := hpaired.getElem hget
  have hstart : ((0 :: wrapRows columns line.cells 0 0)[i]?).getD 0 =
      (line.reflow columns).rowStart i := by rw [rowStart_eq_getElem?, line.reflow_rowEnds hcols]
  rw [hstart] at hpairs
  rw [hcells]
  refine ⟨hpairs, (h.reflow_row_length hcols hi).1, ?_⟩
  intro cell hc
  obtain ⟨r, hr, hcr⟩ := h.mem_cells (mem_of_mem_drop (mem_of_mem_take hc))
  exact (hrows r hr).text cell hcr

/-! ## The validator of a line -/

omit [Platform] in
/-- The loop over the cells of a paired row accepts it and counts its columns. -/
theorem validateRowCells_eq (line : LogicalLine) (row : Nat) {stop : Nat}
    (hcells : cells = (line.cells.drop start).take (stop - start)) (hp : Paired cells)
    (htext : ∀ cell ∈ cells, cell.TextOk) :
    ∀ (rest : List Cell) (offset used : Nat), cells.drop offset = rest →
      line.validateRowCells row start stop (rest.zipIdx offset) used =
        .ok (used + usedColumns rest) := by
  have hget : ∀ i, i < cells.length → line.cells[start + i]? = cells[i]? := by
    intro i hi
    rw [hcells, length_take] at hi
    rw [hcells, getElem?_take_of_lt (by omega), getElem?_drop]
  have hlen : cells.length ≤ stop - start := by rw [hcells, length_take]; omega
  intro rest
  induction rest with
  | nil => intro offset used _; rfl
  | cons cell rest ih =>
    intro offset used hdrop
    have hcell : cells[offset]? = some cell := by
      have : cells[offset]? = (cells.drop offset)[0]? := by rw [getElem?_drop]; rfl
      rw [this, hdrop]
      rfl
    have hrest : cells.drop (offset + 1) = rest := by
      rw [← drop_drop, hdrop]; rfl
    have hmem : cell ∈ cells := mem_of_getElem? hcell
    rw [zipIdx_cons, LogicalLine.validateRowCells,
      Cell.validateRecoveryState_ok.mpr (htext cell hmem).toTextFits]
    simp only
    have hw : widthAt cells offset = some cell.width := by rw [widthAt, hcell]; rfl
    obtain ⟨hdouble, hcont⟩ := hp offset
    rw [hw] at hdouble hcont
    cases hwidth : cell.width with
    | single =>
      simp only
      rw [ih _ _ hrest]
      simp [usedColumns, hwidth, CellWidth.columns, Nat.add_assoc]
    | double =>
      have hnext := hdouble (by rw [hwidth])
      have hlt : offset + 1 < cells.length := by
        rcases Nat.lt_or_ge (offset + 1) cells.length with hlt | hge
        · exact hlt
        · rw [widthAt, getElem?_eq_none hge] at hnext
          cases hnext
      have hwnext : (line.cells[start + offset + 1]?).map Cell.width = some .continuation := by
        rw [Nat.add_assoc, hget _ hlt]
        exact hnext
      simp only
      rw [if_neg (by rw [hwnext]; simp; omega), ih _ _ hrest]
      simp [usedColumns, hwidth, CellWidth.columns, Nat.add_assoc]
    | continuation =>
      obtain ⟨j, hj, hprev⟩ := hcont (by rw [hwidth])
      have hoff : offset < cells.length := (List.getElem?_eq_some_iff.mp hcell).1
      have hwprev : (line.cells[start + offset - 1]?).map Cell.width = some .double := by
        rw [show start + offset - 1 = start + j by omega, hget _ (by omega)]
        exact hprev
      simp only
      rw [if_neg (by rw [hwprev]; simp; omega), ih _ _ hrest]
      simp [usedColumns, hwidth, CellWidth.columns]

theorem Ok.validateRows_eq (h : line.Ok) (hrows : ∀ row ∈ line.screenRows, RowOk columns row.cells) :
    ∀ n i, i + n = line.physicalRows →
      line.validateRows columns ((line.rowEnds.drop i).zipIdx i) (line.rowStart i) = .ok () := by
  intro n
  induction n with
  | zero =>
    intro i hi
    rw [drop_of_length_le (by rw [h.ends_len]; omega)]
    rfl
  | succ n ih =>
    intro i hi
    have hget := h.rowEnds_getElem? (i := i) (by omega)
    have hcons : line.rowEnds.drop i = line.rowStart (i + 1) :: line.rowEnds.drop (i + 1) := by
      obtain ⟨hlt, hval⟩ := List.getElem?_eq_some_iff.mp hget
      rw [drop_eq_getElem_cons hlt, hval]
    have hmono := h.rowStart_le_succ (i := i) (by omega)
    have hle := h.rowStart_le (i := i + 1) (by omega)
    have hrow : RowOk columns (line.rowCells i) :=
      hrows _ (mem_of_getElem? (screenRows_getElem? (by omega)))
    have hcells := validateRowCells_eq line i (show line.rowCells i =
      (line.cells.drop (line.rowStart i)).take (line.rowStart (i + 1) - line.rowStart i) from rfl)
      hrow.pairs.paired hrow.text (line.rowCells i) 0 0 rfl
    have hused := hrow.pairs.usedColumns_eq
    have hfits := hrow.fits
    rw [hcons, zipIdx_cons, LogicalLine.validateRows, if_neg (by omega)]
    rw [rowCells] at hcells
    rw [hcells]
    simp only
    rw [← rowCells, if_neg (by omega)]
    exact ih (i + 1) (by omega)

theorem Ok.validate (h : line.Ok) (hrows : ∀ row ∈ line.screenRows, RowOk columns row.cells) :
    line.validateRecoveryState columns = .ok () := by
  have hpos := h.rows_pos
  have hvalid := h.validateRows_eq hrows line.physicalRows 0 (by omega)
  unfold LogicalLine.validateRecoveryState
  rw [if_neg (by omega), if_neg (by rw [h.ends_len]; simp), if_neg (by have := h.cell_cap; omega),
    if_neg (by have := h.ends_cap; omega), h.ends_last, if_neg (by simp)]
  rw [show line.validateRows columns line.rowEnds.zipIdx 0 = .ok () from hvalid]
  simp only
  rw [if_neg (by rw [h.owned]; simp), if_neg (by rw [← h.charge]; simp)]

end

end LogicalLine

end FesTerm
