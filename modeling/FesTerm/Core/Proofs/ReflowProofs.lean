import FesTerm.Core.Proofs.BufferProofs
import FesTerm.Core.Snapshot
import FesTerm.Core.Proofs.HistoryContentProofs

/-!
# What a reflow keeps

A reflow folds the screen into the history, rewraps the lines, splits the tail off again and builds the
screen from it. The rows that enter are those that leave as long as wide cells are whole: then building
the screen repairs nothing. The rows that a reflow loses at the end are empty rows of the line that the
cursor is in.
-/

namespace FesTerm

open Checked List Option

namespace Line

variable {promise : Promise} {columns : Nat} {line : Line} {fill : Cell}

theorem Loose.repairCell_eq (h : line.Loose promise columns) {column : Nat} (hc : column < columns)
    (hp : PairedAt line.cells column) : line.repairCell columns column fill = some line := by
  obtain ⟨cell, occupied, hcell, -⟩ := h.cell_some hc
  have hwidth := widthAt_of_getElem? hcell
  rw [repairCell, hcell]
  simp only [some_bind]
  cases hcw : cell.width with
  | single => rfl
  | double =>
    obtain ⟨next, hnext, hcont⟩ := map_eq_some_iff.mp (hp.1 (hwidth.trans (by rw [hcw])))
    have hlt := (List.getElem?_eq_some_iff.mp hnext).1
    rw [h.cells_length] at hlt
    simp only
    rw [if_neg (by omega), hnext]
    simp [hcont]
  | continuation =>
    obtain ⟨j, rfl, hj⟩ := hp.2 (hwidth.trans (by rw [hcw]))
    obtain ⟨previous, hprevious, hdouble⟩ := map_eq_some_iff.mp hj
    simp only
    rw [if_neg (by omega), Nat.add_sub_cancel, hprevious]
    simp [hdouble]

variable [Platform]

theorem Good.repairRow_eq (h : line.Good promise columns) (hpairs : promise.pairs = true) :
    line.repairRow columns = some line := by
  have hloop : Yields (forRange 0 columns line fun line column => line.repairCell columns column blankCell)
      (· = line) := forRange_yields rfl fun current column _ hcolumn hcurrent => by
    subst hcurrent
    exact ⟨_, h.toLoose.repairCell_eq hcolumn (h.paired hpairs column), rfl⟩
  obtain ⟨same, hloop, rfl⟩ := hloop
  rw [repairRow, hloop]
  simp only [some_bind, recomputeOccupied, ← h.extent]

end Line

theorem occupiedExtent_initial (m n : Nat) :
    occupiedExtent (List.replicate m true ++ List.replicate n false) = m := by
  cases m with
  | zero =>
    refine occupiedExtent_eq_zero fun k hk => ?_
    rw [replicate_zero, nil_append, getElem?_replicate] at hk
    split at hk <;> cases hk
  | succ m =>
    refine occupiedExtent_eq_succ ?_ fun k hk hset => ?_
    · rw [getElem?_append_left (by simp), getElem?_replicate, if_pos (Nat.lt_succ_self m)]
    · rw [getElem?_append_right (by simp; omega), getElem?_replicate] at hset
      split at hset <;> cases hset

namespace Screen

variable [Platform] {promise : Promise} {columns : Nat} {screen : Screen} {row : ScreenRow}

theorem pairs_blank (n : Nat) : Pairs (List.replicate n blankCell) := by
  induction n with
  | zero => exact .nil
  | succ n ih => exact .single rfl ih

theorem rowLine_eq (h : row.cells.length ≤ columns) : rowLine columns row = {
      cells := row.cells ++ List.replicate (columns - row.cells.length) blankCell
      occupiedCells := List.replicate row.cells.length true ++
        List.replicate (columns - row.cells.length) false
      softWrapped := row.softWrapped
      occupiedColumns := row.cells.length } := by
  rw [rowLine, Nat.min_eq_left h, take_length]

theorem rowLine_good (h : RowOk columns row.cells) : (rowLine columns row).Good promise columns where
  toLoose := rowLine_loose h.text
  extent := by
    rw [rowLine_eq h.fits]
    exact (occupiedExtent_initial _ _).symm
  paired _ := by
    rw [rowLine_eq h.fits]
    exact (h.pairs.append (pairs_blank _)).paired

theorem rowLine_toRow (h : row.cells.length ≤ columns) : (rowLine columns row).toRow = some row := by
  rw [rowLine_eq h, Line.toRow, slice_eq (Nat.zero_le _) (by simp)]
  simp

def blankRow : ScreenRow := ⟨[], false⟩

theorem blank_eq_rowLine (columns : Nat) : Line.blank columns = rowLine columns blankRow := by
  simp [Line.blank, rowLine, blankRow]

def writtenLines (dimensions : Dimensions) (rows : List ScreenRow) : List Line :=
  (rows ++ List.replicate (dimensions.rows - rows.length) blankRow).map (rowLine dimensions.columns)

theorem repairWideCells_eq (h : screen.Good promise) (hpairs : promise.pairs = true) :
    screen.repairWideCells = some screen := by
  have hloop : Yields screen.repairWideCells (· = screen) := by
    refine forRange_yields rfl fun current row _ _ hcurrent => ?_
    subst hcurrent
    obtain ⟨line, hline⟩ := h.toShape.line_some row
    obtain ⟨hlt, hget⟩ := List.getElem?_eq_some_iff.mp hline
    refine ⟨current, ?_, rfl⟩
    rw [modifyLine, hline]
    simp only [some_bind, (h.line_good hline).repairRow_eq hpairs, setAt_eq hlt, splice_singleton hlt]
    rw [← hget, set_getElem_self]
  obtain ⟨same, heq, rfl⟩ := hloop
  exact heq

/-- The screen of rows that fit, padded with blank ones. -/
def ofRows (dimensions : Dimensions) (rows : List ScreenRow) : Screen where
  dimensions := dimensions
  top := 0
  lines := writtenLines dimensions rows
  dirtyRows := List.replicate dimensions.rows true

variable {rows : List ScreenRow}

theorem writtenLines_set {dimensions : Dimensions} {index : Nat}
    (hrow : rows[index]? = some row) (hlen : rows.length ≤ dimensions.rows) :
    (writtenLines dimensions (rows.take index)).set index (rowLine dimensions.columns row) =
      writtenLines dimensions (rows.take (index + 1)) := by
  obtain ⟨hlt, rfl⟩ := List.getElem?_eq_some_iff.mp hrow
  have hblank : dimensions.rows - index = dimensions.rows - (index + 1) + 1 := by omega
  have htake : (rows.take index).length = index := by rw [length_take]; omega
  have hnext : (rows.take (index + 1)).length = index + 1 := by rw [length_take]; omega
  rw [writtenLines, writtenLines, hnext, htake, ← map_set,
    set_append_right _ _ (Nat.le_of_eq htake), htake, Nat.sub_self, hblank, replicate_succ,
    set_cons_zero, take_add_one, getElem?_eq_getElem hlt]
  simp only [toList_some, append_assoc, singleton_append]

theorem ofRows_good (dimensions : Dimensions) (hlen : rows.length ≤ dimensions.rows)
    (hok : ∀ row ∈ rows, RowOk dimensions.columns row.cells) : (ofRows dimensions rows).Good promise where
  top_lt := dimensions.one_le_rows
  lines_length := by
    simp only [ofRows, writtenLines, length_map, length_append, length_replicate]
    omega
  dirty_length := length_replicate
  line line hline := by
    obtain ⟨row, hrow, rfl⟩ := List.mem_map.mp hline
    rcases mem_append.mp hrow with hmem | hmem
    · exact rowLine_good (hok row hmem)
    · rw [eq_of_mem_replicate hmem]
      exact rowLine_good ⟨.nil, Nat.zero_le _, nofun⟩

/-- Building a screen from rows with whole pairs changes none of them. -/
theorem fromRows_eq (dimensions : Dimensions) (hlen : rows.length ≤ dimensions.rows)
    (hok : ∀ row ∈ rows, RowOk dimensions.columns row.cells) :
    fromRows dimensions rows = some (ofRows dimensions rows) := by
  have hnew : new dimensions = { ofRows dimensions rows with lines := writtenLines dimensions [] } := by
    simp [new, ofRows, writtenLines, blank_eq_rowLine]
  obtain ⟨screen, hfold, hscreen⟩ := foldlM_inv (l := rows.zipIdx)
    (f := fun (screen : Screen) (x : ScreenRow × Nat) =>
      (setAt screen.lines x.2 (rowLine dimensions.columns x.1)).bind fun lines =>
        some { screen with lines := lines })
    (fun i screen => screen =
      { ofRows dimensions rows with lines := writtenLines dimensions (rows.take i) }) 0 hnew
    fun i screen x hx hscreen => by
      rw [getElem?_zipIdx] at hx
      obtain ⟨row, hrow, rfl⟩ := map_eq_some_iff.mp hx
      have hlt := (List.getElem?_eq_some_iff.mp hrow).1
      subst hscreen
      have hi : i < (writtenLines dimensions (rows.take (0 + i))).length := by
        simp only [writtenLines, length_map, length_append, length_take, length_replicate]
        omega
      simp only [Nat.zero_add] at hi ⊢
      refine ⟨_, by rw [setAt_eq hi, splice_singleton hi]; rfl, ?_⟩
      rw [writtenLines_set hrow hlen]
  have hgood : (ofRows dimensions rows).Good ⟨true, false, false, false⟩ := ofRows_good dimensions hlen hok
  rw [Nat.zero_add, length_zipIdx, take_length] at hscreen
  subst hscreen
  unfold fromRows
  rw [take_of_length_le hlen]
  simp only [bind_eq_bind, Option.pure_def] at hfold ⊢
  rw [hfold, bind_some]
  have hrepair := repairWideCells_eq hgood rfl
  rw [show ({ ofRows dimensions rows with lines := writtenLines dimensions rows } : Screen) =
    ofRows dimensions rows from rfl, hrepair]
  simp [markAllDirty, ofRows]

theorem line_ofRows {dimensions : Dimensions} {k : Nat} (hk : k < dimensions.rows) :
    (ofRows dimensions rows).line k = (writtenLines dimensions rows)[k]? := by
  simp only [line, physicalRow, ofRows, Nat.zero_add, Nat.mod_eq_of_lt hk]

/-- The rows of a screen, and what its accessors say about them. -/
structure Shows (screen : Screen) (rows : List ScreenRow) : Prop where
  toRows : screen.toRows = some rows
  length : rows.length = screen.dimensions.rows
  occupied : screen.occupiedRowCount =
    some (occupiedExtent (rows.map fun row => decide (0 < row.cells.length)))
  cells : ∀ k row, rows[k]? = some row → screen.occupiedRowCells k = some row.cells
  softWrapped : ∀ k row, rows[k]? = some row → screen.rowSoftWrapped k = some (some row.softWrapped)

omit [Platform] in
theorem Good.shows (h : screen.Good promise) : ∃ rows, screen.Shows rows := by
  have hline : ∀ row, ∃ line, screen.line row = some line := h.line_some
  choose line hl using hline
  have hrow : ∀ k, (line k).toRow = some ⟨(line k).cells.take (line k).occupiedColumns, (line k).softWrapped⟩ :=
    fun k => (h.line_good (hl k)).toRow.1
  have hextent : ∀ k, ((line k).cells.take (line k).occupiedColumns).length = (line k).occupiedColumns :=
    fun k => by
      have hg := h.line_good (hl k)
      have hle := occupiedExtent_le (line k).occupiedCells
      rw [length_take, hg.cells_length, ← hg.marks_length]
      rw [← hg.extent] at hle
      omega
  let rows := (List.range screen.dimensions.rows).map fun k =>
    (⟨(line k).cells.take (line k).occupiedColumns, (line k).softWrapped⟩ : ScreenRow)
  have hget : ∀ k row, rows[k]? = some row → k < screen.dimensions.rows ∧
      row = ⟨(line k).cells.take (line k).occupiedColumns, (line k).softWrapped⟩ := fun k row hk => by
    rw [getElem?_map] at hk
    obtain ⟨j, hj, rfl⟩ := map_eq_some_iff.mp hk
    obtain ⟨hlt, hj⟩ := List.getElem?_eq_some_iff.mp hj
    rw [length_range] at hlt
    rw [getElem_range] at hj
    subst hj
    exact ⟨hlt, rfl⟩
  refine ⟨rows, ⟨?_, by simp [rows], ?_, fun k row hk => ?_, fun k row hk => ?_⟩⟩
  · unfold Screen.toRows
    exact mapM_eq_map fun k _ => by rw [hl]; exact hrow k
  · unfold Screen.occupiedRowCount
    rw [mapM_eq_map fun k _ => by rw [hl]; rfl]
    simp only [some_bind, rows, List.map_map]
    congr 2
    refine map_congr_left fun k _ => ?_
    simp only [Function.comp, hextent]
  · obtain ⟨-, rfl⟩ := hget k row hk
    have hg := h.line_good (hl k)
    rw [occupiedRowCells, hl]
    simp only [some_bind]
    rw [slice_eq (Nat.zero_le _), drop_zero, Nat.sub_zero]
    have := hextent k
    rw [length_take] at this
    omega
  · obtain ⟨hlt, rfl⟩ := hget k row hk
    rw [rowSoftWrapped, if_pos hlt, hl]
    rfl

theorem toRows_ofRows (dimensions : Dimensions) (hlen : rows.length ≤ dimensions.rows)
    (hok : ∀ row ∈ rows, RowOk dimensions.columns row.cells) : (ofRows dimensions rows).toRows =
      some (rows ++ List.replicate (dimensions.rows - rows.length) blankRow) := by
  generalize hfull : rows ++ List.replicate (dimensions.rows - rows.length) blankRow = full
  have hlength : full.length = dimensions.rows := by
    rw [← hfull, length_append, length_replicate]
    omega
  have hfit : ∀ row ∈ full, row.cells.length ≤ dimensions.columns := fun row hrow => by
    rw [← hfull] at hrow
    rcases mem_append.mp hrow with hmem | hmem
    · exact (hok row hmem).fits
    · rw [eq_of_mem_replicate hmem]
      exact Nat.zero_le _
  unfold Screen.toRows
  rw [mapM_eq_map fun k hk => ?_]
  rotate_left
  · exact fun k => (full[k]?).getD blankRow
  · have hlt : k < full.length := by
      rw [hlength]
      exact mem_range.mp hk
    rw [line_ofRows (hlength ▸ hlt), writtenLines, hfull, getElem?_map, getElem?_eq_getElem hlt]
    exact rowLine_toRow (hfit _ (getElem_mem hlt))
  · rw [some.injEq]
    refine ext_getElem (by simp [ofRows, hlength]) fun k h1 h2 => ?_
    rw [getElem_map, getElem_range, getElem?_eq_getElem h2, getD_some]

end Screen

namespace BufferState

open Scrollback

variable [Platform] {promise : Promise} {buffer : BufferState} {old dimensions : Dimensions}
  {scrollback : Scrollback}

/-! ## The rows of a reflow -/

/-- How the intermediate results of a reflow follow from each other. -/
structure Flow (r : Reflowing buffer dimensions scrollback) : Prop where
  folded_inv : r.folded.Inv
  folded_rows : allRows r.folded.lines = allRows scrollback.lines ++ r.screenRows.take r.contentRows
  wrapped_inv : r.wrapped.Inv
  wrapped_keys : r.wrapped.lines.map lineKey = r.folded.lines.map lineKey
  wrapped_lines : logicalLines (allRows r.wrapped.lines) = logicalLines (allRows r.folded.lines)
  kept_inv : r.kept.Inv
  rows : ∃ dropped, allRows r.wrapped.lines = dropped ++ (allRows r.kept.lines ++ r.tail) ∧
    dropped.length = r.evictedRows
  origin : r.kept.contentRowOrigin = scrollback.contentRowOrigin + r.evictedRows
  tail_length : r.tail.length = min dimensions.rows (totalRows r.wrapped.lines)

theorem lifted_inv (h : scrollback.Inv) : ({ scrollback with limitBytes := none } : Scrollback).Inv where
  toLayout := h.toLayout.withLimit none
  screen := h.screen
  unlimited_or_empty hzero := by cases hzero

theorem flow (h : scrollback.Inv) (r : Reflowing buffer dimensions scrollback) : Flow r := by
  have hlifted : { scrollback with limitBytes := none } = r.lifted :=
    some.inj ((setLimitBytes_unlimited scrollback).symm.trans r.lifted_eq)
  obtain ⟨folded, hfolded, hfold⟩ := (lifted_inv h).pushRows_unlimited rfl
    (r.screenRows.take r.contentRows)
  rw [hlifted] at hfolded hfold
  cases hfolded.symm.trans r.folded_eq
  have hrows := hfold.rows
  have horigin := hfold.contentRowOrigin
  rw [← hlifted] at hrows horigin
  -- rewrapping changes neither the lines nor where the history starts
  obtain ⟨hinv, hkeys, hlines, hlimit, hstart⟩ : r.wrapped.Inv ∧
      r.wrapped.lines.map lineKey = r.folded.lines.map lineKey ∧
      logicalLines (allRows r.wrapped.lines) = logicalLines (allRows r.folded.lines) ∧
      r.wrapped.limitBytes = none ∧ r.wrapped.contentRowOrigin = r.folded.contentRowOrigin := by
    rw [r.wrapped_eq]
    split
    · refine ⟨hfold.inv.reflow _, ?_, hfold.inv.lines_reflow _, ?_, ?_⟩
      · rw [hfold.inv.toLayout.reflow_eq, List.map_map]
        rfl
      · rw [hfold.inv.toLayout.reflow_eq]
        exact hfold.limitBytes
      · rw [hfold.inv.toLayout.reflow_eq]
    · exact ⟨hfold.inv, rfl, rfl, hfold.limitBytes, rfl⟩
  obtain ⟨split, tail, hsplit, hsplitInv, hsplitRows, hcount, hsplitOrigin⟩ :=
    hinv.splitOffTail_unlimited hlimit dimensions.rows
  cases hsplit.symm.trans r.split_eq
  obtain ⟨kept, hkept, henforced, hkeptInv⟩ := hsplitInv.setLimitBytes scrollback.limitBytes
  cases hkept.symm.trans r.kept_eq
  obtain ⟨dropped, hdropped, hcontent⟩ := henforced.dropped (hsplitInv.toLayout.withLimit _)
  simp only at hdropped hcontent
  have hevicted : dropped.length = r.evictedRows := by
    rw [Reflowing.evictedRows]
    omega
  exact {
    folded_inv := hfold.inv
    folded_rows := hrows
    wrapped_inv := hinv
    wrapped_keys := hkeys
    wrapped_lines := hlines
    kept_inv := hkeptInv
    rows := ⟨dropped, by rw [hsplitRows, hdropped, append_assoc], hevicted⟩
    origin := by
      rw [hcontent, hsplitOrigin, hstart, horigin, hevicted]
    tail_length := hcount }

/-- The rows of the primary content: those of the history, continued by the screen rows through the
cursor or the last occupied row. -/
def content (buffer : BufferState) (scrollback : Scrollback) : Option (List ScreenRow) := do
  let contentRows ← buffer.contentRows
  let rows ← buffer.screen.toRows
  some (allRows scrollback.lines ++ rows.take contentRows)

variable {r : Reflowing buffer dimensions scrollback}

theorem Flow.content_eq (h : Flow r) : buffer.content scrollback = some (allRows r.folded.lines) := by
  rw [content, r.contentRows_eq, r.screenRows_eq, h.folded_rows]
  rfl

theorem Sound.folded_good (h : buffer.Sound promise old) (hsb : scrollback.Good promise old.columns)
    (r : Reflowing buffer dimensions scrollback) : r.folded.Good promise old.columns := by
  obtain ⟨lifted, hlifted, hliftedGood, -⟩ := hsb.setLimitBytes none
  cases hlifted.symm.trans r.lifted_eq
  obtain ⟨screenRows, hrows, hfits⟩ := Screen.toRow_mapM h.screen
    (List.range buffer.screen.dimensions.rows)
  obtain rfl : screenRows = r.screenRows := some.inj (hrows.symm.trans r.screenRows_eq)
  have hretained : ∀ row ∈ r.screenRows.take r.contentRows, row.Retained promise old.columns :=
    fun row hr => by
      have := hfits row (mem_of_mem_take hr)
      rw [h.dims] at this
      exact this.retained
  obtain ⟨folded, hfolded, hfoldedGood⟩ := hliftedGood.pushRows hretained
  cases hfolded.symm.trans r.folded_eq
  exact hfoldedGood

theorem Sound.wrapped_ok (h : buffer.Sound promise old) (hsb : scrollback.Good promise old.columns)
    (r : Reflowing buffer dimensions scrollback)
    (hwhole : ∀ row ∈ allRows r.folded.lines, Pairs row.cells) :
    ∀ row ∈ allRows r.wrapped.lines, RowOk dimensions.columns row.cells := by
  have hgood := h.folded_good hsb r
  have hfolded : r.folded.Good ⟨true, false, false, false⟩ old.columns :=
    ⟨hgood.toInv, fun row hr => ⟨(hgood.rows row hr).text, (hgood.rows row hr).fits, fun _ => hwhole row hr⟩⟩
  have hwrapped : r.wrapped.Good ⟨true, false, false, false⟩ dimensions.columns := by
    rw [r.wrapped_eq]
    split
    · exact hfolded.reflow dimensions.two_le_columns
    · next hsame =>
      rw [not_not.mp hsame, h.dims]
      exact hfolded
  exact fun row hr => (hwrapped.rows row hr).ok rfl

theorem Sound.screen_eq (h : buffer.Sound promise old) (hsb : scrollback.Good promise old.columns)
    (r : Reflowing buffer dimensions scrollback)
    (hwhole : ∀ row ∈ allRows r.folded.lines, Pairs row.cells) :
    r.screen = Screen.ofRows dimensions r.tail ∧ r.screen.toRows = some
      (r.tail ++ List.replicate (dimensions.rows - r.tail.length) Screen.blankRow) := by
  have hflow := flow hsb.toInv r
  obtain ⟨dropped, hdropped, -⟩ := hflow.rows
  have hok : ∀ row ∈ r.tail, RowOk dimensions.columns row.cells := fun row hrow =>
    h.wrapped_ok hsb r hwhole row (by
      rw [hdropped]
      exact mem_append_right _ (mem_append_right _ hrow))
  have hlen : r.tail.length ≤ dimensions.rows := by
    rw [hflow.tail_length]
    exact Nat.min_le_left _ _
  have heq : r.screen = Screen.ofRows dimensions r.tail :=
    some.inj (r.screen_eq.symm.trans (Screen.fromRows_eq dimensions hlen hok))
  refine ⟨heq, ?_⟩
  rw [heq]
  exact Screen.toRows_ofRows dimensions hlen hok

/-! ## The content -/

omit [Platform] in
theorem contentRows_of_shows {rows : List ScreenRow} (h : buffer.screen.Shows rows)
    (hcursor : buffer.cursor.row < buffer.screen.dimensions.rows) :
    ∃ n, buffer.contentRows = some n ∧ n ≤ rows.length ∧ buffer.cursor.row < n ∧
      (∀ k row, n ≤ k → rows[k]? = some row → row.cells = []) ∧
      (buffer.cursor.row + 1 < n → ∃ row, rows[n - 1]? = some row ∧ row.cells ≠ []) := by
  generalize hocc : occupiedExtent (rows.map fun row => decide (0 < row.cells.length)) = occupied
  have hle := occupiedExtent_le (rows.map fun row => decide (0 < row.cells.length))
  rw [length_map, hocc, h.length] at hle
  refine ⟨max occupied (buffer.cursor.row + 1), ?_, ?_, ?_, fun k row hk hrow => ?_, fun hlt => ?_⟩
  · rw [contentRows, h.occupied, hocc]
    exact congrArg some (Nat.min_eq_right (by omega))
  · rw [h.length]
    omega
  · omega
  · refine length_eq_zero_iff.mp (Nat.eq_zero_of_not_pos fun hpos => ?_)
    have hmark : (rows.map fun row => decide (0 < row.cells.length))[k]? = some true := by
      rw [getElem?_map, hrow]
      simpa using hpos
    have := lt_occupiedExtent hmark
    omega
  · have hset := occupiedExtent_set (hocc.trans (show occupied = occupied - 1 + 1 by omega))
    rw [getElem?_map, show occupied - 1 = max occupied (buffer.cursor.row + 1) - 1 by omega] at hset
    obtain ⟨row, hrow, hpos⟩ := map_eq_some_iff.mp hset
    exact ⟨row, hrow, ne_nil_of_length_pos (of_decide_eq_true hpos)⟩

theorem Sound.folded_content (h : buffer.Sound promise old) (hinv : scrollback.Inv)
    (r : Reflowing buffer dimensions scrollback) :
    buffer.cursor.row < r.contentRows ∧
      totalRows r.folded.lines = totalRows scrollback.lines + r.contentRows ∧
      (buffer.cursor.row + 1 < r.contentRows →
        ∃ row, (allRows r.folded.lines).getLast? = some row ∧ row.cells ≠ []) := by
  obtain ⟨rows, hshows⟩ := h.screen.shows
  obtain rfl : rows = r.screenRows := some.inj (hshows.toRows.symm.trans r.screenRows_eq)
  obtain ⟨n, hn, hle, hcursor, -, hlast⟩ := contentRows_of_shows hshows
    (by rw [h.dims]; exact h.cursor.2)
  obtain rfl : n = r.contentRows := some.inj (hn.symm.trans r.contentRows_eq)
  have hfolded := (flow hinv r).folded_rows
  refine ⟨hcursor, ?_, fun hlt => ?_⟩
  · have hlen := congrArg List.length hfolded
    rw [length_append, length_allRows, length_allRows, length_take] at hlen
    omega
  · obtain ⟨row, hrow, hcells⟩ := hlast hlt
    refine ⟨row, ?_, hcells⟩
    have htake : (r.screenRows.take r.contentRows).getLast? = some row := by
      rw [getLast?_eq_getElem?, length_take, Nat.min_eq_left hle, getElem?_take,
        if_pos (by omega), hrow]
    have hne : r.screenRows.take r.contentRows ≠ [] := fun hnil => by
      rw [hnil] at htake
      cases htake
    rw [hfolded, getLast?_append_of_ne_nil _ hne, htake]

theorem Flow.resolved (h : Flow r) {row : Nat}
    (hrow : row < totalRows r.folded.lines) (column : Nat) {anchor : Option LogicalAnchor}
    (hanchor : r.folded.lineAndOffsetAt row column = some anchor) :
    ∃ column' row', r.position anchor = some (column', row') ∧
      Resolved r.folded r.wrapped row column row' column' := by
  obtain ⟨found, row', column', hfound, hresolve, hresolved⟩ :=
    h.folded_inv.toLayout.resolved h.wrapped_inv.toLayout h.wrapped_keys hrow column
  cases hfound.symm.trans hanchor
  exact ⟨column', row', some.inj ((r.position_eq _).symm.trans hresolve), hresolved⟩

theorem totalPhysicalRows_eq (h : scrollback.Inv) :
    scrollback.totalPhysicalRows = totalRows scrollback.lines := by
  rw [totalPhysicalRows, h.screen, Nat.add_sub_cancel_left]

theorem Sound.cursor_resolved (h : buffer.Sound promise old) (hinv : scrollback.Inv)
    (r : Reflowing buffer dimensions scrollback) :
    ∃ column' row', r.position r.cursorAnchor = some (column', row') ∧
      Resolved r.folded r.wrapped (totalRows scrollback.lines + buffer.cursor.row) buffer.cursor.column
        row' column' := by
  obtain ⟨hcursor, htotal, -⟩ := h.folded_content hinv r
  have hanchor := r.cursorAnchor_eq
  rw [totalPhysicalRows_eq hinv, Nat.min_eq_left (by omega)] at hanchor
  exact (flow hinv r).resolved (by omega) _ hanchor

theorem last_index {sb : Scrollback} (h : sb.Layout) {row index : Nat}
    (hlast : totalRows sb.lines ≤ row + 1) (hin : row < totalRows (sb.lines.take (index + 1))) :
    sb.lines.length ≤ index + 1 := by
  by_contra hlt
  have hline := getElem?_eq_getElem (Nat.lt_of_not_le hlt)
  have hpos := (h.lines_ok _ (mem_of_getElem? hline)).rows_pos
  have hsucc := totalRows_take_succ hline
  have hle : totalRows (sb.lines.take (index + 1 + 1)) ≤ totalRows sb.lines := by
    conv_rhs => rw [← take_append_drop (index + 1 + 1) sb.lines]
    rw [totalRows_append]
    omega
  omega

theorem Flow.wrapped_rows (h : Flow r) (hkeep : r.kept.contentRowOrigin = scrollback.contentRowOrigin) :
    r.evictedRows = 0 ∧ allRows r.wrapped.lines = allRows r.kept.lines ++ r.tail := by
  have hevicted : r.evictedRows = 0 := by
    have := h.origin
    omega
  obtain ⟨dropped, hrows, hlen⟩ := h.rows
  rw [hevicted, length_eq_zero_iff] at hlen
  exact ⟨hevicted, by rw [hrows, hlen, nil_append]⟩

theorem Flow.cursor_row (h : Flow r)
    (hkeep : r.kept.contentRowOrigin = scrollback.contentRowOrigin) {column' row' : Nat}
    (hposition : r.position r.cursorAnchor = some (column', row')) (hrow : row' < totalRows r.wrapped.lines) :
    r.cursor.row < r.tail.length ∧
      (r.cursor.row + 1 < r.tail.length → r.cursor.row + totalRows r.kept.lines = row') := by
  obtain ⟨hevicted, hrows⟩ := h.wrapped_rows hkeep
  have hlen := congrArg List.length hrows
  rw [length_allRows, length_append, length_allRows] at hlen
  have htail := h.tail_length
  have hpos := dimensions.one_le_rows
  have hkept := totalPhysicalRows_eq h.kept_inv
  rw [Reflowing.cursor, hposition, hevicted, reflowedCursor]
  by_cases hscreen : totalRows r.kept.lines ≤ row'
  · rw [if_pos ⟨Nat.zero_le _, by omega⟩]
    exact ⟨by simp only; omega, fun _ => by simp only; omega⟩
  · rw [if_neg (by omega)]
    exact ⟨by simp only; omega, fun hlt => by simp only at hlt; omega⟩

/-- A row of the tail after the cursor's row wraps into the row below it when the last row is empty:
then the cursor was in the last row of the last line. -/
theorem Sound.tail_wraps (h : buffer.Sound promise old) (hinv : scrollback.Inv)
    (r : Reflowing buffer dimensions scrollback)
    (hkeep : r.kept.contentRowOrigin = scrollback.contentRowOrigin)
    (hempty : ∃ row, r.tail.getLast? = some row ∧ row.cells = []) {k : Nat} (hk : r.cursor.row ≤ k)
    (hlt : k + 1 < r.tail.length) {row : ScreenRow} (hrow : r.tail[k]? = some row) :
    row.softWrapped = true := by
  have hflow := flow hinv r
  obtain ⟨-, hrows⟩ := hflow.wrapped_rows hkeep
  have hlen := congrArg List.length hrows
  rw [length_allRows, length_append, length_allRows] at hlen
  obtain ⟨column', row', hposition, hresolved⟩ := h.cursor_resolved hinv r
  obtain ⟨hcursor, htotal, hlast⟩ := h.folded_content hinv r
  obtain ⟨index, -, hin, hstart, hend⟩ := hresolved.sameLine
  obtain ⟨last, hlastRow, hlastEmpty⟩ := hempty
  have hwrappedLast : (allRows r.wrapped.lines).getLast? = some last := by
    rw [hrows, getLast?_append_of_ne_nil _ (ne_nil_of_length_pos (by omega)), hlastRow]
  -- the last row of the old content is the cursor's
  have hcursorLast : r.contentRows = buffer.cursor.row + 1 := by
    by_contra hne
    obtain ⟨full, hfull, hcells⟩ := hlast (by omega)
    have : ∃ row, (allRows r.wrapped.lines).getLast? = some row ∧ row.cells ≠ [] := by
      rw [r.wrapped_eq]
      split
      · exact hflow.folded_inv.reflow_last dimensions.two_le_columns hfull hcells
      · exact ⟨full, hfull, hcells⟩
    obtain ⟨full', hfull', hcells'⟩ := this
    cases hwrappedLast.symm.trans hfull'
    exact hcells' hlastEmpty
  have hlines : r.wrapped.lines.length = r.folded.lines.length := by
    simpa using congrArg List.length hflow.wrapped_keys
  have hindex := last_index hflow.folded_inv.toLayout (by omega) hin
  have hrow' : row' < totalRows r.wrapped.lines := by
    rw [take_of_length_le (by omega)] at hend
    exact hend
  have hplace := (hflow.cursor_row hkeep hposition hrow').2 (by omega)
  have hlastLine : r.wrapped.lines.length ≤ index + 1 := by omega
  refine wraps_of_last_line (k := totalRows r.kept.lines + k) hlastLine (by omega) (by omega) ?_
  rw [hrows, ← length_allRows, getElem?_append_right (Nat.le_add_right _ _),
    Nat.add_sub_cancel_left, hrow]

/-- A reflow that evicts nothing keeps the lines of the content. -/
theorem Sound.content_reflowed (h : buffer.Sound promise old) (hsb : scrollback.Good promise old.columns)
    (r : Reflowing buffer dimensions scrollback)
    (hwhole : ∀ row ∈ allRows r.folded.lines, Pairs row.cells)
    (hkeep : r.kept.contentRowOrigin = scrollback.contentRowOrigin) :
    ∃ rows, r.unclamped.content r.kept = some rows ∧
      logicalLines rows = logicalLines (allRows r.folded.lines) ∧ ∀ row ∈ rows, Pairs row.cells := by
  have hflow := flow hsb.toInv r
  obtain ⟨-, hrows⟩ := hflow.wrapped_rows hkeep
  obtain ⟨hscreen, htoRows⟩ := h.screen_eq hsb r hwhole
  have hok := h.wrapped_ok hsb r hwhole
  have htailOk : ∀ row ∈ r.tail, RowOk dimensions.columns row.cells := fun row hrow =>
    hok row (by rw [hrows]; exact mem_append_right _ hrow)
  have hfits : r.tail.length ≤ dimensions.rows := by
    rw [hflow.tail_length]
    exact Nat.min_le_left _ _
  have hscreenGood : (Screen.ofRows dimensions r.tail).Good promise :=
    Screen.ofRows_good dimensions hfits htailOk
  obtain ⟨rows, hshows⟩ := hscreenGood.shows
  rw [← hscreen] at hshows
  cases hshows.toRows.symm.trans htoRows
  obtain ⟨n, hn, -, hcursorLt, hafter, hlast⟩ := contentRows_of_shows hshows
    (by rw [show r.unclamped.screen = r.screen from rfl, hscreen]; exact r.cursor_inGrid.2)
  obtain ⟨column', row', hposition, hresolved⟩ := h.cursor_resolved hsb.toInv r
  obtain ⟨index, -, -, -, hend⟩ := hresolved.sameLine
  have hrow' : row' < totalRows r.wrapped.lines := Nat.lt_of_lt_of_le hend (by
    conv_rhs => rw [← take_append_drop (index + 1) r.wrapped.lines]
    rw [totalRows_append]
    omega)
  have hcursor := (hflow.cursor_row hkeep hposition hrow').1
  have hn' : n ≤ r.tail.length := by
    by_contra hlt
    obtain ⟨row, hrow, hcells⟩ := hlast (show r.cursor.row + 1 < n by omega)
    rw [getElem?_append_right (by omega)] at hrow
    have hblank := mem_of_getElem? hrow
    rw [eq_of_mem_replicate hblank] at hcells
    exact hcells rfl
  have htake : (r.tail ++ List.replicate (dimensions.rows - r.tail.length) Screen.blankRow).take n =
      r.tail.take n := take_append_of_le_length hn'
  refine ⟨allRows r.kept.lines ++ r.tail.take n, ?_, ?_, fun row hrow => ?_⟩
  · rw [content, hn, show r.unclamped.screen = r.screen from rfl, htoRows]
    simp only [some_bind]
    rw [htake]
  · rw [← hflow.wrapped_lines, hrows]
    by_cases hall : n = r.tail.length
    · rw [hall, take_length]
    -- the rows that are left out are empty and continue the cursor's line
    have hempty : ∀ row ∈ r.tail.drop n, row.cells = [] := fun row hrow => by
      obtain ⟨k, hk⟩ := mem_iff_getElem?.mp hrow
      rw [getElem?_drop] at hk
      refine hafter (n + k) row (Nat.le_add_right _ _) ?_
      rw [getElem?_append_left (List.getElem?_eq_some_iff.mp hk).1, hk]
    have hlastEmpty : ∃ row, r.tail.getLast? = some row ∧ row.cells = [] := by
      have hne : r.tail.drop n ≠ [] := ne_nil_of_length_pos (by rw [length_drop]; omega)
      refine ⟨(r.tail.drop n).getLast hne, ?_, hempty _ (getLast_mem hne)⟩
      conv_lhs => rw [← take_append_drop n r.tail]
      rw [getLast?_append_of_ne_nil _ hne, getLast?_eq_some_getLast hne]
    have hpos : 0 < n := Nat.lt_of_le_of_lt (Nat.zero_le _) hcursorLt
    have hwraps : ∀ {k row}, r.cursor.row ≤ k → k + 1 < r.tail.length → r.tail[k]? = some row →
        row.softWrapped = true := fun hk hlt hrow => h.tail_wraps hsb.toInv r hkeep hlastEmpty hk hlt hrow
    have hprev := getElem?_eq_getElem (show n - 1 < r.tail.length by omega)
    conv_rhs => rw [← take_append_drop n r.tail, ← append_assoc]
    refine (SoftWrap.lines_append_empty ?_
      (hwraps (Nat.le_sub_one_of_lt hcursorLt) (by omega) hprev) hempty fun row hrow => ?_).symm
    · rw [getLast?_append_of_ne_nil _ (ne_nil_of_length_pos (by rw [length_take]; omega)),
        getLast?_eq_getElem?, length_take, Nat.min_eq_left hn', getElem?_take,
        if_pos (by omega), hprev]
    · obtain ⟨k, hk⟩ := mem_iff_getElem?.mp hrow
      have hlt := (List.getElem?_eq_some_iff.mp hk).1
      rw [length_dropLast, length_drop] at hlt
      rw [getElem?_dropLast, if_pos (by rw [length_drop]; omega), getElem?_drop] at hk
      exact hwraps (show r.cursor.row ≤ n + k from by
        have := hcursorLt
        simp only [Reflowing.unclamped] at this
        omega) (by omega) hk
  · refine (hok row ?_).pairs
    rw [hrows]
    rcases mem_append.mp hrow with hmem | hmem
    · exact mem_append_left _ hmem
    · exact mem_append_right _ (mem_of_mem_take hmem)

end BufferState

end FesTerm
