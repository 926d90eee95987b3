import FesTerm.Core.Proofs.IntegrityProofs
import FesTerm.Core.Proofs.SnapshotProofs

/-!
# Resizing a terminal

A resize that evicts nothing keeps the logical lines of the primary content, and with them the text of a
snapshot, as long as no row of the content has a torn pair. Under the same condition a position that
names an occupied cell is moved to where that cell is afterwards.
-/

namespace FesTerm

open Checked List Option

theorem BufferState.clampSavedStates_grid {buffer buffer' : BufferState} {dimensions : Dimensions}
    (h : buffer.clampSavedStates dimensions = some buffer') :
    buffer'.screen = buffer.screen ∧ buffer'.cursor = buffer.cursor := by
  unfold BufferState.clampSavedStates at h
  simp only [bind_eq_bind] at h
  split at h
  · rw [bind_some] at h
    rw [← some.inj h]
    exact ⟨rfl, rfl⟩
  · obtain ⟨row, -, h⟩ := bind_eq_some_iff.mp h
    rw [bind_some] at h
    rw [← some.inj h]
    exact ⟨rfl, rfl⟩

namespace Terminal

variable [Platform] {promise : Promise} {terminal terminal' : Terminal}

/-- What a resize does to the primary buffer and the history. -/
structure Resized (terminal : Terminal) (dimensions : Dimensions) (terminal' : Terminal)
    (r : BufferState.Reflowing terminal.primary dimensions terminal.scrollback) : Prop where
  screen : terminal'.primary.screen = r.screen
  cursor : terminal'.primary.cursor = r.cursor
  scrollback : terminal'.scrollback = r.kept
  modes : terminal'.modes = terminal.modes

theorem Steady.resized (h : terminal.Steady promise) (dimensions : Dimensions)
    (positions : List ContentPosition) :
    ∃ terminal' r, terminal.resizeWithContentPositions dimensions positions =
        some (terminal', positions.map r.moved) ∧ terminal'.Steady promise ∧
      Resized terminal dimensions terminal' r := by
  obtain ⟨⟨terminal', moved⟩, heq, hsteady⟩ := h.resizeWithContentPositions dimensions positions
  obtain ⟨r, -, -, -⟩ := h.toGood.buffers.1.toSound.reflowing h.history dimensions
  have heq' := heq
  unfold Terminal.resizeWithContentPositions at heq'
  rw [r.reflowed_eq] at heq'
  obtain ⟨⟨primary, kept, moved'⟩, hreflowed, heq'⟩ := bind_eq_some_iff.mp heq'
  obtain ⟨clamped, hclamp, hpack⟩ := map_eq_some_iff.mp hreflowed
  obtain ⟨rfl, hrest⟩ := Prod.mk.inj hpack
  cases hrest
  obtain ⟨alternate, -, heq'⟩ := bind_eq_some_iff.mp heq'
  cases heq'
  obtain ⟨hscreen, hcursor⟩ := BufferState.clampSavedStates_grid hclamp
  exact ⟨_, r, heq, hsteady, hscreen, hcursor, rfl, rfl⟩

/-! ## Content -/

/-- Every wide character in the content, history included, has both its halves. -/
def ContentWhole (terminal : Terminal) : Prop :=
  ∀ rows ∈ terminal.primary.content terminal.scrollback, ∀ row ∈ rows, Paired row.cells

/-- The resize evicts no line of the history and trims none. -/
def resizeRetains (terminal : Terminal) (dimensions : Dimensions) : Bool :=
  (terminal.resize dimensions).all fun terminal' =>
    terminal'.scrollback.evictedLines == terminal.scrollback.evictedLines &&
      terminal'.scrollback.contentRowOrigin == terminal.scrollback.contentRowOrigin

/-- The same content as another terminal, and in it no torn pair. -/
structure SameContent (terminal terminal' : Terminal) : Prop where
  whole : terminal'.ContentWhole
  content : terminal'.logicalContent = terminal.logicalContent
  evictedLines : terminal'.scrollback.evictedLines = terminal.scrollback.evictedLines
  modes : terminal'.modes = terminal.modes

variable {dimensions : Dimensions} {rows : List ScreenRow} {row : Nat} {cell : Cell} {position : ContentPosition}

variable {r : BufferState.Reflowing terminal.primary dimensions terminal.scrollback}

theorem Resized.content_eq (h : Resized terminal dimensions terminal' r) :
    terminal'.primary.content terminal'.scrollback = r.unclamped.content r.kept := by
  rw [BufferState.content, BufferState.content, BufferState.contentRows, BufferState.contentRows,
    h.screen, h.cursor, h.scrollback]
  rfl

theorem Steady.resize_content (h : terminal.Steady promise) (hwhole : terminal.ContentWhole)
    (dimensions : Dimensions) (hretains : terminal.resizeRetains dimensions = true) :
    ∃ terminal', terminal.resize dimensions = some terminal' ∧ terminal'.Steady promise ∧
      SameContent terminal terminal' := by
  obtain ⟨terminal', r, heq, hsteady, hresized⟩ := h.resized dimensions []
  have hresize : terminal.resize dimensions = some terminal' := by
    rw [Terminal.resize, heq]
    rfl
  rw [resizeRetains, hresize] at hretains
  simp only [all_some, Bool.and_eq_true, beq_iff_eq] at hretains
  have hflow := BufferState.flow h.history.toInv r
  have hbefore := hflow.content_eq
  obtain ⟨rows, hrows, hlines, hpairs⟩ := h.toGood.buffers.1.toSound.content_reflowed h.history r
    (fun row hrow => (hwhole _ hbefore row hrow).pairs) (by rw [← hresized.scrollback]; exact hretains.2)
  rw [← hresized.content_eq] at hrows
  refine ⟨terminal', hresize, hsteady, ⟨fun rows' hrows' row hrow => ?_, ?_, hretains.1, hresized.modes⟩⟩
  · cases hrows.symm.trans hrows'
    exact (hpairs row hrow).paired
  · rw [logicalContent, logicalContent, hrows, hbefore, map_some, map_some, hlines]

/-- Resizes to these sizes, in order. -/
def resizes (terminal : Terminal) (sizes : List Dimensions) : Option Terminal := sizes.foldlM resize terminal

/-- None of the resizes evicts or trims. -/
def resizesRetain (terminal : Terminal) (sizes : List Dimensions) : Bool :=
  holdsAlong resize resizeRetains terminal sizes

theorem Steady.resizes_content (h : terminal.Steady promise) (hwhole : terminal.ContentWhole)
    (sizes : List Dimensions) (hretains : terminal.resizesRetain sizes = true) :
    ∃ terminal', terminal.resizes sizes = some terminal' ∧ terminal'.Steady promise ∧
      SameContent terminal terminal' :=
  foldlM_along (fun reached : Terminal => Steady promise reached ∧ SameContent terminal reached)
    ⟨h, hwhole, rfl, rfl, rfl⟩ hretains fun reached dimensions hreached hok => by
      obtain ⟨next, hnext, hsteady, hsame⟩ := hreached.1.resize_content hreached.2.whole dimensions hok
      exact ⟨next, hnext, hsteady, hsame.whole, hsame.content.trans hreached.2.content,
        hsame.evictedLines.trans hreached.2.evictedLines, hsame.modes.trans hreached.2.modes⟩

theorem Steady.textSnapshot_eq (h : terminal.Steady promise) (h' : terminal'.Steady promise)
    (hsame : SameContent terminal terminal') (hprimary : terminal.modes.alternateScreen = false) :
    terminal'.textSnapshot = terminal.textSnapshot := by
  have hempty : SnapshotAccumulator.unbounded.bytes = 0 := rfl
  obtain ⟨lines, hlines, hsnapshot⟩ := snapshot_eq h.toGood.buffers.1.toSound h.history.toInv hprimary hempty
  obtain ⟨lines', hlines', hsnapshot'⟩ := snapshot_eq h'.toGood.buffers.1.toSound h'.history.toInv
    (by rw [hsame.modes]; exact hprimary) hempty
  rw [hsame.content, hlines] at hlines'
  cases hlines'
  rw [textSnapshot, textSnapshot, hsnapshot, hsnapshot', hsame.evictedLines]

/-- Resizes that retain the history lose and invent no content. -/
theorem resizes_keep_content {dimensions : Dimensions} {limitBytes : ByteLimit} {events : List Event}
    (hrun : (withScrollbackLimit dimensions limitBytes).run events = some terminal)
    (hwhole : terminal.ContentWhole) (sizes : List Dimensions)
    (hretains : terminal.resizesRetain sizes = true) :
    ∃ terminal' lines, terminal.resizes sizes = some terminal' ∧
      terminal.logicalContent = some lines ∧ terminal'.logicalContent = some lines ∧
      (terminal.modes.alternateScreen = false → terminal'.textSnapshot = terminal.textSnapshot) := by
  have hsteady := steady_of_run hrun
  obtain ⟨terminal', heq, hsteady', hsame⟩ := hsteady.resizes_content hwhole sizes hretains
  obtain ⟨r, -, -, -⟩ := hsteady.toGood.buffers.1.toSound.reflowing hsteady.history terminal.dimensions
  have hlines : terminal.logicalContent = some (logicalLines (Scrollback.allRows r.folded.lines)) := by
    rw [logicalContent, (BufferState.flow hsteady.history.toInv r).content_eq]
    rfl
  exact ⟨terminal', _, heq, hlines, hsame.content.trans hlines, hsteady.textSnapshot_eq hsteady' hsame⟩

theorem Steady.contentWhole (h : terminal.Steady promise) (hpairs : promise.pairs = true) :
    terminal.ContentWhole := by
  intro rows hrows row hrow
  have hsound := h.toGood.buffers.1.toSound
  obtain ⟨r, -, -, -⟩ := hsound.reflowing h.history terminal.dimensions
  have hcontent := (BufferState.flow h.history.toInv r).content_eq
  cases hcontent.symm.trans hrows
  exact (((hsound.folded_good h.history r).rows row hrow).pairs hpairs).paired

section

omit [Platform]

def wrappedText : List UInt8 := ascii "abc" ++ [0xe7, 0x95, 0x8c] ++ ascii "de\r\nfghij\r\nk"

theorem resizes_keep_content_wrapped :
    letI := Platform.reference
    ∃ terminal, (withScrollbackLimit sampleGrid none).run [.ingest wrappedText] = some terminal ∧
      ∃ terminal' lines, terminal.resizes [wideGrid, sampleGrid] = some terminal' ∧
        terminal.logicalContent = some lines ∧ terminal'.logicalContent = some lines ∧
        (terminal.modes.alternateScreen = false → terminal'.textSnapshot = terminal.textSnapshot) := by
  let _ := Platform.reference
  have hkeeps : (withScrollbackLimit sampleGrid none).keeps .wholePairs [.ingest wrappedText] = true := by
    decide +kernel
  obtain ⟨terminal, hrun, hsteady⟩ := run_steady .wholePairs sampleGrid none hkeeps
  have hretains : ((withScrollbackLimit sampleGrid none).run [.ingest wrappedText]).all
      (·.resizesRetain [wideGrid, sampleGrid]) = true := by decide +kernel
  rw [hrun, all_some] at hretains
  exact ⟨terminal, hrun, resizes_keep_content hrun (hsteady.contentWhole rfl) _ hretains⟩

def unmarkedHalf : List UInt8 := ascii "\x1b[1\"q" ++ [0xe7, 0x95, 0x8c] ++ ascii "\x1b[2G\x1b[?K"

/-- The resize that follows drops the character. -/
theorem content_lost_by_resize :
    letI := Platform.reference
    ∃ terminal terminal', (withScrollbackLimit sampleGrid none).run [.ingest unmarkedHalf] = some terminal ∧
      terminal.resizeRetains wideGrid = true ∧ terminal.resize wideGrid = some terminal' ∧
      terminal'.logicalContent ≠ terminal.logicalContent ∧
      terminal'.textSnapshot ≠ terminal.textSnapshot := by
  let _ := Platform.reference
  have hlost : ((withScrollbackLimit sampleGrid none).run [.ingest unmarkedHalf]).any (fun terminal =>
      terminal.resizeRetains wideGrid && (terminal.resize wideGrid).any fun terminal' =>
        decide (terminal'.logicalContent ≠ terminal.logicalContent) &&
          decide (terminal'.textSnapshot ≠ terminal.textSnapshot)) = true := by decide +kernel
  obtain ⟨terminal, hrun, hlost⟩ := (Option.any_eq_true _ _).mp hlost
  rw [Bool.and_eq_true] at hlost
  obtain ⟨terminal', hresize, hdiffer⟩ := (Option.any_eq_true _ _).mp hlost.2
  rw [Bool.and_eq_true] at hdiffer
  exact ⟨terminal, terminal', hrun, hlost.1, hresize, of_decide_eq_true hdiffer.1,
    of_decide_eq_true hdiffer.2⟩

end

/-! ## Positions -/

/-- The cell at a content position: in a row of the history, or in the occupied part of a row of the
primary screen. -/
def contentCell (terminal : Terminal) (position : ContentPosition) : Option Cell :=
  let history := terminal.scrollback
  if position.absoluteRow < history.screenRowOrigin then
    if history.contentRowOrigin ≤ position.absoluteRow then do
      let cells ← history.physicalRow (position.absoluteRow - history.contentRowOrigin)
      (← cells)[position.column]?
    else none
  else if position.absoluteRow - history.screenRowOrigin < terminal.primary.screen.dimensions.rows then do
    let cells ← terminal.primary.screen.occupiedRowCells (position.absoluteRow - history.screenRowOrigin)
    cells[position.column]?
  else none

/-- The rows of the history and of the primary screen. -/
def allContentRows (terminal : Terminal) : Option (List ScreenRow) := do
  let rows ← terminal.primary.screen.toRows
  some (Scrollback.allRows terminal.scrollback.lines ++ rows)

def contentCells (terminal : Terminal) : Option (List Cell) :=
  terminal.allContentRows.map (·.flatMap ScreenRow.cells)

/-- How many of these cells come before a position. -/
def contentIndex (terminal : Terminal) (position : ContentPosition) : Option Nat := do
  let rows ← terminal.allContentRows
  let row ← BufferState.relativeRow terminal.scrollback position.absoluteRow
  some (Scrollback.cellOffset rows row + position.column)

def CellAt (rows : List ScreenRow) (row column : Nat) (cell : Cell) : Prop :=
  ∃ r, rows[row]? = some r ∧ r.cells[column]? = some cell

variable {column : Nat}

omit [Platform] in
theorem CellAt.index (h : CellAt rows row column cell) :
    (rows.flatMap ScreenRow.cells)[Scrollback.cellOffset rows row + column]? = some cell ∧
      Scrollback.cellOffset rows row + column < Scrollback.cellOffset rows (row + 1) := by
  obtain ⟨r, hr, hc⟩ := h
  have hlt := (List.getElem?_eq_some_iff.mp hc).1
  refine ⟨(SoftWrap.getElem?_flatMap hr hlt).trans hc, ?_⟩
  have hnext : Scrollback.cellOffset rows (row + 1) = Scrollback.cellOffset rows row + r.cells.length :=
    SoftWrap.offset_succ hr
  omega

omit [Platform] in
theorem cellAt_of_index (hin : Scrollback.cellOffset rows row + column < Scrollback.cellOffset rows (row + 1))
    (hcell : (rows.flatMap ScreenRow.cells)[Scrollback.cellOffset rows row + column]? = some cell) :
    CellAt rows row column cell := by
  have hlt : row < rows.length := by
    by_contra hge
    rw [Scrollback.cellOffset, Scrollback.cellOffset, SoftWrap.offset_of_length_le (by omega),
      SoftWrap.offset_of_length_le (by omega)] at hin
    omega
  have hrow := getElem?_eq_getElem hlt
  rw [Scrollback.cellOffset, Scrollback.cellOffset, SoftWrap.offset_succ hrow] at hin
  rw [Scrollback.cellOffset, SoftWrap.getElem?_flatMap hrow (by omega)] at hcell
  exact ⟨rows[row], hrow, hcell⟩

theorem physicalRow_eq {sb : Scrollback} (h : sb.Layout) (hrow : row < totalRows sb.lines) :
    sb.physicalRow row = some (((Scrollback.allRows sb.lines)[row]?).map ScreenRow.cells) := by
  obtain ⟨index, line, localRow, heq, hat, hlocal⟩ := h.lineAt_of_lt hrow
  have hok := h.lines_ok line (mem_of_getElem? hat.getElem)
  rw [hat.getElem?_allRows hlocal, LogicalLine.screenRows_getElem? hlocal, Scrollback.physicalRow, heq]
  exact hok.physicalRow hlocal

/-- The cell at a position is the one in its row of the content. -/
theorem contentCell_eq_some (hinv : terminal.scrollback.Inv) (hshows : terminal.primary.screen.Shows rows) :
    terminal.contentCell position = some cell ↔
      ∃ row, BufferState.relativeRow terminal.scrollback position.absoluteRow = some row ∧
        CellAt (Scrollback.allRows terminal.scrollback.lines ++ rows) row position.column cell := by
  have htotal := BufferState.totalPhysicalRows_eq hinv
  have hlen := Scrollback.length_allRows terminal.scrollback.lines
  have hscreen := hinv.screen
  rw [contentCell, BufferState.relativeRow]
  by_cases hhistory : position.absoluteRow < terminal.scrollback.screenRowOrigin
  · rw [if_pos hhistory, if_pos hhistory]
    by_cases horigin : terminal.scrollback.contentRowOrigin ≤ position.absoluteRow
    · have hrow : position.absoluteRow - terminal.scrollback.contentRowOrigin <
          totalRows terminal.scrollback.lines := by omega
      rw [if_pos horigin, if_pos ⟨horigin, by omega⟩, physicalRow_eq hinv.toLayout hrow]
      have hget := getElem?_eq_getElem (Nat.lt_of_lt_of_eq hrow hlen.symm)
      rw [hget]
      simp only [map_some, some_bind, some.injEq]
      constructor
      · intro hcell
        exact ⟨_, rfl, ⟨_, by rw [getElem?_append_left (by omega), hget], hcell⟩⟩
      · rintro ⟨row, rfl, r, hr, hcell⟩
        rw [getElem?_append_left (by omega), hget] at hr
        rw [some.inj hr]
        exact hcell
    · rw [if_neg horigin, if_neg (by omega)]
      constructor
      · intro hcell
        cases hcell
      · rintro ⟨row, hrow, -⟩
        cases hrow
  · rw [if_neg hhistory, if_neg hhistory]
    have hplace : terminal.scrollback.totalPhysicalRows +
        (position.absoluteRow - terminal.scrollback.screenRowOrigin) =
          (Scrollback.allRows terminal.scrollback.lines).length +
            (position.absoluteRow - terminal.scrollback.screenRowOrigin) := by omega
    rw [hplace]
    by_cases hrow : position.absoluteRow - terminal.scrollback.screenRowOrigin <
        terminal.primary.screen.dimensions.rows
    · have hget := getElem?_eq_getElem (Nat.lt_of_lt_of_eq hrow hshows.length.symm)
      rw [if_pos hrow, hshows.cells _ _ hget]
      simp only [some_bind, some.injEq]
      constructor
      · intro hcell
        exact ⟨_, rfl, ⟨_, by rw [getElem?_append_right (Nat.le_add_right _ _),
          Nat.add_sub_cancel_left, hget], hcell⟩⟩
      · rintro ⟨row, rfl, r, hr, hcell⟩
        rw [getElem?_append_right (Nat.le_add_right _ _), Nat.add_sub_cancel_left, hget] at hr
        rw [some.inj hr]
        exact hcell
    · rw [if_neg hrow]
      constructor
      · intro hcell
        cases hcell
      · rintro ⟨row, hrow', r, hr, -⟩
        rw [← some.inj hrow', getElem?_append_right (Nat.le_add_right _ _),
          Nat.add_sub_cancel_left, getElem?_eq_none (by rw [hshows.length]; omega)] at hr
        cases hr

omit [Platform] in
theorem CellAt.of_append {rows' : List ScreenRow}
    (h : CellAt (rows ++ rows') row column cell) (hempty : ∀ r ∈ rows', r.cells = []) :
    row < rows.length ∧ CellAt rows row column cell := by
  obtain ⟨r, hr, hc⟩ := h
  have hlt : row < rows.length := by
    by_contra hge
    rw [getElem?_append_right (by omega)] at hr
    rw [hempty r (mem_of_getElem? hr)] at hc
    cases hc
  rw [getElem?_append_left hlt] at hr
  exact ⟨hlt, r, hr, hc⟩

omit [Platform] in
theorem flatMap_cells_empty (hempty : ∀ r ∈ rows, r.cells = []) :
    rows.flatMap ScreenRow.cells = [] :=
  flatMap_eq_nil_iff.mpr hempty

section

variable {old dimensions : Dimensions} {buffer : BufferState} {scrollback : Scrollback}

theorem folded_rows_split (h : buffer.Sound promise old) (hinv : scrollback.Inv)
    (r : BufferState.Reflowing buffer dimensions scrollback) :
    Scrollback.allRows scrollback.lines ++ r.screenRows =
        Scrollback.allRows r.folded.lines ++ r.screenRows.drop r.contentRows ∧
      ∀ row ∈ r.screenRows.drop r.contentRows, row.cells = [] := by
  obtain ⟨rows, hshows⟩ := h.screen.shows
  obtain rfl : rows = r.screenRows := some.inj (hshows.toRows.symm.trans r.screenRows_eq)
  obtain ⟨n, hn, -, -, hafter, -⟩ := BufferState.contentRows_of_shows hshows
    (by rw [h.dims]; exact h.cursor.2)
  obtain rfl : n = r.contentRows := some.inj (hn.symm.trans r.contentRows_eq)
  refine ⟨?_, fun row hrow => ?_⟩
  · rw [(BufferState.flow hinv r).folded_rows, append_assoc, take_append_drop]
  · obtain ⟨k, hk⟩ := mem_iff_getElem?.mp hrow
    rw [getElem?_drop] at hk
    exact hafter _ row (Nat.le_add_right _ _) hk

theorem wrapped_cells (h : buffer.Sound promise old) (hinv : scrollback.Inv)
    (r : BufferState.Reflowing buffer dimensions scrollback) :
    (Scrollback.allRows r.wrapped.lines).flatMap ScreenRow.cells =
      (Scrollback.allRows scrollback.lines ++ r.screenRows).flatMap ScreenRow.cells := by
  obtain ⟨hsplit, hempty⟩ := folded_rows_split h hinv r
  have hlines := congrArg List.flatten (BufferState.flow hinv r).wrapped_lines
  rw [SoftWrap.flatten_lines, SoftWrap.flatten_lines] at hlines
  rw [hlines, hsplit, flatMap_append, flatMap_cells_empty hempty, append_nil]

theorem cell_resolved (h : buffer.Sound promise old) (hinv : scrollback.Inv)
    (r : BufferState.Reflowing buffer dimensions scrollback) {row : Nat} {cell : Cell}
    (hcell : CellAt (Scrollback.allRows scrollback.lines ++ r.screenRows) row column cell) :
    row < totalRows r.folded.lines ∧ ∀ anchor, r.folded.lineAndOffsetAt row column = some anchor →
      ∃ column' row', r.position anchor = some (column', row') ∧
        CellAt (Scrollback.allRows r.wrapped.lines) row' column' cell ∧
        Scrollback.cellOffset (Scrollback.allRows r.wrapped.lines) row' + column' =
          Scrollback.cellOffset (Scrollback.allRows scrollback.lines ++ r.screenRows) row + column := by
  have hflow := BufferState.flow hinv r
  obtain ⟨hsplit, hempty⟩ := folded_rows_split h hinv r
  have hindex := hcell.index.1
  rw [← wrapped_cells h hinv r] at hindex
  rw [hsplit] at hcell hindex ⊢
  obtain ⟨hlt, hfolded⟩ := hcell.of_append hempty
  have hoffset : Scrollback.cellOffset (Scrollback.allRows r.folded.lines ++
      r.screenRows.drop r.contentRows) row = Scrollback.cellOffset (Scrollback.allRows r.folded.lines) row :=
    SoftWrap.offset_append (Nat.le_of_lt hlt)
  rw [hoffset] at hindex ⊢
  rw [Scrollback.length_allRows] at hlt
  refine ⟨hlt, fun anchor hanchor => ?_⟩
  obtain ⟨column', row', hposition, hresolved⟩ := hflow.resolved hlt column hanchor
  have hin := hfolded.index.2
  have heq := hresolved.offset_eq
  rw [Nat.min_eq_left (Nat.le_of_lt hin)] at heq
  rw [← heq] at hindex
  exact ⟨column', row', hposition, cellAt_of_index (hresolved.inside hin) hindex, heq⟩

/-- The rows after a reflow. -/
abbrev reflowedRows (r : BufferState.Reflowing buffer dimensions scrollback) : List ScreenRow :=
  Scrollback.allRows r.kept.lines ++
    (r.tail ++ List.replicate (dimensions.rows - r.tail.length) Screen.blankRow)

/-- What becomes of a place of the rewrapped rows that holds a cell: it is among the cells that are lost
at the front, or it stays, as many cells further to the front. -/
def Placed (r : BufferState.Reflowing buffer dimensions scrollback) (lost : Nat) : Prop :=
  ∀ row column cell, CellAt (Scrollback.allRows r.wrapped.lines) row column cell →
    (row < r.evictedRows ∧
      Scrollback.cellOffset (Scrollback.allRows r.wrapped.lines) row + column < lost) ∨
    (r.evictedRows ≤ row ∧ row - r.evictedRows < totalRows r.kept.lines + dimensions.rows ∧
      CellAt (reflowedRows r) (row - r.evictedRows) column cell ∧
      lost + (Scrollback.cellOffset (reflowedRows r) (row - r.evictedRows) + column) =
        Scrollback.cellOffset (Scrollback.allRows r.wrapped.lines) row + column)

/-- The cells after a reflow are those before it without what is lost at the front. -/
theorem reflowed_cells (hinv : scrollback.Inv) (r : BufferState.Reflowing buffer dimensions scrollback) :
    ∃ lost, (reflowedRows r).flatMap ScreenRow.cells =
        ((Scrollback.allRows r.wrapped.lines).flatMap ScreenRow.cells).drop lost ∧
      (r.evictedRows = 0 → lost = 0) ∧
      Placed r lost := by
  have hflow := BufferState.flow hinv r
  obtain ⟨dropped, hrows, hlen⟩ := hflow.rows
  have hblank : ∀ row ∈ List.replicate (dimensions.rows - r.tail.length) Screen.blankRow,
      row.cells = [] := fun row hrow => by rw [eq_of_mem_replicate hrow]; rfl
  have hreflowed : reflowedRows r = (Scrollback.allRows r.kept.lines ++ r.tail) ++
      List.replicate (dimensions.rows - r.tail.length) Screen.blankRow := (append_assoc _ _ _).symm
  refine ⟨(dropped.flatMap ScreenRow.cells).length, ?_, fun hzero => ?_, fun row column cell hcell => ?_⟩
  · rw [hreflowed, flatMap_append, flatMap_cells_empty hblank, append_nil, hrows]
    conv_rhs => rw [flatMap_append, drop_left]
  · rw [length_eq_zero_iff.mp (hlen.trans hzero)]
    rfl
  · have hin := hcell.index.2
    by_cases hlt : row < r.evictedRows
    · refine .inl ⟨hlt, Nat.lt_of_lt_of_le hin ?_⟩
      have hle : Scrollback.cellOffset (Scrollback.allRows r.wrapped.lines) (row + 1) ≤
          Scrollback.cellOffset (Scrollback.allRows r.wrapped.lines) dropped.length :=
        SoftWrap.offset_mono (by omega)
      refine Nat.le_trans hle (Nat.le_of_eq ?_)
      rw [hrows, Scrollback.cellOffset, SoftWrap.offset_append le_rfl, SoftWrap.offset_of_length_le le_rfl]
    · obtain ⟨k, rfl⟩ : ∃ k, row = dropped.length + k := ⟨row - dropped.length, by omega⟩
      have hk : dropped.length + k - r.evictedRows = k := by omega
      obtain ⟨found, hfound, hcolumn⟩ := hcell
      rw [hrows, getElem?_append_right (Nat.le_add_right _ _), Nat.add_sub_cancel_left] at hfound
      have hklt := (List.getElem?_eq_some_iff.mp hfound).1
      rw [hk]
      have htail : r.tail.length ≤ dimensions.rows := by
        rw [hflow.tail_length]
        exact Nat.min_le_left _ _
      refine .inr ⟨by omega, ?_, ⟨found, ?_, hcolumn⟩, ?_⟩
      · rw [length_append, Scrollback.length_allRows] at hklt
        omega
      · rw [hreflowed, getElem?_append_left hklt, hfound]
      · rw [hreflowed, hrows, Scrollback.cellOffset, Scrollback.cellOffset,
          SoftWrap.offset_append (Nat.le_of_lt hklt), SoftWrap.offset_append_add, Nat.add_assoc]

theorem rebase_eq {kept : Scrollback} (hinv : kept.Inv) (dimensions : Dimensions) {evicted row : Nat}
    (column : Nat) (hle : evicted ≤ row) (hlt : row - evicted < totalRows kept.lines + dimensions.rows) :
    ∃ position, BufferState.rebase kept dimensions evicted column row = some position ∧
      position.column = column ∧
      BufferState.relativeRow kept position.absoluteRow = some (row - evicted) := by
  have htotal := BufferState.totalPhysicalRows_eq hinv
  have hscreen := hinv.screen
  refine ⟨⟨column, if row - evicted < kept.totalPhysicalRows then kept.contentRowOrigin + (row - evicted)
    else kept.screenRowOrigin + (row - evicted - kept.totalPhysicalRows)⟩, ?_, rfl, ?_⟩
  · rw [BufferState.rebase, if_pos hle]
    exact if_pos (by rw [htotal]; exact hlt)
  · rw [BufferState.relativeRow, htotal]
    simp only
    split
    · rw [if_pos (by omega), if_pos (by omega), Nat.add_sub_cancel_left]
    · rw [if_neg (by omega)]
      exact congrArg some (by omega)

end

/-- What a resize does to positions that name cells. The cells of the content stay, except that `lost` of
them go with the oldest rows; a position goes with its cell. -/
structure PositionsKept (terminal : Terminal) (positions : List ContentPosition) (terminal' : Terminal)
    (moved : List (Option ContentPosition)) (cells : List Cell) (lost : Nat) : Prop where
  cells_before : terminal.contentCells = some cells
  cells_after : terminal'.contentCells = some (cells.drop lost)
  retained : terminal'.scrollback.contentRowOrigin = terminal.scrollback.contentRowOrigin → lost = 0
  length : moved.length = positions.length
  positions : ∀ (k : Nat) (position : ContentPosition) (cell : Cell), positions[k]? = some position →
    terminal.contentCell position = some cell →
    ∃ index, terminal.contentIndex position = some index ∧ cells[index]? = some cell ∧
      (index < lost ∧ moved[k]? = some none ∨
        ∃ position', lost ≤ index ∧ moved[k]? = some (some position') ∧
          terminal'.contentCell position' = some cell ∧
          terminal'.contentIndex position' = some (index - lost))

omit [Platform] in
def cursorContentPosition (terminal : Terminal) : ContentPosition :=
  ⟨terminal.primary.cursor.column, terminal.scrollback.screenRowOrigin + terminal.primary.cursor.row⟩

/-- A cursor on a cell that is on the screen afterwards stays on it. -/
structure CursorKept (terminal terminal' : Terminal) (lost : Nat) : Prop where
  onCell : ∀ cell index, terminal.contentCell terminal.cursorContentPosition = some cell →
    terminal.contentIndex terminal.cursorContentPosition = some index →
    lost + ((Scrollback.allRows terminal'.scrollback.lines).flatMap ScreenRow.cells).length ≤ index →
    terminal'.contentCell terminal'.cursorContentPosition = some cell

omit [Platform] in
theorem allContentRows_eq (h : terminal.primary.screen.Shows rows) :
    terminal.allContentRows = some (Scrollback.allRows terminal.scrollback.lines ++ rows) := by
  rw [allContentRows, h.toRows]
  rfl

omit [Platform] in
theorem contentIndex_eq (h : terminal.primary.screen.Shows rows)
    (hrow : BufferState.relativeRow terminal.scrollback position.absoluteRow = some row) :
    terminal.contentIndex position = some (Scrollback.cellOffset
      (Scrollback.allRows terminal.scrollback.lines ++ rows) row + position.column) := by
  rw [contentIndex, allContentRows_eq h, hrow]
  rfl

theorem Resized.shows (hresized : Resized terminal dimensions terminal' r) (h : terminal.Steady promise)
    (h' : terminal'.Steady promise) (hwhole : terminal.ContentWhole) : terminal'.primary.screen.Shows
      (r.tail ++ List.replicate (dimensions.rows - r.tail.length) Screen.blankRow) := by
  have hsound := h.toGood.buffers.1.toSound
  have hcontent := (BufferState.flow h.history.toInv r).content_eq
  obtain ⟨-, htoRows⟩ := hsound.screen_eq h.history r
    fun row hrow => (hwhole _ hcontent row hrow).pairs
  obtain ⟨rows, hshows⟩ := h'.toGood.buffers.1.screen.shows
  rw [← hresized.screen] at htoRows
  cases hshows.toRows.symm.trans htoRows
  exact hshows

theorem Steady.shows (h : terminal.Steady promise)
    (r : BufferState.Reflowing terminal.primary dimensions terminal.scrollback) :
    terminal.primary.screen.Shows r.screenRows := by
  obtain ⟨rows, hshows⟩ := h.toGood.buffers.1.screen.shows
  cases hshows.toRows.symm.trans r.screenRows_eq
  exact hshows

variable {lost : Nat}

/-- A position goes with its cell. -/
theorem Resized.moved_eq (hresized : Resized terminal dimensions terminal' r) (h : terminal.Steady promise)
    (h' : terminal'.Steady promise) (hwhole : terminal.ContentWhole) (hplace : Placed r lost)
    (hcell : terminal.contentCell position = some cell) : ∃ index, terminal.contentIndex position = some index ∧
      (index < lost ∧ r.moved position = none ∨
        ∃ position', lost ≤ index ∧ r.moved position = some position' ∧
          terminal'.contentCell position' = some cell ∧
          terminal'.contentIndex position' = some (index - lost)) := by
  have hinv := h.history.toInv
  have hshows := h.shows r
  have hshows' := hresized.shows h h' hwhole
  obtain ⟨row, hrow, hat⟩ := (contentCell_eq_some hinv hshows).mp hcell
  obtain ⟨hlt, hresolve⟩ := cell_resolved h.toGood.buffers.1.toSound hinv r hat
  have hanchor := r.anchor_eq position
  rw [BufferState.positionAnchor, hrow] at hanchor
  simp only at hanchor
  rw [if_pos (by rw [BufferState.totalPhysicalRows_eq (BufferState.flow hinv r).folded_inv]; exact hlt)]
    at hanchor
  obtain ⟨column', row', hposition, hcellW, hoffset⟩ := hresolve _ hanchor
  refine ⟨_, contentIndex_eq hshows hrow, ?_⟩
  rw [← hoffset, BufferState.Reflowing.moved, hposition, bind_some]
  rcases hplace row' column' cell hcellW with ⟨hgone, hlost⟩ | ⟨hle, hbound, hcell', hindex⟩
  · refine .inl ⟨hlost, ?_⟩
    rw [BufferState.rebase, if_neg (by simp only; omega)]
  · obtain ⟨position', hrebase, rfl, hrel⟩ :=
      rebase_eq (BufferState.flow hinv r).kept_inv dimensions column' hle hbound
    rw [← hresized.scrollback] at hrel
    refine .inr ⟨position', by omega, hrebase, ?_, ?_⟩
    · refine (contentCell_eq_some h'.history.toInv hshows').mpr ⟨_, hrel, ?_⟩
      rw [hresized.scrollback]
      exact hcell'
    · rw [contentIndex_eq hshows' hrel, hresized.scrollback]
      change some (Scrollback.cellOffset (reflowedRows r) _ + _) = _
      exact congrArg some (by omega)

/-- The cursor goes with its cell. -/
theorem Resized.cursor_eq (hresized : Resized terminal dimensions terminal' r) (h : terminal.Steady promise)
    (h' : terminal'.Steady promise) (hwhole : terminal.ContentWhole) (hplace : Placed r lost) :
    CursorKept terminal terminal' lost := by
  have hinv := h.history.toInv
  have hsound := h.toGood.buffers.1.toSound
  have hflow := BufferState.flow hinv r
  have hshows := h.shows r
  have hshows' := hresized.shows h h' hwhole
  refine ⟨fun cell index hcell hindex hvisible => ?_⟩
  obtain ⟨row, hrow, hat⟩ := (contentCell_eq_some hinv hshows).mp hcell
  obtain ⟨-, hresolve⟩ := cell_resolved hsound hinv r hat
  have hcursorRow : row = totalRows terminal.scrollback.lines + terminal.primary.cursor.row := by
    rw [cursorContentPosition, BufferState.relativeRow, if_neg (by simp only; omega),
      BufferState.totalPhysicalRows_eq hinv] at hrow
    simp only [Nat.add_sub_cancel_left] at hrow
    exact (some.inj hrow).symm
  have hanchor := r.cursorAnchor_eq
  rw [BufferState.totalPhysicalRows_eq hinv,
    Nat.min_eq_left (Nat.le_sub_one_of_lt (hsound.folded_content hinv r).1), ← hcursorRow] at hanchor
  obtain ⟨column', row', hposition, hcellW, hoffset⟩ := hresolve _ hanchor
  rw [contentIndex_eq hshows hrow] at hindex
  have hindex := some.inj hindex
  rw [hresized.scrollback] at hvisible
  rcases hplace row' column' cell hcellW with ⟨-, hlost⟩ | ⟨hle, hbound, hcell', hsum⟩
  · simp only [cursorContentPosition] at hindex hoffset
    omega
  · -- the row is below the history
    have hkept := BufferState.totalPhysicalRows_eq hflow.kept_inv
    have hscreenRow : totalRows r.kept.lines ≤ row' - r.evictedRows := by
      by_contra hlt
      have hin := hcell'.index.2
      have hmono : Scrollback.cellOffset (reflowedRows r) (row' - r.evictedRows + 1) ≤
          Scrollback.cellOffset (reflowedRows r) (Scrollback.allRows r.kept.lines).length :=
        SoftWrap.offset_mono (by rw [Scrollback.length_allRows]; omega)
      have hall : Scrollback.cellOffset (reflowedRows r) (Scrollback.allRows r.kept.lines).length =
          ((Scrollback.allRows r.kept.lines).flatMap ScreenRow.cells).length := by
        rw [Scrollback.cellOffset, SoftWrap.offset_append le_rfl, SoftWrap.offset_of_length_le le_rfl]
      simp only [cursorContentPosition] at hindex hoffset
      omega
    have hcolumn : column' < dimensions.columns := by
      obtain ⟨found, hfound, hcolumn⟩ := hcellW
      have hfits := (hsound.wrapped_ok h.history r
        (fun row hrow => (hwhole _ hflow.content_eq row hrow).pairs) found
          (mem_of_getElem? hfound)).fits
      have := (List.getElem?_eq_some_iff.mp hcolumn).1
      omega
    have hcursor : terminal'.primary.cursor =
        ⟨column', row' - r.evictedRows - totalRows r.kept.lines⟩ := by
      rw [hresized.cursor, BufferState.Reflowing.cursor, hposition, BufferState.reflowedCursor,
        if_pos ⟨hle, by rw [hkept]; exact hscreenRow⟩, hkept, Nat.min_eq_left (by omega),
        Nat.min_eq_left (by omega)]
    refine (contentCell_eq_some h'.history.toInv hshows').mpr ⟨row' - r.evictedRows, ?_, ?_⟩
    · rw [cursorContentPosition, BufferState.relativeRow, if_neg (by simp only; omega), hcursor,
        hresized.scrollback, hkept]
      exact congrArg some (by simp only; omega)
    · rw [cursorContentPosition, hcursor, hresized.scrollback]
      exact hcell'

/-- A resize keeps the positions that name cells, and the cursor, on their cells. -/
theorem resize_keeps_positions {dimensions : Dimensions} {limitBytes : ByteLimit} {events : List Event}
    (hrun : (withScrollbackLimit dimensions limitBytes).run events = some terminal)
    (hwhole : terminal.ContentWhole) (size : Dimensions) (positions : List ContentPosition) :
    ∃ terminal' moved cells lost,
      terminal.resizeWithContentPositions size positions = some (terminal', moved) ∧
      PositionsKept terminal positions terminal' moved cells lost ∧
      CursorKept terminal terminal' lost := by
  have h := steady_of_run hrun
  have hinv := h.history.toInv
  obtain ⟨terminal', r, heq, h', hresized⟩ := h.resized size positions
  have hshows := h.shows r
  have hshows' := hresized.shows h h' hwhole
  obtain ⟨lost, hcells, hzero, hplace⟩ := reflowed_cells hinv r
  refine ⟨terminal', _,
    (Scrollback.allRows terminal.scrollback.lines ++ r.screenRows).flatMap ScreenRow.cells, lost, heq,
    ⟨?_, ?_, fun hretained => hzero ?_, length_map _, ?_⟩, hresized.cursor_eq h h' hwhole hplace⟩
  · rw [contentCells, allContentRows_eq hshows]
    rfl
  · rw [contentCells, allContentRows_eq hshows', map_some, hresized.scrollback,
      show (Scrollback.allRows r.kept.lines ++
        (r.tail ++ List.replicate (size.rows - r.tail.length) Screen.blankRow)) = reflowedRows r from rfl,
      hcells, wrapped_cells h.toGood.buffers.1.toSound hinv r]
  · have := (BufferState.flow hinv r).origin
    rw [hresized.scrollback] at hretained
    omega
  · intro k position cell hk hcell
    obtain ⟨index, hindex, hmoved⟩ := hresized.moved_eq h h' hwhole hplace hcell
    obtain ⟨row, hrow, hat⟩ := (contentCell_eq_some hinv hshows).mp hcell
    refine ⟨index, hindex, ?_, ?_⟩
    · rw [contentIndex_eq hshows hrow] at hindex
      rw [← some.inj hindex]
      exact hat.index.1
    · rw [getElem?_map, hk, map_some]
      rcases hmoved with ⟨hlost, hnone⟩ | ⟨position', hle, hsome, hcell', hindex'⟩
      · exact .inl ⟨hlost, by rw [hnone]⟩
      · exact .inr ⟨position', hle, by rw [hsome], hcell', hindex'⟩

omit [Platform] in
theorem resize_keeps_positions_wrapped :
    letI := Platform.reference
    ∃ terminal, (withScrollbackLimit sampleGrid none).run [.ingest wrappedText] = some terminal ∧
      ∃ terminal' moved cells lost,
        terminal.resizeWithContentPositions wideGrid [⟨1, 0⟩, ⟨2, 3⟩] = some (terminal', moved) ∧
        PositionsKept terminal [⟨1, 0⟩, ⟨2, 3⟩] terminal' moved cells lost ∧
        CursorKept terminal terminal' lost := by
  let _ := Platform.reference
  have hkeeps : (withScrollbackLimit sampleGrid none).keeps .wholePairs [.ingest wrappedText] = true := by
    decide +kernel
  obtain ⟨terminal, hrun, hsteady⟩ := run_steady .wholePairs sampleGrid none hkeeps
  exact ⟨terminal, hrun, resize_keeps_positions hrun (hsteady.contentWhole rfl) _ _⟩

omit [Platform] in
/-- The position of the character that the resize drops is kept, and names no cell any more. -/
theorem position_left_without_cell :
    letI := Platform.reference
    ∃ terminal terminal' position',
      (withScrollbackLimit sampleGrid none).run [.ingest unmarkedHalf] = some terminal ∧
      terminal.resizeWithContentPositions wideGrid [⟨0, 0⟩] = some (terminal', [some position']) ∧
      terminal.contentCell ⟨0, 0⟩ ≠ none ∧
      terminal'.contentCell position' ≠ terminal.contentCell ⟨0, 0⟩ := by
  let _ := Platform.reference
  have hlost : ((withScrollbackLimit sampleGrid none).run [.ingest unmarkedHalf]).any (fun terminal =>
      (terminal.contentCell ⟨0, 0⟩).isSome &&
        (terminal.resizeWithContentPositions wideGrid [⟨0, 0⟩]).any fun result =>
          decide (result.2 = [some ⟨0, 0⟩]) && (result.1.contentCell ⟨0, 0⟩).isNone) = true := by
    decide +kernel
  obtain ⟨terminal, hrun, hlost⟩ := (Option.any_eq_true _ _).mp hlost
  rw [Bool.and_eq_true] at hlost
  obtain ⟨⟨terminal', moved⟩, hresize, hnone⟩ := (Option.any_eq_true _ _).mp hlost.2
  rw [Bool.and_eq_true, decide_eq_true_eq] at hnone
  obtain ⟨cell, hcell⟩ := isSome_iff_exists.mp hlost.1
  refine ⟨terminal, terminal', ⟨0, 0⟩, hrun, ?_, ?_, ?_⟩
  · rw [hresize, show moved = [some ⟨0, 0⟩] from hnone.1]
  · rw [hcell]
    exact some_ne_none _
  · rw [hcell, isNone_iff_eq_none.mp hnone.2]
    exact (some_ne_none _).symm

end Terminal

end FesTerm
