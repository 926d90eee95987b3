import FesTerm.Core.History

/-!
# The visible grid

`screen.rs`: a ring buffer of rows with, for every cell, whether it is occupied and, for every row,
whether it soft-wraps and how far it is occupied.

The source keeps the cells of all rows in one array and the markers in others, and addresses column
`c` of a row by `physical_row * columns + c`. Here a physical row is a `Line` of its own, and the same
access is to column `c` of that line. It fails past the end of the row, where the flat array would run on.
Subtracting one from the number of rows or columns cannot fail: `Dimensions` bounds both from below.
-/

namespace FesTerm

open Checked

/-- One physical row of the grid with its markers. -/
structure Line where
  cells : List Cell
  occupiedCells : List Bool
  softWrapped : Bool
  occupiedColumns : Nat
  deriving DecidableEq

structure ColumnSpan where
  left : Nat
  right : Nat
  deriving DecidableEq

structure Rectangle where
  top : Nat
  left : Nat
  bottom : Nat
  right : Nat
  deriving DecidableEq

/-- The rows as a ring, with the rows that are to be drawn again. -/
structure Screen where
  dimensions : Dimensions
  /-- Physical row index holding logical row 0. -/
  top : Nat
  lines : List Line
  dirtyRows : List Bool
  deriving DecidableEq

namespace ColumnSpan

/-- All columns. -/
def full (columns : Nat) : ColumnSpan := ⟨0, columns - 1⟩

def width (span : ColumnSpan) : Option Nat := sub (span.right + 1) span.left

def isFull (span : ColumnSpan) (columns : Nat) : Bool := span.left == 0 && span.right + 1 == columns

end ColumnSpan

/-- One past the last occupied marker. -/
def occupiedExtent : List Bool → Nat
  | [] => 0
  | occupied :: rest =>
    if 0 < occupiedExtent rest then occupiedExtent rest + 1 else if occupied then 1 else 0

section

variable [Platform]

/-- The second cell of a wide cluster. -/
def continuationOf (cell : Cell) : Cell :=
  { cell with
    text := []
    textCapacityBytes := Platform.textCapacity [] []
    width := .continuation }

namespace Line

def blank (columns : Nat) : Line where
  cells := List.replicate columns blankCell
  occupiedCells := List.replicate columns false
  softWrapped := false
  occupiedColumns := 0

section

omit [Platform]

/-- Write one cell and its marker. -/
def setCell (line : Line) (column : Nat) (cell : Cell) (occupied : Bool) : Option Line := do
  let cells ← setAt line.cells column cell
  let occupiedCells ← setAt line.occupiedCells column occupied
  some { line with cells := cells, occupiedCells := occupiedCells }

/-- Fill the columns from `first` up to `last` and their markers. -/
def fill (line : Line) (first last : Nat) (cell : Cell) : Option Line := do
  let cells ← fillRange line.cells first last cell
  let occupiedCells ← fillRange line.occupiedCells first last (!isStructuralBlank cell)
  some { line with cells := cells, occupiedCells := occupiedCells }

/-- The sparing branch of `fill_linear_with` on one row: protected cells stay, the markers of the
whole range are set. -/
def fillSparing (line : Line) (first last : Nat) (cell : Cell) : Option Line := do
  let existing ← slice line.cells first last
  let cells ← writeAt line.cells first
    (existing.map fun old => if old.isProtected then old else cell)
  let occupiedCells ← fillRange line.occupiedCells first last (!isStructuralBlank cell)
  some { line with cells := cells, occupiedCells := occupiedCells }

/-- The inner loop of `fill_rectangle`: a spared cell keeps its marker too. -/
def fillSpan (line : Line) (first last : Nat) (cell : Cell) (spareProtected : Bool) : Option Line := do
  let existing ← slice line.cells first last
  let markers ← slice line.occupiedCells first last
  let spared := fun old : Cell => spareProtected && old.isProtected
  let cells ← writeAt line.cells first (existing.map fun old => if spared old then old else cell)
  let occupiedCells ← writeAt line.occupiedCells first
    (List.zipWith (fun old marker => if spared old then marker else !isStructuralBlank cell)
      existing markers)
  some { line with cells := cells, occupiedCells := occupiedCells }

def recomputeOccupied (line : Line) : Line :=
  { line with occupiedColumns := occupiedExtent line.occupiedCells }

def repairCell (line : Line) (columns column : Nat) (fill : Cell) : Option Line := do
  let cell ← line.cells[column]?
  let invalid ← match cell.width with
    | .double =>
      if column + 1 = columns then some true
      else do
        let next ← line.cells[column + 1]?
        some (next.width != .continuation)
    | .continuation =>
      if column = 0 then some true
      else do
        let previous ← line.cells[column - 1]?
        some (previous.width != .double)
    | .single => some false
  if invalid then line.setCell column fill (!isStructuralBlank fill) else some line

def repairNeighborhood (line : Line) (columns boundary : Nat) (fill : Cell) : Option Line :=
  let first := boundary - 1
  let last := min (boundary + 1) (columns - 1)
  if first > last then some line
  else forRange first (last + 1) line fun line column => line.repairCell columns column fill

end

def repairSpanEdges (line : Line) (columns : Nat) (span : ColumnSpan) : Option Line := do
  let line ← line.repairNeighborhood columns span.left blankCell
  line.repairNeighborhood columns (span.right + 1) blankCell

def repairRow (line : Line) (columns : Nat) : Option Line := do
  let line ← forRange 0 columns line fun line column => line.repairCell columns column blankCell
  some line.recomputeOccupied

section

omit [Platform]

def copyCell (line : Line) (source destination : Nat) : Option Line := do
  let cell ← line.cells[source]?
  let occupied ← line.occupiedCells[source]?
  line.setCell destination cell occupied

/-- `move_cells_within_row`: the direction of the copy keeps an overlap intact. -/
def moveCellsWithinRow (line : Line) (start stop destination : Nat) : Option Line := do
  let length ← sub stop start
  if destination > start then
    forRangeRev 0 length line fun line offset => line.copyCell (start + offset) (destination + offset)
  else
    forRange 0 length line fun line offset => line.copyCell (start + offset) (destination + offset)

def insertCharacters (line : Line) (columns column count : Nat) (cell : Cell) (span : ColumnSpan) :
    Option Line := do
  let right := min span.right (columns - 1)
  if column > right then
    return line
  let count := min count (← sub (right + 1) column)
  let stop ← sub (right + 1) count
  let line ← line.moveCellsWithinRow column stop (column + count)
  let line ← line.fill column (column + count) cell
  let line ← line.repairNeighborhood columns column cell
  let line ← line.repairNeighborhood columns (column + count) cell
  let line ← line.repairNeighborhood columns (right + 1) cell
  return line.recomputeOccupied

def deleteCharacters (line : Line) (columns column count : Nat) (cell : Cell) (span : ColumnSpan) :
    Option Line := do
  let right := min span.right (columns - 1)
  if column > right then
    return line
  let count := min count (← sub (right + 1) column)
  let line ← line.moveCellsWithinRow (column + count) (right + 1) column
  let gap ← sub (right + 1) count
  let line ← line.fill gap (right + 1) cell
  let line ← line.repairNeighborhood columns column cell
  let line ← line.repairNeighborhood columns gap cell
  let line ← line.repairNeighborhood columns (right + 1) cell
  return line.recomputeOccupied

def extendOccupiedOrRecompute (line : Line) (column width : Nat) : Line :=
  if column ≥ line.occupiedColumns then { line with occupiedColumns := column + width }
  else line.recomputeOccupied

end

/-- `replace_cluster` on its row. -/
def replaceCluster (line : Line) (columns column : Nat) (cell : Cell) : Option Line := do
  let clusterColumns := cell.width.columns
  let line ← line.setCell column cell true
  let line ← if clusterColumns = 2 then line.setCell (column + 1) (continuationOf cell) true
    else some line
  let line ← line.repairNeighborhood columns column blankCell
  let line ← line.repairNeighborhood columns (column + clusterColumns) blankCell
  return line.extendOccupiedOrRecompute column clusterColumns

omit [Platform] in
def fillRow (line : Line) (columns : Nat) (cell : Cell) : Option Line := do
  let line ← line.fill 0 columns cell
  return { line with
    softWrapped := false
    occupiedColumns := if isStructuralBlank cell then 0 else columns }

def fillRowSpan (line : Line) (columns : Nat) (cell : Cell) (span : ColumnSpan) : Option Line := do
  let line ← line.fill span.left (span.left + (← span.width)) cell
  let line ← line.repairSpanEdges columns span
  return line.recomputeOccupied

/-- `copy_row_span` onto this row from another one. -/
def copyRowSpan (line source : Line) (columns : Nat) (span : ColumnSpan) : Option Line := do
  let width ← span.width
  let cells ← writeAt line.cells span.left (← slice source.cells span.left (span.left + width))
  let occupiedCells ← writeAt line.occupiedCells span.left
    (← slice source.occupiedCells span.left (span.left + width))
  let line := { line with cells := cells, occupiedCells := occupiedCells }
  let line ← line.repairSpanEdges columns span
  return line.recomputeOccupied

omit [Platform] in
/-- The row as it leaves the screen: its cells up to the occupied extent. -/
def toRow (line : Line) : Option ScreenRow := do
  let cells ← slice line.cells 0 line.occupiedColumns
  some { cells := cells, softWrapped := line.softWrapped }

end Line

namespace Screen

def new (dimensions : Dimensions) : Screen where
  dimensions := dimensions
  top := 0
  lines := List.replicate dimensions.rows (Line.blank dimensions.columns)
  dirtyRows := List.replicate dimensions.rows true

section

omit [Platform]

def physicalRow (screen : Screen) (row : Nat) : Nat := (screen.top + row) % screen.dimensions.rows

def line (screen : Screen) (row : Nat) : Option Line := screen.lines[screen.physicalRow row]?

/-- Change the line holding a logical row. -/
def modifyLine (screen : Screen) (row : Nat) (change : Line → Option Line) : Option Screen := do
  let line ← screen.line row
  let line ← change line
  let lines ← setAt screen.lines (screen.physicalRow row) line
  some { screen with lines := lines }

/-- `cell`, `cell_ref`; the outer `Option` is a failing access of the ring. -/
def cell (screen : Screen) (column row : Nat) : Option (Option Cell) :=
  if column < screen.dimensions.columns ∧ row < screen.dimensions.rows then do
    let line ← screen.line row
    some line.cells[column]?
  else some none

def rowSoftWrapped (screen : Screen) (row : Nat) : Option (Option Bool) :=
  if row < screen.dimensions.rows then do
    let line ← screen.line row
    some (some line.softWrapped)
  else some none

/-- `take_dirty_rows`: the rows to redraw, and the screen with no row marked. -/
def takeDirtyRows (screen : Screen) : List Nat × Screen :=
  ((screen.dirtyRows.zipIdx.filter Prod.fst).map Prod.snd,
    { screen with dirtyRows := screen.dirtyRows.map fun _ => false })

def markAllDirty (screen : Screen) : Screen :=
  { screen with dirtyRows := screen.dirtyRows.map fun _ => true }

def markDirty (screen : Screen) (row : Nat) : Option Screen := do
  let dirtyRows ← setAt screen.dirtyRows row true
  some { screen with dirtyRows := dirtyRows }

/-- `mark_dirty_range`, both ends included. -/
def markDirtyRange (screen : Screen) (first last : Nat) : Option Screen := do
  let dirtyRows ← fillRange screen.dirtyRows first (last + 1) true
  some { screen with dirtyRows := dirtyRows }

/-- `occupied_row_count`: one past the last row with occupied content. -/
def occupiedRowCount (screen : Screen) : Option Nat := do
  let occupied ← (List.range screen.dimensions.rows).mapM fun row => do
    let line ← screen.line row
    some (decide (0 < line.occupiedColumns))
  some (occupiedExtent occupied)

/-- `to_rows`: every row trimmed to its occupied extent. -/
def toRows (screen : Screen) : Option (List ScreenRow) :=
  (List.range screen.dimensions.rows).mapM fun row => do
    let line ← screen.line row
    line.toRow

end

/-- The row that `from_rows` writes, before repair. -/
def rowLine (columns : Nat) (row : ScreenRow) : Line :=
  let length := min row.cells.length columns
  { cells := row.cells.take length ++ List.replicate (columns - length) blankCell
    occupiedCells := List.replicate length true ++ List.replicate (columns - length) false
    softWrapped := row.softWrapped
    occupiedColumns := length }

def repairWideCells (screen : Screen) : Option Screen :=
  forRange 0 screen.dimensions.rows screen fun screen row =>
    screen.modifyLine row fun line => line.repairRow screen.dimensions.columns

/-- `from_rows`: a screen of the given rows, padded with blank cells and rows. -/
def fromRows (dimensions : Dimensions) (rows : List ScreenRow) : Option Screen := do
  let screen := new dimensions
  let screen ← (rows.take dimensions.rows).zipIdx.foldlM (fun screen (row, index) => do
    let lines ← setAt screen.lines index (rowLine dimensions.columns row)
    some { screen with lines := lines }) screen
  let screen ← screen.repairWideCells
  return screen.markAllDirty

/-- The row that `resized` writes, before repair. -/
def resizedLine (line : Line) (oldColumns columns : Nat) : Option Line := do
  let preserved := min oldColumns columns
  let cells ← slice line.cells 0 preserved
  let occupiedCells ← slice line.occupiedCells 0 preserved
  some {
    cells := cells ++ List.replicate (columns - preserved) blankCell
    occupiedCells := occupiedCells ++ List.replicate (columns - preserved) false
    softWrapped := line.softWrapped && preserved == oldColumns
    occupiedColumns := min line.occupiedColumns preserved }

/-- `resized`: the top left corner of the screen, cut or padded. -/
def resized (screen : Screen) (dimensions : Dimensions) : Option Screen := do
  let preservedRows := min screen.dimensions.rows dimensions.rows
  let resized ← forRange 0 preservedRows (new dimensions) fun resized row => do
    let line ← screen.line row
    let line ← resizedLine line screen.dimensions.columns dimensions.columns
    let lines ← setAt resized.lines row line
    some { resized with lines := lines }
  resized.repairWideCells

omit [Platform] in
/-- `replace_cell`: one cell is written as it is, with no repair around it. -/
def replaceCell (screen : Screen) (column row : Nat) (cell : Cell) : Option Screen := do
  if ¬ (column < screen.dimensions.columns ∧ row < screen.dimensions.rows) then
    none
  let screen ← screen.modifyLine row fun line => do
    let line ← line.setCell column cell true
    return line.recomputeOccupied
  screen.markDirty row

def replaceCluster (screen : Screen) (column row : Nat) (cell : Cell) : Option Screen := do
  if ¬ (column < screen.dimensions.columns ∧ row < screen.dimensions.rows) then
    none
  if cell.width.columns = 2 ∧ ¬ column + 1 < screen.dimensions.columns then
    none
  let screen ← screen.modifyLine row fun line =>
    line.replaceCluster screen.dimensions.columns column cell
  screen.markDirty row

def fillRectangle (screen : Screen) (rectangle : Rectangle) (cell : Cell) (spareProtected : Bool) :
    Option Screen := do
  let span : ColumnSpan := ⟨rectangle.left, rectangle.right⟩
  let columns := screen.dimensions.columns
  let screen ← forRange rectangle.top (rectangle.bottom + 1) screen fun screen row =>
    screen.modifyLine row fun line => do
      let width ← span.width
      let line ← line.fillSpan span.left (span.left + width) cell spareProtected
      let line ← line.repairSpanEdges columns span
      return line.recomputeOccupied
  screen.markDirtyRange rectangle.top rectangle.bottom

/-- Write a run of cells with their markers over part of a row, and repair its edges. -/
def writeSpan (line : Line) (columns left : Nat) (cells : List Cell) (occupied : List Bool)
    (span : ColumnSpan) : Option Line := do
  let cells ← writeAt line.cells left cells
  let occupiedCells ← writeAt line.occupiedCells left occupied
  let line := { line with cells := cells, occupiedCells := occupiedCells }
  let line ← line.repairSpanEdges columns span
  return line.recomputeOccupied

/-- `copy_rectangle`: the source is read out in full before anything is written. -/
def copyRectangle (screen : Screen) (source : Rectangle) (destinationTop destinationLeft : Nat) :
    Option Screen := do
  let columns := screen.dimensions.columns
  let height := min (← sub (source.bottom + 1) source.top) (← sub screen.dimensions.rows destinationTop)
  let width := min (← sub (source.right + 1) source.left) (← sub columns destinationLeft)
  if height = 0 ∨ width = 0 then
    return screen
  let copied ← (List.range height).mapM fun row => do
    let line ← screen.line (source.top + row)
    let cells ← slice line.cells source.left (source.left + width)
    let occupied ← slice line.occupiedCells source.left (source.left + width)
    some (cells, occupied)
  let span : ColumnSpan := ⟨destinationLeft, destinationLeft + width - 1⟩
  let screen ← forRange 0 height screen fun screen row => do
    let (cells, occupied) ← copied[row]?
    screen.modifyLine (destinationTop + row) fun line =>
      writeSpan line columns destinationLeft cells occupied span
  screen.markDirtyRange destinationTop (destinationTop + height - 1)

section

omit [Platform]

/-- The part of one row that `fill_linear_with` fills. -/
def fillLinearRow (screen : Screen) (start stop : Nat) (cell : Cell) (spareProtected : Bool)
    (row : Nat) : Option Screen := do
  let columns := screen.dimensions.columns
  let firstRow := start / columns
  let lastRow := (stop - 1) / columns
  let lastColumn ← sub stop (lastRow * columns)
  let rowStart := if row = firstRow then start % columns else 0
  let rowEnd := if row = lastRow then lastColumn else columns
  if rowStart ≥ rowEnd then
    return screen
  screen.modifyLine row fun line =>
    if spareProtected then line.fillSparing rowStart rowEnd cell else line.fill rowStart rowEnd cell

/-- `fill_linear_with`: fill a run of cells in reading order, perhaps leaving protected cells. -/
def fillLinearWith (screen : Screen) (start stop : Nat) (cell : Cell) (spareProtected : Bool) :
    Option Screen := do
  if start ≥ stop then
    return screen
  let columns := screen.dimensions.columns
  let firstRow := start / columns
  let lastRow := (stop - 1) / columns
  let firstColumn := start % columns
  let lastColumn ← sub stop (lastRow * columns)
  let screen ← forRange firstRow (lastRow + 1) screen fun screen row =>
    screen.fillLinearRow start stop cell spareProtected row
  let screen ← screen.markDirtyRange firstRow lastRow
  let screen ← screen.modifyLine firstRow fun line =>
    line.repairNeighborhood columns firstColumn cell
  let screen ← screen.modifyLine lastRow fun line => line.repairNeighborhood columns lastColumn cell
  forRange firstRow (lastRow + 1) screen fun screen row =>
    screen.modifyLine row fun line => some line.recomputeOccupied

def fillLinear (screen : Screen) (start stop : Nat) (cell : Cell) : Option Screen :=
  screen.fillLinearWith start stop cell false

def fillLinearSparingProtected (screen : Screen) (start stop : Nat) (cell : Cell) : Option Screen :=
  screen.fillLinearWith start stop cell true

def clearAll (screen : Screen) (cell : Cell) : Screen :=
  { screen.markAllDirty with
    top := 0
    lines := screen.lines.map fun line => {
      cells := line.cells.map fun _ => cell
      occupiedCells := line.occupiedCells.map fun _ => !isStructuralBlank cell
      softWrapped := false
      occupiedColumns := if isStructuralBlank cell then 0 else screen.dimensions.columns } }

def insertCharacters (screen : Screen) (column row count : Nat) (cell : Cell) (span : ColumnSpan) :
    Option Screen := do
  if column > min span.right (screen.dimensions.columns - 1) then
    return screen
  let screen ← screen.modifyLine row fun line =>
    line.insertCharacters screen.dimensions.columns column count cell span
  screen.markDirty row

def deleteCharacters (screen : Screen) (column row count : Nat) (cell : Cell) (span : ColumnSpan) :
    Option Screen := do
  if column > min span.right (screen.dimensions.columns - 1) then
    return screen
  let screen ← screen.modifyLine row fun line =>
    line.deleteCharacters screen.dimensions.columns column count cell span
  screen.markDirty row

/-- `copy_row`: the line moves with its markers. -/
def copyRow (screen : Screen) (sourceRow destinationRow : Nat) : Option Screen :=
  if screen.physicalRow sourceRow = screen.physicalRow destinationRow then some screen
  else do
    let source ← screen.line sourceRow
    screen.modifyLine destinationRow fun _ => some source

end

/-- `copy_row_span`: only a window of the row moves. -/
def copyRowSpan (screen : Screen) (sourceRow destinationRow : Nat) (span : ColumnSpan) : Option Screen :=
  if screen.physicalRow sourceRow = screen.physicalRow destinationRow then some screen
  else do
    let source ← screen.line sourceRow
    screen.modifyLine destinationRow fun line =>
      line.copyRowSpan source screen.dimensions.columns span

omit [Platform] in
def fillRow (screen : Screen) (row : Nat) (cell : Cell) : Option Screen :=
  screen.modifyLine row fun line => line.fillRow screen.dimensions.columns cell

def fillRowSpan (screen : Screen) (row : Nat) (cell : Cell) (span : ColumnSpan) : Option Screen :=
  screen.modifyLine row fun line => line.fillRowSpan screen.dimensions.columns cell span

/-- One row onto another, whole or within a span. -/
def shiftRow (screen : Screen) (sourceRow destinationRow : Nat) (span : ColumnSpan) : Option Screen :=
  if span.isFull screen.dimensions.columns then screen.copyRow sourceRow destinationRow
  else screen.copyRowSpan sourceRow destinationRow span

/-- Clear a row, whole or within a span. -/
def clearRow (screen : Screen) (row : Nat) (cell : Cell) (span : ColumnSpan) : Option Screen :=
  if span.isFull screen.dimensions.columns then screen.fillRow row cell
  else screen.fillRowSpan row cell span

/-- Move the rows from `top` to `bottom` down by `count` and clear those left behind. -/
def shiftDown (screen : Screen) (top bottom count : Nat) (cell : Cell) (span : ColumnSpan) :
    Option Screen := do
  let count := min count ((← sub bottom top) + 1)
  let stop ← sub (bottom + 1) count
  let screen ← forRangeRev top stop screen fun screen row => screen.shiftRow row (row + count) span
  let screen ← forRange top (top + count) screen fun screen row => screen.clearRow row cell span
  screen.markDirtyRange top bottom

/-- Move the rows from `top` to `bottom` up by `count` and clear those left behind. -/
def shiftUp (screen : Screen) (top bottom count : Nat) (cell : Cell) (span : ColumnSpan) : Option Screen := do
  let screen ← forRange (top + count) (bottom + 1) screen fun screen row => do
    screen.shiftRow row (← sub row count) span
  let gap ← sub (bottom + 1) count
  let screen ← forRange gap (bottom + 1) screen fun screen row => screen.clearRow row cell span
  screen.markDirtyRange top bottom

def insertLines (screen : Screen) (row bottom count : Nat) (cell : Cell) (span : ColumnSpan) :
    Option Screen := screen.shiftDown row bottom count cell span

def deleteLines (screen : Screen) (row bottom count : Nat) (cell : Cell) (span : ColumnSpan) :
    Option Screen := do
  let count := min count ((← sub bottom row) + 1)
  screen.shiftUp row bottom count cell span

def scrollDown (screen : Screen) (top bottom count : Nat) (cell : Cell) (span : ColumnSpan) :
    Option Screen := screen.shiftDown top bottom count cell span

/-- `scroll_up`: the rows that leave the screen, and the screen. When the whole screen scrolls, the
ring rotates. -/
def scrollUp (screen : Screen) (top bottom count : Nat) (cell : Cell) (span : ColumnSpan) :
    Option (List ScreenRow × Screen) := do
  let count := min count ((← sub bottom top) + 1)
  if !span.isFull screen.dimensions.columns then
    return ([], ← screen.shiftUp top bottom count cell span)
  let removed ← (List.range' top count).mapM fun row => do
    let line ← screen.line row
    line.toRow
  if top = 0 ∧ bottom + 1 = screen.dimensions.rows then
    let screen ← forRange 0 count screen fun screen offset => screen.fillRow offset cell
    let screen := { screen with top := (screen.top + count) % screen.dimensions.rows }
    return (removed, ← screen.markDirtyRange top bottom)
  return (removed, ← screen.shiftUp top bottom count cell span)

section

omit [Platform]

def markSoftWrapped (screen : Screen) (row : Nat) : Option Screen :=
  screen.modifyLine row fun line => some { line with softWrapped := true }

def clearSoftWrapped (screen : Screen) (row : Nat) : Option Screen :=
  screen.modifyLine row fun line => some { line with softWrapped := false }

/-- The check of one cell of a row. -/
def validateCell (line : Line) (columns row column : Nat) : Option (Except String Unit) := do
  let cell ← line.cells[column]?
  match cell.validateRecoveryState with
  | .error error =>
    return .error s!"screen row {row} column {column} stores invalid cell: {error}"
  | .ok () =>
    match cell.width with
    | .continuation =>
      if column = 0 then
        return .error s!"screen row {row} column {column} contains an orphaned continuation cell"
      let previous ← line.cells[column - 1]?
      if previous.width ≠ .double then
        return .error s!"screen row {row} column {column} contains an orphaned continuation cell"
      return .ok ()
    | .double =>
      if column + 1 ≥ columns then
        return .error s!"screen row {row} column {column} contains an unterminated double-width cell"
      let next ← line.cells[column + 1]?
      if next.width ≠ .continuation then
        return .error s!"screen row {row} column {column} contains an unterminated double-width cell"
      return .ok ()
    | .single => return .ok ()

end

/-- Run a check for every index below a bound and stop at the first error. -/
def firstError (check : Nat → Option (Except String Unit)) : List Nat → Option (Except String Unit)
  | [] => some (.ok ())
  | index :: rest => do
    match ← check index with
    | .error error => some (.error error)
    | .ok () => firstError check rest

omit [Platform] in
def validateLine (screen : Screen) (row : Nat) : Option (Except String Unit) := do
  let columns := screen.dimensions.columns
  let line ← screen.line row
  if line.occupiedColumns > columns then
    return .error s!"screen row {row} records {line.occupiedColumns} occupied columns in a {columns}-column grid"
  if line.occupiedColumns ≠ occupiedExtent line.occupiedCells then
    return .error s!"screen row {row} records {line.occupiedColumns} occupied columns but contains {occupiedExtent line.occupiedCells} occupied cells"
  firstError (validateCell line columns row) (List.range columns)

omit [Platform] in
/-- `Screen::validate_recovery_state`; the sizes of the flat arrays are those of their lines. -/
def validateRecoveryState (screen : Screen) : Option (Except String Unit) := do
  let cells := (screen.lines.map (·.cells.length)).sum
  let markers := (screen.lines.map (·.occupiedCells.length)).sum
  if screen.top ≥ screen.dimensions.rows then
    return .error s!"screen top row {screen.top} exceeds the {screen.dimensions.rows} visible rows"
  if cells ≠ screen.dimensions.cellCount then
    return .error s!"screen stores {cells} cells for a {screen.dimensions.cellCount}-cell grid"
  if markers ≠ screen.dimensions.cellCount then
    return .error s!"screen stores {markers} occupied markers for a {screen.dimensions.cellCount}-cell grid"
  if screen.dirtyRows.length ≠ screen.dimensions.rows then
    return .error s!"screen stores {screen.dirtyRows.length} dirty-row markers for {screen.dimensions.rows} rows"
  if screen.lines.length ≠ screen.dimensions.rows then
    return .error s!"screen stores {screen.lines.length} soft-wrap markers for {screen.dimensions.rows} rows"
  firstError screen.validateLine (List.range screen.dimensions.rows)

end Screen

end

end FesTerm
