import FesTerm.Core.Screen

/-!
# The plain grid

What a screen stands for: its rows from the top down, with no rotation. The operations of the grid are
those of the screen with row `r` kept in place `r`, and scrolling the whole grid up moves every row,
like scrolling a part of it. They work on whole lines with the same line operations as the screen, so
all that the two differ in is where a row is.
-/

namespace FesTerm

open Checked

/-- The screen without its rotation: row `i` is `rows[i]`. -/
structure Grid where
  dimensions : Dimensions
  rows : List Line
  dirtyRows : List Bool
  deriving DecidableEq

/-- The operations that the terminal applies to its screens. -/
inductive ScreenOp where
  | replaceCell (column row : Nat) (cell : Cell)
  | replaceCluster (column row : Nat) (cell : Cell)
  | fillRectangle (rectangle : Rectangle) (cell : Cell) (spareProtected : Bool)
  | copyRectangle (source : Rectangle) (destinationTop destinationLeft : Nat)
  | fillLinear (start stop : Nat) (cell : Cell)
  | fillLinearSparingProtected (start stop : Nat) (cell : Cell)
  | clearAll (cell : Cell)
  | insertCharacters (column row count : Nat) (cell : Cell) (span : ColumnSpan)
  | deleteCharacters (column row count : Nat) (cell : Cell) (span : ColumnSpan)
  | insertLines (row bottom count : Nat) (cell : Cell) (span : ColumnSpan)
  | deleteLines (row bottom count : Nat) (cell : Cell) (span : ColumnSpan)
  | scrollUp (top bottom count : Nat) (cell : Cell) (span : ColumnSpan)
  | scrollDown (top bottom count : Nat) (cell : Cell) (span : ColumnSpan)
  | markSoftWrapped (row : Nat)
  | clearSoftWrapped (row : Nat)
  | markAllDirty

namespace Grid

/-- Row `row` is in its place. A row past the last one is counted from the top again, as the screen
counts it. -/
def rowIndex (grid : Grid) (row : Nat) : Nat := row % grid.dimensions.rows

def line (grid : Grid) (row : Nat) : Option Line := grid.rows[grid.rowIndex row]?

def modifyLine (grid : Grid) (row : Nat) (change : Line → Option Line) : Option Grid := do
  let line ← grid.line row
  let line ← change line
  let rows ← setAt grid.rows (grid.rowIndex row) line
  some { grid with rows := rows }

def markAllDirty (grid : Grid) : Grid := { grid with dirtyRows := grid.dirtyRows.map fun _ => true }

def markDirty (grid : Grid) (row : Nat) : Option Grid := do
  let dirtyRows ← setAt grid.dirtyRows row true
  some { grid with dirtyRows := dirtyRows }

def markDirtyRange (grid : Grid) (first last : Nat) : Option Grid := do
  let dirtyRows ← fillRange grid.dirtyRows first (last + 1) true
  some { grid with dirtyRows := dirtyRows }

def fillLinearRow (grid : Grid) (start stop : Nat) (cell : Cell) (spareProtected : Bool) (row : Nat) :
    Option Grid := do
  let columns := grid.dimensions.columns
  let firstRow := start / columns
  let lastRow := (stop - 1) / columns
  let lastColumn ← sub stop (lastRow * columns)
  let rowStart := if row = firstRow then start % columns else 0
  let rowEnd := if row = lastRow then lastColumn else columns
  if rowStart ≥ rowEnd then
    return grid
  grid.modifyLine row fun line =>
    if spareProtected then line.fillSparing rowStart rowEnd cell else line.fill rowStart rowEnd cell

def fillLinearWith (grid : Grid) (start stop : Nat) (cell : Cell) (spareProtected : Bool) : Option Grid := do
  if start ≥ stop then
    return grid
  let columns := grid.dimensions.columns
  let firstRow := start / columns
  let lastRow := (stop - 1) / columns
  let firstColumn := start % columns
  let lastColumn ← sub stop (lastRow * columns)
  let grid ← forRange firstRow (lastRow + 1) grid fun grid row =>
    grid.fillLinearRow start stop cell spareProtected row
  let grid ← grid.markDirtyRange firstRow lastRow
  let grid ← grid.modifyLine firstRow fun line => line.repairNeighborhood columns firstColumn cell
  let grid ← grid.modifyLine lastRow fun line => line.repairNeighborhood columns lastColumn cell
  forRange firstRow (lastRow + 1) grid fun grid row =>
    grid.modifyLine row fun line => some line.recomputeOccupied

def clearAll (grid : Grid) (cell : Cell) : Grid :=
  { grid.markAllDirty with
    rows := grid.rows.map fun line => {
      cells := line.cells.map fun _ => cell
      occupiedCells := line.occupiedCells.map fun _ => !isStructuralBlank cell
      softWrapped := false
      occupiedColumns := if isStructuralBlank cell then 0 else grid.dimensions.columns } }

def insertCharacters (grid : Grid) (column row count : Nat) (cell : Cell) (span : ColumnSpan) :
    Option Grid := do
  if column > min span.right (grid.dimensions.columns - 1) then
    return grid
  let grid ← grid.modifyLine row fun line =>
    line.insertCharacters grid.dimensions.columns column count cell span
  grid.markDirty row

def deleteCharacters (grid : Grid) (column row count : Nat) (cell : Cell) (span : ColumnSpan) :
    Option Grid := do
  if column > min span.right (grid.dimensions.columns - 1) then
    return grid
  let grid ← grid.modifyLine row fun line =>
    line.deleteCharacters grid.dimensions.columns column count cell span
  grid.markDirty row

def copyRow (grid : Grid) (sourceRow destinationRow : Nat) : Option Grid :=
  if grid.rowIndex sourceRow = grid.rowIndex destinationRow then some grid
  else do
    let source ← grid.line sourceRow
    grid.modifyLine destinationRow fun _ => some source

def fillRow (grid : Grid) (row : Nat) (cell : Cell) : Option Grid :=
  grid.modifyLine row fun line => line.fillRow grid.dimensions.columns cell

def markSoftWrapped (grid : Grid) (row : Nat) : Option Grid :=
  grid.modifyLine row fun line => some { line with softWrapped := true }

def clearSoftWrapped (grid : Grid) (row : Nat) : Option Grid :=
  grid.modifyLine row fun line => some { line with softWrapped := false }

def replaceCell (grid : Grid) (column row : Nat) (cell : Cell) : Option Grid := do
  if ¬ (column < grid.dimensions.columns ∧ row < grid.dimensions.rows) then
    none
  let grid ← grid.modifyLine row fun line => do
    let line ← line.setCell column cell true
    return line.recomputeOccupied
  grid.markDirty row

section

variable [Platform]

def replaceCluster (grid : Grid) (column row : Nat) (cell : Cell) : Option Grid := do
  if ¬ (column < grid.dimensions.columns ∧ row < grid.dimensions.rows) then
    none
  if cell.width.columns = 2 ∧ ¬ column + 1 < grid.dimensions.columns then
    none
  let grid ← grid.modifyLine row fun line => line.replaceCluster grid.dimensions.columns column cell
  grid.markDirty row

def fillRectangle (grid : Grid) (rectangle : Rectangle) (cell : Cell) (spareProtected : Bool) :
    Option Grid := do
  let span : ColumnSpan := ⟨rectangle.left, rectangle.right⟩
  let columns := grid.dimensions.columns
  let grid ← forRange rectangle.top (rectangle.bottom + 1) grid fun grid row =>
    grid.modifyLine row fun line => do
      let width ← span.width
      let line ← line.fillSpan span.left (span.left + width) cell spareProtected
      let line ← line.repairSpanEdges columns span
      return line.recomputeOccupied
  grid.markDirtyRange rectangle.top rectangle.bottom

def copyRectangle (grid : Grid) (source : Rectangle) (destinationTop destinationLeft : Nat) :
    Option Grid := do
  let columns := grid.dimensions.columns
  let height := min (← sub (source.bottom + 1) source.top) (← sub grid.dimensions.rows destinationTop)
  let width := min (← sub (source.right + 1) source.left) (← sub columns destinationLeft)
  if height = 0 ∨ width = 0 then
    return grid
  let copied ← (List.range height).mapM fun row => do
    let line ← grid.line (source.top + row)
    let cells ← slice line.cells source.left (source.left + width)
    let occupied ← slice line.occupiedCells source.left (source.left + width)
    some (cells, occupied)
  let span : ColumnSpan := ⟨destinationLeft, destinationLeft + width - 1⟩
  let grid ← forRange 0 height grid fun grid row => do
    let (cells, occupied) ← copied[row]?
    grid.modifyLine (destinationTop + row) fun line =>
      Screen.writeSpan line columns destinationLeft cells occupied span
  grid.markDirtyRange destinationTop (destinationTop + height - 1)

def copyRowSpan (grid : Grid) (sourceRow destinationRow : Nat) (span : ColumnSpan) : Option Grid :=
  if grid.rowIndex sourceRow = grid.rowIndex destinationRow then some grid
  else do
    let source ← grid.line sourceRow
    grid.modifyLine destinationRow fun line =>
      line.copyRowSpan source grid.dimensions.columns span

def fillRowSpan (grid : Grid) (row : Nat) (cell : Cell) (span : ColumnSpan) : Option Grid :=
  grid.modifyLine row fun line => line.fillRowSpan grid.dimensions.columns cell span

def shiftRow (grid : Grid) (sourceRow destinationRow : Nat) (span : ColumnSpan) : Option Grid :=
  if span.isFull grid.dimensions.columns then grid.copyRow sourceRow destinationRow
  else grid.copyRowSpan sourceRow destinationRow span

def clearRow (grid : Grid) (row : Nat) (cell : Cell) (span : ColumnSpan) : Option Grid :=
  if span.isFull grid.dimensions.columns then grid.fillRow row cell
  else grid.fillRowSpan row cell span

def shiftDown (grid : Grid) (top bottom count : Nat) (cell : Cell) (span : ColumnSpan) : Option Grid := do
  let count := min count ((← sub bottom top) + 1)
  let stop ← sub (bottom + 1) count
  let grid ← forRangeRev top stop grid fun grid row => grid.shiftRow row (row + count) span
  let grid ← forRange top (top + count) grid fun grid row => grid.clearRow row cell span
  grid.markDirtyRange top bottom

def shiftUp (grid : Grid) (top bottom count : Nat) (cell : Cell) (span : ColumnSpan) : Option Grid := do
  let grid ← forRange (top + count) (bottom + 1) grid fun grid row => do
    grid.shiftRow row (← sub row count) span
  let gap ← sub (bottom + 1) count
  let grid ← forRange gap (bottom + 1) grid fun grid row => grid.clearRow row cell span
  grid.markDirtyRange top bottom

def insertLines (grid : Grid) (row bottom count : Nat) (cell : Cell) (span : ColumnSpan) :
    Option Grid := grid.shiftDown row bottom count cell span

def deleteLines (grid : Grid) (row bottom count : Nat) (cell : Cell) (span : ColumnSpan) : Option Grid := do
  let count := min count ((← sub bottom row) + 1)
  grid.shiftUp row bottom count cell span

def scrollDown (grid : Grid) (top bottom count : Nat) (cell : Cell) (span : ColumnSpan) :
    Option Grid := grid.shiftDown top bottom count cell span

/-- Every row of the region moves up, also when the region is the whole grid. -/
def scrollUp (grid : Grid) (top bottom count : Nat) (cell : Cell) (span : ColumnSpan) :
    Option (List ScreenRow × Grid) := do
  let count := min count ((← sub bottom top) + 1)
  let removed ← if span.isFull grid.dimensions.columns then
      (List.range' top count).mapM fun row => do
        let line ← grid.line row
        line.toRow
    else some []
  return (removed, ← grid.shiftUp top bottom count cell span)

/-- One operation, with the rows that leave the grid at the top. -/
def perform (grid : Grid) : ScreenOp → Option (List ScreenRow × Grid)
  | .replaceCell column row cell => (grid.replaceCell column row cell).map ([], ·)
  | .replaceCluster column row cell => (grid.replaceCluster column row cell).map ([], ·)
  | .fillRectangle rectangle cell spareProtected =>
    (grid.fillRectangle rectangle cell spareProtected).map ([], ·)
  | .copyRectangle source top left => (grid.copyRectangle source top left).map ([], ·)
  | .fillLinear start stop cell => (grid.fillLinearWith start stop cell false).map ([], ·)
  | .fillLinearSparingProtected start stop cell =>
    (grid.fillLinearWith start stop cell true).map ([], ·)
  | .clearAll cell => some ([], grid.clearAll cell)
  | .insertCharacters column row count cell span =>
    (grid.insertCharacters column row count cell span).map ([], ·)
  | .deleteCharacters column row count cell span =>
    (grid.deleteCharacters column row count cell span).map ([], ·)
  | .insertLines row bottom count cell span => (grid.insertLines row bottom count cell span).map ([], ·)
  | .deleteLines row bottom count cell span => (grid.deleteLines row bottom count cell span).map ([], ·)
  | .scrollUp top bottom count cell span => grid.scrollUp top bottom count cell span
  | .scrollDown top bottom count cell span => (grid.scrollDown top bottom count cell span).map ([], ·)
  | .markSoftWrapped row => (grid.markSoftWrapped row).map ([], ·)
  | .clearSoftWrapped row => (grid.clearSoftWrapped row).map ([], ·)
  | .markAllDirty => some ([], grid.markAllDirty)

/-- Operations in order, with the rows that each takes off the grid. -/
def performAll (grid : Grid) : List ScreenOp → Option (List (List ScreenRow) × Grid)
  | [] => some ([], grid)
  | operation :: rest => do
    let (removed, grid) ← grid.perform operation
    let (more, grid) ← performAll grid rest
    some (removed :: more, grid)

end

end Grid

namespace Screen

/-- What the screen stands for: its rows from the top down. -/
def toGrid (screen : Screen) : Grid where
  dimensions := screen.dimensions
  rows := screen.lines.rotate screen.top
  dirtyRows := screen.dirtyRows

variable [Platform]

def perform (screen : Screen) : ScreenOp → Option (List ScreenRow × Screen)
  | .replaceCell column row cell => (screen.replaceCell column row cell).map ([], ·)
  | .replaceCluster column row cell => (screen.replaceCluster column row cell).map ([], ·)
  | .fillRectangle rectangle cell spareProtected =>
    (screen.fillRectangle rectangle cell spareProtected).map ([], ·)
  | .copyRectangle source top left => (screen.copyRectangle source top left).map ([], ·)
  | .fillLinear start stop cell => (screen.fillLinear start stop cell).map ([], ·)
  | .fillLinearSparingProtected start stop cell =>
    (screen.fillLinearSparingProtected start stop cell).map ([], ·)
  | .clearAll cell => some ([], screen.clearAll cell)
  | .insertCharacters column row count cell span =>
    (screen.insertCharacters column row count cell span).map ([], ·)
  | .deleteCharacters column row count cell span =>
    (screen.deleteCharacters column row count cell span).map ([], ·)
  | .insertLines row bottom count cell span =>
    (screen.insertLines row bottom count cell span).map ([], ·)
  | .deleteLines row bottom count cell span =>
    (screen.deleteLines row bottom count cell span).map ([], ·)
  | .scrollUp top bottom count cell span => screen.scrollUp top bottom count cell span
  | .scrollDown top bottom count cell span =>
    (screen.scrollDown top bottom count cell span).map ([], ·)
  | .markSoftWrapped row => (screen.markSoftWrapped row).map ([], ·)
  | .clearSoftWrapped row => (screen.clearSoftWrapped row).map ([], ·)
  | .markAllDirty => some ([], screen.markAllDirty)

/-- A sequence of operations, with the rows that left the screen in each. -/
def performAll (screen : Screen) : List ScreenOp → Option (List (List ScreenRow) × Screen)
  | [] => some ([], screen)
  | operation :: rest => do
    let (removed, screen) ← screen.perform operation
    let (more, screen) ← performAll screen rest
    some (removed :: more, screen)

end Screen

end FesTerm
