import FesTerm.Core.Cell
import FesTerm.Lib.Checked

/-!
# Retained primary-screen history

`history.rs`: the bounded list of logical lines that have scrolled off the primary screen. A logical
line is a stream of cells with the ends of its physical rows at the current width; it is charged by
allocated capacity, and `enforceLimit` brings the total charge back under the limit by evicting whole
lines from the front and then trimming rows from the front of a line that is still open.

Positions, counters and charges are natural numbers: the saturating counters and the wrapping line
id are assumed not to reach their limits. A byte limit is `none` when it is `usize::MAX`, which no
charge exceeds. Operations return `none` where the source would stop on an index, a slice, an
`expect` or a subtraction.
-/

namespace FesTerm

open Checked

/-- A byte limit; `none` is `usize::MAX`. -/
abbrev ByteLimit := Option Nat

/-- `charged > limit`. -/
def ByteLimit.exceededBy : ByteLimit → Nat → Bool
  | none, _ => false
  | some limit, charged => limit < charged

/-- `limit / 2`. -/
def ByteLimit.half : ByteLimit → Nat
  | none => usizeMax / 2
  | some limit => limit / 2

/-- The charge is within the limit. -/
def ByteLimit.Respects (limit : ByteLimit) (charged : Nat) : Prop := limit.exceededBy charged = false

/-- A row as it leaves or enters the screen: its cells up to the occupied extent. -/
structure ScreenRow where
  cells : List Cell
  softWrapped : Bool
  deriving DecidableEq

/-- A line of the history: its cells, the ends of its rows and what it is charged. -/
structure LogicalLine where
  id : Nat
  cells : List Cell
  cellCapacity : Nat
  rowEnds : List Nat
  rowEndCapacity : Nat
  physicalRows : Nat
  hardBreak : Bool
  chargedBytes : Nat
  cellOwnedBytes : Nat
  /-- Count of cells ever removed from the front of this line by trimming. -/
  trimmedOffset : Nat
  deriving DecidableEq

structure LogicalAnchor where
  lineId : Nat
  lineIndexHint : Nat
  offset : Nat
  endBoundary : Bool
  trimmedOffsetAtCapture : Nat
  deriving DecidableEq

/-- The retained history, under its limit. -/
structure Scrollback where
  limitBytes : ByteLimit
  chargedBytes : Nat
  lines : List LogicalLine
  nextId : Nat
  evictedLines : Nat
  contentRowOrigin : Nat
  screenRowOrigin : Nat
  oversizeLines : Nat
  activeOversizeLine : Option (Nat × Nat)
  /-- Absolute physical-row index of each retained line's first row. -/
  lineRowStarts : List Nat
  deriving DecidableEq

def cellOwnedCharge (cell : Cell) : Nat := cell.textOwnedCharge + (cell.hyperlink.elim 0 utf8Len)

def ownedCharge (cells : List Cell) : Nat := (cells.map cellOwnedCharge).sum

section Lines

variable [Platform]

def compactLineCharge (cellCapacity rowEndCapacity cellOwnedBytes : Nat) : Nat :=
  Platform.sizeOfLogicalLine + Platform.sizeOfCell * cellCapacity + cellOwnedBytes +
    Platform.sizeOfUsize * rowEndCapacity

namespace LogicalLine

omit [Platform] in
/-- The start of a physical row: the end of the row before it, or 0. -/
def rowStart (line : LogicalLine) (row : Nat) : Nat :=
  match row with
  | 0 => 0
  | previous + 1 => (line.rowEnds[previous]?).getD 0

omit [Platform] in
/-- `physical_row`: the outer `Option` is a failing slice, the inner one a row past the end. -/
def physicalRow (line : LogicalLine) (row : Nat) : Option (Option (List Cell)) :=
  match line.rowEnds[row]? with
  | none => some none
  | some stop => do
    let cells ← slice line.cells (line.rowStart row) stop
    some (some cells)

def recalculateCharge (line : LogicalLine) : LogicalLine :=
  { line with
    chargedBytes := compactLineCharge line.cellCapacity line.rowEndCapacity line.cellOwnedBytes }

/-- Both buffers after `shrink_to_fit`. -/
def shrinkToFit (line : LogicalLine) : LogicalLine :=
  { line with cellCapacity := line.cells.length, rowEndCapacity := line.rowEnds.length }

/-- The loop of `trim_oldest_physical_rows_to`. The last argument counts the rows not yet dropped;
the result is the number of rows and cells to drop and the owned bytes they hold. -/
def trimScan (line : LogicalLine) (targetBytes : Nat) (rowsToDrop cellsToDrop removedOwned : Nat) :
    Nat → Option (Nat × Nat × Nat)
  | 0 => some (rowsToDrop, cellsToDrop, removedOwned)
  | rows + 1 =>
    if compactLineCharge (line.cells.length - cellsToDrop) (line.rowEnds.length - rowsToDrop)
          (line.cellOwnedBytes - removedOwned) ≤ targetBytes ∧
        (0 < rowsToDrop ∨ line.chargedBytes ≤ targetBytes) then
      some (rowsToDrop, cellsToDrop, removedOwned)
    else do
      let rowEnd ← line.rowEnds[rowsToDrop]?
      let dropped ← slice line.cells cellsToDrop rowEnd
      trimScan line targetBytes (rowsToDrop + 1) rowEnd (removedOwned + ownedCharge dropped) rows

/-- `trim_oldest_physical_rows_to`: the trimmed line and the number of rows it lost. -/
def trimOldestPhysicalRowsTo (line : LogicalLine) (targetBytes : Nat) : Option (LogicalLine × Nat) := do
  let (rowsToDrop, cellsToDrop, removedOwned) ← line.trimScan targetBytes 0 0 0 line.physicalRows
  if rowsToDrop = 0 then
    return (line, 0)
  let _ ← slice line.cells 0 cellsToDrop
  let _ ← slice line.rowEnds 0 rowsToDrop
  let rowEnds ← (line.rowEnds.drop rowsToDrop).mapM (fun rowEnd => sub rowEnd cellsToDrop)
  let line := shrinkToFit { line with cells := line.cells.drop cellsToDrop, rowEnds := rowEnds }
  let line := { line with
    physicalRows := line.physicalRows - rowsToDrop
    trimmedOffset := line.trimmedOffset + cellsToDrop
    cellOwnedBytes := line.cellOwnedBytes - removedOwned }
  return (line.recalculateCharge, rowsToDrop)

section

omit [Platform]

def anchorForRow (line : LogicalLine) (row column : Nat) : LogicalAnchor :=
  let start := line.rowStart row
  let stop := (line.rowEnds[row]?).getD line.cells.length
  let rowLen := stop - start
  { lineId := line.id
    lineIndexHint := 0
    offset := line.trimmedOffset + start + min column rowLen
    endBoundary := rowLen ≤ column
    trimmedOffsetAtCapture := line.trimmedOffset }

/-- `locate_offset`: the physical row and the column in it of a cell-stream offset. -/
def locateOffset (line : LogicalLine) (offset : Nat) (endBoundary : Bool) : Option (Option (Nat × Nat)) :=
  if offset < line.trimmedOffset then some none
  else do
    let offset := min (offset - line.trimmedOffset) line.cells.length
    let row := min (line.rowEnds.takeWhile (fun stop =>
      if endBoundary then stop < offset else stop ≤ offset)).length (line.rowEnds.length - 1)
    let column ← sub offset (line.rowStart row)
    some (some (row, column))

/-- The row ends that `reflow` computes: a greedy wrap that keeps a `double` cell and its
`continuation` in one row. -/
def wrapRows (columns : Nat) : List Cell → Nat → Nat → List Nat
  | [], index, _ => [index]
  | [_], index, used =>
    if 0 < used ∧ columns < used + 1 then [index, index + 1] else [index + 1]
  | cell :: next :: rest, index, used =>
    if cell.width = .double ∧ next.width = .continuation then
      if 0 < used ∧ columns < used + 2 then index :: wrapRows columns rest (index + 2) 2
      else wrapRows columns rest (index + 2) (used + 2)
    else
      if 0 < used ∧ columns < used + 1 then index :: wrapRows columns (next :: rest) (index + 1) 1
      else wrapRows columns (next :: rest) (index + 1) (used + 1)

end

/-- The line at another width. -/
def reflow (line : LogicalLine) (columns : Nat) : LogicalLine :=
  let rowEnds := wrapRows (max columns 1) line.cells 0 0
  { line with
    rowEnds := rowEnds
    physicalRows := rowEnds.length
    rowEndCapacity := pushedCapacity rowEnds.length }.recalculateCharge

end LogicalLine

namespace Scrollback

section

omit [Platform]

/-- No line is retained. -/
def new (limitBytes : ByteLimit) : Scrollback where
  limitBytes := limitBytes
  chargedBytes := 0
  lines := []
  nextId := 0
  evictedLines := 0
  contentRowOrigin := 0
  screenRowOrigin := 0
  oversizeLines := 0
  activeOversizeLine := none
  lineRowStarts := []

/-- The loop of `evict_complete_lines`, over the retained lines. -/
def evictLoop (sb : Scrollback) : List LogicalLine → Scrollback
  | [] => sb
  | line :: rest =>
    if sb.limitBytes.exceededBy sb.chargedBytes ∧ line.hardBreak then
      evictLoop { sb with
        lines := rest
        lineRowStarts := sb.lineRowStarts.tail
        chargedBytes := sb.chargedBytes - line.chargedBytes
        evictedLines := sb.evictedLines + 1
        contentRowOrigin := sb.contentRowOrigin + line.physicalRows } rest
    else sb

def evictCompleteLines (sb : Scrollback) : Scrollback := sb.evictLoop sb.lines

end

/-- The trimming loop of `enforce_limit`: the front line, the total charge and the rows removed so
far. Every round drops at least one row, so the rows of the line bound the rounds. -/
def trimLoop (targetBytes : Nat) : Nat → LogicalLine → Nat → Nat → Option (LogicalLine × Nat × Nat)
  | 0, line, charged, removed => some (line, charged, removed)
  | rounds + 1, line, charged, removed =>
    if targetBytes < line.chargedBytes ∧ 0 < line.physicalRows then do
      let (trimmed, rows) ← line.trimOldestPhysicalRowsTo targetBytes
      if rows = 0 then
        some (line, charged, removed)
      else
        trimLoop targetBytes rounds trimmed (charged - (line.chargedBytes - trimmed.chargedBytes))
          (removed + rows)
    else some (line, charged, removed)

def enforceLimit (sb : Scrollback) : Option Scrollback := do
  let sb := sb.evictCompleteLines
  if sb.limitBytes.exceededBy sb.chargedBytes then
    match sb.lines with
    | [] => some sb
    | line :: rest =>
      let (line, charged, removed) ←
        trimLoop sb.limitBytes.half line.physicalRows line sb.chargedBytes 0
      let sb := { sb with
        lines := line :: rest
        chargedBytes := charged
        contentRowOrigin := sb.contentRowOrigin + removed
        lineRowStarts := sb.lineRowStarts.modifyHead (· + removed) }
      let sb := if 0 < removed then
          { sb with
            oversizeLines :=
              if sb.activeOversizeLine.map Prod.fst ≠ some line.id then sb.oversizeLines + 1
              else sb.oversizeLines
            activeOversizeLine := some (line.id, line.trimmedOffset) }
        else sb
      if line.physicalRows = 0 then
        some { sb with
          lines := rest
          lineRowStarts := sb.lineRowStarts.tail
          chargedBytes := sb.chargedBytes - line.chargedBytes }
      else some sb
  else some sb

def setLimitBytes (sb : Scrollback) (limitBytes : ByteLimit) : Option Scrollback :=
  enforceLimit { sb with limitBytes := limitBytes }

/-- A line without rows. -/
def emptyLine (id trimmedOffset : Nat) : LogicalLine where
  id := id
  cells := []
  cellCapacity := 0
  rowEnds := []
  rowEndCapacity := 0
  physicalRows := 0
  hardBreak := false
  chargedBytes := Platform.sizeOfLogicalLine
  cellOwnedBytes := 0
  trimmedOffset := trimmedOffset

/-- `push_row` when the last retained line is complete: a new line is opened. A line that was trimmed
away whole while it was still open continues under its own id. -/
def openLine (sb : Scrollback) : Scrollback :=
  let sb := { sb with lineRowStarts := sb.lineRowStarts ++ [sb.screenRowOrigin - 1] }
  let continuedOversize := if sb.lines.isEmpty then sb.activeOversizeLine else none
  let (sb, id, trimmedOffset) := match continuedOversize with
    | some (id, trimmedOffset) => (sb, id, trimmedOffset)
    | none => ({ sb with activeOversizeLine := none, nextId := sb.nextId + 1 }, sb.nextId, 0)
  { sb with
    lines := sb.lines ++ [emptyLine id trimmedOffset]
    chargedBytes := sb.chargedBytes + Platform.sizeOfLogicalLine }

/-- The last line of `push_row` with one more row. -/
def appendRow (limitBytes : ByteLimit) (activeOversizeLine : Option Nat) (line : LogicalLine)
    (row : ScreenRow) : LogicalLine :=
  let cells := line.cells ++ row.cells
  let rowEnds := line.rowEnds ++ [cells.length]
  let line := LogicalLine.recalculateCharge { line with
    cellOwnedBytes := line.cellOwnedBytes + ownedCharge row.cells
    cells := cells
    cellCapacity := reserve line.cellCapacity cells.length
    rowEnds := rowEnds
    rowEndCapacity := reserve line.rowEndCapacity rowEnds.length
    physicalRows := line.physicalRows + 1
    hardBreak := !row.softWrapped }
  if !row.softWrapped ∨ limitBytes.exceededBy line.chargedBytes ∧ activeOversizeLine ≠ some line.id then
    line.shrinkToFit.recalculateCharge
  else line

def pushRow (sb : Scrollback) (row : ScreenRow) : Option Scrollback := do
  let sb := { sb with screenRowOrigin := sb.screenRowOrigin + 1 }
  let endsLine := !row.softWrapped
  if sb.limitBytes = some 0 then
    -- Nothing is retained: the empty retained range follows the screen.
    return { sb with
      contentRowOrigin := sb.screenRowOrigin
      activeOversizeLine := if endsLine then none else sb.activeOversizeLine }
  let sb := if sb.lines.getLast?.all (·.hardBreak) then sb.openLine else sb
  let line ← sb.lines.getLast?
  let appended := appendRow sb.limitBytes (sb.activeOversizeLine.map Prod.fst) line row
  let sb ← enforceLimit { sb with
    lines := sb.lines.dropLast ++ [appended]
    chargedBytes := sb.chargedBytes - line.chargedBytes + appended.chargedBytes }
  return if endsLine then { sb with activeOversizeLine := none } else sb

def pushRows (sb : Scrollback) (rows : List ScreenRow) : Option Scrollback := rows.foldlM pushRow sb

omit [Platform] in
def clear (sb : Scrollback) : Scrollback :=
  { sb with
    contentRowOrigin := sb.screenRowOrigin
    lines := []
    lineRowStarts := []
    chargedBytes := 0
    activeOversizeLine := none }

/-- The loop of `reflow` over the lines and their row starts: the charge and the next row start are
threaded through. -/
def reflowLoop (columns : Nat) : List LogicalLine → List Nat → Nat → Nat →
    List LogicalLine × List Nat × Nat × Nat
  | line :: lines, _ :: starts, charged, cursor =>
    let line' := line.reflow columns
    let (lines', starts', charged', cursor') := reflowLoop columns lines starts
      (charged - line.chargedBytes + line'.chargedBytes) (cursor + line'.physicalRows)
    (line' :: lines', cursor :: starts', charged', cursor')
  | lines, starts, charged, cursor => (lines, starts, charged, cursor)

def reflow (sb : Scrollback) (columns : Nat) : Scrollback :=
  let (lines, starts, charged, cursor) :=
    reflowLoop columns sb.lines sb.lineRowStarts sb.chargedBytes sb.contentRowOrigin
  { sb with
    lines := lines
    lineRowStarts := starts
    chargedBytes := charged
    screenRowOrigin := cursor }

section

omit [Platform]

def totalPhysicalRows (sb : Scrollback) : Nat := sb.screenRowOrigin - sb.contentRowOrigin

/-- The binary search of `line_index_for_absolute_row`; the first argument bounds the halvings. -/
def searchRowStarts (starts : List Nat) (target : Nat) : Nat → Nat → Nat → Option Nat
  | 0, low, _ => some low
  | fuel + 1, low, high =>
    if low < high then do
      let mid := low + (high - low) / 2
      let start ← starts[mid]?
      if start ≤ target then searchRowStarts starts target fuel (mid + 1) high
      else searchRowStarts starts target fuel low mid
    else some low

/-- `line_index_for_absolute_row`; the outer `Option` is a failing index. -/
def lineIndexForAbsoluteRow (sb : Scrollback) (target : Nat) : Option (Option Nat) :=
  if sb.lineRowStarts.isEmpty then some none
  else do
    let low ← searchRowStarts sb.lineRowStarts target sb.lineRowStarts.length 0
      sb.lineRowStarts.length
    some (if low = 0 then none else some (low - 1))

/-- The line holding retained physical row `row` and the row's index in it. -/
def lineAt (sb : Scrollback) (row : Nat) : Option (Option (Nat × LogicalLine × Nat)) := do
  let target := sb.contentRowOrigin + row
  match ← sb.lineIndexForAbsoluteRow target with
  | none => some none
  | some index =>
    let line ← sb.lines[index]?
    let start ← sb.lineRowStarts[index]?
    let localRow ← sub target start
    some (some (index, line, localRow))

def physicalRow (sb : Scrollback) (row : Nat) : Option (Option (List Cell)) := do
  match ← sb.lineAt row with
  | none => some none
  | some (_, line, localRow) => line.physicalRow localRow

def lineAndOffsetAt (sb : Scrollback) (absoluteRow column : Nat) : Option (Option LogicalAnchor) := do
  match ← sb.lineAt absoluteRow with
  | none => some none
  | some (index, line, row) =>
    if row < line.physicalRows then
      some (some { line.anchorForRow row column with lineIndexHint := index })
    else some none

/-- The index of the line an anchor names: its hint when the identity agrees, else a scan. -/
def anchorLineIndex (sb : Scrollback) (anchor : LogicalAnchor) : Option Nat :=
  match sb.lines[anchor.lineIndexHint]? with
  | some line =>
    if line.id = anchor.lineId then some anchor.lineIndexHint
    else sb.lines.findIdx? (fun line => line.id == anchor.lineId)
  | none => sb.lines.findIdx? (fun line => line.id == anchor.lineId)

/-- `resolve_anchor`: the column and the retained row an anchor names now. -/
def resolveAnchor (sb : Scrollback) (anchor : LogicalAnchor) : Option (Option (Nat × Nat)) :=
  match sb.anchorLineIndex anchor with
  | none => some none
  | some index => do
    let line ← sb.lines[index]?
    if anchor.endBoundary ∧ anchor.trimmedOffsetAtCapture < line.trimmedOffset ∧
        anchor.offset ≤ line.trimmedOffset then
      some none
    else
      match ← line.locateOffset anchor.offset anchor.endBoundary with
      | none => some none
      | some (row, column) =>
        let start ← sb.lineRowStarts[index]?
        if start < sb.contentRowOrigin then some none
        else some (some (column, start - sb.contentRowOrigin + row))

/-- The physical rows `first..physical_rows` of a line as screen rows. -/
def tailRows (line : LogicalLine) (first : Nat) : Option (List ScreenRow) :=
  (List.range' first (line.physicalRows - first)).mapM fun row => do
    let found ← line.physicalRow row
    let cells ← found
    some { cells := cells, softWrapped := row + 1 ≠ line.physicalRows ∨ !line.hardBreak }

end

/-- The prefix of a line that `split_off_tail` keeps. -/
def keepPrefix (line : LogicalLine) (keepRows : Nat) : Option LogicalLine := do
  let last ← sub keepRows 1
  let keepCellEnd ← line.rowEnds[last]?
  let removed ← slice line.cells keepCellEnd line.cells.length
  let line := LogicalLine.shrinkToFit { line with
    cells := line.cells.take keepCellEnd
    rowEnds := line.rowEnds.take keepRows }
  return LogicalLine.recalculateCharge { line with
    physicalRows := keepRows
    hardBreak := false
    cellOwnedBytes := line.cellOwnedBytes - ownedCharge removed }

/-- The loop of `split_off_tail`; the first argument counts the lines it may still pop. -/
def splitLoop : Nat → Scrollback → Nat → List ScreenRow → Option (Scrollback × List ScreenRow)
  | 0, sb, _, rows => some (sb, rows)
  | fuel + 1, sb, remaining, rows =>
    if remaining = 0 then some (sb, rows)
    else match sb.lines.getLast? with
    | none => some (sb, rows)
    | some line => do
      let lineStart := sb.lineRowStarts.getLast?
      let sb := { sb with
        lines := sb.lines.dropLast
        lineRowStarts := sb.lineRowStarts.dropLast
        chargedBytes := sb.chargedBytes - line.chargedBytes }
      if line.physicalRows ≤ remaining then
        let segment ← tailRows line 0
        splitLoop fuel sb (remaining - line.physicalRows) (segment ++ rows)
      else
        let keepRows := line.physicalRows - remaining
        let segment ← tailRows line keepRows
        let kept ← keepPrefix line keepRows
        let start ← lineStart
        some ({ sb with
          chargedBytes := sb.chargedBytes + kept.chargedBytes
          lines := sb.lines ++ [kept]
          lineRowStarts := sb.lineRowStarts ++ [start] }, segment ++ rows)

/-- `split_off_tail`: the history without its last `rows` physical rows, and those rows. -/
def splitOffTail (sb : Scrollback) (rows : Nat) : Option (Scrollback × List ScreenRow) := do
  let (sb, removed) ← splitLoop sb.lines.length sb rows []
  let sb ← sb.enforceLimit
  return ({ sb with screenRowOrigin := sb.screenRowOrigin - removed.length }, removed)

end Scrollback

/-! ## Recovery validation -/

namespace LogicalLine

omit [Platform] in
/-- The loop over the cells of one physical row: the columns it uses. `row` is paired with the
offsets of its cells. -/
def validateRowCells (line : LogicalLine) (row previousEnd rowEnd : Nat) :
    List (Cell × Nat) → Nat → Except String Nat
  | [], usedColumns => .ok usedColumns
  | (cell, offset) :: rest, usedColumns =>
    match cell.validateRecoveryState with
    | .error error =>
      .error s!"logical line {line.id} row {row} cell {previousEnd + offset} is invalid: {error}"
    | .ok () =>
      match cell.width with
      | .single => validateRowCells line row previousEnd rowEnd rest (usedColumns + 1)
      | .double =>
        if rowEnd ≤ previousEnd + offset + 1 ∨
            (line.cells[previousEnd + offset + 1]?).map Cell.width ≠ some .continuation then
          .error s!"logical line {line.id} row {row} contains an unterminated double-width cell"
        else validateRowCells line row previousEnd rowEnd rest (usedColumns + 2)
      | .continuation =>
        if offset = 0 ∨ (line.cells[previousEnd + offset - 1]?).map Cell.width ≠ some .double then
          .error s!"logical line {line.id} row {row} contains an orphaned continuation cell"
        else validateRowCells line row previousEnd rowEnd rest usedColumns

omit [Platform] in
/-- The loop over the physical rows. -/
def validateRows (line : LogicalLine) (columns : Nat) : List (Nat × Nat) → Nat → Except String Unit
  | [], _ => .ok ()
  | (rowEnd, row) :: rest, previousEnd =>
    if rowEnd < previousEnd ∨ line.cells.length < rowEnd then
      .error s!"logical line {line.id} row {row} ends at invalid cell index {rowEnd}"
    else
      match validateRowCells line row previousEnd rowEnd
          ((line.cells.drop previousEnd).take (rowEnd - previousEnd)).zipIdx 0 with
      | .error error => .error error
      | .ok usedColumns =>
        if columns < usedColumns then
          .error s!"logical line {line.id} row {row} occupies {usedColumns} columns in a {columns}-column grid"
        else validateRows line columns rest rowEnd

def validateRecoveryState (line : LogicalLine) (columns : Nat) : Except String Unit :=
  if line.physicalRows = 0 then
    .error s!"logical line {line.id} stores zero physical rows"
  else if line.rowEnds.length ≠ line.physicalRows then
    .error s!"logical line {line.id} stores {line.rowEnds.length} row ends for {line.physicalRows} physical rows"
  else if line.cellCapacity < line.cells.length then
    .error s!"logical line {line.id} records cell capacity {line.cellCapacity} below {line.cells.length} retained cells"
  else if line.rowEndCapacity < line.rowEnds.length then
    .error s!"logical line {line.id} records row-end capacity {line.rowEndCapacity} below {line.rowEnds.length} retained row ends"
  else if line.rowEnds.getLast?.getD 0 ≠ line.cells.length then
    .error s!"logical line {line.id} ends at cell {line.rowEnds.getLast?.getD 0} but retains {line.cells.length} cells"
  else
    match line.validateRows columns line.rowEnds.zipIdx 0 with
    | .error error => .error error
    | .ok () =>
      if line.cellOwnedBytes ≠ ownedCharge line.cells then
        .error s!"logical line {line.id} records {line.cellOwnedBytes} owned cell bytes but retains {ownedCharge line.cells}"
      else if line.chargedBytes ≠
          compactLineCharge line.cellCapacity line.rowEndCapacity line.cellOwnedBytes then
        .error s!"logical line {line.id} records {line.chargedBytes} charged bytes but retains {compactLineCharge line.cellCapacity line.rowEndCapacity line.cellOwnedBytes}"
      else .ok ()

end LogicalLine

namespace Scrollback

/-- What the loop of the validator collects: the expected row starts, the next row, the total charge
and the retained line that `active_oversize_line` names. -/
structure Tally where
  expectedStarts : List Nat
  cursor : Nat
  totalCharged : Nat
  activeLine : Option LogicalLine

def tallyLines (sb : Scrollback) (columns : Nat) : List LogicalLine → Tally → Except String Tally
  | [], tally => .ok tally
  | line :: rest, tally =>
    match line.validateRecoveryState columns with
    | .error error => .error error
    | .ok () => tallyLines sb columns rest {
        expectedStarts := tally.expectedStarts ++ [tally.cursor]
        cursor := tally.cursor + line.physicalRows
        totalCharged := tally.totalCharged + line.chargedBytes
        activeLine :=
          if some line.id = sb.activeOversizeLine.map Prod.fst then some line else tally.activeLine }

/-- What a restored history is checked for. -/
def validateRecoveryState (sb : Scrollback) (columns : Nat) : Except String Unit :=
  if sb.lineRowStarts.length ≠ sb.lines.length then
    .error s!"scrollback stores {sb.lineRowStarts.length} row origins for {sb.lines.length} logical lines"
  else
    match sb.tallyLines columns sb.lines ⟨[], sb.contentRowOrigin, 0, none⟩ with
    | .error error => .error error
    | .ok tally =>
      if sb.lineRowStarts ≠ tally.expectedStarts then
        .error "scrollback row origins do not match the retained line layout"
      else if sb.screenRowOrigin ≠ tally.cursor then
        .error s!"scrollback ends at row {sb.screenRowOrigin} but the retained lines end at row {tally.cursor}"
      else if sb.chargedBytes ≠ tally.totalCharged then
        .error s!"scrollback records {sb.chargedBytes} charged bytes but retains {tally.totalCharged} bytes"
      else if sb.limitBytes.exceededBy sb.chargedBytes then
        .error s!"scrollback records {sb.chargedBytes} charged bytes above the {sb.limitBytes.getD usizeMax}-byte limit"
      else if sb.lines.isEmpty ∧ sb.activeOversizeLine.isSome then
        .error "scrollback tracks an active oversize line without any retained history"
      else
        match sb.activeOversizeLine with
        | none => .ok ()
        | some (lineId, trimmedOffset) =>
          match tally.activeLine with
          | none =>
            .error s!"scrollback tracks active oversize line {lineId}, but that line is not retained"
          | some line =>
            if trimmedOffset ≠ line.trimmedOffset then
              .error s!"scrollback tracks active oversize line {lineId} at trimmed offset {trimmedOffset}, but the retained line stores {line.trimmedOffset}"
            else .ok ()

end Scrollback

end Lines

end FesTerm
