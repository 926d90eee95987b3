import FesTerm.Core.Screen
import FesTerm.Core.Modes

/-!
# Screen buffers

The `BufferState` of `terminal.rs`: a screen with its cursor, margins and saved cursors, the two ways
it is resized, and its recovery check. The alternate buffer is clipped and padded; the primary one is
folded into the history, rewrapped, and its tail split off again.

Allocations are assumed to succeed, so that `new`, `resized` and `reflowed` return no error; `none`
stands for a failing index, subtraction or `expect`.
-/

namespace FesTerm

open Checked

/-- A position in the combined rows of history and primary screen. -/
structure ContentPosition where
  column : Nat
  absoluteRow : Nat
  deriving DecidableEq

structure SavedDecState where
  cursor : Cursor
  pendingWrap : Bool
  attributes : Attributes
  foreground : Color
  background : Color
  originMode : Bool
  «protected» : Bool
  protection : ProtectionSource
  deriving DecidableEq

structure SavedAnsiCursor where
  cursor : Cursor
  «protected» : Bool
  protection : ProtectionSource
  deriving DecidableEq

/-- A screen with its cursor, margins, marks and saved states. -/
structure BufferState where
  screen : Screen
  cursor : Cursor
  scrollTop : Nat
  scrollBottom : Nat
  scrollLeft : Nat
  scrollRight : Nat
  pendingWrap : Bool
  graphemeAnchor : Option Cursor
  decSaved : Option SavedDecState
  ansiSaved : Option SavedAnsiCursor
  deriving DecidableEq

/-- `usize::clamp`, which panics on an empty range. -/
def clamp (value low high : Nat) : Option Nat :=
  if low ≤ high then some (max low (min value high)) else none

def validateCursor (cursor : Cursor) (dimensions : Dimensions) (label : String) : Except String Unit :=
  if cursor.column ≥ dimensions.columns ∨ cursor.row ≥ dimensions.rows then
    .error s!"{label} ({cursor.column}, {cursor.row}) exceeds the {dimensions.columns}x{dimensions.rows} screen"
  else .ok ()

/-- `if let Some(cursor) = …` around `validate_cursor`. -/
def validateOptionalCursor (cursor : Option Cursor) (dimensions : Dimensions) (label : String) :
    Except String Unit :=
  match cursor with
  | none => .ok ()
  | some cursor => validateCursor cursor dimensions label

def validateScrollRegion (start stop limit : Nat) (label : String) : Except String Unit :=
  if start ≥ limit ∨ stop ≥ limit ∨ start > stop then
    .error s!"{label} [{start}, {stop}] exceeds the 0..{limit - 1} range"
  else .ok ()

namespace BufferState

section

variable [Platform]

def new (dimensions : Dimensions) : BufferState where
  screen := Screen.new dimensions
  cursor := ⟨0, 0⟩
  scrollTop := 0
  scrollBottom := dimensions.rows - 1
  scrollLeft := 0
  scrollRight := dimensions.columns - 1
  pendingWrap := false
  graphemeAnchor := none
  decSaved := none
  ansiSaved := none

section

omit [Platform]

/-- `resized_horizontal_margins`: full margins stay full, others are clamped and dropped when the
screen shrank past them. -/
def resizedHorizontalMargins (buffer : BufferState) (dimensions : Dimensions) : Nat × Nat :=
  let oldColumns := buffer.screen.dimensions.columns
  let columns := dimensions.columns
  let wasFullWidth := buffer.scrollLeft = 0 ∧ buffer.scrollRight + 1 = oldColumns
  let left := min buffer.scrollLeft (columns - 1)
  let right := min buffer.scrollRight (columns - 1)
  if wasFullWidth ∨ left ≥ right ∧ columns > 1 then (0, columns - 1) else (left, right)

/-- The vertical margins after a resize, by the same rule. -/
def resizedVerticalMargins (buffer : BufferState) (dimensions : Dimensions) : Nat × Nat :=
  let wasFullScreen := buffer.scrollTop = 0 ∧ buffer.scrollBottom + 1 = buffer.screen.dimensions.rows
  let top := min buffer.scrollTop (dimensions.rows - 1)
  let bottom := min buffer.scrollBottom (dimensions.rows - 1)
  if wasFullScreen ∨ top ≥ bottom ∧ dimensions.rows > 1 then (0, dimensions.rows - 1) else (top, bottom)

def graphemeAnchorSurvivesResize (buffer : BufferState) (anchor : Cursor) (dimensions : Dimensions) :
    Option Bool :=
  if anchor.column ≥ dimensions.columns ∨ anchor.row ≥ dimensions.rows then some false
  else do
    match ← buffer.screen.cell anchor.column anchor.row with
    | none => some false
    | some cell =>
      match cell.width with
      | .single => some true
      | .double => do
        if anchor.column + 1 < dimensions.columns then
          let next ← buffer.screen.cell (anchor.column + 1) anchor.row
          some (next.any Cell.isContinuation)
        else some false
      | .continuation => some false

def clampCursor (cursor : Cursor) (dimensions : Dimensions) : Cursor :=
  ⟨min cursor.column (dimensions.columns - 1), min cursor.row (dimensions.rows - 1)⟩

def savedRow (originMode : Bool) (row top bottom : Nat) : Option Nat :=
  if originMode then clamp row top bottom else some row

def clampSavedStates (buffer : BufferState) (dimensions : Dimensions) : Option BufferState := do
  let decSaved ← match buffer.decSaved with
    | none => some none
    | some saved => do
      let cursor := clampCursor saved.cursor dimensions
      let row ← savedRow saved.originMode cursor.row buffer.scrollTop buffer.scrollBottom
      some (some { saved with
        cursor := ⟨cursor.column, row⟩
        pendingWrap := saved.pendingWrap && cursor.column + 1 == dimensions.columns })
  let ansiSaved := buffer.ansiSaved.map fun saved =>
    { saved with cursor := clampCursor saved.cursor dimensions }
  some { buffer with decSaved := decSaved, ansiSaved := ansiSaved }

/-- The grapheme anchor after a clip: it stays when its cluster does. -/
def resizedAnchor (buffer : BufferState) (dimensions : Dimensions) : Option (Option Cursor) :=
  match buffer.graphemeAnchor with
  | none => some none
  | some anchor => do
    let survives ← buffer.graphemeAnchorSurvivesResize anchor dimensions
    some (if survives then some anchor else none)

end

/-- `BufferState::resized`: the rectangular clip and pad. -/
def resized (buffer : BufferState) (dimensions : Dimensions) : Option BufferState := do
  let (scrollLeft, scrollRight) := buffer.resizedHorizontalMargins dimensions
  let (scrollTop, scrollBottom) := buffer.resizedVerticalMargins dimensions
  let cursor := clampCursor buffer.cursor dimensions
  let graphemeAnchor ← buffer.resizedAnchor dimensions
  clampSavedStates {
    screen := ← buffer.screen.resized dimensions
    cursor := cursor
    scrollTop := scrollTop
    scrollBottom := scrollBottom
    scrollLeft := scrollLeft
    scrollRight := scrollRight
    pendingWrap := buffer.pendingWrap && cursor.column + 1 == dimensions.columns
    graphemeAnchor := graphemeAnchor
    decSaved := buffer.decSaved
    ansiSaved := buffer.ansiSaved } dimensions

section

omit [Platform]

/-- `content_rows`: the rows through the cursor or the last occupied row. -/
def contentRows (buffer : BufferState) : Option Nat := do
  let occupied ← buffer.screen.occupiedRowCount
  some (min buffer.screen.dimensions.rows (max occupied (buffer.cursor.row + 1)))

/-- The row of a position among the rows of the history followed by those of the screen. -/
def relativeRow (scrollback : Scrollback) (absoluteRow : Nat) : Option Nat :=
  if absoluteRow < scrollback.screenRowOrigin then
    if scrollback.contentRowOrigin ≤ absoluteRow ∧
        absoluteRow - scrollback.contentRowOrigin < scrollback.totalPhysicalRows then
      some (absoluteRow - scrollback.contentRowOrigin)
    else none
  else some (scrollback.totalPhysicalRows + (absoluteRow - scrollback.screenRowOrigin))

/-- The anchor of a position in the combined rows, before they are rewrapped. -/
def positionAnchor (scrollback combined : Scrollback) (position : ContentPosition) :
    Option (Option LogicalAnchor) :=
  match relativeRow scrollback position.absoluteRow with
  | none => some none
  | some row =>
    if row < combined.totalPhysicalRows then combined.lineAndOffsetAt row position.column else some none

/-- Resolve an anchor that may be missing. -/
def resolve (combined : Scrollback) : Option LogicalAnchor → Option (Option (Nat × Nat))
  | none => some none
  | some anchor => combined.resolveAnchor anchor

/-- A resolved position re-based on the rows that stay after the split and the eviction. -/
def rebase (kept : Scrollback) (dimensions : Dimensions) (evictedRows : Nat) (column relativeRow : Nat) :
    Option ContentPosition :=
  if evictedRows ≤ relativeRow then
    let adjustedRow := relativeRow - evictedRows
    let absoluteRow :=
      if adjustedRow < kept.totalPhysicalRows then kept.contentRowOrigin + adjustedRow
      else kept.screenRowOrigin + (adjustedRow - kept.totalPhysicalRows)
    if adjustedRow < kept.totalPhysicalRows + dimensions.rows then some ⟨column, absoluteRow⟩ else none
  else none

/-- The cursor after a reflow: where its anchor lies on the new screen, else the last row. -/
def reflowedCursor (kept : Scrollback) (dimensions : Dimensions) (evictedRows : Nat) :
    Option (Nat × Nat) → Cursor
  | some (column, row) =>
    if evictedRows ≤ row ∧ kept.totalPhysicalRows ≤ row - evictedRows then
      ⟨min column (dimensions.columns - 1),
        min (row - evictedRows - kept.totalPhysicalRows) (dimensions.rows - 1)⟩
    else ⟨0, dimensions.rows - 1⟩
  | none => ⟨0, dimensions.rows - 1⟩

end

/-- `BufferState::reflowed`: the new primary buffer, the history below it, and the positions. -/
def reflowed (buffer : BufferState) (dimensions : Dimensions) (scrollback : Scrollback)
    (positions : List ContentPosition) :
    Option (BufferState × Scrollback × List (Option ContentPosition)) := do
  let oldDimensions := buffer.screen.dimensions
  let rowsBeforeScreen := scrollback.totalPhysicalRows
  let contentRows ← buffer.contentRows
  let foldRows := (← buffer.screen.toRows).take contentRows
  -- the complete live screen is rewrapped even when history is disabled or full
  let combined ← scrollback.setLimitBytes none
  let combined ← combined.pushRows foldRows
  let lastContentRow ← sub contentRows 1
  let cursorAbsoluteRow := rowsBeforeScreen + min buffer.cursor.row lastContentRow
  let cursorAnchor ← combined.lineAndOffsetAt cursorAbsoluteRow buffer.cursor.column
  let positionAnchors ← positions.mapM (positionAnchor scrollback combined)
  let combined := if dimensions.columns ≠ oldDimensions.columns then combined.reflow dimensions.columns
    else combined
  let resolvedAnchor ← resolve combined cursorAnchor
  let resolvedPositions ← positionAnchors.mapM (resolve combined)
  let originBeforeSplit := combined.contentRowOrigin
  let (kept, tailRows) ← combined.splitOffTail dimensions.rows
  let kept ← kept.setLimitBytes scrollback.limitBytes
  let evictedRows := kept.contentRowOrigin - originBeforeSplit
  let positions := resolvedPositions.map fun position =>
    position.bind fun (column, row) => rebase kept dimensions evictedRows column row
  let screen ← Screen.fromRows dimensions tailRows
  let cursor := reflowedCursor kept dimensions evictedRows resolvedAnchor
  let (scrollTop, scrollBottom) := buffer.resizedVerticalMargins dimensions
  let (scrollLeft, scrollRight) := buffer.resizedHorizontalMargins dimensions
  let resized ← clampSavedStates {
    screen := screen
    cursor := cursor
    scrollTop := scrollTop
    scrollBottom := scrollBottom
    scrollLeft := scrollLeft
    scrollRight := scrollRight
    pendingWrap := buffer.pendingWrap && cursor.column + 1 == dimensions.columns
    graphemeAnchor := none
    decSaved := buffer.decSaved
    ansiSaved := buffer.ansiSaved } dimensions
  some (resized, kept, positions)

def reset (buffer : BufferState) : BufferState where
  screen := buffer.screen.clearAll blankCell
  cursor := ⟨0, 0⟩
  scrollTop := 0
  scrollBottom := buffer.screen.dimensions.rows - 1
  scrollLeft := 0
  scrollRight := buffer.screen.dimensions.columns - 1
  pendingWrap := false
  graphemeAnchor := none
  decSaved := none
  ansiSaved := none

end

/-- What a restored buffer is checked for. -/
def validateRecoveryState (buffer : BufferState) : Option (Except String Unit) := do
  let dimensions := buffer.screen.dimensions
  let screen ← buffer.screen.validateRecoveryState
  return do
    screen
    validateCursor buffer.cursor dimensions "buffer cursor"
    validateScrollRegion buffer.scrollTop buffer.scrollBottom dimensions.rows
      "buffer vertical scroll region"
    validateScrollRegion buffer.scrollLeft buffer.scrollRight dimensions.columns
      "buffer horizontal scroll region"
    if buffer.pendingWrap && buffer.cursor.column + 1 != dimensions.columns then
      throw "buffer stores pending wrap away from the last column"
    validateOptionalCursor buffer.graphemeAnchor dimensions "buffer grapheme anchor"
    validateOptionalCursor (buffer.decSaved.map (·.cursor)) dimensions "saved DEC cursor"
    validateOptionalCursor (buffer.ansiSaved.map (·.cursor)) dimensions "saved ANSI cursor"

end BufferState

end FesTerm
