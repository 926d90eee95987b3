import FesTerm.Core.Dispatch

/-!
# Text snapshots

The plain text of the retained history and the screen, as `terminal.rs` extracts it: hard breaks become
newlines, soft wraps do not. An accumulator counts bytes and lines and refuses a text that exceeds the
bounds it was given. As elsewhere the outer `Option` is a failing access; the `Except` inside it is the
refusal.
-/

namespace FesTerm

open Checked

/-- `TerminalTextSnapshotRefusal`. -/
inductive SnapshotRefusal where
  | tooLarge (bytes limit : Nat)
  | tooManyLines (lines limit : Nat)
  | lineTooLong (line limit : Nat)
  deriving DecidableEq

structure SnapshotBounds where
  maxBytes : Nat
  maxLines : Nat
  maxLineBytes : Nat
  deriving DecidableEq

inductive SnapshotScreen where
  | primary
  | alternate
  deriving DecidableEq

/-- `TerminalTextSnapshot`. -/
structure TextSnapshot where
  text : List Char
  screen : SnapshotScreen
  evictedLogicalLines : Nat
  deriving DecidableEq

structure SnapshotAccumulator where
  text : List Char
  bytes : Nat
  lines : Nat
  currentLineBytes : Nat
  trailingNewline : Bool
  bounds : Option SnapshotBounds
  deriving DecidableEq

namespace SnapshotAccumulator

def unbounded : SnapshotAccumulator where
  text := []
  bytes := 0
  lines := 1
  currentLineBytes := 0
  trailingNewline := false
  bounds := none

def bounded (maxBytes maxLines maxLineBytes : Nat) : SnapshotAccumulator :=
  { unbounded with bounds := some ⟨maxBytes, maxLines, maxLineBytes⟩ }

/-- A limit of the bounds, `usize::MAX` without bounds. -/
def limit (target : SnapshotAccumulator) (field : SnapshotBounds → Nat) : Nat :=
  (target.bounds.map field).getD usizeMax

def startLine (target : SnapshotAccumulator) : Except SnapshotRefusal SnapshotAccumulator :=
  if target.lines + 1 > usizeMax then .error (.tooManyLines usizeMax (target.limit (·.maxLines)))
  else if target.bounds.any (target.lines + 1 > ·.maxLines) then
    .error (.tooManyLines (target.lines + 1) (target.limit (·.maxLines)))
  else .ok { target with trailingNewline := false, lines := target.lines + 1 }

def reserveBytes (target : SnapshotAccumulator) (added : Nat) : Except SnapshotRefusal SnapshotAccumulator :=
  if target.bytes + added > usizeMax then .error (.tooLarge usizeMax (target.limit (·.maxBytes)))
  else if target.bounds.any (target.bytes + added > ·.maxBytes) then
    .error (.tooLarge (target.bytes + added) (target.limit (·.maxBytes)))
  else .ok { target with bytes := target.bytes + added }

def resume (target : SnapshotAccumulator) : Except SnapshotRefusal SnapshotAccumulator :=
  if target.trailingNewline then target.startLine else .ok target

def pushCellText (target : SnapshotAccumulator) (text : List Char) :
    Except SnapshotRefusal SnapshotAccumulator :=
  if text.isEmpty then .ok target
  else do
    let target ← target.resume
    let nextLineBytes := target.currentLineBytes + utf8Len text
    if nextLineBytes > usizeMax then
      throw (.lineTooLong target.lines (target.limit (·.maxLineBytes)))
    if target.bounds.any (nextLineBytes > ·.maxLineBytes) then
      throw (.lineTooLong target.lines (target.limit (·.maxLineBytes)))
    let target ← target.reserveBytes (utf8Len text)
    return { target with currentLineBytes := nextLineBytes, text := target.text ++ text }

def pushNewline (target : SnapshotAccumulator) : Except SnapshotRefusal SnapshotAccumulator := do
  let target ← target.resume
  let target ← target.reserveBytes 1
  return { target with
    text := target.text ++ ['\n']
    currentLineBytes := 0
    trailingNewline := true }

/-- One round of `push_cells_text`. -/
def pushCell (target : SnapshotAccumulator) (cell : Cell) : Except SnapshotRefusal SnapshotAccumulator :=
  if cell.isContinuation then .ok target else target.pushCellText cell.text

def pushCellsText (target : SnapshotAccumulator) (cells : List Cell) :
    Except SnapshotRefusal SnapshotAccumulator := cells.foldlM pushCell target

/-- The newline before a row that does not continue the one above. -/
def breakBefore (target : SnapshotAccumulator) (continuing : Bool) (row : Nat) :
    Except SnapshotRefusal SnapshotAccumulator :=
  if !continuing ∧ (0 < row ∨ 0 < target.bytes ∧ !target.trailingNewline) then target.pushNewline
  else .ok target

end SnapshotAccumulator

namespace Screen

def occupiedRowCells (screen : Screen) (row : Nat) : Option (List Cell) := do
  let line ← screen.line row
  slice line.cells 0 line.occupiedColumns

/-- The loop of `append_visible_screen_text`, over the rows that are left. -/
def appendRows (screen : Screen) : SnapshotAccumulator → Bool → List Nat →
    Option (Except SnapshotRefusal SnapshotAccumulator)
  | target, _, [] => some (.ok target)
  | target, continuing, row :: rest =>
    match target.breakBefore continuing row with
    | .error refusal => some (.error refusal)
    | .ok target => do
      let cells ← screen.occupiedRowCells row
      match target.pushCellsText cells with
      | .error refusal => some (.error refusal)
      | .ok target =>
        let softWrapped ← screen.rowSoftWrapped row
        screen.appendRows target (softWrapped.getD false) rest

/-- `append_visible_screen_text`. -/
def appendVisibleText (screen : Screen) (target : SnapshotAccumulator) (cursorRow : Nat)
    (continueFirstRow : Bool) : Option (Except SnapshotRefusal SnapshotAccumulator) := do
  let occupied ← screen.occupiedRowCount
  let contentRows := min (max occupied (cursorRow + 1)) screen.dimensions.rows
  screen.appendRows target continueFirstRow (List.range contentRows)

end Screen

namespace Terminal

/-- The text of the retained lines, and whether the last of them continues on the screen. -/
def pushHistory (text : SnapshotAccumulator) (lines : List LogicalLine) :
    Except SnapshotRefusal (SnapshotAccumulator × Bool) :=
  lines.foldlM (fun (text, _) line => do
    let text ← text.pushCellsText line.cells
    if line.hardBreak then
      let text ← text.pushNewline
      return (text, false)
    else return (text, true)) (text, false)

def snapshotWithAccumulator (terminal : Terminal) (text : SnapshotAccumulator) :
    Option (Except SnapshotRefusal TextSnapshot) :=
  match pushHistory text terminal.scrollback.lines with
  | .error refusal => some (.error refusal)
  | .ok (text, continuePrimary) =>
    if terminal.modes.alternateScreen then do
      let buffer ← terminal.activeBuffer
      let result ← buffer.screen.appendVisibleText text buffer.cursor.row false
      some (result.map fun text => ⟨text.text, .alternate, terminal.scrollback.evictedLines⟩)
    else do
      let result ← terminal.primary.screen.appendVisibleText text terminal.primary.cursor.row
        continuePrimary
      some (result.map fun text => ⟨text.text, .primary, terminal.scrollback.evictedLines⟩)

/-- `text_snapshot`, which expects that nothing is refused without bounds. -/
def textSnapshot (terminal : Terminal) : Option TextSnapshot := do
  let result ← terminal.snapshotWithAccumulator .unbounded
  result.toOption

end Terminal

end FesTerm
