import FesTerm.Core.Buffer

/-!
# The terminal

`terminal.rs`: the state behind both screens and the operations that the parser's control functions
select. Every operation is a function on the terminal that returns `none` where the source would stop
on an index, a subtraction, a `clamp` or an `expect`. `activeBuffer` is such an `expect`: the alternate
buffer has to exist while it is active.

Input events and the queue they fill are not modelled; nothing that a program writes reaches them.
-/

namespace FesTerm

open Checked

/-- Which buffer is shown. -/
inductive ActiveScreen where
  | primary
  | alternate
  deriving DecidableEq

def defaultScrollbackLimitBytes : Nat := 64 * 1024 * 1024

def hyperlinkCellCredits : Nat := 4096

/-- `default_tab_stops`. -/
def defaultTabStop (column : Nat) : Bool := column ≠ 0 ∧ column % 8 = 0

def defaultTabStops (dimensions : Dimensions) : List Bool :=
  (List.range dimensions.columns).map defaultTabStop

def resizedTabStops (existing : List Bool) (dimensions : Dimensions) : List Bool :=
  (List.range dimensions.columns).map fun column => existing[column]?.getD (defaultTabStop column)

/-- Parser, buffers, modes, history and the replies that wait. -/
structure Terminal where
  parser : Parser
  utf8 : Utf8Decoder
  primary : BufferState
  alternate : Option BufferState
  activeScreen : ActiveScreen
  screenGeneration : Nat
  modes : TerminalModes
  cursorStyle : CursorStyle
  /-- The last character printed, for `REP` to repeat. -/
  lastGraphicCharacter : Option Char
  cursorStyleSet : Bool
  tabStops : List Bool
  currentAttributes : Attributes
  currentProtected : Bool
  protection : ProtectionSource
  currentForeground : Color
  currentBackground : Color
  title : List Char
  currentHyperlink : Option (List Char)
  currentHyperlinkCellsRemaining : Nat
  colorScheme : ColorScheme
  replyQueue : List UInt8
  replyQueueOverflowed : Bool
  scrollback : Scrollback

/-- `parameter_or`: zero and missing parameters take the default. -/
def parameterOr (parameters : CsiParameters) (index fallback : Nat) : Nat :=
  match parameters.value index with
  | none | some 0 => fallback
  | some value => value

def rawParameter (parameters : CsiParameters) (index fallback : Nat) : Nat :=
  (parameters.value index).getD fallback

namespace Terminal

section

variable [Platform]

/-- A terminal as it starts. -/
def withScrollbackLimit (dimensions : Dimensions) (limitBytes : ByteLimit) : Terminal where
  parser := .new
  utf8 := .new
  primary := .new dimensions
  alternate := none
  activeScreen := .primary
  screenGeneration := 1
  modes := .default
  cursorStyle := .blinkingBlock
  lastGraphicCharacter := none
  cursorStyleSet := false
  tabStops := defaultTabStops dimensions
  currentAttributes := .none
  currentProtected := false
  protection := .none
  currentForeground := .default
  currentBackground := .default
  title := []
  currentHyperlink := none
  currentHyperlinkCellsRemaining := 0
  colorScheme := .default
  replyQueue := []
  replyQueueOverflowed := false
  scrollback := .new limitBytes

def new (dimensions : Dimensions) : Terminal :=
  withScrollbackLimit dimensions (some defaultScrollbackLimitBytes)

end

def dimensions (terminal : Terminal) : Dimensions := terminal.primary.screen.dimensions

/-- `active_buffer`, `active_buffer_mut`. -/
def activeBuffer (terminal : Terminal) : Option BufferState :=
  match terminal.activeScreen with
  | .primary => some terminal.primary
  | .alternate => terminal.alternate

def setActiveBuffer (terminal : Terminal) (buffer : BufferState) : Terminal :=
  match terminal.activeScreen with
  | .primary => { terminal with primary := buffer }
  | .alternate => { terminal with alternate := some buffer }

/-- Change the active buffer by a step that may fail. -/
def modifyActive (terminal : Terminal) (change : BufferState → Option BufferState) : Option Terminal := do
  let buffer ← terminal.activeBuffer
  let buffer ← change buffer
  some (terminal.setActiveBuffer buffer)

/-- Change the screen of the active buffer. -/
def modifyScreen (terminal : Terminal) (change : Screen → Option Screen) : Option Terminal :=
  terminal.modifyActive fun buffer => do
    let screen ← change buffer.screen
    some { buffer with screen := screen }

def cursor (terminal : Terminal) : Cursor :=
  match terminal.activeScreen with
  | .primary => terminal.primary.cursor
  | .alternate => (terminal.alternate.map BufferState.cursor).getD terminal.primary.cursor

/-- The left and right margins in force. -/
def horizontalMargins (terminal : Terminal) : Option ColumnSpan :=
  if terminal.modes.leftRightMarginMode then do
    let buffer ← terminal.activeBuffer
    some ⟨buffer.scrollLeft, buffer.scrollRight⟩
  else some (ColumnSpan.full terminal.dimensions.columns)

def cursorWithinMargins (terminal : Terminal) : Option Bool := do
  let margins ← terminal.horizontalMargins
  let buffer ← terminal.activeBuffer
  some (decide (margins.left ≤ buffer.cursor.column) && decide (buffer.cursor.column ≤ margins.right))

/-- The column a carriage return goes to. -/
def carriageReturnColumn (terminal : Terminal) : Option Nat := do
  let margins ← terminal.horizontalMargins
  let buffer ← terminal.activeBuffer
  some (if terminal.modes.originMode ∨ buffer.cursor.column ≥ margins.left then margins.left else 0)

/-- The columns `CUF` and `CUB` may move between. -/
def relativeHorizontalBounds (terminal : Terminal) : Option (Nat × Nat) := do
  let margins ← terminal.horizontalMargins
  let buffer ← terminal.activeBuffer
  let column := buffer.cursor.column
  some (if column ≥ margins.left then margins.left else 0,
    if column ≤ margins.right then margins.right else terminal.dimensions.columns - 1)

def verticalBounds (terminal : Terminal) : Option (Nat × Nat) :=
  if terminal.modes.originMode then do
    let buffer ← terminal.activeBuffer
    some (buffer.scrollTop, buffer.scrollBottom)
  else some (0, terminal.dimensions.rows - 1)

/-- The rows `CUU` and `CUD` may move between. -/
def relativeVerticalBounds (terminal : Terminal) : Option (Nat × Nat) := do
  let buffer ← terminal.activeBuffer
  let row := buffer.cursor.row
  some (if row ≥ buffer.scrollTop then buffer.scrollTop else 0,
    if row ≤ buffer.scrollBottom then buffer.scrollBottom else terminal.dimensions.rows - 1)

/-- `wrap_geometry`: where a line wraps, and where it wraps to. -/
def wrapGeometry (terminal : Terminal) : Option (Nat × Nat) := do
  if ← terminal.cursorWithinMargins then
    let margins ← terminal.horizontalMargins
    some (margins.right + 1, margins.left)
  else some (terminal.dimensions.columns, 0)

def clearGraphemeAnchor (terminal : Terminal) : Option Terminal :=
  terminal.modifyActive fun buffer => some { buffer with graphemeAnchor := none }

def clearPendingWrap (terminal : Terminal) : Option Terminal :=
  terminal.modifyActive fun buffer => some { buffer with pendingWrap := false }

/-- `self.active_buffer_mut().cursor.column = column`. -/
def setCursorColumn (terminal : Terminal) (column : Nat) : Option Terminal :=
  terminal.modifyActive fun buffer => some { buffer with cursor := ⟨column, buffer.cursor.row⟩ }

/-- `self.current_hyperlink = None` with its credits. -/
def dropHyperlink (terminal : Terminal) : Terminal :=
  { terminal with currentHyperlink := none, currentHyperlinkCellsRemaining := 0 }

def queueReply (terminal : Terminal) (bytes : List UInt8) : Terminal :=
  let (queue, overflowed) := queueTransportBytes terminal.replyQueue bytes
  { terminal with
    replyQueue := queue
    replyQueueOverflowed := terminal.replyQueueOverflowed || overflowed }

section

variable [Platform]

def eraseCell (terminal : Terminal) : Cell where
  text := [' ']
  textCapacityBytes := Platform.textCapacity [] [' ']
  width := .single
  foreground := terminal.currentForeground
  background := terminal.currentBackground
  attributes := terminal.currentAttributes
  hyperlink := none

omit [Platform] in
def endLogicalLine (terminal : Terminal) : Option Terminal :=
  terminal.modifyActive fun buffer => do
    let screen ← buffer.screen.clearSoftWrapped buffer.cursor.row
    some { buffer with screen := screen }

omit [Platform] in
/-- The rows that leave the top of the primary screen go to the history. -/
def retainHistory (terminal : Terminal) (span : ColumnSpan) : Bool :=
  terminal.activeScreen == .primary && terminal.primary.scrollTop == 0 &&
    terminal.primary.scrollBottom + 1 == terminal.dimensions.rows && span.left == 0 &&
    span.right + 1 == terminal.dimensions.columns

/-- The common part of `index` and `scroll_up`. -/
def scrollRegionUp (terminal : Terminal) (count : Nat) (span : ColumnSpan) : Option Terminal := do
  let buffer ← terminal.activeBuffer
  let (removed, screen) ←
    buffer.screen.scrollUp buffer.scrollTop buffer.scrollBottom count terminal.eraseCell span
  let scrolled := terminal.setActiveBuffer { buffer with screen := screen }
  if terminal.retainHistory span then
    let scrollback ← terminal.scrollback.pushRows removed
    some { scrolled with scrollback := scrollback }
  else some scrolled

def index (terminal : Terminal) : Option Terminal := do
  let span ← terminal.horizontalMargins
  let withinMargins ← terminal.cursorWithinMargins
  let buffer ← terminal.activeBuffer
  if buffer.cursor.row = buffer.scrollBottom then
    if withinMargins then terminal.scrollRegionUp 1 span else some terminal
  else if buffer.cursor.row + 1 < terminal.dimensions.rows then
    some (terminal.setActiveBuffer
      { buffer with cursor := ⟨buffer.cursor.column, buffer.cursor.row + 1⟩ })
  else some terminal

def reverseIndex (terminal : Terminal) : Option Terminal := do
  let span ← terminal.horizontalMargins
  let withinMargins ← terminal.cursorWithinMargins
  let buffer ← terminal.activeBuffer
  if buffer.cursor.row = buffer.scrollTop then
    if withinMargins then
      terminal.modifyScreen fun screen =>
        screen.scrollDown buffer.scrollTop buffer.scrollBottom 1 terminal.eraseCell span
    else some terminal
  else some (terminal.setActiveBuffer
    { buffer with cursor := ⟨buffer.cursor.column, buffer.cursor.row - 1⟩ })

def scrollUp (terminal : Terminal) (parameters : CsiParameters) : Option Terminal := do
  let span ← terminal.horizontalMargins
  terminal.scrollRegionUp (parameterOr parameters 0 1) span

def scrollDown (terminal : Terminal) (parameters : CsiParameters) : Option Terminal := do
  let span ← terminal.horizontalMargins
  let buffer ← terminal.activeBuffer
  terminal.modifyScreen fun screen =>
    screen.scrollDown buffer.scrollTop buffer.scrollBottom (parameterOr parameters 0 1)
      terminal.eraseCell span

/-- `IND`, and the part that `LF` and `NEL` share with it. -/
def lineBreak (terminal : Terminal) : Option Terminal := do
  let terminal ← terminal.dropHyperlink.endLogicalLine
  terminal.index

section

omit [Platform]

/-- Return to the left margin, or to the left edge from outside the margins. -/
def carriageReturn (terminal : Terminal) : Option Terminal := do
  let column ← terminal.carriageReturnColumn
  terminal.setCursorColumn column

def placeCursorAfterCluster (buffer : BufferState) (anchor : Cursor) (width wrapLimit : Nat)
    (autoWrap : Bool) : BufferState :=
  if anchor.column + width ≥ wrapLimit then
    { buffer with cursor := anchor, pendingWrap := autoWrap }
  else
    { buffer with cursor := ⟨anchor.column + width, anchor.row⟩, pendingWrap := false }

/-- Mark the cursor's row as wrapping and return to where the next row starts. -/
def wrapCursor (terminal : Terminal) (home : Nat) : Option Terminal :=
  terminal.modifyActive fun buffer => do
    let screen ← buffer.screen.markSoftWrapped buffer.cursor.row
    some { buffer with
      screen := screen
      cursor := ⟨home, buffer.cursor.row⟩
      pendingWrap := false }

end

/-- The cell with another text; `CompactString` keeps the allocation of the text it held. -/
def withText (cell : Cell) (text : List Char) : Cell :=
  { cell with text := text, textCapacityBytes := Platform.textCapacity cell.text text }

/-- Write a cluster and remember it as the one to extend. -/
def placeCluster (terminal : Terminal) (position : Cursor) (cell : Cell) (anchor : Option Cursor)
    (width wrapLimit : Nat) (autoWrap : Bool) : Option Terminal :=
  terminal.modifyActive fun buffer => do
    let screen ← buffer.screen.replaceCluster position.column position.row cell
    some (placeCursorAfterCluster { buffer with screen := screen, graphemeAnchor := anchor } position
      width wrapLimit autoWrap)

/-- The anchored cluster became too wide for the columns that are left: it moves to the next row. -/
def rewrapCluster (terminal : Terminal) (anchor : Cursor) (cell : Cell) (newWidth wrapLimit wrapHome : Nat) :
    Option Terminal := do
  let fill := terminal.eraseCell
  let linear := anchor.row * terminal.dimensions.columns + anchor.column
  let terminal ← terminal.modifyActive fun buffer => do
    let screen ← buffer.screen.fillLinear linear (linear + 1) fill
    let screen ← screen.markSoftWrapped anchor.row
    some { buffer with
      screen := screen
      cursor := ⟨wrapHome, buffer.cursor.row⟩
      pendingWrap := false }
  let terminal ← terminal.index
  let cursor := terminal.cursor
  terminal.placeCluster cursor cell (some cursor) newWidth wrapLimit terminal.modes.autoWrap

/-- The first part of `try_extend_grapheme`: the anchored cluster that the character extends. The
outer `Option` is a failing access. -/
def extensionTarget (buffer : BufferState) (character : Char) : Option (Option (Cursor × Cell)) :=
  match buffer.graphemeAnchor with
  | none => some none
  | some anchor => do
    match ← buffer.screen.cell anchor.column anchor.row with
    | none => some none
    | some cell =>
      some (if cell.isContinuation ∨ !extendsGrapheme cell.text character then none
        else some (anchor, cell))

/-- A cluster of the same width is written without repair. -/
def rewriteCluster (screen : Screen) (anchor : Cursor) (cell : Cell) (oldWidth newWidth : Nat) :
    Option Screen :=
  if oldWidth = newWidth then screen.replaceCell anchor.column anchor.row cell
  else screen.replaceCluster anchor.column anchor.row cell

/-- The second part of `try_extend_grapheme`: the character is taken into the cluster. -/
def extendCluster (terminal : Terminal) (anchor : Cursor) (cell : Cell) (character : Char) :
    Option Terminal :=
  let autoWrap := terminal.modes.autoWrap
  if utf8Len cell.text + character.utf8Size > maxGraphemeBytes then do
    let (wrapLimit, _) ← terminal.wrapGeometry
    let replacement := { withText cell [replacementCharacter] with width := .single }
    terminal.placeCluster anchor replacement none 1 wrapLimit autoWrap
  else
    let oldWidth := cell.width.columns
    let extended := withText cell (cell.text ++ [character])
    let newWidth := graphemeWidth extended.text
    if newWidth = 0 then some terminal
    else do
      let extended := { extended with width := if newWidth = 2 then .double else .single }
      let (wrapLimit, wrapHome) ← terminal.wrapGeometry
      if oldWidth = 1 ∧ newWidth = 2 ∧ anchor.column + 1 = wrapLimit then
        if !autoWrap then
          -- the text of the extended cell is cleared and replaced in turn
          let replacement := { withText extended [replacementCharacter] with width := .single }
          terminal.modifyActive fun buffer => do
            let screen ← buffer.screen.replaceCluster anchor.column anchor.row replacement
            some { buffer with screen := screen, graphemeAnchor := some anchor, pendingWrap := false }
        else terminal.rewrapCluster anchor extended newWidth wrapLimit wrapHome
      else
        terminal.modifyActive fun buffer => do
          let screen ← rewriteCluster buffer.screen anchor extended oldWidth newWidth
          some (placeCursorAfterCluster { buffer with screen := screen, graphemeAnchor := some anchor }
            anchor newWidth wrapLimit autoWrap)

/-- `try_extend_grapheme`: whether the character was taken into the anchored cluster. -/
def tryExtendGrapheme (terminal : Terminal) (character : Char) : Option (Terminal × Bool) := do
  let buffer ← terminal.activeBuffer
  match ← extensionTarget buffer character with
  | none => some (terminal, false)
  | some (anchor, cell) => do
    let terminal ← terminal.extendCluster anchor cell character
    some (terminal, true)

/-- The cell that prints a character with the current pen. -/
def printedCell (terminal : Terminal) (character : Char) (width : Nat) : Cell where
  text := [character]
  textCapacityBytes := Platform.textCapacity [] [character]
  width := if width = 2 then .double else .single
  foreground := terminal.currentForeground
  background := terminal.currentBackground
  attributes := if terminal.currentProtected then terminal.currentAttributes.with .protectedBit
    else terminal.currentAttributes
  hyperlink := terminal.currentHyperlink

omit [Platform] in
/-- One cell less that the hyperlink may cover. -/
def spendHyperlinkCredit (terminal : Terminal) : Terminal :=
  if terminal.currentHyperlinkCellsRemaining > 0 then
    { terminal with
      currentHyperlinkCellsRemaining := terminal.currentHyperlinkCellsRemaining - 1
      currentHyperlink :=
        if terminal.currentHyperlinkCellsRemaining - 1 = 0 then none else terminal.currentHyperlink }
  else terminal

/-- Insert mode makes room for the cluster. -/
def makeRoom (terminal : Terminal) (width wrapLimit : Nat) : Option Terminal :=
  if terminal.modes.insertMode then do
    let right ← sub wrapLimit 1
    terminal.modifyScreen fun screen =>
      screen.insertCharacters terminal.cursor.column terminal.cursor.row width terminal.eraseCell
        ⟨0, right⟩
  else some terminal

/-- The last part of `print`: the cluster is written. -/
def printCluster (terminal : Terminal) (character : Char) (width wrapLimit : Nat) : Option Terminal := do
  let terminal ← terminal.makeRoom width wrapLimit
  let cursor := terminal.cursor
  let cell := terminal.printedCell character width
  terminal.spendHyperlinkCredit.placeCluster cursor cell (some cursor) width wrapLimit
    terminal.modes.autoWrap

/-- A pending wrap is taken before the character. -/
def takePendingWrap (terminal : Terminal) : Option Terminal := do
  let buffer ← terminal.activeBuffer
  if buffer.pendingWrap ∧ terminal.modes.autoWrap then
    let (_, home) ← terminal.wrapGeometry
    let terminal ← terminal.wrapCursor home
    terminal.index
  else some terminal

/-- `print` after the pending wrap has been taken. A wide character that meets the limit with
autowrap off prints the replacement character instead, through `fallback`. -/
def printAt (terminal : Terminal) (character : Char) (width : Nat)
    (fallback : Terminal → Option Terminal) : Option Terminal := do
  let (wrapLimit, wrapHome) ← terminal.wrapGeometry
  let width := min width 2
  if width = 2 ∧ terminal.cursor.column + 1 = wrapLimit then
    if terminal.modes.autoWrap then
      let terminal ← terminal.wrapCursor wrapHome
      let terminal ← terminal.index
      terminal.printCluster character width wrapLimit
    else fallback terminal
  else terminal.printCluster character width wrapLimit

/-- `print`, with the call that prints the replacement character as a parameter. -/
def printWith (fallback : Terminal → Option Terminal) (terminal : Terminal) (character : Char) :
    Option Terminal := do
  let (terminal, extended) ← terminal.tryExtendGrapheme character
  if extended then some terminal
  else
    let width := (Platform.charWidth character).getD 0
    if width = 0 then terminal.clearGraphemeAnchor
    else do
      let terminal ← takePendingWrap { terminal with lastGraphicCharacter := some character }
      terminal.printAt character width fallback

/-- `print`. The replacement character is one column wide, so the call for it does not call again. -/
def print (terminal : Terminal) (character : Char) : Option Terminal :=
  printWith (fun terminal => printWith (fun _ => none) terminal replacementCharacter) terminal character

def repeatPrecedingCharacter (terminal : Terminal) (parameters : CsiParameters) : Option Terminal :=
  match terminal.lastGraphicCharacter with
  | none => some terminal
  | some character =>
    forRange 0 (parameterOr parameters 0 1) terminal fun terminal _ => terminal.print character

end

end Terminal

end FesTerm
