import FesTerm.Core.Terminal

/-!
# Control functions

The operations of `Terminal::apply`: cursor motion, erasing, rectangles, margins, saved cursors, the
pen, modes and reports.
-/

namespace FesTerm

open Checked

namespace Terminal

def nextTabStop (tabStops : List Bool) (column : Nat) : Option Nat :=
  (List.range' (column + 1) (tabStops.length - (column + 1))).find? fun c => tabStops[c]? == some true

def previousTabStop (tabStops : List Bool) (column : Nat) : Option Nat :=
  (List.range (min column tabStops.length)).reverse.find? fun c => tabStops[c]? == some true

def tab (terminal : Terminal) : Option Terminal := do
  let cursorColumn := terminal.cursor.column
  let margins ← terminal.horizontalMargins
  let limit := if cursorColumn > margins.right then terminal.dimensions.columns - 1 else margins.right
  let stop := (nextTabStop terminal.tabStops cursorColumn).getD limit
  terminal.setCursorColumn (min stop (max limit cursorColumn))

def backwardTab (terminal : Terminal) : Option Terminal :=
  terminal.setCursorColumn ((previousTabStop terminal.tabStops terminal.cursor.column).getD 0)

/-- `get_mut` and an assignment. -/
def writeTabStop (terminal : Terminal) (column : Nat) (stop : Bool) : Terminal :=
  { terminal with tabStops := terminal.tabStops.set column stop }

def setTabStop (terminal : Terminal) : Terminal := terminal.writeTabStop terminal.cursor.column true

def clearTabStops (terminal : Terminal) (parameters : CsiParameters) : Terminal :=
  match rawParameter parameters 0 0 with
  | 0 => terminal.writeTabStop terminal.cursor.column false
  | 3 => { terminal with tabStops := terminal.tabStops.map fun _ => false }
  | _ => terminal

def moveCursor (terminal : Terminal) (move : BufferState → Cursor) : Option Terminal :=
  terminal.modifyActive fun buffer => some { buffer with cursor := move buffer, pendingWrap := false }

def moveVertical (terminal : Terminal) (parameters : CsiParameters) (down : Bool) : Option Terminal := do
  let count := parameterOr parameters 0 1
  let (top, bottom) ← terminal.relativeVerticalBounds
  terminal.moveCursor fun buffer => ⟨buffer.cursor.column,
    if down then min (buffer.cursor.row + count) bottom else max (buffer.cursor.row - count) top⟩

/-- The loop of `move_cursor_back`: the cursor climbs while rows wrap into each other. The first
argument is the cursor's row. -/
def climbBack (buffer : BufferState) (left right : Nat) (reverseWrap : Bool) : Nat → Nat → Nat → Option Cursor
  | row, column, remaining => do
    let step := min remaining (column - left)
    let column ← sub column step
    let remaining ← sub remaining step
    match row with
    | 0 => some ⟨column, 0⟩
    | above + 1 =>
      if remaining = 0 ∨ !reverseWrap ∨ above + 1 = buffer.scrollTop then some ⟨column, above + 1⟩
      else if (← buffer.screen.rowSoftWrapped above) ≠ some true then some ⟨column, above + 1⟩
      else climbBack buffer left right reverseWrap above right (← sub remaining 1)

def moveCursorBack (terminal : Terminal) (count : Nat) : Option Terminal := do
  let (left, right) ← terminal.relativeHorizontalBounds
  let buffer ← terminal.activeBuffer
  let cursor ← climbBack buffer left right terminal.modes.reverseWrap buffer.cursor.row
    buffer.cursor.column count
  terminal.moveCursor fun _ => cursor

def moveHorizontal (terminal : Terminal) (parameters : CsiParameters) (forward : Bool) : Option Terminal := do
  let count := parameterOr parameters 0 1
  if !forward then
    terminal.moveCursorBack count
  else
    let (_, right) ← terminal.relativeHorizontalBounds
    terminal.moveCursor fun buffer => ⟨min (buffer.cursor.column + count) right, buffer.cursor.row⟩

/-- `absolute_column`: origin mode measures from the left margin. -/
def absoluteColumn (terminal : Terminal) (requested : Nat) : Option Nat :=
  if terminal.modes.originMode then do
    let margins ← terminal.horizontalMargins
    some (min (margins.left + requested) margins.right)
  else some (min requested (terminal.dimensions.columns - 1))

def cursorHorizontalAbsolute (terminal : Terminal) (parameters : CsiParameters)
    (originRelative : Bool) : Option Terminal := do
  let requested ← sub (parameterOr parameters 0 1) 1
  let column ← if originRelative then terminal.absoluteColumn requested
    else some (min requested (terminal.dimensions.columns - 1))
  terminal.moveCursor fun buffer => ⟨column, buffer.cursor.row⟩

/-- The row of an absolute request. -/
def absoluteRow (terminal : Terminal) (requested : Nat) : Option Nat := do
  let (top, bottom) ← terminal.verticalBounds
  some (if terminal.modes.originMode then min (top + requested) bottom else min requested bottom)

def cursorPosition (terminal : Terminal) (parameters : CsiParameters) : Option Terminal := do
  let requestedRow ← sub (parameterOr parameters 0 1) 1
  let requestedColumn ← sub (parameterOr parameters 1 1) 1
  let row ← terminal.absoluteRow requestedRow
  let column ← terminal.absoluteColumn requestedColumn
  terminal.moveCursor fun _ => ⟨column, row⟩

def verticalPositionAbsolute (terminal : Terminal) (parameters : CsiParameters) : Option Terminal := do
  let requestedRow ← sub (parameterOr parameters 0 1) 1
  let row ← terminal.absoluteRow requestedRow
  terminal.moveCursor fun buffer => ⟨buffer.cursor.column, row⟩

def homeCursor (terminal : Terminal) : Option Terminal := do
  let margins ← terminal.horizontalMargins
  let originMode := terminal.modes.originMode
  terminal.moveCursor fun buffer =>
    ⟨if originMode then margins.left else 0, if originMode then buffer.scrollTop else 0⟩

def setScrollRegion (terminal : Terminal) (parameters : CsiParameters) : Option Terminal := do
  let rows := terminal.dimensions.rows
  let top ← sub (parameterOr parameters 0 1) 1
  let bottom ← sub (parameterOr parameters 1 rows) 1
  if top ≥ bottom ∨ bottom ≥ rows then
    return terminal
  let terminal ← terminal.modifyActive fun buffer => some { buffer with
    scrollTop := top
    scrollBottom := bottom
    cursor := ⟨0, if terminal.modes.originMode then top else 0⟩
    pendingWrap := false }
  terminal.homeCursor

/-- `set_horizontal_margins` (DECSLRM). -/
def setHorizontalMargins (terminal : Terminal) (parameters : CsiParameters) : Option Terminal := do
  let columns := terminal.dimensions.columns
  let left ← sub (parameterOr parameters 0 1) 1
  let right ← sub (parameterOr parameters 1 columns) 1
  if left ≥ right ∨ right ≥ columns then
    return terminal
  let terminal ← terminal.modifyActive fun buffer =>
    some { buffer with scrollLeft := left, scrollRight := right }
  terminal.homeCursor

def saveDec (terminal : Terminal) : Option Terminal :=
  terminal.modifyActive fun buffer => some { buffer with decSaved := some {
    cursor := buffer.cursor
    pendingWrap := buffer.pendingWrap
    attributes := terminal.currentAttributes
    foreground := terminal.currentForeground
    background := terminal.currentBackground
    originMode := terminal.modes.originMode
    «protected» := terminal.currentProtected
    protection := terminal.protection } }

/-- `restore_dec`; nothing saved is the power-on state. -/
def restoreDec (terminal : Terminal) : Option Terminal := do
  let buffer ← terminal.activeBuffer
  match buffer.decSaved with
  | none =>
    let terminal ← terminal.moveCursor fun _ => ⟨0, 0⟩
    some { terminal with
      modes := { terminal.modes with originMode := false }
      currentAttributes := .none
      currentForeground := .default
      currentBackground := .default
      currentProtected := false
      protection := .none }
  | some saved =>
    let cursor := BufferState.clampCursor saved.cursor terminal.dimensions
    let row ← BufferState.savedRow saved.originMode cursor.row buffer.scrollTop buffer.scrollBottom
    let terminal := terminal.setActiveBuffer { buffer with
      cursor := ⟨cursor.column, row⟩
      pendingWrap := saved.pendingWrap && cursor.column + 1 == terminal.dimensions.columns }
    some { terminal with
      modes := { terminal.modes with originMode := saved.originMode }
      currentAttributes := saved.attributes
      currentForeground := saved.foreground
      currentBackground := saved.background
      currentProtected := saved.protected
      protection := saved.protection }

def saveAnsi (terminal : Terminal) : Option Terminal :=
  terminal.modifyActive fun buffer => some { buffer with ansiSaved := some {
    cursor := terminal.cursor
    «protected» := terminal.currentProtected
    protection := terminal.protection } }

def restoreAnsi (terminal : Terminal) : Option Terminal := do
  let terminal := { terminal with modes := { terminal.modes with originMode := false } }
  let buffer ← terminal.activeBuffer
  match buffer.ansiSaved with
  | none =>
    let terminal ← terminal.moveCursor fun _ => ⟨0, 0⟩
    some { terminal with currentProtected := false, protection := .none }
  | some saved =>
    let terminal ← terminal.moveCursor fun _ =>
      BufferState.clampCursor saved.cursor terminal.dimensions
    some { terminal with currentProtected := saved.protected, protection := saved.protection }

section

variable [Platform]

omit [Platform] in
/-- `spares_protected_cells`: selective erases always do, others only under ISO protection. -/
def sparesProtectedCells (terminal : Terminal) (selective : Bool) : Bool :=
  selective || terminal.protection == .iso

/-- The run of cells that `erase_display` fills in reading order; mode 2 without sparing clears the
grid instead. -/
def eraseDisplayRun (terminal : Terminal) (mode : Nat) : Option (Nat × Nat) :=
  let columns := terminal.dimensions.columns
  let rows := terminal.dimensions.rows
  let start := terminal.cursor.row * columns + terminal.cursor.column
  match mode with
  | 0 => some (start, columns * rows)
  | 1 => some (0, start + 1)
  | 2 => some (0, columns * rows)
  | _ => none

def eraseDisplay (terminal : Terminal) (parameters : CsiParameters) (selective : Bool) : Option Terminal :=
  let mode := rawParameter parameters 0 0
  if mode = 3 then
    some (if terminal.activeScreen = .primary then
      { terminal with scrollback := terminal.scrollback.clear } else terminal)
  else
    let spare := terminal.sparesProtectedCells selective
    let cell := terminal.eraseCell
    terminal.modifyScreen fun screen =>
      if mode = 2 ∧ !spare then some (screen.clearAll cell)
      else match terminal.eraseDisplayRun mode with
        | some (start, stop) => screen.fillLinearWith start stop cell spare
        | none => some screen

omit [Platform] in
/-- The run of cells that `erase_line` fills. -/
def eraseLineRun (terminal : Terminal) (mode : Nat) : Option (Nat × Nat) :=
  let columns := terminal.dimensions.columns
  let row := terminal.cursor.row * columns
  match mode with
  | 0 => some (row + terminal.cursor.column, row + columns)
  | 1 => some (row, row + terminal.cursor.column + 1)
  | 2 => some (row, row + columns)
  | _ => none

def eraseLine (terminal : Terminal) (parameters : CsiParameters) (selective : Bool) : Option Terminal :=
  match terminal.eraseLineRun (rawParameter parameters 0 0) with
  | none => some terminal
  | some (start, stop) => terminal.modifyScreen fun screen =>
    screen.fillLinearWith start stop terminal.eraseCell (terminal.sparesProtectedCells selective)

omit [Platform] in
/-- The run of cells that `erase_characters` fills. -/
def eraseCharactersRun (terminal : Terminal) (count : Nat) : Nat × Nat :=
  let columns := terminal.dimensions.columns
  let start := terminal.cursor.row * columns + terminal.cursor.column
  (start, min (start + count) ((terminal.cursor.row + 1) * columns))

def eraseCharacters (terminal : Terminal) (parameters : CsiParameters) : Option Terminal :=
  let (start, stop) := terminal.eraseCharactersRun (parameterOr parameters 0 1)
  terminal.modifyScreen fun screen =>
    screen.fillLinearWith start stop terminal.eraseCell (terminal.sparesProtectedCells false)

omit [Platform] in
/-- Where rectangles are measured from. -/
def rectangleOrigin (terminal : Terminal) : Option (Nat × Nat) :=
  if terminal.modes.originMode then do
    let margins ← terminal.horizontalMargins
    let buffer ← terminal.activeBuffer
    some (buffer.scrollTop, margins.left)
  else some (0, 0)

omit [Platform] in
/-- `rectangle_from`; the inner `none` is no rectangle. -/
def rectangleFrom (terminal : Terminal) (parameters : CsiParameters) (first : Nat) :
    Option (Option Rectangle) := do
  let rows := terminal.dimensions.rows
  let columns := terminal.dimensions.columns
  let (rowOrigin, columnOrigin) ← terminal.rectangleOrigin
  let top ← sub (rowOrigin + parameterOr parameters first 1) 1
  let left ← sub (columnOrigin + parameterOr parameters (first + 1) 1) 1
  let bottom ← sub (rowOrigin + parameterOr parameters (first + 2) (← sub rows rowOrigin)) 1
  let right ← sub (columnOrigin + parameterOr parameters (first + 3) (← sub columns columnOrigin)) 1
  if bottom < top ∨ right < left then
    return none
  let bottom := min bottom (rows - 1)
  let right := min right (columns - 1)
  if top > bottom ∨ left > right then
    return none
  return some ⟨top, left, bottom, right⟩

/-- DECFRA: the fill character is restricted to the printable ranges of the eight-bit set. -/
def fillRectangle (terminal : Terminal) (parameters : CsiParameters) : Option Terminal :=
  match parameters.value 0 with
  | none => some terminal
  | some value =>
    if 32 ≤ value ∧ value ≤ 126 ∨ 160 ≤ value ∧ value ≤ 255 then do
      match ← terminal.rectangleFrom parameters 1 with
      | none => some terminal
      | some rectangle =>
        let cell := { terminal.eraseCell with
          text := [Char.ofNat value]
          textCapacityBytes := Platform.textCapacity [] [Char.ofNat value] }
        terminal.modifyScreen fun screen => screen.fillRectangle rectangle cell false
    else some terminal

omit [Platform] in
def rectangleSpares (terminal : Terminal) (selective : Bool) : Bool :=
  if selective then terminal.protection == .dec else terminal.sparesProtectedCells false

def eraseRectangle (terminal : Terminal) (parameters : CsiParameters) (selective : Bool) :
    Option Terminal := do
  match ← terminal.rectangleFrom parameters 0 with
  | none => some terminal
  | some rectangle => terminal.modifyScreen fun screen =>
    screen.fillRectangle rectangle terminal.eraseCell (terminal.rectangleSpares selective)

/-- DECCRA. -/
def copyRectangle (terminal : Terminal) (parameters : CsiParameters) : Option Terminal := do
  match ← terminal.rectangleFrom parameters 0 with
  | none => some terminal
  | some source =>
    let (rowOrigin, columnOrigin) ← terminal.rectangleOrigin
    let top ← sub (rowOrigin + parameterOr parameters 5 1) 1
    let left ← sub (columnOrigin + parameterOr parameters 6 1) 1
    terminal.modifyScreen fun screen =>
      screen.copyRectangle source (min top (terminal.dimensions.rows - 1))
        (min left (terminal.dimensions.columns - 1))

/-- Shift the cells of every row of the vertical region sideways. -/
def shiftRegion (terminal : Terminal) (shift : Screen → Nat → Option Screen) : Option Terminal := do
  let buffer ← terminal.activeBuffer
  terminal.modifyScreen fun screen =>
    forRange buffer.scrollTop (buffer.scrollBottom + 1) screen shift

/-- DECIC. -/
def insertColumns (terminal : Terminal) (parameters : CsiParameters) : Option Terminal := do
  if ← terminal.cursorWithinMargins then
    let span ← terminal.horizontalMargins
    terminal.shiftRegion fun screen row =>
      screen.insertCharacters terminal.cursor.column row (parameterOr parameters 0 1) terminal.eraseCell
        span
  else some terminal

/-- DECDC. -/
def deleteColumns (terminal : Terminal) (parameters : CsiParameters) : Option Terminal := do
  if ← terminal.cursorWithinMargins then
    let span ← terminal.horizontalMargins
    terminal.shiftRegion fun screen row =>
      screen.deleteCharacters terminal.cursor.column row (parameterOr parameters 0 1) terminal.eraseCell
        span
  else some terminal

/-- DECBI. -/
def backIndex (terminal : Terminal) : Option Terminal := do
  let margins ← terminal.horizontalMargins
  let column := terminal.cursor.column
  if column = margins.left then
    terminal.shiftRegion fun screen row =>
      screen.insertCharacters margins.left row 1 terminal.eraseCell margins
  else if column > 0 then terminal.setCursorColumn (column - 1)
  else some terminal

/-- DECFI. -/
def forwardIndex (terminal : Terminal) : Option Terminal := do
  let margins ← terminal.horizontalMargins
  let column := terminal.cursor.column
  if column = margins.right then
    terminal.shiftRegion fun screen row =>
      screen.deleteCharacters margins.left row 1 terminal.eraseCell margins
  else if column + 1 < terminal.dimensions.columns then terminal.setCursorColumn (column + 1)
  else some terminal

def insertCharacters (terminal : Terminal) (parameters : CsiParameters) : Option Terminal := do
  if ← terminal.cursorWithinMargins then
    let span ← terminal.horizontalMargins
    terminal.modifyScreen fun screen =>
      screen.insertCharacters terminal.cursor.column terminal.cursor.row (parameterOr parameters 0 1)
        terminal.eraseCell span
  else some terminal

def deleteCharacters (terminal : Terminal) (parameters : CsiParameters) : Option Terminal := do
  if ← terminal.cursorWithinMargins then
    let span ← terminal.horizontalMargins
    terminal.modifyScreen fun screen =>
      screen.deleteCharacters terminal.cursor.column terminal.cursor.row (parameterOr parameters 0 1)
        terminal.eraseCell span
  else some terminal

/-- The part that IL and DL share: they act from the cursor's row to the bottom margin. -/
def editLines (terminal : Terminal)
    (edit : Screen → Nat → Nat → Cell → ColumnSpan → Option Screen) : Option Terminal := do
  if ← terminal.cursorWithinMargins then
    let span ← terminal.horizontalMargins
    let buffer ← terminal.activeBuffer
    if buffer.scrollTop ≤ buffer.cursor.row ∧ buffer.cursor.row ≤ buffer.scrollBottom then
      terminal.modifyScreen fun screen =>
        edit screen buffer.cursor.row buffer.scrollBottom terminal.eraseCell span
    else some terminal
  else some terminal

def insertLines (terminal : Terminal) (parameters : CsiParameters) : Option Terminal :=
  terminal.editLines fun screen row bottom cell span =>
    screen.insertLines row bottom (parameterOr parameters 0 1) cell span

def deleteLines (terminal : Terminal) (parameters : CsiParameters) : Option Terminal :=
  terminal.editLines fun screen row bottom cell span =>
    screen.deleteLines row bottom (parameterOr parameters 0 1) cell span

/-- DECALN. -/
def screenAlignmentPattern (terminal : Terminal) : Option Terminal :=
  let rows := terminal.dimensions.rows
  let columns := terminal.dimensions.columns
  let cell : Cell := {
    text := ['E']
    textCapacityBytes := Platform.textCapacity [] ['E']
    width := .single
    foreground := .default
    background := .default
    attributes := .none
    hyperlink := none }
  let terminal := { terminal with modes := { terminal.modes with leftRightMarginMode := false } }
  terminal.modifyActive fun buffer => do
    let screen ← buffer.screen.fillRectangle ⟨0, 0, rows - 1, columns - 1⟩ cell false
    some { buffer with
      screen := screen
      scrollTop := 0
      scrollBottom := rows - 1
      scrollLeft := 0
      scrollRight := columns - 1
      cursor := ⟨0, 0⟩
      pendingWrap := false }

end

def resetGraphicsRendition (terminal : Terminal) : Terminal :=
  { terminal.dropHyperlink with
    currentAttributes := .none
    currentForeground := .default
    currentBackground := .default }

/-- `u8::try_from` on three components. -/
def rgbColor : Option Nat → Option Nat → Option Nat → Option Color
  | some red, some green, some blue =>
    if red ≤ 255 ∧ green ≤ 255 ∧ blue ≤ 255 then
      some (.rgb (UInt8.ofNat red) (UInt8.ofNat green) (UInt8.ofNat blue))
    else none
  | _, _, _ => none

def indexedColor : Option Nat → Option Color
  | some value => if value ≤ 255 then some (.indexed (UInt8.ofNat value)) else none
  | none => none

/-- The separators from `first` up to `last` are all of one kind. -/
def separatorsAre (parameters : CsiParameters) (separator : ParameterSeparator) (first last : Nat) : Bool :=
  (List.range' first (last + 1 - first)).all fun index => parameters.separator index == some separator

/-- The colour of `set_extended_color`. The colon form is accepted with and without the empty colour
space. -/
def extendedColor (parameters : CsiParameters) (index mode : Nat) : Option Color :=
  match parameters.separator (index + 1), mode with
  | some .semicolon, 5 =>
    if separatorsAre parameters .semicolon (index + 2) (index + 2) then
      indexedColor (parameters.value (index + 2))
    else none
  | some .semicolon, 2 =>
    if separatorsAre parameters .semicolon (index + 2) (index + 4) then
      rgbColor (parameters.value (index + 2)) (parameters.value (index + 3)) (parameters.value (index + 4))
    else none
  | some .colon, 5 =>
    if separatorsAre parameters .colon (index + 2) (index + 2) then
      indexedColor (parameters.value (index + 2))
    else none
  | some .colon, 2 =>
    if separatorsAre parameters .colon (index + 2) (index + 5) then
      rgbColor (parameters.value (index + 3)) (parameters.value (index + 4)) (parameters.value (index + 5))
    else if separatorsAre parameters .colon (index + 2) (index + 4) then
      rgbColor (parameters.value (index + 2)) (parameters.value (index + 3)) (parameters.value (index + 4))
    else none
  | _, _ => none

/-- The index of the last parameter that an extended colour takes. -/
def extendedColorEnd (parameters : CsiParameters) (index mode : Nat) : Nat :=
  match parameters.separator (index + 1), mode with
  | some .semicolon, 5 => index + 2
  | some .semicolon, 2 => index + 4
  | some .colon, 5 => index + 2
  | some .colon, 2 => if parameters.separator (index + 5) = some .colon then index + 5 else index + 4
  | _, _ => index

def setExtendedColor (terminal : Terminal) (parameters : CsiParameters) (index : Nat)
    (foreground : Bool) : Terminal × Nat :=
  match parameters.value (index + 1) with
  | none => (terminal, index)
  | some mode =>
    let terminal := match extendedColor parameters index mode with
      | some color =>
        if foreground then { terminal with currentForeground := color }
        else { terminal with currentBackground := color }
      | none => terminal
    (terminal, extendedColorEnd parameters index mode)

def withAttribute (terminal : Terminal) (rendition : Attributes) : Terminal :=
  { terminal with currentAttributes := terminal.currentAttributes.with rendition }

def withoutAttribute (terminal : Terminal) (rendition : Attributes) : Terminal :=
  { terminal with currentAttributes := terminal.currentAttributes.without rendition }

/-- One code of SGR that takes no further parameter. -/
def applyRendition (terminal : Terminal) (code : Nat) : Terminal :=
  match code with
  | 0 => terminal.resetGraphicsRendition
  | 1 => terminal.withAttribute .bold
  | 2 => terminal.withAttribute .faint
  | 3 => terminal.withAttribute .italic
  | 4 => (terminal.withoutAttribute .doubleUnderline).withAttribute .underline
  | 5 => terminal.withAttribute .slowBlink
  | 6 => terminal.withAttribute .rapidBlink
  | 7 => terminal.withAttribute .inverse
  | 8 => terminal.withAttribute .concealed
  | 9 => terminal.withAttribute .strikethrough
  | 21 => (terminal.withoutAttribute .underline).withAttribute .doubleUnderline
  | 22 => (terminal.withoutAttribute .bold).withoutAttribute .faint
  | 23 => terminal.withoutAttribute .italic
  | 24 => (terminal.withoutAttribute .underline).withoutAttribute .doubleUnderline
  | 25 => (terminal.withoutAttribute .slowBlink).withoutAttribute .rapidBlink
  | 27 => terminal.withoutAttribute .inverse
  | 28 => terminal.withoutAttribute .concealed
  | 29 => terminal.withoutAttribute .strikethrough
  | 39 => { terminal with currentForeground := .default }
  | 49 => { terminal with currentBackground := .default }
  | code =>
    if 30 ≤ code ∧ code ≤ 37 then
      { terminal with currentForeground := .indexed (UInt8.ofNat (code - 30)) }
    else if 40 ≤ code ∧ code ≤ 47 then
      { terminal with currentBackground := .indexed (UInt8.ofNat (code - 40)) }
    else if 90 ≤ code ∧ code ≤ 97 then
      { terminal with currentForeground := .indexed (UInt8.ofNat (code - 90 + 8)) }
    else if 100 ≤ code ∧ code ≤ 107 then
      { terminal with currentBackground := .indexed (UInt8.ofNat (code - 100 + 8)) }
    else terminal

/-- The loop of SGR; the first argument bounds the parameters that are left. -/
def renditionLoop (parameters : CsiParameters) : Nat → Terminal → Nat → Terminal
  | 0, terminal, _ => terminal
  | fuel + 1, terminal, index =>
    match parameters.value index with
    | none => terminal
    | some code =>
      if code = 38 ∨ code = 48 then
        let (terminal, index) := terminal.setExtendedColor parameters index (code == 38)
        renditionLoop parameters fuel terminal (index + 1)
      else renditionLoop parameters fuel (terminal.applyRendition code) (index + 1)

def setGraphicsRendition (terminal : Terminal) (parameters : CsiParameters) : Terminal :=
  if parameters.isEmpty then terminal.resetGraphicsRendition
  else renditionLoop parameters parameters.length terminal 0

def setCursorStyle (terminal : Terminal) (parameters : CsiParameters) : Terminal :=
  let style : Option CursorStyle := match rawParameter parameters 0 0 with
    | 0 | 1 => some .blinkingBlock
    | 2 => some .steadyBlock
    | 3 => some .blinkingUnderline
    | 4 => some .steadyUnderline
    | 5 => some .blinkingBar
    | 6 => some .steadyBar
    | _ => none
  match style with
  | some style => { terminal with cursorStyle := style, cursorStyleSet := true }
  | none => terminal

end Terminal

end FesTerm
