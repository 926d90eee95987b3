import FesTerm.Core.ControlFunctions

/-!
# Modes, reports and dispatch

The rest of `terminal.rs`: switching modes and screens, the replies to queries, `apply`, the byte loop
of `ingest`, resizing, resetting, and the check of a recovery snapshot.
-/

namespace FesTerm

open Checked

namespace Terminal

def advanceScreenGeneration (terminal : Terminal) : Terminal :=
  { terminal with screenGeneration := terminal.screenGeneration + 1 }

def setMouseTracking (terminal : Terminal) (requested : MouseTrackingMode) (enabled : Bool) : Terminal :=
  if enabled then { terminal with modes := { terminal.modes with mouseTracking := requested } }
  else if terminal.modes.mouseTracking = requested then
    { terminal with modes := { terminal.modes with mouseTracking := .none } }
  else terminal

section

variable [Platform]

/-- The alternate buffer cleared on entry. -/
def clearAlternate (alternate : BufferState) (cell : Cell) (rows : Nat) : BufferState :=
  { alternate with
    screen := alternate.screen.clearAll cell
    cursor := ⟨0, 0⟩
    scrollTop := 0
    scrollBottom := rows - 1
    pendingWrap := false
    graphemeAnchor := none }

def enterAlternate (terminal : Terminal) (clear : Bool) : Option Terminal :=
  if terminal.activeScreen = .alternate then some terminal
  else
    let terminal := terminal.dropHyperlink
    let alternate := terminal.alternate.getD (.new terminal.dimensions)
    let alternate :=
      if clear then clearAlternate alternate terminal.eraseCell terminal.dimensions.rows else alternate
    let terminal := advanceScreenGeneration { terminal with
      alternate := some alternate
      activeScreen := .alternate }
    let terminal := { terminal with modes := { terminal.modes with alternateScreen := true } }
    terminal.modifyScreen fun screen => some screen.markAllDirty

def leaveAlternate (terminal : Terminal) (reset : Bool) : Terminal :=
  let terminal := terminal.dropHyperlink
  let terminal :=
    if terminal.activeScreen = .alternate then
      advanceScreenGeneration { terminal with
        activeScreen := .primary
        primary := { terminal.primary with screen := terminal.primary.screen.markAllDirty } }
    else terminal
  let terminal :=
    if reset then { terminal with alternate := terminal.alternate.map BufferState.reset } else terminal
  { terminal with modes := { terminal.modes with alternateScreen := false } }

omit [Platform] in
/-- One ANSI mode of `set_modes`. -/
def setAnsiMode (terminal : Terminal) (enabled : Bool) (mode : Nat) : Terminal :=
  match mode with
  | 2 => { terminal with modes := { terminal.modes with keyboardLocked := enabled } }
  | 4 => { terminal with modes := { terminal.modes with insertMode := enabled } }
  | 20 => { terminal with modes := { terminal.modes with lineFeedNewLine := enabled } }
  | _ => terminal

/-- One DEC private mode of `set_modes`. -/
def setPrivateMode (terminal : Terminal) (enabled : Bool) (mode : Nat) : Option Terminal :=
  match mode with
  | 1 => some { terminal with modes := { terminal.modes with applicationCursor := enabled } }
  | 6 => { terminal with modes := { terminal.modes with originMode := enabled } }.homeCursor
  | 7 =>
    let terminal := { terminal with modes := { terminal.modes with autoWrap := enabled } }
    if enabled then some terminal else terminal.clearPendingWrap
  | 25 => some { terminal with modes := { terminal.modes with cursorVisible := enabled } }
  | 45 => some { terminal with modes := { terminal.modes with reverseWrap := enabled } }
  | 66 => some { terminal with modes := { terminal.modes with applicationKeypad := enabled } }
  | 67 => some { terminal with modes := { terminal.modes with backarrowSendsBackspace := enabled } }
  | 69 =>
    let terminal := { terminal with modes := { terminal.modes with leftRightMarginMode := enabled } }
    if enabled then some terminal
    else terminal.modifyActive fun buffer =>
      some { buffer with scrollLeft := 0, scrollRight := terminal.dimensions.columns - 1 }
  | 9 => some (terminal.setMouseTracking .x10 enabled)
  | 1000 => some (terminal.setMouseTracking .buttonEvent enabled)
  | 1002 => some (terminal.setMouseTracking .buttonMotion enabled)
  | 1003 => some (terminal.setMouseTracking .anyMotion enabled)
  | 1004 => some { terminal with modes := { terminal.modes with focusReporting := enabled } }
  | 1006 => some { terminal with modes := { terminal.modes with sgrMouse := enabled } }
  | 2004 => some { terminal with modes := { terminal.modes with bracketedPaste := enabled } }
  | 47 => if enabled then terminal.enterAlternate false else some (terminal.leaveAlternate false)
  | 1047 => if enabled then terminal.enterAlternate true else some (terminal.leaveAlternate true)
  | 1048 => if enabled then terminal.saveDec else terminal.restoreDec
  | 1049 =>
    if enabled then do
      let terminal ← terminal.saveDec
      terminal.enterAlternate true
    else (terminal.leaveAlternate true).restoreDec
  | _ => some terminal

def setModes (terminal : Terminal) («private» enabled : Bool) (parameters : CsiParameters) :
    Option Terminal :=
  forRange 0 parameters.length terminal fun terminal index =>
    match parameters.value index with
    | none => some terminal
    | some mode =>
      if «private» then terminal.setPrivateMode enabled mode
      else some (terminal.setAnsiMode enabled mode)

end

/-- DECSTR. -/
def softReset (terminal : Terminal) : Option Terminal :=
  let terminal := resetGraphicsRendition { terminal with
    modes := { terminal.modes with
      originMode := false
      autoWrap := true
      cursorVisible := true
      applicationCursor := false
      applicationKeypad := false
      leftRightMarginMode := false
      insertMode := false }
    currentProtected := false
    protection := .none }
  terminal.modifyActive fun buffer => some { buffer with
    scrollTop := 0
    scrollBottom := terminal.dimensions.rows - 1
    scrollLeft := 0
    scrollRight := terminal.dimensions.columns - 1
    pendingWrap := false
    decSaved := none
    ansiSaved := none }

def reply (terminal : Terminal) (text : String) : Terminal := terminal.queueReply (ascii text)

/-- The characters of a cell as `request_rectangle_checksum` counts them. -/
def cellChecksum (cell : Cell) : Nat :=
  if cell.text.isEmpty then 0x20 else (cell.text.map fun c => c.toNat % 65536).sum

/-- The first row, the row limit, the first column and the column limit of a checksum. -/
def checksumRegion (terminal : Terminal) : Option (Nat × Nat × Nat × Nat) :=
  if terminal.modes.originMode then do
    let buffer ← terminal.activeBuffer
    let margins ← terminal.horizontalMargins
    some (buffer.scrollTop, buffer.scrollBottom + 1, margins.left, margins.right + 1)
  else some (0, terminal.dimensions.rows, 0, terminal.dimensions.columns)

/-- DECRQCRA. -/
def requestRectangleChecksum (terminal : Terminal) (parameters : CsiParameters) : Option Terminal := do
  let identifier := rawParameter parameters 0 0
  let buffer ← terminal.activeBuffer
  let (rowOrigin, rowLimit, columnOrigin, columnLimit) ← terminal.checksumRegion
  let top := min (← sub (rowOrigin + parameterOr parameters 2 1) 1) rowLimit
  let left := min (← sub (columnOrigin + parameterOr parameters 3 1) 1) columnLimit
  let bottom := min (rowOrigin + parameterOr parameters 4 (← sub rowLimit rowOrigin)) rowLimit
  let right := min (columnOrigin + parameterOr parameters 5 (← sub columnLimit columnOrigin)) columnLimit
  let checksum ← forRange top bottom 0 fun checksum row =>
    forRange left right checksum fun checksum column => do
      match ← buffer.screen.cell column row with
      | none => some checksum
      | some cell => some ((checksum + cellChecksum cell) % 65536)
  some (terminal.reply s!"\x1bP{identifier}!~{hexDigits true checksum}\x1b\\")

/-- Two of the window operations are reports; the others are ignored. -/
def windowOperation (terminal : Terminal) (parameters : CsiParameters) : Option Terminal := do
  let buffer ← terminal.activeBuffer
  let dimensions := buffer.screen.dimensions
  match parameters.value 0 with
  | some 18 => some (terminal.reply s!"\x1b[8;{dimensions.rows};{dimensions.columns}t")
  | some 19 => some (terminal.reply s!"\x1b[9;{dimensions.rows};{dimensions.columns}t")
  | _ => some terminal

def deviceStatus (terminal : Terminal) (parameters : CsiParameters) : Option Terminal :=
  match parameters.value 0 with
  | some 5 => some (terminal.reply "\x1b[0n")
  | some 6 => do
    let cursor := terminal.cursor
    let buffer ← terminal.activeBuffer
    let margins ← terminal.horizontalMargins
    let row := if terminal.modes.originMode then cursor.row - buffer.scrollTop + 1 else cursor.row + 1
    let column := if terminal.modes.originMode ∧ cursor.column ≥ margins.left then
        cursor.column - margins.left + 1
      else cursor.column + 1
    some (terminal.reply s!"\x1b[{row};{column}R")
  | _ => some terminal

def modeState (set : Bool) : Nat := if set then 1 else 2

def permanentlySet : Nat := 3
def permanentlyReset : Nat := 4
def notRecognized : Nat := 0

def ansiModeState (terminal : Terminal) (mode : Nat) : Nat :=
  match mode with
  | 2 => modeState terminal.modes.keyboardLocked
  | 4 => modeState terminal.modes.insertMode
  | 20 => modeState terminal.modes.lineFeedNewLine
  | 12 => permanentlySet
  | mode =>
    if mode ∈ [1, 5, 7, 10, 11] ∨ 13 ≤ mode ∧ mode ≤ 19 then permanentlyReset else notRecognized

def decModeState (terminal : Terminal) (mode : Nat) : Nat :=
  match mode with
  | 1 => modeState terminal.modes.applicationCursor
  | 6 => modeState terminal.modes.originMode
  | 7 => modeState terminal.modes.autoWrap
  | 9 => modeState (terminal.modes.mouseTracking == .x10)
  | 25 => modeState terminal.modes.cursorVisible
  | 45 => modeState terminal.modes.reverseWrap
  | 47 | 1047 | 1049 => modeState terminal.modes.alternateScreen
  | 66 => modeState terminal.modes.applicationKeypad
  | 67 => modeState terminal.modes.backarrowSendsBackspace
  | 69 => modeState terminal.modes.leftRightMarginMode
  | 1000 => modeState (terminal.modes.mouseTracking == .buttonEvent)
  | 1002 => modeState (terminal.modes.mouseTracking == .buttonMotion)
  | 1003 => modeState (terminal.modes.mouseTracking == .anyMotion)
  | 1004 => modeState terminal.modes.focusReporting
  | 1006 => modeState terminal.modes.sgrMouse
  | 2004 => modeState terminal.modes.bracketedPaste
  | mode =>
    if 2 ≤ mode ∧ mode ≤ 5 ∨ mode ∈ [8, 18, 19] ∨ 34 ≤ mode ∧ mode ≤ 36 ∨
        mode ∈ [42, 57, 60, 61, 64, 68, 73, 81] ∨ 95 ≤ mode ∧ mode ≤ 106 then permanentlyReset
    else notRecognized

/-- DECRQM. -/
def requestMode (terminal : Terminal) («private» : Bool) (parameters : CsiParameters) : Terminal :=
  match parameters.value 0 with
  | none => terminal
  | some mode =>
    let state := if «private» then terminal.decModeState mode else terminal.ansiModeState mode
    let marker := if «private» then "?" else ""
    terminal.reply s!"\x1b[{marker}{mode};{state}$y"

/-- DECDSR: the answers of a terminal without the devices it is asked about. -/
def decDeviceStatus (terminal : Terminal) (parameters : CsiParameters) : Terminal :=
  match parameters.value 0 with
  | some 6 =>
    let row := terminal.cursor.row + 1
    let column := terminal.cursor.column + 1
    terminal.reply s!"\x1b[?{row};{column}R"
  | some 15 => terminal.reply "\x1b[?13n"
  | some 25 => terminal.reply "\x1b[?21n"
  | some 53 | some 55 => terminal.reply "\x1b[?50n"
  | some 56 => terminal.reply "\x1b[?57;0n"
  | some 62 => terminal.reply "\x1b[0*\x7b"
  | some 63 =>
    let identifier := rawParameter parameters 1 0
    terminal.reply s!"\x1bP{identifier}!~0000\x1b\\"
  | some 75 => terminal.reply "\x1b[?70n"
  | some 85 => terminal.reply "\x1b[?83n"
  | _ => terminal

def deviceAttributes (terminal : Terminal) (secondary : Bool) : Terminal :=
  terminal.reply (if secondary then "\x1b[>0;0;0c" else "\x1b[?6c")

def colorReport (color : Color) (background : Bool) : Option String :=
  let extended := if background then 48 else 38
  match color with
  | .default => none
  | .indexed index =>
    if index.toNat < 8 then some (toString ((if background then 40 else 30) + index.toNat))
    else if index.toNat < 16 then some (toString ((if background then 100 else 90) + index.toNat - 8))
    else some s!"{extended}:5:{index}"
  | .rgb red green blue => some s!"{extended}:2::{red}:{green}:{blue}"

def graphicsRenditionReport (terminal : Terminal) : String :=
  let codes : List (Attributes × Nat) := [(.bold, 1), (.faint, 2), (.italic, 3), (.underline, 4),
    (.doubleUnderline, 21), (.slowBlink, 5), (.rapidBlink, 6), (.inverse, 7), (.concealed, 8),
    (.strikethrough, 9)]
  let parameters := codes.filterMap fun (rendition, code) =>
    if terminal.currentAttributes.contains rendition then some (toString code) else none
  let foreground := (colorReport terminal.currentForeground false).toList
  let background := (colorReport terminal.currentBackground true).toList
  String.intercalate ";" (["0"] ++ parameters ++ foreground ++ background)

def cursorStyleCode : CursorStyle → Nat
  | .blinkingBlock => 1
  | .steadyBlock => 2
  | .blinkingUnderline => 3
  | .steadyUnderline => 4
  | .blinkingBar => 5
  | .steadyBar => 6

/-- The report of DECRQSS for a selector that the terminal holds. -/
def statusReport (terminal : Terminal) (selector : List UInt8) : Option (Option String) :=
  if selector = ascii "m" then some (some terminal.graphicsRenditionReport)
  else if selector = ascii "r" then do
    let buffer ← terminal.activeBuffer
    let top := buffer.scrollTop + 1
    let bottom := buffer.scrollBottom + 1
    some (some s!"{top};{bottom}")
  else if selector = ascii "s" then do
    let margins ← terminal.horizontalMargins
    let left := margins.left + 1
    let right := margins.right + 1
    some (some s!"{left};{right}")
  else if selector = ascii "\"q" then
    some (some (if terminal.currentProtected ∧ terminal.protection = .dec then "1" else "0"))
  else if selector = ascii " q" then some (some (toString (cursorStyleCode terminal.cursorStyle)))
  else some none

/-- DECRQSS. -/
def applyDcsAction (terminal : Terminal) (action : Option DcsAction) : Option Terminal :=
  match action with
  | none => some terminal
  | some (.requestStatusString selector) => do
    match ← terminal.statusReport selector with
    | some report =>
      some (terminal.queueReply (ascii "\x1bP1$r" ++ ascii report ++ selector ++ ascii "\x1b\\"))
    | none => some (terminal.reply "\x1bP0$r\x1b\\")

/-- The reply to one colour query. -/
def reportColor (terminal : Terminal) (query : ColorQuery) (terminator : StringTerminator) :
    Option Terminal := do
  let (head, color) ← match query with
    | .palette index => do
      let color ← terminal.colorScheme.palette index
      some (s!"\x1b]4;{index};", color)
    | .foreground => some ("\x1b]10;", terminal.colorScheme.foreground)
    | .background => some ("\x1b]11;", terminal.colorScheme.background)
    | .cursor => some ("\x1b]12;", terminal.colorScheme.cursor)
  some (terminal.queueReply (ascii (head ++ color.toXparsecolor) ++ terminator.bytes))

def applyOscAction (terminal : Terminal) (action : Option OscAction) : Option Terminal :=
  match action with
  | none => some terminal
  | some (.setTitle title) => some { terminal with title := title }
  | some (.setHyperlink hyperlink) => some { terminal with
      currentHyperlinkCellsRemaining := if hyperlink.isSome then hyperlinkCellCredits else 0
      currentHyperlink := hyperlink }
  | some (.reportColors queries terminator) =>
    queries.foldlM (fun terminal query => terminal.reportColor query terminator) terminal

section

variable [Platform]

omit [Platform] in
/-- The operations after which a printed cluster can still be extended. -/
def keepsGraphemeAnchor : TerminalOp → Bool
  | .print _ | .setGraphicsRendition _ | .ignored => true
  | _ => false

omit [Platform] in
def newLineReturn (terminal : Terminal) : Option Terminal :=
  if terminal.modes.lineFeedNewLine then terminal.carriageReturn else some terminal

/-- The match of `apply`. -/
def perform (terminal : Terminal) : TerminalOp → Option Terminal
  | .print character => terminal.print character
  | .carriageReturn => do (← terminal.carriageReturn).clearPendingWrap
  | .lineFeed => do
    let terminal ← terminal.lineBreak
    let terminal ← terminal.newLineReturn
    terminal.clearPendingWrap
  | .index => do (← terminal.lineBreak).clearPendingWrap
  | .backspace => terminal.moveCursorBack 1
  | .tab => do (← terminal.tab).clearPendingWrap
  | .cursorForwardTab parameters => do
    let terminal ← forRange 0 (parameterOr parameters 0 1) terminal fun terminal _ => terminal.tab
    terminal.clearPendingWrap
  | .cursorBackwardTab parameters => do
    let terminal ← forRange 0 (parameterOr parameters 0 1) terminal fun terminal _ =>
      terminal.backwardTab
    terminal.clearPendingWrap
  | .nextLine => do
    let terminal ← terminal.lineBreak
    let terminal ← terminal.carriageReturn
    terminal.clearPendingWrap
  | .reverseIndex => do (← terminal.reverseIndex).clearPendingWrap
  | .saveDec => terminal.saveDec
  | .restoreDec => terminal.restoreDec
  | .setTabStop => some terminal.setTabStop
  | .setApplicationKeypad enabled =>
    some { terminal with modes := { terminal.modes with applicationKeypad := enabled } }
  | .setCursorStyle parameters => some (terminal.setCursorStyle parameters)
  | .cursorUp parameters => terminal.moveVertical parameters false
  | .cursorDown parameters => terminal.moveVertical parameters true
  | .cursorForward parameters => terminal.moveHorizontal parameters true
  | .cursorBack parameters => terminal.moveHorizontal parameters false
  | .cursorNextLine parameters => do (← terminal.moveVertical parameters true).carriageReturn
  | .cursorPreviousLine parameters => do (← terminal.moveVertical parameters false).carriageReturn
  | .cursorHorizontalAbsolute parameters => terminal.cursorHorizontalAbsolute parameters true
  | .horizontalPositionAbsolute parameters => terminal.cursorHorizontalAbsolute parameters false
  | .cursorPosition parameters => terminal.cursorPosition parameters
  | .verticalPositionAbsolute parameters => terminal.verticalPositionAbsolute parameters
  | .eraseDisplay parameters => terminal.eraseDisplay parameters false
  | .eraseLine parameters => terminal.eraseLine parameters false
  | .eraseCharacters parameters => terminal.eraseCharacters parameters
  | .insertCharacters parameters => terminal.insertCharacters parameters
  | .deleteCharacters parameters => terminal.deleteCharacters parameters
  | .insertLines parameters => terminal.insertLines parameters
  | .deleteLines parameters => terminal.deleteLines parameters
  | .scrollUp parameters => terminal.scrollUp parameters
  | .scrollDown parameters => terminal.scrollDown parameters
  | .setScrollRegion parameters => terminal.setScrollRegion parameters
  | .saveAnsiOrSetHorizontalMargins parameters =>
    if terminal.modes.leftRightMarginMode then terminal.setHorizontalMargins parameters
    else if parameters.isEmpty then terminal.saveAnsi
    else some terminal
  | .restoreAnsi => terminal.restoreAnsi
  | .setGraphicsRendition parameters => some (terminal.setGraphicsRendition parameters)
  | .setModes «private» enabled parameters => terminal.setModes «private» enabled parameters
  | .deviceStatus parameters => terminal.deviceStatus parameters
  | .decDeviceStatus parameters => some (terminal.decDeviceStatus parameters)
  | .repeatPrecedingCharacter parameters => terminal.repeatPrecedingCharacter parameters
  | .screenAlignmentPattern => terminal.screenAlignmentPattern
  | .deviceAttributes secondary => some (terminal.deviceAttributes secondary)
  | .clearTabStops parameters => some (terminal.clearTabStops parameters)
  | .setProtection iso «protected» => some { terminal with
      protection := if iso then .iso else .dec
      currentProtected := «protected» }
  | .selectiveEraseDisplay parameters => terminal.eraseDisplay parameters true
  | .selectiveEraseLine parameters => terminal.eraseLine parameters true
  | .requestMode «private» parameters => some (terminal.requestMode «private» parameters)
  | .softReset => terminal.softReset
  | .copyRectangle parameters => terminal.copyRectangle parameters
  | .fillRectangle parameters => terminal.fillRectangle parameters
  | .eraseRectangle parameters selective => terminal.eraseRectangle parameters selective
  | .insertColumns parameters => terminal.insertColumns parameters
  | .deleteColumns parameters => terminal.deleteColumns parameters
  | .backIndex => do (← terminal.backIndex).clearPendingWrap
  | .forwardIndex => do (← terminal.forwardIndex).clearPendingWrap
  | .requestRectangleChecksum parameters => terminal.requestRectangleChecksum parameters
  | .windowOperation parameters => terminal.windowOperation parameters
  | .ignored => some terminal

omit [Platform] in
def releaseAnchor (terminal : Terminal) (operation : TerminalOp) : Option Terminal :=
  if keepsGraphemeAnchor operation then some terminal else terminal.clearGraphemeAnchor

def apply (terminal : Terminal) (operation : TerminalOp) : Option Terminal := do
  let terminal ← terminal.releaseAnchor operation
  terminal.perform operation

/-- The part of `ingest_byte` behind the UTF-8 decoder. -/
def ingestParsed (terminal : Terminal) (byte : UInt8) : Option Terminal := do
  if terminal.parser.isGround ∧ byte ≥ 0x80 then
    let (utf8, started) ← terminal.utf8.start byte
    let terminal := { terminal with utf8 := utf8 }
    if started then
      some terminal
    else terminal.print replacementCharacter
  else
    let (parser, operation) ← terminal.parser.advance byte
    let terminal ← { terminal with parser := parser }.apply operation
    let (action, parser) := terminal.parser.takeOscAction
    let terminal ← { terminal with parser := parser }.applyOscAction action
    let (request, parser) := terminal.parser.takeDcsAction
    { terminal with parser := parser }.applyDcsAction request

/-- `ingest_byte`. A byte that breaks a sequence prints the replacement character and is read again;
the decoder is not pending then, so it is read once more. -/
def ingestByte (terminal : Terminal) (byte : UInt8) : Option Terminal := do
  if terminal.utf8.pending then
    let (utf8, result) ← terminal.utf8.advance byte
    let terminal := { terminal with utf8 := utf8 }
    match result with
    | .pending => some terminal
    | .character character => terminal.print character
    | .invalid =>
      let terminal ← terminal.print replacementCharacter
      terminal.ingestParsed byte
  else terminal.ingestParsed byte

/-- Bytes of the program, one after the other. -/
def ingest (terminal : Terminal) (bytes : List UInt8) : Option Terminal := bytes.foldlM ingestByte terminal

/-- The alternate buffer, when there is one, is clipped and padded. -/
def resizedAlternate (terminal : Terminal) (dimensions : Dimensions) : Option (Option BufferState) :=
  match terminal.alternate with
  | none => some none
  | some alternate => (alternate.resized dimensions).map some

/-- A resize, and where it moves the positions to; both buffers take the new size. -/
def resizeWithContentPositions (terminal : Terminal) (dimensions : Dimensions)
    (positions : List ContentPosition) : Option (Terminal × List (Option ContentPosition)) := do
  let (primary, scrollback, positions) ←
    terminal.primary.reflowed dimensions terminal.scrollback positions
  let alternate ← terminal.resizedAlternate dimensions
  some ({ terminal with
    primary := primary
    scrollback := scrollback
    alternate := alternate
    tabStops := resizedTabStops terminal.tabStops dimensions }, positions)

def resize (terminal : Terminal) (dimensions : Dimensions) : Option Terminal := do
  let (terminal, _) ← terminal.resizeWithContentPositions dimensions []
  some terminal

def setScrollbackLimit (terminal : Terminal) (limitBytes : ByteLimit) : Option Terminal := do
  let scrollback ← terminal.scrollback.setLimitBytes limitBytes
  some { terminal with scrollback := scrollback }

omit [Platform] in
def clearScrollback (terminal : Terminal) : Terminal :=
  { terminal with scrollback := terminal.scrollback.clear }

def resetToInitialState (terminal : Terminal) : Terminal :=
  advanceScreenGeneration { terminal with
    primary := terminal.primary.reset
    alternate := none
    activeScreen := .primary
    modes := .default
    cursorStyle := .blinkingBlock
    cursorStyleSet := false
    tabStops := defaultTabStops terminal.dimensions
    currentAttributes := .none
    currentForeground := .default
    currentBackground := .default
    title := []
    currentHyperlink := none
    currentHyperlinkCellsRemaining := 0
    parser := .new
    utf8 := .new }

omit [Platform] in
/-- What the active screen shows at a position; the outer `Option` is a failing access of the ring. -/
def cell (terminal : Terminal) (column row : Nat) : Option (Option Cell) := do
  let buffer ← terminal.activeBuffer
  buffer.screen.cell column row

omit [Platform] in
/-- The rows that are to be drawn again; the marks are cleared. -/
def takeDirtyRows (terminal : Terminal) : Option (List Nat × Terminal) := do
  let buffer ← terminal.activeBuffer
  let (rows, screen) := buffer.screen.takeDirtyRows
  some (rows, terminal.setActiveBuffer { buffer with screen := screen })

/-- What an embedder does with a terminal. -/
inductive Event where
  | ingest (bytes : List UInt8)
  | resize (dimensions : Dimensions)
  | setScrollbackLimit (limitBytes : ByteLimit)
  | clearScrollback
  | resetToInitialState
  | takeDirtyRows

def handle (terminal : Terminal) : Event → Option Terminal
  | .ingest bytes => terminal.ingest bytes
  | .resize dimensions => terminal.resize dimensions
  | .setScrollbackLimit limitBytes => terminal.setScrollbackLimit limitBytes
  | .clearScrollback => some terminal.clearScrollback
  | .resetToInitialState => some terminal.resetToInitialState
  | .takeDirtyRows => do
    let (_, terminal) ← terminal.takeDirtyRows
    some terminal

/-- A whole session from this terminal; none where a step panics. -/
def run (terminal : Terminal) (events : List Event) : Option Terminal := events.foldlM handle terminal

omit [Platform] in
/-- The checks of `validate_recovery_snapshot` on the terminal's own fields. -/
def validateFields (terminal : Terminal) : Except String Unit :=
  if terminal.tabStops.length ≠ terminal.dimensions.columns then
    .error s!"terminal stores {terminal.tabStops.length} tab stops for a {terminal.dimensions.columns}-column grid"
  else if utf8Len terminal.title > 256 ∨ terminal.title.any isControl then
    .error "terminal stores an invalid OSC title"
  else if terminal.currentHyperlink.isNone ∧ terminal.currentHyperlinkCellsRemaining ≠ 0 then
    .error "terminal stores hyperlink cell credits without an active hyperlink"
  else .ok ()

omit [Platform] in
def validateAlternate (terminal : Terminal) : Option (Except String Unit) :=
  match terminal.alternate with
  | none => some (.ok ())
  | some alternate => alternate.validateRecoveryState

/-- `validate_recovery_snapshot`, on a terminal whose queues have been taken. -/
def validateRecoverySnapshot (terminal : Terminal) : Option (Except String Unit) := do
  let utf8 ← terminal.utf8.validateRecoveryState
  let primary ← terminal.primary.validateRecoveryState
  let alternate ← terminal.validateAlternate
  return do
    terminal.parser.validateRecoveryState
    utf8
    primary
    if terminal.activeScreen = .alternate ∧ terminal.alternate.isNone then
      throw "terminal selects the alternate screen without storing one"
    alternate
    if terminal.alternate.any (·.screen.dimensions ≠ terminal.dimensions) then
      throw "alternate screen dimensions do not match the primary screen"
    terminal.validateFields
    if terminal.replyQueueOverflowed ∨ !terminal.replyQueue.isEmpty then
      throw "terminal recovery snapshots must not retain queued replies or input"
    terminal.scrollback.validateRecoveryState terminal.dimensions.columns

end

end Terminal

end FesTerm
