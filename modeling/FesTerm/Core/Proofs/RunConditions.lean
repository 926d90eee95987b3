import FesTerm.Core.Dispatch
import FesTerm.Core.Proofs.ScreenProofs

/-!
# Conditions on runs

Three kinds of steps can break what the rest of the program relies on: a selective erase can cut a
wide cell in two and forget that the cells it spared are occupied, a cluster that ends at the wrap
limit arms the pending wrap in the column it starts in, and a title is cut by characters where
recovery counts bytes.

`Terminal.keeps` says of a list of events that none of its steps does so, for the properties that a
`Promise` names. Every condition is on the state before the step and can be evaluated.
-/

namespace FesTerm

open Checked

namespace Parser

/-- The byte ends an operating system command. -/
def completesOsc (parser : Parser) (byte : UInt8) : Bool :=
  match parser.state with
  | .string .osc _ => byte == 0x07
  | .stringEscape .osc _ => byte == 0x5c
  | _ => false

variable [Platform]

/-- The title that the byte completes, when it completes one. -/
def completedTitle (parser : Parser) (byte : UInt8) : Option (List Char) :=
  if parser.completesOsc byte then
    match parseOsc parser.stringPayload .bell with
    | some (.setTitle title) => some title
    | _ => none
  else none

def titleKeeps (promise : Promise) (parser : Parser) (byte : UInt8) : Bool :=
  !promise.titles || (parser.completedTitle byte).all fun title => decide (utf8Len title ≤ 256)

end Parser

namespace Terminal

variable [Platform]

omit [Platform] in
/-- The wrap limit and the wrap home of a column. -/
def geometryAt (margins : ColumnSpan) (columns column : Nat) : Nat × Nat :=
  if margins.left ≤ column ∧ column ≤ margins.right then (margins.right + 1, margins.left)
  else (columns, 0)

/-- The column, the width and the wrap limit of a cluster that grows by a character. -/
def extensionLanding (autoWrap : Bool) (geometry : Nat × Nat) (anchor : Cursor) (cell : Cell)
    (character : Char) : Option (Nat × Nat × Nat) :=
  if utf8Len cell.text + character.utf8Size > maxGraphemeBytes then some (anchor.column, 1, geometry.1)
  else
    let width := graphemeWidth (cell.text ++ [character])
    if width = 0 then none
    else if cell.width.columns = 1 ∧ width = 2 ∧ anchor.column + 1 = geometry.1 then
      if autoWrap then some (geometry.2, 2, geometry.1) else none
    else some (anchor.column, width, geometry.1)

/-- The column, the width and the wrap limit of a cluster that starts with a character. -/
def freshLanding (autoWrap : Bool) (margins : ColumnSpan) (columns : Nat) (buffer : BufferState)
    (character : Char) : Option (Nat × Nat × Nat) :=
  let width := min ((Platform.charWidth character).getD 0) 2
  if width = 0 then none
  else
    let start := if buffer.pendingWrap ∧ autoWrap then (geometryAt margins columns buffer.cursor.column).2
      else buffer.cursor.column
    let geometry := geometryAt margins columns start
    if width = 2 ∧ start + 1 = geometry.1 then
      if autoWrap then some (geometry.2, 2, geometry.1) else none
    else some (start, width, geometry.1)

/-- Where printing a character with autowrap puts a cluster. -/
def landing (autoWrap : Bool) (margins : ColumnSpan) (columns : Nat) (buffer : BufferState)
    (character : Char) : Option (Nat × Nat × Nat) :=
  match extensionTarget buffer character with
  | some (some (anchor, cell)) =>
    extensionLanding autoWrap (geometryAt margins columns buffer.cursor.column) anchor cell character
  | _ => freshLanding autoWrap margins columns buffer character

omit [Platform] in
def landsWell (columns : Nat) (place : Nat × Nat × Nat) : Bool :=
  decide (place.1 + place.2.1 < place.2.2) || decide (place.1 + 1 = columns)

/-- Printing the character does not arm the pending wrap away from the last column. -/
def printKeeps (promise : Promise) (terminal : Terminal) (character : Char) : Bool :=
  !promise.wraps || !terminal.modes.autoWrap ||
    match terminal.activeBuffer, terminal.horizontalMargins with
    | some buffer, some margins =>
      (landing terminal.modes.autoWrap margins terminal.dimensions.columns buffer character).all
        (landsWell terminal.dimensions.columns)
    | _, _ => true

def repeatKeeps (promise : Promise) (terminal : Terminal) (parameters : CsiParameters) : Bool :=
  match terminal.lastGraphicCharacter with
  | none => true
  | some character => holdsAlong (fun terminal _ => terminal.print character)
      (fun terminal _ => terminal.printKeeps promise character) terminal
      (List.range' 0 (parameterOr parameters 0 1))

/-- An erase of a run of cells keeps the promise. -/
def runKeeps (promise : Promise) (terminal : Terminal) (run : Option (Nat × Nat)) (spare : Bool) : Bool :=
  match terminal.activeBuffer, run with
  | some buffer, some (start, stop) =>
    Screen.linearKeeps promise buffer.screen start stop terminal.eraseCell spare
  | _, _ => true

def eraseDisplayKeeps (promise : Promise) (terminal : Terminal) (parameters : CsiParameters)
    (selective : Bool) : Bool :=
  terminal.runKeeps promise (terminal.eraseDisplayRun (rawParameter parameters 0 0))
    (terminal.sparesProtectedCells selective)

def eraseLineKeeps (promise : Promise) (terminal : Terminal) (parameters : CsiParameters)
    (selective : Bool) : Bool :=
  terminal.runKeeps promise (terminal.eraseLineRun (rawParameter parameters 0 0))
    (terminal.sparesProtectedCells selective)

def eraseCharactersKeeps (promise : Promise) (terminal : Terminal) (parameters : CsiParameters) : Bool :=
  terminal.runKeeps promise (some (terminal.eraseCharactersRun (parameterOr parameters 0 1)))
    (terminal.sparesProtectedCells false)

def eraseRectangleKeeps (promise : Promise) (terminal : Terminal) (parameters : CsiParameters)
    (selective : Bool) : Bool :=
  match terminal.activeBuffer, terminal.rectangleFrom parameters 0 with
  | some buffer, some (some rectangle) =>
    Screen.rectangleKeeps promise buffer.screen rectangle terminal.eraseCell
      (terminal.rectangleSpares selective)
  | _, _ => true

/-- The operation keeps the promise. -/
def performKeeps (promise : Promise) (terminal : Terminal) : TerminalOp → Bool
  | .print character => terminal.printKeeps promise character
  | .repeatPrecedingCharacter parameters => terminal.repeatKeeps promise parameters
  | .eraseDisplay parameters => terminal.eraseDisplayKeeps promise parameters false
  | .selectiveEraseDisplay parameters => terminal.eraseDisplayKeeps promise parameters true
  | .eraseLine parameters => terminal.eraseLineKeeps promise parameters false
  | .selectiveEraseLine parameters => terminal.eraseLineKeeps promise parameters true
  | .eraseCharacters parameters => terminal.eraseCharactersKeeps promise parameters
  | .eraseRectangle parameters selective => terminal.eraseRectangleKeeps promise parameters selective
  | _ => true

def applyKeeps (promise : Promise) (terminal : Terminal) (operation : TerminalOp) : Bool :=
  (terminal.releaseAnchor operation).all fun terminal => terminal.performKeeps promise operation

def parsedKeeps (promise : Promise) (terminal : Terminal) (byte : UInt8) : Bool :=
  if terminal.parser.isGround ∧ byte ≥ 0x80 then
    match terminal.utf8.start byte with
    | some (utf8, false) => { terminal with utf8 := utf8 }.printKeeps promise replacementCharacter
    | _ => true
  else
    terminal.parser.titleKeeps promise byte &&
      (terminal.parser.advance byte).all fun (parser, operation) =>
        { terminal with parser := parser }.applyKeeps promise operation

/-- The byte keeps the promise. -/
def byteKeeps (promise : Promise) (terminal : Terminal) (byte : UInt8) : Bool :=
  if terminal.utf8.pending then
    match terminal.utf8.advance byte with
    | some (utf8, .character character) => { terminal with utf8 := utf8 }.printKeeps promise character
    | some (utf8, .invalid) =>
      let terminal := { terminal with utf8 := utf8 }
      terminal.printKeeps promise replacementCharacter &&
        (terminal.print replacementCharacter).all fun terminal => terminal.parsedKeeps promise byte
    | _ => true
  else terminal.parsedKeeps promise byte

/-- Every byte of the event keeps the promise; only bytes can break one. -/
def eventKeeps (promise : Promise) (terminal : Terminal) : Event → Bool
  | .ingest bytes => holdsAlong ingestByte (byteKeeps promise) terminal bytes
  | _ => true

/-- Every event keeps the promise in the state that it finds. -/
def keeps (promise : Promise) (terminal : Terminal) (events : List Event) : Bool :=
  holdsAlong handle (eventKeeps promise) terminal events

end Terminal

end FesTerm
