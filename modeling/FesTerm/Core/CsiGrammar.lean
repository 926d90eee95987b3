import FesTerm.Core.Parser

/-!
# The grammar of control sequences

What stands between `ESC [` and the final byte of a control sequence, read off the bytes as a whole: a
marker at the very front, then parameter bytes, then intermediate bytes. The parameters are the fields
between semicolons and colons, each a decimal number; an empty field is zero, and no bytes are no
parameters. `Accepts` says which byte strings the grammar and its bounds admit.
-/

namespace FesTerm

namespace Csi

inductive Marker where
  | none
  | «private»
  | secondary
  deriving DecidableEq

/-- The marker at the front, and the bytes behind it. -/
def splitMarker : List UInt8 → Marker × List UInt8
  | [] => (.none, [])
  | byte :: rest =>
    if byte = 0x3f then (.private, rest)
    else if byte = 0x3e then (.secondary, rest)
    else (.none, byte :: rest)

def marker (bytes : List UInt8) : Marker := (splitMarker bytes).1

def isParameterByte (byte : UInt8) : Bool := isDigit byte || byte == 0x3b || byte == 0x3a

def isIntermediateByte (byte : UInt8) : Bool := inRange 0x20 0x2f byte

/-- The bytes that end a control sequence. -/
def isFinalByte (byte : UInt8) : Bool := inRange 0x40 0x7e byte

def parameterBytes (bytes : List UInt8) : List UInt8 :=
  (splitMarker bytes).2.takeWhile isParameterByte

def intermediateBytes (bytes : List UInt8) : List UInt8 :=
  (splitMarker bytes).2.dropWhile isParameterByte

/-- The fields of parameter bytes, each with the separator before it. -/
def fieldsFrom (separator : ParameterSeparator) : List UInt8 → List (ParameterSeparator × List UInt8)
  | [] => [(separator, [])]
  | byte :: rest =>
    if byte = 0x3b then (separator, []) :: fieldsFrom .semicolon rest
    else if byte = 0x3a then (separator, []) :: fieldsFrom .colon rest
    else match fieldsFrom separator rest with
      | [] => []
      | (first, digits) :: more => (first, byte :: digits) :: more

def fields (bytes : List UInt8) : List (ParameterSeparator × List UInt8) :=
  if bytes.isEmpty then [] else fieldsFrom .start bytes

def decimal (digits : List UInt8) : Nat :=
  digits.foldl (fun value digit => value * 10 + (digit.toNat - 0x30)) 0

/-- The parameters as they are written, before any bound. -/
def written (bytes : List UInt8) : List (UInt16 × ParameterSeparator) :=
  (fields (parameterBytes bytes)).map fun field => (UInt16.ofNat (decimal field.2), field.1)

/-- The byte strings of the grammar, within the parser's bounds. -/
structure Accepts (bytes : List UInt8) : Prop where
  order : ∀ byte ∈ intermediateBytes bytes, isIntermediateByte byte = true
  parameters : (fields (parameterBytes bytes)).length ≤ maxCsiParameters
  digits : ∀ field ∈ fields (parameterBytes bytes), field.2.length ≤ 5
  values : ∀ field ∈ fields (parameterBytes bytes), decimal field.2 ≤ 65535
  intermediates : (intermediateBytes bytes).length ≤ maxCsiIntermediates

/-- The operation of an accepted string with its final byte. -/
def operation (bytes : List UInt8) (parameters : CsiParameters) (finalByte : UInt8) : TerminalOp :=
  match intermediateBytes bytes with
  | intermediate :: rest =>
    Parser.intermediateOperation (marker bytes == .private) (rest.length + 1) intermediate finalByte
      parameters
  | [] =>
    if parameters.hasColon ∧ finalByte ≠ 0x6d then .ignored
    else match marker bytes with
      | .private => Parser.privateOperation finalByte parameters
      | .secondary => if finalByte = 0x63 then .deviceAttributes true else .ignored
      | .none => Parser.csiOperation finalByte parameters

end Csi

/-- The parameters an operation carries. -/
def TerminalOp.parameters : TerminalOp → Option CsiParameters
  | .cursorForwardTab parameters | .cursorBackwardTab parameters | .setCursorStyle parameters
  | .cursorUp parameters | .cursorDown parameters | .cursorForward parameters
  | .cursorBack parameters | .cursorNextLine parameters | .cursorPreviousLine parameters
  | .cursorHorizontalAbsolute parameters | .horizontalPositionAbsolute parameters
  | .cursorPosition parameters | .verticalPositionAbsolute parameters | .eraseDisplay parameters
  | .eraseLine parameters | .eraseCharacters parameters | .insertCharacters parameters
  | .deleteCharacters parameters | .insertLines parameters | .deleteLines parameters
  | .scrollUp parameters | .scrollDown parameters | .setScrollRegion parameters
  | .saveAnsiOrSetHorizontalMargins parameters | .setGraphicsRendition parameters
  | .setModes _ _ parameters | .deviceStatus parameters | .decDeviceStatus parameters
  | .repeatPrecedingCharacter parameters | .clearTabStops parameters
  | .selectiveEraseDisplay parameters | .selectiveEraseLine parameters | .copyRectangle parameters
  | .fillRectangle parameters | .eraseRectangle parameters _ | .insertColumns parameters
  | .deleteColumns parameters | .requestMode _ parameters | .requestRectangleChecksum parameters
  | .windowOperation parameters => some parameters
  | .print _ | .carriageReturn | .lineFeed | .backspace | .tab | .index | .nextLine | .reverseIndex
  | .saveDec | .restoreDec | .setTabStop | .setApplicationKeypad _ | .restoreAnsi
  | .screenAlignmentPattern | .deviceAttributes _ | .setProtection _ _ | .backIndex
  | .forwardIndex | .softReset | .ignored => none

namespace Parser

variable [Platform]

/-- Bytes one after another, with the operation each of them gives. -/
def feed (parser : Parser) : List UInt8 → Option (Parser × List TerminalOp)
  | [] => some (parser, [])
  | byte :: rest => do
    let (parser, operation) ← parser.advance byte
    let (parser, operations) ← parser.feed rest
    some (parser, operation :: operations)

end Parser

end FesTerm
