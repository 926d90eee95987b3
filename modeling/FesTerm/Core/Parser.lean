import FesTerm.Core.Unicode

/-!
# The escape-sequence parser

`parser.rs`: a bounded state machine from bytes to typed terminal operations. OSC and DCS strings are
buffered and turned into actions when their terminator arrives. `advance` returns `none` where the
source would stop on an index, a subtraction or an unreachable branch.

The parameters of a control sequence are two arrays of 32 with a length in the source; here they are
the list of the used entries, with the bound on its length.
-/

namespace FesTerm

open Checked

def maxCsiParameters : Nat := 32

def maxCsiIntermediates : Nat := 2

def maxStringBytes : Nat := 4096

def maxColorQueries : Nat := 64

/-- What a device control string asks for. -/
inductive DcsAction where
  | requestStatusString (selector : List UInt8)
  deriving DecidableEq

inductive ColorQuery where
  | palette (index : UInt8)
  | foreground
  | background
  | cursor
  deriving DecidableEq

/-- How a string was ended, and its reply will be. -/
inductive StringTerminator where
  | string
  | bell
  deriving DecidableEq

def StringTerminator.bytes : StringTerminator → List UInt8
  | string => [0x1b, 0x5c]
  | bell => [0x07]

/-- What an operating system command asks for. -/
inductive OscAction where
  | setTitle (title : List Char)
  | setHyperlink (target : Option (List Char))
  | reportColors (queries : List ColorQuery) (terminator : StringTerminator)
  deriving DecidableEq

def ascii (text : String) : List UInt8 := text.toList.map fun c => UInt8.ofNat c.toNat

/-- `parse_dcs`: only DECRQSS is understood. -/
def parseDcs (payload : List UInt8) : Option DcsAction :=
  match payload with
  | 0x24 :: 0x71 :: selector => some (.requestStatusString selector)
  | _ => none

/-- `slice::split` at semicolons. -/
def splitFields : List UInt8 → List (List UInt8)
  | [] => [[]]
  | byte :: rest =>
    if byte = 0x3b then [] :: splitFields rest
    else match splitFields rest with
      | [] => [[byte]]
      | field :: fields => (byte :: field) :: fields

/-- `splitn(2, ..)` at the first semicolon, when there is one. -/
def splitOnce (bytes : List UInt8) : Option (List UInt8 × List UInt8) :=
  match bytes.dropWhile (· ≠ 0x3b) with
  | [] => none
  | _ :: data => some (bytes.takeWhile (· ≠ 0x3b), data)

def isDigit (byte : UInt8) : Bool := inRange 0x30 0x39 byte

def parsePaletteIndex (field : List UInt8) : Option UInt8 :=
  if field.isEmpty ∨ field.length > 3 ∨ !field.all isDigit then none
  else
    let value := field.foldl (fun value byte => value * 10 + (byte.toNat - 0x30)) 0
    if value ≤ 255 then some (UInt8.ofNat value) else none

/-- `parse_palette_queries`, over the fields of the request. -/
def parsePaletteQueries (queries : List ColorQuery) : List (List UInt8) → List ColorQuery
  | index :: specification :: rest =>
    if queries.length = maxColorQueries then queries
    else if specification ≠ [0x3f] then parsePaletteQueries queries rest
    else match parsePaletteIndex index with
      | some index => parsePaletteQueries (queries ++ [.palette index]) rest
      | none => parsePaletteQueries queries rest
  | _ => queries

/-- `parse_dynamic_queries`: each successive field names the next dynamic colour. -/
def parseDynamicQueries (first : Nat) (data : List UInt8) : List ColorQuery :=
  ((splitFields data).zipIdx.take maxColorQueries).filterMap fun (field, offset) =>
    if field ≠ [0x3f] then none
    else match first + offset with
      | 10 => some .foreground
      | 11 => some .background
      | 12 => some .cursor
      | _ => none

def colorAction (queries : List ColorQuery) (terminator : StringTerminator) : Option OscAction :=
  if queries.isEmpty then none else some (.reportColors queries terminator)

def isControl (character : Char) : Bool :=
  character.toNat < 0x20 || (0x7f ≤ character.toNat && character.toNat < 0xa0)

def sanitizeTitle (value : List Char) : List Char := (value.filter (!isControl ·)).take 256

section

variable [Platform]

/-- `parse_osc8`. -/
def parseOsc8 (data : List UInt8) : Option (Option (List Char)) := do
  let (_, uri) ← splitOnce data
  if uri.isEmpty then
    return none
  match fromUtf8 uri with
  | none => return none
  | some uri => return Platform.normalizeTerminalHyperlink uri

/-- The action of a command; none where it is not known. -/
def parseOsc (payload : List UInt8) (terminator : StringTerminator) : Option OscAction := do
  let (command, data) ← splitOnce payload
  if command = ascii "0" ∨ command = ascii "2" then
    (fromUtf8 data).map fun title => .setTitle (sanitizeTitle title)
  else if command = ascii "4" then
    colorAction (parsePaletteQueries [] (splitFields data)) terminator
  else if command = ascii "10" then colorAction (parseDynamicQueries 10 data) terminator
  else if command = ascii "11" then colorAction (parseDynamicQueries 11 data) terminator
  else if command = ascii "12" then colorAction (parseDynamicQueries 12 data) terminator
  else if command = ascii "8" then (parseOsc8 data).map .setHyperlink
  else none

end

/-- What stands before a parameter. -/
inductive ParameterSeparator where
  | start
  | semicolon
  | colon
  deriving DecidableEq

/-- Bounded CSI parameters: the used entries, each with the separator before it. -/
structure CsiParameters where
  entries : List (UInt16 × ParameterSeparator)
  length_le : entries.length ≤ maxCsiParameters
  deriving DecidableEq

namespace CsiParameters

/-- `CsiParameters::default`. -/
def empty : CsiParameters := ⟨[], Nat.zero_le _⟩

def length (parameters : CsiParameters) : Nat := parameters.entries.length

def isEmpty (parameters : CsiParameters) : Bool := parameters.entries.isEmpty

def value (parameters : CsiParameters) (index : Nat) : Option Nat :=
  (parameters.entries[index]?).map fun entry => entry.1.toNat

def separator (parameters : CsiParameters) (index : Nat) : Option ParameterSeparator :=
  (parameters.entries[index]?).map Prod.snd

def hasColon (parameters : CsiParameters) : Bool := parameters.entries.any (·.2 == .colon)

def begin (parameters : CsiParameters) (separator : ParameterSeparator) : Option CsiParameters :=
  if h : parameters.entries.length = maxCsiParameters then none
  else some ⟨parameters.entries ++ [(0, separator)], by
    have := parameters.length_le
    simp only [List.length_append, List.length_singleton]
    omega⟩

/-- `append_separator`; `none` is the result `false`. -/
def appendSeparator (parameters : CsiParameters) (separator : ParameterSeparator) : Option CsiParameters := do
  let parameters ← if parameters.isEmpty then parameters.begin .start else some parameters
  parameters.begin separator

def pushDigit (value : UInt16) (digit : Nat) : Option UInt16 :=
  if value.toNat * 10 + digit ≤ 65535 then some (UInt16.ofNat (value.toNat * 10 + digit)) else none

def appendDigit (parameters : CsiParameters) (digit : Nat) : Option CsiParameters := do
  let parameters ← if parameters.isEmpty then parameters.begin .start else some parameters
  let (last, separator) ← parameters.entries.getLast?
  let last ← pushDigit last digit
  some ⟨parameters.entries.set (parameters.entries.length - 1) (last, separator), by
    rw [List.length_set]
    exact parameters.length_le⟩

def validateRecoveryState (parameters : CsiParameters) : Except String Unit :=
  if parameters.length > maxCsiParameters then
    .error s!"parser stores {parameters.length} CSI parameters, exceeding the {maxCsiParameters}-parameter maximum"
  else .ok ()

end CsiParameters

/-- A typed operation emitted by the parser and applied by the terminal. -/
inductive TerminalOp where
  | print (character : Char)
  | carriageReturn
  | lineFeed
  | backspace
  | tab
  | cursorForwardTab (parameters : CsiParameters)
  | cursorBackwardTab (parameters : CsiParameters)
  | index
  | nextLine
  | reverseIndex
  | saveDec
  | restoreDec
  | setTabStop
  | setApplicationKeypad (enabled : Bool)
  | setCursorStyle (parameters : CsiParameters)
  | cursorUp (parameters : CsiParameters)
  | cursorDown (parameters : CsiParameters)
  | cursorForward (parameters : CsiParameters)
  | cursorBack (parameters : CsiParameters)
  | cursorNextLine (parameters : CsiParameters)
  | cursorPreviousLine (parameters : CsiParameters)
  | cursorHorizontalAbsolute (parameters : CsiParameters)
  | horizontalPositionAbsolute (parameters : CsiParameters)
  | cursorPosition (parameters : CsiParameters)
  | verticalPositionAbsolute (parameters : CsiParameters)
  | eraseDisplay (parameters : CsiParameters)
  | eraseLine (parameters : CsiParameters)
  | eraseCharacters (parameters : CsiParameters)
  | insertCharacters (parameters : CsiParameters)
  | deleteCharacters (parameters : CsiParameters)
  | insertLines (parameters : CsiParameters)
  | deleteLines (parameters : CsiParameters)
  | scrollUp (parameters : CsiParameters)
  | scrollDown (parameters : CsiParameters)
  | setScrollRegion (parameters : CsiParameters)
  | saveAnsiOrSetHorizontalMargins (parameters : CsiParameters)
  | restoreAnsi
  | setGraphicsRendition (parameters : CsiParameters)
  | setModes («private» enabled : Bool) (parameters : CsiParameters)
  | deviceStatus (parameters : CsiParameters)
  | decDeviceStatus (parameters : CsiParameters)
  | repeatPrecedingCharacter (parameters : CsiParameters)
  | screenAlignmentPattern
  | deviceAttributes (secondary : Bool)
  | clearTabStops (parameters : CsiParameters)
  | setProtection (iso «protected» : Bool)
  | selectiveEraseDisplay (parameters : CsiParameters)
  | selectiveEraseLine (parameters : CsiParameters)
  | copyRectangle (parameters : CsiParameters)
  | fillRectangle (parameters : CsiParameters)
  | eraseRectangle (parameters : CsiParameters) (selective : Bool)
  | insertColumns (parameters : CsiParameters)
  | deleteColumns (parameters : CsiParameters)
  | backIndex
  | forwardIndex
  | requestMode («private» : Bool) (parameters : CsiParameters)
  | softReset
  | requestRectangleChecksum (parameters : CsiParameters)
  | windowOperation (parameters : CsiParameters)
  | ignored

/-- `c0_operation`. -/
def c0Operation (byte : UInt8) : Option TerminalOp :=
  if byte = 0x0d then some .carriageReturn
  else if byte = 0x0a then some .lineFeed
  else if byte = 0x08 then some .backspace
  else if byte = 0x09 then some .tab
  else if byte = 0x0b ∨ byte = 0x0c then some .lineFeed
  else none

inductive StringKind where
  | osc
  | dcs
  | other
  deriving DecidableEq

inductive CharsetSlot where
  | g0
  | g1
  deriving DecidableEq

inductive Charset where
  | ascii
  | decSpecialGraphics
  deriving DecidableEq

/-- Where the parser is inside a sequence. -/
inductive ParserState where
  | ground
  | escape
  | escapeIntermediate (intermediate : UInt8)
  | charsetDesignate (slot : CharsetSlot)
  | csiEntry
  | csiParam
  | csiIntermediate
  | csiIgnore
  | string (kind : StringKind) (bytes : Nat)
  | stringEscape (kind : StringKind) (bytes : Nat)
  deriving DecidableEq

/-- The state, and what the sequence collected so far. -/
structure Parser where
  state : ParserState
  parameters : CsiParameters
  parameterDigits : Nat
  «private» : Bool
  secondary : Bool
  intermediates : List UInt8
  intermediateLength : Nat
  stringPayload : List UInt8
  oscAction : Option OscAction
  dcsAction : Option DcsAction
  g0Charset : Charset
  g1Charset : Charset
  shiftedToG1 : Bool
  deriving DecidableEq

/-- The code points of `dec_special_graphics` for the bytes from `0x60` to `0x7e`. -/
def decSpecialGraphicsTable : List Nat :=
  [0x25c6, 0x2592, 0x2409, 0x240c, 0x240d, 0x240a, 0x00b0, 0x00b1, 0x2424, 0x240b, 0x2518, 0x2510,
    0x250c, 0x2514, 0x253c, 0x23ba, 0x23bb, 0x2500, 0x23bc, 0x23bd, 0x251c, 0x2524, 0x2534, 0x252c,
    0x2502, 0x2264, 0x2265, 0x03c0, 0x2260, 0x00a3, 0x00b7]

def decSpecialGraphics (byte : UInt8) : Char :=
  if byte < 0x60 then Char.ofNat byte.toNat
  else match decSpecialGraphicsTable[byte.toNat - 0x60]? with
    | some code => Char.ofNat code
    | none => Char.ofNat byte.toNat

namespace Parser

def new : Parser where
  state := .ground
  parameters := .empty
  parameterDigits := 0
  «private» := false
  secondary := false
  intermediates := [0, 0]
  intermediateLength := 0
  stringPayload := []
  oscAction := none
  dcsAction := none
  g0Charset := .ascii
  g1Charset := .ascii
  shiftedToG1 := false

/-- Outside of every sequence. -/
def isGround (parser : Parser) : Bool := parser.state == .ground

/-- Nothing is collected; the string payload stays. -/
def clearCsi (parser : Parser) : Parser :=
  { parser with
    parameters := .empty
    parameterDigits := 0
    «private» := false
    secondary := false
    intermediateLength := 0 }

def ignoreCsi (parser : Parser) : Parser × TerminalOp :=
  ({ parser with state := .csiIgnore }.clearCsi, .ignored)

def translatePrintable (parser : Parser) (byte : UInt8) : Char :=
  match if parser.shiftedToG1 then parser.g1Charset else parser.g0Charset with
  | .ascii => Char.ofNat byte.toNat
  | .decSpecialGraphics => decSpecialGraphics byte

def designateCharset (parser : Parser) (slot : CharsetSlot) (byte : UInt8) : Parser :=
  let charset : Charset := if byte = 0x30 then .decSpecialGraphics else .ascii
  match slot with
  | .g0 => { parser with g0Charset := charset }
  | .g1 => { parser with g1Charset := charset }

def startString (parser : Parser) (kind : StringKind) : Parser :=
  { parser with stringPayload := [], state := .string kind 0 }

/-- The operation of a two-byte escape sequence. -/
def escapeOperation (byte : UInt8) : TerminalOp :=
  if byte = 0x44 then .index
  else if byte = 0x45 then .nextLine
  else if byte = 0x4d then .reverseIndex
  else if byte = 0x37 then .saveDec
  else if byte = 0x38 then .restoreDec
  else if byte = 0x48 then .setTabStop
  else if byte = 0x36 then .backIndex
  else if byte = 0x39 then .forwardIndex
  else if byte = 0x56 then .setProtection true true
  else if byte = 0x57 then .setProtection true false
  else if byte = 0x3d then .setApplicationKeypad true
  else if byte = 0x3e then .setApplicationKeypad false
  else .ignored

def advanceEscape (parser : Parser) (byte : UInt8) : Parser × TerminalOp :=
  let parser :=
    if byte = 0x5b then { parser.clearCsi with state := .csiEntry }
    else if byte = 0x5d then parser.startString .osc
    else if byte = 0x50 then parser.startString .dcs
    else if byte = 0x58 ∨ byte = 0x5e ∨ byte = 0x5f then parser.startString .other
    else if byte = 0x28 then { parser with state := .charsetDesignate .g0 }
    else if byte = 0x29 then { parser with state := .charsetDesignate .g1 }
    else if inRange 0x20 0x2f byte then { parser with state := .escapeIntermediate byte }
    else { parser with state := .ground }
  (parser, escapeOperation byte)

def appendCsiDigit (parser : Parser) (byte : UInt8) : Option (Parser × TerminalOp) := do
  let parser := { parser with parameterDigits := min 255 (parser.parameterDigits + 1) }
  if parser.parameterDigits > 5 then
    return parser.ignoreCsi
  let digit ← sub byte.toNat 0x30
  match parser.parameters.appendDigit digit with
  | none => return parser.ignoreCsi
  | some parameters => return ({ parser with parameters := parameters, state := .csiParam }, .ignored)

def appendCsiSeparator (parser : Parser) (separator : ParameterSeparator) : Parser × TerminalOp :=
  match parser.parameters.appendSeparator separator with
  | none => parser.ignoreCsi
  | some parameters =>
    ({ parser with parameters := parameters, parameterDigits := 0, state := .csiParam }, .ignored)

def appendCsiIntermediate (parser : Parser) (byte : UInt8) : Option (Parser × TerminalOp) := do
  if parser.intermediateLength = maxCsiIntermediates then
    return parser.ignoreCsi
  let intermediates ← setAt parser.intermediates parser.intermediateLength byte
  return ({ parser with
    intermediates := intermediates
    intermediateLength := parser.intermediateLength + 1
    state := .csiIntermediate }, .ignored)

/-- The operation of a control sequence with intermediates, of which only the first is looked at. -/
def intermediateOperation («private» : Bool) (count : Nat) (intermediate finalByte : UInt8)
    (parameters : CsiParameters) : TerminalOp :=
  if count ≠ 1 then .ignored
  else if intermediate = 0x24 ∧ finalByte = 0x70 then .requestMode «private» parameters
  else if «private» then .ignored
  else if intermediate = 0x20 ∧ finalByte = 0x71 ∧ !parameters.hasColon then .setCursorStyle parameters
  else if intermediate = 0x21 ∧ finalByte = 0x70 then .softReset
  else if intermediate = 0x2a ∧ finalByte = 0x79 then .requestRectangleChecksum parameters
  else if intermediate = 0x22 ∧ finalByte = 0x71 then
    .setProtection false (parameters.value 0 == some 1)
  else if intermediate = 0x24 ∧ finalByte = 0x76 then .copyRectangle parameters
  else if intermediate = 0x24 ∧ finalByte = 0x78 then .fillRectangle parameters
  else if intermediate = 0x24 ∧ finalByte = 0x7a then .eraseRectangle parameters false
  else if intermediate = 0x24 ∧ finalByte = 0x7b then .eraseRectangle parameters true
  else if intermediate = 0x27 ∧ finalByte = 0x7d then .insertColumns parameters
  else if intermediate = 0x27 ∧ finalByte = 0x7e then .deleteColumns parameters
  else .ignored

/-- The operation of a control sequence with the private marker. -/
def privateOperation (finalByte : UInt8) (parameters : CsiParameters) : TerminalOp :=
  if finalByte = 0x68 then .setModes true true parameters
  else if finalByte = 0x6c then .setModes true false parameters
  else if finalByte = 0x4a then .selectiveEraseDisplay parameters
  else if finalByte = 0x4b then .selectiveEraseLine parameters
  else if finalByte = 0x6e then .decDeviceStatus parameters
  else .ignored

/-- The operation of a plain control sequence. -/
def csiOperation (finalByte : UInt8) (parameters : CsiParameters) : TerminalOp :=
  if finalByte = 0x41 then .cursorUp parameters
  else if finalByte = 0x42 then .cursorDown parameters
  else if finalByte = 0x43 then .cursorForward parameters
  else if finalByte = 0x44 then .cursorBack parameters
  else if finalByte = 0x45 then .cursorNextLine parameters
  else if finalByte = 0x46 then .cursorPreviousLine parameters
  else if finalByte = 0x47 then .cursorHorizontalAbsolute parameters
  else if finalByte = 0x60 then .horizontalPositionAbsolute parameters
  else if finalByte = 0x61 then .cursorForward parameters
  else if finalByte = 0x65 then .cursorDown parameters
  else if finalByte = 0x49 then .cursorForwardTab parameters
  else if finalByte = 0x5a then .cursorBackwardTab parameters
  else if finalByte = 0x48 ∨ finalByte = 0x66 then .cursorPosition parameters
  else if finalByte = 0x4a then .eraseDisplay parameters
  else if finalByte = 0x4b then .eraseLine parameters
  else if finalByte = 0x4c then .insertLines parameters
  else if finalByte = 0x4d then .deleteLines parameters
  else if finalByte = 0x50 then .deleteCharacters parameters
  else if finalByte = 0x53 then .scrollUp parameters
  else if finalByte = 0x54 then .scrollDown parameters
  else if finalByte = 0x58 then .eraseCharacters parameters
  else if finalByte = 0x40 then .insertCharacters parameters
  else if finalByte = 0x64 then .verticalPositionAbsolute parameters
  else if finalByte = 0x6d then .setGraphicsRendition parameters
  else if finalByte = 0x6e then .deviceStatus parameters
  else if finalByte = 0x62 then .repeatPrecedingCharacter parameters
  else if finalByte = 0x63 then .deviceAttributes false
  else if finalByte = 0x67 then .clearTabStops parameters
  else if finalByte = 0x74 then .windowOperation parameters
  else if finalByte = 0x72 then .setScrollRegion parameters
  else if finalByte = 0x73 then .saveAnsiOrSetHorizontalMargins parameters
  else if finalByte = 0x75 ∧ parameters.isEmpty then .restoreAnsi
  else if finalByte = 0x68 then .setModes false true parameters
  else if finalByte = 0x6c then .setModes false false parameters
  else .ignored

/-- The dispatch of `complete_csi`. -/
def completedOperation (parser : Parser) (finalByte : UInt8) : Option TerminalOp :=
  if parser.intermediateLength ≠ 0 then do
    let intermediate ← parser.intermediates[0]?
    return intermediateOperation parser.private parser.intermediateLength intermediate finalByte
      parser.parameters
  else if parser.parameters.hasColon ∧ finalByte ≠ 0x6d then some .ignored
  else if parser.private then some (privateOperation finalByte parser.parameters)
  else if parser.secondary then
    some (if finalByte = 0x63 then .deviceAttributes true else .ignored)
  else some (csiOperation finalByte parser.parameters)

def completeCsi (parser : Parser) (finalByte : UInt8) : Option (Parser × TerminalOp) := do
  let operation ← parser.completedOperation finalByte
  return ({ parser with state := .ground }.clearCsi, operation)

def advanceCsiIntermediate (parser : Parser) (byte : UInt8) : Option (Parser × TerminalOp) :=
  if inRange 0x20 0x2f byte then parser.appendCsiIntermediate byte
  else if inRange 0x40 0x7e byte then parser.completeCsi byte
  else some parser.ignoreCsi

def advanceCsiParam (parser : Parser) (byte : UInt8) : Option (Parser × TerminalOp) :=
  if isDigit byte then parser.appendCsiDigit byte
  else if byte = 0x3b then some (parser.appendCsiSeparator .semicolon)
  else if byte = 0x3a then some (parser.appendCsiSeparator .colon)
  else parser.advanceCsiIntermediate byte

def advanceCsiEntry (parser : Parser) (byte : UInt8) : Option (Parser × TerminalOp) :=
  if byte = 0x3f ∧ !parser.private ∧ !parser.secondary ∧ parser.parameters.isEmpty then
    some ({ parser with «private» := true }, .ignored)
  else if byte = 0x3e ∧ !parser.private ∧ !parser.secondary ∧ parser.parameters.isEmpty then
    some ({ parser with secondary := true }, .ignored)
  else parser.advanceCsiParam byte

def abandonString (parser : Parser) : Parser :=
  { parser with stringPayload := [], state := .escape }.clearCsi

def advanceStringPayload (parser : Parser) (kind : StringKind) (bytes : Nat)
    (payload : List UInt8) : Parser :=
  if bytes + payload.length > usizeMax then { parser with state := .ground }
  else
    let bytes := bytes + payload.length
    let parser := if kind = .osc ∨ kind = .dcs then
        { parser with stringPayload := parser.stringPayload ++ payload }
      else parser
    { parser with state := if bytes ≥ maxStringBytes then .ground else .string kind bytes }

section

variable [Platform]

def finishString (parser : Parser) (kind : StringKind) (terminator : StringTerminator) :
    Parser × TerminalOp :=
  let parser := match kind with
    | .osc =>
      { parser with stringPayload := [], oscAction := parseOsc parser.stringPayload terminator }
    | .dcs => { parser with stringPayload := [], dcsAction := parseDcs parser.stringPayload }
    | .other => { parser with stringPayload := [] }
  (parser, .ignored)

/-- `advance_string`. A byte after ESC that does not complete the terminator abandons the string and
starts a fresh escape sequence. -/
def advanceString (parser : Parser) (byte : UInt8) : Option (Parser × TerminalOp) :=
  match parser.state with
  | .string kind bytes =>
    if kind = .osc ∧ byte = 0x07 then
      some ({ parser with state := .ground }.finishString kind .bell)
    else if byte = 0x1b then some ({ parser with state := .stringEscape kind bytes }, .ignored)
    else some (parser.advanceStringPayload kind bytes [byte], .ignored)
  | .stringEscape kind _ =>
    if byte = 0x5c then some ({ parser with state := .ground }.finishString kind .string)
    else if byte = 0x1b then some (parser.abandonString, .ignored)
    else some (parser.abandonString.advanceEscape byte)
  | _ => none

/-- `Parser::advance`: one byte, and at most one operation. -/
def advance (parser : Parser) (byte : UInt8) : Option (Parser × TerminalOp) :=
  if byte = 0x18 ∨ byte = 0x1a then some ({ parser with state := .ground }.clearCsi, .ignored)
  else
    match parser.state with
    | .string _ _ | .stringEscape _ _ =>
      match c0Operation byte with
      | some operation => some (parser, operation)
      | none => parser.advanceString byte
    | state =>
      if byte = 0x1b then some ({ parser with state := .escape }.clearCsi, .ignored)
      else if byte = 0x0e then some ({ parser with shiftedToG1 := true }, .ignored)
      else if byte = 0x0f then some ({ parser with shiftedToG1 := false }, .ignored)
      else
        match c0Operation byte with
        | some operation => some (parser, operation)
        | none =>
          match state with
          | .ground =>
            some (parser, if inRange 0x20 0x7e byte then .print (parser.translatePrintable byte)
              else .ignored)
          | .escape => some (parser.advanceEscape byte)
          | .escapeIntermediate intermediate =>
            some ({ parser with state := .ground },
              if intermediate = 0x23 ∧ byte = 0x38 then .screenAlignmentPattern else .ignored)
          | .charsetDesignate slot =>
            some ({ parser with state := .ground }.designateCharset slot byte, .ignored)
          | .csiEntry => parser.advanceCsiEntry byte
          | .csiParam => parser.advanceCsiParam byte
          | .csiIntermediate => parser.advanceCsiIntermediate byte
          | .csiIgnore =>
            if inRange 0x40 0x7e byte then some ({ parser with state := .ground }.clearCsi, .ignored)
            else some (parser, .ignored)
          | .string _ _ | .stringEscape _ _ => none

end

def takeOscAction (parser : Parser) : Option OscAction × Parser :=
  (parser.oscAction, { parser with oscAction := none })

def takeDcsAction (parser : Parser) : Option DcsAction × Parser :=
  (parser.dcsAction, { parser with dcsAction := none })

/-- The check of `Parser::validate_recovery_state` on the string states. -/
def validateString (parser : Parser) (bytes : Nat) : Except String Unit :=
  if bytes > maxStringBytes then
    .error s!"parser expects a {bytes}-byte string payload, exceeding the {maxStringBytes}-byte maximum"
  else if parser.stringPayload.length > bytes then
    .error s!"parser buffered {parser.stringPayload.length} string bytes for a {bytes}-byte string"
  else .ok ()

def validateRecoveryState (parser : Parser) : Except String Unit := do
  parser.parameters.validateRecoveryState
  if parser.parameterDigits > 5 then
    throw s!"parser stores {parser.parameterDigits} pending CSI digits, exceeding the 5-digit maximum"
  if parser.intermediateLength > maxCsiIntermediates then
    throw s!"parser stores {parser.intermediateLength} CSI intermediates, exceeding the {maxCsiIntermediates}-byte maximum"
  if parser.stringPayload.length > maxStringBytes then
    throw s!"parser stores a {parser.stringPayload.length}-byte string payload, exceeding the {maxStringBytes}-byte maximum"
  match parser.state with
  | .string _ bytes | .stringEscape _ bytes => parser.validateString bytes
  | _ => .ok ()

end Parser

end FesTerm
