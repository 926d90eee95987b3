import FesTerm.Core.Parser

/-!
# String sequences in a byte stream

Which strings a stream of bytes opens, told from the bytes alone. A string is opened by ESC and its
introducer and goes on until ESC, CAN or SUB, or BEL for an operating system command; the controls that
are executed in between are not part of it. ESC and `\` complete it. `SO` and `SI` may stand between
ESC and an introducer, but not when that ESC interrupts a string.
-/

namespace FesTerm

/-- The C0 controls that act. -/
def isExecuted (byte : UInt8) : Bool := (c0Operation byte).isSome

/-- `SO` and `SI`. -/
def isShift (byte : UInt8) : Bool := byte == 0x0e || byte == 0x0f

/-- The string that a byte behind ESC opens. -/
def introduces (byte : UInt8) : Option StringKind :=
  if byte = 0x5d then some .osc
  else if byte = 0x50 then some .dcs
  else if byte = 0x58 ∨ byte = 0x5e ∨ byte = 0x5f then some .other
  else none

def continues (kind : StringKind) (byte : UInt8) : Bool :=
  byte != 0x1b && byte != 0x18 && byte != 0x1a && !(kind == .osc && byte == 0x07)

/-- At the end of the stream a string is open, and these are the bytes it has collected. -/
def OpenString (stream : List UInt8) (kind : StringKind) (payload : List UInt8) : Prop :=
  ∃ before gap introducer body, ∃ _ : before.length < stream.length,
    stream = before ++ 0x1b :: (gap ++ introducer :: body) ∧
    introduces introducer = some kind ∧
    (∀ byte ∈ gap, isExecuted byte = true ∨
      isShift byte = true ∧ ∀ kind payload, ¬ OpenString before kind payload) ∧
    (∀ byte ∈ body, continues kind byte = true) ∧
    payload = body.filter (fun byte => !isExecuted byte) ∧
    payload.length < maxStringBytes
termination_by stream.length

/-- At the end of the stream an ESC has interrupted an open string. -/
def InterruptedString (stream : List UInt8) (kind : StringKind) (payload : List UInt8) : Prop :=
  ∃ before gap, stream = before ++ 0x1b :: gap ∧ (∀ byte ∈ gap, isExecuted byte = true) ∧
    OpenString before kind payload

/-- The next byte completes a string: BEL an operating system command, and `\` behind ESC any string. -/
def CompletesString (stream : List UInt8) (byte : UInt8) (kind : StringKind)
    (terminator : StringTerminator) (payload : List UInt8) : Prop :=
  match terminator with
  | .bell => kind = .osc ∧ byte = 0x07 ∧ OpenString stream kind payload
  | .string => byte = 0x5c ∧ InterruptedString stream kind payload

namespace Parser

variable [Platform]

/-- `advance`, and what `take_osc_action` and `take_dcs_action` give after it. -/
def advanceTaking (parser : Parser) (byte : UInt8) :
    Option (Parser × TerminalOp × Option OscAction × Option DcsAction) := do
  let (parser, operation) ← parser.advance byte
  let (action, parser) := parser.takeOscAction
  let (request, parser) := parser.takeDcsAction
  some (parser, operation, action, request)

/-- The parser after the stream; a new one takes the first byte. -/
def after (stream : List UInt8) : Option Parser :=
  stream.foldlM (fun parser byte => (parser.advanceTaking byte).map Prod.fst) new

end Parser

end FesTerm
