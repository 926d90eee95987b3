import FesTerm.Sessiond.Bincode

/-!
# The session protocol

The frames between a client and the session daemon: a magic value, a kind, the length of the payload
in four bytes and the payload. The client writes commands (`lib.rs`), which the daemon's
`ClientFrameParser` reads (`main.rs`); the daemon writes events, which the `ServerFrameParser` reads.

A parser holds the bytes that it has not used. As everywhere the outer `Option` is a failing index or
slice; `Except` is the `io::Result`.
-/

namespace FesTerm

open Checked Framing

inductive IoErrorKind where
  | invalidData
  | unexpectedEof
  | timedOut
  | wouldBlock
  | interrupted
  | brokenPipe
  | connectionReset
  | connectionAborted
  | writeZero
  | invalidInput
  | other
  deriving DecidableEq

structure IoError where
  kind : IoErrorKind
  message : String
  deriving DecidableEq

/-- `is_retryable_client_write` and `is_retryable_write`; a failed read is repeated for the same kinds. -/
def IoError.isRetryable (error : IoError) : Bool :=
  error.kind = .interrupted ∨ error.kind = .wouldBlock ∨ error.kind = .timedOut

/-- The size of a pseudoterminal, as it is set. -/
structure PtySize where
  rows : UInt16
  cols : UInt16
  pixelWidth : UInt16
  pixelHeight : UInt16
  deriving DecidableEq

inductive TerminalSizeError where
  | tooFewColumns (columns : UInt16)
  | zeroRows
  deriving DecidableEq

def TerminalSizeError.text : TerminalSizeError → String
  | .tooFewColumns columns => s!"terminal requires at least 2 columns, received {columns}"
  | .zeroRows => "terminal requires at least 1 row, received 0"

/-- The size that an application asks for. -/
structure TerminalSize where
  columns : UInt16
  rows : UInt16
  pixelWidth : Option UInt16
  pixelHeight : Option UInt16
  two_le_columns : 2 ≤ columns
  one_le_rows : 1 ≤ rows
  deriving DecidableEq

namespace TerminalSize

def new (columns rows : UInt16) : Except TerminalSizeError TerminalSize :=
  if hcolumns : 2 ≤ columns then
    if hrows : 1 ≤ rows then .ok ⟨columns, rows, none, none, hcolumns, hrows⟩
    else .error .zeroRows
  else .error (.tooFewColumns columns)

def withPixels (columns rows pixelWidth pixelHeight : UInt16) : Except TerminalSizeError TerminalSize := do
  let size ← new columns rows
  return { size with pixelWidth := some pixelWidth, pixelHeight := some pixelHeight }

end TerminalSize

def maxFrameBytes : Nat := 64 * 1024

def frameHeaderBytes : Nat := 9

def readBufferBytes : Nat := 4096

def frameMagic : List UInt8 := ascii "FSD1"

def serverFrameMagic : List UInt8 := ascii "FSO1"

def frameInput : UInt8 := 1

def frameResize : UInt8 := 2

def frameRecoverySync : UInt8 := 3

def frameRecoveryAdopted : UInt8 := 4

def serverFrameOutput : UInt8 := 1

def serverFrameRecoverySync : UInt8 := 2

def serverFrameStolen : UInt8 := 3

def serverFrameExited : UInt8 := 4

def serverFrameResizeApplied : UInt8 := 5

/-- The common shape of `encode_frame` and `encode_server_frame`. -/
def encodeFrameWith (magic : List UInt8) (kind : UInt8) (payload : List UInt8) : List UInt8 :=
  magic ++ kind :: toBytes 4 payload.length ++ payload

def encodeFrame (kind : UInt8) (payload : List UInt8) : List UInt8 :=
  encodeFrameWith frameMagic kind payload

def encodeServerFrame (kind : UInt8) (payload : List UInt8) : List UInt8 :=
  encodeFrameWith serverFrameMagic kind payload

def encodeSizeFields (columns rows pixelWidth pixelHeight : UInt16) : List UInt8 :=
  [columns, rows, pixelWidth, pixelHeight].flatMap fun value => toBytes 2 value.toNat

def encodeResize (size : TerminalSize) : List UInt8 :=
  encodeSizeFields size.columns size.rows (size.pixelWidth.getD 0) (size.pixelHeight.getD 0)

/-- `ClientOutput`: what the daemon has for a client. -/
inductive ClientOutput where
  | data (bytes : List UInt8)
  | recoverySync (payload : List UInt8)
  | resizeApplied (size : PtySize)
  | exited
  deriving DecidableEq

/-- The frame that `client_io_loop` writes for it. -/
def ClientOutput.frame : ClientOutput → List UInt8
  | .data bytes => encodeServerFrame serverFrameOutput bytes
  | .recoverySync payload => encodeServerFrame serverFrameRecoverySync payload
  | .resizeApplied size => encodeServerFrame serverFrameResizeApplied
    (encodeSizeFields size.cols size.rows size.pixelWidth size.pixelHeight)
  | .exited => encodeServerFrame serverFrameExited []

def encodeServerStolenFrame : List UInt8 := encodeServerFrame serverFrameStolen []

section

variable [Bincode]

/-- The payload of a command, within the frame limit. -/
def encodeRecoverySyncCommand (command : RecoverySyncCommand) : Except String (List UInt8) :=
  match Bincode.serialize command with
  | .error error => .error s!"could not serialize terminal recovery sync command: {error}"
  | .ok payload =>
    if payload.length > maxFrameBytes then
      .error s!"terminal recovery sync command exceeds the {maxFrameBytes}-byte protocol limit"
    else .ok payload

def decodeRecoverySyncCommand (payload : List UInt8) : Except String RecoverySyncCommand :=
  match Bincode.deserialize payload with
  | .error error => .error s!"persistent-session recovery-sync payload is invalid: {error}"
  | .ok command => .ok command

end

/-- `ClientCommand`. -/
inductive ClientCommand where
  | input (data : List UInt8)
  | resize (size : PtySize)
  | recoverySync (command : RecoverySyncCommand)
  | recoveryAdopted
  deriving DecidableEq

/-- `ServerFrameEvent`. -/
inductive ServerFrameEvent where
  | output (payload : List UInt8)
  | recoverySync (payload : List UInt8)
  | resizeApplied (size : TerminalSize)
  | stolen
  | exited
  deriving DecidableEq

/-- The command that a frame of the client stands for. A size without pixels is written with zeros. -/
inductive ClientFrame [Bincode] : ClientCommand → List UInt8 → Prop
  | input (data : List UInt8) (h : data.length ≤ maxFrameBytes) :
    ClientFrame (.input data) (encodeFrame frameInput data)
  | resize (size : TerminalSize) :
    ClientFrame (.resize ⟨size.rows, size.columns, size.pixelWidth.getD 0, size.pixelHeight.getD 0⟩)
      (encodeFrame frameResize (encodeResize size))
  | recoverySync {command : RecoverySyncCommand} {payload : List UInt8}
    (h : encodeRecoverySyncCommand command = .ok payload) :
    ClientFrame (.recoverySync command) (encodeFrame frameRecoverySync payload)
  | recoveryAdopted : ClientFrame .recoveryAdopted (encodeFrame frameRecoveryAdopted [])

/-- The event that a frame of the daemon stands for. -/
inductive ServerFrame [Bincode] : ServerFrameEvent → List UInt8 → Prop
  | output (bytes : List UInt8) (h : bytes.length ≤ maxFrameBytes) :
    ServerFrame (.output bytes) (ClientOutput.data bytes).frame
  | recoverySync {command : RecoverySyncCommand} {payload : List UInt8}
    (h : encodeRecoverySyncCommand command = .ok payload) :
    ServerFrame (.recoverySync payload) (ClientOutput.recoverySync payload).frame
  | resizeApplied {size : PtySize} {applied : TerminalSize}
    (h : TerminalSize.withPixels size.cols size.rows size.pixelWidth size.pixelHeight = .ok applied) :
    ServerFrame (.resizeApplied applied) (ClientOutput.resizeApplied size).frame
  | stolen : ServerFrame .stolen encodeServerStolenFrame
  | exited : ServerFrame .exited ClientOutput.exited.frame

/-- What the two parsers expect in front of a payload, and how they refuse it. -/
structure FrameFormat where
  magic : List UInt8
  invalidMagic : String
  tooLarge : String

def invalidData (message : String) : IoError := ⟨.invalidData, message⟩

/-- The first part of `next_command` and `next_event`: the kind and the length of the first frame,
once the frame is complete. -/
def frameHeader (format : FrameFormat) (bytes : List UInt8) :
    Option (Except IoError (Option (UInt8 × Nat))) :=
  if bytes.length < frameHeaderBytes then some (.ok none)
  else do
    let magic ← slice bytes 0 format.magic.length
    if magic ≠ format.magic then
      return .error (invalidData format.invalidMagic)
    let kind ← bytes[4]?
    let payloadLen := ofBytes (← slice bytes 5 9)
    if payloadLen > maxFrameBytes then
      return .error (invalidData format.tooLarge)
    let frameLen := frameHeaderBytes + payloadLen
    if bytes.length < frameLen then
      return .ok none
    return .ok (some (kind, frameLen))

/-- `u16::from_be_bytes` of two bytes of the payload. -/
def readValue (payload : List UInt8) (offset : Nat) : Option UInt16 := do
  let bytes ← slice payload offset (offset + 2)
  some (UInt16.ofNat (ofBytes bytes))

/-- The loop on both sides after a read: items are taken until none is complete, or one is refused. -/
def takeAll {π β : Type} (next : π → Option (π × Except IoError (Option β))) :
    Nat → π → Option (List β × Except IoError π)
  | 0, parser => some ([], .ok parser)
  | fuel + 1, parser => do
    match ← next parser with
    | (_, .error error) => some ([], .error error)
    | (parser, .ok none) => some ([], .ok parser)
    | (parser, .ok (some item)) => do
      let (items, result) ← takeAll next fuel parser
      some (item :: items, result)

def parseResizeFrame (payload : List UInt8) : Option (Except IoError PtySize) :=
  if payload.length ≠ 8 then some (.error (invalidData "session resize frame has an invalid length"))
  else do
    let cols ← readValue payload 0
    let rows ← readValue payload 2
    let pixelWidth ← readValue payload 4
    let pixelHeight ← readValue payload 6
    if cols < 2 ∨ rows = 0 then
      return .error (invalidData "session resize frame has invalid terminal dimensions")
    return .ok ⟨rows, cols, pixelWidth, pixelHeight⟩

/-- The bytes that are not parsed yet. -/
structure ClientFrameParser where
  bytes : List UInt8
  deriving DecidableEq

namespace ClientFrameParser

def default : ClientFrameParser := ⟨[]⟩

def format : FrameFormat where
  magic := frameMagic
  invalidMagic := "session client frame has an invalid magic value"
  tooLarge := "session client frame payload exceeds the protocol limit"

def remainingCapacity (parser : ClientFrameParser) : Option Nat :=
  sub (maxFrameBytes + frameHeaderBytes) parser.bytes.length

/-- `read_limit`: as much as the buffer of `client_io_loop` holds and the parser has room for. -/
def readLimit (parser : ClientFrameParser) : Option Nat := do
  let capacity ← parser.remainingCapacity
  some (min readBufferBytes capacity)

def push (parser : ClientFrameParser) (bytes : List UInt8) : Except IoError ClientFrameParser :=
  if parser.bytes.length + bytes.length > maxFrameBytes + frameHeaderBytes then
    .error (invalidData "session client frame exceeds the protocol limit")
  else .ok ⟨parser.bytes ++ bytes⟩

variable [Bincode]

/-- The match of `next_command` on the kind. -/
def parseCommand (kind : UInt8) (payload : List UInt8) : Option (Except IoError ClientCommand) :=
  if kind = frameInput then some (.ok (.input payload))
  else if kind = frameResize then do
    let size ← parseResizeFrame payload
    return size.map .resize
  else if kind = frameRecoverySync then
    match Bincode.deserialize payload with
    | .error error =>
      some (.error (invalidData s!"session client recovery-sync payload is invalid: {error}"))
    | .ok command => some (.ok (.recoverySync command))
  else if kind = frameRecoveryAdopted ∧ payload.isEmpty then some (.ok .recoveryAdopted)
  else some (.error (invalidData "session client frame has an unknown command"))

def nextCommand (parser : ClientFrameParser) :
    Option (ClientFrameParser × Except IoError (Option ClientCommand)) := do
  match ← frameHeader format parser.bytes with
  | .error error => some (parser, .error error)
  | .ok none => some (parser, .ok none)
  | .ok (some (kind, frameLen)) =>
    let payload ← slice parser.bytes frameHeaderBytes frameLen
    match ← parseCommand kind payload with
    | .error error => some (parser, .error error)
    | .ok command => do
      let rest ← slice parser.bytes frameLen parser.bytes.length
      some (⟨rest⟩, .ok (some command))

/-- A read of `client_io_loop` and the commands that it completes. -/
def feed (parser : ClientFrameParser) (bytes : List UInt8) :
    Option (List ClientCommand × Except IoError ClientFrameParser) :=
  match parser.push bytes with
  | .error error => some ([], .error error)
  | .ok parser => takeAll nextCommand (parser.bytes.length + 1) parser

/-- What `client_io_loop` has read, the commands that this has completed, and its parser. A read may
return fewer bytes than it was offered room for. -/
inductive Reads : List UInt8 → List ClientCommand → ClientFrameParser → Prop
  | start : Reads [] [] default
  | read {bytes chunk : List UInt8} {commands more : List ClientCommand} {limit : Nat}
    {parser parser' : ClientFrameParser} (h : Reads bytes commands parser)
    (hlimit : parser.readLimit = some limit) (hchunk : chunk.length ≤ limit)
    (hfeed : parser.feed chunk = some (more, .ok parser')) :
    Reads (bytes ++ chunk) (commands ++ more) parser'

end ClientFrameParser

/-- The bytes that are not parsed yet. -/
structure ServerFrameParser where
  bytes : List UInt8
  deriving DecidableEq

namespace ServerFrameParser

def default : ServerFrameParser := ⟨[]⟩

def format : FrameFormat where
  magic := serverFrameMagic
  invalidMagic := "session daemon frame has an invalid magic value"
  tooLarge := "session daemon frame payload exceeds the protocol limit"

def push (parser : ServerFrameParser) (bytes : List UInt8) : Except IoError ServerFrameParser :=
  if parser.bytes.length + bytes.length > 2 * (maxFrameBytes + frameHeaderBytes) then
    .error (invalidData "session daemon frame exceeds the protocol limit")
  else .ok ⟨parser.bytes ++ bytes⟩

def parseResizePayload (payload : List UInt8) : Option (Except IoError TerminalSize) :=
  if payload.length ≠ 8 then
    some (.error (invalidData "session resize-applied frame has an invalid length"))
  else do
    let columns ← readValue payload 0
    let rows ← readValue payload 2
    let pixelWidth ← readValue payload 4
    let pixelHeight ← readValue payload 6
    match TerminalSize.withPixels columns rows pixelWidth pixelHeight with
    | .error error =>
      some (.error (invalidData s!"session resize-applied frame is invalid: {error.text}"))
    | .ok size => some (.ok size)

variable [Bincode]

/-- The match of `next_event` on the kind. -/
def parseEvent (kind : UInt8) (payload : List UInt8) : Option (Except IoError ServerFrameEvent) :=
  if kind = serverFrameOutput then some (.ok (.output payload))
  else if kind = serverFrameRecoverySync then
    match decodeRecoverySyncCommand payload with
    | .error error => some (.error ⟨.other, error⟩)
    | .ok _ => some (.ok (.recoverySync payload))
  else if kind = serverFrameStolen ∧ payload.isEmpty then some (.ok .stolen)
  else if kind = serverFrameExited ∧ payload.isEmpty then some (.ok .exited)
  else if kind = serverFrameResizeApplied then do
    let size ← parseResizePayload payload
    return size.map .resizeApplied
  else some (.error (invalidData "session daemon frame has an invalid kind or payload"))

/-- A complete frame is used up also when it is refused. -/
def nextEvent (parser : ServerFrameParser) :
    Option (ServerFrameParser × Except IoError (Option ServerFrameEvent)) := do
  match ← frameHeader format parser.bytes with
  | .error error => some (parser, .error error)
  | .ok none => some (parser, .ok none)
  | .ok (some (kind, frameLen)) =>
    let payload ← slice parser.bytes frameHeaderBytes frameLen
    let rest ← slice parser.bytes frameLen parser.bytes.length
    match ← parseEvent kind payload with
    | .error error => some (⟨rest⟩, .error error)
    | .ok event => some (⟨rest⟩, .ok (some event))

/-- A read of `client_worker` and the events that it completes. -/
def feed (parser : ServerFrameParser) (bytes : List UInt8) :
    Option (List ServerFrameEvent × Except IoError ServerFrameParser) :=
  match parser.push bytes with
  | .error error => some ([], .error error)
  | .ok parser => takeAll nextEvent (parser.bytes.length + 1) parser

/-- What `client_worker` has read, the events that this has completed, and its parser. -/
inductive Reads : List UInt8 → List ServerFrameEvent → ServerFrameParser → Prop
  | start : Reads [] [] default
  | read {bytes chunk : List UInt8} {events more : List ServerFrameEvent}
    {parser parser' : ServerFrameParser} (h : Reads bytes events parser)
    (hchunk : chunk.length ≤ readBufferBytes) (hfeed : parser.feed chunk = some (more, .ok parser')) :
    Reads (bytes ++ chunk) (events ++ more) parser'

omit [Bincode] in
/-- `close`: the daemon may only close between frames. -/
def close (parser : ServerFrameParser) : Except IoError Unit :=
  if parser.bytes.isEmpty then .ok ()
  else .error ⟨.unexpectedEof, "session daemon closed with a partial output frame"⟩

end ServerFrameParser

end FesTerm
