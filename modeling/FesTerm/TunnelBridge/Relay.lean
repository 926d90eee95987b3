import FesTerm.TunnelBridge.SyncJson

/-!
# Relaying between a client and a daemon session

What `transport.rs` does once the client has its snapshot. `client_send` cuts the stream that the client writes into
its frames, and writes each as a frame of the bridge; `serve_with_reclaim` hands them to the session of the daemon.
In the other direction it writes the events of the session, and `client_receive` makes the frames of a daemon out of
them. File reads, which do not touch the session, are left out.
-/

namespace FesTerm.TunnelBridge

open Framing

structure BridgeFrame where
  kind : UInt8
  payload : List UInt8
  deriving DecidableEq

def BridgeFrame.bytes (frame : BridgeFrame) : List UInt8 :=
  frame.kind :: toBytes 4 frame.payload.length ++ frame.payload

def writeFrame (kind : UInt8) (payload : List UInt8) : Except IoError BridgeFrame :=
  if validateLength kind payload.length then .ok ⟨kind, payload⟩ else .error protocolRefused

/-- `read_frame_inner`: the header is checked before the payload is there. -/
def readFrame (clientOnly : Bool) : Take UInt8 BridgeFrame IoError
  | kind :: a :: b :: c :: d :: rest =>
    let length := ofBytes [a, b, c, d]
    if !validateLength kind length then .error protocolRefused
    else if clientOnly && !fromClient kind then .error protocolRefused
    else if rest.length < length then .ok none
    else .ok (some (⟨kind, rest.take length⟩, rest.drop length))
  | _ => .ok none

def maximumColumns : UInt16 := 256
def maximumRows : UInt16 := 128

/-- `decode_size`; `encode_size` writes what `encode_resize` does. -/
def decodeSize : List UInt8 → Except IoError TerminalSize
  | [a, b, c, d, e, f, g, h] =>
    let value (high low : UInt8) : UInt16 := UInt16.ofNat (ofBytes [high, low])
    if value a b > maximumColumns ∨ value c d > maximumRows then .error protocolRefused
    else (TerminalSize.withPixels (value a b) (value c d) (value e f) (value g h)).mapError fun _ => protocolRefused
  | _ => .error protocolRefused

section

variable [Bincode] [SyncJson]

/-- A binary recovery command, as JSON. -/
def syncToJson (payload : List UInt8) : Except IoError (List UInt8) :=
  match decodeRecoverySyncCommand payload with
  | .error _ => .error protocolRefused
  | .ok command => (SyncJson.write (Sync.ofCommand command)).mapError fun _ => protocolRefused

omit [Bincode] in
/-- A recovery command that is read is checked. -/
def syncFromJson (payload : List UInt8) : Except IoError RecoverySyncCommand :=
  match SyncJson.read payload with
  | .error _ => .error protocolRefused
  | .ok sync => sync.toCommand

/-- What `ValidatedStream::write` sends at once. -/
structure Chunk where
  bytes : List UInt8
  length_le : bytes.length ≤ chunkLimit

omit [Bincode] [SyncJson] in
/-- `ValidatedStream::write`; it returns the length of the chunk. -/
def Chunk.ofWrite (bytes : List UInt8) : Chunk := ⟨bytes.take chunkLimit, List.length_take_le chunkLimit bytes⟩

omit [Bincode] [SyncJson] in
def clientKind (kind : UInt8) : Except IoError UInt8 :=
  if kind = frameInput then .ok Kind.input
  else if kind = frameResize then .ok Kind.resize
  else if kind = frameRecoverySync then .ok Kind.sync
  else if kind = frameRecoveryAdopted then .ok Kind.adopted
  else .error protocolRefused

/-- The frame that is written for a frame of the client. -/
def sendFrame (kind : UInt8) (payload : List UInt8) : Except IoError BridgeFrame := do
  let kind ← clientKind kind
  let bytes ← if kind = Kind.sync then syncToJson payload else .ok payload
  writeFrame kind bytes

/-- The loop of `client_send` over what it holds. -/
def sendNext : Take UInt8 BridgeFrame IoError
  | m₁ :: m₂ :: m₃ :: m₄ :: kind :: a :: b :: c :: d :: rest =>
    let length := ofBytes [a, b, c, d]
    if [m₁, m₂, m₃, m₄] ≠ frameMagic then .error protocolRefused
    else if length > chunkLimit then .error protocolRefused
    else if rest.length < length then .ok none
    else do
      let frame ← sendFrame kind (rest.take length)
      .ok (some (frame, rest.drop length))
  | _ => .ok none

/-- `client_send`: the frames that it writes for some chunks, and what it then holds or why it ends. -/
def clientSend : List UInt8 → List Chunk → List BridgeFrame × Except IoError (List UInt8)
  | pending, [] => ([], .ok pending)
  | pending, chunk :: chunks =>
    if pending.length + chunk.bytes.length > 2 * chunkLimit + frameHeaderBytes then ([], .error protocolRefused)
    else
      match drain sendNext (pending ++ chunk.bytes) with
      | (frames, .error error) => (frames, .error error)
      | (frames, .ok pending) =>
        let (more, result) := clientSend pending chunks
        (frames ++ more, result)

section

omit [Bincode]

/-- What `process` calls the session with for a frame; for the others the connection ends. -/
def relayCommand (frame : BridgeFrame) : Except IoError ClientCommand :=
  if frame.kind = Kind.input then .ok (.input frame.payload)
  else if frame.kind = Kind.resize then do
    let size ← decodeSize frame.payload
    .ok (.resize ⟨size.rows, size.columns, size.pixelWidth.getD 0, size.pixelHeight.getD 0⟩)
  else if frame.kind = Kind.sync then do
    let command ← syncFromJson frame.payload
    .ok (.recoverySync command)
  else .error protocolRefused

/-- `process` over the frames: the commands that the session has taken, and whether the connection stands. The
session may refuse a command after those that it has taken. -/
def serveFrames (accepts : List ClientCommand → ClientCommand → Bool) :
    List ClientCommand → List BridgeFrame → List ClientCommand × Bool
  | taken, [] => (taken, true)
  | taken, frame :: frames =>
    match relayCommand frame with
    | .error _ => (taken, false)
    | .ok command =>
      if accepts taken command then serveFrames accepts (taken ++ [command]) frames else (taken, false)

/-- `serve_with_reclaim` after the snapshot: the client has to adopt it first. -/
def serve (accepts : List ClientCommand → ClientCommand → Bool) (bytes : List UInt8) : List ClientCommand × Bool :=
  let (frames, result) := drain (readFrame true) bytes
  match frames with
  | [] => ([], result.isOk)
  | first :: frames =>
    if first.kind = Kind.adopted ∧ first.payload = [] then
      let (taken, stands) := serveFrames accepts [.recoveryAdopted] frames
      (taken, stands && result.isOk)
    else ([], false)

end

/-- The frame of an event. The displacer is known to the host. -/
def serveEvent (displacer : Displacer) : ServerFrameEvent → Except IoError BridgeFrame
  | .output bytes => writeFrame Kind.output bytes
  | .recoverySync payload => do
    let bytes ← syncToJson payload
    writeFrame Kind.sync bytes
  | .resizeApplied size => writeFrame Kind.resized (encodeResize size)
  | .exited => writeFrame Kind.exited []
  | .stolen => writeFrame Kind.displaced [displacer.code]

/-- `process` over the events: the frames that are written, and whether the connection stands. -/
def serveEvents (displacer : Displacer) : List ServerFrameEvent → List BridgeFrame × Bool
  | [] => ([], true)
  | event :: events =>
    match serveEvent displacer event with
    | .error _ => ([], false)
    | .ok frame =>
      if event = .exited ∨ event = .stolen then ([frame], false)
      else
        let (frames, stands) := serveEvents displacer events
        (frame :: frames, stands)

/-- The frame of a daemon that `client_receive` makes of a frame. -/
def receiveFrame (frame : BridgeFrame) : Except IoError (List UInt8) :=
  if frame.kind = Kind.output then .ok (encodeServerFrame serverFrameOutput frame.payload)
  else if frame.kind = Kind.resized then do
    let _ ← decodeSize frame.payload
    .ok (encodeServerFrame serverFrameResizeApplied frame.payload)
  else if frame.kind = Kind.sync then do
    let command ← syncFromJson frame.payload
    let encoded ← (encodeRecoverySyncCommand command).mapError fun _ => protocolRefused
    .ok (encodeServerFrame serverFrameRecoverySync encoded)
  else if frame.kind = Kind.exited ∧ frame.payload = [] then .ok ClientOutput.exited.frame
  else if frame.kind = Kind.displaced ∧ frame.payload.length = 1 then .ok encodeServerStolenFrame
  else .error protocolRefused

def receiveFrames : List BridgeFrame → List (List UInt8) × Bool
  | [] => ([], true)
  | frame :: frames =>
    match receiveFrame frame with
    | .error _ => ([], false)
    | .ok received =>
      if frame.kind = Kind.exited ∨ frame.kind = Kind.displaced then ([received], false)
      else
        let (more, stands) := receiveFrames frames
        (received :: more, stands)

/-- `client_receive`: what the session of the client gets, and whether the connection stands. -/
def clientReceive (bytes : List UInt8) : List (List UInt8) × Bool :=
  let (frames, result) := drain (readFrame false) bytes
  let (received, stands) := receiveFrames frames
  (received, stands && result.isOk)

omit [Bincode] [SyncJson] in
/-- The command comes back from its form on the bridge. -/
def Accepted (command : RecoverySyncCommand) : Prop := (Sync.ofCommand command).toCommand = .ok command

omit [Bincode] in
/-- Its form on the bridge fits in a chunk. -/
def Fits (command : RecoverySyncCommand) : Prop :=
  ∃ payload, SyncJson.write (Sync.ofCommand command) = .ok payload ∧ payload.length ≤ chunkLimit

omit [Bincode] [SyncJson] in
/-- The commands within the limits of the bridge. -/
def CommandWithin : ClientCommand → Prop
  | .input _ => True
  | .resize size => size.cols ≤ maximumColumns ∧ size.rows ≤ maximumRows
  | .recoverySync command => Accepted command
  | .recoveryAdopted => True

/-- The events within the limits of the bridge. -/
def EventWithin : ServerFrameEvent → Prop
  | .output _ => True
  | .recoverySync payload => ∃ command, encodeRecoverySyncCommand command = .ok payload ∧ Accepted command
  | .resizeApplied size => size.columns ≤ maximumColumns ∧ size.rows ≤ maximumRows
  | .stolen => False
  | .exited => False

omit [Bincode] [SyncJson] in
/-- The client adopts the snapshot before anything else, and once. -/
def Adopts : List ClientCommand → Prop
  | [] => True
  | command :: commands => command = .recoveryAdopted ∧ .recoveryAdopted ∉ commands

omit [Bincode] [SyncJson] in
/-- The commands handed over one by one, as long as the session takes them. -/
def handOver (accepts : List ClientCommand → ClientCommand → Bool) :
    List ClientCommand → List ClientCommand → List ClientCommand × Bool
  | taken, [] => (taken, true)
  | taken, command :: commands =>
    if command = .recoveryAdopted ∨ accepts taken command then handOver accepts (taken ++ [command]) commands
    else (taken, false)

/-- The chunks are written as frames that any session gets the commands from. -/
def CarriesCommands (commands : List ClientCommand) (chunks : List Chunk) : Prop :=
  ∃ frames, clientSend [] chunks = (frames, .ok []) ∧
    (∀ frame ∈ frames, validateLength frame.kind frame.payload.length = true) ∧
    ∀ accepts, serve accepts (frames.flatMap BridgeFrame.bytes) = handOver accepts [] commands

/-- The events are written as frames that the client gets the frames of the daemon from. -/
def CarriesEvents (displacer : Displacer) (events : List ServerFrameEvent) (daemonFrames : List (List UInt8)) : Prop :=
  ∃ frames, serveEvents displacer events = (frames, true) ∧
    (∀ frame ∈ frames, validateLength frame.kind frame.payload.length = true) ∧
    clientReceive (frames.flatMap BridgeFrame.bytes) = (daemonFrames, true)

end

end FesTerm.TunnelBridge
