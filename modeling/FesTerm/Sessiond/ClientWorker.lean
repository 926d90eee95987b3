import FesTerm.Lib.Channel
import FesTerm.Sessiond.Recovery

/-!
# The client of a session

A `PersistentSession` on a connection of protocol 2 or 3: the calls of the application, and
`client_worker`, the thread that reads the snapshot and the events of the daemon and writes the
commands. The two share the flags, the recovered terminal and the queue of commands.

Each access to something shared is a step of its own. A call of the application first looks at the
flags and then offers its command to the queue; `calls` are those between the two. Reconnection and the
transport of protocol 1 are left out.
-/

namespace FesTerm

inductive SessionErrorKind where
  | input
  | output
  deriving DecidableEq

structure SessionError where
  kind : SessionErrorKind
  message : String
  deriving DecidableEq

/-- `SessionLifecycle`. -/
inductive SessionLifecycle where
  | starting
  | running
  | stopped
  | disconnected (error : SessionError)
  | exited (code : Nat)
  deriving DecidableEq

inductive SessionCommand where
  | input (bytes : List UInt8)
  | resize (size : TerminalSize)
  | recoverySync (payload : List UInt8)
  | shutdown
  deriving DecidableEq

/-- The calls of the application that give the worker something to do: `try_send_input`, `try_resize`,
`sync_recovery_*` and `try_shutdown`. -/
inductive SessionCall where
  | input (bytes : List UInt8)
  | resize (size : TerminalSize)
  | recoverySync (command : RecoverySyncCommand)
  | shutdown
  deriving DecidableEq

structure OutboundFrame where
  bytes : List UInt8
  written : Nat
  resizeApplied : Option TerminalSize
  deriving DecidableEq

/-- `DEFAULT_COMMAND_QUEUE_CAPACITY`. -/
def commandQueueCapacity : Nat := 64

/-- `DEFAULT_EVENT_QUEUE_CAPACITY`. -/
def eventQueueCapacity : Nat := 128

namespace OutboundFrame

def ofBytes (bytes : List UInt8) : OutboundFrame := ⟨bytes, 0, none⟩

def recoveryAdopted : OutboundFrame := ofBytes (encodeFrame frameRecoveryAdopted [])

def remaining (frame : OutboundFrame) : List UInt8 := frame.bytes.drop frame.written

end OutboundFrame

/-- `push_input`, `push_resize` and `push_recovery_sync`. -/
def SessionCommand.outbound : SessionCommand → Option OutboundFrame
  | .input bytes => some (.ofBytes (encodeFrame frameInput bytes))
  | .resize size => some ⟨encodeFrame frameResize (encodeResize size), 0, some size⟩
  | .recoverySync payload => some (.ofBytes (encodeFrame frameRecoverySync payload))
  | .shutdown => none

def commandFrames (commands : List SessionCommand) : List (List UInt8) :=
  commands.filterMap fun command => command.outbound.map OutboundFrame.bytes

/-- Where `client_worker` stands: the access that is next. -/
inductive WorkerPoint where
  /-- `read_protocol_bytes`: whether to abort, and the read. -/
  | recoveryCheck
  | recoveryRead
  /-- The snapshot is handed over, and the session declared running. -/
  | publish (terminal : Terminal)
  | running
  /-- The head of the loop. -/
  | top
  /-- The flag of the adoption, unless the acknowledgement is queued. -/
  | adoption
  /-- The loop over the commands. -/
  | drain
  /-- `pump`: whether to stop, the write and the flush. -/
  | pumpCheck (budget : Nat)
  | pump (budget : Nat)
  | pumpFlush (budget : Nat)
  | deliver
  /-- The flag again: nothing is read before the adoption. -/
  | blocked
  | read
  | ending
  | ended

structure ClientSession where
  cancelled : Bool
  /-- `recovery_adoption_blocked` and `recovery_resize_blocked`. -/
  adoptionBlocked : Bool
  resizeBlocked : Bool
  lifecycle : SessionLifecycle
  recoveredTerminal : Option Terminal
  commands : Channel SessionCommand
  calls : List SessionCommand
  snapshotSchemaVersion : Nat
  /-- What is read of the recovery prelude. -/
  prelude : List UInt8
  parser : ServerFrameParser
  outbound : List OutboundFrame
  adoptionSent : Bool
  pendingEvents : List ServerFrameEvent
  point : WorkerPoint
  /-- History: whether the adoption was acknowledged, the commands accepted, the bytes written. -/
  acknowledged : Bool
  accepted : List SessionCommand
  sent : List UInt8

/-- A step: of the application, or of the worker with what the stream or the event queue answered. -/
inductive SessionStep where
  | takeRecoveredTerminal
  /-- The two stores of `acknowledge_recovery_adoption`. -/
  | acknowledge
  | unblockResize
  | requestStop
  /-- A call passes its checks, and later offers its command. -/
  | call (call : SessionCall)
  | offer (index : Nat)
  | silent
  | wrote (result : Except IoError Nat)
  | flushed (result : Except IoError Unit)
  | read (bytes : Except IoError (List UInt8))
  /-- Whether the event queue had room. -/
  | delivered (accepted : Bool)

namespace ClientSession

/-- The session before its worker runs, over a connection of protocol `protocolVersion`. -/
def start (protocolVersion snapshotSchemaVersion : Nat) : ClientSession where
  cancelled := false
  adoptionBlocked := recoverySnapshotRequired protocolVersion snapshotSchemaVersion
  resizeBlocked := recoverySnapshotRequired protocolVersion snapshotSchemaVersion
  lifecycle := .starting
  recoveredTerminal := none
  commands := .new SessionCommand commandQueueCapacity
  calls := []
  snapshotSchemaVersion := snapshotSchemaVersion
  prelude := []
  parser := .default
  outbound := []
  adoptionSent := false
  pendingEvents := []
  point := .recoveryCheck
  acknowledged := false
  accepted := []
  sent := []

def unwritten (session : ClientSession) : List UInt8 :=
  (session.outbound.map OutboundFrame.remaining).flatten

/-- Whether `send` and `send_recovery_sync` let a command through. -/
def isOpen (session : ClientSession) : Bool :=
  !session.cancelled && !session.adoptionBlocked &&
    (session.lifecycle = .starting || session.lifecycle = .running)

/-- A call up to the offer: the command that it comes to, if it passes its checks. -/
def command [Bincode] (session : ClientSession) : SessionCall → Option SessionCommand
  | .input bytes => if bytes.length ≤ maxFrameBytes ∧ session.isOpen then some (.input bytes) else none
  | .resize size => if !session.resizeBlocked ∧ session.isOpen then some (.resize size) else none
  | .recoverySync command =>
    if session.isOpen then
      match encodeRecoverySyncCommand command with
      | .error _ => none
      | .ok payload => some (.recoverySync payload)
    else none
  -- `request_stop` comes first.
  | .shutdown => if session.cancelled then some .shutdown else none

/-- `try_send` of a command. -/
def accept (session : ClientSession) (command : SessionCommand) : ClientSession :=
  match session.commands.trySend command with
  | (.sent, commands) =>
    { session with commands := commands, accepted := session.accepted ++ [command] }
  | _ => session

def goto (session : ClientSession) (point : WorkerPoint) : ClientSession := { session with point := point }

def finish (session : ClientSession) (lifecycle : SessionLifecycle) : ClientSession :=
  { session with lifecycle := lifecycle, point := .ending }

def failTransport (session : ClientSession) (kind : SessionErrorKind) (error : IoError) : ClientSession :=
  session.finish (.disconnected ⟨kind, s!"persistent-session transport failed: {error.message}"⟩)

def closedUnexpectedly : SessionLifecycle :=
  .disconnected ⟨.output, "persistent-session daemon closed unexpectedly"⟩

/-- `RECOVERY_RETRY_MESSAGE`. -/
def recoveryRetry : SessionLifecycle :=
  .disconnected ⟨.output, "persistent-session daemon closed before recovery completed; it may be busy or shutting down; retry Reconnect or Resume"⟩

section

variable [Platform] [RecoveryCodec]

/-- After a read of the prelude: on with the part that is missing, or the terminal is decoded. -/
def continueRecovery (session : ClientSession) : Option ClientSession :=
  match preludeMissing session.prelude with
  | .error error => some (session.failTransport .output error)
  | .ok (_ + 1) => some (session.goto .recoveryCheck)
  | .ok 0 => do
    match ← decodeRecovery session.snapshotSchemaVersion (session.prelude.drop recoveryHeaderBytes) with
    | .error error => some (session.failTransport .output error)
    | .ok terminal => some (session.goto (.publish terminal))

def afterRecoveryRead (session : ClientSession) : Except IoError (List UInt8) → Option ClientSession
  | .ok bytes =>
    if bytes.isEmpty then some (session.finish recoveryRetry)
    else
      match preludeMissing session.prelude with
      | .error _ => none
      | .ok missing =>
        if missing < bytes.length then none
        else { session with prelude := session.prelude ++ bytes }.continueRecovery
  | .error error =>
    if error.isRetryable then some (session.goto .recoveryCheck)
    else if error.kind = .unexpectedEof then some (session.finish recoveryRetry)
    else some (session.failTransport .output error)

end

/-- The head of `pump` for the first frame, which a full backlog of events holds back. -/
def beginFrame (session : ClientSession) (budget : Nat) : ClientSession :=
  match session.outbound with
  | [] => session.goto .deliver
  | frame :: _ =>
    if frame.resizeApplied.isSome ∧ eventQueueCapacity ≤ session.pendingEvents.length then
      session.goto .deliver
    else if frame.written < frame.bytes.length then
      if budget = 0 then session.goto .deliver else session.goto (.pumpCheck budget)
    else session.goto (.pumpFlush budget)

/-- The loop of `pump` over what is left of the first frame. -/
def continueFrame (session : ClientSession) (budget : Nat) : ClientSession :=
  match session.outbound with
  | [] => session.goto .deliver
  | frame :: _ =>
    if frame.written < frame.bytes.length then
      if budget = 0 then session.goto .deliver else session.goto (.pumpCheck budget)
    else session.goto (.pumpFlush budget)

def beginPump (session : ClientSession) : ClientSession := session.beginFrame maxFrameBytes

/-- A round of the loop over the commands. -/
def takeCommand (session : ClientSession) : ClientSession :=
  if commandQueueCapacity ≤ session.outbound.length then session.beginPump
  else match session.commands.tryRecv with
    | (.item command, commands) =>
      match command.outbound with
      | some frame => { session with commands := commands, outbound := session.outbound ++ [frame] }
      | none => { session with commands := commands }.finish .stopped
    | (.empty, _) => session.beginPump
    | (.disconnected, _) => session.goto .ending

def daemonAcceptedNothing : IoError := ⟨.writeZero, "persistent-session daemon accepted no bytes"⟩

def afterWrite (session : ClientSession) (budget : Nat) (result : Except IoError Nat) :
    Option ClientSession :=
  match session.outbound with
  | [] => none
  | frame :: frames =>
    match result with
    | .ok count =>
      if count = 0 then some (session.failTransport .input daemonAcceptedNothing)
      else if count ≤ min budget (frame.bytes.length - frame.written) then
        some ({ session with
          outbound := { frame with written := frame.written + count } :: frames
          sent := session.sent ++ frame.remaining.take count }.continueFrame (budget - count))
      else none
    | .error error =>
      some (if error.isRetryable then session.goto .deliver else session.failTransport .input error)

def afterFlush (session : ClientSession) (budget : Nat) : Except IoError Unit → ClientSession
  | .ok () => { session with outbound := session.outbound.tail }.beginFrame budget
  | .error error =>
    if error.isRetryable then { session with outbound := session.outbound.tail }.beginFrame budget
    else session.failTransport .input error

/-- What the events that a read completed come to. -/
inductive Completed where
  | parsed (parser : ServerFrameParser)
  | stolen
  | exited
  | failed (error : IoError)

section

variable [Bincode]

/-- The loop over `next_event`, which ends with a notice. -/
def completeEvents : Nat → ServerFrameParser → Option (List ServerFrameEvent × Completed)
  | 0, parser => some ([], .parsed parser)
  | fuel + 1, parser => do
    match ← parser.nextEvent with
    | (_, .error error) => some ([], .failed error)
    | (parser, .ok none) => some ([], .parsed parser)
    | (_, .ok (some .stolen)) => some ([], .stolen)
    | (_, .ok (some .exited)) => some ([], .exited)
    | (parser, .ok (some event)) => do
      let (events, completed) ← completeEvents fuel parser
      some (event :: events, completed)

/-- `DISPLACED_REASON`. -/
def displaced : SessionLifecycle :=
  .disconnected ⟨.output, "persistent session was attached by another client"⟩

def afterRead (session : ClientSession) : Except IoError (List UInt8) → Option ClientSession
  | .ok bytes =>
    if bytes.isEmpty then
      some (match session.parser.close with
        | .error error => (session.failTransport .output error).finish closedUnexpectedly
        | .ok () => session.finish closedUnexpectedly)
    else if readBufferBytes < bytes.length then none
    else
      match session.parser.push bytes with
      | .error error => some (session.failTransport .output error)
      | .ok parser => do
        let (events, completed) ← completeEvents (parser.bytes.length + 1) parser
        let session := { session with pendingEvents := session.pendingEvents ++ events }
        match completed with
        | .parsed parser => some ({ session with parser := parser }.goto .top)
        | .stolen => some (session.finish displaced)
        | .exited => some (session.finish (.exited 0))
        | .failed error => some (session.failTransport .output error)
  | .error error =>
    if error.isRetryable then some (session.goto .top)
    else if error.kind = .brokenPipe then some (session.finish closedUnexpectedly)
    else some (session.failTransport .output error)

variable [Platform] [RecoveryCodec]

/-- A step of the worker. -/
def workerStep (session : ClientSession) (answer : SessionStep) : Option ClientSession :=
  match session.point, answer with
  | .recoveryCheck, .silent =>
    some (if !snapshotSchemaIsSupported session.snapshotSchemaVersion then
      session.failTransport .output (unsupportedSchema session.snapshotSchemaVersion)
    else if session.cancelled then session.finish .stopped
    else session.goto .recoveryRead)
  | .recoveryRead, .read bytes => session.afterRecoveryRead bytes
  | .publish terminal, .silent => some ({ session with recoveredTerminal := some terminal }.goto .running)
  | .running, .silent => some ({ session with lifecycle := .running }.goto .top)
  | .top, .silent => some
    (if session.cancelled then session.finish .stopped
    else session.goto (if session.adoptionSent then .drain else .adoption))
  | .adoption, .silent => some
    (if session.adoptionBlocked then session.goto .drain
    else { session with
      outbound := session.outbound ++ [OutboundFrame.recoveryAdopted]
      adoptionSent := true }.goto .drain)
  | .drain, .silent => some session.takeCommand
  | .pumpCheck budget, .silent =>
    some (session.goto (if session.cancelled then .deliver else .pump budget))
  | .pump budget, .wrote result => session.afterWrite budget result
  | .pumpFlush budget, .flushed result => some (session.afterFlush budget result)
  | .deliver, .silent => if session.pendingEvents.isEmpty then some (session.goto .blocked) else none
  | .deliver, .delivered accepted =>
    if session.pendingEvents.isEmpty then none
    else some (if accepted then { session with pendingEvents := session.pendingEvents.tail }
      else session.goto .top)
  | .blocked, .silent => some (session.goto (if session.adoptionBlocked then .top else .read))
  | .read, .read bytes => session.afterRead bytes
  | .ending, .silent => some ({ session with commands := session.commands.dropReceiver }.goto .ended)
  | _, _ => none

/-- A step of the session. -/
def step (session : ClientSession) : SessionStep → Option ClientSession
  | .takeRecoveredTerminal => some { session with recoveredTerminal := none }
  | .acknowledge => some { session with adoptionBlocked := false, acknowledged := true }
  | .unblockResize =>
    if session.acknowledged then some { session with resizeBlocked := false } else none
  | .requestStop => some { session with cancelled := true }
  | .call call => some { session with calls := session.calls ++ (session.command call).toList }
  | .offer index =>
    match session.calls[index]? with
    | none => none
    | some command => some ({ session with calls := session.calls.eraseIdx index }.accept command)
  | answer => session.workerStep answer

end

end ClientSession

end FesTerm
