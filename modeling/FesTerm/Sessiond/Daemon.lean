import FesTerm.Sessiond.Admission
import FesTerm.Sessiond.ClientLoop
import FesTerm.Sessiond.Shadow

/-!
# The daemon's main loop

`session_client_loop` with the workers that it starts: the main thread mirrors the output of the
pseudoterminal, takes the commands of the clients, admits clients and lets one replace the other. With
each worker it shares a takeover flag, the queue of outputs and the channel on which the adoption is
announced, and with all of them the queue of commands.

A step is one of the main thread or of a worker, up to and including the next access to something shared.
The pseudoterminal, the listener, the streams and the clock answer as they like. Reports of the
attachment state, traces and the joins at the end are left out.
-/

namespace FesTerm

/-- What follows a call of `flush_pending_output`. -/
inductive AfterFlush where
  /-- The admissions. -/
  | accept
  /-- Between the admissions and `drain_ready_pty_output`. -/
  | ready
  /-- The next round of that, with the number of events that it may still take. -/
  | drain (left : Nat)
  /-- The next round of the loop. -/
  | reap
  /-- `finish_pending_output`, and its look at the clock. -/
  | finishing
  | blocked
  deriving DecidableEq

/-- What follows a call of `retire_active`. -/
inductive AfterRetire where
  /-- The commands, of which this many may be taken. -/
  | input (left : Nat)
  | flush (next : AfterFlush)
  | install (candidate : Nat)
  /-- The end of the function. -/
  | returning
  deriving DecidableEq

/-- Where the main thread stands. -/
inductive MainPoint where
  /-- `reap_client_threads`. -/
  | reap
  /-- `retire_active_if_finished`. -/
  | retire
  /-- `handle_pending_client_input`. -/
  | input (left : Nat)
  | flush (next : AfterFlush)
  /-- `retire_active` once the flag is stored: the output queue is dropped. -/
  | dropActive (next : AfterRetire)
  /-- The loop of `accept_unix_clients`. -/
  | accept
  /-- `replace_active_limited`: the wait for the adoption. -/
  | await (candidate : Nat)
  /-- The end of a failed replacement: the flag, the output queue, the adoption channel. -/
  | cancel (candidate : Nat)
  | cancelDrop (candidate : Nat)
  | cancelLeave (candidate : Nat)
  /-- The end of a successful one. -/
  | displace (candidate : Nat)
  | install (candidate : Nat)
  | ready
  | drain (left : Nat)
  | drained
  /-- `recv_timeout`. -/
  | receive
  | finishing
  | blocked
  /-- After the loop. -/
  | finish
  | returning
  | ended
  deriving DecidableEq

def AfterFlush.point : AfterFlush → MainPoint
  | .accept => .accept
  | .ready => .ready
  | .drain left => .drain left
  | .reap => .reap
  | .finishing => .finishing
  | .blocked => .blocked

def AfterRetire.point : AfterRetire → MainPoint
  | .input left => .input left
  | .flush next => .flush next
  | .install candidate => .install candidate
  | .returning => .returning

/-- Why the loop ended. -/
inductive EndCause where
  /-- The pseudoterminal is at its end or failed. -/
  | ptyClosed
  | pty (error : IoError)
  /-- A command could not be handed to the pseudoterminal. -/
  | command (error : IoError)
  | listener (error : IoError)
  /-- `?` on an error of a client that is being admitted. -/
  | admission (error : IoError)
  /-- `resize_shadow_terminal` and `encode_recovery_sync_command` failed. -/
  | shadow (error : IoError)
  | recoverySync (error : IoError)
  /-- A worker panicked, or the main thread did. -/
  | worker
  | panicked
  deriving DecidableEq

inductive PtyEvent where
  | data (bytes : List UInt8)
  | eof
  | error (error : IoError)
  deriving DecidableEq

/-- What an access of the main thread found; for an access whose outcome is up to the shared state or
to nothing, `silent`. -/
inductive MainAnswer where
  | silent
  | clock (expired : Bool)
  | accepted (attempt : Attempt)
  | refused (error : IoError)
  /-- What `handle_client_command` returns, should it be called. -/
  | handled (result : Except IoError Unit)
  /-- What the reader thread has for the loop; an empty queue is a timeout of `recv_timeout`. -/
  | pty (event : TryRecv PtyEvent) (handled : Except IoError Unit)
  deriving DecidableEq

/-- A client that the daemon has started a worker for, with the worker. -/
structure Connection where
  loop : IoLoop
  kind : AttachKind
  stolen : Bool
  output : Channel ClientOutput
  adopted : Channel Unit
  /-- History: the snapshot as it was sent, and the terminal that it was made from. -/
  recovery : List UInt8
  snapshot : Terminal
  /-- History: each output that was held for the client, with the shadow terminal after it, and those
  of them that went into the queue. -/
  produced : List (ClientOutput × Terminal)
  queued : List ClientOutput
  /-- History: another client took over; the replacement by this client failed; this client has closed
  its end. -/
  displaced : Bool
  cancelled : Bool
  closed : Bool

namespace Connection

def generation (client : Connection) : Nat := client.loop.generation

/-- `is_finished` of the worker thread. -/
def isFinished (client : Connection) : Bool :=
  match client.loop.point with
  | .finished _ | .panicked => true
  | _ => false

/-- The connection when its worker is started. -/
def start (generation : Nat) (kind : AttachKind) (recovery : List UInt8) (snapshot : Terminal) :
    Connection where
  loop := .start generation recovery
  kind := kind
  stolen := false
  output := .new ClientOutput clientQueueCapacity
  adopted := .new Unit 1
  recovery := recovery
  snapshot := snapshot
  produced := []
  queued := []
  displaced := false
  cancelled := false
  closed := false

/-- What the worker's access leaves of what it shares with the main thread alone, if the answer is the
one that this has. -/
def answered (client : Connection) : IoAnswer → Option Connection
  | .flag raised => if raised = client.stolen then some client else none
  | .sent result =>
    let (found, adopted) := client.adopted.trySend ()
    if result = found then some { client with adopted := adopted.dropSender } else none
  | .received result =>
    let (found, output) := client.output.tryRecv
    if result = found then some { client with output := output } else none
  | .read (.ok []) => some { client with closed := true }
  | .silent =>
    match client.loop.point with
    | .returning _ => some { client with adopted := client.adopted.dropSender }
    | .released _ => some { client with output := client.output.dropReceiver }
    | _ => some client
  | _ => some client

end Connection

/-- The main thread of the daemon, its clients and their workers. -/
structure Daemon where
  processId : Nat
  /-- `DAEMON_GENERATION`. -/
  daemonGeneration : Nat
  terminal : Terminal
  /-- All clients that a worker was started for. -/
  connections : List Connection
  /-- `ActiveClient`, as a place in `connections`, and the other threads that are not joined. -/
  active : Option Nat
  retired : List Nat
  /-- `client_input_rx`; beside each command stands the place of the client that sent it. -/
  input : Channel (Nat × ClientInput)
  nextGeneration : Nat
  /-- `PendingOutput`. -/
  held : List (Nat × ClientOutput)
  point : MainPoint
  cause : Option EndCause
  /-- `shutdown` was called. -/
  shutdown : Bool
  /-- History: what was handed to the shell, with the client that sent it (none for a reply of the
  daemon's own terminal) and the active client at that moment. -/
  handed : List (Option Nat × Option Nat × ClientCommand)

/-- A step of the main thread, or of the worker of a client. -/
inductive DaemonStep where
  | main (answer : MainAnswer)
  | worker (client : Nat) (answer : IoAnswer)
  deriving DecidableEq

def ptyEventChannelCapacity : Nat := 64

namespace Daemon

/-- The shell runs; no client has come. -/
def start (processId daemonGeneration : Nat) (terminal : Terminal) : Daemon where
  processId := processId
  daemonGeneration := daemonGeneration
  terminal := terminal
  connections := []
  active := none
  retired := []
  input := .new (Nat × ClientInput) clientQueueCapacity
  nextGeneration := 1
  held := []
  point := .reap
  cause := none
  shutdown := false
  handed := []

def goto (daemon : Daemon) (point : MainPoint) : Daemon := { daemon with point := point }

/-- `shutdown` and `break Err`. -/
def fail (daemon : Daemon) (cause : EndCause) : Daemon :=
  { daemon with cause := some cause, shutdown := true, point := .finish }

/-- The loop ends without a `shutdown`: with `break Err`, with `?`, or by a panic. -/
def abort (daemon : Daemon) (cause : EndCause) : Daemon :=
  { daemon with cause := some cause, point := .finish }

/-- `break Ok`. -/
def complete (daemon : Daemon) : Daemon :=
  { daemon with cause := some .ptyClosed, point := .finishing }

def activeClient (daemon : Daemon) : Option Connection := daemon.active.bind (daemon.connections[·]?)

def modifyClient (daemon : Daemon) (index : Nat) (change : Connection → Connection) : Daemon :=
  { daemon with connections := daemon.connections.modify index change }

/-- `handle_client_command` is called. -/
def handOver (daemon : Daemon) (sender : Option Nat) (command : ClientCommand) : Daemon :=
  { daemon with handed := daemon.handed ++ [(sender, daemon.active, command)] }

/-- `hold_output` for the active client. -/
def hold (daemon : Daemon) (output : ClientOutput) (next : MainPoint) : Daemon :=
  match daemon.active, daemon.activeClient with
  | some index, some client =>
    if daemon.held.length ≤ clientQueueCapacity then
      { daemon with held := daemon.held ++ [(client.generation, output)], point := next }.modifyClient
        index fun client => { client with produced := client.produced ++ [(output, daemon.terminal)] }
    else daemon.abort .panicked
  | _, _ => daemon.goto next

/-- The first half of `retire_active`. -/
def retireActive (daemon : Daemon) (stolen : Bool) (next : AfterRetire) : Daemon :=
  match daemon.active with
  | none => daemon.goto next.point
  | some index =>
    ({ daemon with point := .dropActive next }).modifyClient index fun client =>
      { client with stolen := stolen, displaced := client.displaced || stolen }

/-- The second half. -/
def dropActive (daemon : Daemon) (next : AfterRetire) : Daemon :=
  match daemon.active with
  | none => daemon.goto next.point
  | some index =>
    ({ daemon with active := none, retired := daemon.retired ++ [index], point := next.point }).modifyClient
      index fun client => { client with output := client.output.dropSender }

/-- A round of `flush_pending_output`. -/
def flushOne (daemon : Daemon) (next : AfterFlush) : Daemon :=
  match daemon.held with
  | [] => daemon.goto next.point
  | (generation, output) :: held =>
    let rest := { daemon with held := held }
    match daemon.active, daemon.activeClient with
    | some index, some client =>
      if client.generation ≠ generation then rest
      else match client.output.trySend output with
        | (.sent, channel) => rest.modifyClient index fun client =>
          { client with output := channel, queued := client.queued ++ [output] }
        | (.full, _) => daemon.goto next.point
        | (.disconnected, _) => rest.retireActive false (.flush next)
    | _, _ => rest

/-- `reap_client_threads`. -/
def reap (daemon : Daemon) : Daemon :=
  let finished (index : Nat) : Bool := daemon.connections[index]?.any Connection.isFinished
  let panicked (index : Nat) : Bool :=
    daemon.connections[index]?.any fun client => client.loop.point = .panicked
  let reaped := { daemon with retired := daemon.retired.filter fun index => !finished index }
  if daemon.retired.any panicked then reaped.fail .worker else reaped.goto .retire

/-- `retire_active_if_finished`, and on to the commands. -/
def retireFinished (daemon : Daemon) : Daemon :=
  let left := clientQueueCapacity - daemon.held.length
  if daemon.activeClient.any Connection.isFinished then daemon.retireActive false (.input left)
  else daemon.goto (.input left)

section

variable [Platform] [Bincode]

/-- The match of `handle_pending_client_input` on a command that is accepted. -/
def acceptCommand (daemon : Daemon) (sender : Nat) (handled : Except IoError Unit) (next : MainPoint) :
    ClientCommand → Daemon
  | .input data =>
    let daemon := daemon.handOver (some sender) (.input data)
    match handled with
    | .error error => daemon.fail (.command error)
    | .ok () => daemon.goto next
  | .resize size =>
    let daemon := daemon.handOver (some sender) (.resize size)
    match handled with
    | .error error => daemon.fail (.command error)
    | .ok () =>
      match resizeShadowTerminal daemon.terminal size with
      | none => daemon.abort .panicked
      | some (.error error) => daemon.fail (.shadow error)
      | some (.ok terminal) => { daemon with terminal := terminal }.hold (.resizeApplied size) next
  | .recoverySync command =>
    match applyRecoverySyncCommand daemon.terminal command with
    | none => daemon.abort .panicked
    | some terminal =>
      let daemon := { daemon with terminal := terminal }
      if daemon.active.isNone then daemon.goto next
      else match encodeRecoverySyncCommand command with
        | .error error => daemon.fail (.recoverySync ⟨.other, error⟩)
        | .ok payload => daemon.hold (.recoverySync payload) next
  | .recoveryAdopted => daemon.goto next

def isRecoverySync : ClientCommand → Bool
  | .recoverySync _ => true
  | _ => false

/-- A round of the loop of `handle_pending_client_input`. -/
def takeInput (daemon : Daemon) (left : Nat) (handled : Except IoError Unit) : Daemon :=
  match left, daemon.input.tryRecv with
  | left + 1, (.item (sender, input), channel) =>
    let daemon := { daemon with input := channel }
    if daemon.activeClient.any (·.generation = input.generation) ∨ isRecoverySync input.command then
      daemon.acceptCommand sender handled (.input left) input.command
    else daemon.goto (.input left)
  | _, _ => daemon.goto (.flush .accept)

section

omit [Bincode]

/-- Output of the pseudoterminal: it is mirrored, the replies go to the shell and the output to the
client. -/
def mirror (daemon : Daemon) (bytes : List UInt8) (handled : Except IoError Unit) (next : AfterFlush)
    (failed : Daemon → EndCause → Daemon) : Daemon :=
  match mirrorTerminalOutput daemon.terminal bytes with
  | none => daemon.abort .panicked
  | some (replies, terminal) =>
    let daemon := { daemon with terminal := terminal }
    if replies.isEmpty then daemon.hold (.data bytes) (.flush next)
    else
      let daemon := daemon.handOver none (.input replies)
      match handled with
      | .error error => failed daemon (.command error)
      | .ok () => daemon.hold (.data bytes) (.flush next)

/-- A round of `drain_ready_pty_output`. -/
def drainOne (daemon : Daemon) (left : Nat) (handled : Except IoError Unit) : TryRecv PtyEvent → Option Daemon
  | .item (.data bytes) =>
    if 0 < bytes.length ∧ bytes.length ≤ readBufferBytes then
      some (daemon.mirror bytes handled (.drain left) fail)
    else none
  | .item .eof => some ({ daemon with cause := some .ptyClosed }.hold .exited (.flush .finishing))
  | .item (.error error) => some (daemon.fail (.pty error))
  | .empty => some (daemon.goto .drained)
  | .disconnected => some daemon.complete

/-- `recv_timeout` and the match on what it returns. -/
def receiveOne (daemon : Daemon) (handled : Except IoError Unit) : TryRecv PtyEvent → Option Daemon
  | .item (.data bytes) =>
    if 0 < bytes.length ∧ bytes.length ≤ readBufferBytes then
      some (daemon.mirror bytes handled .reap abort)
    else none
  | .item .eof => some ({ daemon with cause := some .ptyClosed }.hold .exited (.flush .finishing))
  | .item (.error error) => some (daemon.abort (.pty error))
  | .empty => some (daemon.goto .reap)
  | .disconnected => some daemon.complete

end

variable [RecoveryCodec]

omit [Bincode] in
/-- `replace_active_limited` up to the wait for the adoption. A replacement that fails before ends the
round of admissions. -/
def replaceActive (daemon : Daemon) (limit : Nat) (kind : AttachKind) (spawned : Except IoError Unit) :
    Daemon :=
  match encodeRecoverySnapshotWithLimit daemon.terminal limit, spawned with
  | none, _ => daemon.abort .panicked
  | some (.ok recovery), .ok () =>
    { daemon with
      connections := daemon.connections ++
        [.start daemon.nextGeneration kind recovery daemon.terminal]
      point := .await daemon.connections.length }
  | some _, _ => daemon.goto (.flush .ready)

omit [Bincode] in
/-- A connection of `accept_unix_clients`. -/
def acceptClient (daemon : Daemon) (attempt : Attempt) : Option Daemon :=
  match attempt.timeouts with
  | .error error => some (daemon.fail (.admission error))
  | .ok () => do
    let occupied := daemon.activeClient.any fun client => !client.isFinished
    match ← admitClient daemon.processId daemon.daemonGeneration occupied attempt with
    | .error error => some (daemon.fail (.admission error))
    | .ok none => some daemon
    | .ok (some (limit, kind)) => some (daemon.replaceActive limit kind attempt.spawned)

/-- The adoption came, the worker is gone, or the wait has run out. -/
def await (daemon : Daemon) (candidate : Nat) : Daemon :=
  match daemon.connections[candidate]? with
  | none => daemon.goto (.cancel candidate)
  | some client =>
    match client.adopted.tryRecv with
    | (.item (), adopted) =>
      (daemon.modifyClient candidate fun client => { client with adopted := adopted }).goto
        (.displace candidate)
    | _ => daemon.goto (.cancel candidate)

/-- The candidate becomes the active client. -/
def install (daemon : Daemon) (candidate : Nat) : Daemon :=
  { daemon with
    active := some candidate
    nextGeneration := daemon.nextGeneration + 1
    point := .accept }.modifyClient candidate fun client =>
      { client with adopted := client.adopted.dropReceiver }

/-- A step of the main thread. -/
def mainStep (daemon : Daemon) (answer : MainAnswer) : Option Daemon :=
  match daemon.point, answer with
  | .reap, .silent => some daemon.reap
  | .retire, .silent => some daemon.retireFinished
  | .input left, .handled result => some (daemon.takeInput left result)
  | .flush next, .silent => some (daemon.flushOne next)
  | .dropActive next, .silent => some (daemon.dropActive next)
  | .accept, .accepted attempt => daemon.acceptClient attempt
  | .accept, .refused error => some
    (if error.kind = .wouldBlock then daemon.goto (.flush .ready)
    else if error.kind = .interrupted then daemon
    else daemon.fail (.listener error))
  | .await candidate, .silent => some (daemon.await candidate)
  | .cancel candidate, .silent =>
    some ((daemon.modifyClient candidate fun client =>
      { client with stolen := true, cancelled := true }).goto (.cancelDrop candidate))
  | .cancelDrop candidate, .silent =>
    some (({ daemon with retired := daemon.retired ++ [candidate] }.modifyClient candidate fun client =>
      { client with output := client.output.dropSender }).goto (.cancelLeave candidate))
  | .cancelLeave candidate, .silent =>
    some ((daemon.modifyClient candidate fun client =>
      { client with adopted := client.adopted.dropReceiver }).goto (.flush .ready))
  | .displace candidate, .silent => some (daemon.retireActive true (.install candidate))
  | .install candidate, .silent => some (daemon.install candidate)
  | .ready, .silent =>
    some (daemon.goto (if daemon.held.isEmpty then .drain ptyEventChannelCapacity else .reap))
  | .drain left, .silent => if left = 0 ∨ !daemon.held.isEmpty then some (daemon.goto .drained) else none
  | .drain (left + 1), .pty event handled =>
    if daemon.held.isEmpty then daemon.drainOne left handled event else none
  | .drained, .silent => some (daemon.goto (if daemon.held.isEmpty then .receive else .reap))
  | .receive, .pty event handled => daemon.receiveOne handled event
  | .finishing, .silent => some (daemon.goto (if daemon.held.isEmpty then .finish else .flush .blocked))
  | .blocked, .clock expired =>
    some (daemon.goto (if daemon.held.isEmpty ∨ expired then .finish else .finishing))
  | .finish, .silent => some (daemon.retireActive false .returning)
  | .returning, .silent => some ({ daemon with input := daemon.input.dropReceiver }.goto .ended)
  | _, _ => none

end

section

variable [Bincode]

/-- A step of a worker. A command is sent on the queue that all of them share. -/
def workerStep (daemon : Daemon) (index : Nat) (answer : IoAnswer) : Option Daemon := do
  let client ← daemon.connections[index]?
  let loop ← client.loop.step answer
  match client.loop.point, answer with
  | .submit input, .sent result =>
    let (found, channel) := daemon.input.trySend (index, input)
    if result = found then
      some ({ daemon with input := channel }.modifyClient index fun client => { client with loop := loop })
    else none
  | _, _ => do
    let client ← client.answered answer
    some (daemon.modifyClient index fun _ => { client with loop := loop })

variable [Platform] [RecoveryCodec]

/-- A step of one thread. -/
def step (daemon : Daemon) : DaemonStep → Option Daemon
  | .main answer => daemon.mainStep answer
  | .worker client answer => daemon.workerStep client answer

def run (daemon : Daemon) (steps : List DaemonStep) : Option Daemon := steps.foldlM step daemon

end

end Daemon

end FesTerm
