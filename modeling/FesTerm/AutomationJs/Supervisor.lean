import FesTerm.AutomationJs.Admission
import FesTerm.AutomationJs.Protocol
import FesTerm.Lib.Table

/-!
# The supervisor of a worker

`supervisor.rs`: the loop of the watchdog, the application that answers what it receives, and the worker behind
two pipes. A step is one access of the loop to what is shared, or a call of the application. A guarded write is
one step: what it may meet on its way through the admission window is its outcome. The worker sends whole
messages; bytes that are none are `malformed`. What a run remembers besides, no code reads.
-/

namespace FesTerm.AutomationJs

inductive SupervisorError where
  | unavailable
  | protocol
  | io
  | workerExited
  | deadline
  | disclosureRevoked
  | cleanup
  | workerFailed (code : WorkerFailure)
  deriving DecidableEq

inductive Event where
  | hostCall (id : Nat) (request : HostRequest)
  | finished (outcome : Outcome)
  | failed (error : SupervisorError)

inductive Control where
  | admitted (id : Nat)
  | result (id : Nat) (result : HostResult) (disclosure : DisclosureGuard)

def Control.id : Control → Nat
  | admitted id | result id _ _ => id

inductive WorkerOutput where
  | message (message : WorkerMessage)
  | malformed

/-- How many host calls a run may make. -/
structure Limits where
  maxHostCalls : Nat
  valid : 1 ≤ maxHostCalls ∧ maxHostCalls ≤ 1024

/-- What came of a write to the worker. -/
inductive WriteOutcome where
  /-- The gate or the disclosure was busy, or the window is closed. -/
  | putOff
  | wrote (count : Nat)
  | wouldBlock
  | failed (error : SupervisorError)

/-- What `try_wait` gives for a worker that runs and, on macOS, the measurement of its memory. -/
inductive PollOutcome where
  | running
  /-- `try_wait` failed, after a measurement or before. -/
  | unwaited
  | exceeded
  | unmeasured
  deriving DecidableEq

/-- Where the loop is, and how it ended. -/
inductive LoopPoint where
  | top
  | draining
  | writing
  | reading
  | polling
  | stopping (result : Except SupervisorError Outcome)
  | reaping (result : Except SupervisorError Outcome)
  | stopped

def LoopPoint.active : LoopPoint → Bool
  | stopping _ | reaping _ | stopped => false
  | _ => true

/-- The bytes of one frame that were written, from its beginning. -/
structure Transmission where
  frame : Outbound
  count : Nat

/-- A result that was queued for the worker, with the call that it answers. -/
structure Answer where
  id : Nat
  request : HostRequest
  result : HostResult

/-- The loop of `supervise`, its handle and both pipes. -/
structure Supervisor where
  limits : Limits
  expectedProfile : Text
  startupDeadline : Instant
  deadline : Instant
  -- The loop.
  point : LoopPoint
  qualified : Bool
  frames : List Outbound
  sent : Nat
  nextId : Nat
  outstanding : Table Nat (HostRequest × Bool)
  implicitlyAdmitted : Finset Nat
  cancelling : Option Instant
  -- What is shared.
  clock : Instant
  opened : Bool
  cancelled : Bool
  controls : List Control
  events : List Event
  outbox : List WorkerOutput
  exited : Bool
  -- What is remembered, of the worker's side and of the application's.
  written : List Transmission
  answered : List Answer
  delivered : List Event
  acknowledged : Bool
  overflowed : Bool
  received : List (Nat × HostRequest)
  admits : List Nat
  answers : List Nat
  misused : Bool
  refused : Bool

/-- A step of the loop, of the handle, of the worker or of the clock. -/
inductive SupervisorAction where
  | tick (elapsed : Nat)
  -- The loop.
  | pass
  | drain
  | write (outcome : WriteOutcome)
  | read (woken : Bool)
  | readFails
  | poll (outcome : PollOutcome)
  | endLoop
  | report (reaped : Bool)
  -- The application.
  | receive
  | hostAdmitted (id : Nat)
  | answer (id : Nat) (result : HostResult) (disclosure : DisclosureGuard)
  | close
  | signal
  -- The worker.
  | send (output : WorkerOutput)
  | exit

def Event.isTerminal : Event → Bool
  | hostCall _ _ => false
  | _ => true

/-- The run is reported as cancelled. -/
def Event.isCancelled : Event → Bool
  | finished .cancelled => true
  | _ => false

def WorkerOutput.isHostCall : WorkerOutput → Bool
  | message (.hostCall ..) => true
  | _ => false

def WorkerOutput.isFinished : WorkerOutput → Bool
  | message (.finished _) => true
  | _ => false

namespace Supervisor

/-- The loop is entered with the frames of the launch. -/
def start (limits : Limits) (expectedProfile : Text) (startupDeadline deadline : Instant)
    (frames : List (List UInt8)) : Supervisor where
  limits := limits
  expectedProfile := expectedProfile
  startupDeadline := startupDeadline
  deadline := deadline
  point := .top
  qualified := false
  frames := frames.map .unguarded
  sent := 0
  nextId := 1
  outstanding := .empty
  implicitlyAdmitted := ∅
  cancelling := none
  clock := 0
  opened := true
  cancelled := false
  controls := []
  events := []
  outbox := []
  exited := false
  written := []
  answered := []
  delivered := []
  acknowledged := false
  overflowed := false
  received := []
  admits := []
  answers := []
  misused := false
  refused := false

def stop (supervisor : Supervisor) (result : Except SupervisorError Outcome) : Supervisor :=
  { supervisor with point := .stopping result }

def fail (supervisor : Supervisor) (error : SupervisorError) : Supervisor := supervisor.stop (.error error)

def cancellationGrace : Nat := 250

/-- The outbound queue is replaced by the cancellation. -/
def beginCancelling [Serde] (supervisor : Supervisor) : Option Supervisor :=
  (encodeFrame .cancel).map fun bytes =>
    { supervisor with
      frames := [.unguarded bytes], sent := 0, cancelling := some (supervisor.clock + cancellationGrace) }

/-- The top of the loop. -/
def pass [Serde] (supervisor : Supervisor) : Supervisor :=
  if !supervisor.qualified ∧ supervisor.startupDeadline ≤ supervisor.clock then supervisor.fail .unavailable
  else if supervisor.deadline ≤ supervisor.clock then supervisor.fail .deadline
  else
    let begun :=
      if supervisor.cancelled ∧ supervisor.cancelling.isNone then supervisor.beginCancelling else some supervisor
    match begun with
    | none => supervisor.fail .protocol
    | some supervisor =>
      if supervisor.cancelling.any (· ≤ supervisor.clock) then supervisor.stop (.ok .cancelled)
      else { supervisor with point := if supervisor.qualified then .draining else .reading }

def stageControl [Serde] (supervisor : Supervisor) (control : Control) : Except SupervisorError Supervisor :=
  match control with
  | .admitted id =>
    match supervisor.outstanding.get id with
    | some (request, admitted) =>
      if admitted then .error .protocol
      else match encodeFrame (.hostAdmitted id) with
      | none => .error .protocol
      | some bytes => .ok { supervisor with
          outstanding := supervisor.outstanding.insert id (request, true)
          frames := supervisor.frames ++ [.unguarded bytes] }
    | none =>
      if id ∈ supervisor.implicitlyAdmitted then
        .ok { supervisor with implicitlyAdmitted := supervisor.implicitlyAdmitted.erase id }
      else .error .protocol
  | .result id result disclosure =>
    match supervisor.outstanding.get id with
    | none => .error .protocol
    | some (request, admitted) =>
      if !result.validateFor request then .error .protocol
      else match encodeFrame (.hostResult id result) with
      | none => .error .protocol
      | some bytes => .ok { supervisor with
          outstanding := supervisor.outstanding.erase id
          implicitlyAdmitted :=
            if admitted then supervisor.implicitlyAdmitted else insert id supervisor.implicitlyAdmitted
          frames := supervisor.frames ++ [{ bytes, disclosure := some disclosure }]
          answered := { id, request, result } :: supervisor.answered }

/-- One control is taken from the queue, and thrown away while the run is cancelled. -/
def drain [Serde] (supervisor : Supervisor) : Supervisor :=
  match supervisor.controls with
  | [] => { supervisor with point := .writing }
  | control :: controls =>
    let supervisor := { supervisor with controls }
    if supervisor.cancelling.isSome then supervisor
    else match supervisor.stageControl control with
    | .error error => { supervisor.fail error with refused := true }
    | .ok supervisor => supervisor

/-- `count` bytes of a frame were taken by the pipe. -/
def transmit (supervisor : Supervisor) (frame : Outbound) (frames : List Outbound) (count : Nat) : Supervisor :=
  { supervisor with
    written :=
      if supervisor.sent = 0 then { frame, count } :: supervisor.written
      else match supervisor.written with
      | [] => []
      | last :: earlier => { last with count := last.count + count } :: earlier
    frames := if supervisor.sent + count = frame.bytes.length then frames else supervisor.frames
    sent := if supervisor.sent + count = frame.bytes.length then 0 else supervisor.sent + count
    point := .reading }

def write (supervisor : Supervisor) (outcome : WriteOutcome) : Option Supervisor :=
  match supervisor.frames with
  | [] => some { supervisor with point := .reading }
  | frame :: frames =>
    match outcome with
    | .putOff => if supervisor.cancelling.isSome then none else some { supervisor with point := .reading }
    | .wouldBlock => some { supervisor with point := .reading }
    | .failed error => some (supervisor.fail error)
    | .wrote count =>
      if (supervisor.cancelling.isSome ∨ supervisor.opened) ∧ supervisor.sent + count ≤ frame.bytes.length then
        some (if count = 0 then supervisor.fail .protocol else supervisor.transmit frame frames count)
      else none

/-- `deliver_event` of a host call. The wake-up may fail after the event was queued. -/
def deliver (supervisor : Supervisor) (event : Event) (woken : Bool) : Supervisor :=
  if supervisor.events.length < maxPendingCalls + 1 then
    let supervisor := { supervisor with
      events := supervisor.events ++ [event], delivered := supervisor.delivered ++ [event] }
    if woken then { supervisor with point := .polling } else supervisor.fail .unavailable
  else { supervisor.fail .protocol with overflowed := true }

def hostCall [Serde] (supervisor : Supervisor) (id : Nat) (request : HostRequest) (woken : Bool) : Supervisor :=
  if supervisor.qualified ∧ supervisor.cancelling.isNone ∧ id = supervisor.nextId ∧
      id ≤ supervisor.limits.maxHostCalls ∧ supervisor.outstanding.entries.length < maxPendingCalls then
    if request.validate then
      deliver { supervisor with
        nextId := supervisor.nextId + 1, outstanding := supervisor.outstanding.insert id (request, false) }
        (.hostCall id request) woken
    else supervisor.fail .protocol
  else supervisor.fail .protocol

/-- A message of the worker. `woken` says whether the application can be told of it. -/
def handle [Serde] (supervisor : Supervisor) (message : WorkerMessage) (woken : Bool) : Supervisor :=
  match message with
  | .ready profile =>
    if !supervisor.qualified ∧ profile = supervisor.expectedProfile then
      if woken then { supervisor with qualified := true, point := .polling } else supervisor.fail .protocol
    else supervisor.fail .protocol
  | .hostCall id request => supervisor.hostCall id request woken
  | .finished outcome =>
    if supervisor.qualified then
      if supervisor.cancelling.isSome then supervisor.stop (.ok .cancelled)
      else if !supervisor.outstanding.entries.isEmpty then supervisor.stop (.ok .unsettledWork)
      else supervisor.stop (.ok outcome)
    else supervisor.fail .protocol
  | .failed code => supervisor.fail (.workerFailed code)

/-- The next whole message, if there is one. The end of the output is a violation of the protocol. -/
def read [Serde] (supervisor : Supervisor) (woken : Bool) : Supervisor :=
  match supervisor.outbox with
  | [] => if supervisor.exited then supervisor.fail .protocol else { supervisor with point := .polling }
  | .malformed :: outbox => { supervisor.fail .protocol with outbox }
  | .message message :: outbox => handle { supervisor with outbox } message woken

/-- The worker still runs, within its memory, or the loop ends. -/
def poll (supervisor : Supervisor) (outcome : PollOutcome) : Supervisor :=
  if outcome = .unwaited then supervisor.fail .io
  else if supervisor.exited then supervisor.fail .protocol
  else match outcome with
  | .exceeded => supervisor.stop (.ok .resourceLimit)
  | .unmeasured => supervisor.fail .unavailable
  | _ => { supervisor with point := .top }

/-- The last event. -/
def terminal (result : Except SupervisorError Outcome) (reaped : Bool) : Event :=
  if !reaped then .failed .cleanup
  else match result with
  | .ok outcome => .finished outcome
  | .error error => .failed error

def report (supervisor : Supervisor) (event : Event) : Supervisor :=
  if supervisor.events.length < maxPendingCalls + 1 then
    { supervisor with
      events := supervisor.events ++ [event], delivered := supervisor.delivered ++ [event], point := .stopped }
  else { supervisor with overflowed := true, point := .stopped }

/-- `with_admission` and the queue of the controls. -/
def reply (supervisor : Supervisor) (control : Control) : Supervisor :=
  if !supervisor.opened then supervisor
  else if supervisor.deadline ≤ supervisor.clock then { supervisor with opened := false }
  else if supervisor.controls.length < maxPendingCalls then
    { supervisor with controls := supervisor.controls ++ [control] }
  else { supervisor with refused := true }

def hostAdmitted (supervisor : Supervisor) (id : Nat) : Supervisor :=
  let proper := id ∈ supervisor.received.map Prod.fst ∧ id ∉ supervisor.admits
  reply { supervisor with misused := supervisor.misused || !proper, admits := id :: supervisor.admits }
    (.admitted id)

/-- What `host_result` checks before it queues the result. -/
def sendable [Serde] (id : Nat) (result : HostResult) : Bool :=
  (match result with
    | .workflow value => validateValue value
    | _ => true) && (encodeFrame (.hostResult id result)).isSome

/-- `host_result`. -/
def answer [Serde] (supervisor : Supervisor) (id : Nat) (result : HostResult)
    (disclosure : DisclosureGuard) : Supervisor :=
  let proper := (∃ call ∈ supervisor.received, call.1 = id) ∧ id ∉ supervisor.answers ∧
    ∀ call ∈ supervisor.received, call.1 = id → result.validateFor call.2
  if sendable id result then
    reply { supervisor with misused := supervisor.misused || !proper, answers := id :: supervisor.answers }
      (.result id result disclosure)
  else { supervisor with misused := true }

/-- One event that `try_event` takes. A call is dropped once the window is closed. -/
def receive (supervisor : Supervisor) : Supervisor :=
  match supervisor.events with
  | [] => supervisor
  | .hostCall id request :: events =>
    if !supervisor.opened ∨ supervisor.deadline ≤ supervisor.clock then { supervisor with events }
    else { supervisor with events, received := (id, request) :: supervisor.received }
  | _ :: events => { supervisor with events }

def cancelSent (supervisor : Supervisor) : Bool :=
  supervisor.qualified && supervisor.cancelling.isSome && supervisor.frames.isEmpty

def acknowledges (supervisor : Supervisor) (output : WorkerOutput) : Bool :=
  output.isFinished && supervisor.point.active && supervisor.cancelSent && supervisor.outbox.all (·.isHostCall)

/-- What an action does; none where it is not due. -/
def step [Serde] (supervisor : Supervisor) (action : SupervisorAction) : Option Supervisor :=
  match supervisor.point, action with
  | .top, .pass => some supervisor.pass
  | .draining, .drain => some supervisor.drain
  | .writing, .write outcome => supervisor.write outcome
  | .reading, .read woken => some (supervisor.read woken)
  | .reading, .readFails => some (supervisor.fail .io)
  | .polling, .poll outcome => some (supervisor.poll outcome)
  | .stopping result, .endLoop => some { supervisor with opened := false, point := .reaping result }
  | .reaping result, .report reaped => some (supervisor.report (terminal result reaped))
  | _, .tick elapsed => some { supervisor with clock := supervisor.clock + elapsed }
  | _, .receive => some supervisor.receive
  | _, .hostAdmitted id => some (supervisor.hostAdmitted id)
  | _, .answer id result disclosure => some (supervisor.answer id result disclosure)
  | _, .close => some { supervisor with opened := false }
  | _, .signal => if supervisor.opened then none else some { supervisor with cancelled := true }
  | _, .send output =>
    if supervisor.exited then none
    else some { supervisor with
      outbox := supervisor.outbox ++ [output]
      acknowledged := supervisor.acknowledged || supervisor.acknowledges output }
  | _, .exit => some { supervisor with exited := true }
  | _, _ => none

/-- When the supervisor keeps its side: a cancellation is noticed between two frames and with no call on its way,
and is answered before the deadline; the exit of the worker is noticed after its last message; the application
replies to calls that it has received, while the queue has room; and a worker that acknowledges can be read, waited
for, measured and reaped. -/
def Allows (supervisor : Supervisor) : SupervisorAction → Prop
  | .pass =>
    if supervisor.cancelling.isSome then supervisor.clock < supervisor.deadline
    else supervisor.cancelled → supervisor.sent = 0 ∧ ∀ output ∈ supervisor.outbox, output.isHostCall = false
  | .readFails => supervisor.acknowledged = false
  | .poll outcome =>
    (supervisor.exited → supervisor.outbox = []) ∧ (supervisor.acknowledged → outcome = .running)
  | .report reaped => supervisor.acknowledged → reaped
  | .hostAdmitted id | .answer id _ _ =>
    id ∈ supervisor.received.map Prod.fst ∧ supervisor.controls.length < maxPendingCalls
  | .send output => supervisor.cancelling.isSome → output.isHostCall = false
  | _ => True

instance (supervisor : Supervisor) (action : SupervisorAction) : Decidable (supervisor.Allows action) := by
  unfold Allows
  cases action <;> infer_instance

/-- Frames, host calls and the end of the run follow the protocol. -/
structure KeepsProtocol [Serde] (supervisor : Supervisor) : Prop where
  /-- Only the last frame may be cut short. -/
  frames : (∀ transmission ∈ supervisor.written.tail, transmission.count = transmission.frame.bytes.length) ∧
    ∀ transmission ∈ supervisor.written.head?, transmission.count ≤ transmission.frame.bytes.length
  /-- A run that the worker acknowledges is reported as cancelled. -/
  cancelled : supervisor.acknowledged →
    (supervisor.point.active → ∃ output ∈ supervisor.outbox.head?, output.isFinished) ∧
    ∀ event ∈ supervisor.delivered, event.isTerminal → event.isCancelled
  answered : (supervisor.answered.map Answer.id).Nodup ∧
    ∀ answer ∈ supervisor.answered, answer.result.validateFor answer.request ∧
      Event.hostCall answer.id answer.request ∈ supervisor.delivered
  accepts : supervisor.misused = false → supervisor.refused = false
  overflow : supervisor.overflowed = false
  /-- One terminal event, at the end. -/
  terminal : match supervisor.point with
    | .stopped => ∃ calls event, supervisor.delivered = calls ++ [event] ∧ event.isTerminal ∧
        ∀ call ∈ calls, call.isTerminal = false
    | _ => ∀ event ∈ supervisor.delivered, event.isTerminal = false

end Supervisor

end FesTerm.AutomationJs
