import FesTerm.Sessiond.ClientWorker

/-!
# Frames on their way to the daemon

`OutboundFrames` with `pump` as one call: the frames that the client owes the daemon, and what is counted
and reported when the daemon has all of one. `ClientWorker` has the same loop in steps, without the
metrics and for the protocols that acknowledge a resize themselves.

The transport is a parameter: a state, what `write` and `flush` return and leave of it, and whether the
session is cancelled by then. The debug assertions on a full queue are left out.
-/

namespace FesTerm

/-- The stream to the daemon, and the flag that another thread may raise. -/
structure Transport (W : Type) where
  cancelled : W → Bool
  write : W → List UInt8 → Except IoError Nat × W
  flush : W → Except IoError Unit × W

/-- `OutboundFrame`, with what the metrics count of it. -/
structure QueuedFrame extends OutboundFrame where
  inputBytes : Nat
  deriving DecidableEq

/-- The part of `SessionMetrics` that `pump` keeps. -/
structure OutboundMetrics where
  inputBytes : Nat
  resizeCount : Nat
  deriving DecidableEq

structure OutboundFrames where
  frames : List QueuedFrame
  legacyResizeAck : Bool
  deriving DecidableEq

/-- How the loop over a frame ends. -/
inductive FrameEnd where
  | stopped
  | failed (error : IoError)
  | complete

namespace OutboundFrames

def new (protocolVersion : Nat) : OutboundFrames := ⟨[], decide (protocolVersion < 2)⟩

def pushBack (outbound : OutboundFrames) (frame : QueuedFrame) : OutboundFrames :=
  { outbound with frames := outbound.frames ++ [frame] }

def pushInput (outbound : OutboundFrames) (bytes : List UInt8) : OutboundFrames :=
  outbound.pushBack ⟨⟨encodeFrame frameInput bytes, 0, none⟩, bytes.length⟩

def pushResize (outbound : OutboundFrames) (size : TerminalSize) : OutboundFrames :=
  outbound.pushBack ⟨⟨encodeFrame frameResize (encodeResize size), 0, some size⟩, 0⟩

def pushRecoverySync (outbound : OutboundFrames) (payload : List UInt8) : OutboundFrames :=
  outbound.pushBack ⟨⟨encodeFrame frameRecoverySync payload, 0, none⟩, 0⟩

def pushRecoveryAdopted (outbound : OutboundFrames) : OutboundFrames :=
  outbound.pushBack ⟨⟨encodeFrame frameRecoveryAdopted [], 0, none⟩, 0⟩

section

variable {W : Type} (transport : Transport W)

/-- The inner loop of `pump`, with the budget that is left. A round that goes on has written a byte, so
there are at most as many rounds as bytes are missing. -/
def writeFrame : Nat → QueuedFrame → Nat → W → FrameEnd × QueuedFrame × Nat × W
  | 0, frame, budget, stream => (.complete, frame, budget, stream)
  | rounds + 1, frame, budget, stream =>
    if frame.written < frame.bytes.length then
      if budget = 0 ∨ transport.cancelled stream then (.stopped, frame, budget, stream)
      else
        let count := min budget frame.remaining.length
        match transport.write stream (frame.remaining.take count) with
        | (.ok 0, stream) => (.failed ClientSession.daemonAcceptedNothing, frame, budget, stream)
        | (.ok count, stream) =>
          writeFrame rounds { frame with written := frame.written + count } (budget - count) stream
        | (.error error, stream) =>
          if error.isRetryable then (.stopped, frame, budget, stream)
          else (.failed error, frame, budget, stream)
    else (.complete, frame, budget, stream)

/-- What is counted of a frame that is complete. -/
def count (metrics : OutboundMetrics) (frame : QueuedFrame) : OutboundMetrics where
  inputBytes := if 0 < frame.inputBytes then metrics.inputBytes + frame.inputBytes else metrics.inputBytes
  resizeCount := if frame.resizeApplied.isSome then metrics.resizeCount + 1 else metrics.resizeCount

/-- What is reported of it. -/
def report (legacyResizeAck : Bool) (events : List ServerFrameEvent) (frame : QueuedFrame) :
    List ServerFrameEvent :=
  match frame.resizeApplied with
  | some size => if legacyResizeAck then events ++ [.resizeApplied size] else events
  | none => events

/-- What `pump` leaves: its result, the queue, the metrics, the events and the stream. -/
structure Pumped (W : Type) where
  result : Except IoError Unit
  frames : List QueuedFrame
  metrics : OutboundMetrics
  events : List ServerFrameEvent
  stream : W

/-- The outer loop of `pump`. -/
def pumpFrames (legacyResizeAck : Bool) :
    List QueuedFrame → Nat → OutboundMetrics → List ServerFrameEvent → W → Pumped W
  | [], _, metrics, events, stream => ⟨.ok (), [], metrics, events, stream⟩
  | frame :: frames, budget, metrics, events, stream =>
    if frame.resizeApplied.isSome ∧ eventQueueCapacity ≤ events.length then
      ⟨.ok (), frame :: frames, metrics, events, stream⟩
    else
      match writeFrame transport (frame.bytes.length - frame.written) frame budget stream with
      | (.stopped, frame, _, stream) => ⟨.ok (), frame :: frames, metrics, events, stream⟩
      | (.failed error, frame, _, stream) => ⟨.error error, frame :: frames, metrics, events, stream⟩
      | (.complete, frame, budget, stream) =>
        let (flushed, stream) := transport.flush stream
        match flushed with
        | .ok () => pumpFrames legacyResizeAck frames budget (count metrics frame)
          (report legacyResizeAck events frame) stream
        | .error error =>
          if error.isRetryable then pumpFrames legacyResizeAck frames budget (count metrics frame)
            (report legacyResizeAck events frame) stream
          else ⟨.error error, frame :: frames, metrics, events, stream⟩

/-- `pump`; the budget is `MAX_IO_CHUNK_BYTES`. -/
def pump (outbound : OutboundFrames) (budget : Nat) (metrics : OutboundMetrics)
    (events : List ServerFrameEvent) (stream : W) : Pumped W :=
  pumpFrames transport outbound.legacyResizeAck outbound.frames budget metrics events stream

end

end OutboundFrames

/-- What `client_worker` queues. -/
inductive OutboundRequest where
  | input (bytes : List UInt8)
  | resize (size : TerminalSize)
  | recoverySync (payload : List UInt8)
  | recoveryAdopted
  deriving DecidableEq

def OutboundFrames.push (outbound : OutboundFrames) : OutboundRequest → OutboundFrames
  | .input bytes => outbound.pushInput bytes
  | .resize size => outbound.pushResize size
  | .recoverySync payload => outbound.pushRecoverySync payload
  | .recoveryAdopted => outbound.pushRecoveryAdopted

/-- A step: something is queued, `pump` is called, or the events and the stream change elsewhere. -/
inductive WriteStep (W : Type) where
  | queue (request : OutboundRequest)
  | pump (budget : Nat)
  | elsewhere (events : List ServerFrameEvent) (stream : W)

/-- What a client writes: the frames that wait, the transport and the events. -/
structure ClientWrites (W : Type) where
  outbound : OutboundFrames
  metrics : OutboundMetrics
  events : List ServerFrameEvent
  stream : W
  /-- An error of `pump` ends the worker. -/
  failed : Bool
  /-- History: what was queued, and the events that `pump` added. -/
  queued : List OutboundRequest
  reported : List ServerFrameEvent

namespace ClientWrites

variable {W : Type}

/-- Nothing is queued. -/
def start (protocolVersion : Nat) (stream : W) : ClientWrites W where
  outbound := .new protocolVersion
  metrics := ⟨0, 0⟩
  events := []
  stream := stream
  failed := false
  queued := []
  reported := []

/-- What a step does; a failed pump is the last. -/
def step (transport : Transport W) (writes : ClientWrites W) : WriteStep W → Option (ClientWrites W)
  | .queue request => some { writes with
      outbound := writes.outbound.push request
      queued := writes.queued ++ [request] }
  | .pump budget =>
    if writes.failed then none
    else
      let pumped := writes.outbound.pump transport budget writes.metrics writes.events writes.stream
      some { writes with
        outbound := { writes.outbound with frames := pumped.frames }
        metrics := pumped.metrics
        events := pumped.events
        stream := pumped.stream
        failed := !(pumped.result matches .ok ())
        reported := writes.reported ++ pumped.events.drop writes.events.length }
  | .elsewhere events stream => some { writes with events := events, stream := stream }

end ClientWrites

end FesTerm
