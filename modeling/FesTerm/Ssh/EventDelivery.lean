import FesTerm.Ssh.Transfer

/-!
# Event delivery of the transfer worker

The worker awaits room in the bounded event channel between two copies. During a copy it must not wait,
so it keeps a buffer of pending events there, tries to send them, and replaces a pending progress by a
newer one. The consumer may receive between any two operations on the channel.

What the rest of the worker does is free: which events it emits, which files it copies, how often the copy
calls back and which commands are waiting then. Only, the progress reported during a copy is of the
transfer that is copied, and some event is emitted between the end of a copy and the start of the next.
-/

namespace FesTerm.Ssh

def transferCommandQueueCapacity : Nat := 64
def transferCallbackEventBufferCapacity : Nat := transferCommandQueueCapacity + 1

/-- What follows a flush of the pending events. -/
inductive AfterFlush where
  /-- `drain_commands_during_copy` goes on with the commands. -/
  | drain
  /-- `emit_progress` goes on with its event. -/
  | progress (event : SftpTransferEvent)
  deriving DecidableEq

inductive WorkerPoint where
  /-- No copy is under way, and an event was emitted since the last one. -/
  | idle
  /-- In `emit_event`: the pending events are sent first, then this one. -/
  | emitting (event : SftpTransferEvent)
  /-- In `copy_file`, not in the callback. -/
  | copying (transferId : SftpTransferId)
  /-- In the loop of `flush_pending_events_nonblocking`. -/
  | flushing (transferId : SftpTransferId) (after : AfterFlush)
  /-- In the loop over the commands, with so many rounds left. -/
  | draining (transferId : SftpTransferId) (rounds : Nat)
  /-- The commands are drained; the cancellation is looked at. -/
  | drained (transferId : SftpTransferId)
  /-- `emit_progress` has flushed. -/
  | offering (transferId : SftpTransferId) (event : SftpTransferEvent)
  /-- The copy has returned. -/
  | copied
  deriving DecidableEq

def AfterFlush.point (transferId : SftpTransferId) : AfterFlush → WorkerPoint
  | .drain => .draining transferId transferCommandQueueCapacity
  | .progress event => .offering transferId event

/-- The channel, the buffer of the callbacks and the worker. -/
structure EventDelivery where
  capacity : Nat
  positive : 0 < capacity
  channel : List SftpTransferEvent
  received : List SftpTransferEvent
  pending : List SftpTransferEvent
  point : WorkerPoint
  /-- The events in the order in which the worker made them. -/
  produced : List SftpTransferEvent
  /-- Every debug assertion so far was true. -/
  asserted : Bool

/-- A step of the worker or of the consumer. -/
inductive DeliveryAction where
  /-- The consumer receives. -/
  | receive
  /-- `emit_event` is called. -/
  | emit (event : SftpTransferEvent)
  /-- A send of `emit_event` is done. -/
  | send
  | startCopy (transferId : SftpTransferId)
  /-- The copy calls back. -/
  | callBack
  /-- One round of the flush. -/
  | flush
  /-- A command is received and applied; one that queues a batch makes an event. -/
  | command (batch : Option (SftpTransferBatchId × List SftpTransferId))
  /-- The loop over the commands ends. -/
  | endCommands
  /-- The transfer was cancelled, so the callback interrupts the copy. -/
  | interrupt
  | progress (batchId : SftpTransferBatchId) (currentPath : SftpPath) (bytesTransferred : Nat)
    (totalBytes : Option Nat)
  /-- The end of `emit_progress`. -/
  | offer
  | endCopy
  deriving DecidableEq

namespace EventDelivery

/-- Nothing is on its way. -/
def start (capacity : Nat) (positive : 0 < capacity) : EventDelivery where
  capacity := capacity
  positive := positive
  channel := []
  received := []
  pending := []
  point := .idle
  produced := []
  asserted := true

def hasRoom (delivery : EventDelivery) : Bool := delivery.channel.length < delivery.capacity

def deliver (delivery : EventDelivery) (event : SftpTransferEvent) : EventDelivery :=
  { delivery with channel := delivery.channel ++ [event] }

def receive (delivery : EventDelivery) : Option EventDelivery :=
  match delivery.channel with
  | [] => none
  | event :: channel => some { delivery with channel, received := delivery.received ++ [event] }

/-- One send of `emit_event`, which waits for room. -/
def send (delivery : EventDelivery) (event : SftpTransferEvent) : Option EventDelivery :=
  if delivery.hasRoom then
    match delivery.pending with
    | first :: pending => some { delivery.deliver first with pending }
    | [] => some { delivery.deliver event with point := .idle }
  else none

/-- One round of `flush_pending_events_nonblocking`. -/
def flush (delivery : EventDelivery) (transferId : SftpTransferId) (after : AfterFlush) : EventDelivery :=
  match delivery.pending with
  | [] => { delivery with point := after.point transferId }
  | first :: pending =>
    if delivery.hasRoom then { delivery.deliver first with pending }
    else { delivery with point := after.point transferId }

/-- One round of the loop over the commands. It is left early where the buffer is nearly full. -/
def command (delivery : EventDelivery) (transferId : SftpTransferId) (rounds : Nat)
    (batch : Option (SftpTransferBatchId × List SftpTransferId)) : Option EventDelivery :=
  if delivery.pending.length ≥ transferCallbackEventBufferCapacity - 1 then none
  else
    match rounds, batch with
    | 0, _ => none
    | rounds + 1, none => some { delivery with point := .draining transferId rounds }
    | rounds + 1, some (batchId, transferIds) =>
      let event := .batchQueued batchId transferIds
      some { delivery with
        point := .draining transferId rounds
        pending := delivery.pending ++ [event]
        produced := delivery.produced ++ [event] }

def endsInProgress (delivery : EventDelivery) : Bool :=
  match delivery.pending.getLast? with
  | some event => event.isProgress
  | none => false

/-- `emit_progress` after the flush. -/
def offer (delivery : EventDelivery) (transferId : SftpTransferId) (event : SftpTransferEvent) :
    EventDelivery :=
  let delivery := { delivery with point := .copying transferId }
  if delivery.endsInProgress then { delivery with pending := delivery.pending.dropLast ++ [event] }
  else if delivery.hasRoom then delivery.deliver event
  else
    { delivery with
      asserted := delivery.asserted && delivery.pending.length < transferCallbackEventBufferCapacity
      pending := delivery.pending ++ [event] }

/-- What an action does; none where it is not due. -/
def step (delivery : EventDelivery) (action : DeliveryAction) : Option EventDelivery :=
  match action, delivery.point with
  | .receive, _ => delivery.receive
  | .emit event, .idle | .emit event, .copied =>
    if event.isProgress then none
    else some { delivery with point := .emitting event, produced := delivery.produced ++ [event] }
  | .send, .emitting event => delivery.send event
  | .startCopy transferId, .idle => some { delivery with point := .copying transferId }
  | .callBack, .copying transferId => some { delivery with point := .flushing transferId .drain }
  | .flush, .flushing transferId after => some (delivery.flush transferId after)
  | .command batch, .draining transferId rounds => delivery.command transferId rounds batch
  | .endCommands, .draining transferId _ => some { delivery with point := .drained transferId }
  | .interrupt, .drained transferId => some { delivery with point := .copying transferId }
  | .progress batchId currentPath bytesTransferred totalBytes, .drained transferId =>
    let event := .itemProgress batchId transferId currentPath bytesTransferred totalBytes
    some { delivery with
      point := .flushing transferId (.progress event), produced := delivery.produced ++ [event] }
  | .offer, .offering transferId event => some (delivery.offer transferId event)
  | .endCopy, .copying _ => some { delivery with point := .copied }
  | _, _ => none

/-- The event in the hands of a call that has not passed it on yet. -/
def inHand (delivery : EventDelivery) : List SftpTransferEvent :=
  match delivery.point with
  | .emitting event | .flushing _ (.progress event) | .offering _ event => [event]
  | _ => []

def underway (delivery : EventDelivery) : List SftpTransferEvent :=
  delivery.channel ++ delivery.pending ++ delivery.inHand

/-- The send that passes the buffered events. -/
def overtakes (delivery : EventDelivery) (action : DeliveryAction) : Bool :=
  action = .offer && !delivery.pending.isEmpty && !delivery.endsInProgress && delivery.hasRoom

end EventDelivery

/-- The events with some progress left out: each progress that is left out is directly followed by a
newer one of the same transfer, which is delivered or left out for the same reason. -/
inductive Coalesced : List SftpTransferEvent → List SftpTransferEvent → Prop
  | nil : Coalesced [] []
  | deliver {event : SftpTransferEvent} {produced delivered : List SftpTransferEvent}
    (hrest : Coalesced produced delivered) : Coalesced (event :: produced) (event :: delivered)
  | leaveOut {transferId old new : Nat} {event newer : SftpTransferEvent}
    {produced delivered : List SftpTransferEvent} (hold : event.progress = some (transferId, old))
    (hnew : newer.progress = some (transferId, new)) (hrest : Coalesced (newer :: produced) delivered) :
    Coalesced (event :: newer :: produced) delivered

def reportedBytes (transferId : SftpTransferId) (events : List SftpTransferEvent) : List Nat :=
  events.filterMap fun event => (event.progress.filter (·.1 = transferId)).map Prod.snd

/-- Received is what was produced, in order, but for progress that newer progress replaced. -/
structure DeliversInOrder (delivery : EventDelivery) : Prop where
  coalesced : Coalesced delivery.produced (delivery.received ++ delivery.underway)
  /-- Outside of a copy everything that is on its way is in the channel or in the hands of `emit_event`. -/
  settled : delivery.point = .idle → delivery.underway = delivery.channel
  inOrder : delivery.received.Sublist delivery.produced
  lifecycle : (delivery.received.filter (!·.isProgress)).IsPrefix (delivery.produced.filter (!·.isProgress))
  neverBackwards (transferId : SftpTransferId) : (reportedBytes transferId delivery.produced).Pairwise (· ≤ ·) →
    (reportedBytes transferId delivery.received).Pairwise (· ≤ ·)
  bounded : delivery.pending.length ≤ transferCallbackEventBufferCapacity
  asserted : delivery.asserted = true

end FesTerm.Ssh
