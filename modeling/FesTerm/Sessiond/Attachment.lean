import FesTerm.Sessiond.ClientLoop
import FesTerm.Sessiond.ClientWorker

/-!
# An attached client

A client session and the daemon's loop for it, with the bytes that are under way between them. Any step
of either side may come next. What else the daemon does (the takeover flag, its queues, the clock) is
left to the answers that its loop gets.
-/

namespace FesTerm

/-- Client and daemon, with the bytes between them. -/
structure Attachment where
  client : ClientSession
  daemon : IoLoop
  toDaemon : List UInt8
  toClient : List UInt8

/-- A step of one side. -/
inductive AttachmentStep where
  | client (step : SessionStep)
  | daemon (answer : IoAnswer)

namespace Attachment

/-- A connection on which the daemon is about to send the snapshot. -/
def start (protocolVersion snapshotSchemaVersion generation : Nat) (recovery : List UInt8) : Attachment where
  client := .start protocolVersion snapshotSchemaVersion
  daemon := .start generation recovery
  toDaemon := []
  toClient := []

/-- What a read leaves under way; the bytes are the first of them. -/
def takeBytes (underWay : List UInt8) : Except IoError (List UInt8) → Option (List UInt8)
  | .ok bytes => if bytes <+: underWay then some (underWay.drop bytes.length) else none
  | .error _ => some underWay

def leftByClient (underWay : List UInt8) : SessionStep → Option (List UInt8)
  | .read bytes => takeBytes underWay bytes
  | _ => some underWay

def leftByDaemon (underWay : List UInt8) : IoAnswer → Option (List UInt8)
  | .read bytes => takeBytes underWay bytes
  | _ => some underWay

section

variable [Platform] [RecoveryCodec] [Bincode]

/-- What a step does; a side reads only what the other has written. -/
def step (attachment : Attachment) : AttachmentStep → Option Attachment
  | .client step => do
    let client ← attachment.client.step step
    let toClient ← leftByClient attachment.toClient step
    some { attachment with
      client := client
      toClient := toClient
      toDaemon := attachment.toDaemon ++ client.sent.drop attachment.client.sent.length }
  | .daemon answer => do
    let daemon ← attachment.daemon.step answer
    let toDaemon ← leftByDaemon attachment.toDaemon answer
    some { attachment with
      daemon := daemon
      toDaemon := toDaemon
      toClient := attachment.toClient ++ daemon.stream.drop attachment.daemon.stream.length }

def run (attachment : Attachment) (steps : List AttachmentStep) : Option Attachment :=
  steps.foldlM step attachment

end

section

variable [Bincode]

/-- The client speaks the protocol in order, after a snapshot `recovery`. -/
structure InOrder (recovery : List UInt8) (attachment : Attachment) : Prop where
  /-- What is written is the acknowledgement and then the accepted commands in their order. -/
  ordered : attachment.client.sent <+:
    (encodeFrame frameRecoveryAdopted [] :: commandFrames attachment.client.accepted).flatten
  /-- Once the acknowledgement is queued, what is not written yet is under way or in the queue. -/
  kept : attachment.client.adoptionSent →
    attachment.client.sent ++ attachment.client.unwritten ++
        (commandFrames attachment.client.commands.items).flatten =
      (encodeFrame frameRecoveryAdopted [] :: commandFrames attachment.client.accepted).flatten
  /-- Nothing is written before the snapshot is read as a whole and acknowledged; it is the snapshot of
  the daemon, unless the daemon has broken it off with the takeover notice. -/
  after : attachment.client.sent ≠ [] →
    preludeMissing attachment.client.prelude = .ok 0 ∧ attachment.client.acknowledged ∧
      (attachment.daemon.noticed = 0 → attachment.client.prelude = recovery)
  /-- Whenever the daemon looks at the next command, it does not reject the client. -/
  welcome : attachment.daemon.point = .command → ∀ daemon, attachment.daemon.step .silent = some daemon →
    ∀ error, daemon.point ≠ .returning (.error error)

end

/-- A command other than a shutdown is offered to the queue between the test that found the adoption
not yet acknowledged and the end of the loop over the commands that follows it. -/
def Overtakes (attachment : Attachment) (step : AttachmentStep) : Prop :=
  ∃ index command, step = .client (.offer index) ∧ attachment.client.calls[index]? = some command ∧
    command ≠ .shutdown ∧ attachment.client.point = .drain ∧ attachment.client.adoptionSent = false

end Attachment

end FesTerm
