import FesTerm.Lib.Channel
import FesTerm.Sessiond.Protocol

/-!
# The daemon's loop for one client

`client_io_loop`: the thread that the daemon starts for a client. It writes the recovery snapshot, reads
the commands of the client into the daemon's input queue, and writes the outputs that the daemon has
queued for it, until the client is gone or another one has taken its place.

The loop is cut where it touches what it shares with others: the takeover flag, the clock, the two
queues and the stream. Each such access is a step; what it found is the step's `IoAnswer`, and
everything up to the next access is part of the step. An answer that does not fit is no step.
-/

namespace FesTerm

open Checked

/-- `ClientInput`: a command with the generation of the client that sent it. -/
structure ClientInput where
  generation : Nat
  command : ClientCommand
  deriving DecidableEq

def clientQueueCapacity : Nat := 64

/-- What an access to something shared found. -/
inductive IoAnswer where
  /-- A load of `stolen`. -/
  | flag (raised : Bool)
  /-- A look at the clock: whether the deadline has passed. -/
  | clock (expired : Bool)
  | sent (result : TrySend)
  | received (result : TryRecv ClientOutput)
  /-- A `write`, which takes some of the bytes that it is offered. -/
  | wrote (result : Except IoError Nat)
  | flushed (result : Except IoError Unit)
  /-- A `read`, which returns no bytes at the end of the stream. -/
  | read (bytes : Except IoError (List UInt8))
  /-- The step touches nothing that is shared. -/
  | silent
  deriving DecidableEq

/-- Where the loop stands: the access that is next. -/
inductive IoPoint where
  /-- The head of `'client`. -/
  | top
  | deadline
  /-- The head of the loop over the commands, and its round once the flag was seen clear. -/
  | commands
  | command
  /-- `adoption.send`. -/
  | adopt
  | submit (input : ClientInput)
  /-- The head of a round of the loop over the outputs, and `output.try_recv` in it. -/
  | outputs (round : Nat)
  | poll (round : Nat)
  /-- `write_to_client`: the flag, then the stream, then the flush. -/
  | writeCheck (round budget : Nat)
  | write (round budget : Nat)
  | flush (round : Nat)
  | read
  /-- `finish_disconnected_client`. -/
  | disconnected
  /-- `write_stolen_notice`. -/
  | notice
  | noticeFlush
  /-- The function returns; then its ends of the queues are dropped; then the thread is finished. -/
  | returning (result : Except IoError Unit)
  | released (result : Except IoError Unit)
  | finished (result : Except IoError Unit)
  /-- An index or a subtraction failed. -/
  | panicked
  deriving DecidableEq

structure IoLoop where
  generation : Nat
  parser : ClientFrameParser
  pendingInput : Option ClientInput
  /-- The bytes in progress, and how many of them are written. -/
  pendingOutput : Option (List UInt8 × Nat)
  recoveryAdopted : Bool
  /-- The loop still holds the sender of the adoption channel. -/
  adoption : Bool
  point : IoPoint
  /-- How much of the takeover notice is written. -/
  noticed : Nat
  /-- History: all bytes read, all bytes written before the notice, and all outputs taken. -/
  received : List UInt8
  sent : List UInt8
  taken : List ClientOutput
  deriving DecidableEq

namespace IoLoop

/-- The state before the loop. -/
def start (generation : Nat) (recovery : List UInt8) : IoLoop where
  generation := generation
  parser := .default
  pendingInput := none
  pendingOutput := if recovery.isEmpty then none else some (recovery, 0)
  recoveryAdopted := recovery.isEmpty
  adoption := true
  point := .top
  noticed := 0
  received := []
  sent := []
  taken := []

def stream (loop : IoLoop) : List UInt8 := loop.sent ++ encodeServerStolenFrame.take loop.noticed

def goto (loop : IoLoop) (point : IoPoint) : IoLoop := { loop with point := point }

def fail (loop : IoLoop) (error : IoError) : IoLoop := loop.goto (.returning (.error error))

def earlyAdoption : IoError := ⟨.invalidData, "recovery acknowledged before snapshot delivery"⟩

def earlyCommand : IoError :=
  ⟨.invalidData, "session client sent commands before adopting recovery state"⟩

/-- A command on its way to the daemon; before the adoption only the acknowledgement is accepted. -/
def dispatch (loop : IoLoop) (input : ClientInput) : IoLoop :=
  if loop.recoveryAdopted then loop.goto (.submit input)
  else match input.command with
    | .recoveryAdopted =>
      if loop.pendingOutput.isSome then loop.fail earlyAdoption
      else if loop.adoption then { loop with recoveryAdopted := true, adoption := false }.goto .adopt
      else { loop with recoveryAdopted := true }.goto .commands
    | _ => loop.fail earlyCommand

section

variable [Bincode]

/-- The command that was held back, or the next one of the parser. -/
def nextInput (loop : IoLoop) : IoLoop :=
  match loop.pendingInput with
  | some input => { loop with pendingInput := none }.dispatch input
  | none =>
    match loop.parser.nextCommand with
    | none => loop.goto .panicked
    | some (parser, .error error) => { loop with parser := parser }.fail error
    | some (parser, .ok none) => { loop with parser := parser }.goto (.outputs 0)
    | some (parser, .ok (some command)) =>
      { loop with parser := parser }.dispatch ⟨loop.generation, command⟩

end

def afterOutputs (loop : IoLoop) : IoLoop :=
  loop.goto (if loop.pendingInput.isSome then .top else .read)

def nextRound (loop : IoLoop) (round : Nat) : IoLoop :=
  if round + 1 < clientQueueCapacity then loop.goto (.outputs (round + 1)) else loop.afterOutputs

/-- The head of the loop of `write_to_client`. -/
def continueWrite (loop : IoLoop) (round budget : Nat) : IoLoop :=
  match loop.pendingOutput with
  | none => loop.afterOutputs
  | some (data, written) =>
    if written < data.length then
      if budget = 0 then loop.afterOutputs else loop.goto (.writeCheck round budget)
    else loop.goto (.flush round)

/-- A round over the outputs, once the flag was seen clear. -/
def beginRound (loop : IoLoop) (round : Nat) : IoLoop :=
  if loop.recoveryAdopted ∧ loop.pendingOutput.isNone then loop.goto (.poll round)
  else loop.continueWrite round maxFrameBytes

def takeOutput (loop : IoLoop) (output : ClientOutput) : IoLoop :=
  { loop with pendingOutput := some (output.frame, 0), taken := loop.taken ++ [output] }

/-- Bytes of the output in progress went out. -/
def advance (loop : IoLoop) (data : List UInt8) (written count : Nat) : IoLoop :=
  { loop with
    pendingOutput := some (data, written + count)
    sent := loop.sent ++ (data.drop written).take count }

def writeZero : IoError := ⟨.writeZero, "session client accepted no bytes"⟩

/-- What `write` returned for at most `budget` of the bytes that are left. -/
def afterWrite (loop : IoLoop) (round budget : Nat) (result : Except IoError Nat) : Option IoLoop :=
  match loop.pendingOutput with
  | none => none
  | some (data, written) =>
    match result with
    | .ok count =>
      if count = 0 then some (loop.fail writeZero)
      else if count ≤ min budget (data.length - written) then
        some ((loop.advance data written count).continueWrite round (budget - count))
      else none
    | .error error => some (if error.isRetryable then loop.afterOutputs else loop.fail error)

def afterFlush (loop : IoLoop) (round : Nat) : Except IoError Unit → IoLoop
  | .ok () => { loop with pendingOutput := none }.nextRound round
  | .error error =>
    if error.isRetryable then { loop with pendingOutput := none }.nextRound round else loop.fail error

/-- A read into as much of the buffer as the parser has room for. -/
def afterRead (loop : IoLoop) : Except IoError (List UInt8) → Option IoLoop
  | .ok bytes =>
    match loop.parser.readLimit with
    | none => some (loop.goto .panicked)
    | some limit =>
      if limit < bytes.length then none
      else if bytes.isEmpty then some (loop.goto (.returning (.ok ())))
      else
        let loop := { loop with received := loop.received ++ bytes }
        match loop.parser.push bytes with
        | .error error => some (loop.fail error)
        | .ok parser => some ({ loop with parser := parser }.goto .top)
  | .error error =>
    some (if error.isRetryable then loop.goto .top else loop.fail error)

def noticeRefused : IoError := ⟨.writeZero, "failed to write whole buffer"⟩

/-- A round of `write_all` with the notice. -/
def afterNotice (loop : IoLoop) : Except IoError Nat → Option IoLoop
  | .ok count =>
    let size := encodeServerStolenFrame.length
    if count = 0 then some (loop.fail noticeRefused)
    else if loop.noticed + count ≤ size then
      some ({ loop with noticed := loop.noticed + count }.goto
        (if loop.noticed + count < size then .notice else .noticeFlush))
    else none
  | .error error => some (if error.kind = .interrupted then loop else loop.fail error)

variable [Bincode]

def step (loop : IoLoop) (answer : IoAnswer) : Option IoLoop :=
  match loop.point, answer with
  | .top, .flag raised => some (loop.goto (if raised then .notice else .deadline))
  | .deadline, .clock expired => some
    (if !loop.recoveryAdopted ∧ expired then loop.fail ⟨.timedOut, "recovery adoption timed out"⟩
    else loop.goto .commands)
  | .commands, .flag raised => some (loop.goto (if raised then .top else .command))
  | .command, .silent => some loop.nextInput
  | .adopt, .sent .sent => some (loop.goto .commands)
  | .adopt, .sent .disconnected => some (loop.fail ⟨.brokenPipe, "recovery candidate cancelled"⟩)
  | .submit _, .sent .sent => some (loop.goto .commands)
  | .submit input, .sent .full => some ({ loop with pendingInput := some input }.goto (.outputs 0))
  | .submit _, .sent .disconnected => some (loop.goto .disconnected)
  | .outputs round, .flag raised => some (if raised then loop.goto .top else loop.beginRound round)
  | .poll round, .received (.item output) =>
    some ((loop.takeOutput output).continueWrite round maxFrameBytes)
  | .poll _, .received .empty => some loop.afterOutputs
  | .poll _, .received .disconnected => some (loop.goto .disconnected)
  | .writeCheck round budget, .flag raised =>
    some (if raised then loop.afterOutputs else loop.goto (.write round budget))
  | .write round budget, .wrote result => loop.afterWrite round budget result
  | .flush round, .flushed result => some (loop.afterFlush round result)
  | .read, .read result => loop.afterRead result
  | .disconnected, .flag raised => some (loop.goto (if raised then .notice else .returning (.ok ())))
  | .notice, .wrote result => loop.afterNotice result
  | .noticeFlush, .flushed result => some (loop.goto (.returning result))
  | .returning result, .silent => some ({ loop with adoption := false }.goto (.released result))
  | .released result, .silent => some (loop.goto (.finished result))
  | _, _ => none

end IoLoop

end FesTerm
