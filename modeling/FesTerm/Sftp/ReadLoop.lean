import FesTerm.Lib.Dialogue
import FesTerm.Sftp.Model

/-!
# Reading a remote file

A window of read requests is kept in flight, and their replies are awaited in the order of the requests.
Progress reports are left out.
-/

namespace FesTerm

/-- What the loop asks of its surroundings. -/
inductive ReadQuestion where
  /-- A task is spawned that sends a read request. -/
  | spawnRead (offset length : Nat)
  /-- The reply to the request, unless the transfer is cancelled first. -/
  | awaitRead (offset length : Nat)
  | writeAll (bytes : List UInt8)
  | flush

inductive AwaitedRead where
  | cancelled
  | joinFailed
  | replied (reply : Except RawError (List UInt8))

@[reducible] def ReadReply : ReadQuestion → Type
  | .spawnRead _ _ => Unit
  | .awaitRead _ _ => AwaitedRead
  | .writeAll _ | .flush => Except FileError Unit

abbrev Reading := ExceptT SftpError (Dialogue ReadQuestion ReadReply)

namespace Reading

def ask (question : ReadQuestion) : Reading (ReadReply question) := ExceptT.lift (.question question)

end Reading

/-- The requests in flight with their offsets and lengths, the next to be awaited first. -/
structure ReadPipeline where
  nextRequest : Nat
  inFlight : List (Nat × Nat)
  deriving DecidableEq

namespace ReadPipeline

/-- The length of the next request, unless everything that was announced is requested. -/
def requestLength (total : Option Nat) (chunk nextRequest : Nat) : Option Nat :=
  match total with
  | some total => if nextRequest ≥ total then none else some (min chunk (total - nextRequest))
  | none => some chunk

def push (pipeline : ReadPipeline) (length : Nat) : ReadPipeline where
  nextRequest := pipeline.nextRequest + length
  inFlight := pipeline.inFlight ++ [(pipeline.nextRequest, length)]

/-- Fills the window, which has room for some more requests. -/
def fill (total : Option Nat) (chunk : Nat) : Nat → ReadPipeline → Reading ReadPipeline
  | 0, pipeline => pure pipeline
  | room + 1, pipeline =>
    match requestLength total chunk pipeline.nextRequest with
    | none => pure pipeline
    | some length => do
      Reading.ask (.spawnRead pipeline.nextRequest length)
      fill total chunk room (pipeline.push length)

/-- What is left after `abort_all`, when the requests begin anew at an offset. -/
def restart (offset : Nat) : ReadPipeline := ⟨offset, []⟩

end ReadPipeline

/-- The loop of `read_loop`, up to the number of bytes that were written. -/
def readChunks (config : TransferConfig) (total : Option Nat) (chunk written : Nat)
    (pipeline : ReadPipeline) : Reading Nat := do
  let pipeline ← pipeline.fill total chunk (config.window - pipeline.inFlight.length)
  match pipeline.inFlight with
  | [] => return written
  | (offset, requested) :: inFlight =>
    match ← Reading.ask (.awaitRead offset requested) with
    | .cancelled => throw .cancelled
    | .joinFailed => throw (.disconnected "read task failed")
    | .replied (.ok data) =>
      if _ : data.length = 0 ∨ data.length > requested then
        throw (.remote "invalid read reply")
      else if _ : written + data.length > config.maxFileSize then
        throw (.limitExceeded "file exceeds the size limit")
      else
        match ← Reading.ask (.writeAll data) with
        | .error error => throw (.fromIo error "write local file")
        | .ok () =>
          if data.length < requested then
            -- The server caps reads below the request.
            readChunks config total (min (max data.length 4096) chunk) (written + data.length)
              (.restart (written + data.length))
          else readChunks config total chunk (written + data.length) { pipeline with inFlight := inFlight }
    | .replied (.error error) =>
      match error with
      | .status .eof _ => return written
      | .limited text =>
        if _ : chunk > 4096 then
          readChunks config total (max (chunk / 2) 4096) written (.restart written)
        else throw (.fromRemote (.limited text) "read remote file")
      | error => throw (.fromRemote error "read remote file")
termination_by config.maxFileSize - written + chunk

def readLoop (config : TransferConfig) (total : Option Nat) : Reading Unit := do
  let written ← readChunks config total config.chunkSize 0 (.restart 0)
  if total.any (· ≠ written) then
    throw (.remote "remote file changed or ended early during download")
  match ← Reading.ask .flush with
  | .error error => throw (.fromIo error "flush local file")
  | .ok () => return ()

end FesTerm
