import FesTerm.Lib.Dialogue
import FesTerm.Sftp.Model

/-!
# Uploading a file

The data is written to a temporary file next to the target, by write requests whose replies may come in
any order. The temporary file is renamed once all of it is there. Progress reports are left out.
-/

namespace FesTerm

structure SourceMetadata where
  length : Nat
  modified : Option Int

/-- What a read into a buffer with some space gives; no bytes at the end of the file. -/
inductive LocalRead (space : Nat) where
  | cancelled
  | failed (error : FileError)
  | read (bytes : List UInt8) (within : bytes.length ≤ space)

inductive JoinedWrite where
  | cancelled
  | joinFailed
  | finished (length : Nat) (result : Except RawError Unit)

/-- The random bytes that a temporary file is named by. -/
structure NameSeed where
  bytes : List UInt8
  eight : bytes.length = 8

/-- A reply that the session hands on as a whole packet. -/
inductive Packet where
  | status (code : StatusCode)
  | other

/-- What an upload asks of the server, the queue and the local file. -/
inductive UploadQuestion where
  | openSource (relative : FilePath)
  /-- Whether the client was closed. -/
  | closed
  | lstat (path : FilePath)
  | stat (path : FilePath)
  | readlink (path : FilePath)
  | policyFor (conflict : Conflict)
  | random
  /-- The temporary file is created, exclusively. -/
  | openTemp (path : FilePath)
  | readLocal (space : Nat)
  /-- A task is spawned that sends a write request. -/
  | spawnWrite (offset : Nat) (bytes : List UInt8)
  /-- Some write task ends, unless the transfer is cancelled first. -/
  | joinWrite
  | abortWrites
  | close
  | setstat (path : FilePath) (seconds : Nat)
  | posixRename (source target : FilePath)
  | rename (source target : FilePath)
  | remove (path : FilePath)
  /-- The transfer is marked with a temporary file that could not be removed. -/
  | leftoverRemoteTemp (path : FilePath)

@[reducible] def UploadReply : UploadQuestion → Type
  | .openSource _ => Except SftpError SourceMetadata
  | .closed => Bool
  | .lstat _ | .stat _ => Except RawError FileAttributes
  | .policyFor _ => Except SftpError ConflictPolicy
  | .random => NameSeed
  | .readLocal space => LocalRead space
  | .joinWrite => JoinedWrite
  | .posixRename _ _ => Except RawError Packet
  | .openTemp _ | .close | .setstat _ _ | .rename _ _ | .remove _ => Except RawError Unit
  | .readlink _ | .spawnWrite _ _ | .abortWrites | .leftoverRemoteTemp _ => Unit

abbrev Uploading := ExceptT SftpError (Dialogue UploadQuestion UploadReply)

namespace Uploading

def ask (question : UploadQuestion) : Uploading (UploadReply question) := ExceptT.lift (.question question)

end Uploading

open Uploading Dialogue

/-- Reads until the buffer holds a chunk or the file is at its end. -/
def fillBuffer (chunk : Nat) (buffer : List UInt8) : Uploading (List UInt8) :=
  if _ : buffer.length < chunk then do
    match ← ask (.readLocal (chunk - buffer.length)) with
    | .cancelled => throw .cancelled
    | .failed error => throw (.fromIo error "read local file")
    | .read bytes _ => if _ : bytes = [] then return buffer else fillBuffer chunk (buffer ++ bytes)
  else return buffer
termination_by chunk - buffer.length
decreasing_by
  have := List.length_pos_iff.mpr ‹bytes ≠ []›
  rw [List.length_append]
  omega

/-- Awaits one write task; the set of them is not empty where this is called. -/
def reapWrite (acknowledged : Nat) : Uploading Nat := do
  match ← ask .joinWrite with
  | .cancelled => throw .cancelled
  | .finished length (.ok ()) => return acknowledged + length
  | .finished _ (.error error) => throw (.fromRemote error "write remote file")
  | .joinFailed => throw (.disconnected "write task failed")

def reapWrites : Nat → Nat → Uploading Nat
  | 0, acknowledged => return acknowledged
  | count + 1, acknowledged => do reapWrites count (← reapWrite acknowledged)

/-- The loop of `write_loop`, up to the bytes that were sent and those that were acknowledged. -/
def writeChunks (config : TransferConfig) (total offset inFlight acknowledged : Nat) :
    Uploading (Nat × Nat) := do
  let buffer ← fillBuffer config.chunkSize []
  if _ : buffer = [] then
    return (offset, ← reapWrites inFlight acknowledged)
  else if _ : offset + buffer.length > total then
    throw (.io "local file grew during upload")
  else
    -- The window is kept: as many tasks are awaited as leave room for one more.
    let reaped := inFlight + 1 - config.window
    let acknowledged ← reapWrites reaped acknowledged
    ask (.spawnWrite offset buffer)
    writeChunks config total (offset + buffer.length) (inFlight - reaped + 1) acknowledged
termination_by total - offset
decreasing_by
  have := List.length_pos_iff.mpr ‹buffer ≠ []›
  omega

def writeLoop (config : TransferConfig) (total : Nat) : Uploading Unit := do
  let result ← attempt (writeChunks config total 0 0 0)
  ask .abortWrites
  let (offset, _) ← liftExcept result
  if offset ≠ total then
    throw (.io "local file changed during upload")

/-- The attributes of the entry itself, or none if it does not exist. -/
def lstat (path : FilePath) : Uploading (Option FileAttributes) := do
  match ← ask (.lstat path) with
  | .ok attributes => return some attributes
  | .error (.status .noSuchFile _) => return none
  | .error error => throw (.fromRemote error path.text)

def statEntry (path : FilePath) : Uploading Entry := do
  let path ← liftExcept path.normalizeRemote
  match ← lstat path with
  | none => throw (.notFound path.text)
  | some attributes =>
    let entry := Entry.fromAttrs attributes
    if entry.kind = .symlink then
      ask (.readlink path)
      match ← ask (.stat path) with
      | .ok followed =>
        return { entry with
          size := followed.size
          modified := followed.mtime.map Int.ofNat
          symlink := some (some (modeKind followed.permissions)) }
      | .error _ => return { entry with symlink := some none }
    else return entry

def remoteExisting (path : FilePath) : Uploading (Option Entry) := do
  match ← attempt (statEntry path) with
  | .ok entry => return some entry
  | .error (.notFound _) => return none
  | .error error => throw error

def renameNoReplace (source target : FilePath) : Uploading Unit := do
  let source ← liftExcept source.normalizeRemote
  let target ← liftExcept target.normalizeRemote
  let _ ← liftExcept target.fileNameRemote
  if (← lstat target).isSome then
    throw (.alreadyExists target.text)
  match ← ask (.rename source target) with
  | .ok () => return ()
  | .error error =>
    -- Some servers refuse to overwrite and report a generic failure.
    match ← attempt (lstat target) with
    | .ok (some _) => throw (.alreadyExists target.text)
    | _ => throw (.fromRemote error source.text)

/-- The rename of a server without an atomic one: what is there is removed first. -/
def renameFallback (source target : FilePath) : Uploading Unit := do
  if let some existing ← lstat target then
    if modeKind existing.permissions = .directory then
      throw (.isADirectory target.text)
    if let .error error ← ask (.remove target) then
      throw (.fromRemote error target.text)
  match ← ask (.rename source target) with
  | .ok () => return ()
  | .error error => throw (.fromRemote error source.text)

def renameReplace (source target : FilePath) : Uploading Unit := do
  match ← ask (.posixRename source target) with
  | .ok (.status .ok) => return ()
  | .error (.status _ _) => renameFallback source target
  | .ok _ | .error _ => throw (.disconnected "posix-rename failed")

def removeFile (path : FilePath) : Uploading Unit := do
  match ← ask (.remove path) with
  | .ok () => return ()
  | .error error => throw (.fromRemote error path.text)

inductive Commit where
  /-- Atomically replace whatever is there. -/
  | replace
  /-- Never clobber; with `retryNumbered` the next numbered name is taken on a collision. -/
  | noClobber (retryNumbered : Bool)

/-- A rename to the name with a number, or to the name itself at first; what comes next if it is taken. -/
def commitAttempt (temp remoteDir base : FilePath) (attempted : Nat) (next : Option (Uploading FilePath)) :
    Uploading FilePath := do
  let candidate := if attempted = 0 then base else base.keepBothName attempted
  let target ← liftExcept (remoteDir.joinRemote candidate)
  match ← attempt (renameNoReplace temp target) with
  | .ok () => return candidate
  | .error (.alreadyExists message) => next.getD (throw (.alreadyExists message))
  | .error error => throw error

/-- The loop over the names, with the attempts that are left after the next one. -/
def commitNoClobber (temp remoteDir base : FilePath) (retryNumbered : Bool) : Nat → Uploading FilePath
  | 0 => commitAttempt temp remoteDir base maxKeepBothAttempts none
  | left + 1 =>
    commitAttempt temp remoteDir base (maxKeepBothAttempts - (left + 1))
      (if retryNumbered then some (commitNoClobber temp remoteDir base retryNumbered left) else none)

/-- The rename that ends `finish_upload`. -/
def commitUpload (temp remoteDir name : FilePath) : Commit → Uploading FilePath
  | .replace => do
    renameReplace temp (← liftExcept (remoteDir.joinRemote name))
    return name
  | .noClobber retryNumbered => commitNoClobber temp remoteDir name retryNumbered maxKeepBothAttempts

def finishUpload (temp remoteDir name : FilePath) (modified : Option Int) (commit : Commit) :
    Uploading FilePath := do
  if let some modified := modified then
    -- Cosmetic: the server may refuse.
    if 0 ≤ modified ∧ modified < 2 ^ 32 then
      let _ ← ask (.setstat temp modified.toNat)
  commitUpload temp remoteDir name commit

/-- How an upload ends that did not fail. -/
inductive Outcome where
  | done (name : FilePath)
  | skipped

/-- The first name with a number that is free. -/
def suggestName (remoteDir name : FilePath) : List Nat → Uploading FilePath
  | [] => throw (.limitExceeded "no free keep-both name")
  | number :: numbers => do
    let candidate := name.keepBothName number
    let path ← liftExcept (remoteDir.joinRemote candidate)
    if (← remoteExisting path).isNone then return candidate
    suggestName remoteDir name numbers

/-- What to do about a target that exists: the name and the way to commit under it, unless the transfer
is skipped. -/
def resolveConflict (remoteDir name : FilePath) (incoming : Fingerprint) (existing : Entry) :
    Uploading (Option (FilePath × Commit)) := do
  let suggested ← suggestName remoteDir name (List.range' 1 maxKeepBothAttempts)
  match ← liftExcept (← ask (.policyFor (conflictOf existing incoming suggested))) with
  | .skip => return none
  | .replace =>
    if existing.isDir then
      throw (.isADirectory name.text)
    return some (name, .replace)
  | .keepBoth => return some (suggested, .noClobber true)

/-- The name of a temporary file. -/
@[irreducible] def tempName (random : NameSeed) : FilePath :=
  let hexDigit (digit : Nat) : Char := "0123456789abcdef".toList.getD digit '0'
  let hex := random.bytes.flatMap fun byte => [hexDigit (byte.toNat / 16), hexDigit (byte.toNat % 16)]
  partialPrefix ++ hex ++ partialSuffix

/-- The part of `upload` that a failure is cleaned up after: the data is written and committed. -/
def sendAndCommit (config : TransferConfig) (total : Nat) (modified : Option Int)
    (temp remoteDir name : FilePath) (commit : Commit) : Uploading FilePath := do
  let sent ← attempt (writeLoop config total)
  let closed ← ask .close
  match sent, closed with
  | .ok (), .ok () => finishUpload temp remoteDir name modified commit
  | .error error, _ => throw error
  | .ok (), .error error => throw (.fromRemote error "close remote file")

def transmit (config : TransferConfig) (total : Nat) (modified : Option Int) (remoteDir name : FilePath)
    (commit : Commit) : Uploading Outcome := do
  let temp ← liftExcept (remoteDir.joinRemote (tempName (← ask .random)))
  if let .error error ← ask (.openTemp temp) then
    throw (.fromRemote error temp.text)
  match ← attempt (sendAndCommit config total modified temp remoteDir name commit) with
  | .ok finalName => return .done finalName
  | .error error =>
    if let .error _ ← attempt (removeFile temp) then
      ask (.leftoverRemoteTemp temp)
    throw error

/-- The path that the request names. -/
def uploadTarget (request : TransferRequest) : Except SftpError FilePath := do
  (← request.destinationDir.normalizeRemote).joinRemote (← request.targetName)

/-- `upload`: the checks, the conflict, the transfer and the commit. -/
def upload (config : TransferConfig) (request : TransferRequest) : Uploading Outcome := do
  let remoteDir ← liftExcept request.destinationDir.normalizeRemote
  let name ← liftExcept request.targetName
  let metadata ← liftExcept (← ask (.openSource request.source))
  if metadata.length > config.maxFileSize then
    throw (.limitExceeded "file exceeds the size limit")
  if ← ask .closed then
    throw (.disconnected "client closed")
  let directory ← statEntry remoteDir
  if directory.isDir = false then
    throw (.notADirectory remoteDir.text)
  let target ← liftExcept (remoteDir.joinRemote name)
  match ← remoteExisting target with
  | none => transmit config metadata.length metadata.modified remoteDir name (.noClobber false)
  | some existing =>
    match ← resolveConflict remoteDir name ⟨some metadata.length, metadata.modified⟩ existing with
    | none => return .skipped
    | some (name, commit) => transmit config metadata.length metadata.modified remoteDir name commit

end FesTerm
