import Mathlib

/-!
# Names, entries and errors of the file transfer engine

Paths and names are lists of characters; bounds on their size count the bytes of their UTF-8 encoding.
-/

namespace FesTerm

/-- Why an operation fails. -/
inductive SftpError where
  | invalidPath (message : String)
  | notFound (message : String)
  | permissionDenied (message : String)
  | alreadyExists (message : String)
  | notADirectory (message : String)
  | isADirectory (message : String)
  | directoryNotEmpty (message : String)
  | symlinkRefused (message : String)
  | disconnected (message : String)
  | timeout (message : String)
  | cancelled
  | limitExceeded (message : String)
  | unsupported (message : String)
  | remote (message : String)
  | io (message : String)
  deriving DecidableEq, Repr

inductive StatusCode where
  | ok
  | eof
  | noSuchFile
  | permissionDenied
  | failure
  | badMessage
  | noConnection
  | connectionLost
  | opUnsupported
  deriving DecidableEq, Repr

/-- An error of the session to the server, with the text that it displays. -/
inductive RawError where
  | status (code : StatusCode) (text : String)
  | timeout (text : String)
  | limited (text : String)
  | other (text : String)
  deriving DecidableEq, Repr

inductive FileErrorKind where
  | notFound
  | permissionDenied
  | alreadyExists
  | notADirectory
  | isADirectory
  | directoryNotEmpty
  | other
  deriving DecidableEq, Repr

/-- An error of the local file system, with the text that it displays. -/
structure FileError where
  kind : FileErrorKind
  text : String
  deriving DecidableEq, Repr

namespace SftpError

def fromIo (error : FileError) (context : String) : SftpError :=
  let message := context ++ ": " ++ error.text
  match error.kind with
  | .notFound => .notFound message
  | .permissionDenied => .permissionDenied message
  | .alreadyExists => .alreadyExists message
  | .notADirectory => .notADirectory message
  | .isADirectory => .isADirectory message
  | .directoryNotEmpty => .directoryNotEmpty message
  | .other => .io message

def fromRemote (error : RawError) (context : String) : SftpError :=
  match error with
  | .status code text =>
    let message := context ++ ": " ++ text
    match code with
    | .noSuchFile => .notFound message
    | .permissionDenied => .permissionDenied message
    | .noConnection | .connectionLost => .disconnected message
    | .opUnsupported => .unsupported message
    | _ => .remote message
  | .timeout text => .timeout (context ++ ": " ++ text)
  | .limited text => .limitExceeded (context ++ ": " ++ text)
  -- Channel closure, dropped senders or unexpected behaviour: the transport is not trusted any more.
  | .other text => .disconnected (context ++ ": " ++ text)

end SftpError

/-- A path, remote or local to the root. -/
abbrev FilePath := List Char

def maxNameBytes : Nat := 255
def maxPathBytes : Nat := 4096
def maxPathDepth : Nat := 128

namespace FilePath

def text (path : FilePath) : String := String.ofList path

def utf8Length (path : FilePath) : Nat := (path.map Char.utf8Size).sum

def isControl (c : Char) : Bool := c.toNat ≤ 0x1f || (0x7f ≤ c.toNat && c.toNat ≤ 0x9f)

def isBidiOrInvisibleControl (c : Char) : Bool :=
  c.toNat == 0x061C || (0x200B ≤ c.toNat && c.toNat ≤ 0x200F) || (0x202A ≤ c.toNat && c.toNat ≤ 0x202E) ||
    (0x2066 ≤ c.toNat && c.toNat ≤ 0x2069) || c.toNat == 0xFEFF

def displayName (name : FilePath) : FilePath :=
  name.map fun c => if isControl c || isBidiOrInvisibleControl c then Char.ofNat 0xFFFD else c

/-- Why a name cannot be used as a single path component, if it cannot. -/
def nameProblem (name : FilePath) : Option String :=
  if name = [] then some "empty name"
  else if name = ['.'] ∨ name = ['.', '.'] then some "dot name"
  else if name.utf8Length > maxNameBytes then some "name too long"
  else if Char.ofNat 0 ∈ name then some "NUL in name"
  else if '/' ∈ name ∨ '\\' ∈ name then some "path separator in name"
  else if name.any isControl then some "control character in name"
  else if name.any isBidiOrInvisibleControl then
    some "bidirectional or invisible control character in name"
  else none

def validateName (name : FilePath) : Except SftpError Unit :=
  match name.nameProblem with
  | none => .ok ()
  | some reason => .error (.invalidPath (reason ++ ": " ++ name.displayName.text))

/-- The components of a path in the sandbox. None of them ascends. -/
def localComponents (relative : FilePath) : Except SftpError (List FilePath) := do
  if relative.utf8Length > maxPathBytes then
    throw (.invalidPath "path too long")
  if relative.head? = some '/' ∧ relative.all (· = '/') then
    return []
  let parts := (relative.splitOn '/').filter fun part => part ≠ [] ∧ part ≠ ['.']
  parts.forM validateName
  if parts.length > maxPathDepth then
    throw (.invalidPath "path too deep")
  return parts

/-- The components, joined again. -/
def normalizeLocal (relative : FilePath) : Except SftpError FilePath := do
  return ['/'].intercalate (← relative.localComponents)

/-- A name inside a directory. -/
def joinLocal (directory name : FilePath) : Except SftpError FilePath := do
  validateName name
  let directory ← directory.normalizeLocal
  return if directory = [] then name else directory ++ '/' :: name

/-- The path without its last component. -/
def parentLocal (path : FilePath) : Option FilePath :=
  match path.localComponents with
  | .ok parts => if parts = [] then none else some (['/'].intercalate parts.dropLast)
  | .error _ => none

/-- What one component does to the components before it. -/
def normalizePart (absolute : Bool) (parts : List FilePath) (part : FilePath) :
    Except SftpError (List FilePath) :=
  if part = [] ∨ part = ['.'] then .ok parts
  else if part = ['.', '.'] then
    if parts = [] ∧ absolute = false then .error (.invalidPath "relative remote path escapes its base")
    else .ok parts.dropLast
  else if part.utf8Length > maxNameBytes then .error (.invalidPath "remote name too long")
  else .ok (parts ++ [part])

/-- The path without dots and empty components. -/
def normalizeRemote (path : FilePath) : Except SftpError FilePath := do
  if path = [] then
    throw (.invalidPath "empty remote path")
  if path.utf8Length > maxPathBytes then
    throw (.invalidPath "remote path too long")
  if Char.ofNat 0 ∈ path then
    throw (.invalidPath "NUL in remote path")
  let absolute := path.head? == some '/'
  let parts ← (path.splitOn '/').foldlM (normalizePart absolute) []
  if parts.length > maxPathDepth then
    throw (.invalidPath "remote path too deep")
  return if absolute then '/' :: ['/'].intercalate parts
    else if parts = [] then ['.'] else ['/'].intercalate parts

/-- A name inside a directory. -/
def joinRemote (directory name : FilePath) : Except SftpError FilePath := do
  validateName name
  let directory ← directory.normalizeRemote
  return if directory.getLast? = some '/' then directory ++ name else directory ++ '/' :: name

def lastComponent (path : FilePath) : FilePath := (path.reverse.takeWhile (· ≠ '/')).reverse

/-- What precedes the last separator, the root before the first one, and the base where there is none. -/
def beforeLast (path : FilePath) : FilePath :=
  let last := path.lastComponent
  if last.length = path.length then ['.']
  else
    let index := path.length - last.length - 1
    if index = 0 then ['/'] else path.take index

/-- The directory of a path; the roots have none. -/
def parentRemote (path : FilePath) : Option FilePath :=
  match path.normalizeRemote with
  | .ok path => if path = ['/'] ∨ path = ['.'] then none else some path.beforeLast
  | .error _ => none

/-- The last component, where it is a name. -/
def fileNameRemote (path : FilePath) : Except SftpError FilePath := do
  let name := (← path.normalizeRemote).lastComponent
  validateName name
  return name

/-- The name before the last dot and the extension from it on. -/
def splitAtLastDot (name : FilePath) : Option (FilePath × FilePath) :=
  let extension := name.reverse.takeWhile (· ≠ '.')
  if extension.length = name.length then none
  else
    let index := name.length - extension.length - 1
    some (name.take index, name.drop index)

/-- A leading dot is not an extension separator. -/
def keepBothName (name : FilePath) (number : Nat) : FilePath :=
  let numbered := " (".toList ++ (toString number).toList ++ ")".toList
  match name.splitAtLastDot with
  | some (stem, extension) =>
    if stem ≠ [] ∧ 1 < extension.length then stem ++ numbered ++ extension else name ++ numbered
  | none => name ++ numbered

end FilePath

def maxKeepBothAttempts : Nat := 999

inductive Direction where
  | download
  | upload
  deriving DecidableEq, Repr

/-- One file transfer. Directories are not transferred recursively. -/
structure TransferRequest where
  direction : Direction
  /-- The remote file of a download, the sandbox-relative file of an upload. -/
  source : FilePath
  /-- The sandbox-relative directory of a download, the remote directory of an upload. -/
  destinationDir : FilePath
  name : Option FilePath
  deriving DecidableEq, Repr

def partialPrefix : FilePath := ".festerm-".toList
def partialSuffix : FilePath := ".part".toList

namespace TransferRequest

/-- The destination file name, which defaults to the name of the source. -/
def targetName (request : TransferRequest) : Except SftpError FilePath := do
  let name ← match request.name, request.direction with
    | some name, _ => pure name
    | none, .download => request.source.fileNameRemote
    | none, .upload =>
      match (← request.source.localComponents).getLast? with
      | some name => pure name
      | none => throw (.invalidPath "no file name")
  name.validateName
  if partialPrefix <+: name ∧ partialSuffix <:+ name then
    throw (.invalidPath "name collides with the transfer temporary file pattern")
  return name

def validate (request : TransferRequest) : Except SftpError Unit := do
  let _ ← request.targetName
  match request.direction with
  | .download =>
    let _ ← request.source.normalizeRemote
    let _ ← request.destinationDir.normalizeLocal
  | .upload =>
    let _ ← request.source.normalizeLocal
    let _ ← request.destinationDir.normalizeRemote

end TransferRequest

inductive EntryKind where
  | file
  | directory
  | symlink
  | other
  deriving DecidableEq, Repr

structure FileAttributes where
  size : Option Nat
  permissions : Option Nat
  mtime : Option Nat
  deriving DecidableEq, Repr

/-- The kind that the type bits of a mode tell, where no long name is given. -/
def modeKind (mode : Option Nat) : EntryKind :=
  match mode.map (· &&& 0o170000) with
  | some 0o040000 => .directory
  | some 0o100000 => .file
  | some 0o120000 => .symlink
  | _ => .other

/-- What is known of an entry on the server: what a link resolves to is known only for links. -/
structure Entry where
  kind : EntryKind
  size : Option Nat
  modified : Option Int
  symlink : Option (Option EntryKind)
  deriving DecidableEq, Repr

namespace Entry

def fromAttrs (attributes : FileAttributes) : Entry where
  kind := modeKind attributes.permissions
  size := attributes.size
  modified := attributes.mtime.map Int.ofNat
  symlink := none

/-- The kind after following a link that resolves. -/
def effectiveKind (entry : Entry) : EntryKind :=
  match entry.kind, entry.symlink with
  | .symlink, some targetKind => targetKind.getD .symlink
  | kind, _ => kind

def isDir (entry : Entry) : Bool := entry.effectiveKind == .directory

end Entry

/-- What is to be done about a target that exists. -/
inductive ConflictPolicy where
  | keepBoth
  | skip
  | replace
  deriving DecidableEq, Repr

structure Fingerprint where
  size : Option Nat
  modified : Option Int
  deriving DecidableEq, Repr

/-- A target that exists, and what is to replace it. -/
structure Conflict where
  existing : Fingerprint
  incoming : Fingerprint
  existingIsDirectory : Bool
  likelyIdentical : Bool
  suggestedName : FilePath
  deriving DecidableEq, Repr

def mtimeToleranceSecs : Nat := 2

def likelyIdentical (a b : Fingerprint) : Bool :=
  match a.size, b.size, a.modified, b.modified with
  | some sizeA, some sizeB, some modifiedA, some modifiedB =>
    sizeA == sizeB && (modifiedA - modifiedB).natAbs ≤ mtimeToleranceSecs
  | _, _, _, _ => false

def conflictOf (existing : Entry) (incoming : Fingerprint) (suggested : FilePath) : Conflict :=
  let existingFingerprint : Fingerprint := ⟨existing.size, existing.modified⟩
  { existing := existingFingerprint
    incoming := incoming
    existingIsDirectory := existing.isDir
    likelyIdentical := !existing.isDir && likelyIdentical existingFingerprint incoming
    suggestedName := suggested }

/-- The bounds of a transfer manager, after they were clamped. -/
structure TransferConfig where
  maxConcurrent : Nat
  maxQueued : Nat
  /-- The bytes of a read or a write request. -/
  chunkSize : Nat
  /-- The requests kept in flight for each transfer. -/
  window : Nat
  maxFileSize : Nat
  maxHistory : Nat
  concurrent : 1 ≤ maxConcurrent ∧ maxConcurrent ≤ 4
  chunked : 4 * 1024 ≤ chunkSize ∧ chunkSize ≤ 256 * 1024
  windowed : 1 ≤ window ∧ window ≤ 16

/-- The configuration that `TransferManager::new` makes of the one it is given. -/
def TransferConfig.new (maxConcurrent maxQueued chunkSize window maxFileSize maxHistory : Nat) :
    TransferConfig where
  maxConcurrent := max 1 (min maxConcurrent 4)
  maxQueued := maxQueued
  chunkSize := max (4 * 1024) (min chunkSize (256 * 1024))
  window := max 1 (min window 16)
  maxFileSize := maxFileSize
  maxHistory := maxHistory
  concurrent := by omega
  chunked := by omega
  windowed := by omega

end FesTerm
