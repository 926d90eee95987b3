import FesTerm.Sftp.Upload

/-!
# A server that executes what it acknowledges

What an upload meets: the file system of the server, the local file and the write tasks under way. The
server may refuse any request or break off at any point; it executes a request exactly when it
acknowledges it, and it says of an entry that it does not exist only if it does not. How it finds the
entry for a path is left open.
-/

namespace FesTerm

/-- What is at a path of the server. -/
inductive RemoteNode where
  | file (content : List UInt8)
  | directory
  | symlink
  | other
  deriving DecidableEq

abbrev WriteRequest := Nat × List UInt8

/-- What a write makes of the content of a file; a gap before it reads as zeros. -/
def patch (content : List UInt8) (write : WriteRequest) : List UInt8 :=
  content.take write.1 ++ List.replicate (write.1 - content.length) 0 ++ write.2 ++
    content.drop (write.1 + write.2.length)

/-- How the server finds the entry for a path: a leading `./` does not matter. -/
structure Resolution (ν : Type) where
  resolve : FilePath → ν
  here : ∀ path, resolve ('.' :: '/' :: path) = resolve path

/-- What happened in an upload, besides the transfer of the data. -/
inductive UploadEvent (ν : Type) where
  | policy (policy : ConflictPolicy)
  | opened (location : ν)
  deriving DecidableEq

/-- The server and the local file, as an upload finds them. -/
structure UploadWorld (ν : Type) where
  nodes : ν → Option RemoteNode
  /-- The file that the open handle writes to. -/
  handle : Option ν
  /-- The local file, and how far it was read. -/
  source : List UInt8
  position : Nat
  /-- The tasks in the set that is awaited. -/
  outstanding : List WriteRequest
  /-- Every write request that was made, in order. -/
  requested : List WriteRequest
  /-- Those that were acknowledged, in the order of their replies. -/
  acknowledged : List WriteRequest
  events : List (UploadEvent ν)

namespace UploadWorld

variable {ν : Type}

/-- Nothing is opened or sent. -/
def start (nodes : ν → Option RemoteNode) (source : List UInt8) : UploadWorld ν :=
  ⟨nodes, none, source, 0, [], [], [], []⟩

def record (world : UploadWorld ν) (event : UploadEvent ν) : UploadWorld ν :=
  { world with events := world.events ++ [event] }

variable [DecidableEq ν]

def setNode (world : UploadWorld ν) (location : ν) (node : Option RemoteNode) : UploadWorld ν :=
  { world with nodes := Function.update world.nodes location node }

def move (world : UploadWorld ν) (source target : ν) : UploadWorld ν :=
  (world.setNode source none).setNode target (world.nodes source)

variable (world : UploadWorld ν) (event : UploadEvent ν)

omit [DecidableEq ν] in
@[simp] theorem record_nodes :
    (world.record event).nodes = world.nodes := rfl

omit [DecidableEq ν] in
@[simp] theorem record_events :
    (world.record event).events = world.events ++ [event] := rfl

variable (location : ν) (node : Option RemoteNode)

@[simp] theorem setNode_events :
    (world.setNode location node).events = world.events := rfl

@[simp] theorem move_events (source target : ν) :
    (world.move source target).events = world.events := rfl

@[simp] theorem setNode_self :
    (world.setNode location node).nodes location = node := Function.update_self _ _ _

theorem setNode_of_ne {location other : ν}
    (h : other ≠ location) : (world.setNode location node).nodes other = world.nodes other :=
  Function.update_of_ne h _ _

@[simp] theorem move_target (source target : ν) :
    (world.move source target).nodes target = world.nodes source := Function.update_self _ _ _

end UploadWorld

section

variable {ν : Type} [DecidableEq ν]

/-- How a question may be answered, and what that leaves. -/
inductive UploadAnswers (resolution : Resolution ν) :
    UploadWorld ν → (question : UploadQuestion) → UploadReply question → UploadWorld ν → Prop
  | openSource {world : UploadWorld ν} {relative : FilePath} {result : Except SftpError SourceMetadata} :
    UploadAnswers resolution world (.openSource relative) result world
  | closed {world : UploadWorld ν} {closed : Bool} : UploadAnswers resolution world .closed closed world
  | lstat {world : UploadWorld ν} {path : FilePath} {attributes : FileAttributes}
    (hnode : world.nodes (resolution.resolve path) ≠ none) :
    UploadAnswers resolution world (.lstat path) (.ok attributes) world
  | missing {world : UploadWorld ν} {path : FilePath} {text : String}
    (hnode : world.nodes (resolution.resolve path) = none) :
    UploadAnswers resolution world (.lstat path) (.error (.status .noSuchFile text)) world
  | lstatFailed {world : UploadWorld ν} {path : FilePath} {error : RawError}
    (herror : ∀ text, error ≠ .status .noSuchFile text) :
    UploadAnswers resolution world (.lstat path) (.error error) world
  | stat {world : UploadWorld ν} {path : FilePath} {result : Except RawError FileAttributes} :
    UploadAnswers resolution world (.stat path) result world
  | readlink {world : UploadWorld ν} {path : FilePath} : UploadAnswers resolution world (.readlink path) () world
  | policyFor {world : UploadWorld ν} {conflict : Conflict} {policy : ConflictPolicy} :
    UploadAnswers resolution world (.policyFor conflict) (.ok policy) (world.record (.policy policy))
  | noPolicy {world : UploadWorld ν} {conflict : Conflict} {error : SftpError} :
    UploadAnswers resolution world (.policyFor conflict) (.error error) world
  | random {world : UploadWorld ν} {seed : NameSeed} : UploadAnswers resolution world .random seed world
  | opened {world : UploadWorld ν} {path : FilePath} (hnode : world.nodes (resolution.resolve path) = none) :
    UploadAnswers resolution world (.openTemp path) (.ok ())
      { (world.setNode (resolution.resolve path) (some (.file []))).record (.opened (resolution.resolve path)) with
        handle := some (resolution.resolve path) }
  | notOpened {world : UploadWorld ν} {path : FilePath} {error : RawError} :
    UploadAnswers resolution world (.openTemp path) (.error error) world
  | readCancelled {world : UploadWorld ν} {space : Nat} :
    UploadAnswers resolution world (.readLocal space) .cancelled world
  | readFailed {world : UploadWorld ν} {space : Nat} {error : FileError} :
    UploadAnswers resolution world (.readLocal space) (.failed error) world
  | read {world : UploadWorld ν} {space : Nat} {bytes : List UInt8} {hwithin : bytes.length ≤ space}
    (hbytes : bytes <+: world.source.drop world.position)
    (hend : bytes = [] → world.source.length ≤ world.position) :
    UploadAnswers resolution world (.readLocal space) (.read bytes hwithin)
      { world with position := world.position + bytes.length }
  | spawnWrite {world : UploadWorld ν} {offset : Nat} {bytes : List UInt8} :
    UploadAnswers resolution world (.spawnWrite offset bytes) ()
      { world with
        outstanding := world.outstanding ++ [(offset, bytes)]
        requested := world.requested ++ [(offset, bytes)] }
  | joinCancelled {world : UploadWorld ν} : UploadAnswers resolution world .joinWrite .cancelled world
  | joinFailed {world : UploadWorld ν} {outstanding : List WriteRequest} :
    UploadAnswers resolution world .joinWrite .joinFailed { world with outstanding := outstanding }
  | written {world : UploadWorld ν} {location : ν} {content : List UInt8} {write : WriteRequest}
    {before after : List WriteRequest} (hhandle : world.handle = some location)
    (hnode : world.nodes location = some (.file content))
    (houtstanding : world.outstanding = before ++ write :: after) :
    UploadAnswers resolution world .joinWrite (.finished write.2.length (.ok ()))
      { world.setNode location (some (.file (patch content write))) with
        outstanding := before ++ after
        acknowledged := world.acknowledged ++ [write] }
  | notWritten {world : UploadWorld ν} {write : WriteRequest} {before after : List WriteRequest}
    {error : RawError} (houtstanding : world.outstanding = before ++ write :: after) :
    UploadAnswers resolution world .joinWrite (.finished write.2.length (.error error))
      { world with outstanding := before ++ after }
  | abortWrites {world : UploadWorld ν} :
    UploadAnswers resolution world .abortWrites () { world with outstanding := [] }
  | close {world : UploadWorld ν} {result : Except RawError Unit} :
    UploadAnswers resolution world .close result { world with handle := none }
  | setstat {world : UploadWorld ν} {path : FilePath} {seconds : Nat} {result : Except RawError Unit} :
    UploadAnswers resolution world (.setstat path seconds) result world
  | posixRenamed {world : UploadWorld ν} {source target : FilePath}
    (hnode : world.nodes (resolution.resolve source) ≠ none) :
    UploadAnswers resolution world (.posixRename source target) (.ok (.status .ok))
      (world.move (resolution.resolve source) (resolution.resolve target))
  /-- The session hands on the status that refuses an extended request as a packet, never as an error. -/
  | notPosixRenamed {world : UploadWorld ν} {source target : FilePath} {result : Except RawError Packet}
    (hresult : result ≠ .ok (.status .ok)) (hpacket : ∀ code text, result ≠ .error (.status code text)) :
    UploadAnswers resolution world (.posixRename source target) result world
  | renamed {world : UploadWorld ν} {source target : FilePath}
    (hnode : world.nodes (resolution.resolve source) ≠ none) :
    UploadAnswers resolution world (.rename source target) (.ok ())
      (world.move (resolution.resolve source) (resolution.resolve target))
  | notRenamed {world : UploadWorld ν} {source target : FilePath} {error : RawError} :
    UploadAnswers resolution world (.rename source target) (.error error) world
  | removed {world : UploadWorld ν} {path : FilePath} (hnode : world.nodes (resolution.resolve path) ≠ none) :
    UploadAnswers resolution world (.remove path) (.ok ()) (world.setNode (resolution.resolve path) none)
  | notRemoved {world : UploadWorld ν} {path : FilePath} {error : RawError} :
    UploadAnswers resolution world (.remove path) (.error error) world
  | leftoverRemoteTemp {world : UploadWorld ν} {path : FilePath} :
    UploadAnswers resolution world (.leftoverRemoteTemp path) () world

end

end FesTerm
