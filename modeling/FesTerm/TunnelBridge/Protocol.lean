import FesTerm.Sessiond.Protocol

/-!
# The protocol of the bridge

`protocol.rs`, and the frames of `wire.rs`: a kind, a length in four bytes and the payload. What a payload holds
is JSON where it has fields; `serde_json` is a parameter.
-/

namespace FesTerm.TunnelBridge

abbrev Text := List Char

def version : Nat := 1
def snapshotSchema : Nat := 3
def snapshotLimit : Nat := 8 * 1024 * 1024
def chunkLimit : Nat := 64 * 1024
def fileLimit : Nat := 4 * 1024 * 1024

namespace Kind

def hello : UInt8 := 1
def snapshot : UInt8 := 2
def adopted : UInt8 := 3
def input : UInt8 := 4
def resize : UInt8 := 5
def output : UInt8 := 6
def resized : UInt8 := 7
def detach : UInt8 := 8
def refused : UInt8 := 9
def sync : UInt8 := 10
def exited : UInt8 := 11
def capabilities : UInt8 := 12
def discover : UInt8 := 13
def description : UInt8 := 14
def displaced : UInt8 := 15
def fileRead : UInt8 := 20
def fileResult : UInt8 := 21

-- `file_protocol.rs`.
def fileOpen : UInt8 := 30
def fileRequest : UInt8 := 31
def fileResponse : UInt8 := 32
def fileData : UInt8 := 33

-- `observation_protocol.rs`.
def observationOpen : UInt8 := 40
def observationRequest : UInt8 := 41
def observationResponse : UInt8 := 42
def observationData : UInt8 := 43
def observationNotice : UInt8 := 44

end Kind

structure Target where
  name : Text
  pid : Nat
  generation : Text
  deriving DecidableEq

def isIdDigit (c : Char) : Bool := c.isDigit || ('a' ≤ c && c ≤ 'f')

/-- A random id that one tab of a client keeps across its connections. -/
structure ClientId where
  value : Text
  valid : value.length = 32 ∧ value.all isIdDigit
  deriving DecidableEq

structure FileAccess where
  read : Bool
  windowsPaths : Bool
  deriving DecidableEq

/-- The first frame of a client. -/
structure Hello where
  files : FileAccess
  takeover : Bool
  version : Nat
  snapshotSchema : Nat
  target : Target
  client : Option ClientId
  deriving DecidableEq

/-- Which kind of client holds the session, or took it. -/
inductive Displacer where
  | local
  | remote
  | unknown
  deriving DecidableEq

namespace Displacer

def code : Displacer → UInt8
  | .local => 0
  | .remote => 1
  | .unknown => 2

def fromCode (code : UInt8) : Option Displacer :=
  if code = 0 then some .local else if code = 1 then some .remote else if code = 2 then some .unknown else none

@[simp]
theorem fromCode_code (displacer : Displacer) : fromCode displacer.code = some displacer := by
  cases displacer <;> rfl

end Displacer

/-- The longest payload of a kind. -/
def maximumLength (kind : UInt8) : Option Nat :=
  if kind = Kind.fileRead then some 8192
  else if kind = Kind.fileResult then some (fileLimit + 9)
  else if kind = Kind.fileOpen then some 4096
  else if kind = Kind.fileRequest ∨ kind = Kind.fileResponse then some (64 * 1024)
  else if kind = Kind.fileData then some (64 * 1024 + 4)
  else if kind = Kind.observationOpen then some 4096
  else if kind = Kind.observationRequest ∨ kind = Kind.observationResponse ∨ kind = Kind.observationNotice then
    some 65536
  else if kind = Kind.observationData then some (65536 + 4)
  else if kind = Kind.snapshot then some snapshotLimit
  else if kind = Kind.hello ∨ kind = Kind.description then some 4096
  else if kind = Kind.discover then some 2
  else if kind = Kind.input ∨ kind = Kind.output ∨ kind = Kind.sync then some chunkLimit
  else if kind = Kind.resize ∨ kind = Kind.resized then some 8
  else if kind = Kind.capabilities then some 2
  else if kind = Kind.displaced then some 1
  else if kind = Kind.adopted ∨ kind = Kind.detach ∨ kind = Kind.refused ∨ kind = Kind.exited then some 0
  else none

def validateLength (kind : UInt8) (length : Nat) : Bool := (maximumLength kind).any (length ≤ ·)

/-- The kinds that a host accepts. -/
def fromClient (kind : UInt8) : Bool :=
  kind ∈ [Kind.hello, Kind.discover, Kind.adopted, Kind.input, Kind.resize, Kind.detach, Kind.sync, Kind.fileRead,
    Kind.fileOpen, Kind.fileRequest, Kind.fileData, Kind.observationOpen, Kind.observationRequest]

end FesTerm.TunnelBridge
