import FesTerm.Sessiond.Protocol

/-!
# Admission

The fixed request with which a client of protocol 3 asks to be let in, and how the daemon answers it
(`encode_admission`, `encode_admission_for` and `decode_admission_header` in `lib.rs`, `admit_client` in
`main.rs`).
-/

namespace FesTerm

open Framing

inductive AttachKind where
  | local
  | remote
  deriving DecidableEq

namespace AttachKind

def code : AttachKind → UInt8
  | .local => 0
  | .remote => 1

def fromCode (code : UInt8) : Option AttachKind :=
  if code = 0 then some .local else if code = 1 then some .remote else none

end AttachKind

def admissionBytes : Nat := 29

def takeoverFlag (takeover : Bool) : UInt8 := if takeover then 1 else 0

def admissionFields (pid generation maximumRecoveryBytes : Nat) : List UInt8 :=
  toBytes 4 pid ++ toBytes 16 generation ++ toBytes 4 maximumRecoveryBytes

def encodeAdmission (pid generation : Nat) (takeover : Bool) (maximumRecoveryBytes : Nat) : List UInt8 :=
  ascii "FSA3" ++ [takeoverFlag takeover] ++ admissionFields pid generation maximumRecoveryBytes

def encodeAdmissionFor (pid generation : Nat) (takeover : Bool) (kind : AttachKind)
    (maximumRecoveryBytes : Nat) : List UInt8 :=
  ascii "FSA4" ++ [takeoverFlag takeover ||| (kind.code <<< 1)] ++
    admissionFields pid generation maximumRecoveryBytes

/-- The takeover flag and the kind of a request. -/
def decodeAdmissionHeader (request : List UInt8) : Option (Bool × AttachKind) := do
  let flags ← request[4]?
  if request.take 4 = ascii "FSA3" ∧ flags ≤ 1 then some (flags = 1, .local)
  else if request.take 4 = ascii "FSA4" ∧ flags ≤ 3 then do
    let kind ← AttachKind.fromCode (flags >>> 1)
    some (flags &&& 1 = 1, kind)
  else none

/-- What a connecting client and the system answer while the client is admitted. -/
structure Attempt where
  /-- `set_read_timeout` and `set_write_timeout`. -/
  timeouts : Except IoError Unit
  /-- The reads of the request, up to its end or the deadline. -/
  reads : List (Except IoError (List UInt8))
  reply : Except IoError Unit
  /-- The start of the worker thread. -/
  spawned : Except IoError Unit
  deriving DecidableEq

/-- The loop of `admit_client` over the reads. A request that the deadline cuts off stays short; `none`
in the result is a client that is gone. A read that does not fit is no read. -/
def readRequest (request : List UInt8) :
    List (Except IoError (List UInt8)) → Option (Except IoError (Option (List UInt8)))
  | [] => some (.ok (some request))
  | .ok bytes :: reads =>
    if request.length + bytes.length ≤ admissionBytes ∧ request.length < admissionBytes then
      if bytes.isEmpty then some (.ok none) else readRequest (request ++ bytes) reads
    else none
  | .error error :: reads =>
    if request.length < admissionBytes then
      if error.isRetryable then readRequest request reads else some (.error error)
    else none

def requestedLimit (request : List UInt8) : Nat := ofBytes ((request.drop 25).take 4)

/-- What the daemon makes of a request: the budget and the kind of a client that is let in. -/
def admission (pid generation : Nat) (occupied : Bool) (request : List UInt8) : Option (Nat × AttachKind) := do
  if request.length ≠ admissionBytes then none
  else
    let (takeover, kind) ← decodeAdmissionHeader request
    let limit := requestedLimit request
    let expected :=
      if request[3]? = some 52 then encodeAdmissionFor pid generation takeover kind limit
      else encodeAdmission pid generation takeover limit
    if request = expected ∧ (takeover ∨ !occupied) ∧ limit ≠ 0 then
      some (min limit (768 * 1024 * 1024), kind)
    else none

/-- `admit_client`: an error, or the decision once the reply is written. -/
def admitClient (pid generation : Nat) (occupied : Bool) (attempt : Attempt) :
    Option (Except IoError (Option (Nat × AttachKind))) := do
  match ← readRequest [] attempt.reads with
  | .error error => some (.error error)
  | .ok none => some (.ok none)
  | .ok (some request) =>
    match attempt.reply with
    | .error error => some (.error error)
    | .ok () => some (.ok (admission pid generation occupied request))

end FesTerm
