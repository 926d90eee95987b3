import FesTerm.Sessiond.Protocol

/-!
# The recovery snapshot

What the daemon sends before anything else to a client that attaches: a magic value, a length in eight
bytes and the serialized terminal (`encode_recovery_snapshot_with_limit` in `lib.rs`), and how the
client reads it (`read_recovery_terminal_with_abort`). The serializer of the terminal is a parameter.
-/

namespace FesTerm

open Framing

/-- `bincode` on terminals: the payload of a terminal, and the terminal of a payload in the format of a
schema version. -/
class RecoveryCodec where
  serialize : Terminal → Except String (List UInt8)
  deserialize : Nat → List UInt8 → Except String Terminal

def recoveryMagic : List UInt8 := ascii "FSD2"

def recoveryHeaderBytes : Nat := 12

def maxRecoverySnapshotBytes : Nat := 768 * 1024 * 1024

def recoverySnapshotSchemaVersion : Nat := 3

def snapshotSchemaIsSupported (version : Nat) : Bool := version = 2 ∨ version = recoverySnapshotSchemaVersion

def recoverySnapshotRequired (protocolVersion snapshotSchemaVersion : Nat) : Bool :=
  2 ≤ protocolVersion ∧ snapshotSchemaIsSupported snapshotSchemaVersion

namespace Terminal

def recoveryClone (terminal : Terminal) : Terminal :=
  { terminal with
    replyQueue := []
    replyQueueOverflowed := false
    primary := { terminal.primary with screen := terminal.primary.screen.markAllDirty }
    alternate := terminal.alternate.map fun alternate =>
      { alternate with screen := alternate.screen.markAllDirty } }

end Terminal

def recoveryPrelude (payload : List UInt8) : List UInt8 :=
  recoveryMagic ++ toBytes 8 payload.length ++ payload

def unsupportedSchema (version : Nat) : IoError :=
  ⟨.invalidData, s!"persistent-session recovery snapshot schema {version} is unsupported"⟩

/-- How many bytes the client still has to read into the part of the prelude that it is at. -/
def preludeMissing (prelude : List UInt8) : Except IoError Nat :=
  if prelude.length < recoveryHeaderBytes then .ok (recoveryHeaderBytes - prelude.length)
  else if prelude.take recoveryMagic.length ≠ recoveryMagic then
    .error ⟨.invalidData, "persistent-session recovery prelude has an invalid magic value"⟩
  else
    let payloadLen := ofBytes ((prelude.take recoveryHeaderBytes).drop recoveryMagic.length)
    if maxRecoverySnapshotBytes < payloadLen then
      .error ⟨.invalidData, "persistent-session recovery snapshot exceeds the protocol limit"⟩
    else .ok (recoveryHeaderBytes + payloadLen - prelude.length)

section

variable [Platform] [RecoveryCodec]

/-- The checks before the clone, for a client that accepts less than the protocol. -/
def checkRecoveryBudget (terminal : Terminal) (maximum : Nat) : Except String Unit :=
  if maximum < maxRecoverySnapshotBytes then
    if maximum < terminal.scrollback.chargedBytes then
      .error "retained history exceeds recovery request budget"
    else
      match RecoveryCodec.serialize terminal with
      | .error _ => .error "terminal exceeds recovery request budget"
      | .ok encoded =>
        if maximum + 2 * transportQueueHighWatermark < encoded.length then
          .error "terminal exceeds recovery request budget"
        else .ok ()
  else .ok ()

def encodeRecoveryPayload (snapshot : Terminal) (maximum : Nat) : Except String (List UInt8) :=
  match RecoveryCodec.serialize snapshot with
  | .error error => .error s!"could not size terminal recovery snapshot: {error}"
  | .ok payload =>
    if maximum < payload.length then
      .error s!"terminal recovery snapshot exceeds the {maximum}-byte protocol limit"
    else .ok (recoveryPrelude payload)

/-- The snapshot for a client, checked before it is encoded. -/
def encodeRecoverySnapshotWithLimit (terminal : Terminal) (maximum : Nat) :
    Option (Except String (List UInt8)) :=
  match checkRecoveryBudget terminal maximum with
  | .error error => some (.error error)
  | .ok () => do
    match ← terminal.recoveryClone.validateRecoverySnapshot with
    | .error error => some (.error error)
    | .ok () => some (encodeRecoveryPayload terminal.recoveryClone maximum)

/-- What the client makes of the payload. -/
def decodeRecovery (snapshotSchemaVersion : Nat) (payload : List UInt8) : Option (Except IoError Terminal) :=
  match RecoveryCodec.deserialize snapshotSchemaVersion payload with
  | .error error =>
    some (.error ⟨.invalidData, s!"persistent-session recovery snapshot is invalid: {error}"⟩)
  | .ok terminal => do
    match ← terminal.validateRecoverySnapshot with
    | .error error =>
      some (.error ⟨.invalidData, s!"persistent-session recovery snapshot is invalid: {error}"⟩)
    | .ok () =>
      if maxRecoverySnapshotBytes < terminal.scrollback.chargedBytes then
        return .error ⟨.invalidData,
          "persistent-session retained history allocation exceeds the protocol limit"⟩
      return .ok terminal

end

/-- A codec that knows one terminal. -/
@[reducible] def RecoveryCodec.single (terminal : Terminal) (payload : List UInt8) : RecoveryCodec where
  serialize _ := .ok payload
  deserialize _ _ := .ok terminal.recoveryClone

theorem encodeRecoverySnapshot_prelude [Platform] [RecoveryCodec] {terminal : Terminal} {maximum : Nat}
    {recovery : List UInt8} (h : encodeRecoverySnapshotWithLimit terminal maximum = some (.ok recovery)) :
    ∃ payload, RecoveryCodec.serialize terminal.recoveryClone = .ok payload ∧
      payload.length ≤ maximum ∧ recovery = recoveryPrelude payload := by
  unfold encodeRecoverySnapshotWithLimit at h
  split at h
  · cases h
  · obtain ⟨valid, -, h⟩ := Option.bind_eq_some_iff.mp h
    split at h
    · cases h
    · have h := Option.some.inj h
      unfold encodeRecoveryPayload at h
      split at h
      · cases h
      · next payload hpayload =>
        split at h
        · cases h
        · next hle => exact ⟨payload, hpayload, by omega, (Except.ok.inj h).symm⟩

end FesTerm
