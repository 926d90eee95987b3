import FesTerm.Core.Platform

/-!
# The protocol of the worker

`protocol.rs`: what a script asks the application for, what the application answers, and the messages that
carry both. `serde_json` is what turns them into bytes.
-/

namespace FesTerm.AutomationJs

abbrev Text := List Char

def maxFrameBytes : Nat := 65536
def maxPendingCalls : Nat := 64
def maxSafeInteger : Nat := 2 ^ 53 - 1

structure Target where
  id : Text
  generation : Nat
  deriving DecidableEq

inductive ParameterValue where
  | text (value : Text)
  | integer (value : Int)
  | boolean (value : Bool)
  | target (value : Text)
  deriving DecidableEq

inductive HostRequest where
  | observe
  | readScreen (target : Target) (maxBytes : Nat)
  | readScrollback (target : Target) (maxBytes maxLines : Nat)
  | getSelection (target : Target) (maxBytes : Nat)
  | waitForChange (target : Target) (afterRevision timeoutMs : Nat)
  | sendText (target : Target) (text : Text)
  | sendKeys (target : Target) (keys : List Text)
  | openProfile (profileId revision : Text)
  | invokeWorkflow (digest : Text) (parameters : List (Text × ParameterValue))
  deriving DecidableEq

inductive HostError where
  | denied
  | revoked
  | staleTarget
  | budget
  | cancelled
  | expired
  | failed
  deriving DecidableEq

structure TargetInfo where
  target : Target
  revision : Nat
  deriving DecidableEq

/-- `serde_json::Value`. Numbers are kept as they are written. -/
inductive Json where
  | null
  | bool (value : Bool)
  | number (literal : Text)
  | string (value : Text)
  | array (values : List Json)
  | object (members : List (Text × Json))

inductive HostResult where
  | observation (targets : List TargetInfo)
  | text (text : Text) (revision : Nat) (truncated : Bool)
  | change (revision : Nat) (changed : Bool)
  | accepted
  | opened (target : Target)
  | workflow (value : Json)
  | error (code : HostError)

/-- What the application tells the worker once the script runs. -/
inductive ParentMessage where
  | hostAdmitted (id : Nat)
  | hostResult (id : Nat) (result : HostResult)
  | cancel

inductive Outcome where
  | completed (value : Json)
  | scriptFailed
  | resourceLimit
  | unsettledWork
  | cancelled
  | protocolFailed
  | unavailable

inductive WorkerFailure where
  | unavailable
  | invalidSnapshot
  | protocol
  | io
  | deadline
  deriving DecidableEq

inductive WorkerMessage where
  | ready (profile : Text)
  | hostCall (id : Nat) (request : HostRequest)
  | finished (outcome : Outcome)
  | failed (code : WorkerFailure)

/-- `serde_json::to_vec`. -/
class Serde where
  parameters : List (Text × ParameterValue) → Option (List UInt8)
  result : HostResult → Option (List UInt8)
  message : ParentMessage → Option (List UInt8)

def isTokenByte (c : Char) : Bool := c.isAlphanum || c == '-' || c == '_' || c == '.' || c == ':'

def token (value : Text) : Bool := !value.isEmpty && utf8Len value ≤ 256 && value.all isTokenByte

def Target.valid (target : Target) : Bool := token target.id && target.generation ≤ maxSafeInteger

def isHexDigit (c : Char) : Bool := c.isDigit || ('a' ≤ c && c ≤ 'f') || ('A' ≤ c && c ≤ 'F')

/-- The length of what `serde_json` writes is not above the bound. -/
def fits (written : Option (List UInt8)) (bound : Nat) : Bool := written.any (·.length ≤ bound)

def HostRequest.validate [Serde] : HostRequest → Bool
  | observe => true
  | readScreen target maxBytes | getSelection target maxBytes =>
    target.valid && 1 ≤ maxBytes && maxBytes ≤ 16384
  | readScrollback target maxBytes maxLines =>
    target.valid && 1 ≤ maxBytes && maxBytes ≤ 16384 && 1 ≤ maxLines && maxLines ≤ 1000
  | waitForChange target afterRevision timeoutMs =>
    target.valid && afterRevision ≤ maxSafeInteger && 1 ≤ timeoutMs && timeoutMs ≤ 30000
  | sendText target text => target.valid && utf8Len text ≤ 16384
  | sendKeys target keys =>
    target.valid && !keys.isEmpty && keys.length ≤ 64 && keys.all fun key => token key && utf8Len key ≤ 64
  | openProfile profileId revision => token profileId && token revision
  | invokeWorkflow digest parameters =>
    utf8Len digest == 64 && digest.all isHexDigit && parameters.length ≤ 64 &&
      fits (Serde.parameters parameters) 32768

/-- The loop of `validate_value`, with the number of values that it may still look at. -/
def validateLoop : Nat → List (Json × Nat) → Nat → Bool
  | _, [], bytes => bytes ≤ 49152
  | 0, _ :: _, _ => false
  | left + 1, (value, depth) :: pending, bytes =>
    if depth > 16 ∨ bytes > 49152 then false
    else match value with
    | .string text => if utf8Len text > 16384 then false else validateLoop left pending (bytes + utf8Len text)
    | .array values =>
      if values.length > 256 then false
      else validateLoop left ((values.map (·, depth + 1)).reverse ++ pending) bytes
    | .object members =>
      if members.length > 64 ∨ members.any (fun member => utf8Len member.1 > 256) then false
      else validateLoop left ((members.map (·.2, depth + 1)).reverse ++ pending)
        (bytes + (members.map (utf8Len ·.1)).sum)
    | _ => validateLoop left pending bytes

def validateValue (value : Json) : Bool := validateLoop 4096 [(value, 0)] 0

def HostResult.matchesRequest : HostResult → HostRequest → Bool
  | error _, _ => true
  | observation targets, .observe =>
    targets.length ≤ 64 && targets.all fun info => info.target.valid && info.revision ≤ maxSafeInteger
  | .text value revision _, .readScreen _ maxBytes
  | .text value revision _, .readScrollback _ maxBytes _
  | .text value revision _, .getSelection _ maxBytes => utf8Len value ≤ maxBytes && revision ≤ maxSafeInteger
  | change revision _, .waitForChange .. => revision ≤ maxSafeInteger
  | accepted, .sendText .. | accepted, .sendKeys .. => true
  | opened target, .openProfile .. => target.valid
  | workflow value, .invokeWorkflow .. => validateValue value
  | _, _ => false

def HostResult.validateFor [Serde] (result : HostResult) (request : HostRequest) : Bool :=
  result.matchesRequest request && fits (Serde.result result) 49152

/-- A big-endian length and the message. -/
def encodeFrame [Serde] (message : ParentMessage) : Option (List UInt8) :=
  (Serde.message message).bind fun payload =>
    if payload.isEmpty ∨ payload.length > maxFrameBytes then none
    else some ((List.range 4).map (fun i => (payload.length / 256 ^ (3 - i)).toUInt8) ++ payload)

namespace Serde

/-- `cancel` and `hostAdmitted` can always be encoded. -/
def WritesSignals [Serde] : Prop :=
  (∃ frame, encodeFrame .cancel = some frame) ∧ ∀ id < 2 ^ 32, ∃ frame, encodeFrame (.hostAdmitted id) = some frame

/-- What `serde_json` writes for the signals and for results that only accept. -/
@[reducible] def signals : Serde where
  parameters values := if values.isEmpty then some [0x7b, 0x7d] else none
  result
    | .accepted => some "\x7b\"kind\":\"accepted\"\x7d".toUTF8.toList
    | _ => none
  message
    | .hostAdmitted id => some ("\x7b\"type\":\"hostAdmitted\",\"id\":".toUTF8.toList ++
        (Nat.toDigits 10 id).map (·.toNat.toUInt8) ++ [0x7d])
    | .hostResult id .accepted => some ("\x7b\"type\":\"hostResult\",\"id\":".toUTF8.toList ++
        (Nat.toDigits 10 id).map (·.toNat.toUInt8) ++
        ",\"result\":\x7b\"kind\":\"accepted\"\x7d\x7d".toUTF8.toList)
    | .hostResult _ _ => none
    | .cancel => some "\x7b\"type\":\"cancel\"\x7d".toUTF8.toList

end Serde

end FesTerm.AutomationJs
