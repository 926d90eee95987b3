import FesTerm.Core.Cell
import FesTerm.Lib.Checked

/-!
# Unicode input

`unicode.rs`: the streaming UTF-8 decoder, which keeps at most four bytes between calls, and the
grapheme queries on cell text. `fromUtf8` stands for `std::str::from_utf8`.
-/

namespace FesTerm

open Checked

def inRange (low high byte : UInt8) : Bool := decide (low ≤ byte) && decide (byte ≤ high)

/-- The bytes that may follow a leading byte, in second position and later. -/
def validSecondByte (lead byte : UInt8) : Bool :=
  if lead = 0xe0 then inRange 0xa0 0xbf byte
  else if lead = 0xed then inRange 0x80 0x9f byte
  else if lead = 0xf0 then inRange 0x90 0xbf byte
  else if lead = 0xf4 then inRange 0x80 0x8f byte
  else inRange 0x80 0xbf byte

def tailBits (byte : UInt8) : Nat := byte.toNat % 64

/-- `std::str::from_utf8`: the characters of a well-formed byte sequence. -/
def fromUtf8 : List UInt8 → Option (List Char)
  | [] => some []
  | a :: rest =>
    if a < 0x80 then (fromUtf8 rest).map (Char.ofNat a.toNat :: ·)
    else
      match rest with
      | [] => none
      | b :: rest =>
        if !validSecondByte a b then none
        else if inRange 0xc2 0xdf a then
          (fromUtf8 rest).map (Char.ofNat ((a.toNat % 32) * 64 + tailBits b) :: ·)
        else
          match rest with
          | [] => none
          | c :: rest =>
            if !inRange 0x80 0xbf c then none
            else if inRange 0xe0 0xef a then
              (fromUtf8 rest).map
                (Char.ofNat ((a.toNat % 16) * 4096 + tailBits b * 64 + tailBits c) :: ·)
            else
              match rest with
              | [] => none
              | d :: rest =>
                if !inRange 0x80 0xbf d then none
                else if inRange 0xf0 0xf4 a then
                  (fromUtf8 rest).map (Char.ofNat ((a.toNat % 8) * 262144 + tailBits b * 4096 +
                    tailBits c * 64 + tailBits d) :: ·)
                else none

/-- What a byte completes. -/
inductive Utf8Advance where
  | pending
  | character (character : Char)
  | invalid
  deriving DecidableEq

/-- A strict UTF-8 decoder; `bytes` is an array of four bytes. -/
structure Utf8Decoder where
  bytes : List UInt8
  length : Nat
  expected : Nat
  deriving DecidableEq

namespace Utf8Decoder

def new : Utf8Decoder := ⟨[0, 0, 0, 0], 0, 0⟩

/-- A character is begun. -/
def pending (decoder : Utf8Decoder) : Bool := decoder.expected ≠ 0

/-- The length of the sequence a leading byte announces. -/
def sequenceLength (byte : UInt8) : Option Nat :=
  if inRange 0xc2 0xdf byte then some 2
  else if inRange 0xe0 0xef byte then some 3
  else if inRange 0xf0 0xf4 byte then some 4
  else none

/-- `start`: the result is `false` when the byte cannot begin a sequence. -/
def start (decoder : Utf8Decoder) (byte : UInt8) : Option (Utf8Decoder × Bool) :=
  match sequenceLength byte with
  | none => some (decoder, false)
  | some expected => do
    let bytes ← setAt decoder.bytes 0 byte
    return ({ bytes := bytes, length := 1, expected := expected }, true)

def reset (decoder : Utf8Decoder) : Utf8Decoder := { decoder with length := 0, expected := 0 }

/-- The next byte of the character that is begun. -/
def advance (decoder : Utf8Decoder) (byte : UInt8) : Option (Utf8Decoder × Utf8Advance) := do
  let lead ← decoder.bytes[0]?
  let isSecondByte := decoder.length = 1
  if !inRange 0x80 0xbf byte ∨ isSecondByte ∧ !validSecondByte lead byte then
    return (decoder.reset, .invalid)
  let bytes ← setAt decoder.bytes decoder.length byte
  let decoder := { decoder with bytes := bytes, length := decoder.length + 1 }
  if decoder.length < decoder.expected then
    return (decoder, .pending)
  let sequence ← slice decoder.bytes 0 decoder.expected
  match (fromUtf8 sequence).bind List.head? with
  | some character => return (decoder.reset, .character character)
  | none => return (decoder.reset, .invalid)

/-- The loop of the validator: every stored byte keeps a fresh decoder waiting. -/
def replays (decoder : Utf8Decoder) : List UInt8 → Option Bool
  | [] => some true
  | byte :: rest => do
    match ← decoder.advance byte with
    | (decoder, .pending) => decoder.replays rest
    | _ => some false

/-- `Utf8Decoder::validate_recovery_state`; the outer `Option` is a failing index. -/
def validateRecoveryState (decoder : Utf8Decoder) : Option (Except String Unit) := do
  if decoder.expected > decoder.bytes.length then
    return .error s!"utf-8 decoder expects {decoder.expected} bytes, exceeding the {decoder.bytes.length}-byte maximum"
  if decoder.expected = 0 then
    if decoder.length ≠ 0 then
      return .error s!"utf-8 decoder stores {decoder.length} pending bytes without an active sequence"
    return .ok ()
  if decoder.length = 0 ∨ decoder.length > decoder.expected then
    return .error s!"utf-8 decoder stores {decoder.length} bytes for a {decoder.expected}-byte sequence"
  let lead ← decoder.bytes[0]?
  let validLead :=
    if decoder.expected = 2 then inRange 0xc2 0xdf lead
    else if decoder.expected = 3 then inRange 0xe0 0xef lead
    else if decoder.expected = 4 then inRange 0xf0 0xf4 lead
    else false
  if !validLead then
    return .error "utf-8 decoder stores an invalid leading byte"
  let (restarted, started) ← new.start lead
  if !started then
    return .error "utf-8 decoder could not restart its stored leading byte"
  if restarted.expected ≠ decoder.expected then
    return .error s!"utf-8 decoder expects {decoder.expected} bytes but its leading byte implies {restarted.expected}"
  let stored ← slice decoder.bytes 1 decoder.length
  if ← restarted.replays stored then
    return .ok ()
  return .error "utf-8 decoder stores bytes that do not represent a pending sequence"

end Utf8Decoder

def isAscii (character : Char) : Bool := character.toNat < 0x80

variable [Platform]

def extendsGrapheme (cluster : List Char) (character : Char) : Bool :=
  !isAscii character && Platform.graphemeCount (cluster ++ [character]) == 1

def graphemeWidth (cluster : List Char) : Nat := min (Platform.strWidth cluster) 2

end FesTerm
