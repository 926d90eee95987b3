import FesTerm.TunnelBridge.Protocol

/-!
# Recovery commands in JSON

The bridge does not pass on the binary recovery commands of the session protocol: it writes them as JSON (`Sync` in
`protocol.rs`). `serde_json` is a parameter; what both ends rely on is that a command that was written is read
back.

`SyncJson.reference` writes the published format. A list of bytes is a list of numbers there, so that every byte
takes two to four.
-/

namespace FesTerm.TunnelBridge

/-- `invalid`. -/
def protocolRefused : IoError := invalidData "experimental tunnel protocol refused"

/-- A recovery command between the two ends of the bridge. -/
inductive Sync where
  | scrollback (limitBytes : ByteLimit)
  | colors (scheme : ColorScheme)
  | bytes (data : List UInt8)
  | reset
  deriving DecidableEq

namespace Sync

/-- `Sync::from`. -/
def ofCommand : RecoverySyncCommand → Sync
  | .setScrollbackLimit limitBytes => .scrollback limitBytes
  | .setColorScheme scheme => .colors scheme
  | .mirrorBytes data => .bytes data
  | .resetToInitialState => .reset

/-- `RecoverySyncCommand::try_from`. -/
def toCommand : Sync → Except IoError RecoverySyncCommand
  | .scrollback limitBytes =>
    if limitBytes.any (· ≤ snapshotLimit) then .ok (.setScrollbackLimit limitBytes) else .error protocolRefused
  | .colors scheme => .ok (.setColorScheme scheme)
  | .bytes data => if data.length ≤ chunkLimit then .ok (.mirrorBytes data) else .error protocolRefused
  | .reset => .ok .resetToInitialState

end Sync

/-- `serde_json::to_vec` and `serde_json::from_slice`, with the texts of their errors. -/
class SyncJson where
  write : Sync → Except String (List UInt8)
  read : List UInt8 → Except String Sync

namespace SyncJson

/-- What is written is read back. -/
def RoundTrips [SyncJson] : Prop := ∀ sync payload, write sync = .ok payload → read payload = .ok sync

def decimal (n : Nat) : List UInt8 := (Nat.toDigits 10 n).map fun c => UInt8.ofNat c.toNat

/-- With commas between. -/
def joined : List (List UInt8) → List UInt8
  | [] => []
  | [item] => item
  | item :: items => item ++ ascii "," ++ joined items

def colorText (color : Rgb) : List UInt8 :=
  ascii "\x7b\"red\":" ++ decimal color.red.toNat ++ (ascii ",\"green\":" ++ decimal color.green.toNat ++
    (ascii ",\"blue\":" ++ decimal color.blue.toNat ++ ascii "\x7d"))

def schemeText (scheme : ColorScheme) : List UInt8 :=
  ascii "\x7b\"foreground\":" ++ colorText scheme.foreground ++ (ascii ",\"background\":" ++
    colorText scheme.background ++ (ascii ",\"cursor\":" ++ colorText scheme.cursor ++
      (ascii ",\"ansi\":[" ++ joined (scheme.ansi.map colorText) ++ ascii "]\x7d")))

/-- `usize::MAX` stands for no limit. -/
def writeSync : Sync → Except String (List UInt8)
  | .scrollback none => .ok (ascii "\x7b\"Scrollback\":" ++ decimal usizeMax ++ ascii "\x7d")
  | .scrollback (some limit) =>
    if limit < usizeMax then .ok (ascii "\x7b\"Scrollback\":" ++ decimal limit ++ ascii "\x7d")
    else .error "the limit is not a usize"
  | .colors scheme => .ok (ascii "\x7b\"Colors\":" ++ schemeText scheme ++ ascii "\x7d")
  | .bytes data =>
    .ok (ascii "\x7b\"Bytes\":[" ++ joined (data.map fun byte => decimal byte.toNat) ++ ascii "]\x7d")
  | .reset => .ok (ascii "\"Reset\"")

/-- The numbers in a text; the one that has begun comes first. -/
def numbersFrom : Option Nat → List UInt8 → List Nat
  | current, [] => current.toList
  | current, byte :: rest =>
    if isDigit byte then numbersFrom (some (10 * current.getD 0 + (byte.toNat - 0x30))) rest
    else current.toList ++ numbersFrom none rest

/-- Which variant it is shows in its third byte; the rest is read off its numbers. -/
def readSync (text : List UInt8) : Except String Sync :=
  let numbers := numbersFrom none text
  if text[2]? = some 0x53 then
    match numbers with
    | [limit] => .ok (.scrollback (if limit = usizeMax then none else some limit))
    | _ => .error "expected usize"
  else if text[2]? = some 0x43 then
    match Bincode.schemeOf (numbers.map UInt8.ofNat) with
    | some scheme => .ok (.colors scheme)
    | none => .error "expected struct ColorScheme with 4 elements"
  else if text[2]? = some 0x42 then .ok (.bytes (numbers.map UInt8.ofNat))
  else if text = ascii "\"Reset\"" then .ok .reset
  else .error "expected value"

@[reducible] def reference : SyncJson where
  write := writeSync
  read := readSync

end SyncJson

end FesTerm.TunnelBridge
