import FesTerm.Sessiond.Protocol

/-!
# The notices of protocol 1

A daemon of protocol 1 sends its output without frames, and ends it with one of two texts. The readers
of such a stream look for these: `OutputScanner` in the client of a session, `AttachOutputScanner` in the
`attach` command, which passes on the output to a `Write` instead of returning it.
-/

namespace FesTerm

def stolenNoticeBytes : List UInt8 :=
  ascii "\n[festerm-sessiond] SESSION_STOLEN: reattached from another client\n"

def exitedNoticeBytes : List UInt8 := ascii "\n[festerm-sessiond] SESSION_EXITED\n"

def windows (bytes : List UInt8) (size : Nat) : List (List UInt8) :=
  (List.range (bytes.length + 1 - size)).map fun start => (bytes.drop start).take size

def findBytes (haystack needle : List UInt8) : Option Nat :=
  (windows haystack needle.length).findIdx? fun window => decide (window = needle)

/-- The longest proper start of a marker that the data ends with. -/
def markerSuffixLen (data marker : List UInt8) : Nat :=
  let maximum := min data.length (marker.length - 1)
  ((List.range' 1 maximum).reverse.find? fun length => (marker.take length).isSuffixOf data).getD 0

def partialMarkerSuffixLen (data : List UInt8) : Nat :=
  (([stolenNoticeBytes, exitedNoticeBytes].map (markerSuffixLen data)).max?).getD 0

inductive ScanResult where
  | output (bytes : List UInt8)
  | pending
  | exited (bytes : List UInt8)
  | stolen (bytes : List UInt8)
  deriving DecidableEq

structure OutputScanner where
  pending : List UInt8
  deriving DecidableEq

namespace OutputScanner

def default : OutputScanner := ⟨[]⟩

def push (scanner : OutputScanner) (bytes : List UInt8) : ScanResult × OutputScanner :=
  let pending := scanner.pending ++ bytes
  match findBytes pending stolenNoticeBytes with
  | some position => (.stolen (pending.take position), ⟨[]⟩)
  | none =>
    match findBytes pending exitedNoticeBytes with
    | some position => (.exited (pending.take position), ⟨[]⟩)
    | none =>
      let retained := partialMarkerSuffixLen pending
      let flushCount := pending.length - retained
      if flushCount = 0 then (.pending, ⟨pending⟩)
      else (.output (pending.take flushCount), ⟨pending.drop flushCount⟩)

def close (scanner : OutputScanner) : Option (List UInt8) × OutputScanner :=
  if scanner.pending.isEmpty then (none, scanner) else (some scanner.pending, ⟨[]⟩)

end OutputScanner

inductive AttachOutcome where
  | closed
  | exited
  | stolen
  deriving DecidableEq

/-- A `Write`, with the state it leaves also when it fails. -/
structure ByteWriter (W : Type) where
  writeAll : W → List UInt8 → Except IoError Unit × W
  flush : W → Except IoError Unit × W

structure AttachOutputScanner where
  pending : List UInt8
  deriving DecidableEq

namespace AttachOutputScanner

def default : AttachOutputScanner := ⟨[]⟩

variable {W : Type}

/-- `write_all` and `flush`, each with a `?`. -/
def emit (writer : ByteWriter W) (output : W) (bytes : List UInt8) : Except IoError Unit × W :=
  match writer.writeAll output bytes with
  | (.error error, output) => (.error error, output)
  | (.ok (), output) => writer.flush output

def push (writer : ByteWriter W) (scanner : AttachOutputScanner) (bytes : List UInt8) (output : W) :
    Except IoError (Option AttachOutcome) × AttachOutputScanner × W :=
  let pending := scanner.pending ++ bytes
  match findBytes pending stolenNoticeBytes with
  | some position =>
    match emit writer output (pending.take position) with
    | (.error error, output) => (.error error, ⟨pending⟩, output)
    | (.ok (), output) => (.ok (some .stolen), ⟨[]⟩, output)
  | none =>
    match findBytes pending exitedNoticeBytes with
    | some position =>
      match emit writer output (pending.take position) with
      | (.error error, output) => (.error error, ⟨pending⟩, output)
      | (.ok (), output) => (.ok (some .exited), ⟨[]⟩, output)
    | none =>
      let retained := partialMarkerSuffixLen pending
      let flushCount := pending.length - retained
      if flushCount = 0 then (.ok none, ⟨pending⟩, output)
      else
        match writer.writeAll output (pending.take flushCount) with
        | (.error error, output) => (.error error, ⟨pending⟩, output)
        | (.ok (), output) =>
          match writer.flush output with
          | (.error error, output) => (.error error, ⟨pending.drop flushCount⟩, output)
          | (.ok (), output) => (.ok none, ⟨pending.drop flushCount⟩, output)

def close (writer : ByteWriter W) (scanner : AttachOutputScanner) (output : W) :
    Except IoError AttachOutcome × AttachOutputScanner × W :=
  match emit writer output scanner.pending with
  | (.error error, output) => (.error error, scanner, output)
  | (.ok (), output) => (.ok .closed, ⟨[]⟩, output)

/-- The loop goes on unless the push has ended it. -/
def proceed (pushed : Except IoError (Option AttachOutcome) × AttachOutputScanner × W)
    (next : AttachOutputScanner → W → Except IoError (Option AttachOutcome) × AttachOutputScanner × W) :
    Except IoError (Option AttachOutcome) × AttachOutputScanner × W :=
  match pushed with
  | (.ok none, scanner, output) => next scanner output
  | ended => ended

/-- The loop of the callers over the chunks that are read. -/
def forward (writer : ByteWriter W) (scanner : AttachOutputScanner) (output : W) :
    List (List UInt8) → Except IoError (Option AttachOutcome) × AttachOutputScanner × W
  | [] => (.ok none, scanner, output)
  | chunk :: chunks =>
    proceed (scanner.push writer chunk output) fun scanner output =>
      scanner.forward writer output chunks

end AttachOutputScanner

end FesTerm
