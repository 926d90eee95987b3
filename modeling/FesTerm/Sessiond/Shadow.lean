import FesTerm.Sessiond.Recovery

/-!
# The shadow terminal

What the daemon does with its own terminal as output, sizes and recovery commands come in, and what the
client does with the terminal of the snapshot as the events for it come in. Both sides use the same
functions of `main.rs`; input events of the terminal are not modelled.
-/

namespace FesTerm

variable [Platform]

/-- `mirror_terminal_output`, with the replies. -/
def mirrorTerminalOutput (terminal : Terminal) (bytes : List UInt8) : Option (List UInt8 × Terminal) := do
  let terminal ← terminal.ingest bytes
  let (replies, terminal) := terminal.drainReplies
  some (replies, terminal.takeReplyQueueOverflowed.2)

def DimensionsError.text : DimensionsError → String
  | .tooFewColumns columns => s!"terminal requires at least 2 columns, received {columns}"
  | .zeroRows => "terminal requires at least 1 row, received 0"
  | .cellCountOverflow columns rows => 
    s!"terminal dimensions {columns} columns by {rows} rows overflow the cell count"
  | .tooManyCells cellCount maximum =>
    s!"terminal dimensions require {cellCount} cells, exceeding the maximum of {maximum}"

/-- `resize_shadow_terminal`; the allocations of the resize are taken to succeed. -/
def resizeShadowTerminal (terminal : Terminal) (size : PtySize) : Option (Except IoError Terminal) :=
  match Dimensions.new size.cols.toNat size.rows.toNat with
  | .error error => some (.error ⟨.invalidInput, error.text⟩)
  | .ok dimensions => (terminal.resize dimensions).map .ok

def applyRecoverySyncCommand (terminal : Terminal) : RecoverySyncCommand → Option Terminal
  | .setScrollbackLimit limitBytes => terminal.setScrollbackLimit limitBytes
  | .setColorScheme scheme => some (terminal.setColorScheme scheme)
  | .mirrorBytes bytes => (mirrorTerminalOutput terminal bytes).map Prod.snd
  | .resetToInitialState =>
    some terminal.resetToInitialState.drainReplies.2.takeReplyQueueOverflowed.2

variable [Bincode]

/-- What `forward_attach_with_input` does with an event; an error ends the attachment. The last two
events end it as well and leave the terminal as it is. -/
def replayEvent (terminal : Terminal) : ServerFrameEvent → Option (Except IoError Terminal)
  | .output bytes => (mirrorTerminalOutput terminal bytes).map fun mirrored => .ok mirrored.2
  | .recoverySync payload =>
    match decodeRecoverySyncCommand payload with
    | .error error => some (.error ⟨.other, error⟩)
    | .ok command => (applyRecoverySyncCommand terminal command).map .ok
  | .resizeApplied size =>
    match Dimensions.new size.columns.toNat size.rows.toNat with
    | .error error => some (.error ⟨.other, error.text⟩)
    | .ok dimensions => (terminal.resize dimensions).map .ok
  | .stolen | .exited => some (.ok terminal)

/-- The events of a client, one after the other. -/
def replay (terminal : Terminal) : List ServerFrameEvent → Option (Except IoError Terminal)
  | [] => some (.ok terminal)
  | event :: events => do
    match ← replayEvent terminal event with
    | .error error => some (.error error)
    | .ok terminal => replay terminal events

end FesTerm
