import FesTerm.Core.Parser

/-!
# Modes, colours and the transport queue

`modes.rs`, `colors.rs` and `replies.rs`: the flags that control functions switch, the colours that the
terminal reports, and the bounded queue that replies are written to.
-/

namespace FesTerm

/-- Visual cursor shape requested by DECSCUSR. -/
inductive CursorStyle where
  | blinkingBlock
  | steadyBlock
  | blinkingUnderline
  | steadyUnderline
  | blinkingBar
  | steadyBar
  deriving DecidableEq

/-- Mouse tracking mode requested by the application. -/
inductive MouseTrackingMode where
  | none
  | x10
  | buttonEvent
  | buttonMotion
  | anyMotion
  deriving DecidableEq

structure TerminalModes where
  autoWrap : Bool
  reverseWrap : Bool
  originMode : Bool
  leftRightMarginMode : Bool
  insertMode : Bool
  lineFeedNewLine : Bool
  keyboardLocked : Bool
  backarrowSendsBackspace : Bool
  alternateScreen : Bool
  cursorVisible : Bool
  applicationCursor : Bool
  applicationKeypad : Bool
  bracketedPaste : Bool
  focusReporting : Bool
  mouseTracking : MouseTrackingMode
  sgrMouse : Bool
  deriving DecidableEq

def TerminalModes.default : TerminalModes where
  autoWrap := true
  reverseWrap := false
  originMode := false
  leftRightMarginMode := false
  insertMode := false
  lineFeedNewLine := false
  keyboardLocked := false
  backarrowSendsBackspace := false
  alternateScreen := false
  cursorVisible := true
  applicationCursor := false
  applicationKeypad := false
  bracketedPaste := false
  focusReporting := false
  mouseTracking := .none
  sgrMouse := false

/-- A fully resolved colour. -/
structure Rgb where
  red : UInt8
  green : UInt8
  blue : UInt8
  deriving DecidableEq

/-- A hexadecimal digit. -/
def hexDigit (upper : Bool) (digit : Nat) : Char :=
  if digit < 10 then Char.ofNat (0x30 + digit)
  else Char.ofNat ((if upper then 0x41 else 0x61) + (digit - 10))

/-- The formats `:04x` and `:04X` of a 16-bit value. -/
def hexDigits (upper : Bool) (value : Nat) : String :=
  String.ofList ([value / 4096 % 16, value / 256 % 16, value / 16 % 16, value % 16].map (hexDigit upper))

/-- `to_xparsecolor`: every component is scaled to 16 bits. -/
def Rgb.toXparsecolor (color : Rgb) : String :=
  let scale := fun component : UInt8 => hexDigits false (component.toNat * 0x101)
  "rgb:" ++ scale color.red ++ "/" ++ scale color.green ++ "/" ++ scale color.blue

/-- The colours an embedder paints. -/
structure ColorScheme where
  foreground : Rgb
  background : Rgb
  cursor : Rgb
  ansi : List Rgb
  length_ansi : ansi.length = 16
  deriving DecidableEq

namespace ColorScheme

def defaultAnsi : List Rgb :=
  [⟨0, 0, 0⟩, ⟨205, 49, 49⟩, ⟨13, 188, 121⟩, ⟨229, 229, 16⟩, ⟨36, 114, 200⟩, ⟨188, 63, 188⟩,
    ⟨17, 168, 205⟩, ⟨229, 229, 229⟩, ⟨102, 102, 102⟩, ⟨241, 76, 76⟩, ⟨35, 209, 139⟩, ⟨245, 245, 67⟩,
    ⟨59, 142, 234⟩, ⟨214, 112, 214⟩, ⟨41, 184, 219⟩, ⟨255, 255, 255⟩]

/-- `ColorScheme::default`: the cursor is drawn in the default foreground. -/
def default : ColorScheme where
  foreground := ⟨0xe8, 0xed, 0xf2⟩
  background := ⟨0x11, 0x16, 0x1e⟩
  cursor := ⟨0xe8, 0xed, 0xf2⟩
  ansi := defaultAnsi
  length_ansi := rfl

def levels : List UInt8 := [0, 95, 135, 175, 215, 255]

/-- `palette`: the scheme's entries, then the colour cube and the gray ramp. -/
def palette (scheme : ColorScheme) (index : UInt8) : Option Rgb :=
  if index.toNat ≤ 15 then scheme.ansi[index.toNat]?
  else if index.toNat ≤ 231 then do
    let value := index.toNat - 16
    let red ← levels[value / 36]?
    let green ← levels[value / 6 % 6]?
    let blue ← levels[value % 6]?
    some ⟨red, green, blue⟩
  else
    let level := UInt8.ofNat (8 + (index.toNat - 232) * 10)
    some ⟨level, level, level⟩

theorem palette_isSome (scheme : ColorScheme) (index : UInt8) : (scheme.palette index).isSome = true := by
  have hlevels : ∀ k, k < 6 → ∃ level, levels[k]? = some level := fun k hk =>
    ⟨_, List.getElem?_eq_getElem (show k < levels.length from hk)⟩
  unfold palette
  split
  · next h =>
    have hlt : index.toNat < scheme.ansi.length := by rw [scheme.length_ansi]; omega
    rw [List.getElem?_eq_getElem hlt]
    rfl
  · split
    · next h =>
      obtain ⟨red, hr⟩ := hlevels ((index.toNat - 16) / 36) (by omega)
      obtain ⟨green, hg⟩ := hlevels ((index.toNat - 16) / 6 % 6) (by omega)
      obtain ⟨blue, hb⟩ := hlevels ((index.toNat - 16) % 6) (by omega)
      simp [hr, hg, hb]
    · rfl

end ColorScheme

def transportQueueHighWatermark : Nat := 64 * 1024

/-- `queue_transport_bytes`: the write is taken whole or not at all. The flag reports an overflow. -/
def queueTransportBytes (queue bytes : List UInt8) : List UInt8 × Bool :=
  if transportQueueHighWatermark < queue.length then (queue, true)
  else if transportQueueHighWatermark - queue.length < bytes.length then (queue, true)
  else (queue ++ bytes, false)

/-- Which family of sequences last set or cleared character protection. -/
inductive ProtectionSource where
  | none
  /-- `DECSCA`. -/
  | dec
  /-- `SPA` and `EPA`. -/
  | iso
  deriving DecidableEq

end FesTerm
