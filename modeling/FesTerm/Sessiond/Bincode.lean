import FesTerm.Core.Replies
import FesTerm.Lib.Framing

/-!
# The external serializer

The commands that keep the recovery terminals in step travel in the format of the `bincode` library,
which is a parameter. What the sessions rely on is that a command that was written is read back, and
that a command that was read takes no more bytes when it is written again.

`Bincode.reference` writes the published format: little-endian numbers of fixed size, a variant as a
number of four bytes, the length of a vector as one of eight.
-/

namespace FesTerm

open Framing

/-- `RecoverySyncCommand`. -/
inductive RecoverySyncCommand where
  | setScrollbackLimit (limitBytes : ByteLimit)
  | setColorScheme (scheme : ColorScheme)
  | mirrorBytes (bytes : List UInt8)
  | resetToInitialState
  deriving DecidableEq

/-- `bincode::serialize` and `bincode::deserialize`, with the texts of their errors. -/
class Bincode where
  serialize : RecoverySyncCommand → Except String (List UInt8)
  deserialize : List UInt8 → Except String RecoverySyncCommand

namespace Bincode

/-- What is serialized is read back. -/
def RoundTrips [Bincode] : Prop :=
  ∀ command payload, serialize command = .ok payload → deserialize payload = .ok command

/-- What was read can be written again, in no more bytes than it was read from. -/
def Rewrites [Bincode] : Prop :=
  ∀ payload command, deserialize payload = .ok command →
    ∃ written, serialize command = .ok written ∧ written.length ≤ payload.length

/-! ## The published format -/

def littleEndian (count value : Nat) : List UInt8 := (toBytes count value).reverse

def ofLittleEndian (bytes : List UInt8) : Nat := ofBytes bytes.reverse

def colorBytes (color : Rgb) : List UInt8 := [color.red, color.green, color.blue]

def colorsOf : List UInt8 → List Rgb
  | red :: green :: blue :: rest => ⟨red, green, blue⟩ :: colorsOf rest
  | _ => []

def schemeBytes (scheme : ColorScheme) : List UInt8 :=
  (scheme.foreground :: scheme.background :: scheme.cursor :: scheme.ansi).flatMap colorBytes

def schemeOf (bytes : List UInt8) : Option ColorScheme :=
  match colorsOf (bytes.take 57) with
  | foreground :: background :: cursor :: ansi =>
    if h : ansi.length = 16 then some ⟨foreground, background, cursor, ansi, h⟩ else none
  | _ => none

/-- `usize::MAX` stands for no limit. -/
def writeCommand : RecoverySyncCommand → Except String (List UInt8)
  | .setScrollbackLimit none => .ok (littleEndian 4 0 ++ littleEndian 8 usizeMax)
  | .setScrollbackLimit (some limit) =>
    if limit < usizeMax then .ok (littleEndian 4 0 ++ littleEndian 8 limit)
    else .error "the limit is not a usize"
  | .setColorScheme scheme => .ok (littleEndian 4 1 ++ schemeBytes scheme)
  | .mirrorBytes bytes =>
    if bytes.length ≤ usizeMax then .ok (littleEndian 4 2 ++ littleEndian 8 bytes.length ++ bytes)
    else .error "the length is not a usize"
  | .resetToInitialState => .ok (littleEndian 4 3)

def endOfFile : String := "io error: unexpected end of file"

/-- What follows the variant. -/
def readBody (variant : Nat) (body : List UInt8) : Except String RecoverySyncCommand :=
  if variant = 0 then
    if body.length < 8 then .error endOfFile
    else
      let limit := ofLittleEndian (body.take 8)
      .ok (.setScrollbackLimit (if limit = usizeMax then none else some limit))
  else if variant = 1 then
    match schemeOf body with
    | none => .error endOfFile
    | some scheme => .ok (.setColorScheme scheme)
  else if variant = 2 then
    if body.length < 8 then .error endOfFile
    else if (body.drop 8).length < ofLittleEndian (body.take 8) then .error endOfFile
    else .ok (.mirrorBytes ((body.drop 8).take (ofLittleEndian (body.take 8))))
  else if variant = 3 then .ok .resetToInitialState
  else .error s!"invalid value: integer {variant}, expected variant index 0 <= i < 4"

def readCommand (payload : List UInt8) : Except String RecoverySyncCommand :=
  if payload.length < 4 then .error endOfFile
  else readBody (ofLittleEndian (payload.take 4)) (payload.drop 4)

@[reducible] def reference : Bincode where
  serialize := writeCommand
  deserialize := readCommand

@[simp] theorem length_littleEndian (count value : Nat) : (littleEndian count value).length = count := by
  rw [littleEndian, List.length_reverse, length_toBytes]

variable {value : Nat}

theorem ofLittleEndian_littleEndian {count : Nat} (h : value < 256 ^ count) :
    ofLittleEndian (littleEndian count value) = value := by
  rw [ofLittleEndian, littleEndian, List.reverse_reverse, ofBytes_toBytes h]

variable {variant : Nat}

theorem readCommand_variant (h : variant < 256 ^ 4) (body : List UInt8) :
    readCommand (littleEndian 4 variant ++ body) = readBody variant body := by
  have hlength := length_littleEndian 4 variant
  rw [readCommand, if_neg (by rw [List.length_append, hlength]; omega), List.take_left' hlength,
    List.drop_left' hlength, ofLittleEndian_littleEndian h]

theorem colorsOf_colorBytes (colors : List Rgb) : colorsOf (colors.flatMap colorBytes) = colors := by
  induction colors with
  | nil => rfl
  | cons color colors ih =>
    show color :: colorsOf (colors.flatMap colorBytes) = color :: colors
    rw [ih]

variable (scheme : ColorScheme)

theorem length_schemeBytes : (schemeBytes scheme).length = 57 := by
  have hflat : ∀ colors : List Rgb, (colors.flatMap colorBytes).length = colors.length * 3 := fun colors => by
    induction colors with
    | nil => rfl
    | cons color colors ih =>
      rw [List.flatMap_cons, List.length_append, ih, List.length_cons]
      simp only [colorBytes, List.length_cons, List.length_nil]
      omega
  rw [schemeBytes, hflat]
  simp only [List.length_cons, scheme.length_ansi]

theorem schemeOf_schemeBytes : schemeOf (schemeBytes scheme) = some scheme := by
  unfold schemeOf
  rw [List.take_of_length_le (length_schemeBytes scheme).le, schemeBytes, colorsOf_colorBytes]
  simp only [scheme.length_ansi, dite_true]

theorem readBody_limit (h : value < 256 ^ 8) : readBody 0 (littleEndian 8 value) =
      .ok (.setScrollbackLimit (if value = usizeMax then none else some value)) := by
  have hlength := length_littleEndian 8 value
  rw [readBody, if_pos rfl, if_neg (by omega), List.take_of_length_le hlength.le,
    ofLittleEndian_littleEndian h]

variable {bytes : List UInt8}

theorem readBody_bytes (h : bytes.length < 256 ^ 8) :
    readBody 2 (littleEndian 8 bytes.length ++ bytes) = .ok (.mirrorBytes bytes) := by
  have hlength := length_littleEndian 8 bytes.length
  rw [readBody, if_neg (by omega), if_neg (by omega), if_pos rfl,
    if_neg (by rw [List.length_append]; omega), List.take_left' hlength, List.drop_left' hlength,
    ofLittleEndian_littleEndian h, if_neg (by omega), List.take_length]

theorem usizeMax_lt : usizeMax < 256 ^ 8 := by decide

theorem reference_roundTrips :
    letI := reference
    RoundTrips := by
  intro command payload h
  change writeCommand command = .ok payload at h
  show readCommand payload = .ok command
  cases command with
  | setScrollbackLimit limit =>
    rcases limit with _ | limit
    · cases h
      rw [readCommand_variant (by decide), readBody_limit usizeMax_lt, if_pos rfl]
    · simp only [writeCommand] at h
      by_cases hlimit : limit < usizeMax
      · rw [if_pos hlimit] at h
        cases h
        rw [readCommand_variant (by decide), readBody_limit (hlimit.trans usizeMax_lt), if_neg (by omega)]
      · rw [if_neg hlimit] at h
        cases h
  | setColorScheme scheme =>
    cases h
    rw [readCommand_variant (by decide), readBody, if_neg (by omega), if_pos rfl, schemeOf_schemeBytes]
  | mirrorBytes bytes =>
    simp only [writeCommand] at h
    by_cases hlength : bytes.length ≤ usizeMax
    · rw [if_pos hlength] at h
      cases h
      rw [List.append_assoc, readCommand_variant (by decide),
        readBody_bytes (lt_of_le_of_lt hlength usizeMax_lt)]
    · rw [if_neg hlength] at h
      cases h
  | resetToInitialState =>
    cases h
    rw [← List.append_nil (littleEndian 4 3), readCommand_variant (by decide)]
    rfl

theorem ofLittleEndian_lt (bytes : List UInt8) : ofLittleEndian bytes < 256 ^ bytes.length := by
  rw [ofLittleEndian, ← List.length_reverse]
  exact ofBytes_lt bytes.reverse

theorem length_colorsOf (bytes : List UInt8) : 3 * (colorsOf bytes).length ≤ bytes.length := by
  fun_induction colorsOf bytes with
  | case1 red green blue rest ih =>
    simp only [List.length_cons]
    omega
  | case2 => simp

theorem length_of_schemeOf {scheme : ColorScheme} (h : schemeOf bytes = some scheme) :
    57 ≤ bytes.length := by
  have hlength := length_colorsOf (bytes.take 57)
  rw [List.length_take] at hlength
  unfold schemeOf at h
  split at h
  · next foreground background cursor ansi hcolors =>
    rw [hcolors] at hlength
    simp only [List.length_cons] at hlength
    split at h
    · omega
    · cases h
  · cases h

/-- What follows the variant is at least as long as what is written for the command. -/
theorem readBody_rewrites {body : List UInt8} {command : RecoverySyncCommand}
    (h : readBody variant body = .ok command) :
    ∃ written, writeCommand command = .ok written ∧ written.length ≤ 4 + body.length := by
  have hvariant := length_littleEndian 4
  have hnumber := length_littleEndian 8
  unfold readBody at h
  by_cases hlimit : variant = 0
  · rw [if_pos hlimit] at h
    split at h
    · cases h
    · next hbody =>
      have hlt := ofLittleEndian_lt (body.take 8)
      rw [List.length_take, Nat.min_eq_left (by omega)] at hlt
      cases h
      split
      · exact ⟨_, rfl, by rw [List.length_append, hvariant, hnumber]; omega⟩
      · next hne =>
        have hmax : ofLittleEndian (body.take 8) < usizeMax := by
          rw [usizeMax] at hne ⊢
          omega
        refine ⟨_, by simp only [writeCommand]; rw [if_pos hmax], ?_⟩
        rw [List.length_append, hvariant, hnumber]
        omega
  rw [if_neg hlimit] at h
  by_cases hscheme : variant = 1
  · rw [if_pos hscheme] at h
    split at h
    · cases h
    · next scheme hread =>
      cases h
      have hlength := length_of_schemeOf hread
      exact ⟨_, rfl, by rw [List.length_append, hvariant, length_schemeBytes]; omega⟩
  rw [if_neg hscheme] at h
  by_cases hbytes : variant = 2
  · rw [if_pos hbytes] at h
    split at h
    · cases h
    · next hbody =>
      split at h
      · cases h
      · next hrest =>
        have hlt := ofLittleEndian_lt (body.take 8)
        rw [List.length_take, Nat.min_eq_left (by omega)] at hlt
        rw [List.length_drop] at hrest
        cases h
        refine ⟨_, by simp only [writeCommand]; rw [if_pos]; rw [List.length_take, usizeMax]; omega, ?_⟩
        simp only [List.length_append, hvariant, hnumber, List.length_take, List.length_drop]
        omega
  rw [if_neg hbytes] at h
  split at h
  · cases h
    exact ⟨_, rfl, by rw [hvariant]; omega⟩
  · cases h

theorem reference_rewrites :
    letI := reference
    Rewrites := by
  intro payload command h
  change readCommand payload = .ok command at h
  unfold readCommand at h
  split at h
  · cases h
  · next hlength =>
    obtain ⟨written, hwritten, hle⟩ := readBody_rewrites h
    rw [List.length_drop] at hle
    exact ⟨written, hwritten, by omega⟩

end Bincode

end FesTerm
