import FesTerm.Core.Platform

/-!
# Cells, dimensions and cursors

The display cell of `cell.rs` with its colours and attributes, and the geometry types of `lib.rs`.
A `Dimensions` carries the bounds its constructor checks, so that every value is a grid the core
agrees to allocate.
-/

namespace FesTerm

/-- `usize::MAX` on a 64-bit target. -/
def usizeMax : Nat := 2 ^ 64 - 1

def maxGraphemeBytes : Nat := 256

def maxCellTextCapacityBytes : Nat := maxGraphemeBytes * 2

def maxCellCount : Nat := 4 * 1024 * 1024

/-- A colour value used by a cell. -/
inductive Color where
  | default
  | indexed (index : UInt8)
  | rgb (red green blue : UInt8)
  deriving DecidableEq

/-- Bit flags for the text attributes; `protectedBit` is not a rendition. -/
structure Attributes where
  bits : BitVec 16
  deriving DecidableEq

namespace Attributes

def none : Attributes := ⟨0⟩
def bold : Attributes := ⟨1#16 <<< 0⟩
def faint : Attributes := ⟨1#16 <<< 1⟩
def italic : Attributes := ⟨1#16 <<< 2⟩
def underline : Attributes := ⟨1#16 <<< 3⟩
def doubleUnderline : Attributes := ⟨1#16 <<< 4⟩
def slowBlink : Attributes := ⟨1#16 <<< 5⟩
def rapidBlink : Attributes := ⟨1#16 <<< 6⟩
def inverse : Attributes := ⟨1#16 <<< 7⟩
def concealed : Attributes := ⟨1#16 <<< 8⟩
def strikethrough : Attributes := ⟨1#16 <<< 9⟩
/-- `PROTECTED`: the cell is spared by selective erasure. -/
def protectedBit : Attributes := ⟨1#16 <<< 10⟩

def contains (self other : Attributes) : Bool := self.bits &&& other.bits == other.bits
def «with» (self other : Attributes) : Attributes := ⟨self.bits ||| other.bits⟩
def without (self other : Attributes) : Attributes := ⟨self.bits &&& ~~~other.bits⟩

end Attributes

/-- The display-cell role occupied by a cell. A double-width character owns a leading `double` cell
and the following `continuation` cell. -/
inductive CellWidth where
  | single
  | double
  | continuation
  deriving DecidableEq

def CellWidth.columns : CellWidth → Nat
  | single => 1
  | double => 2
  | continuation => 0

/-- A cell of the screen, with the capacity of its text. -/
structure Cell where
  text : List Char
  textCapacityBytes : Nat
  width : CellWidth
  foreground : Color
  background : Color
  attributes : Attributes
  hyperlink : Option (List Char)
  deriving DecidableEq

namespace Cell

def isContinuation (cell : Cell) : Bool := cell.width == .continuation

def isProtected (cell : Cell) : Bool := cell.attributes.contains .protectedBit

def textOwnedCharge (cell : Cell) : Nat := cell.textCapacityBytes

def validateRecoveryState (cell : Cell) : Except String Unit :=
  if utf8Len cell.text > maxGraphemeBytes then
    .error s!"cell stores {utf8Len cell.text} text bytes above the {maxGraphemeBytes}-byte grapheme limit"
  else if cell.textCapacityBytes < utf8Len cell.text then
    .error s!"cell records {cell.textCapacityBytes} text capacity bytes for {utf8Len cell.text} bytes of text"
  else if cell.textCapacityBytes > maxCellTextCapacityBytes then
    .error s!"cell records {cell.textCapacityBytes} text capacity bytes above the {maxCellTextCapacityBytes}-byte recovery limit"
  else .ok ()

/-- The text of a cell respects the bounds that recovery checks. -/
structure TextFits (cell : Cell) : Prop where
  len_le : utf8Len cell.text ≤ maxGraphemeBytes
  len_le_capacity : utf8Len cell.text ≤ cell.textCapacityBytes
  capacity_le : cell.textCapacityBytes ≤ maxCellTextCapacityBytes

/-- The text of a cell fits and does not break the line. -/
structure TextOk (cell : Cell) : Prop extends TextFits cell where
  lineFeed : '\n' ∉ cell.text

theorem validateRecoveryState_ok {cell : Cell} : cell.validateRecoveryState = .ok () ↔ cell.TextFits := by
  unfold validateRecoveryState
  constructor
  · intro h
    split at h
    · cases h
    · split at h
      · cases h
      · split at h
        · cases h
        · exact ⟨by omega, by omega, by omega⟩
  · rintro ⟨h1, h2, h3⟩
    rw [if_neg (by omega), if_neg (by omega), if_neg (by omega)]

end Cell

variable [Platform]

def blankCell : Cell where
  text := [' ']
  textCapacityBytes := Platform.textCapacity [] [' ']
  width := .single
  foreground := .default
  background := .default
  attributes := .none
  hyperlink := none

def isStructuralBlank (cell : Cell) : Bool :=
  cell.text == [' '] && cell.width == .single && cell.foreground == .default &&
    cell.background == .default && cell.attributes == .none && cell.hyperlink.isNone

theorem textOk_of_short {cell : Cell} {held : List Char} (hheld : utf8Len held ≤ maxGraphemeBytes)
    (hlen : utf8Len cell.text ≤ maxGraphemeBytes)
    (hcap : cell.textCapacityBytes = Platform.textCapacity held cell.text)
    (hfeed : '\n' ∉ cell.text) : cell.TextOk where
  len_le := hlen
  len_le_capacity := by rw [hcap]; exact Platform.len_le_textCapacity _ _
  capacity_le := by
    rw [hcap, maxCellTextCapacityBytes, Nat.mul_comm]
    exact Platform.textCapacity_le _ _ _ hheld hlen (by decide)
  lineFeed := hfeed

theorem blankCell_textOk : (blankCell).TextOk :=
  textOk_of_short (by decide) (show utf8Len [' '] ≤ maxGraphemeBytes by decide) rfl
    (show '\n' ∉ [' '] by decide)

omit [Platform]

inductive DimensionsError where
  | tooFewColumns (columns : Nat)
  | zeroRows
  | cellCountOverflow (columns rows : Nat)
  | tooManyCells (cellCount maximum : Nat)
  deriving DecidableEq

/-- The size of a grid. The fields beside the numbers are what `Dimensions::new` checks. -/
structure Dimensions where
  columns : Nat
  rows : Nat
  cellCount : Nat
  two_le_columns : 2 ≤ columns
  one_le_rows : 1 ≤ rows
  cellCount_eq : cellCount = columns * rows
  cellCount_le : cellCount ≤ maxCellCount
  deriving DecidableEq

def Dimensions.new (columns rows : Nat) : Except DimensionsError Dimensions :=
  if hc : columns < 2 then .error (.tooFewColumns columns)
  else if hr : rows = 0 then .error .zeroRows
  else if columns * rows > usizeMax then .error (.cellCountOverflow columns rows)
  else if hm : columns * rows > maxCellCount then
    .error (.tooManyCells (columns * rows) maxCellCount)
  else .ok {
    columns := columns
    rows := rows
    cellCount := columns * rows
    two_le_columns := by omega
    one_le_rows := by omega
    cellCount_eq := rfl
    cellCount_le := by omega }

structure Cursor where
  column : Nat
  row : Nat
  deriving DecidableEq

def Cursor.InGrid (cursor : Cursor) (dimensions : Dimensions) : Prop :=
  cursor.column < dimensions.columns ∧ cursor.row < dimensions.rows

end FesTerm
