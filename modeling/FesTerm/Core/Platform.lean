import Mathlib

/-!
# What the core takes from its libraries

The terminal core calls four libraries: `unicode-width` and `unicode-segmentation` for the display width
and the grapheme boundaries of text, `compact_str` for the storage of cell text, and `url` for the
normalisation of hyperlink targets. It also observes the growth of `Vec` buffers and the layout of its
own types, because retained history is charged by allocated capacity. `Platform` collects these
observations, with what the core relies on as fields.

Texts are lists of characters; `utf8Len` is their length in bytes.
-/

namespace FesTerm

/-- `str::len`. -/
def utf8Len (text : List Char) : Nat := (text.map Char.utf8Size).sum

/-- `char::REPLACEMENT_CHARACTER`. -/
def replacementCharacter : Char := '\uFFFD'

/-- The libraries and the memory layout the core runs on. -/
class Platform where
  /-- `UnicodeWidthChar::width`. -/
  charWidth : Char → Option Nat
  /-- `UnicodeWidthStr::width`. -/
  strWidth : List Char → Nat
  /-- The number of extended grapheme clusters of a text. -/
  graphemeCount : List Char → Nat
  /-- `CompactString::capacity` of a string that was cloned while it held the first text and now
  holds the second. -/
  textCapacity : List Char → List Char → Nat
  /-- The capacity a `Vec` of the given capacity grows to when it must hold the given number of
  elements. -/
  vecGrow : Nat → Nat → Nat
  /-- `normalize_terminal_hyperlink`, which rests on the URL parser. -/
  normalizeTerminalHyperlink : List Char → Option (List Char)
  /-- `size_of::<Cell>()`. -/
  sizeOfCell : Nat
  /-- `size_of::<LogicalLine>()`. -/
  sizeOfLogicalLine : Nat
  /-- `size_of::<usize>()`. -/
  sizeOfUsize : Nat
  /-- Control characters have no width. -/
  control_width : ∀ character : Char, character.toNat < 0x20 → charWidth character = none
  replacement_width : charWidth replacementCharacter = some 1
  len_le_textCapacity : ∀ held text, utf8Len text ≤ textCapacity held text
  textCapacity_le : ∀ held text n, utf8Len held ≤ n → utf8Len text ≤ n → 24 ≤ n →
    textCapacity held text ≤ 2 * n
  le_vecGrow : ∀ capacity required, required ≤ vecGrow capacity required
  sizeOfLogicalLine_pos : 0 < sizeOfLogicalLine

/-- The capacity of a `Vec` after room for `required` elements has been reserved. -/
def reserve [Platform] (capacity required : Nat) : Nat :=
  if required ≤ capacity then capacity else Platform.vecGrow capacity required

/-- The capacity of a `Vec` that was filled by `n` single pushes. -/
def pushedCapacity [Platform] : Nat → Nat
  | 0 => 0
  | n + 1 => reserve (pushedCapacity n) (n + 1)

theorem le_reserve [Platform] (capacity required : Nat) : required ≤ reserve capacity required := by
  unfold reserve
  split
  · assumption
  · exact Platform.le_vecGrow _ _

theorem le_pushedCapacity [Platform] (n : Nat) : n ≤ pushedCapacity n := by
  cases n with
  | zero => exact le_rfl
  | succ n => exact le_reserve _ _

/-- A platform with the published behaviour of the libraries on the inputs used in examples: East
Asian ideographs and Hangul syllables are two columns wide, the combining diacritical marks have no
width and extend the cluster before them, `CompactString` stores up to 24 bytes inline and grows by
one half, and `Vec` doubles. -/
@[reducible] def Platform.reference : Platform where
  charWidth c :=
    if c.toNat < 0x20 ∨ 0x7f ≤ c.toNat ∧ c.toNat < 0xa0 then none
    else if 0x300 ≤ c.toNat ∧ c.toNat ≤ 0x36f then some 0
    else if 0x1100 ≤ c.toNat ∧ c.toNat ≤ 0x115f ∨ 0x3041 ≤ c.toNat ∧ c.toNat ≤ 0x9fff ∨
      0xac00 ≤ c.toNat ∧ c.toNat ≤ 0xd7a3 then some 2
    else some 1
  strWidth text :=
    (text.map fun c =>
      if c.toNat < 0x20 ∨ 0x7f ≤ c.toNat ∧ c.toNat < 0xa0 then 1
      else if 0x300 ≤ c.toNat ∧ c.toNat ≤ 0x36f then 0
      else if 0x1100 ≤ c.toNat ∧ c.toNat ≤ 0x115f ∨ 0x3041 ≤ c.toNat ∧ c.toNat ≤ 0x9fff ∨
        0xac00 ≤ c.toNat ∧ c.toNat ≤ 0xd7a3 then 2
      else 1).sum
  graphemeCount text :=
    match text with
    | [] => 0
    | _ :: rest => 1 + (rest.filter fun c => !(0x300 ≤ c.toNat && c.toNat ≤ 0x36f)).length
  textCapacity held text := max (max 24 (utf8Len held)) (max (utf8Len text) (utf8Len held * 3 / 2))
  vecGrow capacity required := max (max (2 * capacity) required) 4
  normalizeTerminalHyperlink target := some target
  sizeOfCell := 64
  sizeOfLogicalLine := 112
  sizeOfUsize := 8
  control_width _ h := if_pos (.inl h)
  replacement_width := by decide
  len_le_textCapacity held text := by omega
  textCapacity_le held text n hh ht hn := by omega
  le_vecGrow capacity required := by omega
  sizeOfLogicalLine_pos := by decide

end FesTerm
