import FesTerm.Document.Text

/-!
# The buffer view of the vi engine

The end of `vi.rs`: a character-indexed view of the text for the duration of one keystroke, the
helpers that build edits, and the difference of two texts as one edit. A loop over the characters in
front of a position or behind it is the length of the run it passes.

Counts come from the keyboard and are not bounded by any text, so arithmetic on them is arithmetic
on machine words: an overflow stops a build with overflow checks and wraps around in one without.
-/

namespace FesTerm.Document.Vi

open Checked

/-- The build profile: whether an overflow is checked for. -/
class Build where
  overflowChecks : Bool

/-- The result of an operation on `usize`. -/
def usize [Build] (result : Nat) : Option Nat :=
  if result < 2 ^ 64 then some result
  else if Build.overflowChecks then none
  else some (result % 2 ^ 64)

/-- `a - b` on `usize`. -/
def usizeSub [Build] (a b : Nat) : Option Nat :=
  if b ≤ a then some (a - b)
  else if Build.overflowChecks then none
  else some (a + 2 ^ 64 - b)

/-- `n as isize`. -/
def asIsize (n : Nat) : Int := Int.bmod n (2 ^ 64)

/-- The result of an operation on `isize`. -/
def isize [Build] (result : Int) : Option Int :=
  if -2 ^ 63 ≤ result ∧ result < 2 ^ 63 then some result
  else if Build.overflowChecks then none
  else some (Int.bmod result (2 ^ 64))

def ordered (a b : Nat) : Nat × Nat := if a ≤ b then (a, b) else (b, a)

def insertAt (at' : Nat) (text : Text) : TextEdit := .owned at' [] text

def isBlank (c : Char) : Bool := c == ' ' || c == '\t'

def leadingBlankBytes (text : Text) : Nat :=
  ((utf8Bytes text).takeWhile fun byte => byte == 0x20 || byte == 0x09).length

def lastCharLen (text : Text) : Nat := text.getLast?.elim 0 Char.utf8Size

def applyEditsToString (text : Text) (edits : List TextEdit) : Option Text :=
  rewriteOrderedEdits text edits .forward

/-- The size of the characters that two texts begin with alike. -/
def sharedChars : Text → Text → Nat
  | a :: left, b :: right => if a = b then a.utf8Size + sharedChars left right else 0
  | _, _ => 0

/-- `single_edit_diff`: the single prefix/suffix edit that turns `old` into `new`. -/
def singleEditDiff (old new : Text) : Option (Option TextEdit) := do
  if old = new then return none
  else
    let startByte := sharedChars old new
    let oldRest ← sliceFrom old startByte
    let newRest ← sliceFrom new startByte
    let suffix := sharedChars oldRest.reverse newRest.reverse
    let removed ← sliceText old startByte (← sub (utf8Len old) suffix)
    let inserted ← sliceText new startByte (← sub (utf8Len new) suffix)
    return some (.owned startByte removed inserted)

/-- The byte offset of every character, counted from `byte`, and of the end. -/
def startsOf : Nat → Text → List Nat
  | byte, [] => [byte]
  | byte, c :: rest => byte :: startsOf (byte + c.utf8Size) rest

theorem length_startsOf (text : Text) : ∀ byte, (startsOf byte text).length = text.length + 1 := by
  induction text with
  | nil => exact fun _ => rfl
  | cons c rest ih => exact fun byte => congrArg (· + 1) (ih _)

/-- A read-only, char-indexed view over the document text. -/
structure Buffer where
  chars : Text
  byteStarts : List Nat
  starts : byteStarts = startsOf 0 chars

namespace Buffer

/-- The buffer of a text. -/
def new (text : Text) : Buffer where
  chars := text
  byteStarts := startsOf 0 text
  starts := rfl

def nchars (buf : Buffer) : Nat := buf.chars.length

def byte (buf : Buffer) (ci : Nat) : Nat :=
  buf.byteStarts.get ⟨min ci buf.chars.length, by rw [buf.starts, length_startsOf]; omega⟩

/-- The character at a byte; inside of one, that one. -/
def ciOfByte (buf : Buffer) (byte : Nat) : Nat :=
  match buf.byteStarts.findIdx? (· == byte) with
  | some index => index
  | none => buf.byteStarts.countP (· < byte) - 1

def ch (buf : Buffer) (ci : Nat) : Option Char := buf.chars[ci]?

def slice (buf : Buffer) (start stop : Nat) : Option Text :=
  Checked.slice buf.chars (min start buf.nchars) (min stop buf.nchars)

def lineStart (buf : Buffer) (ci : Nat) : Nat :=
  let i := min ci buf.nchars
  i - ((buf.chars.take i).reverse.takeWhile (· != '\n')).length

def lineEnd (buf : Buffer) (ci : Nat) : Nat :=
  let i := min ci buf.nchars
  i + ((buf.chars.drop i).takeWhile (· != '\n')).length

def firstNonBlank (buf : Buffer) (lineStart : Nat) : Nat :=
  lineStart +
    (((buf.chars.take (buf.lineEnd lineStart)).drop lineStart).takeWhile isBlank).length

/-- The line of a character. -/
def lineIndex (buf : Buffer) (ci : Nat) : Nat := (buf.chars.take (min ci buf.nchars)).count '\n'

def lineCount (buf : Buffer) : Nat := buf.chars.count '\n' + 1

/-- How many characters go by up to the given line feed, and it with them; all of them when there is
no such line feed. -/
def passLines : Nat → Text → Nat
  | _, [] => 0
  | line, c :: rest =>
    if c = '\n' then (if line = 1 then 1 else passLines (line - 1) rest + 1)
    else passLines line rest + 1

def nthLineStart (buf : Buffer) (line : Nat) : Nat :=
  if line = 0 then 0 else passLines line buf.chars

def lineEndByLine (buf : Buffer) (line : Nat) : Nat := buf.lineEnd (buf.nthLineStart line)

/-- `Buffer::linewise_register_text`: always terminated with a newline. -/
def linewiseRegisterText (buf : Buffer) (first last : Nat) : Option Text := do
  return (← buf.slice (buf.nthLineStart first) (buf.lineEndByLine last)) ++ ['\n']

def linewiseDeleteRange (buf : Buffer) (first last : Nat) : Nat × Nat :=
  let start := buf.nthLineStart first
  let stop := buf.lineEndByLine last
  if stop < buf.nchars then (start, stop + 1)
  else if start > 0 then (start - 1, stop)
  else (start, stop)

end Buffer

def joinSeparator (buf : Buffer) (endOfFirst nextFirst : Nat) : Text :=
  if nextFirst ≥ buf.nchars ∨ buf.ch nextFirst = some '\n' then []
  else if endOfFirst > 0 ∧
      (buf.ch (endOfFirst - 1) = some ' ' ∨ buf.ch (endOfFirst - 1) = some '\t') then []
  else if buf.ch nextFirst = some ')' then []
  else [' ']

end FesTerm.Document.Vi
