import FesTerm.Document.Vi.Buffer

/-!
# Motions

The middle of `vi.rs`: word scanning, which is written once over an interface that both the text and
the buffer view offer, the motions over the borrowed text, and the motions over the buffer view.

A slice at an offset inside a character stops the program, which is `none`. Every loop moves a
position until a condition ends it; `loop` runs it with the number of moves it can make at most.
-/

namespace FesTerm.Document.Vi

open Checked

/-- `while goes_on(p) { p = advance(p) }`, for at most so many moves. -/
def loop (goesOn : Nat → Option Bool) (advance : Nat → Option Nat) : Nat → Nat → Option Nat
  | 0, position => some position
  | moves + 1, position => do
    if ← goesOn position then loop goesOn advance moves (← advance position)
    else return position

/-- `char::is_alphanumeric` of the standard library's Unicode tables. -/
class Unicode where
  isAlphanumeric : Char → Bool

inductive Class
  | blank
  | word
  | punct
deriving DecidableEq

/-- `class`. -/
def charClass [Unicode] (c : Char) : Class :=
  if c = ' ' ∨ c = '\t' ∨ c = '\n' ∨ c = '\r' then .blank
  else if Unicode.isAlphanumeric c ∨ c = '_' then .word
  else .punct

/-- The trait `MotionText`. -/
structure MotionText where
  stop : Nat
  character : Nat → Option (Option Char)
  next : Nat → Option Nat
  previous : Nat → Option Nat

/-- `impl MotionText for Buffer`. -/
def Buffer.motionText (buf : Buffer) : MotionText where
  stop := buf.nchars
  character position := some (buf.ch position)
  next position := some (min (position + 1) buf.nchars)
  previous position := some (position - 1)

/-- `str::character`. -/
def textCharacter (text : Text) (position : Nat) : Option (Option Char) :=
  (sliceFrom text position).map List.head?

/-- `str::next`. -/
def textNext (text : Text) (position : Nat) : Option Nat := do
  return (← textCharacter text position).elim (utf8Len text) fun c => position + c.utf8Size

/-- `str::previous`. -/
def textPrevious (text : Text) (position : Nat) : Option Nat := do
  let (front, _) ← cutText text position
  return utf8Len front.dropLast

/-- `impl MotionText for str`. -/
def textMotion (text : Text) : MotionText where
  stop := utf8Len text
  character := textCharacter text
  next := textNext text
  previous := textPrevious text

section Words

variable [Unicode]

namespace MotionText

/-- `class(buf.character(position).expect(..))`. -/
def classAt (buf : MotionText) (position : Nat) : Option Class := do
  let c ← (← buf.character position)
  return charClass c

def sameRun (big : Bool) (start here : Class) : Bool :=
  if big then here != .blank else here == start

/-- The loop of `word_forward` over the word under the cursor. -/
def passWord (buf : MotionText) (big : Bool) (start : Class) (ci : Nat) : Option Nat :=
  loop (fun ci => do
      if ci < buf.stop then return sameRun big start (← buf.classAt ci) else return false)
    buf.next (buf.stop - ci) ci

/-- An empty line counts as a word. -/
def onEmptyLine (buf : MotionText) (ci : Nat) : Option Bool := do
  if (← buf.character ci) = some '\n' then
    if ci = 0 then return true
    else return (← buf.character (← buf.previous ci)) == some '\n'
  else return false

/-- The loop of `word_forward` over the blanks behind the word. -/
def passBlanks (buf : MotionText) (ci : Nat) : Option Nat :=
  loop (fun ci => do
      if ci < buf.stop then
        if (← buf.classAt ci) = .blank then return !(← buf.onEmptyLine ci) else return false
      else return false)
    buf.next (buf.stop - ci) ci

/-- One count of `word_forward`. -/
def wordForwardOnce (buf : MotionText) (big : Bool) (ci : Nat) : Option Nat := do
  let start ← buf.classAt ci
  let ci ← if start ≠ .blank then buf.passWord big start ci else some ci
  buf.passBlanks ci

def wordForward (buf : MotionText) (big : Bool) : Nat → Nat → Option Nat
  | 0, ci => some (min ci buf.stop)
  | count + 1, ci => do
    if ci ≥ buf.stop then return buf.stop
    else
      let next ← buf.wordForwardOnce big ci
      if next = ci then return min next buf.stop else wordForward buf big count next

/-- The loop of `word_end` to the last character of the word. -/
def passToEnd (buf : MotionText) (big : Bool) (start : Class) (ci : Nat) : Option Nat :=
  loop (fun ci => do
      let next ← buf.next ci
      if next < buf.stop then return sameRun big start (← buf.classAt next) else return false)
    buf.next (buf.stop - ci) ci

/-- The loop of `word_end` over blanks. -/
def skipBlanks (buf : MotionText) (ci : Nat) : Option Nat :=
  loop (fun ci => do
      if ci < buf.stop then return (← buf.classAt ci) == .blank else return false)
    buf.next (buf.stop - ci) ci

/-- One count of `word_end`; `none` inside when no word follows. -/
def wordEndOnce (buf : MotionText) (big : Bool) (ci : Nat) : Option (Option Nat) := do
  let next ← buf.next ci
  if next ≥ buf.stop then return none
  else
    let ci ← buf.skipBlanks next
    if ci ≥ buf.stop then return none
    else
      let start ← buf.classAt ci
      return some (← buf.passToEnd big start ci)

def wordEnd (buf : MotionText) (big : Bool) : Nat → Nat → Option Nat
  | 0, ci => do return min ci (← buf.previous buf.stop)
  | count + 1, ci => do
    match ← buf.wordEndOnce big ci with
    | none => buf.previous buf.stop
    | some ci => wordEnd buf big count ci

/-- The loop of `word_back` over blanks. -/
def skipBlanksBack (buf : MotionText) (ci : Nat) : Option Nat :=
  loop (fun ci => do
      if ci > 0 then return (← buf.classAt ci) == .blank else return false)
    buf.previous ci ci

/-- The loop of `word_back` to the first character of the word. -/
def passToStart (buf : MotionText) (big : Bool) (start : Class) (ci : Nat) : Option Nat :=
  loop (fun ci => do
      if ci > 0 then return sameRun big start (← buf.classAt (← buf.previous ci))
      else return false)
    buf.previous ci ci

/-- One count of `word_back`; `none` inside when it stops at the start of the text. -/
def wordBackOnce (buf : MotionText) (big : Bool) (ci : Nat) : Option (Option Nat) := do
  if ci = 0 then return none
  else
    let ci ← buf.skipBlanksBack (← buf.previous ci)
    let start ← buf.classAt ci
    if start = .blank then return none
    else return some (← buf.passToStart big start ci)

def wordBack (buf : MotionText) (big : Bool) : Nat → Nat → Option Nat
  | 0, ci => some ci
  | count + 1, ci => do
    match ← buf.wordBackOnce big ci with
    | none => return 0
    | some ci => wordBack buf big count ci

end MotionText

end Words

def lineStartByte (text : Text) (caret : Nat) : Option Nat := do
  let (front, _) ← cutText text caret
  let bytes := utf8Bytes front
  return ((bytes.reverse.findIdx? (· == 0x0a)).map fun index => bytes.length - index).getD 0

def lineEndByte (text : Text) (caret : Nat) : Option Nat := do
  let rest ← sliceFrom text caret
  return (((utf8Bytes rest).findIdx? (· == 0x0a)).map (caret + ·)).getD (utf8Len text)

def textEndsLine (text : Text) (position : Nat) : Option Bool := do
  return (← textCharacter text position).all (· == '\n')

def clampTextCursor (text : Text) (caret : Nat) : Option Nat := do
  if (← textEndsLine text caret) && caret > 0 then
    let previous ← textPrevious text caret
    if (← textCharacter text previous) ≠ some '\n' then return previous else return caret
  else return caret

/-- The loop of `borrowed_motion` that walks along a line. -/
def alongLine (text : Text) (moves target : Nat) : Option Nat :=
  loop (fun target => do return !(← textEndsLine text target)) (textNext text) moves target

/-- The loop of `borrowed_motion` that walks down from line start to line start. -/
def downLines (text : Text) (moves start : Nat) : Option Nat :=
  loop (fun start => do return (← lineEndByte text start) != utf8Len text)
    (fun start => do return (← lineEndByte text start) + 1) moves start

/-- The loop of `borrowed_motion` that walks up from line start to line start. -/
def upLines (text : Text) (moves start : Nat) : Option Nat :=
  loop (fun start => some (start != 0)) (fun start => lineStartByte text (start - 1)) moves start

/-- `start + leading_blank_bytes(&text[start..])`. -/
def firstNonBlankByte (text : Text) (start : Nat) : Option Nat := do
  return start + leadingBlankBytes (← sliceFrom text start)

/-- The `'j' | 'k'` arm of `borrowed_motion`. -/
def borrowedVertical (text : Text) (caret n : Nat) (down : Bool) : Option Nat := do
  let start ← lineStartByte text caret
  let column := (← sliceText text start caret).length
  let start ← if down then downLines text n start else upLines text n start
  alongLine text column start

/-- The arms of `borrowed_motion`; `none` inside for a key it does not handle. -/
def borrowedTarget [Unicode] (text : Text) (caret : Nat) (key : Char) (count : Option Nat) :
    Option (Option Nat) := do
  let n := count.getD 1
  match key with
  | 'h' => do
    let start ← lineStartByte text caret
    return some (← loop (fun target => some (target != start)) (textPrevious text) n caret)
  | 'l' => return some (← alongLine text n caret)
  | '0' => return some (← lineStartByte text caret)
  | '^' => return some (← firstNonBlankByte text (← lineStartByte text caret))
  | '$' =>
    return some (← loop (fun stop => some (stop != utf8Len text))
      (fun stop => lineEndByte text (stop + 1)) (n - 1) (← lineEndByte text caret))
  | 'j' => return some (← borrowedVertical text caret n true)
  | 'k' => return some (← borrowedVertical text caret n false)
  | 'G' => do
    let start ← match count with
      | some count => downLines text (count - 1) 0
      | none => lineStartByte text (utf8Len text)
    return some (← firstNonBlankByte text start)
  | 'w' => return some (← (textMotion text).wordForward false n caret)
  | 'W' => return some (← (textMotion text).wordForward true n caret)
  | 'b' => return some (← (textMotion text).wordBack false n caret)
  | 'B' => return some (← (textMotion text).wordBack true n caret)
  | 'e' => return some (← (textMotion text).wordEnd false n caret)
  | 'E' => return some (← (textMotion text).wordEnd true n caret)
  | _ => return none

/-- A motion of the library; none where the count is out of its range. -/
def borrowedMotion [Unicode] (text : Text) (caret : Nat) (key : Char) (count : Option Nat) :
    Option (Option Nat) := do
  if count.getD 1 > 2 ^ 63 - 1 then return none
  else
    match ← borrowedTarget text caret key count with
    | none => return none
    | some target => return some (← clampTextCursor text target)

inductive Operator
  | delete
  | change
  | yank
deriving DecidableEq

inductive Motion
  | chars (start stop : Nat) (inclusive : Bool)
  | lines (first last : Nat)
deriving DecidableEq

/-- `promote_exclusive`: an exclusive motion that ends in column 1 is pulled back to the end of the
previous line. -/
def promoteExclusive (buf : Buffer) (start stop : Nat) : Option Nat :=
  let endLine := buf.lineIndex (min stop buf.nchars)
  if endLine = 0 ∨ stop ≠ buf.nthLineStart endLine then none
  else if endLine ≤ buf.lineIndex start then none
  else some (buf.lineEndByLine (endLine - 1))

def vertical [Build] (buf : Buffer) (ci : Nat) (delta : Int) : Option Nat := do
  let target ← isize (asIsize (buf.lineIndex ci) + delta)
  let targetLine := (min (max target 0) (asIsize buf.lineCount - 1)).toNat
  let column := ci - buf.lineStart ci
  let start := buf.nthLineStart targetLine
  let stop := buf.lineEndByLine targetLine
  let last := if stop > start then stop - 1 else start
  return min (start + column) last

def clampCursor (buf : Buffer) (ci : Nat) : Nat :=
  let stop := buf.lineEnd ci
  if ci ≥ stop ∧ stop > buf.lineStart ci then buf.byte (stop - 1) else buf.byte ci

/-- `move_cursor`: the caret goes to the end of the range that is not its origin. -/
def moveCursor (buf : Buffer) (caret : Nat) : Motion → Nat
  | .lines _ last => buf.byte (buf.firstNonBlank (buf.nthLineStart last))
  | .chars start stop _ =>
    let ci := buf.ciOfByte caret
    let dest := if start = ci then stop else if stop = ci then start else stop
    clampCursor buf (min dest buf.nchars)

def caretAfterDelete (buf : Buffer) (start stop : Nat) : Nat :=
  let atLineEnd := stop ≥ buf.nchars ∨ buf.ch stop = some '\n'
  if atLineEnd ∧ start > buf.lineStart start then buf.byte (start - 1) else buf.byte start

section Resolve

variable [Unicode] [Build]

/-- The `'w' | 'W'` arm of `resolve_motion`: `cw` on a non-blank behaves like `ce`. -/
def resolveWord (buf : Buffer) (ci n : Nat) (big : Bool) (op : Option Operator) : Option Motion := do
  if op = some .change ∧ (buf.ch ci).map charClass ≠ some .blank then
    return .chars ci (← buf.motionText.wordEnd big n ci) true
  else return .chars ci (← buf.motionText.wordForward big n ci) false

/-- The `'$'` arm of `resolve_motion`. -/
def resolveLineEnd (buf : Buffer) (ci n : Nat) : Option Motion := do
  let line := min (← usize (buf.lineIndex ci + (n - 1))) (buf.lineCount - 1)
  let stop := buf.lineEndByLine line
  let last := if stop > buf.nthLineStart line then stop - 1 else stop
  return .chars ci last true

/-- The `'G'` arm of `resolve_motion`. -/
def resolveGoto (buf : Buffer) (ci : Nat) (count : Option Nat) (forOp : Bool) : Motion :=
  let line :=
    match count with
    | some count => min (count - 1) (buf.lineCount - 1)
    | none => buf.lineCount - 1
  if forOp then
    let (first, last) := ordered (buf.lineIndex ci) line
    .lines first last
  else
    let target := buf.firstNonBlank (buf.nthLineStart line)
    .chars target target false

/-- `resolve_motion`; `none` inside for a key that is no motion. -/
def resolveMotion (buf : Buffer) (caret : Nat) (key : Char) (count : Option Nat)
    (op : Option Operator) : Option (Option Motion) := do
  let ci := buf.ciOfByte caret
  let forOp := op.isSome
  let n := count.getD 1
  match key with
  | 'h' => return some (.chars (max (ci - n) (buf.lineStart ci)) ci false)
  | 'l' => return some (.chars ci (min (← usize (ci + n)) (buf.lineEnd ci)) false)
  | 'w' => return some (← resolveWord buf ci n false op)
  | 'W' => return some (← resolveWord buf ci n true op)
  | 'b' => return some (.chars (← buf.motionText.wordBack false n ci) ci false)
  | 'B' => return some (.chars (← buf.motionText.wordBack true n ci) ci false)
  | 'e' => return some (.chars ci (← buf.motionText.wordEnd false n ci) true)
  | 'E' => return some (.chars ci (← buf.motionText.wordEnd true n ci) true)
  | '0' => return some (.chars (buf.lineStart ci) ci false)
  | '^' =>
    let (start, stop) := ordered (buf.firstNonBlank (buf.lineStart ci)) ci
    return some (.chars start stop false)
  | '$' => return some (← resolveLineEnd buf ci n)
  | 'j' =>
    if forOp then
      let line := buf.lineIndex ci
      return some (.lines line (min (← usize (line + n)) (buf.lineCount - 1)))
    else return some (.chars ci (← vertical buf ci (asIsize n)) false)
  | 'k' =>
    if forOp then
      let line := buf.lineIndex ci
      return some (.lines (line - n) line)
    else return some (.chars (← vertical buf ci (← isize (-asIsize n))) ci false)
  | 'G' => return some (resolveGoto buf ci count forOp)
  | _ => return none

end Resolve

section Objects

variable [Unicode]

/-- `word_object`: the range of an `iw`/`aw`/`iW`/`aW` text object. -/
def wordObject (buf : Buffer) (ci : Nat) (inner big : Bool) : Option (Nat × Nat) := do
  let n := buf.nchars
  if n = 0 then return (0, 0)
  else
    let ci := min ci (n - 1)
    let here := charClass (← buf.ch ci)
    let goesOn := fun c =>
      (here == .blank && charClass c == .blank) ||
        (here != .blank && MotionText.sameRun big here (charClass c))
    let start := ci - ((buf.chars.take ci).reverse.takeWhile goesOn).length
    let stop := ci + 1 + ((buf.chars.drop (ci + 1)).takeWhile goesOn).length
    if inner then return (start, stop)
    else
      let onLine := fun c => charClass c == .blank && c != '\n'
      let wider := stop + ((buf.chars.drop stop).takeWhile onLine).length
      if wider > stop then return (start, wider)
      else return (start - ((buf.chars.take start).reverse.takeWhile onLine).length, stop)

end Objects

end FesTerm.Document.Vi
