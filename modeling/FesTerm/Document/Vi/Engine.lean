import FesTerm.Document.Vi.Motions

/-!
# The vi engine

The first half of `vi.rs`: the view-scoped state machine. It owns none of the text; every keystroke
is handed the document's text and caret and answers with a described action, the caret behind it and
the engine's next state. `none` is a stop of the program: an overflow that the build checks for, or
a slice out of bounds.
-/

namespace FesTerm.Document.Vi

open Checked

/-- The mode that the next key is read in. -/
inductive ViMode
  | normal
  | insert
  | replace
  | visual
  | visualLine
deriving DecidableEq

inductive ViKey
  | char (c : Char)
  | ctrl (c : Char)
  | escape
  | enter
  | backspace
deriving DecidableEq

inductive SearchIntent
  | promptForward
  | promptBackward
  | next
  | previous
  | wordForward
  | wordBackward
deriving DecidableEq

/-- What a refusal shows. -/
structure SearchError where
  headline : String
  detail : String
deriving DecidableEq

/-- What the caller should do in response to a keystroke. -/
inductive ViAction
  | none
  | edit (edits : List TextEdit)
  | undo
  | redo
  | search (intent : SearchIntent)
  | refused (error : SearchError)
deriving DecidableEq

/-- The full result of feeding one keystroke. -/
structure ViResponse where
  action : ViAction
  warning : Option SearchError
  caret : Nat
  mode : ViMode
  pending : Bool
deriving DecidableEq

/-- Where a partly-typed command is waiting for its next key. -/
inductive Stage
  | ready
  | afterOperator (op : Operator)
  | afterG (op : Option Operator)
  | afterTextObject (op : Operator) (inner : Bool)
  | awaitReplace
deriving DecidableEq

/-- The unnamed register. -/
structure Register where
  text : Text
  linewise : Bool
deriving DecidableEq

inductive RecordingState
  | recording
  | overLimit
  | overLimitNotified
deriving DecidableEq

inductive LastChange
  | none
  | recorded (keys : List ViKey)
  | overLimit
deriving DecidableEq

def maxViRecordingKeys : Nat := 8192

structure ViEngine where
  mode : ViMode
  stage : Stage
  count : Option Nat
  operatorCount : Option Nat
  register : Register
  visualAnchor : Nat
  record : List ViKey
  recordingState : RecordingState
  lastChange : LastChange
  changeInProgress : Bool
  replaying : Bool
deriving DecidableEq

abbrev Step := ViEngine × ViAction × Nat

namespace ViEngine

def new : ViEngine where
  mode := .normal
  stage := .ready
  count := none
  operatorCount := none
  register := ⟨[], false⟩
  visualAnchor := 0
  record := []
  recordingState := .recording
  lastChange := .none
  changeInProgress := false
  replaying := false

/-- A command is begun. -/
def isPending (engine : ViEngine) : Bool :=
  engine.stage != .ready || engine.count.isSome || engine.operatorCount.isSome

def resetPending (engine : ViEngine) : ViEngine :=
  { engine with stage := .ready, count := none, operatorCount := none }

def respond (engine : ViEngine) (action : ViAction) (caret : Nat) : ViResponse where
  action := action
  warning := none
  caret := caret
  mode := engine.mode
  pending := engine.isPending

def repeatLimitError : SearchError where
  headline := "Repeat unavailable"
  detail := "Over 8192 recorded keys; editing continues, but . cannot repeat " ++
    "this change. Finish it and make a smaller change to restore repeat."

/-- `ViEngine::refuse`: pending state is discarded and no edit is produced. -/
def refuse (engine : ViEngine) (caret : Nat) (headline detail : String) : Step :=
  (engine.resetPending, .refused ⟨headline, detail⟩, caret)

def refuseUnsupported (engine : ViEngine) (caret : Nat) (ch : Char) : Step :=
  engine.refuse caret "Unsupported command"
    ("The key '" ++ ch.toString ++ "' is not part of the supported vi subset.")

/-- `self.register = Register { .. }`. -/
def setRegister (engine : ViEngine) (text : Text) (linewise : Bool) : ViEngine :=
  { engine with register := ⟨text, linewise⟩ }

def removal (start : Nat) (removed : Text) : ViAction := .edit [.owned start removed []]

section Counts

variable [Build]

/-- `ViEngine::consume_count_digit`; `none` inside when the key is no digit of a count. -/
def consumeCountDigit (engine : ViEngine) (ch : Char) : Option (Option ViEngine) := do
  if ch.isDigit && !(ch == '0' && engine.count.isNone) then
    let digit := ch.toNat - '0'.toNat
    let count ← usize ((← usize (engine.count.getD 0 * 10)) + digit)
    return some { engine with count := some count }
  else return none

end Counts

/-! ## Shared edit builders -/

def enterInsert (engine : ViEngine) (caret : Nat) : Step :=
  ({ engine with mode := .insert }, .none, caret)

def openLine (engine : ViEngine) (buf : Buffer) (caret : Nat) (below : Bool) : Step :=
  let ci := buf.ciOfByte caret
  let engine := { engine with mode := .insert }
  if below then
    let at' := buf.byte (buf.lineEnd ci)
    (engine, .edit [insertAt at' ['\n']], at' + 1)
  else
    let at' := buf.byte (buf.lineStart ci)
    (engine, .edit [insertAt at' ['\n']], at')

section Builders

variable [Build]

def deleteCharsForward (engine : ViEngine) (buf : Buffer) (caret count : Nat) : Option Step := do
  let ci := buf.ciOfByte caret
  let stop := buf.lineEnd ci
  if ci ≥ stop then return (engine, .none, caret)
  else
    let stop := min (← usize (ci + count)) stop
    let removed ← buf.slice ci stop
    return (engine.setRegister removed false, removal caret removed, caretAfterDelete buf ci stop)

def deleteCharsBack (engine : ViEngine) (buf : Buffer) (caret count : Nat) : Option Step := do
  let ci := buf.ciOfByte caret
  let startLine := buf.lineStart ci
  if ci = startLine then return (engine, .none, caret)
  else
    let start := max (ci - count) startLine
    let removed ← buf.slice start ci
    return (engine.setRegister removed false, removal (buf.byte start) removed, buf.byte start)

def deleteToLineEnd (engine : ViEngine) (buf : Buffer) (caret : Nat) (change : Bool) : Option Step := do
  let ci := buf.ciOfByte caret
  let removed ← buf.slice ci (buf.lineEnd ci)
  let engine := engine.setRegister removed false
  if change then return ({ engine with mode := .insert }, removal caret removed, caret)
  else
    let newCaret := if ci > buf.lineStart ci then buf.byte (ci - 1) else caret
    return (engine, removal caret removed, newCaret)

def backOver (buf : Buffer) (lineStart position : Nat) (goesOn : Char → Bool) : Nat :=
  position - (((buf.chars.take position).drop lineStart).reverse.takeWhile goesOn).length

/-- One iteration of `join_lines`: the seam behind a line. -/
def joinSeam (buf : Buffer) (line : Nat) : Option (Nat × TextEdit) := do
  let thisEnd := buf.lineEndByLine line
  let nextFirst := buf.firstNonBlank (thisEnd + 1)
  let start := buf.nthLineStart line
  let endOfFirst := backOver buf start thisEnd (· == '\r')
  let caretCol := backOver buf start endOfFirst isBlank
  let removed ← buf.slice endOfFirst nextFirst
  return (buf.byte caretCol, .owned (buf.byte endOfFirst) removed (joinSeparator buf endOfFirst nextFirst))

/-- The loop of `join_lines`, over the joins that are left. -/
def joinLoop (buf : Buffer) : Nat → Nat → Option (List (Nat × TextEdit))
  | 0, _ => some []
  | joins + 1, line => do
    if line + 1 ≥ buf.lineCount then return []
    else
      let seam ← joinSeam buf line
      return seam :: (← joinLoop buf joins (line + 1))

def joinLines (engine : ViEngine) (buf : Buffer) (caret : Nat) (count : Option Nat) : Option Step := do
  let joins := count.elim 1 fun n => max (n - 1) 1
  match ← joinLoop buf joins (buf.lineIndex (buf.ciOfByte caret)) with
  | [] => return (engine, .none, caret)
  | (joinCaret, edit) :: seams => return (engine, .edit (edit :: seams.map Prod.snd), joinCaret)

/-- The linewise branch of `paste`. -/
def pasteLines (engine : ViEngine) (buf : Buffer) (caret : Nat) (after : Bool) : Step :=
  let text := engine.register.text
  let line := buf.lineIndex (buf.ciOfByte caret)
  if after then
    let stop := buf.lineEndByLine line
    if stop < buf.nchars then
      (engine, .edit [insertAt (buf.byte (stop + 1)) text], buf.byte (buf.firstNonBlank (stop + 1)))
    else
      let body := if text.getLast? = some '\n' then text.dropLast else text
      (engine, .edit [insertAt (buf.byte stop) ('\n' :: body)], buf.byte stop + 1)
  else
    let at' := buf.byte (buf.nthLineStart line)
    (engine, .edit [insertAt at' text], at' + leadingBlankBytes text)

def paste (engine : ViEngine) (buf : Buffer) (caret : Nat) (after : Bool) : Option Step := do
  if engine.register.text.isEmpty then return (engine, .none, caret)
  else if engine.register.linewise then return engine.pasteLines buf caret after
  else
    let text := engine.register.text
    let ci := buf.ciOfByte caret
    let at' := buf.byte (if after then min (ci + 1) (buf.lineEnd ci) else ci)
    return (engine, .edit [insertAt at' text], ← sub (at' + utf8Len text) (lastCharLen text))

/-- The caret after a linewise delete of some lines, of which so many bytes are removed. -/
def caretAfterLines (buf : Buffer) (first last removedBytes : Nat) : Option Nat :=
  if last + 1 < buf.lineCount then
    sub (buf.byte (buf.firstNonBlank (buf.nthLineStart (last + 1)))) removedBytes
  else if first > 0 then some (buf.byte (buf.firstNonBlank (buf.nthLineStart (first - 1))))
  else some 0

def applyLinewise (engine : ViEngine) (buf : Buffer) (op : Operator) (first last : Nat) : Option Step := do
  let (first, last) := ordered first last
  let engine := engine.setRegister (← buf.linewiseRegisterText first last) true
  match op with
  | .yank => return (engine, .none, buf.byte (buf.firstNonBlank (buf.nthLineStart first)))
  | .delete =>
    let (start, stop) := buf.linewiseDeleteRange first last
    let removed ← buf.slice start stop
    let removedBytes ← sub (buf.byte stop) (buf.byte start)
    let newCaret ← caretAfterLines buf first last removedBytes
    return (engine, removal (buf.byte start) removed, newCaret)
  | .change =>
    let start := buf.nthLineStart first
    let removed ← buf.slice start (buf.lineEndByLine last)
    return ({ engine with mode := .insert }, removal (buf.byte start) removed, buf.byte start)

/-- The range of characters that `apply_operator` works on. -/
def operatorRange (buf : Buffer) (start stop : Nat) (inclusive : Bool) : Option (Nat × Nat) := do
  if inclusive then return (start, min (← usize (stop + 1)) buf.nchars)
  else if stop > start then return (start, (promoteExclusive buf start stop).getD stop)
  else return (start, stop)

def applyOperator (engine : ViEngine) (buf : Buffer) (op : Operator) : Motion → Option Step
  | .lines first last => engine.applyLinewise buf op first last
  | .chars start stop inclusive => do
    let (startCi, endCi) ← operatorRange buf start stop inclusive
    let removed ← buf.slice startCi endCi
    let start := buf.byte startCi
    let engine := engine.setRegister removed false
    match op with
    | .yank => return (engine, .none, start)
    | .delete => return (engine, removal start removed, caretAfterDelete buf startCi endCi)
    | .change => return ({ engine with mode := .insert }, removal start removed, start)

end Builders

/-! ## Insert and Replace mode -/

/-- Escape in Insert and Replace mode: the caret goes one column left, not before the line. -/
def leaveInsert (engine : ViEngine) (buf : Buffer) (caret : Nat) : Step :=
  let ci := buf.ciOfByte caret
  let new := if ci > buf.lineStart ci then buf.byte (ci - 1) else caret
  ({ engine with mode := .normal }, .none, new)

def stepInsert (engine : ViEngine) (buf : Buffer) (key : ViKey) (caret : Nat) : Option Step := do
  match key with
  | .escape => return engine.leaveInsert buf caret
  | .char c => return (engine, .edit [insertAt caret [c]], caret + c.utf8Size)
  | .enter => return (engine, .edit [insertAt caret ['\n']], caret + 1)
  | .backspace =>
    if caret = 0 then return (engine, .none, caret)
    else
      let ci := buf.ciOfByte caret
      let before ← sub ci 1
      let start := buf.byte before
      return (engine, removal start (← buf.slice before ci), start)
  | .ctrl _ => return (engine, .none, caret)

def stepReplace (engine : ViEngine) (buf : Buffer) (key : ViKey) (caret : Nat) : Option Step := do
  match key with
  | .escape => return engine.leaveInsert buf caret
  | .char c =>
    let ci := buf.ciOfByte caret
    if ci < buf.lineEnd ci then
      let removed ← buf.slice ci (ci + 1)
      return (engine, .edit [.owned caret removed [c]], caret + c.utf8Size)
    else return (engine, .edit [insertAt caret [c]], caret + c.utf8Size)
  | .enter => return (engine, .edit [insertAt caret ['\n']], caret + 1)
  | .backspace =>
    if caret = 0 then return (engine, .none, caret)
    else return (engine, .none, buf.byte (← sub (buf.ciOfByte caret) 1))
  | .ctrl _ => return (engine, .none, caret)

section Keys

variable [Unicode] [Build]

/-! ## Normal mode -/

/-- The target of a bare `gg` or `{count}gg`: the first non-blank of a line. -/
def gotoLine (buf : Buffer) (count : Option Nat) : Nat :=
  buf.byte (buf.firstNonBlank (buf.nthLineStart (count.elim 0 (· - 1))))

def afterG (engine : ViEngine) (buf : Buffer) (op : Option Operator) (key : ViKey) (caret : Nat) :
    Option Step := do
  let count := engine.count
  let engine := { engine with count := none, stage := .ready }
  match key with
  | .char 'g' =>
    match op with
    | none => return (engine, .none, gotoLine buf count)
    | some op =>
      let here := buf.lineIndex (buf.ciOfByte caret)
      let (first, last) := ordered here (min (count.elim 0 (· - 1)) (buf.lineCount - 1))
      engine.applyLinewise buf op first last
  | _ =>
    return { engine with operatorCount := none }.refuse caret "Unsupported g command"
      "Only gg is supported after g in vi mode."

/-- The counts before and behind an operator, multiplied. -/
def effectiveCount (operatorCount count : Option Nat) : Option (Option Nat) := do
  match operatorCount, count with
  | none, none => return none
  | _, _ => return some (← usize (operatorCount.getD 1 * count.getD 1))

/-- The key that doubles an operator. -/
def doublingKey : Operator → Char
  | .delete => 'd'
  | .change => 'c'
  | .yank => 'y'

/-- `ViEngine::after_operator`, for the key that follows the counts. -/
def operatorKey (engine : ViEngine) (buf : Buffer) (op : Operator) (ch : Char) (caret : Nat) :
    Option Step := do
  let effective ← effectiveCount engine.operatorCount engine.count
  let engine := { engine with operatorCount := none, count := none }
  let count := effective.getD 1
  if ch = doublingKey op then
    let here := buf.lineIndex (buf.ciOfByte caret)
    let last := min (← usizeSub (← usize (here + count)) 1) (buf.lineCount - 1)
    ({ engine with stage := .ready } : ViEngine).applyLinewise buf op here last
  else
    match ch with
    | 'i' =>
      return ({ engine with stage := .afterTextObject op true, count := some count }, .none, caret)
    | 'a' =>
      return ({ engine with stage := .afterTextObject op false, count := some count }, .none, caret)
    | 'g' => return ({ engine with stage := .afterG (some op), count := effective }, .none, caret)
    | _ =>
      let engine := { engine with stage := .ready }
      match ← resolveMotion buf caret ch effective (some op) with
      | some motion => engine.applyOperator buf op motion
      | none => return engine.refuseUnsupported caret ch

def afterOperator (engine : ViEngine) (buf : Buffer) (op : Operator) (key : ViKey) (caret : Nat) :
    Option Step := do
  match key with
  | .char ch =>
    match ← engine.consumeCountDigit ch with
    | some engine => return (engine, .none, caret)
    | none => engine.operatorKey buf op ch caret
  | .escape => return (engine.resetPending, .none, caret)
  | _ =>
    return engine.resetPending.refuse caret "Incomplete operator"
      "That key cannot follow an operator in vi mode."

/-- The key of a text object: whether it is a WORD. -/
def textObjectKey : ViKey → Option Bool
  | .char 'w' => some false
  | .char 'W' => some true
  | _ => none

def afterTextObject (engine : ViEngine) (buf : Buffer) (op : Operator) (inner : Bool) (key : ViKey)
    (caret : Nat) : Option Step := do
  let engine := { engine with stage := .ready, count := none }
  match textObjectKey key with
  | none =>
    return engine.refuse caret "Unsupported text object"
      "Only iw, aw, iW, and aW are supported in vi mode."
  | some big =>
    let (start, stop) ← wordObject buf (buf.ciOfByte caret) inner big
    engine.applyOperator buf op (.chars start stop false)

def applyReplaceChar (engine : ViEngine) (buf : Buffer) (key : ViKey) (caret : Nat) : Option Step := do
  let count := engine.count.getD 1
  let engine := { engine with stage := .ready, count := none }
  let replaceWith := fun (c : Char) => do
    let ci := buf.ciOfByte caret
    let stop ← usize (ci + count)
    if stop > buf.lineEnd ci then
      return engine.refuse caret "Cannot replace past end of line"
        "r would need more characters than remain on this line."
    else
      let removed ← buf.slice ci stop
      let last ← usizeSub stop 1
      return (engine, .edit [.owned caret removed (List.replicate count c)], buf.byte last)
  match key with
  | .char c => replaceWith c
  | .enter => replaceWith '\n'
  | .escape => return (engine, .none, caret)
  | _ =>
    return engine.refuse caret "Unsupported replacement"
      "r must be followed by a single character."

/-- Pure motions, in Normal and Visual mode. -/
def pureMotion (engine : ViEngine) (buf : Buffer) (caret : Nat) (ch : Char) (count : Option Nat) :
    Option Step := do
  match ← resolveMotion buf caret ch count none with
  | some motion => return (engine, .none, moveCursor buf caret motion)
  | none => return engine.refuseUnsupported caret ch

/-- `'h' | 'l' | 'w' | 'W' | 'b' | 'B' | 'e' | 'E' | '0' | '^' | '$' | 'j' | 'k' | 'G'`. -/
def isMotionKey (ch : Char) : Bool :=
  ['h', 'l', 'w', 'W', 'b', 'B', 'e', 'E', '0', '^', '$', 'j', 'k', 'G'].contains ch

/-- `normal_ready`, for the key of a command and the count before it. -/
def normalCommand (engine : ViEngine) (buf : Buffer) (ch : Char) (count : Option Nat)
    (caret : Nat) : Option Step := do
  match ch with
  | 'i' => return engine.enterInsert caret
  | 'I' =>
    return engine.enterInsert (buf.byte (buf.firstNonBlank (buf.lineStart (buf.ciOfByte caret))))
  | 'a' =>
    let ci := buf.ciOfByte caret
    return engine.enterInsert (buf.byte (min (ci + 1) (buf.lineEnd ci)))
  | 'A' => return engine.enterInsert (buf.byte (buf.lineEnd (buf.ciOfByte caret)))
  | 'o' => return engine.openLine buf caret true
  | 'O' => return engine.openLine buf caret false
  | 'R' => return ({ engine with mode := .replace }, .none, caret)
  | 'v' => return ({ engine with mode := .visual, visualAnchor := caret }, .none, caret)
  | 'V' => return ({ engine with mode := .visualLine, visualAnchor := caret }, .none, caret)
  | 'd' =>
    return ({ engine with operatorCount := count, stage := .afterOperator .delete }, .none, caret)
  | 'c' =>
    return ({ engine with operatorCount := count, stage := .afterOperator .change }, .none, caret)
  | 'y' =>
    return ({ engine with operatorCount := count, stage := .afterOperator .yank }, .none, caret)
  | 'g' => return ({ engine with count := count, stage := .afterG none }, .none, caret)
  | 'x' => engine.deleteCharsForward buf caret (count.getD 1)
  | 'X' => engine.deleteCharsBack buf caret (count.getD 1)
  | 'D' => engine.deleteToLineEnd buf caret false
  | 'C' => engine.deleteToLineEnd buf caret true
  | 's' =>
    match ← engine.deleteCharsForward buf caret (count.getD 1) with
    | (engine, .edit edits, new) => return ({ engine with mode := .insert }, .edit edits, new)
    | step => return step
  | 'r' => return ({ engine with count := count, stage := .awaitReplace }, .none, caret)
  | 'J' => engine.joinLines buf caret count
  | 'p' => engine.paste buf caret true
  | 'P' => engine.paste buf caret false
  | 'u' => return (engine, .undo, caret)
  | '/' => return (engine, .search .promptForward, caret)
  | '?' => return (engine, .search .promptBackward, caret)
  | 'n' => return (engine, .search .next, caret)
  | 'N' => return (engine, .search .previous, caret)
  | '*' => return (engine, .search .wordForward, caret)
  | '#' => return (engine, .search .wordBackward, caret)
  | '"' =>
    return engine.refuse caret "Named registers are not supported"
      "vi mode uses only the unnamed register; \"x selections are unavailable."
  | 'm' =>
    return engine.refuse caret "Marks are not supported"
      "Setting a mark with m is outside the supported vi subset."
  | 'q' =>
    return engine.refuse caret "Macros are not supported"
      "Recording a macro with q is outside the supported vi subset."
  | '@' =>
    return engine.refuse caret "Macros are not supported"
      "Replaying a macro with @ is outside the supported vi subset."
  | ch =>
    if ch = Char.ofNat 0x60 ∨ ch = Char.ofNat 0x27 then
      return engine.refuse caret "Marks are not supported"
        "Jumping to a mark is outside the supported vi subset."
    else if isMotionKey ch then engine.pureMotion buf caret ch count
    else return engine.refuseUnsupported caret ch

def normalReady (engine : ViEngine) (buf : Buffer) (key : ViKey) (caret : Nat) : Option Step := do
  match key with
  | .char ch =>
    match ← engine.consumeCountDigit ch with
    | some engine => return (engine, .none, caret)
    | none => ({ engine with count := none } : ViEngine).normalCommand buf ch engine.count caret
  | .escape => return (engine.resetPending, .none, caret)
  | .ctrl 'r' => return (engine, .redo, caret)
  | .ctrl 'v' =>
    return engine.refuse caret "Blockwise visual is not supported"
      "vi mode offers characterwise (v) and linewise (V) visual only."
  | _ => return (engine, .none, caret)

def stepNormal (engine : ViEngine) (buf : Buffer) (key : ViKey) (caret : Nat) : Option Step :=
  match engine.stage with
  | .awaitReplace => engine.applyReplaceChar buf key caret
  | .afterG op => engine.afterG buf op key caret
  | .afterOperator op => engine.afterOperator buf op key caret
  | .afterTextObject op inner => engine.afterTextObject buf op inner key caret
  | .ready => engine.normalReady buf key caret

/-! ## Visual mode -/

def visualBounds (engine : ViEngine) (buf : Buffer) (caret : Nat) : Nat × Nat :=
  ordered (buf.ciOfByte engine.visualAnchor) (buf.ciOfByte caret)

def visualOperate (engine : ViEngine) (buf : Buffer) (op : Operator) (caret : Nat) : Option Step :=
  let (lo, hi) := engine.visualBounds buf caret
  let next := { engine with mode := .normal }.resetPending
  if engine.mode = .visualLine then
    next.applyLinewise buf op (buf.lineIndex lo) (buf.lineIndex hi)
  else next.applyOperator buf op (.chars lo (min (hi + 1) buf.nchars) false)

/-- `ViEngine::visual_replace`: newlines are preserved. -/
def visualReplace (engine : ViEngine) (buf : Buffer) (key : ViKey) (caret : Nat) : Option Step := do
  let next := { engine with stage := .ready, mode := .normal }
  match key with
  | .char c =>
    let (lo, hi) := engine.visualBounds buf caret
    let (start, stop) :=
      if engine.mode = .visualLine then (buf.nthLineStart (buf.lineIndex lo), buf.lineEnd hi)
      else (lo, min (hi + 1) buf.nchars)
    let removed ← buf.slice start stop
    let inserted := (List.range' start (stop - start)).map fun ci =>
      if buf.ch ci = some '\n' then '\n' else c
    return (next, .edit [.owned (buf.byte start) removed inserted], buf.byte start)
  | _ =>
    return next.refuse caret "Unsupported replacement" "r must be followed by a single character."

/-- `step_visual`, for the key of a command and the count before it. -/
def visualCommand (engine : ViEngine) (buf : Buffer) (ch : Char) (count : Option Nat)
    (caret : Nat) : Option Step := do
  match ch with
  | 'v' => return ({ engine with mode := .visual }, .none, caret)
  | 'V' => return ({ engine with mode := .visualLine }, .none, caret)
  | 'i' => return ({ engine with stage := .afterTextObject .delete true }, .none, caret)
  | 'a' => return ({ engine with stage := .afterTextObject .delete false }, .none, caret)
  | 'g' => return ({ engine with count := count, stage := .afterG none }, .none, caret)
  | 'd' => engine.visualOperate buf .delete caret
  | 'x' => engine.visualOperate buf .delete caret
  | 'c' => engine.visualOperate buf .change caret
  | 's' => engine.visualOperate buf .change caret
  | 'y' => engine.visualOperate buf .yank caret
  | 'r' => return ({ engine with stage := .awaitReplace }, .none, caret)
  | '"' =>
    return engine.refuse caret "Named registers are not supported"
      "vi mode uses only the unnamed register."
  | ch =>
    if isMotionKey ch then engine.pureMotion buf caret ch count
    else return engine.refuseUnsupported caret ch

/-- The stages of `step_visual` in which a command is half typed; `none` inside when there is
none. -/
def visualPending (engine : ViEngine) (buf : Buffer) (key : ViKey) (caret : Nat) : Option (Option Step) := do
  let next := { engine with stage := .ready }
  match engine.stage with
  | .afterTextObject _ inner =>
    match textObjectKey key with
    | none =>
      return some (next.refuse caret "Unsupported text object"
        "Only iw, aw, iW, and aW are supported in vi mode.")
    | some big =>
      let (start, stop) ← wordObject buf (buf.ciOfByte caret) inner big
      return some ({ next with visualAnchor := buf.byte start }, .none,
        buf.byte (max (stop - 1) start))
  | .awaitReplace => return some (← engine.visualReplace buf key caret)
  | .afterG _ =>
    match key with
    | .char 'g' => return some ({ next with count := none }, .none, gotoLine buf engine.count)
    | _ =>
      return some (next.refuse caret "Unsupported g command" "Only gg is supported after g.")
  | _ => return none

def stepVisual (engine : ViEngine) (buf : Buffer) (key : ViKey) (caret : Nat) : Option Step := do
  match ← engine.visualPending buf key caret with
  | some step => return step
  | none =>
    match key with
    | .escape => return ({ engine with mode := .normal }.resetPending, .none, caret)
    | .char ch =>
      match ← engine.consumeCountDigit ch with
      | some engine => return (engine, .none, caret)
      | none => ({ engine with count := none } : ViEngine).visualCommand buf ch engine.count caret
    | .ctrl 'v' =>
      return engine.refuse caret "Blockwise visual is not supported"
        "vi mode offers characterwise (v) and linewise (V) visual only."
    | _ => return (engine, .none, caret)

/-! ## Keystrokes -/

def step (engine : ViEngine) (buf : Buffer) (key : ViKey) (caret : Nat) : Option Step :=
  match engine.mode with
  | .insert => engine.stepInsert buf key caret
  | .replace => engine.stepReplace buf key caret
  | .visual => engine.stepVisual buf key caret
  | .visualLine => engine.stepVisual buf key caret
  | .normal => engine.stepNormal buf key caret

/-- `ViEngine::borrowed_normal_motion`; `none` inside when the key needs the buffer view. -/
def borrowedNormalMotion (engine : ViEngine) (key : ViKey) (text : Text) (caret : Nat) :
    Option (Option Step) := do
  match key with
  | .char ch =>
    if engine.mode ≠ .normal ∨ engine.stage ≠ .ready then return none
    else
      match ← engine.consumeCountDigit ch with
      | some engine => return some (engine, .none, caret)
      | none =>
        match ← borrowedMotion text caret ch engine.count with
        | none => return none
        | some target => return some ({ engine with count := none }, .none, target)
  | _ => return none

def clearRecording (engine : ViEngine) : ViEngine :=
  { engine with record := [], recordingState := .recording, changeInProgress := false }

/-- The recording of one key in `on_key`. -/
def recordKey (engine : ViEngine) (key : ViKey) : ViEngine :=
  if !engine.replaying && engine.recordingState == .recording then
    if engine.record.length = maxViRecordingKeys then
      { engine with record := [], recordingState := .overLimit }
    else { engine with record := engine.record ++ [key] }
  else engine

/-- Whether an action is an edit. -/
def isEdit : ViAction → Bool
  | .edit _ => true
  | _ => false

/-- `ViEngine::update_recording`, with whether it warns. -/
def updateRecording (engine : ViEngine) (action : ViAction) : ViEngine × Bool :=
  let engine := if isEdit action then { engine with changeInProgress := true } else engine
  let warn := engine.changeInProgress && engine.recordingState == .overLimit
  let engine :=
    if warn then { engine with recordingState := .overLimitNotified, lastChange := .overLimit }
    else engine
  let settled := engine.mode == .normal && !engine.isPending
  if !settled then (engine, warn)
  else
    let engine :=
      if engine.changeInProgress then
        { engine with
          lastChange :=
            if engine.recordingState = .recording then .recorded engine.record else .overLimit }
      else engine
    (engine.clearRecording, warn)

/-- The caret at a character of the text, or at its end. -/
def floorTextBoundary (text : Text) (caret : Nat) : Nat :=
  floorCharBoundary text (min caret (utf8Len text))

/-- `on_key` behind the keys that are handled before any recording. -/
def recordedKey (engine : ViEngine) (key : ViKey) (text : Text) (caret : Nat) :
    Option (ViEngine × ViResponse) := do
  let engine := engine.recordKey key
  let caret := floorTextBoundary text caret
  let (engine, action, newCaret) ←
    match ← engine.borrowedNormalMotion key text caret with
    | some step => some step
    | none => engine.step (.new text) key caret
  if engine.replaying then return (engine, engine.respond action newCaret)
  else
    let (engine, warn) := engine.updateRecording action
    let warning := if warn then some repeatLimitError else none
    return (engine, { engine.respond action newCaret with warning })

/-- The variables of the loop in `repeat_last_change`. -/
structure Replay where
  sub : ViEngine
  current : Text
  caret : Nat

/-- One iteration of the replay. The engine that replays never repeats. -/
def replayKey (state : Replay) (key : ViKey) : Option Replay := do
  let (sub, response) ← state.sub.recordedKey key state.current state.caret
  match response.action with
  | .edit edits =>
    return ⟨sub, ← applyEditsToString state.current edits, response.caret⟩
  | _ => return ⟨sub, state.current, response.caret⟩

def repeatLastChange (engine : ViEngine) (text : Text) (caret : Nat) : Option (ViEngine × ViResponse) := do
  match engine.lastChange with
  | .none => return (engine, engine.respond .none caret)
  | .overLimit =>
    let engine := engine.resetPending.clearRecording
    return (engine, engine.respond (.refused repeatLimitError) caret)
  | .recorded keys =>
    let replay := { new with register := engine.register, replaying := true }
    let state ← keys.foldlM replayKey ⟨replay, text, caret⟩
    let engine := { engine with register := state.sub.register }
    match ← singleEditDiff text state.current with
    | some edit => return (engine, engine.respond (.edit [edit]) state.caret)
    | none => return (engine, engine.respond .none state.caret)

def onKey (engine : ViEngine) (key : ViKey) (text : Text) (caret : Nat) : Option (ViEngine × ViResponse) :=
  if !engine.replaying && engine.mode == .normal then
    if key = .char '.' ∧ engine.stage = .ready then engine.repeatLastChange text caret
    else if key = .char 'u' ∧ engine.stage = .ready ∧ engine.count = none then
      some (engine.resetPending, engine.resetPending.respond .undo caret)
    else if key = .ctrl 'r' ∧ engine.stage = .ready then
      some (engine.resetPending, engine.resetPending.respond .redo caret)
    else engine.recordedKey key text caret
  else engine.recordedKey key text caret

end Keys

end ViEngine

end FesTerm.Document.Vi
