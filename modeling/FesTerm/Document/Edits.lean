import FesTerm.Document.Identity
import FesTerm.Lib.Splicing

/-!
# Bounds, offsets and edits

`bounds.rs` and the first half of `text.rs`: the limits an editable buffer must fit inside, byte
offsets into a text, and the two ways a list of ordered edits is replayed over a text, forwards and
backwards.

Offsets count bytes of the UTF-8 encoding. A slice or a replacement at an offset inside a character
or past the end stops the program, which is `none` here. Sizes and offsets are natural numbers, so
the source's saturating additions never saturate.
-/

namespace FesTerm.Document

open Checked Splicing

/-- The limits an editable buffer must fit inside. -/
structure DocumentBounds where
  maxBytes : Nat
  maxLines : Nat
  maxLineBytes : Nat
deriving DecidableEq

def DocumentBounds.default : DocumentBounds where
  maxBytes := 4 * 1024 * 1024
  maxLines := 65536
  maxLineBytes := 64 * 1024

/-- Why a document cannot be opened or a change cannot be committed. -/
inductive RefusalReason
  | tooLarge (bytes limit : Nat)
  | tooManyLines (lines limit : Nat)
  | lineTooLong (line limit : Nat)
  | undoStorageTooLarge (bytes limit : Nat)
  | notUtf8
  | binaryContent
deriving DecidableEq

def DocumentBounds.checkDeclaredSize (bounds : DocumentBounds) (bytes : Nat) :
    Except RefusalReason Unit :=
  if bytes > bounds.maxBytes then .error (.tooLarge bytes bounds.maxBytes) else .ok ()

def cutText (text : Text) (offset : Nat) : Option (Text × Text) := cut Char.utf8Size text offset

/-- `str::is_char_boundary`. -/
def isCharBoundary (text : Text) (index : Nat) : Bool := (cutText text index).isSome

/-- `&text[start..]`. -/
def sliceFrom (text : Text) (start : Nat) : Option Text := (cutText text start).map Prod.snd

/-- `&text[start..stop]`. -/
def sliceText (text : Text) (start stop : Nat) : Option Text := do
  let rest ← sliceFrom text start
  let (slice, _) ← cutText rest (← sub stop start)
  return slice

def replaceRange (text : Text) (start stop : Nat) (replacement : Text) : Option Text := do
  let (front, rest) ← cutText text start
  let (_, back) ← cutText rest (← sub stop start)
  return front ++ (replacement ++ back)

/-- One replacement of a byte range with new text. `start` is a byte offset into the normalised
text and `removed` is exactly what was there. A `String` also has a capacity, which the undo
history charges. -/
structure TextEdit extends Edit Char where
  removedCapacity : Nat
  insertedCapacity : Nat
deriving DecidableEq

/-- `TextEdit::end`. -/
def TextEdit.stop (edit : TextEdit) : Nat := edit.start + utf8Len edit.removed

/-- An edit whose texts were copied, which reserves no more than their length. -/
def TextEdit.owned (start : Nat) (removed inserted : Text) : TextEdit where
  start := start
  removed := removed
  inserted := inserted
  removedCapacity := utf8Len removed
  insertedCapacity := utf8Len inserted

inductive EditDirection
  | forward
  | undo
deriving DecidableEq

/-- `EditDirection::parts`: what an edit takes away and what it puts there. -/
def EditDirection.parts : EditDirection → TextEdit → Text × Text
  | forward, edit => (edit.removed, edit.inserted)
  | undo, edit => (edit.inserted, edit.removed)

def rewrittenLength (length : Nat) (edits : List TextEdit) (direction : EditDirection) : Option Nat := do
  let removed := (edits.map fun edit => utf8Len (direction.parts edit).1).sum
  let inserted := (edits.map fun edit => utf8Len (direction.parts edit).2).sum
  return (← sub length removed) + inserted

/-- The variables of the loop in `rewrite_ordered_edits`. -/
structure Rewrite where
  result : Text
  originalCursor : Nat
  sourceCursor : Nat

/-- One iteration of `rewrite_ordered_edits`. -/
def rewriteEdit (text : Text) (direction : EditDirection) (state : Rewrite) (edit : TextEdit) :
    Option Rewrite := do
  let untouchedEnd := state.sourceCursor + (← sub edit.start state.originalCursor)
  let untouched ← sliceText text state.sourceCursor untouchedEnd
  let (source, replacement) := direction.parts edit
  return { result := state.result ++ (untouched ++ replacement)
           originalCursor := edit.stop
           sourceCursor := untouchedEnd + utf8Len source }

/-- `rewrite_ordered_edits`: builds trusted edits whose offsets name the original text, including
undo. -/
def rewriteOrderedEdits (text : Text) (edits : List TextEdit) (direction : EditDirection) : Option Text := do
  let _ ← rewrittenLength (utf8Len text) edits direction
  let state ← edits.foldlM (rewriteEdit text direction) ⟨[], 0, 0⟩
  return state.result ++ (← sliceFrom text state.sourceCursor)

/-- One iteration of the in-place replay. -/
def spliceEdit (direction : EditDirection) (text : Text) (edit : TextEdit) : Option Text :=
  let (source, replacement) := direction.parts edit
  replaceRange text edit.start (edit.start + utf8Len source) replacement

/-- The in-place branch of `replay_ordered_edits`. -/
def spliceOrderedEdits (text : Text) (edits : List TextEdit) (direction : EditDirection) : Option Text :=
  edits.foldlM (spliceEdit direction) text

/-- The edits that `replay_ordered_edits` replays in place: a single edit, or replacements of equal
length. -/
def replaysInPlace (edits : List TextEdit) : Bool :=
  edits.length == 1 || edits.all fun edit => utf8Len edit.removed == utf8Len edit.inserted

def replayOrderedEdits (text : Text) (edits : List TextEdit) (direction : EditDirection) : Option Text :=
  if replaysInPlace edits then spliceOrderedEdits text edits direction
  else rewriteOrderedEdits text edits direction

end FesTerm.Document
