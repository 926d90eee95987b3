import FesTerm.Document.Undo

/-!
# Text documents

`text.rs`: the editable text of one document and the byte-level policy it is written back with.
Text is held normalised to `\n`; the encoding and the line ending found when the bytes were decoded
are remembered and applied again on save.

An operation that can be refused returns `Except`; one that could stop the program at a slice or an
index returns `Option` around it.
-/

namespace FesTerm.Document

open Checked Splicing

/-- The line ending a document is written back with. -/
inductive LineEnding
  | lf
  | crlf
  | cr
deriving DecidableEq

def LineEnding.asStr : LineEnding → Text
  | lf => ['\n']
  | crlf => ['\r', '\n']
  | cr => ['\r']

/-- The encoding a document was decoded from and is written back as. -/
inductive Encoding
  | utf8
  | utf8Bom
deriving DecidableEq

/-- The indentation the document appears to use. -/
inductive Indentation
  | spaces (width : Nat)
  | tabs
deriving DecidableEq

/-! ## Lines and bytes -/

def utf8Bytes (text : Text) : List UInt8 := text.flatMap String.utf8EncodeChar

def stripCarriageReturn (line : Text) : Text :=
  if line.getLast? = some '\r' then line.dropLast else line

/-- `str::lines`. -/
def lines (text : Text) : List Text :=
  let pieces := text.splitOn '\n'
  pieces.dropLast.map stripCarriageReturn ++ (pieces.getLast?.toList.filter fun piece => !piece.isEmpty)

/-- `text.lines().count().max(1)`. -/
def lineCount (text : Text) : Nat := max (lines text).length 1

/-- `first_overlong_line`: its one-based number. -/
def firstOverlongLine (text : Text) (limit : Nat) : Option Nat :=
  ((lines text).findIdx? fun line => utf8Len line > limit).map (· + 1)

/-- `normalise_line_endings`: CRLF and lone CR become LF. -/
def normaliseLineEndings : Text → Text
  | [] => []
  | '\r' :: '\n' :: rest => '\n' :: normaliseLineEndings rest
  | '\r' :: rest => '\n' :: normaliseLineEndings rest
  | character :: rest => character :: normaliseLineEndings rest

/-- `text.matches("\r\n").count()`. -/
def countCrlf : Text → Nat
  | [] => 0
  | '\r' :: '\n' :: rest => countCrlf rest + 1
  | _ :: rest => countCrlf rest

/-- `detect_line_ending`: the ending a file mostly uses, and LF when it has none. -/
def detectLineEnding (text : Text) : LineEnding :=
  let crlf := countCrlf text
  let cr := text.count '\r' - crlf
  let lf := text.count '\n' - crlf
  if crlf ≥ lf ∧ crlf ≥ cr ∧ crlf > 0 then .crlf
  else if cr > lf ∧ cr > 0 then .cr
  else .lf

def detectIndentation (text : Text) : Indentation :=
  let rows := lines text
  let tabs := rows.countP fun line => line.head? == some '\t'
  let widths := ((rows.filter fun line => line.head? != some '\t').map fun line =>
    (line.takeWhile (· == ' ')).length).filter fun spaces => 0 < spaces && spaces ≤ 8
  if tabs > widths.length then .tabs
  else
    match (List.range' 1 8).find? widths.contains with
    | some width => .spaces width
    | none => .spaces 4

def byteOrderMark : List UInt8 := [0xef, 0xbb, 0xbf]

/-- `bytes.strip_prefix(b"\xef\xbb\xbf")`, with the encoding it tells. -/
def stripByteOrderMark : List UInt8 → Encoding × List UInt8
  | 0xef :: 0xbb :: 0xbf :: rest => (.utf8Bom, rest)
  | bytes => (.utf8, bytes)

def floorCharBoundary (text : Text) : Nat → Nat
  | 0 => 0
  | index + 1 =>
    if isCharBoundary text (index + 1) then index + 1 else floorCharBoundary text index

/-- `ceil_char_boundary`, by the distance to the end. -/
def ceilCharBoundary (text : Text) : Nat → Nat → Nat
  | 0, index => index
  | distance + 1, index =>
    if isCharBoundary text index then index else ceilCharBoundary text distance (index + 1)

/-- The number of leading bytes two byte sequences share. -/
def sharedBytes : List UInt8 → List UInt8 → Nat
  | a :: left, b :: right => if a = b then sharedBytes left right + 1 else 0
  | _, _ => 0

/-- `common_prefix`. -/
def commonPrefixLength (left right : Text) : Nat :=
  floorCharBoundary left (sharedBytes (utf8Bytes left) (utf8Bytes right))

/-- `common_suffix`. -/
def commonSuffixLength (left right : Text) : Option Nat := do
  let index := sharedBytes (utf8Bytes left).reverse (utf8Bytes right).reverse
  let from' ← sub (utf8Len left) index
  sub (utf8Len left) (ceilCharBoundary left index from')

/-! ## Searching -/

/-- What stands before and after the first occurrence of the query. -/
def splitAtFirst (query : Text) : Text → Option (Text × Text)
  | [] => if query.isEmpty then some ([], []) else none
  | character :: rest =>
    if query.isPrefixOf (character :: rest) then some ([], (character :: rest).drop query.length)
    else (splitAtFirst query rest).map fun parts => (character :: parts.1, parts.2)

theorem splitAtFirst_eq {query text front back : Text}
    (h : splitAtFirst query text = some (front, back)) : text = front ++ (query ++ back) := by
  induction text generalizing front with
  | nil =>
    rw [splitAtFirst] at h
    split at h
    · rename_i hempty
      simp_all
    · cases h
  | cons character rest ih =>
    rw [splitAtFirst] at h
    split at h
    · rename_i hpre
      obtain ⟨tail, htail⟩ := List.isPrefixOf_iff_prefix.mp hpre
      simp only [Option.some.injEq, Prod.mk.injEq] at h
      obtain ⟨rfl, rfl⟩ := h
      rw [← htail]
      simp
    · simp only [Option.map_eq_some_iff, Prod.mk.injEq] at h
      obtain ⟨⟨front', back'⟩, hrest, rfl, rfl⟩ := h
      rw [ih hrest]
      rfl

/-- The offsets at which the search loop of `replace_all` finds the query: each search starts behind
the occurrence before it. -/
def matchOffsets (query : Text) (hquery : query ≠ []) (rest : Text) (searchFrom : Nat) : List Nat :=
  match hsplit : splitAtFirst query rest with
  | none => []
  | some (front, back) =>
    have : back.length < rest.length := by
      have hpos := List.length_pos_of_ne_nil hquery
      rw [splitAtFirst_eq hsplit]
      simp only [List.length_append]
      omega
    let start := searchFrom + utf8Len front
    start :: matchOffsets query hquery back (start + utf8Len query)
termination_by rest.length

/-! ## Documents -/

/-- Why a prepared set of edits was not committed. -/
inductive EditRefusal
  | outOfOrder
  | outOfBounds
  | stale
  | refused (reason : RefusalReason)
deriving DecidableEq

inductive SavedPoint
  | unwritten
  | history (token : Option Nat)
deriving DecidableEq

/-- An exact history point captured from a document for an asynchronous save. -/
structure SavePoint where
  token : Option Nat
deriving DecidableEq

/-- The text of one document, shared by every view of it. -/
structure TextDocument where
  text : Text
  encoding : Encoding
  lineEnding : LineEnding
  indentation : Indentation
  bounds : DocumentBounds
  undoHistory : UndoHistory
  savedPoint : SavedPoint
  revision : UInt64
deriving DecidableEq

namespace TextDocument

/-- The checks of lines that `from_bytes` and `check_bounds` share. -/
def checkLines (bounds : DocumentBounds) (text : Text) : Except RefusalReason Unit := do
  if lineCount text > bounds.maxLines then throw (.tooManyLines (lineCount text) bounds.maxLines)
  if let some line := firstOverlongLine text bounds.maxLineBytes then
    throw (.lineTooLong line bounds.maxLineBytes)

/-- The text of a file, or why it is refused. -/
def fromBytes (bytes : List UInt8) (bounds : DocumentBounds) : Except RefusalReason TextDocument := do
  bounds.checkDeclaredSize bytes.length
  let (encoding, body) := stripByteOrderMark bytes
  if body.contains 0 then throw .binaryContent
  match fromUtf8 body with
  | none => throw .notUtf8
  | some decoded =>
    let text := normaliseLineEndings decoded
    checkLines bounds text
    return { text
             encoding
             lineEnding := detectLineEnding decoded
             indentation := detectIndentation text
             bounds
             undoHistory := .new
             savedPoint := .history none
             revision := 0 }

def fromUnsavedBytes (bytes : List UInt8) (bounds : DocumentBounds) :
    Except RefusalReason TextDocument := do
  return { ← fromBytes bytes bounds with savedPoint := .unwritten }

/-- `TextDocument::to_bytes`: the original encoding and line ending, applied again. -/
def toBytes (document : TextDocument) : List UInt8 :=
  let body :=
    match document.lineEnding with
    | .lf => document.text
    | ending => document.text.flatMap fun c => if c = '\n' then ending.asStr else [c]
  (if document.encoding = .utf8Bom then byteOrderMark else []) ++ utf8Bytes body

/-- Not as it was last saved. -/
def isDirty (document : TextDocument) : Bool :=
  match document.savedPoint with
  | .unwritten => true
  | .history token => document.undoHistory.token != token

/-- There is a step to undo. -/
def canUndo (document : TextDocument) : Bool := document.undoHistory.canUndo

/-- There is a step to redo. -/
def canRedo (document : TextDocument) : Bool := document.undoHistory.canRedo

def closeTransaction (document : TextDocument) : Option TextDocument := do
  return { document with undoHistory := ← document.undoHistory.closeTransaction }

def savePoint (document : TextDocument) : SavePoint := ⟨document.undoHistory.token⟩

def markSavedAt (document : TextDocument) (point : SavePoint) : Option TextDocument :=
  { document with savedPoint := .history point.token }.closeTransaction

def markSaved (document : TextDocument) : Option TextDocument :=
  { document with savedPoint := .history document.undoHistory.token }.closeTransaction

def reloadFrom (document : TextDocument) (bytes : List UInt8) :
    Except RefusalReason TextDocument := do
  let replacement ← fromBytes bytes document.bounds
  return { document with
    text := replacement.text
    encoding := replacement.encoding
    lineEnding := replacement.lineEnding
    indentation := replacement.indentation
    undoHistory := document.undoHistory.clear
    savedPoint := .history none
    revision := document.revision + 1 }

def checkBounds (document : TextDocument) (candidate : Text) : Except RefusalReason Unit := do
  document.bounds.checkDeclaredSize (utf8Len candidate)
  checkLines document.bounds candidate

section Editing

variable [Allocation]

/-- `TextDocument::apply_transaction`: a refused transaction changes nothing at all. -/
def applyTransaction (document : TextDocument) (edits : List TextEdit) (coalescable : Bool) :
    Option (Except RefusalReason TextDocument) := do
  match ← document.undoHistory.prepare edits coalescable with
  | .error reason => return .error reason
  | .ok none => return .ok document
  | .ok (some prepared) =>
    let length ← rewrittenLength (utf8Len document.text) prepared.edits .forward
    match document.bounds.checkDeclaredSize length with
    | .error reason => return .error reason
    | .ok () =>
      let candidate ← rewriteOrderedEdits document.text prepared.edits .forward
      match document.checkBounds candidate with
      | .error reason => return .error reason
      | .ok () =>
        let undoHistory ← document.undoHistory.commit prepared
        return .ok { document with
          undoHistory := undoHistory
          text := candidate
          revision := document.revision + 1 }

/-- `TextDocument::edit_for`: an edit clamped to the buffer and to character boundaries. -/
def editFor (document : TextDocument) (start stop : Nat) (replacement : Text) :
    Option TextEdit := do
  let start := floorCharBoundary document.text (min start (utf8Len document.text))
  let stop := max (floorCharBoundary document.text (min stop (utf8Len document.text))) start
  return .owned start (← sliceText document.text start stop) replacement

def replace (document : TextDocument) (start stop : Nat) (replacement : Text) :
    Option (Except RefusalReason TextDocument) := do
  document.applyTransaction [← document.editFor start stop replacement] false

/-- The smallest edit that explains a view's change, with whether it may coalesce. -/
def syncEdit (document : TextDocument) (updated : Text) : Option (TextEdit × Bool) := do
  let front := commonPrefixLength document.text updated
  let back ← commonSuffixLength (← sliceFrom document.text front) (← sliceFrom updated front)
  let removed ← sliceText document.text front (← sub (utf8Len document.text) back)
  let inserted ← sliceText updated front (← sub (utf8Len updated) back)
  let coalescable := removed.isEmpty && inserted.length == 1
  return (.owned front removed inserted, coalescable)

/-- The text as a view edited it: one edit over what differs. -/
def syncFromView (document : TextDocument) (updated : Text) :
    Option (Except RefusalReason (Bool × TextDocument)) := do
  if updated = document.text then return .ok (false, document)
  else
    let (edit, coalescable) ← document.syncEdit updated
    match ← document.applyTransaction [edit] coalescable with
    | .error reason => return .error reason
    | .ok document => return .ok (true, document)

/-- The edits that `replace_all` collects. -/
def replaceAllEdits (document : TextDocument) (query : Text) (hquery : query ≠ [])
    (replacement : Text) : List TextEdit :=
  (matchOffsets query hquery document.text 0).map fun start => .owned start query replacement

/-- `TextDocument::replace_all`: every occurrence of the query, as one undo transaction. -/
def replaceAll (document : TextDocument) (query replacement : Text) :
    Option (Except RefusalReason (Nat × TextDocument)) := do
  if hquery : query = [] then return .ok (0, document)
  else
    let edits := document.replaceAllEdits query hquery replacement
    if query = replacement then return .ok (edits.length, document)
    else if edits.isEmpty then return .ok (0, document)
    else
      match ← document.applyTransaction edits false with
      | .error reason => return .error reason
      | .ok document => return .ok (edits.length, document)

/-- One iteration of the validation in `apply_edits`; the state is where the last edit ended. -/
def validateEdit (text : Text) (previousEnd : Nat) (edit : TextEdit) : Option (Except EditRefusal Nat) := do
  if edit.stop ≥ 2 ^ 64 then return .error .outOfBounds
  else if edit.start < previousEnd then return .error .outOfOrder
  else if edit.stop > utf8Len text || !isCharBoundary text edit.start ||
      !isCharBoundary text edit.stop then return .error .outOfBounds
  else if (← sliceText text edit.start edit.stop) ≠ edit.removed then return .error .stale
  else return .ok edit.stop

/-- The validation loop of `apply_edits`. -/
def validateEdits (text : Text) : Nat → List TextEdit → Option (Except EditRefusal Unit)
  | _, [] => some (.ok ())
  | previousEnd, edit :: edits => do
    match ← validateEdit text previousEnd edit with
    | .error refusal => return .error refusal
    | .ok stop => validateEdits text stop edits

/-- `TextDocument::apply_edits`: a prepared set of edits as one undo transaction. -/
def applyEdits (document : TextDocument) (edits : List TextEdit) :
    Option (Except EditRefusal (Nat × TextDocument)) := do
  if edits.isEmpty then return .ok (0, document)
  else
    match ← validateEdits document.text 0 edits with
    | .error refusal => return .error refusal
    | .ok () =>
      match ← document.applyTransaction edits false with
      | .error reason => return .error (.refused reason)
      | .ok document' => return .ok (edits.length, document')

end Editing

/-- The last step is undone; false where there is none. -/
def undo (document : TextDocument) : Option (Bool × TextDocument) := do
  match ← document.undoHistory.stepBack with
  | none => return (false, document)
  | some (transaction, history) =>
    let text ← replayOrderedEdits document.text transaction.edits .undo
    return (true, { document with
      text := text, undoHistory := history, revision := document.revision + 1 })

/-- The next step is done again. -/
def redo (document : TextDocument) : Option (Bool × TextDocument) := do
  match ← document.undoHistory.stepForward with
  | none => return (false, document)
  | some (transaction, history) =>
    let text ← replayOrderedEdits document.text transaction.edits .forward
    return (true, { document with
      text := text, undoHistory := history, revision := document.revision + 1 })

end TextDocument

end FesTerm.Document
