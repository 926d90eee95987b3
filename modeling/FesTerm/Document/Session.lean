import FesTerm.Document.Text

/-!
# Editing sessions

A run of the operations that views, saves and reloads perform on one document, together with what
the run is expected to remember: the text at the moment the recorded save point was taken, the save
points taken since the content was last loaded, and for every retained undo entry the text that was
there before the entry was made. The operations never read what is remembered.

A refused operation leaves the document as it is.
-/

namespace FesTerm.Document

/-- The operations that edit the text. -/
inductive EditOp
  | replace (start stop : Nat) (replacement : Text)
  | syncFromView (updated : Text)
  | replaceAll (query replacement : Text)
  | applyEdits (edits : List TextEdit)

/-- The operations of a run. `markSavedAt` names one of the save points taken since the last load,
the most recent first. -/
inductive Op
  | edit (op : EditOp)
  | closeTransaction
  | undo
  | redo
  | markSaved
  | takeSavePoint
  | markSavedAt (index : Nat)
  | reloadFrom (bytes : List UInt8)

section Editing

variable [Allocation]

/-- What an editing operation leaves of the document. -/
def EditOp.run (document : TextDocument) : EditOp → Option TextDocument
  | replace start stop replacement => do
    match ← document.replace start stop replacement with
    | .ok document => return document
    | .error _ => return document
  | syncFromView updated => do
    match ← document.syncFromView updated with
    | .ok (_, document) => return document
    | .error _ => return document
  | replaceAll query replacement => do
    match ← document.replaceAll query replacement with
    | .ok (_, document) => return document
    | .error _ => return document
  | applyEdits edits => do
    match ← document.applyEdits edits with
    | .ok (_, document) => return document
    | .error _ => return document

/-- The transaction that an editing operation hands to `apply_transaction`, when it gets there. -/
def EditOp.transaction (document : TextDocument) : EditOp → Option (Option (List TextEdit × Bool))
  | replace start stop replacement => do
    return some ([← document.editFor start stop replacement], false)
  | syncFromView updated =>
    if updated = document.text then some none
    else do
      let (edit, coalescable) ← document.syncEdit updated
      return some ([edit], coalescable)
  | replaceAll query replacement =>
    if hquery : query = [] then some none
    else
      let edits := document.replaceAllEdits query hquery replacement
      if query = replacement ∨ edits.isEmpty then some none else some (some (edits, false))
  | applyEdits edits =>
    if edits.isEmpty then some none
    else do
      match ← TextDocument.validateEdits document.text 0 edits with
      | .error _ => return none
      | .ok () => return some (edits, false)

/-- A document and what its run remembers. `befores` has one text for each entry of the undo
history. -/
structure Session where
  document : TextDocument
  befores : List Text
  points : List (SavePoint × Text)
  savedText : Option Text
  loads : Nat

namespace Session

/-- A document decoded from bytes that are saved somewhere. -/
def loaded (document : TextDocument) : Session where
  document := document
  befores := []
  points := []
  savedText := some document.text
  loads := 0

/-- A document decoded from bytes that were never written. -/
def unsaved (document : TextDocument) : Session where
  document := document
  befores := []
  points := []
  savedText := none
  loads := 0

/-- The remembered texts after a commit: a new entry was made from the current text, a coalesced one
from the text its insertion started from. -/
def record (document : TextDocument) (befores : List Text) (prepared : PreparedUndo) : List Text :=
  if prepared.merge then
    (befores.take document.undoHistory.applied).drop prepared.retention.retired
  else
    (befores.take document.undoHistory.applied).drop prepared.retention.retired ++ [document.text]

/-- The remembered texts after a transaction, which changes them only when it is accepted. -/
def recordTransaction (session : Session) (edits : List TextEdit) (coalescable : Bool) :
    Option (List Text) := do
  match ← session.document.applyTransaction edits coalescable with
  | .error _ => return session.befores
  | .ok _ =>
    match ← session.document.undoHistory.prepare edits coalescable with
    | .ok (some prepared) => return record session.document session.befores prepared
    | _ => return session.befores

/-- An editing operation. -/
def edit (session : Session) (op : EditOp) : Option Session := do
  let document ← op.run session.document
  match ← op.transaction session.document with
  | none => return { session with document }
  | some (edits, coalescable) =>
    return { session with document, befores := ← session.recordTransaction edits coalescable }

/-- One operation of a run. -/
def step (session : Session) : Op → Option Session
  | .edit op => session.edit op
  | .closeTransaction => do
    return { session with document := ← session.document.closeTransaction }
  | .undo => do
    return { session with document := (← session.document.undo).2 }
  | .redo => do
    return { session with document := (← session.document.redo).2 }
  | .markSaved => do
    return { session with
      document := ← session.document.markSaved
      savedText := some session.document.text }
  | .takeSavePoint =>
    some { session with
      points := (session.document.savePoint, session.document.text) :: session.points }
  | .markSavedAt index =>
    match session.points[index]? with
    | none => some session
    | some (point, text) => do
      return { session with
        document := ← session.document.markSavedAt point
        savedText := some text }
  | .reloadFrom bytes =>
    match session.document.reloadFrom bytes with
    | .error _ => some session
    | .ok document => some { loaded document with loads := session.loads + 1 }

/-- Operations in order; none where one panics. -/
def run (session : Session) (ops : List Op) : Option Session := ops.foldlM step session

end Session

end Editing

end FesTerm.Document
