import FesTerm.Lib.Procedure
import FesTerm.MobileDocs.Registry

/-!
# The requests as they change the registry

`editor.rs` once more, with its updates in the order in which the methods make them. What was updated before
a method returns early stays updated; the checks and the document engine are those of the requests.
-/

namespace FesTerm.MobileDocs

open Document Procedure

/-- What a method on `&mut self` does. The failure is none where the program stops. -/
abbrev Command := Procedure Documents (Option DocumentError)

/-- How what a request gives reads as the end of a method. -/
def outcome {α : Type} : Option (Except DocumentError α) → Except (Option DocumentError) α
  | some (.ok a) => .ok a
  | some (.error error) => .error (some error)
  | none => .error none

def given {α : Type} (f : Documents → Request α) : Command α := ask fun documents => outcome (f documents).run

namespace Documents.InPlace

variable [CharTables] [Allocation]

section

omit [CharTables] [Allocation]

/-- The entry of a document becomes another, where the document is there. -/
def updated (document : DocumentId) (f : OpenDocument → OpenDocument) (documents : Documents) : Documents :=
  match documents.documents.get document with
  | some entry => documents.setEntry document (f entry)
  | none => documents

/-- An assignment behind `documents.get_mut(&document)`. -/
def update (document : DocumentId) (f : OpenDocument → OpenDocument) : Command Unit := change (updated document f)

def duplicateDocument (document : DocumentId) : Command ViewId := do
  ask fun documents => refuse (documents.views.entries.length ≥ maxViews) (some .capacity)
  let nextView ← given fun documents => check (nextId documents.nextView)
  change fun documents => { documents with nextView := nextView }
  change fun documents => { documents with views := documents.views.insert nextView document }
  return nextView

def duplicate (view : ViewId) : Command ViewId := do
  let document ← given fun documents => check (documents.documentFor view)
  duplicateDocument document

end

omit [Allocation] in
/-- `open` where no document has the origin. -/
def openNew (origin : DocumentOrigin) (bytes : List UInt8) (version : Option SourceVersion) (writable : Bool) :
    Command ViewId := do
  ask fun documents => refuse (documents.documents.entries.length ≥ maxDocuments ∨
    documents.views.entries.length ≥ maxViews) (some .capacity)
  let text ← given fun _ => engine (some (if origin.isUntitled then
    TextDocument.fromUnsavedBytes bytes mobileDocumentBounds
    else TextDocument.fromBytes bytes mobileDocumentBounds))
  let document ← given fun documents => check (nextId documents.nextDocument)
  let nextView ← given fun documents => check (nextId documents.nextView)
  change fun documents => { documents with nextDocument := document }
  change fun documents => { documents with origins := documents.origins.insert origin.key document }
  change fun documents => { documents with
    documents := documents.documents.insert document
      { origin
        text
        version
        writableSource := writable && !origin.isRemote
        available := true
        sourceEpoch := 0
        accessEpoch := 0
        conflict := none
        saving := none } }
  change fun documents => { documents with nextView := nextView }
  change fun documents => { documents with views := documents.views.insert nextView document }
  return nextView

omit [Allocation] in
def openDocument (origin : DocumentOrigin) (bytes : List UInt8) (version : Option SourceVersion)
    (writable : Bool) : Command ViewId := do
  let found ← ask fun documents => .ok (documents.origins.get origin.key)
  match found with
  | some document => duplicateDocument document
  | none => openNew origin bytes version writable

omit [CharTables] [Allocation] in
/-- `close` behind its checks. -/
def removeView (view : ViewId) (document : DocumentId) (last : Bool) : Command CloseOutcome := do
  change fun documents => { documents with views := documents.views.erase view }
  if last then
    let entry ← given fun documents => check (documents.get document)
    change fun documents => { documents with documents := documents.documents.erase document }
    change fun documents => { documents with origins := documents.origins.erase entry.origin.key }
    return .closed (some document)
  else return .closed none

omit [CharTables] [Allocation] in
def close (view : ViewId) (discard : Bool) : Command CloseOutcome := do
  let document ← given fun documents => check (documents.documentFor view)
  let last ← ask fun documents => .ok (decide (documents.views.count (· = document) = 1))
  let entry ← given fun documents => check (documents.get document)
  refuse (last ∧ entry.isSaving) (some .busy)
  if last ∧ entry.dirty ∧ !discard then return .needsConfirmation
  else removeView view document last

def sync (target : EditTarget) (updated : Text) : Command Bool := do
  let updated ← given fun _ => check (normalizedInput updated)
  let entry ← given (·.editableTarget target)
  given fun _ => checkEncodedChange entry.text entry.text.text updated
  let (changed, text) ← given fun _ => engine (entry.text.syncFromView updated)
  update target.document fun entry => { entry with text := text }
  return changed

def replace (captured current : EditTarget) (replacement : Text) : Command Unit := do
  refuse (captured ≠ current) (some .stale)
  let replacement ← given fun _ => check (normalizedInput replacement)
  let entry ← given (·.editableTarget captured)
  let removed ← given fun _ => ExceptT.lift (sliceText entry.text.text captured.start captured.stop)
  given fun _ => checkEncodedChange entry.text removed replacement
  let text ← given fun _ => engine (entry.text.replace captured.start captured.stop replacement)
  update captured.document fun entry => { entry with text := text }

section

omit [CharTables] [Allocation]

def undo (view : ViewId) : Command Bool := do
  let (document, entry) ← given fun documents => check (documents.entryFor view)
  given fun _ => check entry.requireWritable
  let (changed, text) ← given fun _ => ExceptT.lift entry.text.undo
  update document fun entry => { entry with text := text }
  return changed

def redo (view : ViewId) : Command Bool := do
  let (document, entry) ← given fun documents => check (documents.entryFor view)
  given fun _ => check entry.requireWritable
  let (changed, text) ← given fun _ => ExceptT.lift entry.text.redo
  update document fun entry => { entry with text := text }
  return changed

def endTyping (view : ViewId) : Command Unit := do
  let (document, entry) ← given fun documents => check (documents.entryFor view)
  let text ← given fun _ => ExceptT.lift entry.text.closeTransaction
  update document fun entry => { entry with text := text }

/-- `observe` where the ticket is current and the source was not seen at this version. -/
def takeIn (document : DocumentId) (entry : OpenDocument) (snapshot : SourceSnapshot) : Command Bool := do
  if entry.dirty then
    update document fun entry => { entry with conflict := some { snapshot, keptEdits := false } }
    update document fun entry => { entry with sourceEpoch := entry.sourceEpoch + 1 }
    return true
  else
    let text ← given fun _ => engine (some (entry.text.reloadFrom snapshot.bytes))
    update document fun entry => { entry with text := text }
    update document fun entry => { entry with version := some snapshot.version }
    update document fun entry => { entry with sourceEpoch := entry.sourceEpoch + 1 }
    return true

/-- `observe` where the version has not changed: a conflict is over. -/
def settle (document : DocumentId) (entry : OpenDocument) : Command Bool := do
  if entry.conflict.isSome then
    update document fun entry => { entry with conflict := none }
    update document fun entry => { entry with sourceEpoch := entry.sourceEpoch + 1 }
    return true
  else return false

end

omit [Allocation] in
def observe (ticket : ReadTicket) (snapshot : SourceSnapshot) : Command Bool := do
  let entry ← given fun documents => check (documents.get ticket.document)
  refuse (entry.sourceEpoch ≠ ticket.sourceEpoch ∨ entry.accessEpoch ≠ ticket.accessEpoch ∨
    entry.text.revision ≠ ticket.revision ∨ entry.version ≠ ticket.version) (some .stale)
  refuse (entry.isSaving = true) (some .busy)
  let _ ← given fun _ => engine (some (TextDocument.fromBytes snapshot.bytes mobileDocumentBounds))
  if entry.version = some snapshot.version then settle ticket.document entry
  else if entry.conflict.any fun change => change.snapshot.version = snapshot.version then return false
  else takeIn ticket.document entry snapshot

section

omit [CharTables] [Allocation]

def keepEdits (view : ViewId) : Command Unit := do
  let (document, entry) ← given fun documents => check (documents.entryFor view)
  given fun _ => check entry.requireWritable
  let change ← ask fun _ => okOr entry.conflict (some .conflict)
  update document fun entry => { entry with conflict := some { change with keptEdits := true } }

def reload (view : ViewId) : Command Unit := do
  let (document, entry) ← given fun documents => check (documents.entryFor view)
  refuse (entry.isSaving = true) (some .busy)
  refuse (entry.available = false) (some .unavailable)
  let change ← ask fun _ => okOr entry.conflict (some .conflict)
  let text ← given fun _ => engine (some (entry.text.reloadFrom change.snapshot.bytes))
  update document fun entry => { entry with text := text }
  update document fun entry => { entry with version := some change.snapshot.version }
  update document fun entry => { entry with conflict := none }
  update document fun entry => { entry with sourceEpoch := entry.sourceEpoch + 1 }

def setAccess (document : DocumentId) (available writable : Bool) : Command Unit := do
  let entry ← given fun documents => check (documents.get document)
  refuse (entry.isSaving = true ∧ available = true) (some .busy)
  update document fun entry => { entry with accessEpoch := entry.accessEpoch + 1 }
  update document fun entry => { entry with available := available }
  update document fun entry => { entry with writableSource := writable && !entry.origin.isRemote }

def prepareSave (view : ViewId) (automatic : Bool) : Command (SaveTicket × List UInt8) := do
  let (document, entry) ← given fun documents => check (documents.entryFor view)
  given fun _ => check entry.requireWritable
  refuse (entry.origin.isLocal = false) (some .unavailable)
  refuse (entry.isSaving = true) (some .busy)
  let expected ← given fun _ => check (expectedVersion entry automatic)
  let bytes := entry.text.toBytes
  given fun _ => engine (some (mobileDocumentBounds.checkDeclaredSize bytes.length))
  let operation ← given fun documents => check (nextId documents.nextOperation)
  change fun documents => { documents with nextOperation := operation }
  let text ← given fun _ => ExceptT.lift entry.text.closeTransaction
  update document fun entry => { entry with text := text }
  update document fun entry => { entry with saving := some operation }
  return ({ document, sourceEpoch := entry.sourceEpoch, operation, point := text.savePoint, expected }, bytes)

def finishSave (ticket : SaveTicket) (version : SourceVersion) : Command Unit := do
  let entry ← given fun documents => check (documents.savingEntry ticket)
  let text ← given fun _ => ExceptT.lift (entry.text.markSavedAt ticket.point)
  update ticket.document fun entry => { entry with text := text }
  update ticket.document fun entry => { entry with version := some version }
  update ticket.document fun entry => { entry with conflict := none }
  update ticket.document fun entry => { entry with saving := none }

def failSave (ticket : SaveTicket) : Command Unit := do
  let _ ← given fun documents => check (documents.savingEntry ticket)
  update ticket.document fun entry => { entry with saving := none }

end

def only {α : Type} (command : Command α) : Command Unit := do
  let _ ← command

def perform : RegistryOp → Command Unit
  | .openDocument origin bytes version writable => only (openDocument origin bytes version writable)
  | .duplicate view => only (duplicate view)
  | .takeTarget view start stop => only (given (·.target view start stop))
  | .sync target updated => only (sync target updated)
  | .replace captured current replacement => replace captured current replacement
  | .undo view => only (undo view)
  | .redo view => only (redo view)
  | .endTyping view => endTyping view
  | .readTicket view => only (given fun documents => check (documents.readTicket view))
  | .observe ticket snapshot => only (observe ticket snapshot)
  | .keepEdits view => keepEdits view
  | .reload view => reload view
  | .setAccess document available writable => setAccess document available writable
  | .prepareSave view automatic => only (prepareSave view automatic)
  | .finishSave ticket version => finishSave ticket version
  | .failSave ticket => failSave ticket
  | .close view discard => only (close view discard)

/-- One request of a run, whether it fails or not; the run ends where the program stops. -/
def step (documents : Documents) (op : RegistryOp) : Option Documents :=
  match perform op documents with
  | (.error none, _) => none
  | (_, documents) => some documents

end Documents.InPlace

end FesTerm.MobileDocs
