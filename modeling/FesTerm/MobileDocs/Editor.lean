import FesTerm.Document.Session
import FesTerm.Lib.Table

/-!
# The registry of mobile documents

`editor.rs`: the documents that the mobile host has open, the views of them, and the requests that read,
edit, save and close them. Reads and saves are completed later, by tickets. A request that would stop the
program is `none`; a refused one leaves the registry as it is. Counters are natural numbers that stay
below `2 ^ 64`; epochs are not bounded.
-/

namespace FesTerm.MobileDocs

open Document Checked

def maxDocuments : Nat := 8
def maxViews : Nat := 24
def mobileMaxSourceBytes : Nat := 1024 * 1024

def mobileDocumentBounds : DocumentBounds where
  maxBytes := mobileMaxSourceBytes
  maxLines := 16384
  maxLineBytes := 16 * 1024

abbrev ViewId := Nat
abbrev DocumentId := Nat
abbrev DocumentKey := Text

/-- Supplied by an authorised source, over its identity and exact encoded bytes. -/
structure SourceVersion where
  bytes : List UInt8
  deriving DecidableEq

structure SourceSnapshot where
  bytes : List UInt8
  version : SourceVersion
  deriving DecidableEq

inductive DocumentError where
  | closed
  | readOnly
  | unavailable
  | stale
  | invalidSelection
  | conflict
  | busy
  | capacity
  | refused (reason : RefusalReason)
  deriving DecidableEq

structure ExternalChange where
  snapshot : SourceSnapshot
  keptEdits : Bool
  deriving DecidableEq

structure OpenDocument where
  origin : DocumentOrigin
  text : TextDocument
  version : Option SourceVersion
  writableSource : Bool
  available : Bool
  sourceEpoch : Nat
  accessEpoch : Nat
  conflict : Option ExternalChange
  saving : Option Nat
  deriving DecidableEq

/-- The target of a delayed commit. -/
structure EditTarget where
  view : ViewId
  document : DocumentId
  revision : UInt64
  start : Nat
  stop : Nat
  origin : DocumentKey
  sourceEpoch : Nat
  accessEpoch : Nat
  deriving DecidableEq

structure ReadTicket where
  document : DocumentId
  sourceEpoch : Nat
  accessEpoch : Nat
  revision : UInt64
  version : Option SourceVersion
  deriving DecidableEq

structure SaveTicket where
  document : DocumentId
  sourceEpoch : Nat
  operation : Nat
  point : SavePoint
  expected : SourceVersion
  deriving DecidableEq

inductive CloseOutcome where
  | needsConfirmation
  | closed (released : Option DocumentId)
  deriving DecidableEq

/-- `Documents`: the open documents, where each comes from, and its views. -/
structure Documents where
  documents : Table DocumentId OpenDocument
  origins : Table DocumentKey DocumentId
  views : Table ViewId DocumentId
  nextDocument : Nat
  nextView : Nat
  nextOperation : Nat

abbrev Request (α : Type) := ExceptT DocumentError Option α

def engine {α : Type} (result : Option (Except RefusalReason α)) : Request α :=
  ExceptT.mk (result.map (Except.mapError .refused))

def check {α : Type} (result : Except DocumentError α) : Request α := ExceptT.mk (some result)

/-- `checked_add(1)`. -/
def nextId (id : Nat) : Except DocumentError Nat :=
  if id + 1 < 2 ^ 64 then .ok (id + 1) else .error .capacity

namespace OpenDocument

def dirty (entry : OpenDocument) : Bool := entry.text.isDirty || entry.conflict.isSome

def writable (entry : OpenDocument) : Bool :=
  entry.writableSource && entry.available && !entry.origin.isRemote

def isSaving (entry : OpenDocument) : Bool := entry.saving.isSome

def requireWritable (entry : OpenDocument) : Except DocumentError Unit :=
  if !entry.available then .error .unavailable
  else if !entry.writable then .error .readOnly
  else .ok ()

end OpenDocument

def normalizedInput (text : Text) : Except DocumentError Text :=
  if text.contains '\x00' then .error (.refused .binaryContent)
  else .ok (if text.contains '\r' then normaliseLineEndings text else text)

def encodedLength (document : TextDocument) (text : Text) : Nat :=
  utf8Len text + if document.lineEnding = .crlf then text.count '\n' else 0

/-- `bytes` of `check_encoded_change`, the size that is predicted. -/
def changedLength (document : TextDocument) (removed inserted : Text) : Option Nat := do
  let rest ← sub (encodedLength document document.text) (encodedLength document removed)
  return rest + encodedLength document inserted + if document.encoding = .utf8Bom then 3 else 0

def checkEncodedChange (document : TextDocument) (removed inserted : Text) : Request Unit := do
  let bytes ← ExceptT.lift (changedLength document removed inserted)
  engine (some (mobileDocumentBounds.checkDeclaredSize bytes))

namespace Documents

/-- No document is open. -/
def empty : Documents where
  documents := .empty
  origins := .empty
  views := .empty
  nextDocument := 0
  nextView := 0
  nextOperation := 0

def get (documents : Documents) (document : DocumentId) : Except DocumentError OpenDocument :=
  match documents.documents.get document with
  | some entry => .ok entry
  | none => .error .closed

def documentFor (documents : Documents) (view : ViewId) : Except DocumentError DocumentId :=
  match documents.views.get view with
  | some document => .ok document
  | none => .error .closed

def setEntry (documents : Documents) (document : DocumentId) (entry : OpenDocument) : Documents :=
  { documents with documents := documents.documents.insert document entry }

/-- The document of a view, with its entry. -/
def entryFor (documents : Documents) (view : ViewId) : Except DocumentError (DocumentId × OpenDocument) := do
  let document ← documents.documentFor view
  return (document, ← documents.get document)

def duplicateDocument (documents : Documents) (document : DocumentId) : Request (ViewId × Documents) := do
  if documents.views.entries.length ≥ maxViews then
    throw .capacity
  let nextView ← check (nextId documents.nextView)
  return (nextView, { documents with nextView, views := documents.views.insert nextView document })

def duplicate (documents : Documents) (view : ViewId) : Request (ViewId × Documents) := do
  documents.duplicateDocument (← check (documents.documentFor view))

def openDocument [CharTables] (documents : Documents) (origin : DocumentOrigin) (bytes : List UInt8)
    (version : Option SourceVersion) (writable : Bool) : Request (ViewId × Documents) := do
  match documents.origins.get origin.key with
  | some document => documents.duplicateDocument document
  | none =>
    if documents.documents.entries.length ≥ maxDocuments ∨ documents.views.entries.length ≥ maxViews then
      throw .capacity
    let text ← engine (some (if origin.isUntitled then
      TextDocument.fromUnsavedBytes bytes mobileDocumentBounds
      else TextDocument.fromBytes bytes mobileDocumentBounds))
    let document ← check (nextId documents.nextDocument)
    let nextView ← check (nextId documents.nextView)
    let entry : OpenDocument :=
      { origin
        text
        version
        writableSource := writable && !origin.isRemote
        available := true
        sourceEpoch := 0
        accessEpoch := 0
        conflict := none
        saving := none }
    return (nextView, { documents with
      nextDocument := document
      origins := documents.origins.insert origin.key document
      documents := documents.documents.insert document entry
      nextView
      views := documents.views.insert nextView document })

def close [CharTables] (documents : Documents) (view : ViewId) (discard : Bool) :
    Request (CloseOutcome × Documents) := do
  let document ← check (documents.documentFor view)
  let last := documents.views.count (· = document) = 1
  let entry ← check (documents.get document)
  if last ∧ entry.isSaving then
    throw .busy
  if last ∧ entry.dirty ∧ !discard then
    return (.needsConfirmation, documents)
  let documents := { documents with views := documents.views.erase view }
  if last then
    return (.closed (some document), { documents with
      documents := documents.documents.erase document
      origins := documents.origins.erase entry.origin.key })
  return (.closed none, documents)

def target [CharTables] (documents : Documents) (view : ViewId) (start stop : Nat) : Request EditTarget := do
  let (document, entry) ← check (documents.entryFor view)
  let text := entry.text.text
  if start > stop ∨ stop > utf8Len text ∨ !isCharBoundary text start ∨ !isCharBoundary text stop then
    throw .invalidSelection
  return { view
           document
           revision := entry.text.revision
           start
           stop
           origin := entry.origin.key
           sourceEpoch := entry.sourceEpoch
           accessEpoch := entry.accessEpoch }

def editableTarget [CharTables] (documents : Documents) (target : EditTarget) : Request OpenDocument := do
  if (← documents.target target.view target.start target.stop) ≠ target then
    throw .stale
  let entry ← check (documents.get target.document)
  check entry.requireWritable
  return entry

def sync [CharTables] [Allocation] (documents : Documents) (target : EditTarget) (updated : Text) :
    Request (Bool × Documents) := do
  let updated ← check (normalizedInput updated)
  let entry ← documents.editableTarget target
  checkEncodedChange entry.text entry.text.text updated
  let (changed, text) ← engine (entry.text.syncFromView updated)
  return (changed, documents.setEntry target.document { entry with text })

/-- One transaction of its own, guarded against changes of the selection only as well. -/
def replace [CharTables] [Allocation] (documents : Documents) (captured current : EditTarget)
    (replacement : Text) : Request Documents := do
  if captured ≠ current then
    throw .stale
  let replacement ← check (normalizedInput replacement)
  let entry ← documents.editableTarget captured
  let removed ← ExceptT.lift (sliceText entry.text.text captured.start captured.stop)
  checkEncodedChange entry.text removed replacement
  let text ← engine (entry.text.replace captured.start captured.stop replacement)
  return documents.setEntry captured.document { entry with text }

def undo (documents : Documents) (view : ViewId) : Request (Bool × Documents) := do
  let (document, entry) ← check (documents.entryFor view)
  check entry.requireWritable
  let (changed, text) ← ExceptT.lift entry.text.undo
  return (changed, documents.setEntry document { entry with text })

def redo (documents : Documents) (view : ViewId) : Request (Bool × Documents) := do
  let (document, entry) ← check (documents.entryFor view)
  check entry.requireWritable
  let (changed, text) ← ExceptT.lift entry.text.redo
  return (changed, documents.setEntry document { entry with text })

def endTyping (documents : Documents) (view : ViewId) : Request Documents := do
  let (document, entry) ← check (documents.entryFor view)
  let text ← ExceptT.lift entry.text.closeTransaction
  return documents.setEntry document { entry with text }

def readTicket (documents : Documents) (view : ViewId) : Except DocumentError ReadTicket := do
  let (document, entry) ← documents.entryFor view
  return { document
           sourceEpoch := entry.sourceEpoch
           accessEpoch := entry.accessEpoch
           revision := entry.text.revision
           version := entry.version }

/-- What `observe` makes of an entry that its ticket is for, and whether it changed it. -/
def observeEntry (entry : OpenDocument) (snapshot : SourceSnapshot) : Request (Bool × OpenDocument) := do
  if entry.version = some snapshot.version then
    if entry.conflict.isSome then
      return (true, { entry with conflict := none, sourceEpoch := entry.sourceEpoch + 1 })
    return (false, entry)
  if entry.conflict.any fun change => change.snapshot.version = snapshot.version then
    return (false, entry)
  if entry.dirty then
    return (true, { entry with
      conflict := some { snapshot, keptEdits := false }, sourceEpoch := entry.sourceEpoch + 1 })
  let text ← engine (some (entry.text.reloadFrom snapshot.bytes))
  return (true, { entry with
    text, version := some snapshot.version, sourceEpoch := entry.sourceEpoch + 1 })

def observe (documents : Documents) (ticket : ReadTicket) (snapshot : SourceSnapshot) :
    Request (Bool × Documents) := do
  let entry ← check (documents.get ticket.document)
  if entry.sourceEpoch ≠ ticket.sourceEpoch ∨ entry.accessEpoch ≠ ticket.accessEpoch ∨
      entry.text.revision ≠ ticket.revision ∨ entry.version ≠ ticket.version then
    throw .stale
  if entry.isSaving then
    throw .busy
  let _ ← engine (some (TextDocument.fromBytes snapshot.bytes mobileDocumentBounds))
  let (changed, entry) ← observeEntry entry snapshot
  return (changed, documents.setEntry ticket.document entry)

def keepEdits (documents : Documents) (view : ViewId) : Request Documents := do
  let (document, entry) ← check (documents.entryFor view)
  check entry.requireWritable
  match entry.conflict with
  | none => throw .conflict
  | some change =>
    return documents.setEntry document { entry with conflict := some { change with keptEdits := true } }

def reload (documents : Documents) (view : ViewId) : Request Documents := do
  let (document, entry) ← check (documents.entryFor view)
  if entry.isSaving then
    throw .busy
  if !entry.available then
    throw .unavailable
  match entry.conflict with
  | none => throw .conflict
  | some change =>
    let text ← engine (some (entry.text.reloadFrom change.snapshot.bytes))
    return documents.setEntry document { entry with
      text
      version := some change.snapshot.version
      conflict := none
      sourceEpoch := entry.sourceEpoch + 1 }

def setAccess (documents : Documents) (document : DocumentId) (available writable : Bool) :
    Request Documents := do
  let entry ← check (documents.get document)
  if entry.isSaving ∧ available then
    throw .busy
  return documents.setEntry document { entry with
    accessEpoch := entry.accessEpoch + 1
    available
    writableSource := writable && !entry.origin.isRemote }

/-- The version that the source must have for the save to go ahead. -/
def expectedVersion (entry : OpenDocument) (automatic : Bool) : Except DocumentError SourceVersion :=
  match entry.conflict with
  | some change =>
    if !automatic && change.keptEdits then .ok change.snapshot.version else .error .conflict
  | none =>
    match entry.version with
    | some version => .ok version
    | none => .error .unavailable

def prepareSave (documents : Documents) (view : ViewId) (automatic : Bool) :
    Request ((SaveTicket × List UInt8) × Documents) := do
  let (document, entry) ← check (documents.entryFor view)
  check entry.requireWritable
  if !entry.origin.isLocal then
    throw .unavailable
  if entry.isSaving then
    throw .busy
  let expected ← check (expectedVersion entry automatic)
  let bytes := entry.text.toBytes
  engine (some (mobileDocumentBounds.checkDeclaredSize bytes.length))
  let operation ← check (nextId documents.nextOperation)
  let text ← ExceptT.lift entry.text.closeTransaction
  let ticket : SaveTicket :=
    { document, sourceEpoch := entry.sourceEpoch, operation, point := text.savePoint, expected }
  return ((ticket, bytes),
    { documents.setEntry document { entry with text, saving := some operation } with
      nextOperation := operation })

def savingEntry (documents : Documents) (ticket : SaveTicket) : Except DocumentError OpenDocument := do
  let entry ← documents.get ticket.document
  if entry.sourceEpoch ≠ ticket.sourceEpoch ∨ entry.saving ≠ some ticket.operation then
    throw .stale
  return entry

def finishSave (documents : Documents) (ticket : SaveTicket) (version : SourceVersion) :
    Request Documents := do
  let entry ← check (documents.savingEntry ticket)
  let text ← ExceptT.lift (entry.text.markSavedAt ticket.point)
  return documents.setEntry ticket.document { entry with
    text, version := some version, conflict := none, saving := none }

def failSave (documents : Documents) (ticket : SaveTicket) : Request Documents := do
  let entry ← check (documents.savingEntry ticket)
  return documents.setEntry ticket.document { entry with saving := none }

end Documents

end FesTerm.MobileDocs
