import FesTerm.Lib.Runs
import FesTerm.MobileDocs.Editor

/-!
# Runs of the registry

Requests in any order, with any targets and read tickets and with the save tickets that were issued. Beside
the registry a run remembers what every document was loaded from or last saved as, what was handed out for
the save under way, where the user chose to keep edits, and what was issued. No request reads that.
-/

namespace FesTerm.MobileDocs

open Document

/-- The bytes that a document was loaded from or last saved as, unless it was never written, with the
version that they have. -/
structure Recorded where
  version : Option SourceVersion
  bytes : Option (List UInt8)
  deriving DecidableEq

/-- The open documents, with what the surroundings hold of them. -/
structure Registry where
  documents : Documents
  recorded : DocumentId → Recorded
  /-- The bytes of the last save that was begun. -/
  writing : DocumentId → List UInt8
  /-- The conflicting versions that edits were kept against. -/
  chosen : List (DocumentId × SourceVersion)
  targets : List EditTarget
  reads : List ReadTicket
  saves : List SaveTicket

/-- A request to the open documents. -/
inductive RegistryOp where
  | openDocument (origin : DocumentOrigin) (bytes : List UInt8) (version : Option SourceVersion)
    (writable : Bool)
  | duplicate (view : ViewId)
  | takeTarget (view : ViewId) (start stop : Nat)
  | sync (target : EditTarget) (updated : Text)
  | replace (captured current : EditTarget) (replacement : Text)
  | undo (view : ViewId)
  | redo (view : ViewId)
  | endTyping (view : ViewId)
  | readTicket (view : ViewId)
  | observe (ticket : ReadTicket) (snapshot : SourceSnapshot)
  | keepEdits (view : ViewId)
  | reload (view : ViewId)
  | setAccess (document : DocumentId) (available writable : Bool)
  | prepareSave (view : ViewId) (automatic : Bool)
  | finishSave (ticket : SaveTicket) (version : SourceVersion)
  | failSave (ticket : SaveTicket)
  | close (view : ViewId) (discard : Bool)

namespace Registry

/-- No document is open. -/
def start : Registry where
  documents := .empty
  recorded _ := ⟨none, none⟩
  writing _ := []
  chosen := []
  targets := []
  reads := []
  saves := []

/-- A refused request leaves everything as it is. -/
def settle {α : Type} (registry : Registry) (request : Request α) (accepted : α → Registry) : Option Registry :=
  match request.run with
  | none => none
  | some (.error _) => some registry
  | some (.ok result) => some (accepted result)

def record (registry : Registry) (document : DocumentId) (recorded : Recorded) : Registry :=
  { registry with recorded := Function.update registry.recorded document recorded }

/-- What an accepted `open` leaves: a document that was open already is not loaded again. -/
def opened (registry : Registry) (origin : DocumentOrigin) (bytes : List UInt8)
    (version : Option SourceVersion) (documents : Documents) : Registry :=
  if documents.nextDocument = registry.documents.nextDocument then { registry with documents }
  else { registry with documents }.record documents.nextDocument
    ⟨version, if origin.isUntitled then none else some bytes⟩

/-- What an accepted `observe` leaves: the snapshot is loaded where the version has changed. -/
def observed (registry : Registry) (document : DocumentId) (snapshot : SourceSnapshot)
    (documents : Documents) : Registry :=
  if (documents.get document).map (·.version) = (registry.documents.get document).map (·.version) then
    { registry with documents }
  else { registry with documents }.record document ⟨some snapshot.version, some snapshot.bytes⟩

/-- The conflict of the document of a view. -/
def conflictOf (registry : Registry) (view : ViewId) : Option (DocumentId × ExternalChange) :=
  match registry.documents.entryFor view with
  | .ok (document, entry) => entry.conflict.map fun change => (document, change)
  | .error _ => none

def keptEdits (registry : Registry) (view : ViewId) (documents : Documents) : Registry :=
  match registry.conflictOf view with
  | some (document, change) =>
    { registry with documents, chosen := (document, change.snapshot.version) :: registry.chosen }
  | none => { registry with documents }

def reloaded (registry : Registry) (view : ViewId) (documents : Documents) : Registry :=
  match registry.conflictOf view with
  | some (document, change) =>
    { registry with documents }.record document ⟨some change.snapshot.version, some change.snapshot.bytes⟩
  | none => { registry with documents }

variable [CharTables] [Allocation]

/-- A request; none where it panics. A refused one leaves all as it was. -/
def step (registry : Registry) : RegistryOp → Option Registry
  | .openDocument origin bytes version writable =>
    registry.settle (registry.documents.openDocument origin bytes version writable) fun (_, documents) =>
      registry.opened origin bytes version documents
  | .duplicate view =>
    registry.settle (registry.documents.duplicate view) fun (_, documents) => { registry with documents }
  | .takeTarget view start stop =>
    registry.settle (registry.documents.target view start stop) fun target =>
      { registry with targets := target :: registry.targets }
  | .sync target updated =>
    registry.settle (registry.documents.sync target updated) fun (_, documents) => { registry with documents }
  | .replace captured current replacement =>
    registry.settle (registry.documents.replace captured current replacement) fun documents =>
      { registry with documents }
  | .undo view =>
    registry.settle (registry.documents.undo view) fun (_, documents) => { registry with documents }
  | .redo view =>
    registry.settle (registry.documents.redo view) fun (_, documents) => { registry with documents }
  | .endTyping view =>
    registry.settle (registry.documents.endTyping view) fun documents => { registry with documents }
  | .readTicket view =>
    registry.settle (check (registry.documents.readTicket view)) fun ticket =>
      { registry with reads := ticket :: registry.reads }
  | .observe ticket snapshot =>
    registry.settle (registry.documents.observe ticket snapshot) fun (_, documents) =>
      registry.observed ticket.document snapshot documents
  | .keepEdits view => registry.settle (registry.documents.keepEdits view) (registry.keptEdits view)
  | .reload view => registry.settle (registry.documents.reload view) (registry.reloaded view)
  | .setAccess document available writable =>
    registry.settle (registry.documents.setAccess document available writable) fun documents =>
      { registry with documents }
  | .prepareSave view automatic =>
    registry.settle (registry.documents.prepareSave view automatic) fun ((ticket, bytes), documents) =>
      { registry with
        documents
        saves := ticket :: registry.saves
        writing := Function.update registry.writing ticket.document bytes }
  | .finishSave ticket version =>
    if ticket ∈ registry.saves then
      registry.settle (registry.documents.finishSave ticket version) fun documents =>
        { registry with documents }.record ticket.document
          ⟨some version, some (registry.writing ticket.document)⟩
    else none
  | .failSave ticket =>
    if ticket ∈ registry.saves then
      registry.settle (registry.documents.failSave ticket) fun documents => { registry with documents }
    else none
  | .close view discard =>
    registry.settle (registry.documents.close view discard) fun (_, documents) => { registry with documents }

end Registry

section

variable [CharTables] [Allocation]

def Accepts {α : Type} (request : Request α) : Prop := ∃ result, request.run = some (.ok result)

omit [CharTables] [Allocation] in
theorem accepts_iff {α : Type} {request : Request α} : request.run.any Except.isOk = true ↔ Accepts request := by
  constructor
  · intro h
    obtain ⟨result, hresult, hok⟩ := (Option.any_eq_true _ _).mp h
    cases result with
    | error error => cases hok
    | ok result => exact ⟨result, hresult⟩
  · rintro ⟨result, hresult⟩
    rw [hresult]
    rfl

instance {α : Type} (request : Request α) : Decidable (Accepts request) :=
  decidable_of_iff _ accepts_iff

namespace RegistryOp

/-- The operation edits the text of the document, or reloads it explicitly. -/
def Edits (registry : Registry) (document : DocumentId) : RegistryOp → Prop
  | .sync target _ => target.document = document
  | .replace captured _ _ => captured.document = document
  | .undo view | .redo view | .reload view => registry.documents.documentFor view = .ok document
  | _ => False

/-- A reload of the document: the explicit one, or a read that found the source changed. -/
def Reloads (registry : Registry) (document : DocumentId) : RegistryOp → Prop
  | .reload view =>
    registry.documents.documentFor view = .ok document ∧ Accepts (registry.documents.reload view)
  | .observe ticket snapshot =>
    ticket.document = document ∧
      ∃ documents, (registry.documents.observe ticket snapshot).run = some (.ok (true, documents))
  | _ => False

def ChangesAccess (registry : Registry) (document : DocumentId) : RegistryOp → Prop
  | .setAccess changed available writable =>
    changed = document ∧ Accepts (registry.documents.setAccess changed available writable)
  | _ => False

/-- The save of the ticket is completed, with or without success. -/
def EndsSave (registry : Registry) (ticket : SaveTicket) : RegistryOp → Prop
  | .finishSave finished version =>
    finished = ticket ∧ Accepts (registry.documents.finishSave finished version)
  | .failSave failed => failed = ticket ∧ Accepts (registry.documents.failSave failed)
  | _ => False

end RegistryOp

def RefusesTarget (registry : Registry) (target : EditTarget) : Prop :=
  (∀ updated, ¬ Accepts (registry.documents.sync target updated)) ∧
    ∀ current replacement, ¬ Accepts (registry.documents.replace target current replacement)

def RefusesRead (registry : Registry) (ticket : ReadTicket) : Prop :=
  ∀ snapshot, ¬ Accepts (registry.documents.observe ticket snapshot)

def RefusesSave (registry : Registry) (ticket : SaveTicket) : Prop :=
  (∀ version, ¬ Accepts (registry.documents.finishSave ticket version)) ∧
    ¬ Accepts (registry.documents.failSave ticket)

/-- What holds of the targets and tickets that were issued before a step, in every state after it. -/
structure Outdates (registry : Registry) (op : RegistryOp) (later : Registry) : Prop where
  targets : ∀ target ∈ registry.targets,
    op.Reloads registry target.document ∨ op.ChangesAccess registry target.document → RefusesTarget later target
  reads : ∀ ticket ∈ registry.reads,
    op.Reloads registry ticket.document ∨ op.ChangesAccess registry ticket.document → RefusesRead later ticket
  saves : ∀ ticket ∈ registry.saves,
    op.Reloads registry ticket.document ∨ op.EndsSave registry ticket → RefusesSave later ticket

/-- No request loses an edit that is not saved. -/
structure KeepsEdits (registry : Registry) : Prop where
  /-- Only a request that edits it, or an explicit reload, changes a text that is not saved; and only a
  confirmed close discards it. -/
  edits : ∀ op registry', registry.step op = some registry' →
    ∀ document entry, registry.documents.documents.get document = some entry → entry.dirty = true →
      match registry'.documents.documents.get document with
      | some entry' => entry'.text.text = entry.text.text ∨ op.Edits registry document
      | none => ∃ view, op = .close view true
  /-- A save replaces the recorded version, or the conflicting one that edits were kept against. -/
  expects : ∀ view automatic ticket bytes documents,
    (registry.documents.prepareSave view automatic).run = some (.ok ((ticket, bytes), documents)) →
      ∃ entry, registry.documents.entryFor view = .ok (ticket.document, entry) ∧
        match entry.conflict with
        | none => (registry.recorded ticket.document).version = some ticket.expected
        | some change =>
          change.snapshot.version = ticket.expected ∧ (ticket.document, ticket.expected) ∈ registry.chosen
  /-- A document that is not dirty holds what is recorded for its version. -/
  clean : ∀ document entry, registry.documents.documents.get document = some entry → entry.dirty = false →
    ∃ bytes, registry.recorded document = ⟨entry.version, some bytes⟩ ∧
      ((∃ decoded, TextDocument.fromBytes bytes mobileDocumentBounds = .ok decoded ∧
        decoded.text = entry.text.text) ∨
      entry.text.encoding = .utf8 ∧ entry.text.text.head? = some '\uFEFF')
  outdates : ∀ op next later, registry.step op = some next →
    Runs.Reaches Registry.step (fun _ _ => True) next later → Outdates registry op later
  /-- A read is only taken in for the version that it was issued at. -/
  version : ∀ ticket entry, registry.documents.documents.get ticket.document = some entry →
    entry.version ≠ ticket.version → RefusesRead registry ticket

end

end FesTerm.MobileDocs
