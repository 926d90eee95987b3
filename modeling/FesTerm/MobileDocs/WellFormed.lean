import FesTerm.MobileDocs.InPlace

/-!
# What is promised of the registry itself

The maps of documents, origins and views belong together, and what they name is never named again.
-/

namespace FesTerm.MobileDocs.Documents

open Document

def HasDocument (documents : Documents) (document : DocumentId) : Prop :=
  ∃ entry, documents.documents.get document = some entry

def HasView (documents : Documents) (view : ViewId) : Prop := ∃ document, documents.views.get view = some document

def HasSave (documents : Documents) (operation : Nat) : Prop :=
  ∃ document entry, documents.documents.get document = some entry ∧ entry.saving = some operation

variable [CharTables]

structure WellFormed (documents : Documents) : Prop where
  origins : ∀ key document, documents.origins.get key = some document ↔
    ∃ entry, documents.documents.get document = some entry ∧ entry.origin.key = key
  views : ∀ view document, documents.views.get view = some document → documents.HasDocument document
  viewed : ∀ document, documents.HasDocument document → ∃ view, documents.views.get view = some document
  documentLimit : documents.documents.entries.length ≤ maxDocuments
  viewLimit : documents.views.entries.length ≤ maxViews
  documentIds : ∀ document, documents.HasDocument document → document ≤ documents.nextDocument
  viewIds : ∀ view, documents.HasView view → view ≤ documents.nextView
  saveIds : ∀ operation, documents.HasSave operation → operation ≤ documents.nextOperation
  saves : ∀ document other entry entry' operation, documents.documents.get document = some entry →
    documents.documents.get other = some entry' → entry.saving = some operation →
    entry'.saving = some operation → document = other

variable [Allocation]

/-- What holds of a registry and of everything that can happen to it. -/
structure Reliable (documents : Documents) : Prop where
  wellFormed : documents.WellFormed
  /-- A request that fails changes nothing. -/
  refused : ∀ op error after, InPlace.perform op documents = (.error (some error), after) → after = documents
  /-- The last view of a document stays while it is saved, and while it is dirty unless that is discarded. -/
  last : ∀ view discard after document entry, InPlace.step documents (.close view discard) = some after →
    documents.views.get view = some document →
    (∀ other, documents.views.get other = some document → other = view) →
    documents.documents.get document = some entry →
    entry.isSaving = true ∨ entry.dirty = true ∧ discard = false → after = documents
  /-- Nothing but the close of its last view takes a document out. -/
  released : ∀ op after document entry, InPlace.step documents op = some after →
    documents.documents.get document = some entry → ¬ after.HasDocument document →
    entry.saving = none ∧ ∃ view discard, op = .close view discard ∧ (entry.dirty = true → discard = true)
  /-- A view names the same document for as long as it is there. -/
  renamed : ∀ later view document document', Runs.Reaches InPlace.step (fun _ _ => True) documents later →
    documents.views.get view = some document → later.views.get view = some document' → document' = document
  /-- What is gone does not come back. -/
  retired : ∀ middle later, Runs.Reaches InPlace.step (fun _ _ => True) documents middle →
    Runs.Reaches InPlace.step (fun _ _ => True) middle later →
    (∀ document, documents.HasDocument document → ¬ middle.HasDocument document → ¬ later.HasDocument document) ∧
      (∀ view, documents.HasView view → ¬ middle.HasView view → ¬ later.HasView view) ∧
      ∀ operation, documents.HasSave operation → ¬ middle.HasSave operation → ¬ later.HasSave operation

end FesTerm.MobileDocs.Documents
