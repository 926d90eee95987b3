import FesTerm.MobileDocs.InPlace

/-!
# The size of what is saved

Bytes are loaded where they are not too many as they stand, and saved with one line ending throughout. A document
of mixed line endings is larger when it is saved.
-/

namespace FesTerm.MobileDocs

open Document

/-- The bytes are loaded, and what is saved of the document is larger than what may be loaded. -/
def Oversize (bytes : List UInt8) : Prop :=
  ∃ document, TextDocument.fromBytes bytes mobileDocumentBounds = .ok document ∧
    mobileMaxSourceBytes < document.toBytes.length

namespace Documents

variable [CharTables]

/-- The request loads such bytes into a document that can be edited. -/
def LoadsOversize (documents : Documents) : RegistryOp → Prop
  | .openDocument origin bytes _ _ =>
    origin.isRemote = false ∧ documents.origins.get origin.key = none ∧
      documents.documents.entries.length < maxDocuments ∧ documents.views.entries.length < maxViews ∧ Oversize bytes
  | .observe ticket snapshot =>
    ∃ entry, documents.documents.get ticket.document = some entry ∧ entry.origin.isRemote = false ∧
      entry.dirty = false ∧ entry.version ≠ some snapshot.version ∧ Oversize snapshot.bytes
  | .reload view =>
    ∃ document entry change, documents.entryFor view = .ok (document, entry) ∧ entry.origin.isRemote = false ∧
      entry.conflict = some change ∧ Oversize change.snapshot.bytes
  | _ => False

/-- The size that is predicted for an edit is that of the bytes that are saved after it. -/
def Predicts (text : TextDocument) (removed inserted : Text) (edited : TextDocument) : Prop :=
  changedLength text removed inserted = some edited.toBytes.length

variable [Allocation]

/-- A local text can be saved and opened again, and what would not fit is refused. -/
structure AlwaysSaves (documents : Documents) : Prop where
  fits : ∀ document entry, documents.documents.get document = some entry → entry.origin.isLocal = true →
    entry.text.toBytes.length ≤ mobileMaxSourceBytes ∧
      ∃ reopened, TextDocument.fromBytes entry.text.toBytes mobileDocumentBounds = .ok reopened
  /-- A save is not refused for what the text is. -/
  saves : ∀ view automatic reason, (documents.prepareSave view automatic).run ≠ some (.error (.refused reason))
  syncs : ∀ target updated normalised entry bytes limit,
    (documents.editableTarget target).run = some (.ok entry) → normalizedInput updated = .ok normalised →
    { entry.text with text := normalised }.toBytes.length ≤ entry.text.toBytes.length →
    (documents.sync target updated).run ≠ some (.error (.refused (.tooLarge bytes limit)))
  replaces : ∀ captured current replacement normalised entry removed bytes limit,
    (documents.editableTarget captured).run = some (.ok entry) → normalizedInput replacement = .ok normalised →
    sliceText entry.text.text captured.start captured.stop = some removed →
    encodedLength entry.text normalised ≤ encodedLength entry.text removed →
    (documents.replace captured current replacement).run ≠ some (.error (.refused (.tooLarge bytes limit)))
  /-- The check does not stop the program, whatever is put in the place of the target or of the whole text. -/
  checked : ∀ target entry, (documents.editableTarget target).run = some (.ok entry) →
    ∃ front removed back, entry.text.text = front ++ (removed ++ back) ∧
      sliceText entry.text.text target.start target.stop = some removed ∧
      (∀ inserted, Predicts entry.text removed inserted
        { entry.text with text := front ++ (inserted ++ back) }) ∧
      ∀ updated, Predicts entry.text entry.text.text updated { entry.text with text := updated }
  /-- The size that is checked is that of the document after the edit. -/
  synced : ∀ target updated changed after, (documents.sync target updated).run = some (.ok (changed, after)) →
    ∃ entry entry' normalised, documents.documents.get target.document = some entry ∧
      after.documents.get target.document = some entry' ∧ normalizedInput updated = .ok normalised ∧
      Predicts entry.text entry.text.text normalised entry'.text
  replaced : ∀ captured current replacement after,
    (documents.replace captured current replacement).run = some (.ok after) →
    ∃ entry entry' normalised removed, documents.documents.get captured.document = some entry ∧
      after.documents.get captured.document = some entry' ∧ normalizedInput replacement = .ok normalised ∧
      sliceText entry.text.text captured.start captured.stop = some removed ∧
      Predicts entry.text removed normalised entry'.text

end Documents

end FesTerm.MobileDocs
