import FesTerm.MobileDocs.Proofs.RequestProofs
import FesTerm.MobileDocs.Proofs.TextHistoryProofs

/-!
# What one operation of a run does

`Effect` names what an operation leaves of the registry and of what a run remembers. The proofs about runs
go by its cases.
-/

namespace FesTerm.MobileDocs

open Document

section

variable [CharTables] [Allocation]

/-! ## What an operation does -/

def Retyped (text text' : TextDocument) : Prop :=
  ∀ saved point, Follows text saved point → Follows text' saved point ∧ SameForm text text'

/-- What is left of the registry by an operation. -/
inductive Effect (registry : Registry) (op : RegistryOp) : Registry → Prop
  | refused : Effect registry op registry
  | target {target : EditTarget} {entry : OpenDocument}
    (hentry : registry.documents.documents.get target.document = some entry)
    (hsource : target.sourceEpoch = entry.sourceEpoch) (haccess : target.accessEpoch = entry.accessEpoch) :
    Effect registry op { registry with targets := target :: registry.targets }
  | read {ticket : ReadTicket} {entry : OpenDocument}
    (hentry : registry.documents.documents.get ticket.document = some entry)
    (hsource : ticket.sourceEpoch = entry.sourceEpoch) (haccess : ticket.accessEpoch = entry.accessEpoch) :
    Effect registry op { registry with reads := ticket :: registry.reads }
  | viewed {documents : Documents} (hdocuments : documents.documents = registry.documents.documents)
    (hdocument : documents.nextDocument = registry.documents.nextDocument)
    (hoperation : documents.nextOperation = registry.documents.nextOperation) :
    Effect registry op { registry with documents }
  | opened {documents : Documents} {origin : DocumentOrigin} {bytes : List UInt8} {entry : OpenDocument}
    (hload : (if origin.isUntitled then TextDocument.fromUnsavedBytes bytes mobileDocumentBounds
      else TextDocument.fromBytes bytes mobileDocumentBounds) = .ok entry.text)
    (hconflict : entry.conflict = none) (hsaving : entry.saving = none)
    (hdocument : documents.nextDocument = registry.documents.nextDocument + 1)
    (hoperation : documents.nextOperation = registry.documents.nextOperation)
    (hdocuments : documents.documents = registry.documents.documents.insert documents.nextDocument entry) :
    Effect registry op ({ registry with documents : Registry }.record documents.nextDocument
      ⟨entry.version, if origin.isUntitled then none else some bytes⟩)
  | released {documents : Documents} {document : DocumentId} {entry : OpenDocument}
    (hentry : registry.documents.documents.get document = some entry)
    (hdiscard : entry.dirty = true → ∃ view, op = .close view true)
    (hdocument : documents.nextDocument = registry.documents.nextDocument)
    (hoperation : documents.nextOperation = registry.documents.nextOperation)
    (hdocuments : documents.documents = registry.documents.documents.erase document) :
    Effect registry op { registry with documents }
  | typed {document : DocumentId} {entry : OpenDocument} {text : TextDocument}
    (hentry : registry.documents.documents.get document = some entry) (htext : Retyped entry.text text)
    (hedits : text.text = entry.text.text ∨ op.Edits registry document) :
    Effect registry op { registry with documents := registry.documents.setEntry document { entry with text } }
  | observed {ticket : ReadTicket} {snapshot : SourceSnapshot} {changed : Bool} {entry entry' : OpenDocument}
    (hentry : registry.documents.documents.get ticket.document = some entry) (hsaving : entry.saving = none)
    (hobserved : Documents.Observed entry snapshot changed entry') :
    Effect registry op (registry.observed ticket.document snapshot
      (registry.documents.setEntry ticket.document entry'))
  | kept {document : DocumentId} {entry : OpenDocument} {change : ExternalChange}
    (hentry : registry.documents.documents.get document = some entry) (hconflict : entry.conflict = some change) :
    Effect registry op { registry with
      documents := registry.documents.setEntry document
        { entry with conflict := some { change with keptEdits := true } }
      chosen := (document, change.snapshot.version) :: registry.chosen }
  | reloaded {document : DocumentId} {entry : OpenDocument} {change : ExternalChange} {text : TextDocument}
    (hentry : registry.documents.documents.get document = some entry) (hsaving : entry.saving = none)
    (hload : entry.text.reloadFrom change.snapshot.bytes = .ok text) (hedits : op.Edits registry document) :
    Effect registry op ({ registry with
      documents := registry.documents.setEntry document { entry with
        text
        version := some change.snapshot.version
        conflict := none
        sourceEpoch := entry.sourceEpoch + 1 } : Registry }.record document
          ⟨some change.snapshot.version, some change.snapshot.bytes⟩)
  | access {document : DocumentId} {entry : OpenDocument} {available writableSource : Bool}
    (hentry : registry.documents.documents.get document = some entry) :
    Effect registry op { registry with
      documents := registry.documents.setEntry document
        { entry with accessEpoch := entry.accessEpoch + 1, available, writableSource } }
  | prepared {ticket : SaveTicket} {entry : OpenDocument} {text : TextDocument}
    (hentry : registry.documents.documents.get ticket.document = some entry) (hsaving : entry.saving = none)
    (hsize : mobileDocumentBounds.checkDeclaredSize entry.text.toBytes.length = .ok ())
    (hclose : entry.text.closeTransaction = some text) (hsource : ticket.sourceEpoch = entry.sourceEpoch)
    (hoperation : ticket.operation = registry.documents.nextOperation + 1)
    (hpoint : ticket.point = text.savePoint) :
    Effect registry op { registry with
      documents := { registry.documents.setEntry ticket.document
        { entry with text, saving := some ticket.operation } with nextOperation := ticket.operation }
      saves := ticket :: registry.saves
      writing := Function.update registry.writing ticket.document entry.text.toBytes }
  | finished {ticket : SaveTicket} {version : SourceVersion} {entry : OpenDocument} {text : TextDocument}
    (hticket : ticket ∈ registry.saves) (hentry : registry.documents.documents.get ticket.document = some entry)
    (hsaving : entry.saving = some ticket.operation) (hmark : entry.text.markSavedAt ticket.point = some text) :
    Effect registry op ({ registry with
      documents := registry.documents.setEntry ticket.document
        { entry with text, version := some version, conflict := none, saving := none } : Registry }.record
          ticket.document ⟨some version, some (registry.writing ticket.document)⟩)
  | failed {document : DocumentId} {entry : OpenDocument}
    (hentry : registry.documents.documents.get document = some entry) :
    Effect registry op { registry with
      documents := registry.documents.setEntry document { entry with saving := none } }

variable {registry registry' : Registry} {op : RegistryOp}

omit [CharTables] [Allocation] in
theorem settle_cases {α : Type} {request : Request α} {accepted : α → Registry}
    (h : registry.settle request accepted = some registry') :
    registry' = registry ∨ ∃ result, request.run = some (.ok result) ∧ registry' = accepted result := by
  unfold Registry.settle at h
  split at h
  · cases h
  · cases h
    exact .inl rfl
  next result hrun =>
    cases h
    exact .inr ⟨result, hrun, rfl⟩

omit [CharTables] in
theorem retyped_sync {text text' : TextDocument} {updated normalised : Text} {changed : Bool}
    (hinput : normalizedInput updated = .ok normalised)
    (h : text.syncFromView normalised = some (.ok (changed, text'))) : Retyped text text' := by
  intro saved point hfollows
  obtain ⟨hrun, hform, htext⟩ := syncFromView_spec hfollows.sound h
  refine ⟨hfollows.edit hrun ?_, hform⟩
  rw [htext]
  exact normalised_of_normalizedInput hinput

omit [CharTables] in
theorem retyped_replace {text text' : TextDocument} {start stop : Nat} {replacement normalised : Text}
    (hinput : normalizedInput replacement = .ok normalised)
    (h : text.replace start stop normalised = some (.ok text')) : Retyped text text' := by
  intro saved point hfollows
  obtain ⟨hrun, hform, htext⟩ :=
    replace_spec hfollows.sound h hfollows.normalised (normalised_of_normalizedInput hinput)
  exact ⟨hfollows.edit hrun htext, hform⟩

omit [CharTables] [Allocation] in
theorem conflictOf_eq {view : ViewId} {document : DocumentId} {entry : OpenDocument} {change : ExternalChange}
    (hentry : registry.documents.entryFor view = .ok (document, entry)) (hconflict : entry.conflict = some change) :
    registry.conflictOf view = some (document, change) := by
  unfold Registry.conflictOf
  rw [hentry]
  simp only [hconflict, Option.map_some]

/-- Each operation does what its request says. -/
theorem step_effect (h : registry.step op = some registry') : Effect registry op registry' := by
  cases op with
  | openDocument origin bytes version writable =>
    rcases settle_cases h with rfl | ⟨⟨view, documents⟩, hrun, rfl⟩
    · exact .refused
    · obtain ⟨hoperation, ⟨hdocuments, hdocument⟩ |
        ⟨entry, hload, rfl, hconflict, hsaving, hdocument, hdocuments⟩⟩ := Documents.openDocument_spec hrun
      · change Effect registry _ (registry.opened origin bytes version documents)
        rw [Registry.opened, if_pos hdocument]
        exact .viewed hdocuments hdocument hoperation
      · change Effect registry _ (registry.opened origin bytes entry.version documents)
        rw [Registry.opened, if_neg (by omega)]
        exact .opened hload hconflict hsaving hdocument hoperation hdocuments
  | duplicate view =>
    rcases settle_cases h with rfl | ⟨⟨next, documents⟩, hrun, rfl⟩
    · exact .refused
    · obtain ⟨hdocuments, hdocument, hoperation⟩ := Documents.duplicate_spec hrun
      exact .viewed hdocuments hdocument hoperation
  | takeTarget view start stop =>
    rcases settle_cases h with rfl | ⟨target, hrun, rfl⟩
    · exact .refused
    · obtain ⟨entry, hentry, hsource, haccess⟩ := Documents.target_spec hrun
      exact .target (Documents.entryFor_eq_ok.mp hentry).2 hsource haccess
  | sync target updated =>
    rcases settle_cases h with rfl | ⟨⟨changed, documents⟩, hrun, rfl⟩
    · exact .refused
    · obtain ⟨entry, normalised, text, htarget, hinput, hsync, rfl⟩ := Documents.sync_spec hrun
      obtain ⟨hentry, -⟩ := Documents.editableTarget_spec htarget
      exact .typed hentry (retyped_sync hinput hsync) (.inr rfl)
  | replace captured current replacement =>
    rcases settle_cases h with rfl | ⟨documents, hrun, rfl⟩
    · exact .refused
    · obtain ⟨entry, normalised, text, htarget, hinput, hreplace, rfl⟩ := Documents.replace_spec hrun
      obtain ⟨hentry, -⟩ := Documents.editableTarget_spec htarget
      exact .typed hentry (retyped_replace hinput hreplace) (.inr rfl)
  | undo view =>
    rcases settle_cases h with rfl | ⟨⟨changed, documents⟩, hrun, rfl⟩
    · exact .refused
    · obtain ⟨document, entry, text, hentry, hundo, rfl⟩ := Documents.undo_spec hrun
      obtain ⟨hview, hentry⟩ := Documents.entryFor_eq_ok.mp hentry
      exact .typed hentry (fun _ _ hfollows => ⟨hfollows.undo hundo, sameForm_undo hundo⟩) (.inr hview)
  | redo view =>
    rcases settle_cases h with rfl | ⟨⟨changed, documents⟩, hrun, rfl⟩
    · exact .refused
    · obtain ⟨document, entry, text, hentry, hredo, rfl⟩ := Documents.redo_spec hrun
      obtain ⟨hview, hentry⟩ := Documents.entryFor_eq_ok.mp hentry
      exact .typed hentry (fun _ _ hfollows => ⟨hfollows.redo hredo, sameForm_redo hredo⟩) (.inr hview)
  | endTyping view =>
    rcases settle_cases h with rfl | ⟨documents, hrun, rfl⟩
    · exact .refused
    · obtain ⟨document, entry, text, hentry, hclose, rfl⟩ := Documents.endTyping_spec hrun
      obtain ⟨hform, htext⟩ := sameForm_closeTransaction hclose
      exact .typed (Documents.entryFor_eq_ok.mp hentry).2
        (fun _ _ hfollows => ⟨hfollows.closeTransaction hclose, hform⟩) (.inl htext)
  | readTicket view =>
    rcases settle_cases h with rfl | ⟨ticket, hrun, rfl⟩
    · exact .refused
    · obtain ⟨entry, hentry, hsource, haccess⟩ := Documents.readTicket_spec (ok_check.mp hrun)
      exact .read hentry hsource haccess
  | observe ticket snapshot =>
    rcases settle_cases h with rfl | ⟨⟨changed, documents⟩, hrun, rfl⟩
    · exact .refused
    · obtain ⟨entry, entry', hentry, -, -, -, hsaving, hobserved, rfl⟩ := Documents.observe_spec hrun
      exact .observed hentry hsaving hobserved
  | keepEdits view =>
    rcases settle_cases h with rfl | ⟨documents, hrun, rfl⟩
    · exact .refused
    · obtain ⟨document, entry, change, hentry, hconflict, rfl⟩ := Documents.keepEdits_spec hrun
      rw [Registry.keptEdits, conflictOf_eq hentry hconflict]
      exact .kept (Documents.entryFor_eq_ok.mp hentry).2 hconflict
  | reload view =>
    rcases settle_cases h with rfl | ⟨documents, hrun, rfl⟩
    · exact .refused
    · obtain ⟨document, entry, change, text, hentry, hsaving, hconflict, hload, rfl⟩ := Documents.reload_spec hrun
      rw [Registry.reloaded, conflictOf_eq hentry hconflict]
      obtain ⟨hview, hentry⟩ := Documents.entryFor_eq_ok.mp hentry
      exact .reloaded hentry hsaving hload hview
  | setAccess document available writable =>
    rcases settle_cases h with rfl | ⟨documents, hrun, rfl⟩
    · exact .refused
    · obtain ⟨entry, hentry, rfl⟩ := Documents.setAccess_spec hrun
      exact .access hentry
  | prepareSave view automatic =>
    rcases settle_cases h with rfl | ⟨⟨⟨ticket, bytes⟩, documents⟩, hrun, rfl⟩
    · exact .refused
    · obtain ⟨entry, text, hentry, hsaving, -, rfl, hsize, hclose, hsource, hoperation, hpoint, rfl⟩ :=
        Documents.prepareSave_spec hrun
      exact .prepared (Documents.entryFor_eq_ok.mp hentry).2 hsaving hsize hclose hsource hoperation hpoint
  | finishSave ticket version =>
    obtain ⟨hticket, h⟩ := Option.ite_none_right_eq_some.mp h
    rcases settle_cases h with rfl | ⟨documents, hrun, rfl⟩
    · exact .refused
    · obtain ⟨entry, text, hentry, hmark, rfl⟩ := Documents.finishSave_spec hrun
      obtain ⟨hentry, -, hsaving⟩ := Documents.savingEntry_spec hentry
      exact .finished hticket hentry hsaving hmark
  | failSave ticket =>
    obtain ⟨-, h⟩ := Option.ite_none_right_eq_some.mp h
    rcases settle_cases h with rfl | ⟨documents, hrun, rfl⟩
    · exact .refused
    · obtain ⟨entry, hentry, rfl⟩ := Documents.failSave_spec hrun
      exact .failed (Documents.savingEntry_spec hentry).1
  | close view discard =>
    rcases settle_cases h with rfl | ⟨⟨outcome, documents⟩, hrun, rfl⟩
    · exact .refused
    · obtain ⟨hdocument, hoperation, hdocuments | ⟨document, entry, hentry, hdiscard, hdocuments⟩⟩ :=
        Documents.close_spec hrun
      · exact .viewed hdocuments hdocument hoperation
      · refine .released hentry ?_ hdocument hoperation hdocuments
        intro hdirty
        rw [hdiscard hdirty]
        exact ⟨view, rfl⟩

end

end FesTerm.MobileDocs
