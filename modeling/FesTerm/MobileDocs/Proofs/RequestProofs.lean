import FesTerm.MobileDocs.Registry

/-!
# What an accepted request has checked and what it leaves

One specification for each request of the registry; the proofs about runs do not unfold the requests.
-/

namespace FesTerm.MobileDocs

open Document Checked Option

section

variable {α β : Type} {a : α} {b : β} {error : DocumentError}

theorem ok_bind {x : Request α} {f : α → Request β} :
    (x >>= f).run = some (.ok b) ↔ ∃ a, x.run = some (.ok a) ∧ (f a).run = some (.ok b) := by
  rw [ExceptT.run_bind]
  cases x.run with
  | none => simp
  | some result =>
    cases result with
    | error error => simp
    | ok a => simp

theorem ok_check {result : Except DocumentError α} : (check result).run = some (.ok a) ↔ result = .ok a := by
  constructor
  · intro h
    exact some.inj h
  · rintro rfl
    rfl

theorem ok_engine {result : Option (Except RefusalReason α)} :
    (engine result).run = some (.ok a) ↔ result = some (.ok a) := by
  constructor
  · intro h
    rcases result with _ | reason | found
    · cases h
    · cases h
    · cases h
      rfl
  · rintro rfl
    rfl

theorem ok_lift {x : Option α} : (ExceptT.lift x : Request α).run = some (.ok a) ↔ x = some a := by
  constructor
  · intro h
    cases x with
    | none => cases h
    | some found =>
      cases h
      rfl
  · rintro rfl
    rfl

theorem ok_pure {found : α} : (pure found : Request α).run = some (.ok a) ↔ found = a := by
  constructor
  · intro h
    cases h
    rfl
  · rintro rfl
    rfl

theorem ok_throw : (throw error : Request α).run = some (.ok a) ↔ False := by
  constructor
  · intro h
    cases h
  · exact False.elim

theorem ok_unless {c : Prop} [Decidable c] {x : PUnit → Request α} {y : Request α} :
    (if c then throw error >>= x else y).run = some (.ok a) ↔ ¬ c ∧ y.run = some (.ok a) := by
  by_cases hc : c
  · rw [if_pos hc, ok_bind]
    simp only [ok_throw, false_and, exists_false, hc, not_true_eq_false]
  · rw [if_neg hc]
    exact ⟨fun h => ⟨hc, h⟩, fun h => h.2⟩

end

namespace Documents

variable {documents documents' : Documents} {view : ViewId} {document : DocumentId} {entry : OpenDocument}

theorem get_eq_ok : documents.get document = .ok entry ↔ documents.documents.get document = some entry := by
  unfold get
  split
  · next found hfound =>
    rw [hfound]
    exact ⟨fun h => congrArg some (Except.ok.inj h), fun h => congrArg _ (some.inj h)⟩
  · next hnone =>
    rw [hnone]
    constructor <;> rintro ⟨⟩

theorem documentFor_eq_ok : documents.documentFor view = .ok document ↔ documents.views.get view = some document := by
  unfold documentFor
  split
  · next found hfound =>
    rw [hfound]
    exact ⟨fun h => congrArg some (Except.ok.inj h), fun h => congrArg _ (some.inj h)⟩
  · next hnone =>
    rw [hnone]
    constructor <;> rintro ⟨⟩

theorem entryFor_eq_ok : documents.entryFor view = .ok (document, entry) ↔
    documents.documentFor view = .ok document ∧ documents.documents.get document = some entry := by
  rw [← get_eq_ok]
  unfold entryFor
  cases hview : documents.documentFor view with
  | error error => exact ⟨nofun, (fun h => by cases h.1)⟩
  | ok found =>
    cases hentry : documents.get found with
    | error error =>
      constructor
      · intro h
        simp only [bind, Except.bind, hentry] at h
        cases h
      · rintro ⟨heq, hget⟩
        cases heq
        cases hentry.symm.trans hget
    | ok found' =>
      constructor
      · intro h
        simp only [bind, Except.bind, hentry] at h
        cases h
        exact ⟨rfl, hentry⟩
      · rintro ⟨heq, hget⟩
        cases heq
        cases hentry.symm.trans hget
        simp only [bind, Except.bind, hentry]
        rfl

@[simp] theorem get_setEntry (documents : Documents) (document other : DocumentId) (entry : OpenDocument) :
    (documents.setEntry document entry).documents.get other =
      if other = document then some entry else documents.documents.get other :=
  Table.get_insert _ _ _ _

@[simp] theorem nextDocument_setEntry (documents : Documents) (document : DocumentId) (entry : OpenDocument) :
    (documents.setEntry document entry).nextDocument = documents.nextDocument := rfl

@[simp] theorem nextOperation_setEntry (documents : Documents) (document : DocumentId) (entry : OpenDocument) :
    (documents.setEntry document entry).nextOperation = documents.nextOperation := rfl

theorem nextId_eq_ok {id next : Nat} (h : nextId id = .ok next) : next = id + 1 := by
  unfold nextId at h
  split at h
  · cases h
    rfl
  · cases h

variable {next : ViewId}

theorem duplicateDocument_spec
    (h : (documents.duplicateDocument document).run = some (.ok (next, documents'))) :
    documents'.documents = documents.documents ∧ documents'.nextDocument = documents.nextDocument ∧
      documents'.nextOperation = documents.nextOperation := by
  unfold duplicateDocument at h
  simp only [ok_unless, ok_bind, ok_check, ok_pure] at h
  obtain ⟨-, _, -, h⟩ := h
  cases h
  exact ⟨rfl, rfl, rfl⟩

theorem duplicate_spec (h : (documents.duplicate view).run = some (.ok (next, documents'))) :
    documents'.documents = documents.documents ∧ documents'.nextDocument = documents.nextDocument ∧
      documents'.nextOperation = documents.nextOperation := by
  unfold duplicate at h
  simp only [ok_bind, ok_check] at h
  obtain ⟨_, -, h⟩ := h
  exact duplicateDocument_spec h

variable [CharTables]

variable {bytes : List UInt8} {writable : Bool}

theorem openDocument_spec {origin : DocumentOrigin} {version : Option SourceVersion}
    (h : (documents.openDocument origin bytes version writable).run = some (.ok (next, documents'))) :
    documents'.nextOperation = documents.nextOperation ∧
      (documents'.documents = documents.documents ∧ documents'.nextDocument = documents.nextDocument ∨
        ∃ entry, (if origin.isUntitled then TextDocument.fromUnsavedBytes bytes mobileDocumentBounds
            else TextDocument.fromBytes bytes mobileDocumentBounds) = .ok entry.text ∧
          entry.version = version ∧ entry.conflict = none ∧ entry.saving = none ∧
          documents'.nextDocument = documents.nextDocument + 1 ∧
          documents'.documents = documents.documents.insert documents'.nextDocument entry) := by
  unfold openDocument at h
  split at h
  · obtain ⟨hdocuments, hdocument, hoperation⟩ := duplicateDocument_spec h
    exact ⟨hoperation, .inl ⟨hdocuments, hdocument⟩⟩
  · simp only [ok_unless, ok_bind, ok_check, ok_engine, ok_pure] at h
    obtain ⟨-, text, htext, document, hdocument, nextView, -, h⟩ := h
    cases h
    exact ⟨rfl, .inr ⟨_, some.inj htext, rfl, rfl, rfl, nextId_eq_ok hdocument, rfl⟩⟩

theorem close_spec {discard : Bool} {outcome : CloseOutcome}
    (h : (documents.close view discard).run = some (.ok (outcome, documents'))) :
    documents'.nextDocument = documents.nextDocument ∧ documents'.nextOperation = documents.nextOperation ∧
      (documents'.documents = documents.documents ∨
        ∃ document entry, documents.documents.get document = some entry ∧
          (entry.dirty = true → discard = true) ∧ documents'.documents = documents.documents.erase document) := by
  unfold close at h
  simp only [ok_unless, ok_bind, ok_check] at h
  obtain ⟨document, hdocument, entry, hentry, -, h⟩ := h
  rw [get_eq_ok] at hentry
  split at h
  · rw [ok_pure] at h
    cases h
    exact ⟨rfl, rfl, .inl rfl⟩
  next hconfirmed =>
    split at h
    next hlast =>
      rw [ok_pure] at h
      cases h
      refine ⟨rfl, rfl, .inr ⟨document, entry, hentry, ?_, rfl⟩⟩
      intro hdirty
      by_contra hdiscard
      exact hconfirmed ⟨hlast, hdirty, by simpa using hdiscard⟩
    · rw [ok_pure] at h
      cases h
      exact ⟨rfl, rfl, .inl rfl⟩

variable {target : EditTarget}

theorem target_spec {start stop : Nat} (h : (documents.target view start stop).run = some (.ok target)) :
    ∃ entry, documents.entryFor view = .ok (target.document, entry) ∧ target.sourceEpoch = entry.sourceEpoch ∧
      target.accessEpoch = entry.accessEpoch := by
  unfold Documents.target at h
  simp only [ok_bind, ok_check, ok_unless, ok_pure] at h
  obtain ⟨⟨document, entry⟩, hentry, -, rfl⟩ := h
  exact ⟨entry, hentry, rfl, rfl⟩

theorem editableTarget_spec (h : (documents.editableTarget target).run = some (.ok entry)) :
    documents.documents.get target.document = some entry ∧ entry.requireWritable = .ok () ∧
      target.sourceEpoch = entry.sourceEpoch ∧ target.accessEpoch = entry.accessEpoch := by
  unfold editableTarget at h
  simp only [ok_bind, ok_check, ok_unless, ok_pure] at h
  obtain ⟨issued, htarget, hsame, found, hfound, _, hwritable, rfl⟩ := h
  rw [not_not] at hsame
  subst hsame
  obtain ⟨entry, hentry, hsource, haccess⟩ := target_spec htarget
  obtain ⟨-, hget⟩ := entryFor_eq_ok.mp hentry
  rw [get_eq_ok] at hfound
  cases hget.symm.trans hfound
  exact ⟨hget, hwritable, hsource, haccess⟩

section

variable [Allocation]

theorem sync_spec {updated : Text} {changed : Bool}
    (h : (documents.sync target updated).run = some (.ok (changed, documents'))) :
    ∃ entry normalised text, (documents.editableTarget target).run = some (.ok entry) ∧
      normalizedInput updated = .ok normalised ∧
      entry.text.syncFromView normalised = some (.ok (changed, text)) ∧
      documents' = documents.setEntry target.document { entry with text } := by
  unfold sync at h
  simp only [ok_bind, ok_check, ok_engine, ok_pure] at h
  obtain ⟨normalised, hinput, entry, htarget, _, -, ⟨changed, text⟩, hsync, h⟩ := h
  cases h
  exact ⟨entry, normalised, text, htarget, hinput, hsync, rfl⟩

theorem replace_spec {captured current : EditTarget} {replacement : Text}
    (h : (documents.replace captured current replacement).run = some (.ok documents')) :
    ∃ entry normalised text, (documents.editableTarget captured).run = some (.ok entry) ∧
      normalizedInput replacement = .ok normalised ∧
      entry.text.replace captured.start captured.stop normalised = some (.ok text) ∧
      documents' = documents.setEntry captured.document { entry with text } := by
  unfold Documents.replace at h
  simp only [ok_bind, ok_check, ok_engine, ok_pure, ok_unless, ok_lift] at h
  obtain ⟨-, normalised, hinput, entry, htarget, _, -, _, -, text, hreplace, rfl⟩ := h
  exact ⟨entry, normalised, text, htarget, hinput, hreplace, rfl⟩

end

variable {changed : Bool} {ticket : SaveTicket}

omit [CharTables]

theorem undo_spec (h : (documents.undo view).run = some (.ok (changed, documents'))) :
    ∃ document entry text, documents.entryFor view = .ok (document, entry) ∧
      entry.text.undo = some (changed, text) ∧ documents' = documents.setEntry document { entry with text } := by
  unfold undo at h
  simp only [ok_bind, ok_check, ok_lift, ok_pure] at h
  obtain ⟨⟨document, entry⟩, hentry, _, -, ⟨changed, text⟩, hundo, h⟩ := h
  cases h
  exact ⟨document, entry, text, hentry, hundo, rfl⟩

theorem redo_spec (h : (documents.redo view).run = some (.ok (changed, documents'))) :
    ∃ document entry text, documents.entryFor view = .ok (document, entry) ∧
      entry.text.redo = some (changed, text) ∧ documents' = documents.setEntry document { entry with text } := by
  unfold redo at h
  simp only [ok_bind, ok_check, ok_lift, ok_pure] at h
  obtain ⟨⟨document, entry⟩, hentry, _, -, ⟨changed, text⟩, hredo, h⟩ := h
  cases h
  exact ⟨document, entry, text, hentry, hredo, rfl⟩

theorem endTyping_spec (h : (documents.endTyping view).run = some (.ok documents')) :
    ∃ document entry text, documents.entryFor view = .ok (document, entry) ∧
      entry.text.closeTransaction = some text ∧
      documents' = documents.setEntry document { entry with text } := by
  unfold endTyping at h
  simp only [ok_bind, ok_check, ok_lift, ok_pure] at h
  obtain ⟨⟨document, entry⟩, hentry, text, hclose, rfl⟩ := h
  exact ⟨document, entry, text, hentry, hclose, rfl⟩

theorem readTicket_spec {ticket : ReadTicket} (h : documents.readTicket view = .ok ticket) :
    ∃ entry, documents.documents.get ticket.document = some entry ∧ ticket.sourceEpoch = entry.sourceEpoch ∧
      ticket.accessEpoch = entry.accessEpoch := by
  unfold readTicket at h
  cases hentry : documents.entryFor view with
  | error error =>
    rw [hentry] at h
    cases h
  | ok found =>
    obtain ⟨document, entry⟩ := found
    rw [hentry] at h
    cases h
    exact ⟨entry, (entryFor_eq_ok.mp hentry).2, rfl, rfl⟩

/-- What an accepted read makes of the entry. -/
inductive Observed (entry : OpenDocument) (snapshot : SourceSnapshot) : Bool → OpenDocument → Prop
  | unchanged (hsame : entry.version = some snapshot.version ∨
      entry.conflict.any (fun change => change.snapshot.version = snapshot.version) = true) :
      Observed entry snapshot false entry
  | settled (hversion : entry.version = some snapshot.version) :
      Observed entry snapshot true { entry with conflict := none, sourceEpoch := entry.sourceEpoch + 1 }
  | conflicting (hversion : entry.version ≠ some snapshot.version) (hdirty : entry.dirty = true) :
      Observed entry snapshot true { entry with
        conflict := some { snapshot, keptEdits := false }, sourceEpoch := entry.sourceEpoch + 1 }
  | loaded {text : TextDocument} (hversion : entry.version ≠ some snapshot.version)
      (hclean : entry.dirty = false) (hload : entry.text.reloadFrom snapshot.bytes = .ok text) :
      Observed entry snapshot true { entry with
        text, version := some snapshot.version, sourceEpoch := entry.sourceEpoch + 1 }

variable {snapshot : SourceSnapshot}

theorem observeEntry_spec {entry' : OpenDocument}
    (h : (observeEntry entry snapshot).run = some (.ok (changed, entry'))) :
    Observed entry snapshot changed entry' := by
  unfold observeEntry at h
  split at h
  next hversion =>
    split at h
    · rw [ok_pure] at h
      cases h
      exact .settled hversion
    · rw [ok_pure] at h
      cases h
      exact .unchanged (.inl hversion)
  next hversion =>
    split at h
    next hconflict =>
      rw [ok_pure] at h
      cases h
      exact .unchanged (.inr hconflict)
    · split at h
      next hdirty =>
        rw [ok_pure] at h
        cases h
        exact .conflicting hversion hdirty
      next hclean =>
        simp only [ok_bind, ok_engine, ok_pure] at h
        obtain ⟨text, hload, h⟩ := h
        cases h
        exact .loaded hversion (Bool.eq_false_iff.mpr hclean) (some.inj hload)

theorem observe_spec {ticket : ReadTicket}
    (h : (documents.observe ticket snapshot).run = some (.ok (changed, documents'))) :
    ∃ entry entry', documents.documents.get ticket.document = some entry ∧
      entry.sourceEpoch = ticket.sourceEpoch ∧ entry.accessEpoch = ticket.accessEpoch ∧
      entry.version = ticket.version ∧ entry.saving = none ∧ Observed entry snapshot changed entry' ∧
      documents' = documents.setEntry ticket.document entry' := by
  unfold observe at h
  simp only [ok_bind, ok_check, ok_unless, ok_pure, not_or, not_not] at h
  obtain ⟨entry, hentry, ⟨hsource, haccess, -, hversion⟩, hsaving, _, -, ⟨changed, entry'⟩, hobserve, h⟩ := h
  cases h
  have hnone : entry.saving = none := isSome_eq_false_iff.mp (Bool.eq_false_iff.mpr hsaving)
    |> isNone_iff_eq_none.mp
  exact ⟨entry, entry', get_eq_ok.mp hentry, hsource, haccess, hversion, hnone, observeEntry_spec hobserve, rfl⟩

theorem keepEdits_spec (h : (documents.keepEdits view).run = some (.ok documents')) :
    ∃ document entry change, documents.entryFor view = .ok (document, entry) ∧ entry.conflict = some change ∧
      documents' =
        documents.setEntry document { entry with conflict := some { change with keptEdits := true } } := by
  unfold keepEdits at h
  simp only [ok_bind, ok_check] at h
  obtain ⟨⟨document, entry⟩, hentry, _, -, h⟩ := h
  split at h
  · exact (ok_throw.mp h).elim
  next change hchange =>
    rw [ok_pure] at h
    exact ⟨document, entry, change, hentry, hchange, h.symm⟩

theorem reload_spec (h : (documents.reload view).run = some (.ok documents')) :
    ∃ document entry change text, documents.entryFor view = .ok (document, entry) ∧ entry.saving = none ∧
      entry.conflict = some change ∧ entry.text.reloadFrom change.snapshot.bytes = .ok text ∧
      documents' = documents.setEntry document { entry with
        text
        version := some change.snapshot.version
        conflict := none
        sourceEpoch := entry.sourceEpoch + 1 } := by
  unfold reload at h
  simp only [ok_bind, ok_check, ok_unless] at h
  obtain ⟨⟨document, entry⟩, hentry, hsaving, -, h⟩ := h
  have hnone : entry.saving = none := isSome_eq_false_iff.mp (Bool.eq_false_iff.mpr hsaving)
    |> isNone_iff_eq_none.mp
  split at h
  · exact (ok_throw.mp h).elim
  next change hchange =>
    simp only [ok_bind, ok_engine, ok_pure] at h
    obtain ⟨text, hload, h⟩ := h
    exact ⟨document, entry, change, text, hentry, hnone, hchange, some.inj hload, h.symm⟩

theorem setAccess_spec {available : Bool}
    (h : (documents.setAccess document available writable).run = some (.ok documents')) :
    ∃ entry, documents.documents.get document = some entry ∧
      documents' = documents.setEntry document { entry with
        accessEpoch := entry.accessEpoch + 1
        available
        writableSource := writable && !entry.origin.isRemote } := by
  unfold setAccess at h
  simp only [ok_bind, ok_check, ok_unless, ok_pure] at h
  obtain ⟨entry, hentry, -, h⟩ := h
  exact ⟨entry, get_eq_ok.mp hentry, h.symm⟩

theorem prepareSave_spec {automatic : Bool}
    (h : (documents.prepareSave view automatic).run = some (.ok ((ticket, bytes), documents'))) :
    ∃ entry text, documents.entryFor view = .ok (ticket.document, entry) ∧ entry.saving = none ∧
      expectedVersion entry automatic = .ok ticket.expected ∧ bytes = entry.text.toBytes ∧
      mobileDocumentBounds.checkDeclaredSize bytes.length = .ok () ∧
      entry.text.closeTransaction = some text ∧ ticket.sourceEpoch = entry.sourceEpoch ∧
      ticket.operation = documents.nextOperation + 1 ∧ ticket.point = text.savePoint ∧
      documents' = { documents.setEntry ticket.document
        { entry with text, saving := some ticket.operation } with nextOperation := ticket.operation } := by
  unfold prepareSave at h
  simp only [ok_bind, ok_check, ok_unless, ok_engine, ok_lift, ok_pure] at h
  obtain ⟨⟨document, entry⟩, hentry, _, -, -, hsaving, expected, hexpected, _, hsize, operation, hoperation, text,
    hclose, h⟩ := h
  have hnone : entry.saving = none := isSome_eq_false_iff.mp (Bool.eq_false_iff.mpr hsaving)
    |> isNone_iff_eq_none.mp
  cases h
  exact ⟨entry, text, hentry, hnone, hexpected, rfl, some.inj hsize, hclose, rfl,
    nextId_eq_ok hoperation, rfl, rfl⟩

theorem savingEntry_spec (h : documents.savingEntry ticket = .ok entry) :
    documents.documents.get ticket.document = some entry ∧ entry.sourceEpoch = ticket.sourceEpoch ∧
      entry.saving = some ticket.operation := by
  unfold savingEntry at h
  cases hget : documents.get ticket.document with
  | error error =>
    rw [hget] at h
    cases h
  | ok found =>
    simp only [hget, bind, Except.bind] at h
    split at h
    · cases h
    next hticket =>
      rw [not_or, not_not, not_not] at hticket
      cases h
      exact ⟨get_eq_ok.mp hget, hticket⟩

theorem finishSave_spec {version : SourceVersion}
    (h : (documents.finishSave ticket version).run = some (.ok documents')) :
    ∃ entry text, documents.savingEntry ticket = .ok entry ∧ entry.text.markSavedAt ticket.point = some text ∧
      documents' = documents.setEntry ticket.document { entry with
        text, version := some version, conflict := none, saving := none } := by
  unfold finishSave at h
  simp only [ok_bind, ok_check, ok_lift, ok_pure] at h
  obtain ⟨entry, hentry, text, hmark, h⟩ := h
  exact ⟨entry, text, hentry, hmark, h.symm⟩

theorem failSave_spec (h : (documents.failSave ticket).run = some (.ok documents')) :
    ∃ entry, documents.savingEntry ticket = .ok entry ∧
      documents' = documents.setEntry ticket.document { entry with saving := none } := by
  unfold failSave at h
  simp only [ok_bind, ok_check, ok_pure] at h
  obtain ⟨entry, hentry, h⟩ := h
  exact ⟨entry, hentry, h.symm⟩

end Documents

end FesTerm.MobileDocs
