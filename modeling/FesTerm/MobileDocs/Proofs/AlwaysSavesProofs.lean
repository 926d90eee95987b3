import FesTerm.MobileDocs.Proofs.SizeProofs

/-!
# Documents can always be saved

In a run that loads nothing that is larger when it is saved, every document that can be edited fits at every
step; then no save is refused for its size, and no edit that does not grow its document.
-/

namespace FesTerm.MobileDocs.Documents

open Document Checked List Option

section

variable [CharTables] [Allocation] {documents after : Documents} {op : RegistryOp} {view : ViewId}
  {document : DocumentId} {entry entry' : OpenDocument}

def Sized (documents : Documents) : Prop :=
  ∀ document entry, documents.documents.get document = some entry → entry.origin.isRemote = false → Fits entry.text

/-! ## Every request keeps that -/

omit [CharTables] in
theorem Sized.setEntry (h : Sized documents) (hentry : documents.documents.get document = some entry)
    (horigin : entry'.origin = entry.origin)
    (hfits : entry.origin.isRemote = false → Fits entry.text → Fits entry'.text) :
    Sized (documents.setEntry document entry') := by
  intro other found hfound hremote
  rw [get_setEntry] at hfound
  split at hfound
  · cases hfound
    rw [horigin] at hremote
    exact hfits hremote (h document entry hentry hremote)
  · exact h other found hfound hremote

omit [CharTables] in
theorem Sized.of_documents (h : Sized documents) (hsame : after.documents = documents.documents) : Sized after := by
  intro other found hfound
  rw [hsame] at hfound
  exact h other found hfound

variable {updated replacement removed : Text} {text : TextDocument} {bytes limit : Nat}

variable {target : EditTarget} {changed : Bool}

theorem sync_checked (h : (documents.sync target updated).run = some (.ok (changed, after))) :
    ∃ entry normalised text, (documents.editableTarget target).run = some (.ok entry) ∧
      normalizedInput updated = .ok normalised ∧
      (checkEncodedChange entry.text entry.text.text normalised).run = some (.ok ()) ∧
      entry.text.syncFromView normalised = some (.ok (changed, text)) ∧
      after = documents.setEntry target.document { entry with text } := by
  unfold sync at h
  simp only [ok_bind, ok_check, ok_engine, ok_pure] at h
  obtain ⟨normalised, hinput, entry, htarget, _, hcheck, ⟨changed, text⟩, hsync, h⟩ := h
  cases h
  exact ⟨entry, normalised, text, htarget, hinput, hcheck, hsync, rfl⟩

variable {current captured : EditTarget}

theorem replace_checked (h : (documents.replace captured current replacement).run = some (.ok after)) :
    ∃ entry normalised removed text, (documents.editableTarget captured).run = some (.ok entry) ∧
      normalizedInput replacement = .ok normalised ∧
      sliceText entry.text.text captured.start captured.stop = some removed ∧
      (checkEncodedChange entry.text removed normalised).run = some (.ok ()) ∧
      entry.text.replace captured.start captured.stop normalised = some (.ok text) ∧
      after = documents.setEntry captured.document { entry with text } := by
  unfold Documents.replace at h
  simp only [ok_bind, ok_check, ok_engine, ok_pure, ok_unless, ok_lift] at h
  obtain ⟨-, normalised, hinput, entry, htarget, removed, hslice, _, hcheck, text, hreplace, rfl⟩ := h
  exact ⟨entry, normalised, removed, text, htarget, hinput, hslice, hcheck, hreplace, rfl⟩

variable {version : Option SourceVersion} {origin : DocumentOrigin} {writable : Bool}
  {next : ViewId}

omit [Allocation] in
theorem openDocument_loads {bytes : List UInt8}
    (h : (documents.openDocument origin bytes version writable).run = some (.ok (next, after))) :
    after.documents = documents.documents ∨ ∃ entry document, entry.origin = origin ∧
      documents.origins.get origin.key = none ∧ documents.documents.entries.length < maxDocuments ∧
      documents.views.entries.length < maxViews ∧
      (if origin.isUntitled then TextDocument.fromUnsavedBytes bytes mobileDocumentBounds
        else TextDocument.fromBytes bytes mobileDocumentBounds) = .ok entry.text ∧
      after.documents = documents.documents.insert document entry := by
  unfold openDocument at h
  split at h
  · exact .inl (duplicateDocument_spec h).1
  · next hnone =>
    simp only [ok_unless, ok_bind, ok_check, ok_engine, ok_pure, not_or, not_le] at h
    obtain ⟨⟨hdocuments, hviews⟩, text, htext, document, -, view, -, h⟩ := h
    cases h
    exact .inr ⟨_, _, rfl, hnone, hdocuments, hviews, some.inj htext, rfl⟩

theorem Sized.opened (h : Sized documents) {bytes : List UInt8}
    (hloads : ¬ documents.LoadsOversize (.openDocument origin bytes version writable))
    (hrun : (documents.openDocument origin bytes version writable).run = some (.ok (next, after))) : Sized after := by
  rcases openDocument_loads hrun with hsame | ⟨entry, document, horigin, hnone, hroom, hviews, hload, hdocuments⟩
  · exact h.of_documents hsame
  · intro other found hfound hremote
    rw [hdocuments, Table.get_insert] at hfound
    split at hfound
    · cases hfound
      rw [horigin] at hremote
      have hsize : ¬ Oversize bytes := fun hsize => hloads ⟨hremote, hnone, hroom, hviews, hsize⟩
      split at hload
      · exact fits_unsaved hsize hload
      · exact fits_loaded hsize hload
    · exact h other found hfound hremote

theorem Sized.observed (h : Sized documents) {ticket : ReadTicket} {snapshot : SourceSnapshot}
    (hloads : ¬ documents.LoadsOversize (.observe ticket snapshot))
    (hrun : (documents.observe ticket snapshot).run = some (.ok (changed, after))) : Sized after := by
  obtain ⟨entry, entry', hentry, -, -, -, -, hobserved, rfl⟩ := observe_spec hrun
  cases hobserved with
  | unchanged hsame | settled hversion | conflicting hversion hdirty =>
    exact h.setEntry hentry rfl fun _ hfits => hfits
  | loaded hversion hclean hload =>
    refine h.setEntry hentry rfl fun hremote hfits => fits_reloaded (fun hsize => hloads ?_) hfits.bounds hload
    exact ⟨entry, hentry, hremote, hclean, hversion, hsize⟩

theorem Sized.reloaded (h : Sized documents) (hloads : ¬ documents.LoadsOversize (.reload view))
    (hrun : (documents.reload view).run = some (.ok after)) : Sized after := by
  obtain ⟨document, entry, change, text, hentry, -, hconflict, hload, rfl⟩ := reload_spec hrun
  refine h.setEntry (entryFor_eq_ok.mp hentry).2 rfl fun hremote hfits => ?_
  refine fits_reloaded (fun hsize => hloads ?_) hfits.bounds hload
  exact ⟨document, entry, change, hentry, hremote, hconflict, hsize⟩

theorem Sized.step (h : Sized documents) (hloads : ¬ documents.LoadsOversize op)
    (hstep : InPlace.step documents op = some after) : Sized after := by
  rcases InPlace.step_cases hstep with rfl | hanswers
  · exact h
  cases op with
  | openDocument origin bytes version writable =>
    obtain ⟨next, hrun⟩ := hanswers
    exact h.opened hloads hrun
  | duplicate view =>
    obtain ⟨next, hrun⟩ := hanswers
    exact h.of_documents (duplicate_spec hrun).1
  | takeTarget view start stop | readTicket view =>
    obtain rfl : after = documents := hanswers
    exact h
  | sync target updated =>
    obtain ⟨changed, hrun⟩ := hanswers
    obtain ⟨entry, normalised, text, htarget, hinput, hcheck, hsync, rfl⟩ := sync_checked hrun
    refine h.setEntry (editableTarget_spec htarget).1 rfl fun _ hfits => ?_
    exact hfits.synced (normalised_of_normalizedInput hinput) hcheck hsync
  | replace captured current replacement =>
    obtain ⟨entry, normalised, removed, text, htarget, hinput, hslice, hcheck, hreplace, rfl⟩ :=
      replace_checked hanswers
    obtain ⟨front, removed', back, htext, hstart, hstop, hslice'⟩ := editableTarget_slice htarget
    cases hslice.symm.trans hslice'
    refine h.setEntry (editableTarget_spec htarget).1 rfl fun _ hfits => ?_
    exact hfits.replaced (normalised_of_normalizedInput hinput) htext hstart hstop hcheck hreplace
  | undo view =>
    obtain ⟨changed, hrun⟩ := hanswers
    obtain ⟨document, entry, text, hentry, hundo, rfl⟩ := undo_spec hrun
    exact h.setEntry (entryFor_eq_ok.mp hentry).2 rfl fun _ hfits => hfits.undone hundo
  | redo view =>
    obtain ⟨changed, hrun⟩ := hanswers
    obtain ⟨document, entry, text, hentry, hredo, rfl⟩ := redo_spec hrun
    exact h.setEntry (entryFor_eq_ok.mp hentry).2 rfl fun _ hfits => hfits.redone hredo
  | endTyping view =>
    obtain ⟨document, entry, text, hentry, hclose, rfl⟩ := endTyping_spec hanswers
    exact h.setEntry (entryFor_eq_ok.mp hentry).2 rfl fun _ hfits => hfits.closed hclose
  | observe ticket snapshot =>
    obtain ⟨changed, taken, hrun, rfl⟩ := hanswers
    split
    · exact h.observed hloads hrun
    · exact h
  | keepEdits view =>
    obtain ⟨document, entry, change, hentry, -, rfl⟩ := keepEdits_spec hanswers
    exact h.setEntry (entryFor_eq_ok.mp hentry).2 rfl fun _ hfits => hfits
  | reload view => exact h.reloaded hloads hanswers
  | setAccess document available writable =>
    obtain ⟨entry, hentry, rfl⟩ := setAccess_spec hanswers
    exact h.setEntry hentry rfl fun _ hfits => hfits
  | prepareSave view automatic =>
    obtain ⟨⟨ticket, bytes⟩, hrun⟩ := hanswers
    obtain ⟨entry, text, hentry, -, -, -, -, hclose, -, -, -, rfl⟩ := prepareSave_spec hrun
    have hset : Sized (documents.setEntry ticket.document { entry with text, saving := some ticket.operation }) :=
      h.setEntry (entryFor_eq_ok.mp hentry).2 rfl fun _ hfits => hfits.closed hclose
    exact hset.of_documents rfl
  | finishSave ticket version =>
    obtain ⟨entry, text, hentry, hmark, rfl⟩ := finishSave_spec hanswers
    exact h.setEntry (savingEntry_spec hentry).1 rfl fun _ hfits => hfits.marked hmark
  | failSave ticket =>
    obtain ⟨entry, hentry, rfl⟩ := failSave_spec hanswers
    exact h.setEntry (savingEntry_spec hentry).1 rfl fun _ hfits => hfits
  | close view discard =>
    obtain ⟨outcome, hrun⟩ := hanswers
    obtain ⟨-, -, hsame | ⟨document, entry, -, -, herased⟩⟩ := close_spec hrun
    · exact h.of_documents hsame
    · intro other found hfound
      rw [herased, Table.get_erase] at hfound
      split at hfound
      · cases hfound
      · exact h other found hfound

/-! ## What is refused -/

section

omit [CharTables] [Allocation]

variable {α β : Type} {error other : DocumentError} {x : Request α}

theorem error_bind {f : α → Request β} : (x >>= f).run = some (.error error) ↔
    x.run = some (.error error) ∨ ∃ a, x.run = some (.ok a) ∧ (f a).run = some (.error error) := by
  rw [ExceptT.run_bind]
  cases x.run with
  | none => simp
  | some result =>
    cases result with
    | error error => simp
    | ok a => simp

theorem error_check {result : Except DocumentError α} :
    (check result).run = some (.error error) ↔ result = .error error := by
  constructor
  · intro h
    exact some.inj h
  · rintro rfl
    rfl

theorem error_engine {result : Option (Except RefusalReason α)} : (engine result).run = some (.error error) ↔
    ∃ reason, result = some (.error reason) ∧ error = .refused reason := by
  constructor
  · intro h
    rcases result with _ | reason | found
    · cases h
    · cases h
      exact ⟨reason, rfl, rfl⟩
    · cases h
  · rintro ⟨reason, rfl, rfl⟩
    rfl

theorem error_lift {result : Option α} : (ExceptT.lift result : Request α).run = some (.error error) ↔ False := by
  constructor
  · intro h
    cases result <;> cases h
  · exact False.elim

theorem error_pure {a : α} : (pure a : Request α).run = some (.error error) ↔ False := by
  constructor
  · intro h
    cases h
  · exact False.elim

theorem error_unless {c : Prop} [Decidable c] {k : PUnit → Request α} {y : Request α} :
    (if c then throw other >>= k else y).run = some (.error error) ↔
      c ∧ other = error ∨ ¬ c ∧ y.run = some (.error error) := by
  by_cases hc : c
  · rw [if_pos hc, error_bind]
    simp [hc]
  · rw [if_neg hc]
    simp [hc]

variable {reason : RefusalReason}

theorem entryFor_ne_refused : documents.entryFor view ≠ .error (.refused reason) := by
  unfold entryFor documentFor Documents.get
  cases documents.views.get view with
  | none => rintro ⟨⟩
  | some document =>
    simp only [bind, Except.bind]
    cases documents.documents.get document with
    | none => rintro ⟨⟩
    | some entry => rintro ⟨⟩

theorem requireWritable_ne_refused : entry.requireWritable ≠ .error (.refused reason) := by
  unfold OpenDocument.requireWritable
  split
  · rintro ⟨⟩
  · split
    · rintro ⟨⟩
    · rintro ⟨⟩

theorem expectedVersion_ne_refused {automatic : Bool} :
    expectedVersion entry automatic ≠ .error (.refused reason) := by
  unfold expectedVersion
  split
  · split
    · rintro ⟨⟩
    · rintro ⟨⟩
  · split
    · rintro ⟨⟩
    · rintro ⟨⟩

theorem nextId_ne_refused {id : Nat} : nextId id ≠ .error (.refused reason) := by
  unfold nextId
  split
  · rintro ⟨⟩
  · rintro ⟨⟩

theorem isRemote_of_writable (h : entry.requireWritable = .ok ()) : entry.origin.isRemote = false := by
  unfold OpenDocument.requireWritable OpenDocument.writable at h
  cases hremote : entry.origin.isRemote with
  | false => rfl
  | true =>
    rw [hremote] at h
    cases havailable : entry.available with
    | false => simp [havailable] at h
    | true => simp [havailable] at h

end

omit [CharTables] in
theorem prepareSave_ne_refused (h : Sized documents) (view : ViewId) (automatic : Bool) (reason : RefusalReason) :
    (documents.prepareSave view automatic).run ≠ some (.error (.refused reason)) := by
  intro hrefused
  unfold prepareSave at hrefused
  simp only [error_bind, error_check, error_engine, error_unless, error_lift, error_pure, ok_check, ok_engine,
    entryFor_ne_refused, requireWritable_ne_refused, expectedVersion_ne_refused, nextId_ne_refused, false_or,
    or_false, and_false, exists_false, reduceCtorEq] at hrefused
  obtain ⟨⟨document, entry⟩, hentry, _, hwritable, -, -, version, -, reason', hsize, -⟩ := hrefused
  have hremote := isRemote_of_writable hwritable
  have hfits := h document entry (entryFor_eq_ok.mp hentry).2 hremote
  have hroom := checkDeclaredSize_eq_ok.mpr hfits.room
  rw [hroom] at hsize
  cases hsize

omit [CharTables] [Allocation] in
theorem utf8Len_le_toBytes (text : TextDocument) : utf8Len text.text ≤ text.toBytes.length := by
  rw [length_toBytes, writtenLength]
  omega

omit [CharTables] in
theorem syncFromView_ne_tooLarge (hfits : Fits text)
    (hroom : ({ text with text := updated } : TextDocument).toBytes.length ≤ mobileMaxSourceBytes) :
    text.syncFromView updated ≠ some (.error (.tooLarge bytes limit)) := by
  intro h
  unfold TextDocument.syncFromView at h
  split at h
  · cases h
  · obtain ⟨edit, coalescable, hedit, hedits⟩ := text.syncEdit_spec updated
    simp only [hedit, bind_eq_bind, bind_some, bind_eq_some_iff] at h
    obtain ⟨result, happly, h⟩ := h
    cases result with
    | ok edited => cases h
    | error reason =>
      cases h
      refine applyTransaction_ne_tooLarge hfits.recalls.sound hedits ?_ bytes limit happly
      rw [hfits.bounds]
      exact (utf8Len_le_toBytes { text with text := updated }).trans hroom

omit [CharTables] in
theorem replace_ne_tooLarge {front back : Text} {start stop : Nat}
    (hfits : Fits text) (htext : text.text = front ++ (removed ++ back)) (hstart : utf8Len front = start)
    (hstop : stop = start + utf8Len removed)
    (hroom : ({ text with text := front ++ (replacement ++ back) } : TextDocument).toBytes.length ≤
      mobileMaxSourceBytes) :
    text.replace start stop replacement ≠ some (.error (.tooLarge bytes limit)) := by
  intro h
  obtain ⟨hedit, hedits⟩ := editFor_of_slice htext hstart hstop replacement
  simp only [TextDocument.replace, hedit, some_bind] at h
  refine applyTransaction_ne_tooLarge hfits.recalls.sound hedits ?_ bytes limit h
  rw [hfits.bounds]
  exact (utf8Len_le_toBytes { text with text := front ++ (replacement ++ back) }).trans hroom

omit [CharTables] [Allocation] in
theorem check_ne_error {edited : TextDocument} {inserted : Text} {error : DocumentError}
    (hpredicts : Predicts text removed inserted edited) (hroom : edited.toBytes.length ≤ mobileMaxSourceBytes) :
    (checkEncodedChange text removed inserted).run ≠ some (.error error) := by
  rw [check_of_predicts hpredicts, checkDeclaredSize_eq_ok.mpr hroom]
  rintro ⟨⟩

variable {normalised : Text}

theorem sync_ne_tooLarge (h : Sized documents)
    (htarget : (documents.editableTarget target).run = some (.ok entry))
    (hinput : normalizedInput updated = .ok normalised)
    (hsize : ({ entry.text with text := normalised } : TextDocument).toBytes.length ≤
      entry.text.toBytes.length) :
    (documents.sync target updated).run ≠ some (.error (.refused (.tooLarge bytes limit))) := by
  intro hrefused
  obtain ⟨hget, hwritable, -⟩ := editableTarget_spec htarget
  have hfits := h target.document entry hget (isRemote_of_writable hwritable)
  have hroom := hsize.trans hfits.room
  unfold sync at hrefused
  simp only [error_bind, error_check, ok_check, ok_engine, error_engine, error_pure, hinput, htarget,
    Except.ok.injEq, some.injEq, exists_eq_left', reduceCtorEq, false_or, or_false, and_false,
    exists_false] at hrefused
  rcases hrefused with hcheck | ⟨_, -, reason, hsync, hreason⟩
  · exact check_ne_error (predicts_whole entry.text normalised) hroom hcheck
  · cases hreason
    exact syncFromView_ne_tooLarge hfits hroom hsync

theorem replace_request_ne_tooLarge (h : Sized documents)
    (htarget : (documents.editableTarget captured).run = some (.ok entry))
    (hinput : normalizedInput replacement = .ok normalised)
    (hslice : sliceText entry.text.text captured.start captured.stop = some removed)
    (hsize : encodedLength entry.text normalised ≤ encodedLength entry.text removed) :
    (documents.replace captured current replacement).run ≠ some (.error (.refused (.tooLarge bytes limit))) := by
  intro hrefused
  obtain ⟨hget, hwritable, -⟩ := editableTarget_spec htarget
  have hfits := h captured.document entry hget (isRemote_of_writable hwritable)
  obtain ⟨front, removed', back, htext, hstart, hstop, hslice'⟩ := editableTarget_slice htarget
  cases hslice.symm.trans hslice'
  have hroom : ({ entry.text with text := front ++ (normalised ++ back) } : TextDocument).toBytes.length ≤
      mobileMaxSourceBytes := by
    refine le_trans ?_ hfits.room
    have hold : entry.text.toBytes.length =
        encodedLength entry.text entry.text.text + if entry.text.encoding = .utf8Bom then 3 else 0 := by
      rw [length_toBytes]
      rfl
    rw [hold, length_toBytes, writtenLength_eq, htext, encodedLength_append, encodedLength_append,
      encodedLength_append, encodedLength_append]
    omega
  unfold Documents.replace at hrefused
  simp only [error_bind, error_check, error_unless, ok_check, ok_engine, ok_lift, error_engine, error_lift, error_pure,
    hinput, htarget, hslice, Except.ok.injEq, some.injEq, exists_eq_left', reduceCtorEq, false_or, or_false,
    and_false, exists_false] at hrefused
  obtain ⟨-, hcheck | ⟨_, -, reason, hreplace, hreason⟩⟩ := hrefused
  · exact check_ne_error (predicts_splice htext normalised) hroom hcheck
  · cases hreason
    exact replace_ne_tooLarge hfits htext hstart hstop hroom hreplace

/-! ## Runs -/

theorem AlwaysSaves.of_sized (h : Sized documents) : AlwaysSaves documents where
  fits document entry hentry hlocal := by
    have hremote : entry.origin.isRemote = false := by
      cases horigin : entry.origin with
      | remote origin =>
        rw [horigin] at hlocal
        cases hlocal
      | localFile origin | untitled origin => rfl
    have hfits := h document entry hentry hremote
    exact ⟨hfits.room, hfits.reopens⟩
  saves := prepareSave_ne_refused h
  syncs _ _ _ _ _ _ htarget hinput hsize := sync_ne_tooLarge h htarget hinput hsize
  replaces _ _ _ _ _ _ _ _ htarget hinput hslice hsize := replace_request_ne_tooLarge h htarget hinput hslice hsize
  checked target entry htarget := by
    obtain ⟨front, removed, back, htext, -, -, hslice⟩ := editableTarget_slice htarget
    exact ⟨front, removed, back, htext, hslice, predicts_splice htext, predicts_whole entry.text⟩
  synced target updated changed after hrun := by
    obtain ⟨entry, normalised, text, htarget, hinput, -, hsync, rfl⟩ := sync_checked hrun
    obtain ⟨hget, hwritable, -⟩ := editableTarget_spec htarget
    have hfits := h target.document entry hget (isRemote_of_writable hwritable)
    obtain ⟨-, hform, htext⟩ := syncFromView_spec hfits.recalls.sound hsync
    refine ⟨entry, { entry with text }, normalised, hget, ?_, hinput, ?_⟩
    · rw [get_setEntry, if_pos rfl]
    · have hpredicts := predicts_whole entry.text normalised
      unfold Predicts at hpredicts ⊢
      rw [hpredicts, toBytes_congr hform htext]
  replaced captured current replacement after hrun := by
    obtain ⟨entry, normalised, removed, text, htarget, hinput, hslice, -, hreplace, rfl⟩ := replace_checked hrun
    obtain ⟨hget, hwritable, -⟩ := editableTarget_spec htarget
    have hfits := h captured.document entry hget (isRemote_of_writable hwritable)
    obtain ⟨front, removed', back, htext, hstart, hstop, hslice'⟩ := editableTarget_slice htarget
    cases hslice.symm.trans hslice'
    obtain ⟨hform, hedited⟩ := replaced_text hfits.recalls.sound htext hstart hstop hreplace
    refine ⟨entry, { entry with text }, normalised, removed, hget, ?_, hinput, hslice, ?_⟩
    · rw [get_setEntry, if_pos rfl]
    · have hpredicts := predicts_splice htext normalised
      unfold Predicts at hpredicts ⊢
      rw [hpredicts, toBytes_congr hform hedited]

/-- Where nothing is loaded that is larger when it is saved, everything can be saved. -/
theorem loaded_within_limits_always_saves
    (h : Runs.Reaches InPlace.step (fun documents op => ¬ documents.LoadsOversize op) .empty documents) :
    AlwaysSaves documents := by
  refine .of_sized (h.invariant ?_ fun hsized hloads hstep => hsized.step hloads hstep)
  intro document entry hentry
  cases hentry

end

/-- A line is put into a file of CR LF, and the file is being saved. -/
theorem edited_crlf_file_always_saves :
    letI := CharTables.ascii
    letI := Allocation.reference
    ∃ opened documents : Documents,
      Runs.Reaches InPlace.step (fun documents op => ¬ documents.LoadsOversize op) .empty opened ∧
      Runs.Reaches InPlace.step (fun documents op => ¬ documents.LoadsOversize op) opened documents ∧
      AlwaysSaves documents ∧
      (opened.documents.get 1).map (fun entry => changedLength entry.text [] ['c', '\n']) = some (some 7) ∧
      (documents.documents.get 1).map (fun entry => (entry.text.toBytes, entry.saving.isSome)) =
        some ([0x61, 0x0d, 0x0a, 0x63, 0x0d, 0x0a, 0x62], true) := by
  let _ := CharTables.ascii
  let _ := Allocation.reference
  have hload : TextDocument.fromBytes [0x61, 0x0d, 0x0a, 0x62] mobileDocumentBounds =
      .ok (TextDocument.decoded .utf8 ['a', '\r', '\n', 'b'] mobileDocumentBounds) := by rfl
  have hshort : ¬ Oversize [0x61, 0x0d, 0x0a, 0x62] := by
    rintro ⟨document, hdocument, hlong⟩
    cases hload.symm.trans hdocument
    exact absurd hlong (by decide)
  let target : EditTarget := ⟨1, 1, 0, 2, 2, (DocumentOrigin.localFile ⟨[0x2f, 0x61], ['a']⟩).key, 0, 0⟩
  have hruns : (InPlace.step .empty (.openDocument (.localFile ⟨[0x2f, 0x61], ['a']⟩) [0x61, 0x0d, 0x0a, 0x62]
      (some ⟨[1]⟩) true) >>= fun opened =>
        InPlace.step opened (.replace target target ['c', '\n']) >>= fun edited =>
        (InPlace.step edited (.prepareSave 1 false)).map fun documents => (opened, documents)).map
      (fun states => ((states.1.documents.get 1).map (fun entry => changedLength entry.text [] ['c', '\n']),
        (states.2.documents.get 1).map fun entry => (entry.text.toBytes, entry.saving.isSome))) =
      some (some (some 7), some ([0x61, 0x0d, 0x0a, 0x63, 0x0d, 0x0a, 0x62], true)) := by
    decide +kernel
  obtain ⟨⟨opened, documents⟩, hrun, hresult⟩ := map_eq_some_iff.mp hruns
  obtain ⟨opened', hopen, hrun⟩ := bind_eq_some_iff.mp hrun
  obtain ⟨edited, hreplace, hrun⟩ := bind_eq_some_iff.mp hrun
  obtain ⟨saving, hsave, hsame⟩ := map_eq_some_iff.mp hrun
  cases hsame
  obtain ⟨hpredicted, hsaved⟩ := Prod.mk.inj hresult
  have hloads : ¬ LoadsOversize .empty
      (.openDocument (.localFile ⟨[0x2f, 0x61], ['a']⟩) [0x61, 0x0d, 0x0a, 0x62] (some ⟨[1]⟩) true) := by
    rintro ⟨-, -, -, -, hlarger⟩
    exact hshort hlarger
  have hopened : Runs.Reaches InPlace.step (fun documents op => ¬ documents.LoadsOversize op) .empty opened :=
    .step .refl hloads hopen
  exact ⟨opened, documents, hopened, .step (.step .refl id hreplace) id hsave,
    loaded_within_limits_always_saves (.step (.step hopened id hreplace) id hsave), hpredicted, hsaved⟩

/-! ## A document of mixed line endings -/

/-- Rows of one width, each with the ending behind it, and a last row that has one character more. -/
def rows (width : Nat) (ending : Text) : Nat → Text
  | 0 => List.replicate (width + 1) 'a'
  | n + 1 => List.replicate width 'a' ++ (ending ++ rows width ending n)

def mixed (width n : Nat) : Text := '\n' :: rows width ['\r', '\n'] n

variable (n : Nat)

theorem utf8Len_replicate : utf8Len (List.replicate n 'a') = n := by
  induction n with
  | zero => rfl
  | succ n ih =>
    have hsize : Char.utf8Size 'a' = 1 := by decide
    rw [replicate_succ, utf8Len_cons, ih, hsize, Nat.add_comm]

variable (rest : Text)

theorem normalise_replicate :
    normaliseLineEndings (List.replicate n 'a' ++ rest) = List.replicate n 'a' ++ normaliseLineEndings rest := by
  induction n with
  | zero => rfl
  | succ n ih => rw [replicate_succ, cons_append, cons_append, normalise_cons (by decide), ih]

theorem countCrlf_replicate : countCrlf (List.replicate n 'a' ++ rest) = countCrlf rest := by
  induction n with
  | zero => rfl
  | succ n ih =>
    rw [replicate_succ, cons_append, countCrlf, ih]
    exact fun _ h _ => absurd h (by decide)

variable {c : Char}

theorem count_replicate (hc : c ≠ 'a') (n : Nat) (rest : Text) :
    (List.replicate n 'a' ++ rest).count c = rest.count c := by
  rw [count_append, List.count_replicate, if_neg (by simpa using hc.symm), Nat.zero_add]

variable (width : Nat)

theorem countCrlf_rows (n : Nat) : countCrlf (rows width ['\r', '\n'] n) = n := by
  induction n with
  | zero =>
    have h := countCrlf_replicate (width + 1) []
    rw [append_nil] at h
    exact h
  | succ n ih =>
    rw [rows, countCrlf_replicate]
    exact congrArg (· + 1) ih

theorem count_rows (hc : c ≠ 'a') (width : Nat) (ending : Text) (n : Nat) :
    (rows width ending n).count c = n * ending.count c := by
  induction n with
  | zero =>
    have h := count_replicate hc (width + 1) []
    rw [append_nil] at h
    rw [rows, h, count_nil, Nat.zero_mul]
  | succ n ih => rw [rows, count_replicate hc, count_append, ih, Nat.succ_mul, Nat.add_comm]

theorem utf8Len_rows (ending : Text) (n : Nat) :
    utf8Len (rows width ending n) = n * (width + utf8Len ending) + (width + 1) := by
  induction n with
  | zero => rw [rows, utf8Len_replicate, Nat.zero_mul, Nat.zero_add]
  | succ n ih =>
    rw [rows, utf8Len_append, utf8Len_append, utf8Len_replicate, ih, Nat.succ_mul]
    omega

theorem normalise_rows (n : Nat) : normaliseLineEndings (rows width ['\r', '\n'] n) = rows width ['\n'] n := by
  induction n with
  | zero =>
    have h := normalise_replicate (width + 1) []
    rw [append_nil, normaliseLineEndings, append_nil] at h
    exact h
  | succ n ih =>
    rw [rows, rows, normalise_replicate]
    exact congrArg (_ ++ '\n' :: ·) ih

theorem splitOn_replicate : (List.replicate n 'a').splitOn '\n' = [List.replicate n 'a'] :=
  splitOn_eq_singleton fun hc => absurd (eq_of_mem_replicate hc) (by decide)

theorem splitOn_rows (n : Nat) : (rows width ['\n'] n).splitOn '\n' =
      List.replicate n (List.replicate width 'a') ++ [List.replicate (width + 1) 'a'] := by
  induction n with
  | zero => exact splitOn_replicate (width + 1)
  | succ n ih =>
    have hfirst : '\n' ∉ List.replicate width 'a' := fun hc => absurd (eq_of_mem_replicate hc) (by decide)
    rw [rows, singleton_append, splitOn_append_cons_self_of_not_mem hfirst, ih, replicate_succ]
    rfl

theorem mem_lines {line seen : Text} (h : line ∈ lines seen) :
    ∃ piece ∈ seen.splitOn '\n', utf8Len line ≤ utf8Len piece := by
  unfold lines at h
  rcases mem_append.mp h with hline | hline
  · obtain ⟨piece, hpiece, rfl⟩ := List.mem_map.mp hline
    refine ⟨piece, dropLast_subset _ hpiece, ?_⟩
    unfold stripCarriageReturn
    split
    · next hlast =>
      obtain ⟨front, rfl⟩ := getLast?_eq_some_iff.mp hlast
      rw [dropLast_concat, utf8Len_append]
      omega
    · exact le_rfl
  · have hlast := mem_toList.mp (mem_filter.mp hline).1
    exact ⟨line, mem_of_getLast? hlast, le_rfl⟩

theorem length_lines_le (seen : Text) : (lines seen).length ≤ (seen.splitOn '\n').length := by
  unfold lines
  rw [length_append, length_map, length_dropLast]
  cases hlast : (seen.splitOn '\n').getLast? with
  | none => exact absurd (getLast?_eq_none_iff.mp hlast) (splitOn_ne_nil _ _)
  | some piece =>
    have hpieces := length_pos_of_ne_nil (splitOn_ne_nil '\n' seen)
    have htail := length_filter_le (fun piece : Text => !piece.isEmpty) (some piece).toList
    exact (Nat.add_le_add_left htail _).trans (Nat.sub_add_cancel hpieces).le

/-- The document is loaded, its lines being short and few and its bytes not too many as they stand. -/
theorem fromBytes_mixed {width n : Nat} (hsize : n * (width + 2) + (width + 2) ≤ mobileMaxSourceBytes)
    (hwidth : width < 16384) (hcount : n + 2 ≤ 16384) :
    TextDocument.fromBytes (utf8Bytes (mixed width n)) mobileDocumentBounds =
      .ok (TextDocument.decoded .utf8 (mixed width n) mobileDocumentBounds) := by
  have hhead : (mixed width n).head? ≠ some '\uFEFF' := by
    rw [mixed, head?_cons]
    decide
  have hstrip := stripByteOrderMark_utf8Bytes hhead
  have hending : utf8Len ['\r', '\n'] = 2 := by decide
  have hfeed : Char.utf8Size '\n' = 1 := by decide
  refine TextDocument.fromBytes_eq_ok_iff.mpr ⟨mixed width n, ⟨?_, ?_, ?_, ?_⟩, by rw [hstrip]⟩
  · rw [length_utf8Bytes, mixed, utf8Len_cons, utf8Len_rows, hending, hfeed]
    exact le_trans (by omega) hsize
  · have hrows := count_rows (c := '\x00') (by decide) width ['\r', '\n'] n
    rw [hstrip, zero_mem_utf8Bytes, mixed, mem_cons]
    rintro (h | h)
    · exact absurd h (by decide)
    · have hnone : ['\r', '\n'].count '\x00' = 0 := by decide
      rw [hnone, Nat.mul_zero] at hrows
      exact List.count_eq_zero.mp hrows h
  · rw [hstrip, fromUtf8_utf8Bytes]
  · rw [mixed, normalise_cons (by decide), normalise_rows]
    have hpieces : ('\n' :: rows width ['\n'] n).splitOn '\n' =
        [] :: (List.replicate n (List.replicate width 'a') ++ [List.replicate (width + 1) 'a']) := by
      rw [← splitOn_rows]
      exact splitOn_append_cons_self_of_not_mem not_mem_nil _
    refine checkLines_eq_ok.mpr ⟨(length_lines_le _).trans ?_, by decide, fun line hline => ?_⟩
    · rw [hpieces, length_cons, length_append, length_replicate, length_singleton]
      exact hcount
    · obtain ⟨piece, hpiece, hle⟩ := mem_lines hline
      refine hle.trans ?_
      rw [hpieces, mem_cons, mem_append, mem_singleton] at hpiece
      have hmax : mobileDocumentBounds.maxLineBytes = 16384 := rfl
      rcases hpiece with rfl | hpiece | rfl
      · exact Nat.zero_le _
      · rw [eq_of_mem_replicate hpiece, utf8Len_replicate]
        omega
      · rw [utf8Len_replicate]
        omega

/-- Most lines end with both characters, so all of them do when the document is saved. -/
theorem length_toBytes_mixed {n : Nat} (hn : 0 < n) :
    (TextDocument.decoded .utf8 (mixed width n) mobileDocumentBounds).toBytes.length =
      n * (width + 2) + (width + 3) := by
  have hcrlf : countCrlf (mixed width n) = n := by
    rw [mixed, countCrlf, countCrlf_rows]
    exact fun _ h _ => absurd h (by decide)
  have hcr : (mixed width n).count '\r' = n := by
    rw [mixed, count_cons, count_rows (by decide)]
    exact Nat.mul_one n
  have hlf : (mixed width n).count '\n' = n + 1 := by
    rw [mixed, count_cons, count_rows (by decide)]
    exact congrArg (· + 1) (Nat.mul_one n)
  have hending : detectLineEnding (mixed width n) = .crlf := by
    unfold detectLineEnding
    simp only [hcrlf, hcr, hlf]
    rw [if_pos (by omega)]
  have hnormal : normaliseLineEndings (mixed width n) = '\n' :: rows width ['\n'] n := by
    rw [mixed, normalise_cons (by decide), normalise_rows]
  have hfeeds : (normaliseLineEndings (mixed width n)).count '\n' = n + 1 := by
    rw [hnormal, count_cons, count_rows (by decide)]
    exact congrArg (· + 1) (Nat.mul_one n)
  have hsize : utf8Len (normaliseLineEndings (mixed width n)) = n * (width + 1) + (width + 2) := by
    have hfeed : Char.utf8Size '\n' = 1 := by decide
    have hone : utf8Len ['\n'] = 1 := by decide
    rw [hnormal, utf8Len_cons, utf8Len_rows, hfeed, hone]
    omega
  rw [length_toBytes, writtenLength]
  simp only [TextDocument.decoded, hending, hfeeds, hsize, if_true]
  have hmul : n * (width + 2) = n * (width + 1) + n := by rw [← Nat.mul_succ]
  rw [if_neg (by decide), hmul]
  omega

theorem openNew_empty [CharTables] {bytes : List UInt8} {text : TextDocument} (origin : LocalOrigin)
    (version : SourceVersion)
    (hload : TextDocument.fromBytes bytes mobileDocumentBounds = .ok text) :
    ∃ documents, InPlace.openNew (.localFile origin) bytes (some version) true .empty = (.ok 1, documents) ∧
      (documents.documents.get 1).map (fun entry => (entry.origin, entry.text)) = some (.localFile origin, text) := by
  have hgiven : (given fun _ => engine (some (if (DocumentOrigin.localFile origin).isUntitled then
      TextDocument.fromUnsavedBytes bytes mobileDocumentBounds
      else TextDocument.fromBytes bytes mobileDocumentBounds))) = (pure text : Command TextDocument) := by
    have hfile : (DocumentOrigin.localFile origin).isUntitled = false := rfl
    rw [hfile, if_neg Bool.false_ne_true, hload]
    rfl
  unfold InPlace.openNew
  rw [hgiven]
  exact ⟨_, rfl, rfl⟩

theorem step_open [CharTables] [Allocation] {bytes : List UInt8} {text : TextDocument}
    (origin : LocalOrigin) (version : SourceVersion)
    (hload : TextDocument.fromBytes bytes mobileDocumentBounds = .ok text) :
    ∃ documents entry, InPlace.step .empty (.openDocument (.localFile origin) bytes (some version) true) =
      some documents ∧ documents.documents.get 1 = some entry ∧ entry.origin = .localFile origin ∧
      entry.text = text := by
  obtain ⟨documents, hnew, hfound⟩ := openNew_empty origin version hload
  obtain ⟨entry, hentry, hfound⟩ := map_eq_some_iff.mp hfound
  obtain ⟨horigin, htext⟩ := Prod.mk.inj hfound
  refine ⟨documents, entry, ?_, hentry, horigin, htext⟩
  have hopen : InPlace.openDocument (.localFile origin) bytes (some version) true .empty = (.ok 1, documents) := hnew
  simp only [InPlace.step, InPlace.perform, InPlace.only, bind, pure, hopen]

/-- A file of a mebibyte, one line of which ends with a line feed alone and 63 with both characters. -/
theorem saved_larger_than_loaded :
    letI := CharTables.ascii
    letI := Allocation.reference
    ∃ documents, Runs.Reaches InPlace.step (fun _ _ => True) .empty documents ∧ ¬ AlwaysSaves documents := by
  let _ := CharTables.ascii
  let _ := Allocation.reference
  have hload := @fromBytes_mixed 16382 63 (by decide) (by decide) (by decide)
  obtain ⟨documents, entry, hstep, hentry, horigin, htext⟩ := step_open ⟨[0x2f, 0x61], ['a']⟩ ⟨[1]⟩ hload
  refine ⟨documents, .step .refl trivial hstep, fun hsaves => ?_⟩
  obtain ⟨hroom, -⟩ := hsaves.fits 1 entry hentry (by rw [horigin]; rfl)
  rw [htext, length_toBytes_mixed 16382 (by decide)] at hroom
  exact absurd hroom (by decide)

end FesTerm.MobileDocs.Documents
