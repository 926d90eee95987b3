import FesTerm.Document.Proofs.SavingProofs
import FesTerm.MobileDocs.Editor

/-!
# The text of one mobile document

What the registry relies on of the document engine: a document that was edited, undone, saved and
reloaded still knows which text was saved, and all its texts are normalised, so that what is written reads
back.
-/

namespace FesTerm.MobileDocs

open Document Checked List Option

/-- What normalised input and loaded bytes are free of. -/
structure Normalised (text : Text) : Prop where
  carriageReturn : '\r' ∉ text
  nul : '\x00' ∉ text

/-- An operation of the engine leaves the form in which the text is written. -/
structure SameForm (text text' : TextDocument) : Prop where
  encoding : text'.encoding = text.encoding
  lineEnding : text'.lineEnding = text.lineEnding
  bounds : text'.bounds = text.bounds

theorem SameForm.refl (text : TextDocument) : SameForm text text := ⟨rfl, rfl, rfl⟩

theorem mem_normalise {c : Char} (text : Text) (h : c ∈ normaliseLineEndings text) : c = '\n' ∨ c ∈ text := by
  fun_induction normaliseLineEndings text with
  | case1 => cases h
  | case2 rest ih =>
    rcases mem_cons.mp h with rfl | h
    · exact .inl rfl
    · exact (ih h).imp_right fun hmem => mem_cons_of_mem _ (mem_cons_of_mem _ hmem)
  | case3 rest _ ih =>
    rcases mem_cons.mp h with rfl | h
    · exact .inl rfl
    · exact (ih h).imp_right (mem_cons_of_mem _)
  | case4 character rest _ _ ih =>
    rcases mem_cons.mp h with rfl | h
    · exact .inr mem_cons_self
    · exact (ih h).imp_right (mem_cons_of_mem _)

theorem normalised_normalise {text : Text} (h : '\x00' ∉ text) : Normalised (normaliseLineEndings text) where
  carriageReturn := carriageReturn_not_mem_normalise text
  nul hmem := by
    rcases mem_normalise text hmem with heq | hmem
    · exact absurd heq (by decide)
    · exact h hmem

theorem normalised_of_normalizedInput {text normalised : Text} (h : normalizedInput text = .ok normalised) :
    Normalised normalised := by
  unfold normalizedInput at h
  split at h
  · cases h
  · rename_i hnul
    have hnul : '\x00' ∉ text := fun hmem => hnul (contains_iff_mem.mpr hmem)
    cases h
    split
    · exact normalised_normalise hnul
    · rename_i hreturn
      exact ⟨fun hmem => hreturn (contains_iff_mem.mpr hmem), hnul⟩

variable {bounds : DocumentBounds}

theorem normalised_of_fromBytes {bytes : List UInt8} {document : TextDocument}
    (h : TextDocument.fromBytes bytes bounds = .ok document) : Normalised document.text := by
  obtain ⟨body, haccepts, rfl⟩ := TextDocument.fromBytes_eq_ok_iff.mp h
  have hbytes := utf8Bytes_of_fromUtf8 _ haccepts.utf8
  apply normalised_normalise
  intro hmem
  have hzero := zero_mem_utf8Bytes.mpr hmem
  rw [hbytes] at hzero
  exact haccepts.text hzero

section

variable [Allocation]

/-- The document is the one of a session of the engine: what it takes for saved is the text that was saved,
and the point, where one is given, stands for the text that was there when it was taken. -/
def Follows (text : TextDocument) (saved : Option Text) (point : Option (SavePoint × Text)) : Prop :=
  ∃ session log positions, session.document = text ∧ Consistent session log positions ∧
    session.savedText = saved ∧ (∀ taken ∈ point, taken ∈ session.points) ∧
    ∀ token seen, log token = some seen → Normalised seen

variable {text text' : TextDocument} {saved : Option Text} {point : Option (SavePoint × Text)}

theorem Follows.clean (h : Follows text saved point) (hclean : text.isDirty = false) : saved = some text.text := by
  obtain ⟨session, log, positions, rfl, hsession, rfl, -, -⟩ := h
  exact hsession.clean hclean

theorem Follows.normalised (h : Follows text saved point) : Normalised text.text := by
  obtain ⟨session, log, positions, rfl, hsession, -, -, hlog⟩ := h
  exact hlog _ _ hsession.token

theorem Follows.lines (h : Follows text saved point) :
    TextDocument.checkLines text.bounds text.text = .ok () := by
  obtain ⟨session, log, positions, rfl, hsession, -, -, -⟩ := h
  exact hsession.lines _ _ hsession.token

theorem Follows.sound (h : Follows text saved point) : text.undoHistory.Sound := by
  obtain ⟨session, log, positions, rfl, hsession, -, -, -⟩ := h
  exact hsession.sound

omit [Allocation] in
theorem normalised_loadedLog {text : Text} (h : Normalised text) (token : Option Nat) (seen : Text)
    (hlog : loadedLog text token = some seen) : Normalised seen := by
  unfold loadedLog at hlog
  split at hlog
  · cases hlog
    exact h
  · cases hlog

variable {bytes : List UInt8} {changed : Bool}

theorem follows_loaded
    (h : TextDocument.fromBytes bytes bounds = .ok text) : Follows text (some text.text) none := by
  refine ⟨_, _, _, rfl, consistent_loaded h, rfl, ?_, normalised_loadedLog (normalised_of_fromBytes h)⟩
  intro taken htaken
  cases htaken

theorem follows_unsaved
    (h : TextDocument.fromUnsavedBytes bytes bounds = .ok text) : Follows text none none := by
  have hnormalised : Normalised text.text := by
    obtain ⟨loaded, hload, rfl⟩ := TextDocument.fromUnsavedBytes_ok h
    have hloaded := normalised_of_fromBytes hload
    exact hloaded
  refine ⟨_, _, _, rfl, consistent_unsaved h, rfl, ?_, normalised_loadedLog hnormalised⟩
  intro taken htaken
  cases htaken

omit [Allocation] in
theorem fromBytes_of_reloadFrom (h : text.reloadFrom bytes = .ok text') :
    ∃ loaded, TextDocument.fromBytes bytes text.bounds = .ok loaded ∧ loaded.text = text'.text ∧
      text'.bounds = text.bounds := by
  obtain ⟨loaded, hload, h⟩ := Procedure.bind_eq_ok.mp h
  cases h
  exact ⟨loaded, hload, rfl, rfl⟩

theorem follows_reload (h : text.reloadFrom bytes = .ok text') : Follows text' (some text'.text) none := by
  obtain ⟨loaded, hload, htext, -⟩ := fromBytes_of_reloadFrom h
  have hnormalised : Normalised text'.text := htext ▸ normalised_of_fromBytes hload
  refine ⟨_, _, _, rfl, consistent_reload h 0, rfl, ?_, normalised_loadedLog hnormalised⟩
  intro taken htaken
  cases htaken

variable {op : EditOp}

theorem session_edit_keeps {session session' : Session} (h : session.edit op = some session') :
    op.run session.document = some session'.document ∧ session'.savedText = session.savedText ∧
      session'.points = session.points := by
  simp only [Session.edit, bind_eq_bind, bind_eq_some_iff] at h
  obtain ⟨document, hrun, plan, -, h⟩ := h
  rcases plan with _ | ⟨edits, coalescable⟩
  · cases h
    exact ⟨hrun, rfl, rfl⟩
  · simp only [bind_eq_some_iff] at h
    obtain ⟨befores, -, h⟩ := h
    cases h
    exact ⟨hrun, rfl, rfl⟩

theorem Follows.edit (h : Follows text saved point) (hrun : op.run text = some text')
    (hnormalised : Normalised text'.text) : Follows text' saved point := by
  obtain ⟨session, log, positions, rfl, hsession, hsaved, hpoint, hlog⟩ := h
  obtain ⟨session', log', positions', hedit, hsession', -, hlearnt⟩ := hsession.edit op
  obtain ⟨hrun', hsaved', hpoints'⟩ := session_edit_keeps hedit
  obtain rfl : session'.document = text' := some.inj (hrun'.symm.trans hrun)
  refine ⟨session', log', positions', rfl, hsession', hsaved'.trans hsaved, ?_, ?_⟩
  · rw [hpoints']
    exact hpoint
  · intro token seen hseen
    rcases hlearnt token seen hseen with hold | rfl
    · exact hlog token seen hold
    · exact hnormalised

theorem Follows.walk {op : Op} (h : Follows text saved point)
    (hop : op = .undo ∧ text.undo = some (changed, text') ∨ op = .redo ∧ text.redo = some (changed, text')) :
    Follows text' saved point := by
  obtain ⟨session, log, positions, rfl, hsession, hsaved, hpoint, hlog⟩ := h
  rcases hop with ⟨rfl, hop⟩ | ⟨rfl, hop⟩
  · obtain ⟨session', hstep, hsession'⟩ := hsession.walk_step (show Op.walks .undo = true from rfl)
    simp only [Session.step, hop, some_bind] at hstep
    cases hstep
    exact ⟨_, log, positions, rfl, hsession', hsaved, hpoint, hlog⟩
  · obtain ⟨session', hstep, hsession'⟩ := hsession.walk_step (show Op.walks .redo = true from rfl)
    simp only [Session.step, hop, some_bind] at hstep
    cases hstep
    exact ⟨_, log, positions, rfl, hsession', hsaved, hpoint, hlog⟩

theorem Follows.undo (h : Follows text saved point)
    (hundo : text.undo = some (changed, text')) : Follows text' saved point :=
  h.walk (.inl ⟨rfl, hundo⟩)

theorem Follows.redo (h : Follows text saved point)
    (hredo : text.redo = some (changed, text')) : Follows text' saved point :=
  h.walk (.inr ⟨rfl, hredo⟩)

theorem Follows.closeTransaction (h : Follows text saved point) (hclose : text.closeTransaction = some text') :
    Follows text' saved point := by
  obtain ⟨session, log, positions, rfl, hsession, hsaved, hpoint, hlog⟩ := h
  obtain ⟨document, hclose', hsession'⟩ := hsession.closed _ _ hsession.saved
  obtain rfl : document = text' := some.inj (hclose'.symm.trans hclose)
  exact ⟨_, log, positions, rfl, hsession', hsaved, hpoint, hlog⟩

theorem Follows.savePoint (h : Follows text saved point) :
    Follows text saved (some (text.savePoint, text.text)) := by
  obtain ⟨session, log, positions, rfl, hsession, hsaved, -, hlog⟩ := h
  refine ⟨{ session with points := (session.document.savePoint, session.document.text) :: session.points },
    log, positions, rfl, { hsession with points := ?_ }, hsaved, ?_, hlog⟩
  · intro taken hmem
    rcases mem_cons.mp hmem with rfl | hmem
    · exact hsession.token
    · exact hsession.points taken hmem
  · rintro taken ⟨⟩
    exact mem_cons_self

variable {taken : SavePoint}

theorem Follows.markSavedAt {written : Text} (h : Follows text saved (some (taken, written)))
    (hmark : text.markSavedAt taken = some text') : Follows text' (some written) none := by
  obtain ⟨session, log, positions, rfl, hsession, -, hpoint, hlog⟩ := h
  obtain ⟨document, hclose, hsession'⟩ := hsession.closed (.history taken.token) (some written) (by
    rintro token ⟨⟩
    exact ⟨_, hsession.points _ (hpoint _ rfl), rfl⟩)
  obtain rfl : document = text' := some.inj (hclose.symm.trans hmark)
  refine ⟨_, log, positions, rfl, hsession', rfl, ?_, hlog⟩
  intro taken htaken
  cases htaken

section

omit [Allocation]

theorem sameForm_closeTransaction (h : text.closeTransaction = some text') :
    SameForm text text' ∧ text'.text = text.text := by
  simp only [TextDocument.closeTransaction, bind_eq_bind, bind_eq_some_iff] at h
  obtain ⟨history, -, h⟩ := h
  cases h
  exact ⟨⟨rfl, rfl, rfl⟩, rfl⟩

theorem sameForm_markSavedAt (h : text.markSavedAt taken = some text') :
    SameForm text text' ∧ text'.text = text.text := by
  have hclose : { text with savedPoint := .history taken.token }.closeTransaction = some text' := h
  obtain ⟨hform, htext⟩ := sameForm_closeTransaction hclose
  exact ⟨⟨hform.encoding, hform.lineEnding, hform.bounds⟩, htext⟩

theorem sameForm_undo (h : text.undo = some (changed, text')) : SameForm text text' := by
  simp only [TextDocument.undo, bind_eq_bind, bind_eq_some_iff] at h
  obtain ⟨step, -, h⟩ := h
  rcases step with _ | ⟨transaction, history⟩
  · cases h
    exact .refl _
  · simp only [bind_eq_some_iff] at h
    obtain ⟨after, -, h⟩ := h
    cases h
    exact ⟨rfl, rfl, rfl⟩

theorem sameForm_redo (h : text.redo = some (changed, text')) : SameForm text text' := by
  simp only [TextDocument.redo, bind_eq_bind, bind_eq_some_iff] at h
  obtain ⟨step, -, h⟩ := h
  rcases step with _ | ⟨transaction, history⟩
  · cases h
    exact .refl _
  · simp only [bind_eq_some_iff] at h
    obtain ⟨after, -, h⟩ := h
    cases h
    exact ⟨rfl, rfl, rfl⟩

end

theorem transacted_spec {edits : List TextEdit} {coalescable : Bool} {after : Text}
    (hsound : text.undoHistory.Sound) (hedits : Edits 0 edits text.text after)
    (h : text.applyTransaction edits coalescable = some (.ok text')) :
    SameForm text text' ∧ text'.text = after := by
  obtain ⟨result, hresult, hspec⟩ := TextDocument.applyTransaction_spec coalescable hsound hedits
  obtain rfl : result = .ok text' := some.inj (hresult.symm.trans h)
  obtain ⟨htransacted, htext⟩ := hspec text' rfl
  refine ⟨?_, htext⟩
  cases htransacted with
  | unchanged => exact .refl _
  | changed => exact ⟨rfl, rfl, rfl⟩

theorem syncFromView_spec {updated : Text} (hsound : text.undoHistory.Sound)
    (h : text.syncFromView updated = some (.ok (changed, text'))) :
    EditOp.run text (.syncFromView updated) = some text' ∧ SameForm text text' ∧ text'.text = updated := by
  have hrun : EditOp.run text (.syncFromView updated) = some text' := by
    simp only [EditOp.run, h, some_bind]
    rfl
  refine ⟨hrun, ?_⟩
  unfold TextDocument.syncFromView at h
  split at h
  · next heq =>
    cases h
    exact ⟨.refl _, heq.symm⟩
  · obtain ⟨edit, coalescable, hedit, hedits⟩ := text.syncEdit_spec updated
    simp only [hedit, bind_eq_bind, bind_some, bind_eq_some_iff] at h
    obtain ⟨result, happly, h⟩ := h
    cases result with
    | error reason => cases h
    | ok text'' =>
      cases h
      exact transacted_spec hsound hedits happly

theorem replace_spec {start stop : Nat} {replacement : Text} (hsound : text.undoHistory.Sound)
    (h : text.replace start stop replacement = some (.ok text')) (htext : Normalised text.text)
    (hreplacement : Normalised replacement) :
    EditOp.run text (.replace start stop replacement) = some text' ∧ SameForm text text' ∧
      Normalised text'.text := by
  have hrun : EditOp.run text (.replace start stop replacement) = some text' := by
    simp only [EditOp.run, h, some_bind]
    rfl
  obtain ⟨edit, after, hedit, hedits⟩ := text.editFor_spec start stop replacement
  have hinserted : edit.inserted = replacement := by
    simp only [TextDocument.editFor, bind_eq_bind, bind_eq_some_iff] at hedit
    obtain ⟨slice, -, hedit⟩ := hedit
    cases hedit
    rfl
  simp only [TextDocument.replace, hedit, some_bind] at h
  obtain ⟨hform, rfl⟩ := transacted_spec hsound hedits h
  refine ⟨hrun, hform, ?_⟩
  obtain ⟨front, back, -, hbefore, hafter⟩ := edits_single_iff.mp hedits
  rw [hinserted] at hafter
  rw [hbefore] at htext
  have hreturn := htext.carriageReturn
  have hnul := htext.nul
  simp only [mem_append, not_or] at hreturn hnul
  rw [hafter]
  constructor
  · simp only [mem_append, not_or]
    exact ⟨hreturn.1, hreplacement.carriageReturn, hreturn.2.2⟩
  · simp only [mem_append, not_or]
    exact ⟨hnul.1, hreplacement.nul, hnul.2.2⟩

/-- The bytes decode to the text. A text that begins with a byte-order mark of its own, in a document
without one, is left out. -/
def ReadsBack (bytes : List UInt8) (encoding : Encoding) (text : Text) : Prop :=
  (∃ decoded, TextDocument.fromBytes bytes mobileDocumentBounds = .ok decoded ∧ decoded.text = text) ∨
    encoding = .utf8 ∧ text.head? = some '\uFEFF'

theorem Follows.readsBack (h : Follows text saved point) (hbounds : text.bounds = mobileDocumentBounds)
    (hsize : mobileDocumentBounds.checkDeclaredSize text.toBytes.length = .ok ()) :
    ReadsBack text.toBytes text.encoding text.text := by
  by_cases hmark : text.encoding = .utf8 ∧ text.text.head? = some '\uFEFF'
  · exact .inr hmark
  · left
    have hnormalised := h.normalised
    have hroom : writtenLength text ≤ text.bounds.maxBytes := by
      rw [← length_toBytes, hbounds]
      unfold DocumentBounds.checkDeclaredSize at hsize
      split at hsize
      · cases hsize
      · next hle => exact Nat.not_lt.mp hle
    have hsaveable : Saveable text :=
      ⟨hnormalised.carriageReturn, hnormalised.nul, fun hencoding hhead => hmark ⟨hencoding, hhead⟩, hroom⟩
    obtain ⟨reopened, hload, htext, -, -⟩ := hsaveable.reopens h.lines
    rw [hbounds] at hload
    exact ⟨reopened, hload, htext⟩

end

end FesTerm.MobileDocs
