import FesTerm.MobileDocs.Sizes
import FesTerm.MobileDocs.Proofs.InPlaceProofs
import FesTerm.MobileDocs.Proofs.RegistryProofs

/-!
# What is edited can be saved

The current text of a document and every text that undo and redo lead to fit when they are saved, from the load
on that they come from. An edit is checked by the size that it is saved with.
-/

namespace FesTerm.MobileDocs

open Document Checked List Option

variable {text text' : TextDocument} {front removed inserted back : Text}

theorem encodedLength_append (text : TextDocument) (front back : Text) :
    encodedLength text (front ++ back) = encodedLength text front + encodedLength text back := by
  unfold encodedLength
  rw [utf8Len_append]
  split
  · rw [count_append]
    omega
  · omega

theorem writtenLength_eq (text : TextDocument) (other : Text) : writtenLength { text with text := other } =
      encodedLength text other + if text.encoding = .utf8Bom then 3 else 0 := rfl

theorem predicts_splice (htext : text.text = front ++ (removed ++ back)) (inserted : Text) :
    Documents.Predicts text removed inserted { text with text := front ++ (inserted ++ back) } := by
  unfold Documents.Predicts changedLength
  have hsub : sub (encodedLength text text.text) (encodedLength text removed) =
      some (encodedLength text front + encodedLength text back) := by
    rw [htext, encodedLength_append, encodedLength_append, sub, if_pos (by omega)]
    congr 1
    omega
  have hlength : ({ text with text := front ++ (inserted ++ back) } : TextDocument).toBytes.length =
      encodedLength text front + encodedLength text back + encodedLength text inserted +
        if text.encoding = .utf8Bom then 3 else 0 := by
    rw [length_toBytes, writtenLength_eq, encodedLength_append, encodedLength_append]
    omega
  rw [hsub, hlength]
  rfl

theorem check_of_predicts {edited : TextDocument} (h : Documents.Predicts text removed inserted edited) :
    checkEncodedChange text removed inserted =
      engine (some (mobileDocumentBounds.checkDeclaredSize edited.toBytes.length)) := by
  unfold Documents.Predicts at h
  rw [checkEncodedChange, h]
  rfl

theorem predicts_whole (text : TextDocument) (updated : Text) :
    Documents.Predicts text text.text updated { text with text := updated } := by
  have hsplice := @predicts_splice text [] text.text [] (by simp) updated
  rwa [nil_append, append_nil] at hsplice

theorem toBytes_congr (hform : SameForm text text') (htext : text'.text = inserted) :
    text'.toBytes.length = ({ text with text := inserted } : TextDocument).toBytes.length := by
  rw [length_toBytes, length_toBytes, writtenLength, writtenLength, hform.encoding, hform.lineEnding, htext]

variable {edits : List TextEdit} {coalescable : Bool} {stop start : Nat} {replacement : Text}

namespace Documents

variable [CharTables] {documents after : Documents} {entry : OpenDocument}

theorem editableTarget_slice {target : EditTarget} (h : (documents.editableTarget target).run = some (.ok entry)) :
    ∃ front removed back, entry.text.text = front ++ (removed ++ back) ∧ utf8Len front = target.start ∧
      target.stop = target.start + utf8Len removed ∧
      sliceText entry.text.text target.start target.stop = some removed := by
  have hentry := (editableTarget_spec h).1
  unfold editableTarget Documents.target at h
  simp only [ok_bind, ok_check, ok_unless, ok_pure] at h
  obtain ⟨issued, ⟨⟨document, found⟩, hfound, hselection, rfl⟩, hsame, -⟩ := h
  rw [not_not] at hsame
  obtain ⟨-, hget⟩ := entryFor_eq_ok.mp hfound
  have hdocument : document = target.document := congrArg EditTarget.document hsame
  rw [hdocument] at hget
  cases hget.symm.trans hentry
  simp only [not_or, Bool.not_eq_true', Bool.not_eq_false] at hselection
  obtain ⟨hle, -, hstart, hstop⟩ := hselection
  obtain ⟨front, removed, back, htext, hfront, hlength, hslice⟩ :=
    sliceText_of_boundaries (Nat.not_lt.mp hle) hstart hstop
  exact ⟨front, removed, back, htext, hfront, hlength, hslice⟩

omit [CharTables] in
theorem floorCharBoundary_of_boundary {text : Text} {index : Nat} (h : isCharBoundary text index = true) :
    floorCharBoundary text index = index := by
  cases index with
  | zero => rfl
  | succ index => rw [floorCharBoundary, if_pos h]

omit [CharTables] in
theorem editFor_of_slice {text : TextDocument} {front removed back : Text}
    (htext : text.text = front ++ (removed ++ back)) (hstart : utf8Len front = start)
    (hstop : stop = start + utf8Len removed) (replacement : Text) :
    text.editFor start stop replacement = some (.owned start removed replacement) ∧
      Edits 0 [.owned start removed replacement] text.text (front ++ (replacement ++ back)) := by
  have hfirst : isCharBoundary text.text start = true := isCharBoundary_iff.mpr ⟨front, removed ++ back, htext, hstart⟩
  have hlast : isCharBoundary text.text stop = true := by
    refine isCharBoundary_iff.mpr ⟨front ++ removed, back, ?_, ?_⟩
    · rw [htext, append_assoc]
    · rw [utf8Len_append, hstart, hstop]
  have hlength : utf8Len text.text = start + utf8Len removed + utf8Len back := by
    rw [htext, utf8Len_append, utf8Len_append, hstart, Nat.add_assoc]
  have hslice : sliceText text.text start stop = some removed := by
    rw [htext, ← hstart]
    exact sliceText_append front removed back (by rw [hstop, hstart])
  have hclampStart : min start (utf8Len text.text) = start := by omega
  have hclampStop : min stop (utf8Len text.text) = stop := by omega
  have hordered : max stop start = stop := Nat.max_eq_left (by omega)
  refine ⟨?_, edits_single_iff.mpr ⟨front, back, hstart.symm, htext, rfl⟩⟩
  unfold TextDocument.editFor
  rw [hclampStart, hclampStop, floorCharBoundary_of_boundary hfirst, floorCharBoundary_of_boundary hlast]
  simp only [hordered, hslice]
  rfl

section

variable [Allocation]

omit [CharTables] in
theorem refusal_of_prepare {history : UndoHistory}
    {reason : RefusalReason} (h : history.prepare edits coalescable = some (.error reason)) :
    ∃ bytes limit, reason = .undoStorageTooLarge bytes limit := by
  simp only [UndoHistory.prepare, bind_eq_bind, Option.pure_def] at h
  split at h
  · cases h
  · obtain ⟨applied, -, h⟩ := bind_eq_some_iff.mp h
    obtain ⟨merged, -, h⟩ := bind_eq_some_iff.mp h
    cases merged with
    | some prepared => cases h
    | none =>
      obtain ⟨retention, -, h⟩ := bind_eq_some_iff.mp h
      cases retention with
      | error bytes =>
        cases h
        exact ⟨bytes, _, rfl⟩
      | ok retention => cases h

omit [CharTables] [Allocation] in
theorem checkLines_ne_tooLarge (bounds : DocumentBounds) (text : Text) (bytes limit : Nat) :
    TextDocument.checkLines bounds text ≠ .error (.tooLarge bytes limit) := by
  unfold TextDocument.checkLines
  by_cases hmany : lineCount text > bounds.maxLines
  · rw [if_pos hmany]
    rintro ⟨⟩
  · rw [if_neg hmany]
    cases firstOverlongLine text bounds.maxLineBytes with
    | none | some line => rintro ⟨⟩

omit [CharTables] in
theorem applyTransaction_ne_tooLarge {text : TextDocument} {result : Text}
    (hsound : text.undoHistory.Sound) (hedits : Edits 0 edits text.text result)
    (hfits : utf8Len result ≤ text.bounds.maxBytes) (bytes limit : Nat) :
    text.applyTransaction edits coalescable ≠ some (.error (.tooLarge bytes limit)) := by
  intro h
  have hroom : text.bounds.checkDeclaredSize (utf8Len result) = .ok () := if_neg (Nat.not_lt.mpr hfits)
  obtain ⟨admission, hprepare, -, hadmitted⟩ := hsound.prepare_spec edits coalescable
  simp only [TextDocument.applyTransaction, hprepare, bind_eq_bind, bind_some] at h
  rcases admission with reason | ⟨_ | prepared⟩
  · obtain ⟨needed, storage, rfl⟩ := refusal_of_prepare hprepare
    cases h
  · cases h
  · have hscript : Edits 0 prepared.edits text.text result := by
      rw [TextDocument.admitted_edits (hadmitted prepared rfl)]
      exact edits_filter_changes hedits
    have hlength := rewrittenLength_eq .forward hscript
    have hrewrite := rewriteOrderedEdits_eq .forward hscript
    simp only [EditDirection.source, EditDirection.target] at hlength hrewrite
    simp only [hlength, hrewrite, hroom, bind_some, TextDocument.checkBounds] at h
    cases hlines : TextDocument.checkLines text.bounds result with
    | error reason =>
      simp only [hlines, bind, Except.bind] at h
      cases h
      exact checkLines_ne_tooLarge _ _ _ _ hlines
    | ok _ =>
      simp only [hlines, bind, Except.bind] at h
      obtain ⟨history, -, h⟩ := bind_eq_some_iff.mp h
      cases h

omit [CharTables] in
theorem replaced_text {text text' : TextDocument} {front removed back : Text}
    (hsound : text.undoHistory.Sound) (htext : text.text = front ++ (removed ++ back))
    (hstart : utf8Len front = start) (hstop : stop = start + utf8Len removed)
    (h : text.replace start stop replacement = some (.ok text')) :
    SameForm text text' ∧ text'.text = front ++ (replacement ++ back) := by
  obtain ⟨hedit, hedits⟩ := editFor_of_slice htext hstart hstop replacement
  simp only [TextDocument.replace, hedit, some_bind] at h
  exact transacted_spec hsound hedits h

end

end Documents

section

def unsaved (text : TextDocument) : TextDocument := { text with savedPoint := .unwritten }

variable [Allocation]

/-- The text of the document, and every text that undo and redo lead to, meets the condition. -/
def Recalls (holds : Text → Prop) (text : TextDocument) : Prop :=
  ∃ session log positions, session.document = unsaved text ∧ Consistent session log positions ∧
    ∀ token seen, log token = some seen → holds seen

variable {holds : Text → Prop} {changed : Bool}

theorem Recalls.current (h : Recalls holds text) : holds text.text := by
  obtain ⟨session, log, positions, hdocument, hsession, hlog⟩ := h
  have htoken := hsession.token
  rw [hdocument] at htoken
  exact hlog _ _ htoken

theorem Recalls.sound (h : Recalls holds text) : text.undoHistory.Sound := by
  obtain ⟨session, log, positions, hdocument, hsession, -⟩ := h
  have hsound := hsession.sound
  rwa [hdocument] at hsound

theorem Recalls.lines (h : Recalls holds text) : TextDocument.checkLines text.bounds text.text = .ok () := by
  obtain ⟨session, log, positions, hdocument, hsession, -⟩ := h
  have hlines := hsession.lines _ _ hsession.token
  rwa [hdocument] at hlines

theorem Recalls.mono {holds' : Text → Prop} (h : Recalls holds text) (himp : ∀ seen, holds seen → holds' seen) :
    Recalls holds' text := by
  obtain ⟨session, log, positions, hdocument, hsession, hlog⟩ := h
  exact ⟨session, log, positions, hdocument, hsession, fun token seen hseen => himp seen (hlog token seen hseen)⟩

theorem Recalls.congr (h : Recalls holds text) (hsame : unsaved text' = unsaved text) : Recalls holds text' := by
  obtain ⟨session, log, positions, hdocument, hrest⟩ := h
  exact ⟨session, log, positions, hdocument.trans hsame.symm, hrest⟩

section

omit [Allocation]

theorem undo_unsaved (h : text.undo = some (changed, text')) :
    (unsaved text).undo = some (changed, unsaved text') := by
  simp only [TextDocument.undo, bind_eq_bind, bind_eq_some_iff] at h ⊢
  obtain ⟨step, hstep, h⟩ := h
  refine ⟨step, hstep, ?_⟩
  rcases step with _ | ⟨transaction, history⟩
  · cases h
    rfl
  · obtain ⟨replayed, hreplay, h⟩ := bind_eq_some_iff.mp h
    cases h
    exact bind_eq_some_iff.mpr ⟨replayed, hreplay, rfl⟩

theorem redo_unsaved (h : text.redo = some (changed, text')) :
    (unsaved text).redo = some (changed, unsaved text') := by
  simp only [TextDocument.redo, bind_eq_bind, bind_eq_some_iff] at h ⊢
  obtain ⟨step, hstep, h⟩ := h
  refine ⟨step, hstep, ?_⟩
  rcases step with _ | ⟨transaction, history⟩
  · cases h
    rfl
  · obtain ⟨replayed, hreplay, h⟩ := bind_eq_some_iff.mp h
    cases h
    exact bind_eq_some_iff.mpr ⟨replayed, hreplay, rfl⟩

theorem closeTransaction_unsaved (h : text.closeTransaction = some text') :
    (unsaved text).closeTransaction = some (unsaved text') := by
  simp only [TextDocument.closeTransaction, bind_eq_bind, bind_eq_some_iff] at h ⊢
  obtain ⟨history, hhistory, h⟩ := h
  cases h
  exact ⟨history, hhistory, rfl⟩

end

/-- A transaction leaves the same but for what is remembered as saved. -/
theorem applyTransaction_unsaved (h : text.applyTransaction edits coalescable = some (.ok text')) :
    (unsaved text).applyTransaction edits coalescable = some (.ok (unsaved text')) := by
  unfold TextDocument.applyTransaction at h ⊢
  obtain ⟨admission, hprepare, h⟩ := bind_eq_some_iff.mp h
  refine bind_eq_some_iff.mpr ⟨admission, hprepare, ?_⟩
  rcases admission with reason | ⟨_ | prepared⟩
  · cases h
  · cases h
    rfl
  · obtain ⟨length, hlength, h⟩ := bind_eq_some_iff.mp h
    refine bind_eq_some_iff.mpr ⟨length, hlength, ?_⟩
    cases hsize : text.bounds.checkDeclaredSize length with
    | error reason =>
      simp only [hsize] at h
      cases h
    | ok _ =>
      simp only [hsize] at h
      have hsize' : (unsaved text).bounds.checkDeclaredSize length = .ok () := hsize
      simp only [hsize']
      obtain ⟨candidate, hcandidate, h⟩ := bind_eq_some_iff.mp h
      refine bind_eq_some_iff.mpr ⟨candidate, hcandidate, ?_⟩
      cases hbounds : text.checkBounds candidate with
      | error reason =>
        simp only [hbounds] at h
        cases h
      | ok _ =>
        simp only [hbounds] at h
        have hbounds' : (unsaved text).checkBounds candidate = .ok () := hbounds
        simp only [hbounds']
        obtain ⟨history, hhistory, h⟩ := bind_eq_some_iff.mp h
        cases h
        exact bind_eq_some_iff.mpr ⟨history, hhistory, rfl⟩

variable {updated : Text}

theorem syncFromView_unsaved (h : text.syncFromView updated = some (.ok (changed, text'))) :
    (unsaved text).syncFromView updated = some (.ok (changed, unsaved text')) := by
  unfold TextDocument.syncFromView at h ⊢
  by_cases hsame : updated = text.text
  · rw [if_pos hsame] at h
    cases h
    exact if_pos hsame
  · rw [if_neg hsame] at h
    refine (if_neg hsame).trans ?_
    obtain ⟨found, hedit, h⟩ := bind_eq_some_iff.mp h
    refine bind_eq_some_iff.mpr ⟨found, hedit, ?_⟩
    obtain ⟨result, happly, h⟩ := bind_eq_some_iff.mp h
    cases result with
    | error reason => cases h
    | ok edited =>
      cases h
      exact bind_eq_some_iff.mpr ⟨_, applyTransaction_unsaved happly, rfl⟩

theorem replace_unsaved (h : text.replace start stop replacement = some (.ok text')) :
    (unsaved text).replace start stop replacement = some (.ok (unsaved text')) := by
  unfold TextDocument.replace at h ⊢
  obtain ⟨edit, hedit, h⟩ := bind_eq_some_iff.mp h
  exact bind_eq_some_iff.mpr ⟨edit, hedit, applyTransaction_unsaved h⟩

theorem Recalls.edit {op : EditOp} (h : Recalls holds text) (hrun : op.run (unsaved text) = some (unsaved text'))
    (hholds : holds text'.text) : Recalls holds text' := by
  obtain ⟨session, log, positions, hdocument, hsession, hlog⟩ := h
  obtain ⟨session', log', positions', hedit, hsession', -, hlearnt⟩ := hsession.edit op
  obtain ⟨hrun', -, -⟩ := session_edit_keeps hedit
  rw [hdocument] at hrun'
  have hdocument' : session'.document = unsaved text' := some.inj (hrun'.symm.trans hrun)
  refine ⟨session', log', positions', hdocument', hsession', fun token seen hseen => ?_⟩
  rcases hlearnt token seen hseen with hold | rfl
  · exact hlog token seen hold
  · rw [hdocument']
    exact hholds

theorem Recalls.synced (h : Recalls holds text)
    (hsync : text.syncFromView updated = some (.ok (changed, text'))) (hholds : holds text'.text) :
    Recalls holds text' := by
  have hrun : EditOp.run (unsaved text) (.syncFromView updated) = some (unsaved text') := by
    simp only [EditOp.run, syncFromView_unsaved hsync, some_bind]
    rfl
  exact h.edit hrun hholds

theorem Recalls.replaced (h : Recalls holds text)
    (hreplace : text.replace start stop replacement = some (.ok text')) (hholds : holds text'.text) :
    Recalls holds text' := by
  have hrun : EditOp.run (unsaved text) (.replace start stop replacement) = some (unsaved text') := by
    simp only [EditOp.run, replace_unsaved hreplace, some_bind]
    rfl
  exact h.edit hrun hholds

theorem Recalls.undone (h : Recalls holds text) (hundo : text.undo = some (changed, text')) :
    Recalls holds text' := by
  obtain ⟨session, log, positions, hdocument, hsession, hlog⟩ := h
  obtain ⟨session', hstep, hsession'⟩ := hsession.walk_step (show Op.walks .undo = true from rfl)
  simp only [Session.step, hdocument, undo_unsaved hundo, some_bind] at hstep
  cases hstep
  exact ⟨_, log, positions, rfl, hsession', hlog⟩

theorem Recalls.redone (h : Recalls holds text) (hredo : text.redo = some (changed, text')) :
    Recalls holds text' := by
  obtain ⟨session, log, positions, hdocument, hsession, hlog⟩ := h
  obtain ⟨session', hstep, hsession'⟩ := hsession.walk_step (show Op.walks .redo = true from rfl)
  simp only [Session.step, hdocument, redo_unsaved hredo, some_bind] at hstep
  cases hstep
  exact ⟨_, log, positions, rfl, hsession', hlog⟩

theorem Recalls.closed (h : Recalls holds text) (hclose : text.closeTransaction = some text') :
    Recalls holds text' := by
  obtain ⟨session, log, positions, hdocument, hsession, hlog⟩ := h
  obtain ⟨document, hclose', hsession'⟩ := hsession.closed .unwritten session.savedText (by rintro token ⟨⟩)
  have hsame : ({ session.document with savedPoint := .unwritten } : TextDocument) = unsaved text := by
    rw [hdocument]
    rfl
  rw [hsame, closeTransaction_unsaved hclose] at hclose'
  cases hclose'
  exact ⟨_, log, positions, rfl, hsession', hlog⟩

variable {point : SavePoint}

theorem Recalls.marked (h : Recalls holds text) (hmark : text.markSavedAt point = some text') :
    Recalls holds text' := by
  have hclose : { text with savedPoint := .history point.token }.closeTransaction = some text' := hmark
  have hmarked : Recalls holds { text with savedPoint := .history point.token } := h.congr rfl
  exact hmarked.closed hclose

theorem recalls_of_consistent {session : Session} {log : Option Nat → Option Text} {positions : List Text}
    (h : Consistent session log positions) (hlog : ∀ token seen, log token = some seen → holds seen) :
    Recalls holds session.document :=
  ⟨{ session with document := unsaved session.document }, log, positions, rfl,
    { sound := h.sound
      trail := h.trail
      current := h.current
      befores := h.befores
      labelled := h.labelled
      fresh := h.fresh
      points := h.points
      saved := by rintro token ⟨⟩
      lines := h.lines }, hlog⟩

omit [Allocation] in
theorem holds_of_loadedLog (h : holds text.text) (token : Option Nat) (seen : Text)
    (hlog : loadedLog text.text token = some seen) : holds seen := by
  unfold loadedLog at hlog
  split at hlog
  · cases hlog
    exact h
  · cases hlog

variable {bytes : List UInt8} {bounds : DocumentBounds}

theorem recalls_loaded
    (h : TextDocument.fromBytes bytes bounds = .ok text) (hholds : holds text.text) : Recalls holds text :=
  recalls_of_consistent (consistent_loaded h) (holds_of_loadedLog hholds)

theorem recalls_unsaved
    (h : TextDocument.fromUnsavedBytes bytes bounds = .ok text) (hholds : holds text.text) : Recalls holds text :=
  recalls_of_consistent (consistent_unsaved h) (holds_of_loadedLog hholds)

theorem recalls_reloaded (h : text.reloadFrom bytes = .ok text') (hholds : holds text'.text) :
    Recalls holds text' :=
  recalls_of_consistent (consistent_reload h 0) (holds_of_loadedLog hholds)

/-- The text fits when it is saved with the form of the document. -/
structure Fitting (text : TextDocument) (seen : Text) : Prop where
  normalised : Normalised seen
  room : ({ text with text := seen } : TextDocument).toBytes.length ≤ mobileMaxSourceBytes

structure Fits (text : TextDocument) : Prop where
  bounds : text.bounds = mobileDocumentBounds
  recalls : Recalls (Fitting text) text

variable {seen : Text}

omit [Allocation] in
theorem Fitting.congr (h : Fitting text seen) (hform : SameForm text text') : Fitting text' seen where
  normalised := h.normalised
  room := by
    have hsame : ({ text' with text := seen } : TextDocument).toBytes.length =
        ({ text with text := seen } : TextDocument).toBytes.length := by
      rw [length_toBytes, length_toBytes, writtenLength, writtenLength, hform.encoding, hform.lineEnding]
    rw [hsame]
    exact h.room

theorem Fits.of_sameForm (h : Fits text) (hform : SameForm text text') (hrecalls : Recalls (Fitting text) text') :
    Fits text' where
  bounds := hform.bounds.trans h.bounds
  recalls := hrecalls.mono fun _ hfitting => hfitting.congr hform

theorem Fits.room (h : Fits text) : text.toBytes.length ≤ mobileMaxSourceBytes := h.recalls.current.room

section

omit [Allocation]

theorem checkDeclaredSize_eq_ok {size : Nat} :
    mobileDocumentBounds.checkDeclaredSize size = .ok () ↔ size ≤ mobileMaxSourceBytes := by
  unfold DocumentBounds.checkDeclaredSize
  split
  · next hlt => exact ⟨nofun, fun hle => absurd hlt (Nat.not_lt.mpr hle)⟩
  · next hle => exact ⟨fun _ => Nat.not_lt.mp hle, fun _ => rfl⟩

theorem checkLines_eq_ok : TextDocument.checkLines bounds seen = .ok () ↔
    (lines seen).length ≤ bounds.maxLines ∧ 1 ≤ bounds.maxLines ∧
      ∀ line ∈ lines seen, utf8Len line ≤ bounds.maxLineBytes := by
  have hcount : lineCount seen > bounds.maxLines ↔ ¬ ((lines seen).length ≤ bounds.maxLines ∧ 1 ≤ bounds.maxLines) := by
    unfold lineCount
    omega
  unfold TextDocument.checkLines
  by_cases hmany : lineCount seen > bounds.maxLines
  · rw [if_pos hmany]
    refine ⟨nofun, fun h => absurd ⟨h.1, h.2.1⟩ (hcount.mp hmany)⟩
  · rw [if_neg hmany]
    have hfew := not_not.mp (hcount.not.mp hmany)
    cases hlong : firstOverlongLine seen bounds.maxLineBytes with
    | none =>
      refine ⟨fun _ => ⟨hfew.1, hfew.2, fun line hline => ?_⟩, fun _ => rfl⟩
      have hnone := findIdx?_eq_none_iff.mp (map_eq_none_iff.mp hlong) line hline
      exact Nat.not_lt.mp (of_decide_eq_false hnone)
    | some number =>
      refine ⟨nofun, fun h => ?_⟩
      obtain ⟨index, hindex, -⟩ := map_eq_some_iff.mp hlong
      obtain ⟨hlt, hover, -⟩ := findIdx?_eq_some_iff_getElem.mp hindex
      exact absurd (of_decide_eq_true hover) (Nat.not_lt.mpr (h.2.2 _ (getElem_mem hlt)))

theorem utf8Len_stripCarriageReturn_le (c : Char) (line : Text) :
    utf8Len (stripCarriageReturn line) ≤ utf8Len (stripCarriageReturn (c :: line)) := by
  unfold stripCarriageReturn
  cases line with
  | nil => simp
  | cons d line =>
    rw [getLast?_cons_cons]
    split
    · simp
    · simp

theorem lines_tail {c : Char} (hc : c ≠ '\n') (rest : Text) :
    (lines rest).length ≤ (lines (c :: rest)).length ∧
      ∀ line ∈ lines rest, ∃ longer ∈ lines (c :: rest), utf8Len line ≤ utf8Len longer := by
  have hne : (c == '\n') = false := beq_false_of_ne hc
  have hsplit : (c :: rest).splitOn '\n' = (rest.splitOn '\n').modifyHead (List.cons c) := by
    rw [splitOn_cons_eq_if_modifyHead, hne, if_neg Bool.false_ne_true]
  unfold lines
  rw [hsplit]
  cases hpieces : rest.splitOn '\n' with
  | nil => exact absurd hpieces (splitOn_ne_nil _ _)
  | cons first more =>
    cases more with
    | nil =>
      by_cases hempty : first = []
      · subst hempty
        simp
      · have hshow : first.isEmpty = false := isEmpty_eq_false_iff.mpr hempty
        simp [hshow]
    | cons second more =>
      refine ⟨by simp, fun line hline => ?_⟩
      simp only [dropLast_cons_cons, map_cons, cons_append, mem_cons, modifyHead_cons,
        getLast?_cons_cons] at hline ⊢
      rcases hline with rfl | hline
      · exact ⟨_, .inl rfl, utf8Len_stripCarriageReturn_le c first⟩
      · exact ⟨line, .inr hline, le_rfl⟩

end

/-- What fits is loaded again. -/
theorem Fits.reopens (h : Fits text) :
    ∃ reopened, TextDocument.fromBytes text.toBytes mobileDocumentBounds = .ok reopened := by
  have hfitting := h.recalls.current
  have hlines := h.recalls.lines
  by_cases hmark : text.encoding = .utf8 ∧ text.text.head? = some '\uFEFF'
  · -- the mark that the text begins with is taken for one of the encoding
    obtain ⟨hencoding, hhead⟩ := hmark
    obtain ⟨rest, hrest⟩ : ∃ rest, text.text = '\uFEFF' :: rest := by
      cases htext : text.text with
      | nil =>
        rw [htext] at hhead
        cases hhead
      | cons c rest =>
        rw [htext] at hhead
        cases hhead
        exact ⟨rest, rfl⟩
    generalize hmarked : ({ text with text := rest, encoding := .utf8Bom } : TextDocument) = marked
    have hbytes : marked.toBytes = text.toBytes := by
      have hending : withEndings text.lineEnding ('\uFEFF' :: rest) = '\uFEFF' :: withEndings text.lineEnding rest := by
        unfold withEndings
        rw [flatMap_cons, if_neg (by decide)]
        rfl
      rw [← hmarked, toBytes_eq, toBytes_eq, hencoding, hrest, hending, byteOrderMark_eq]
      unfold utf8Bytes
      simp
    have hsaveable : Saveable marked := by
      have hreturn := hfitting.normalised.carriageReturn
      have hnul := hfitting.normalised.nul
      rw [hrest] at hreturn hnul
      refine ⟨?_, ?_, ?_, ?_⟩
      · rw [← hmarked]
        exact fun hmem => hreturn (mem_cons_of_mem _ hmem)
      · rw [← hmarked]
        exact fun hmem => hnul (mem_cons_of_mem _ hmem)
      · rw [← hmarked]
        rintro ⟨⟩
      · rw [← length_toBytes, hbytes, ← hmarked]
        exact h.bounds ▸ h.room
    have hmarkedLines : TextDocument.checkLines marked.bounds marked.text = .ok () := by
      rw [← hmarked]
      obtain ⟨hcount, hone, hlong⟩ := checkLines_eq_ok.mp hlines
      rw [hrest] at hcount hlong
      obtain ⟨hfewer, hshorter⟩ := @lines_tail '\uFEFF' (by decide) rest
      refine checkLines_eq_ok.mpr ⟨hfewer.trans hcount, hone, fun line hline => ?_⟩
      obtain ⟨longer, hlonger, hle⟩ := hshorter line hline
      exact hle.trans (hlong longer hlonger)
    obtain ⟨reopened, hload, -⟩ := hsaveable.reopens hmarkedLines
    have hbounds : marked.bounds = mobileDocumentBounds := by
      rw [← hmarked]
      exact h.bounds
    rw [hbytes, hbounds] at hload
    exact ⟨reopened, hload⟩
  · have hsaveable : Saveable text :=
      { carriageReturn := hfitting.normalised.carriageReturn
        nul := hfitting.normalised.nul
        mark := fun hencoding hhead => hmark ⟨hencoding, hhead⟩
        room := by
          rw [← length_toBytes, h.bounds]
          exact h.room }
    obtain ⟨reopened, hload, -⟩ := hsaveable.reopens hlines
    rw [h.bounds] at hload
    exact ⟨reopened, hload⟩

omit [Allocation] in
theorem room_of_checked {edited : TextDocument} (hpredicts : Documents.Predicts text removed inserted edited)
    (hcheck : (checkEncodedChange text removed inserted).run = some (.ok ())) :
    edited.toBytes.length ≤ mobileMaxSourceBytes := by
  rw [check_of_predicts hpredicts, ok_engine] at hcheck
  exact checkDeclaredSize_eq_ok.mp (some.inj hcheck)

theorem Fits.synced (h : Fits text) (hinserted : Normalised inserted)
    (hcheck : (checkEncodedChange text text.text inserted).run = some (.ok ()))
    (hsync : text.syncFromView inserted = some (.ok (changed, text'))) : Fits text' := by
  obtain ⟨-, hform, htext⟩ := syncFromView_spec h.recalls.sound hsync
  refine h.of_sameForm hform (h.recalls.synced hsync ?_)
  rw [htext]
  exact ⟨hinserted, room_of_checked (predicts_whole text inserted) hcheck⟩

theorem Fits.replaced (h : Fits text) (hinserted : Normalised inserted)
    (htext : text.text = front ++ (removed ++ back)) (hstart : utf8Len front = start)
    (hstop : stop = start + utf8Len removed)
    (hcheck : (checkEncodedChange text removed inserted).run = some (.ok ()))
    (hreplace : text.replace start stop inserted = some (.ok text')) : Fits text' := by
  obtain ⟨hform, hedited⟩ := Documents.replaced_text h.recalls.sound htext hstart hstop hreplace
  obtain ⟨-, -, hnormalised⟩ := replace_spec h.recalls.sound hreplace h.recalls.current.normalised hinserted
  refine h.of_sameForm hform (h.recalls.replaced hreplace ⟨hnormalised, ?_⟩)
  rw [hedited]
  exact room_of_checked (predicts_splice htext inserted) hcheck

theorem Fits.undone (h : Fits text) (hundo : text.undo = some (changed, text')) : Fits text' :=
  h.of_sameForm (sameForm_undo hundo) (h.recalls.undone hundo)

theorem Fits.redone (h : Fits text) (hredo : text.redo = some (changed, text')) : Fits text' :=
  h.of_sameForm (sameForm_redo hredo) (h.recalls.redone hredo)

theorem Fits.closed (h : Fits text) (hclose : text.closeTransaction = some text') : Fits text' :=
  h.of_sameForm (sameForm_closeTransaction hclose).1 (h.recalls.closed hclose)

theorem Fits.marked (h : Fits text) (hmark : text.markSavedAt point = some text') : Fits text' :=
  h.of_sameForm (sameForm_markSavedAt hmark).1 (h.recalls.marked hmark)

omit [Allocation] in
theorem room_of_not_oversize {loaded : TextDocument} (hsize : ¬ Oversize bytes)
    (hload : TextDocument.fromBytes bytes mobileDocumentBounds = .ok loaded) :
    loaded.toBytes.length ≤ mobileMaxSourceBytes := Nat.not_lt.mp fun hlt => hsize ⟨loaded, hload, hlt⟩

theorem fits_loaded (hsize : ¬ Oversize bytes)
    (hload : TextDocument.fromBytes bytes mobileDocumentBounds = .ok text) : Fits text where
  bounds := bounds_of_fromBytes hload
  recalls := recalls_loaded hload ⟨normalised_of_fromBytes hload, room_of_not_oversize hsize hload⟩

theorem fits_unsaved (hsize : ¬ Oversize bytes)
    (hload : TextDocument.fromUnsavedBytes bytes mobileDocumentBounds = .ok text) : Fits text := by
  obtain ⟨loaded, hloaded, rfl⟩ := TextDocument.fromUnsavedBytes_ok hload
  have hbounds := bounds_of_fromBytes hloaded
  have hnormalised := normalised_of_fromBytes hloaded
  have hroom := room_of_not_oversize hsize hloaded
  exact ⟨hbounds, recalls_unsaved hload ⟨hnormalised, hroom⟩⟩

theorem fits_reloaded (hsize : ¬ Oversize bytes) (hbounds : text.bounds = mobileDocumentBounds)
    (hreload : text.reloadFrom bytes = .ok text') : Fits text' := by
  obtain ⟨loaded, hloaded, hbytes⟩ := Procedure.bind_eq_ok.mp hreload
  rw [hbounds] at hloaded
  have hnormalised := normalised_of_fromBytes hloaded
  have hroom := room_of_not_oversize hsize hloaded
  cases hbytes
  exact ⟨hbounds, recalls_reloaded hreload ⟨hnormalised, hroom⟩⟩

end

end FesTerm.MobileDocs
