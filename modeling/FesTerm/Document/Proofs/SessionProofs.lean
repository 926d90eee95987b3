import FesTerm.Document.Session
import FesTerm.Document.Proofs.TextProofs
import FesTerm.Document.Proofs.LoadingProofs

/-!
# Session proofs

`Consistent` ties a session to the timeline of its undo history. The positions of the timeline are
texts, the entries lead from one to the next, and a log gives every token that was ever handed out
since the last load the text it stands for. A step of the session extends the log, which is why a
token seen before means what it meant then; only a load starts a new log.
-/

namespace FesTerm.Document

open Checked Splicing Timeline List Option

/-! ## Closing entries -/

/-- The same entries but for the marks of open transactions, none of which is new. -/
structure Alike (entries entries' : List Transaction) : Prop where
  serials : entries'.map Transaction.serial = entries.map Transaction.serial
  edits : entries'.map Transaction.edits = entries.map Transaction.edits
  opens : ∀ entry' ∈ entries', entry'.isOpen = true →
    ∃ entry ∈ entries, entry.isOpen = true ∧ entry'.edits = entry.edits

theorem Alike.refl (entries : List Transaction) : Alike entries entries :=
  ⟨rfl, rfl, fun entry h ho => ⟨entry, h, ho, rfl⟩⟩

variable {entries : List Transaction}

variable {entries' : List Transaction}

theorem Alike.length (h : Alike entries entries') : entries'.length = entries.length := by
  simpa using congrArg List.length h.serials

variable {entry : Transaction} {index : Nat}

theorem alike_set (hentry : entries[index]? = some entry) :
    Alike entries (entries.set index { entry with isOpen := false }) := by
  obtain ⟨hlt, rfl⟩ := List.getElem?_eq_some_iff.mp hentry
  refine ⟨?_, ?_, ?_⟩
  · rw [map_set, ← getElem_map Transaction.serial (h := by simpa using hlt)]
    exact set_getElem_self _
  · rw [map_set, ← getElem_map Transaction.edits (h := by simpa using hlt)]
    exact set_getElem_self _
  · intro entry' hmem hopen
    rcases mem_or_eq_of_mem_set hmem with hmem | rfl
    · exact ⟨entry', hmem, hopen, rfl⟩
    · cases hopen

variable {applied : Nat}

namespace UndoHistory

variable {history : UndoHistory}

theorem closeEntry_spec (hlt : index < history.entries.length) :
    ∃ entries, history.closeEntry index = some { history with entries := entries } ∧
      Alike history.entries entries := by
  have hentry := getElem?_eq_getElem hlt
  refine ⟨_, ?_, alike_set hentry⟩
  simp only [closeEntry, hentry, setAt_eq hlt, splice_singleton hlt, bind_eq_bind, bind_some]
  rfl

theorem closeTransaction_spec (h : history.applied ≤ history.entries.length) :
    ∃ entries, history.closeTransaction = some { history with entries := entries } ∧
      Alike history.entries entries := by
  unfold closeTransaction
  split
  · exact ⟨history.entries, rfl, .refl _⟩
  · rename_i index happlied
    exact closeEntry_spec (by omega)

theorem labels_alike {entries : List Transaction} (applied : Nat) (h : Alike history.entries entries) :
    { history with entries := entries, applied := applied }.labels = history.labels := by
  have hserials := congrArg (List.map some) h.serials
  simp only [List.map_map] at hserials
  simp only [labels, List.cons.injEq, true_and]
  exact hserials

variable [Allocation]

theorem Sound.alike (hsound : history.Sound) {entries : List Transaction}
    (h : Alike history.entries entries) (happlied : applied ≤ entries.length) :
    { history with entries := entries, applied := applied }.Sound := by
  refine ⟨happlied, ?_, ?_⟩
  · have hedits := congrArg (fun edits => (edits.map editStorage).sum) h.edits
    simp only [List.map_map] at hedits
    rw [hsound.payload]
    exact hedits.symm
  · intro entry' hmem hopen
    obtain ⟨entry, hentry, hopen', hsame⟩ := h.opens entry' hmem hopen
    rw [hsame]
    exact hsound.opens entry hentry hopen'

end UndoHistory

abbrev UndoTrail (positions : List Text) (entries : List Transaction) : Prop :=
  Trail (fun entry : Transaction => Edits 0 entry.edits) positions entries

theorem UndoTrail.alike {positions : List Text}
    (htrail : UndoTrail positions entries) (h : Alike entries entries') : UndoTrail positions entries' := by
  refine htrail.congr h.length ?_
  intro i entry' hi
  have hlt : i < entries.length := by
    rw [← h.length]
    exact (List.getElem?_eq_some_iff.mp hi).1
  have hedits := congrArg (fun edits => edits[i]?) h.edits
  simp only [getElem?_map, hi, getElem?_eq_getElem hlt, map_some,
    some.injEq] at hedits
  exact ⟨entries[i], getElem?_eq_getElem hlt, fun before after hstep => hedits ▸ hstep⟩

/-! ## Editing operations -/

variable (op : EditOp)

/-- The transaction of an editing operation fits the text. -/
theorem EditOp.transaction_spec (document : TextDocument) :
    ∃ plan, op.transaction document = some plan ∧
      ∀ edits coalescable, plan = some (edits, coalescable) →
        ∃ after, Edits 0 edits document.text after := by
  cases op with
  | replace start stop replacement =>
    obtain ⟨edit, after, hedit, hfits⟩ := document.editFor_spec start stop replacement
    refine ⟨some ([edit], false), ?_, ?_⟩
    · simp only [transaction, hedit]
      rfl
    · rintro _ _ ⟨⟩
      exact ⟨after, hfits⟩
  | syncFromView updated =>
    simp only [transaction]
    split
    · exact ⟨none, rfl, by rintro _ _ ⟨⟩⟩
    · obtain ⟨edit, coalescable, hedit, hfits⟩ := document.syncEdit_spec updated
      refine ⟨some ([edit], coalescable), ?_, ?_⟩
      · simp only [hedit]
        rfl
      · rintro _ _ ⟨⟩
        exact ⟨updated, hfits⟩
  | replaceAll query replacement =>
    simp only [transaction]
    split
    · exact ⟨none, rfl, by rintro _ _ ⟨⟩⟩
    · rename_i hquery
      split
      · exact ⟨none, rfl, by rintro _ _ ⟨⟩⟩
      · refine ⟨_, rfl, ?_⟩
        rintro _ _ ⟨⟩
        exact edits_of_matchOffsets hquery document.text 0
  | applyEdits edits =>
    simp only [transaction]
    split
    · exact ⟨none, rfl, by rintro _ _ ⟨⟩⟩
    · have hfront : document.text = [] ++ document.text := rfl
      obtain ⟨validation, hvalid, hfits⟩ := TextDocument.validateEdits_spec edits [] _ hfront
      simp only [utf8Len_nil] at hvalid hfits
      cases validation with
      | error refusal =>
        refine ⟨none, ?_, by rintro _ _ ⟨⟩⟩
        simp only [hvalid]
        rfl
      | ok =>
        refine ⟨some (edits, false), ?_, ?_⟩
        · simp only [hvalid]
          rfl
        · rintro _ _ ⟨⟩
          exact hfits rfl

section Editing

variable [Allocation]

/-- An editing operation is its transaction. -/
theorem EditOp.run_eq {document : TextDocument}
    {plan : Option (List TextEdit × Bool)} (hplan : op.transaction document = some plan) :
    op.run document = (match plan with
      | none => some document
      | some (edits, coalescable) =>
        (document.applyTransaction edits coalescable).map fun result =>
          match result with
          | .ok document' => document'
          | .error _ => document) := by
  cases op with
  | replace start stop replacement =>
    simp only [transaction, bind_eq_bind, bind_eq_some_iff] at hplan
    obtain ⟨edit, hedit, hsome⟩ := hplan
    cases hsome
    simp only [run, TextDocument.replace, hedit, some_bind]
    cases document.applyTransaction [edit] false with
    | none => rfl
    | some result => cases result <;> rfl
  | syncFromView updated =>
    simp only [transaction] at hplan
    simp only [run, TextDocument.syncFromView]
    split at hplan
    · rename_i hsame
      cases hplan
      simp only [hsame, if_true]
      rfl
    · rename_i hdiffer
      simp only [bind_eq_bind, bind_eq_some_iff] at hplan
      obtain ⟨⟨edit, coalescable⟩, hedit, hsome⟩ := hplan
      cases hsome
      simp only [hdiffer, if_false, hedit, some_bind]
      cases document.applyTransaction [edit] coalescable with
      | none => rfl
      | some result => cases result <;> rfl
  | replaceAll query replacement =>
    simp only [transaction] at hplan
    simp only [run, TextDocument.replaceAll]
    split at hplan
    · rename_i hquery
      cases hplan
      simp only [hquery, dif_pos]
      rfl
    · rename_i hquery
      simp only [hquery, dif_neg, not_false_eq_true]
      split at hplan
      · rename_i hnone
        cases hplan
        split
        · rfl
        · rename_i hdiffer
          simp only [hdiffer, false_or] at hnone
          simp only [hnone, if_true]
          rfl
      · rename_i hsome
        cases hplan
        rw [not_or] at hsome
        simp only [hsome.1, hsome.2, if_false]
        cases document.applyTransaction (document.replaceAllEdits query hquery replacement) false with
        | none => rfl
        | some result => cases result <;> rfl
  | applyEdits edits =>
    simp only [transaction] at hplan
    simp only [run, TextDocument.applyEdits]
    split at hplan
    · rename_i hempty
      cases hplan
      simp only [hempty, if_true]
      rfl
    · rename_i hsome
      simp only [bind_eq_bind, bind_eq_some_iff] at hplan
      obtain ⟨validation, hvalid, hresult⟩ := hplan
      simp only [hsome, hvalid, some_bind]
      cases validation with
      | error refusal =>
        cases hresult
        rfl
      | ok =>
        cases hresult
        simp only
        cases document.applyTransaction edits false with
        | none => rfl
        | some result => cases result <;> rfl

end Editing

variable {session' : Session}

theorem Session.edit_loads [Allocation] {session : Session} {op : EditOp}
    (h : session.edit op = some session') : session'.loads = session.loads := by
  simp only [Session.edit, bind_eq_bind, bind_eq_some_iff] at h
  obtain ⟨document, -, plan, -, h⟩ := h
  rcases plan with _ | ⟨edits, coalescable⟩
  · cases h
    rfl
  · simp only [bind_eq_some_iff] at h
    obtain ⟨befores, -, h⟩ := h
    cases h
    rfl

/-! ## Consistent sessions -/

variable {text : Text}

theorem TextDocument.checkLines_of_checkBounds {document : TextDocument}
    (h : document.checkBounds text = .ok ()) :
    TextDocument.checkLines document.bounds text = .ok () := by
  unfold TextDocument.checkBounds at h
  cases hsize : document.bounds.checkDeclaredSize (utf8Len text) with
  | error reason =>
    rw [hsize] at h
    cases h
  | ok =>
    rw [hsize] at h
    exact h

section Sessions

variable [Allocation]

/-- What a session is after any run: its undo history is a timeline of texts, with the current text
at the current position, and everything it remembers is what the log says. -/
structure Consistent (session : Session) (log : Option Nat → Option Text) (positions : List Text) :
    Prop where
  sound : session.document.undoHistory.Sound
  trail : UndoTrail positions session.document.undoHistory.entries
  current : positions[session.document.undoHistory.applied]? = some session.document.text
  befores : session.befores = positions.take session.document.undoHistory.entries.length
  labelled : Labelled log session.document.undoHistory.labels positions
  fresh : ∀ serial text, log (some serial) = some text →
    serial < session.document.undoHistory.nextSerial
  points : ∀ point ∈ session.points, log point.1.token = some point.2
  saved : ∀ token, session.document.savedPoint = .history token →
    ∃ text, log token = some text ∧ session.savedText = some text
  lines : ∀ token text, log token = some text →
    TextDocument.checkLines session.document.bounds text = .ok ()

namespace Consistent

variable {session : Session} {log : Option Nat → Option Text} {positions : List Text}

theorem token (h : Consistent session log positions) :
    log session.document.undoHistory.token = some session.document.text :=
  h.labelled.get (UndoHistory.labels_applied h.sound.applied_le) h.current

theorem clean (h : Consistent session log positions) (hclean : session.document.isDirty = false) :
    session.savedText = some session.document.text := by
  unfold TextDocument.isDirty at hclean
  split at hclean
  · cases hclean
  · rename_i token hsaved
    obtain ⟨text, hlog, hremembered⟩ := h.saved token hsaved
    have htoken : session.document.undoHistory.token = token := by simpa using hclean
    rw [← htoken, h.token] at hlog
    rw [hremembered, ← hlog]

/-- Moving along the timeline, closing entries and saving keep a session consistent. -/
theorem moved (h : Consistent session log positions) {entries : List Transaction}
    (hentries : Alike session.document.undoHistory.entries entries)
    (happlied : applied ≤ entries.length)
    (hhistory : session'.document.undoHistory =
      { session.document.undoHistory with entries := entries, applied := applied })
    (hcurrent : positions[applied]? = some text) (htext : session'.document.text = text)
    (hbounds : session'.document.bounds = session.document.bounds)
    (hbefores : session'.befores = session.befores)
    (hpoints : ∀ point ∈ session'.points, log point.1.token = some point.2)
    (hsaved : ∀ token, session'.document.savedPoint = .history token →
      ∃ text, log token = some text ∧ session'.savedText = some text) :
    Consistent session' log positions := by
  constructor
  · rw [hhistory]
    exact h.sound.alike hentries happlied
  · rw [hhistory]
    exact UndoTrail.alike h.trail hentries
  · rw [hhistory, htext]
    exact hcurrent
  · rw [hbefores, hhistory, h.befores]
    simp only [hentries.length]
  · rw [hhistory, UndoHistory.labels_alike applied hentries]
    exact h.labelled
  · rw [hhistory]
    exact h.fresh
  · exact hpoints
  · exact hsaved
  · rw [hbounds]
    exact h.lines

variable {prepared : PreparedUndo} {m : Nat}

theorem leadsTo (h : Consistent session log positions) {edits : List TextEdit} {history : UndoHistory}
    (hcommitted : UndoHistory.Committed session.document.undoHistory edits prepared m entry history) :
    ∃ before, positions[m]? = some before ∧
      session.document.undoHistory.LeadsTo m before session.document.text := by
  have hposition := hcommitted.position
  have happlied := h.sound.applied_le
  split at hposition
  · rename_i hmerged
    have hpos := hcommitted.applied_pos hmerged
    have hlast := getElem?_eq_getElem
      (show m < session.document.undoHistory.entries.length by omega)
    obtain ⟨before, after, hb, ha, hstep⟩ := h.trail.steps m _ hlast
    rw [show m + 1 = session.document.undoHistory.applied by omega, h.current] at ha
    cases ha
    exact ⟨before, hb, .inr ⟨_, by omega, hlast, hstep⟩⟩
  · subst hposition
    exact ⟨_, h.current, .inl ⟨rfl, rfl⟩⟩

/-- A committed transaction keeps a session consistent: the log learns what its fresh token stands
for. -/
theorem committed (h : Consistent session log positions) {history : UndoHistory} {after : Text} (revision : UInt64)
    (hcommitted : UndoHistory.Committed session.document.undoHistory prepared.edits prepared m entry
      history)
    (hsound : history.Sound) (hedits : Edits 0 prepared.edits session.document.text after)
    (hbounds : session.document.checkBounds after = .ok ()) :
    ∃ log' positions', Consistent
      { session with
        document := { session.document with
          undoHistory := history, text := after, revision := revision }
        befores := Session.record session.document session.befores prepared } log' positions' ∧
      Extends log log' ∧ ∀ token text, log' token = some text → log token = some text ∨ text = after := by
  have happlied := h.sound.applied_le
  have hlength := h.trail.length
  have hretired := hcommitted.retired_le
  have hm : m ≤ session.document.undoHistory.applied := by
    rw [hcommitted.position]
    split <;> omega
  obtain ⟨before, hbefore, hleads⟩ := h.leadsTo hcommitted
  generalize hr : prepared.retention.retired = r at *
  -- what is left of the timeline
  have hkept := (h.trail.take (Nat.le_trans hm happlied)).drop
    (by simp only [length_take]; omega : r ≤ _)
  have hlast : ((positions.take (m + 1)).drop r).getLast? = some before := by
    rw [getLast?_drop, if_neg (by simp only [length_take]; omega), getLast?_take,
      if_neg (by omega), Nat.add_sub_cancel, hbefore]
    rfl
  have htrail := hkept.snoc hlast (hcommitted.joins hleads hedits)
  have hfresh : log (some session.document.undoHistory.nextSerial) = none := by
    cases hlog : log (some session.document.undoHistory.nextSerial) with
    | none => rfl
    | some text => exact absurd (h.fresh _ _ hlog) (Nat.lt_irrefl _)
  have hext := extends_update hfresh after
  have hentries := hcommitted.entries
  have hlabels := hcommitted.labels
  rw [hr] at hentries hlabels
  rw [← hentries] at htrail
  have hend : history.entries.length = ((positions.take (m + 1)).drop r).length := by
    have := htrail.length
    simp only [length_append, length_singleton] at this
    omega
  have hlearnt : ∀ token text,
      Function.update log (some session.document.undoHistory.nextSerial) (some after) token = some text →
        log token = some text ∨ text = after := by
    intro token text hlog
    by_cases hnew : token = some session.document.undoHistory.nextSerial
    · rw [hnew, Function.update_self] at hlog
      exact .inr (some.inj hlog).symm
    · rw [Function.update_of_ne hnew] at hlog
      exact .inl hlog
  refine ⟨_, _, ⟨hsound, htrail, ?_, ?_, ?_, ?_, ?_, ?_, ?_⟩, hext, hlearnt⟩
  · change (_ : List Text)[history.applied]? = some after
    rw [hcommitted.applied, hend, getElem?_concat_length]
  · change Session.record _ _ _ = List.take history.entries.length _
    rw [hend, take_left' rfl, Session.record, h.befores, hr, take_take, Nat.min_eq_left happlied]
    have hposition := hcommitted.position
    split
    · rename_i hmerged
      have hpos := hcommitted.applied_pos hmerged
      rw [if_pos hmerged] at hposition
      rw [show m + 1 = session.document.undoHistory.applied by omega]
    · rename_i hfreshEntry
      rw [if_neg hfreshEntry] at hposition
      subst hposition
      rw [take_add_one, h.current, drop_append_of_le_length]
      · rfl
      · simp only [length_take]
        omega
  · rw [hlabels]
    exact (((h.labelled.take (m + 1)).drop r).mono hext).snoc (Function.update_self _ _ _)
  · intro serial text hlog
    rw [hcommitted.nextSerial]
    by_cases hnew : serial = session.document.undoHistory.nextSerial
    · omega
    · rw [Function.update_of_ne (by simpa using hnew)] at hlog
      exact Nat.lt_succ_of_lt (h.fresh serial text hlog)
  · exact fun point hmem => hext _ _ (h.points point hmem)
  · intro token hsaved
    obtain ⟨text, hlog, hremembered⟩ := h.saved token hsaved
    exact ⟨text, hext _ _ hlog, hremembered⟩
  · intro token text hlog
    by_cases hnew : token = some session.document.undoHistory.nextSerial
    · rw [hnew, Function.update_self] at hlog
      cases hlog
      exact TextDocument.checkLines_of_checkBounds hbounds
    · rw [Function.update_of_ne hnew] at hlog
      exact h.lines token text hlog

/-- An editing operation keeps a session consistent. The log learns nothing but the new text. -/
theorem edit (h : Consistent session log positions) (op : EditOp) :
    ∃ session' log' positions', session.edit op = some session' ∧
      Consistent session' log' positions' ∧ Extends log log' ∧
      ∀ token text, log' token = some text → log token = some text ∨ text = session'.document.text := by
  obtain ⟨plan, hplan, hfits⟩ := op.transaction_spec session.document
  have hrun := op.run_eq hplan
  rcases plan with _ | ⟨edits, coalescable⟩
  · refine ⟨session, log, positions, ?_, h, .refl log, fun _ _ => .inl⟩
    simp only [Session.edit, hrun, hplan, some_bind]
    rfl
  · obtain ⟨after, hedits⟩ := hfits edits coalescable rfl
    obtain ⟨result, happly, hresult⟩ :=
      TextDocument.applyTransaction_spec coalescable h.sound hedits
    simp only [happly, map_some] at hrun
    rcases result with reason | document
    · refine ⟨session, log, positions, ?_, h, .refl log, fun _ _ => .inl⟩
      simp only [Session.edit, Session.recordTransaction, hrun, hplan, happly, bind_eq_bind,
        bind_some]
      rfl
    · cases (hresult document rfl).1 with
      | unchanged hprepared =>
        refine ⟨session, log, positions, ?_, h, .refl log, fun _ _ => .inl⟩
        simp only [Session.edit, Session.recordTransaction, hrun, hplan, happly, hprepared, some_bind]
        rfl
      | changed prepared m entry history after hprepared hcommitted hsound hedits hbounds =>
        obtain ⟨log', positions', hconsistent, hext, hlearnt⟩ :=
          h.committed (session.document.revision + 1) hcommitted hsound hedits hbounds
        refine ⟨_, log', positions', ?_, hconsistent, hext, hlearnt⟩
        simp only [Session.edit, Session.recordTransaction, hrun, hplan, happly, hprepared, some_bind]
        rfl

/-- The entry of an undo, and what it leads back to. -/
structure Undone (session : Session) (positions : List Text) (index : Nat) (entry : Transaction)
    (before : Text) (document : TextDocument) : Prop where
  applied : session.document.undoHistory.applied = index + 1
  found : (session.document.undoHistory.entries[index]?).map Transaction.edits = some entry.edits
  position : positions[index]? = some before
  edits : Edits 0 entry.edits before session.document.text
  result : session.document.undo = some (true, document)
  text : document.text = before
  arrived : document.undoHistory.applied = index
  length : document.undoHistory.entries.length = session.document.undoHistory.entries.length

/-- An undo arrives at the position in front of the current one. -/
theorem undo_spec (h : Consistent session log positions) : (session.document.undoHistory.applied = 0 ∧
      session.document.undo = some (false, session.document)) ∨
    ∃ index entry before document, Undone session positions index entry before document ∧
      Consistent { session with document := document } log positions := by
  cases happlied : session.document.undoHistory.applied with
  | zero =>
    left
    refine ⟨rfl, ?_⟩
    simp only [TextDocument.undo, UndoHistory.stepBack, happlied]
    rfl
  | succ index =>
    right
    have hle := h.sound.applied_le
    obtain ⟨entries, hclose, halike⟩ := UndoHistory.closeTransaction_spec hle
    have hlt : index < entries.length := by
      rw [halike.length]
      omega
    have hentry := getElem?_eq_getElem hlt
    obtain ⟨before, after, hbefore, hafter, hedits⟩ :=
      (UndoTrail.alike h.trail halike).steps index _ hentry
    rw [← happlied, h.current] at hafter
    cases hafter
    have hreplay := replayOrderedEdits_eq .undo hedits
    simp only [EditDirection.source, EditDirection.target] at hreplay
    refine ⟨index, entries[index], before, { session.document with
      text := before
      undoHistory := { session.document.undoHistory with entries := entries, applied := index }
      revision := session.document.revision + 1 },
      ⟨happlied, ?_, hbefore, hedits, ?_, rfl, rfl, halike.length⟩, ?_⟩
    rotate_left
    · simp only [TextDocument.undo, UndoHistory.stepBack, happlied, hclose, hentry,
        some_bind, map_some, Option.pure_def]
      rw [hreplay]
      rfl
    · exact h.moved halike (Nat.le_of_lt hlt) rfl hbefore rfl rfl rfl h.points h.saved
    · have hedits := congrArg (fun edits => edits[index]?) halike.edits
      simp only [getElem?_map, hentry, map_some] at hedits
      exact hedits.symm

/-- The entry of a redo, and what it leads to. -/
structure Redone (session : Session) (positions : List Text) (entry : Transaction)
    (after : Text) (document : TextDocument) : Prop where
  found : session.document.undoHistory.entries[session.document.undoHistory.applied]? = some entry
  position : positions[session.document.undoHistory.applied + 1]? = some after
  edits : Edits 0 entry.edits session.document.text after
  result : session.document.redo = some (true, document)
  text : document.text = after
  arrived : document.undoHistory.applied = session.document.undoHistory.applied + 1

/-- A redo arrives at the position behind the current one. -/
theorem redo_spec (h : Consistent session log positions) :
    (session.document.undoHistory.applied = session.document.undoHistory.entries.length ∧
      session.document.redo = some (false, session.document)) ∨
    ∃ entry after document, Redone session positions entry after document ∧
      Consistent { session with document := document } log positions := by
  have hle := h.sound.applied_le
  cases hentry : session.document.undoHistory.entries[session.document.undoHistory.applied]? with
  | none =>
    left
    refine ⟨Nat.le_antisymm hle (List.getElem?_eq_none_iff.mp hentry), ?_⟩
    simp only [TextDocument.redo, UndoHistory.stepForward, hentry]
    rfl
  | some entry =>
    right
    have hlt := (List.getElem?_eq_some_iff.mp hentry).1
    obtain ⟨entries, hclose, halike⟩ := UndoHistory.closeEntry_spec hlt
    obtain ⟨before, after, hbefore, hafter, hedits⟩ := h.trail.steps _ _ hentry
    rw [h.current] at hbefore
    cases hbefore
    have hreplay := replayOrderedEdits_eq .forward hedits
    simp only [EditDirection.source, EditDirection.target] at hreplay
    refine ⟨entry, after, { session.document with
      text := after
      undoHistory := { session.document.undoHistory with
        entries := entries, applied := session.document.undoHistory.applied + 1 }
      revision := session.document.revision + 1 }, ⟨hentry, hafter, hedits, ?_, rfl, rfl⟩, ?_⟩
    rotate_left
    · exact h.moved halike (by rw [halike.length]; exact hlt) rfl hafter rfl rfl rfl h.points h.saved
    · simp only [TextDocument.redo, UndoHistory.stepForward, hentry, hclose, hreplay,
        some_bind, Option.pure_def]

end Consistent

/-! ## Loading -/

def loadedLog (text : Text) (token : Option Nat) : Option Text :=
  if token = none then some text else none

variable {session : Session} {bytes : List UInt8} {document : TextDocument}

/-- A session that starts from an empty history. -/
theorem consistent_start (hentries : session.document.undoHistory.entries = [])
    (happlied : session.document.undoHistory.applied = 0)
    (hbase : session.document.undoHistory.baseToken = none)
    (hpayload : session.document.undoHistory.payloadBytes = 0)
    (hbefores : session.befores = []) (hpoints : session.points = [])
    (hsaved : ∀ token, session.document.savedPoint = .history token →
      token = none ∧ session.savedText = some session.document.text)
    (hlines : TextDocument.checkLines session.document.bounds session.document.text = .ok ()) :
    Consistent session (loadedLog session.document.text) [session.document.text] := by
  constructor
  · refine ⟨by omega, ?_, ?_⟩
    · rw [hpayload, hentries]
      rfl
    · rw [hentries]
      simp
  · rw [hentries]
    exact .single _
  · rw [happlied]
    rfl
  · rw [hbefores, hentries]
    rfl
  · rw [UndoHistory.labels, hentries, hbase]
    exact .cons rfl .nil
  · intro serial text hlog
    simp [loadedLog] at hlog
  · rw [hpoints]
    simp
  · intro token htoken
    obtain ⟨rfl, hremembered⟩ := hsaved token htoken
    exact ⟨_, rfl, hremembered⟩
  · intro token text hlog
    unfold loadedLog at hlog
    split at hlog
    · cases hlog
      exact hlines
    · cases hlog

variable {bounds : DocumentBounds}

theorem consistent_loaded (h : TextDocument.fromBytes bytes bounds = .ok document) :
    Consistent (.loaded document) (loadedLog document.text) [document.text] := by
  obtain ⟨body, haccepts, rfl⟩ := TextDocument.fromBytes_eq_ok_iff.mp h
  refine consistent_start rfl rfl rfl rfl rfl rfl ?_ haccepts.lines
  rintro token ⟨⟩
  exact ⟨rfl, rfl⟩

theorem consistent_unsaved (h : TextDocument.fromUnsavedBytes bytes bounds = .ok document) :
    Consistent (.unsaved document) (loadedLog document.text) [document.text] := by
  obtain ⟨loaded, hload, rfl⟩ := TextDocument.fromUnsavedBytes_ok h
  obtain ⟨body, haccepts, rfl⟩ := TextDocument.fromBytes_eq_ok_iff.mp hload
  refine consistent_start rfl rfl rfl rfl rfl rfl ?_ haccepts.lines
  rintro token ⟨⟩

theorem consistent_reload {previous : TextDocument}
    (hreload : previous.reloadFrom bytes = .ok document) (loads : Nat) :
    Consistent { Session.loaded document with loads := loads } (loadedLog document.text)
      [document.text] := by
  obtain ⟨loaded, hload, h⟩ := Procedure.bind_eq_ok.mp hreload
  cases h
  obtain ⟨body, haccepts, rfl⟩ := TextDocument.fromBytes_eq_ok_iff.mp hload
  refine consistent_start rfl rfl rfl rfl rfl rfl ?_ haccepts.lines
  rintro token ⟨⟩
  exact ⟨rfl, rfl⟩

namespace Consistent

variable {session : Session} {log : Option Nat → Option Text} {positions : List Text}

theorem closed (h : Consistent session log positions) (savedPoint : SavedPoint) (savedText : Option Text)
    (hsaved : ∀ token, savedPoint = .history token →
      ∃ text, log token = some text ∧ savedText = some text) :
    ∃ document, { session.document with savedPoint := savedPoint }.closeTransaction = some document ∧
      Consistent { session with document := document, savedText := savedText } log positions := by
  obtain ⟨entries, hclose, halike⟩ := UndoHistory.closeTransaction_spec h.sound.applied_le
  have hle : session.document.undoHistory.applied ≤ entries.length := by
    rw [halike.length]
    exact h.sound.applied_le
  refine ⟨{ session.document with
    savedPoint := savedPoint
    undoHistory := { session.document.undoHistory with entries := entries } }, ?_, ?_⟩
  · simp only [TextDocument.closeTransaction, hclose, some_bind]
    rfl
  · exact h.moved halike hle rfl h.current rfl rfl rfl h.points hsaved

/-- One operation keeps a session consistent, and extends the log unless it loads. -/
theorem step (h : Consistent session log positions) (op : Op) :
    ∃ session' log' positions', session.step op = some session' ∧
      Consistent session' log' positions' ∧ session.loads ≤ session'.loads ∧
      (session'.loads = session.loads → Extends log log') := by
  cases op with
  | edit op =>
    obtain ⟨session', log', positions', hstep, hconsistent, hext, -⟩ := h.edit op
    refine ⟨session', log', positions', hstep, hconsistent, ?_, fun _ => hext⟩
    exact Nat.le_of_eq (Session.edit_loads hstep).symm
  | closeTransaction =>
    obtain ⟨document, hclose, hconsistent⟩ := h.closed _ _ h.saved
    refine ⟨_, log, positions, ?_, hconsistent, le_rfl, fun _ => .refl log⟩
    have hclose' : session.document.closeTransaction = some document := hclose
    simp only [Session.step, hclose', some_bind]
    rfl
  | undo =>
    rcases h.undo_spec with ⟨-, hundo⟩ | ⟨index, entry, before, document, hundone, hconsistent⟩
    · refine ⟨session, log, positions, ?_, h, le_rfl, fun _ => .refl log⟩
      simp only [Session.step, hundo, some_bind]
      rfl
    · refine ⟨_, log, positions, ?_, hconsistent, le_rfl, fun _ => .refl log⟩
      simp only [Session.step, hundone.result, some_bind]
      rfl
  | redo =>
    rcases h.redo_spec with ⟨-, hredo⟩ | ⟨entry, after, document, hredone, hconsistent⟩
    · refine ⟨session, log, positions, ?_, h, le_rfl, fun _ => .refl log⟩
      simp only [Session.step, hredo, some_bind]
      rfl
    · refine ⟨_, log, positions, ?_, hconsistent, le_rfl, fun _ => .refl log⟩
      simp only [Session.step, hredone.result, some_bind]
      rfl
  | markSaved =>
    obtain ⟨document, hclose, hconsistent⟩ := h.closed
      (.history session.document.undoHistory.token) (some session.document.text) (by
        rintro token ⟨⟩
        exact ⟨_, h.token, rfl⟩)
    refine ⟨_, log, positions, ?_, hconsistent, le_rfl, fun _ => .refl log⟩
    simp only [Session.step, TextDocument.markSaved, hclose, some_bind]
    rfl
  | takeSavePoint =>
    refine ⟨_, log, positions, rfl, ?_, le_rfl, fun _ => .refl log⟩
    refine { h with points := ?_ }
    intro point hmem
    rcases mem_cons.mp hmem with rfl | hmem
    · exact h.token
    · exact h.points point hmem
  | markSavedAt index =>
    cases hpoint : session.points[index]? with
    | none =>
      refine ⟨session, log, positions, ?_, h, le_rfl, fun _ => .refl log⟩
      simp only [Session.step, hpoint]
    | some entry =>
      obtain ⟨point, text⟩ := entry
      obtain ⟨document, hclose, hconsistent⟩ := h.closed (.history point.token) (some text) (by
          rintro token ⟨⟩
          exact ⟨_, h.points _ (mem_of_getElem? hpoint), rfl⟩)
      refine ⟨_, log, positions, ?_, hconsistent, le_rfl, fun _ => .refl log⟩
      simp only [Session.step, hpoint, TextDocument.markSavedAt, hclose, bind_eq_bind,
        bind_some]
      rfl
  | reloadFrom bytes =>
    cases hreload : session.document.reloadFrom bytes with
    | error reason =>
      refine ⟨session, log, positions, ?_, h, le_rfl, fun _ => .refl log⟩
      simp only [Session.step, hreload]
    | ok document =>
      refine ⟨_, _, _, ?_, consistent_reload hreload (session.loads + 1), Nat.le_succ _, ?_⟩
      · simp only [Session.step, hreload]
      · intro hloads
        exact absurd hloads (Nat.succ_ne_self _)

theorem run : ∀ (ops : List Op) {session : Session} {log : Option Nat → Option Text}
    {positions : List Text}, Consistent session log positions →
    ∃ session' log' positions', session.run ops = some session' ∧
      Consistent session' log' positions' ∧ session.loads ≤ session'.loads ∧
      (session'.loads = session.loads → Extends log log') := by
  intro ops
  induction ops with
  | nil =>
    intro session log positions h
    exact ⟨session, log, positions, rfl, h, le_rfl, fun _ => .refl log⟩
  | cons op ops ih =>
    intro session log positions h
    obtain ⟨session₁, log₁, positions₁, hstep, h₁, hle₁, hext₁⟩ := h.step op
    obtain ⟨session₂, log₂, positions₂, hrun, h₂, hle₂, hext₂⟩ := ih h₁
    refine ⟨session₂, log₂, positions₂, ?_, h₂, Nat.le_trans hle₁ hle₂, ?_⟩
    · simp only [Session.run, foldlM_cons, hstep, some_bind]
      exact hrun
    · intro hloads
      exact (hext₁ (by omega)).trans (hext₂ (by omega))

end Consistent

/-! ## Clean documents and exact histories -/

/-- The session of a document that was just opened. -/
inductive Opened : Session → Prop
  | loaded {bytes : List UInt8} {bounds : DocumentBounds} {document : TextDocument}
      (h : TextDocument.fromBytes bytes bounds = .ok document) : Opened (.loaded document)
  | unsaved {bytes : List UInt8} {bounds : DocumentBounds} {document : TextDocument}
      (h : TextDocument.fromUnsavedBytes bytes bounds = .ok document) : Opened (.unsaved document)

theorem Opened.consistent (h : Opened session) :
    Consistent session (loadedLog session.document.text) [session.document.text] := by
  cases h with
  | loaded h => exact consistent_loaded h
  | unsaved h => exact consistent_unsaved h

/-- The operations that walk the undo history. -/
def Op.walks : Op → Bool
  | undo => true
  | redo => true
  | _ => false

theorem Consistent.walk_step {log : Option Nat → Option Text}
    {positions : List Text} (h : Consistent session log positions) {op : Op} (hwalk : op.walks = true) :
    ∃ session', session.step op = some session' ∧ Consistent session' log positions := by
  cases op with
  | undo =>
    rcases h.undo_spec with ⟨-, hundo⟩ | ⟨index, entry, before, document, hundone, hconsistent⟩
    · exact ⟨session, by simp only [Session.step, hundo]; rfl, h⟩
    · exact ⟨_, by simp only [Session.step, hundone.result]; rfl, hconsistent⟩
  | redo =>
    rcases h.redo_spec with ⟨-, hredo⟩ | ⟨entry, after, document, hredone, hconsistent⟩
    · exact ⟨session, by simp only [Session.step, hredo]; rfl, h⟩
    · exact ⟨_, by simp only [Session.step, hredone.result]; rfl, hconsistent⟩
  | edit | closeTransaction | markSaved | takeSavePoint | markSavedAt | reloadFrom => cases hwalk

theorem Consistent.walk {log : Option Nat → Option Text}
    {positions : List Text} (h : Consistent session log positions) {ops : List Op}
    (hwalk : ops.all Op.walks = true) :
    ∃ session', session.run ops = some session' ∧ Consistent session' log positions := by
  refine foldlM_yields h ?_
  intro session op hop h
  exact h.walk_step (List.all_eq_true.mp hwalk op hop)

end Sessions

/-- A document that is not dirty holds the text that was saved; and two positions of its undo
history, at any two moments since it was loaded, that have one token have one text. -/
theorem clean_document_is_saved [Allocation] {start : Session} (hstart : Opened start) (ops : List Op) :
    ∃ session, start.run ops = some session ∧
      (session.document.isDirty = false → session.savedText = some session.document.text) ∧
      ∀ later walk walk' : List Op, walk.all Op.walks = true → walk'.all Op.walks = true →
        ∃ session' position position', session.run later = some session' ∧
          session.run walk = some position ∧ session'.run walk' = some position' ∧
          (session'.loads = session.loads →
            position.document.undoHistory.token = position'.document.undoHistory.token →
            position.document.text = position'.document.text) := by
  obtain ⟨session, log, positions, hrun, h, -, -⟩ := hstart.consistent.run ops
  refine ⟨session, hrun, h.clean, ?_⟩
  intro later walk walk' hwalk hwalk'
  obtain ⟨session', log', positions', hlater, h', -, hext⟩ := h.run later
  obtain ⟨position, hposition, hp⟩ := h.walk hwalk
  obtain ⟨position', hposition', hp'⟩ := h'.walk hwalk'
  refine ⟨session', position, position', hlater, hposition, hposition', ?_⟩
  intro hloads htoken
  have htext := hext hloads _ _ hp.token
  rw [htoken, hp'.token] at htext
  exact (some.inj htext).symm

def twoLetters : TextDocument := .decoded .utf8 ['a', 'b'] .default

theorem twoLetters_loads : TextDocument.fromBytes [0x61, 0x62] .default = .ok twoLetters := by
  decide +kernel

/-- A document that was saved, typed into and undone is clean again. -/
theorem clean_document_is_saved_typed :
    letI := Allocation.reference
    ∃ session, (Session.loaded twoLetters).run
        [.edit (.replace 0 0 ['x']), .markSaved, .edit (.syncFromView ['x', 'y', 'a', 'b']), .undo] =
          some session ∧
      session.document.isDirty = false ∧ session.savedText = some session.document.text := by
  let _ := Allocation.reference
  obtain ⟨session, hrun, hclean, -⟩ := clean_document_is_saved (.loaded twoLetters_loads)
    [.edit (.replace 0 0 ['x']), .markSaved, .edit (.syncFromView ['x', 'y', 'a', 'b']), .undo]
  have hdirty : ((Session.loaded twoLetters).run
      [.edit (.replace 0 0 ['x']), .markSaved, .edit (.syncFromView ['x', 'y', 'a', 'b']), .undo]).map
        (fun session => session.document.isDirty) = some false := by decide +kernel
  rw [hrun] at hdirty
  have hnot := some.inj hdirty
  exact ⟨session, hrun, hnot, hclean hnot⟩

/-- An undo gives back the text that was there before the undone entry was made and a redo after it
the text before the undo, and the other way round; and each replay finds what it takes away, with
both algorithms giving its result. -/
theorem undo_and_redo_are_inverse [Allocation] {start : Session} (hstart : Opened start) (ops : List Op) :
    ∃ session, start.run ops = some session ∧
      (session.document.canUndo = true →
        ∃ index edits document again, session.document.undoHistory.applied = index + 1 ∧
          (session.document.undoHistory.entries[index]?).map Transaction.edits = some edits ∧
          session.document.undo = some (true, document) ∧
          session.befores[index]? = some document.text ∧
          document.redo = some (true, again) ∧ again.text = session.document.text ∧
          Replays .undo edits session.document.text document.text ∧
          Replays .forward edits document.text session.document.text) ∧
      (session.document.canRedo = true →
        ∃ entry document again,
          session.document.undoHistory.entries[session.document.undoHistory.applied]? =
            some entry ∧
          session.befores[session.document.undoHistory.applied]? = some session.document.text ∧
          session.document.redo = some (true, document) ∧
          document.undo = some (true, again) ∧ again.text = session.document.text ∧
          Replays .forward entry.edits session.document.text document.text ∧
          Replays .undo entry.edits document.text session.document.text) := by
  obtain ⟨session, log, positions, hrun, h, -, -⟩ := hstart.consistent.run ops
  have hle := h.sound.applied_le
  refine ⟨session, hrun, ?_, ?_⟩
  · intro hcan
    have hpos : 0 < session.document.undoHistory.applied := by
      simpa [TextDocument.canUndo, UndoHistory.canUndo] using hcan
    rcases h.undo_spec with ⟨hzero, -⟩ | ⟨index, entry, before, document, hundone, h'⟩
    · omega
    · have happlied := hundone.applied
      have harrived := hundone.arrived
      rcases h'.redo_spec with ⟨hend, -⟩ | ⟨entry', after, again, hredone, -⟩
      · have hlen := hundone.length
        simp only at hend
        omega
      · have hafter := hredone.position
        simp only [harrived] at hafter
        rw [← happlied, h.current] at hafter
        have hbefore : session.befores[index]? = some document.text := by
          rw [h.befores, getElem?_take_of_lt (by omega), hundone.position, hundone.text]
        have hedits := hundone.edits
        rw [← hundone.text] at hedits
        exact ⟨index, entry.edits, document, again, happlied, hundone.found, hundone.result, hbefore,
          hredone.result, hredone.text.trans (some.inj hafter).symm,
          replays_of_edits .undo hedits, replays_of_edits .forward hedits⟩
  · intro hcan
    have hlt : session.document.undoHistory.applied <
        session.document.undoHistory.entries.length := by
      simpa [TextDocument.canRedo, UndoHistory.canRedo] using hcan
    rcases h.redo_spec with ⟨hend, -⟩ | ⟨entry, after, document, hredone, h'⟩
    · omega
    · have harrived := hredone.arrived
      rcases h'.undo_spec with ⟨hzero, -⟩ | ⟨index, entry', before, again, hundone, -⟩
      · simp only at hzero
        omega
      · have happlied := hundone.applied
        simp only at happlied
        have hbefore := hundone.position
        rw [show index = session.document.undoHistory.applied by omega, h.current] at hbefore
        have hremembered : session.befores[session.document.undoHistory.applied]? =
            some session.document.text := by
          rw [h.befores, getElem?_take_of_lt hlt, h.current]
        have hedits := hredone.edits
        rw [← hredone.text] at hedits
        exact ⟨entry, document, again, hredone.found, hremembered, hredone.result, hundone.result,
          hundone.text.trans (some.inj hbefore).symm, replays_of_edits .forward hedits,
          replays_of_edits .undo hedits⟩

/-- A typed letter is undone and redone. -/
theorem undo_and_redo_are_inverse_typed :
    letI := Allocation.reference
    ∃ session document again,
      (Session.loaded twoLetters).run [.edit (.syncFromView ['a', 'x', 'b'])] = some session ∧
        session.document.undo = some (true, document) ∧ document.text = ['a', 'b'] ∧
        document.redo = some (true, again) ∧ again.text = session.document.text := by
  let _ := Allocation.reference
  obtain ⟨session, hrun, hundo, -⟩ := undo_and_redo_are_inverse (.loaded twoLetters_loads)
    [.edit (.syncFromView ['a', 'x', 'b'])]
  have hseen : ((Session.loaded twoLetters).run [.edit (.syncFromView ['a', 'x', 'b'])]).map
      (fun session => (session.document.canUndo, session.befores,
        session.document.undoHistory.applied)) = some (true, [['a', 'b']], 1) := by decide +kernel
  rw [hrun] at hseen
  simp only [map_some, some.injEq, Prod.mk.injEq] at hseen
  obtain ⟨hcan, hbefores, happlied⟩ := hseen
  obtain ⟨index, edits, document, again, hindex, -, hundone, hbefore, hredone, hagain, -⟩ :=
    hundo hcan
  obtain rfl : index = 0 := by omega
  rw [hbefores] at hbefore
  exact ⟨session, document, again, hrun, hundone, (some.inj hbefore).symm, hredone, hagain⟩

end FesTerm.Document
