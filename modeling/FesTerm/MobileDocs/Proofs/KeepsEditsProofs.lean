import FesTerm.MobileDocs.Proofs.RegistryProofs

/-!
# Edits are neither lost nor overwritten

In every state that a run of the registry reaches.
-/

namespace FesTerm.MobileDocs

open Document

section

variable [CharTables] [Allocation] {registry registry' : Registry} {op : RegistryOp}

omit [CharTables] [Allocation] in
/-- What is left of the text of a document that had an entry. -/
def Leaves (registry registry' : Registry) (op : RegistryOp) (document : DocumentId) (entry : OpenDocument) : Prop :=
  match registry'.documents.documents.get document with
  | some entry' => entry'.text.text = entry.text.text ∨ op.Edits registry document
  | none => ∃ view, op = .close view true

variable {document : DocumentId} {entry : OpenDocument}

section

omit [CharTables] [Allocation]

theorem leaves_of_get {entry' : OpenDocument} (hget : registry'.documents.documents.get document = some entry')
    (htext : entry'.text.text = entry.text.text ∨ op.Edits registry document) :
    Leaves registry registry' op document entry := by
  unfold Leaves
  rw [hget]
  exact htext

theorem leaves_of_alter {other : DocumentId} {old altered : OpenDocument}
    (hentry : registry.documents.documents.get document = some entry)
    (hold : registry.documents.documents.get other = some old)
    (hentries : ∀ found, registry'.documents.documents.get found =
      if found = other then some altered else registry.documents.documents.get found)
    (htext : old.dirty = true → altered.text.text = old.text.text ∨ op.Edits registry other)
    (hdirty : entry.dirty = true) : Leaves registry registry' op document entry := by
  by_cases hother : document = other
  · subst hother
    cases hentry.symm.trans hold
    refine leaves_of_get ?_ (htext hdirty)
    rw [hentries, if_pos rfl]
  · refine leaves_of_get ?_ (.inl rfl)
    rw [hentries, if_neg hother]
    exact hentry

theorem Documents.Observed.keeps {entry' : OpenDocument} {snapshot : SourceSnapshot} {changed : Bool}
    (h : Documents.Observed entry snapshot changed entry') (hdirty : entry.dirty = true) :
    entry'.text.text = entry.text.text := by
  cases h with
  | unchanged | settled | conflicting => rfl
  | loaded hversion hclean hload =>
    rw [hclean] at hdirty
    cases hdirty

end

section

omit [CharTables]

theorem Effect.leaves (hsound : Sound registry) (h : Effect registry op registry')
    (hentry : registry.documents.documents.get document = some entry)
    (hdirty : entry.dirty = true) : Leaves registry registry' op document entry := by
  cases h with
  | refused | target | read => exact leaves_of_get hentry (.inl rfl)
  | viewed hdocuments =>
    refine leaves_of_get ?_ (.inl rfl)
    rw [hdocuments]
    exact hentry
  | opened hload hconflict hsaving hdocument hoperation hdocuments =>
    have hknown := (hsound.documents document entry hentry).1
    refine leaves_of_get ?_ (.inl rfl)
    rw [Registry.record, hdocuments, Table.get_insert, if_neg, hentry]
    intro heq
    rw [heq, hdocument] at hknown
    exact Nat.not_succ_le_self _ hknown
  | @released documents released old hold hdiscard hdocument hoperation hdocuments =>
    by_cases hother : document = released
    · subst hother
      cases hentry.symm.trans hold
      unfold Leaves
      rw [hdocuments, Table.get_erase, if_pos rfl]
      exact hdiscard hdirty
    · refine leaves_of_get ?_ (.inl rfl)
      rw [hdocuments, Table.get_erase, if_neg hother]
      exact hentry
  | typed hold htext hedits =>
    exact leaves_of_alter hentry hold (Documents.get_setEntry _ _ · _) (fun _ => hedits) hdirty
  | observed hold hsaving hobserved =>
    refine leaves_of_alter hentry hold ?_ (fun hdirty => .inl (hobserved.keeps hdirty)) hdirty
    rw [observed_documents]
    exact (Documents.get_setEntry _ _ · _)
  | kept hold hconflict | access hold | failed hold =>
    exact leaves_of_alter hentry hold (Documents.get_setEntry _ _ · _) (fun _ => .inl rfl) hdirty
  | reloaded hold hsaving hload hedits =>
    exact leaves_of_alter hentry hold (Documents.get_setEntry _ _ · _) (fun _ => .inr hedits) hdirty
  | prepared hold hsaving hsize hclose hsource hoperation hpoint =>
    exact leaves_of_alter hentry hold (Documents.get_setEntry _ _ · _)
      (fun _ => .inl (sameForm_closeTransaction hclose).2) hdirty
  | finished hticket hold hsaving hmark =>
    exact leaves_of_alter hentry hold (Documents.get_setEntry _ _ · _)
      (fun _ => .inl (sameForm_markSavedAt hmark).2) hdirty

theorem Sound.expects (h : Sound registry) {view : ViewId} {automatic : Bool} {ticket : SaveTicket}
    {bytes : List UInt8} {documents : Documents}
    (hrun : (registry.documents.prepareSave view automatic).run = some (.ok ((ticket, bytes), documents))) :
    ∃ entry, registry.documents.entryFor view = .ok (ticket.document, entry) ∧
      match entry.conflict with
      | none => (registry.recorded ticket.document).version = some ticket.expected
      | some change =>
        change.snapshot.version = ticket.expected ∧ (ticket.document, ticket.expected) ∈ registry.chosen := by
  obtain ⟨entry, text, hentry, -, hexpected, -⟩ := Documents.prepareSave_spec hrun
  obtain ⟨-, saved, point, htracked⟩ := h.documents _ _ (Documents.entryFor_eq_ok.mp hentry).2
  refine ⟨entry, hentry, ?_⟩
  unfold Documents.expectedVersion at hexpected
  cases hconflict : entry.conflict with
  | none =>
    rw [hconflict] at hexpected
    change (registry.recorded ticket.document).version = some ticket.expected
    rw [htracked.version]
    cases hversion : entry.version with
    | none =>
      rw [hversion] at hexpected
      cases hexpected
    | some version =>
      rw [hversion] at hexpected
      exact congrArg some (Except.ok.inj hexpected)
  | some change =>
    rw [hconflict] at hexpected
    obtain ⟨hchoice, hversion⟩ : (!automatic && change.keptEdits) = true ∧
        change.snapshot.version = ticket.expected := by
      by_cases hchoice : (!automatic && change.keptEdits) = true
      · simp only [hchoice, if_true] at hexpected
        exact ⟨hchoice, Except.ok.inj hexpected⟩
      · simp only [hchoice] at hexpected
        cases hexpected
    rw [Bool.and_eq_true] at hchoice
    refine ⟨hversion, ?_⟩
    rw [← hversion]
    exact htracked.kept change hconflict hchoice.2

theorem Sound.clean (h : Sound registry)
    (hentry : registry.documents.documents.get document = some entry) (hclean : entry.dirty = false) :
    ∃ bytes, registry.recorded document = ⟨entry.version, some bytes⟩ ∧
      ReadsBack bytes entry.text.encoding entry.text.text := by
  obtain ⟨-, saved, point, htracked⟩ := h.documents document entry hentry
  rw [OpenDocument.dirty, Bool.or_eq_false_iff] at hclean
  obtain rfl := htracked.follows.clean hclean.1
  obtain ⟨bytes, hbytes, hreads⟩ := htracked.recorded _ rfl
  refine ⟨bytes, ?_, hreads⟩
  rw [← htracked.version, ← hbytes]

end

theorem Sound.outdates (h : Sound registry) {next later : Registry} (hstep : registry.step op = some next)
    (hlater : Runs.Reaches Registry.step (fun _ _ => True) next later) : Outdates registry op later := by
  have hafter := later_of_reaches hlater
  constructor
  · intro target htarget houtdated
    apply refusesTarget_of_past
    exact houtdated.imp (fun hreloads => (pastSource_of_step (h.targets target htarget) hstep hreloads).later hafter)
      fun hchanges => (pastAccess_of_step (h.targets target htarget) hstep hchanges).later hafter
  · intro ticket hticket houtdated
    apply refusesRead_of_past
    exact houtdated.imp (fun hreloads => (pastSource_of_step (h.reads ticket hticket) hstep hreloads).later hafter)
      fun hchanges => (pastAccess_of_step (h.reads ticket hticket) hstep hchanges).later hafter
  · intro ticket hticket houtdated
    apply refusesSave_of_past
    exact houtdated.imp
      (fun hreloads => (pastSource_of_step (h.saves ticket hticket).1 hstep hreloads).later hafter)
      fun hends => (pastSave_of_step h hticket hstep hends).later hafter

/-- After every run of requests. -/
theorem registry_keeps_edits
    (h : Runs.Reaches Registry.step (fun _ _ => True) Registry.start registry) : KeepsEdits registry := by
  have hsound := sound_of_reaches h
  refine ⟨?_, ?_, ?_, ?_, ?_⟩
  · intro op registry' hstep document entry hentry hdirty
    exact (step_effect hstep).leaves hsound hentry hdirty
  · intro view automatic ticket bytes documents hrun
    exact hsound.expects hrun
  · intro document entry hentry hclean
    exact hsound.clean hentry hclean
  · intro op next later hstep hlater
    exact hsound.outdates hstep hlater
  · rintro ticket entry hentry hversion snapshot ⟨⟨changed, documents⟩, hrun⟩
    obtain ⟨found, _, hfound, -, -, hsame, -⟩ := Documents.observe_spec hrun
    cases hentry.symm.trans hfound
    exact hversion hsame

end

/-- The local file `/a`. -/
def sampleOrigin : DocumentOrigin := .localFile ⟨[0x2f, 0x61], ['a']⟩

/-- A file is opened at version 1 and edited, it is found changed at version 2, the edits are kept and a save
is begun. -/
def keptRun : List RegistryOp :=
  let target : EditTarget :=
    { view := 1, document := 1, revision := 0, start := 0, stop := 0, origin := "local:/a".toList,
      sourceEpoch := 0, accessEpoch := 0 }
  let ticket : ReadTicket :=
    { document := 1, sourceEpoch := 0, accessEpoch := 0, revision := 1, version := some ⟨[1]⟩ }
  [.openDocument sampleOrigin [0x68] (some ⟨[1]⟩) true, .takeTarget 1 0 0, .sync target ['h', 'i'], .readTicket 1,
    .observe ticket ⟨[0x6f], ⟨[2]⟩⟩, .keepEdits 1, .prepareSave 1 false]

theorem kept_run_keeps_edits :
    letI := CharTables.ascii
    letI := Allocation.reference
    ∃ registry, keptRun.foldlM Registry.step Registry.start = some registry ∧
      registry.saves.map (·.expected) = [⟨[2]⟩] ∧ KeepsEdits registry := by
  let _ := CharTables.ascii
  let _ := Allocation.reference
  have hruns : (keptRun.foldlM Registry.step Registry.start).map (fun registry => registry.saves.map (·.expected)) =
      some [⟨[2]⟩] := by
    decide +kernel
  obtain ⟨registry, hrun, hsaves⟩ := Option.map_eq_some_iff.mp hruns
  exact ⟨registry, hrun, hsaves, registry_keeps_edits (Runs.reaches_of_foldlM hrun)⟩

/-- A target is accepted after a save that changed the version, and a save ticket after the access was
revoked. -/
theorem late_target_and_ticket_are_accepted :
    letI := CharTables.ascii
    letI := Allocation.reference
    ∃ registry, Runs.Reaches Registry.step (fun _ _ => True) Registry.start registry ∧
      (∃ target ∈ registry.targets, ∃ ticket ∈ registry.saves, ∃ version saved,
        registry.step (.finishSave ticket version) = some saved ∧
          (registry.recorded 1).version ≠ some version ∧ (saved.recorded 1).version = some version ∧
          ¬ RefusesTarget saved target) ∧
      ∃ ticket ∈ registry.saves, ∃ revoked,
        registry.step (.setAccess ticket.document false false) = some revoked ∧
          RegistryOp.ChangesAccess registry ticket.document (.setAccess ticket.document false false) ∧
          ¬ RefusesSave revoked ticket := by
  let _ := CharTables.ascii
  let _ := Allocation.reference
  let target : EditTarget :=
    { view := 1, document := 1, revision := 0, start := 0, stop := 0, origin := "local:/a".toList,
      sourceEpoch := 0, accessEpoch := 0 }
  let ticket : SaveTicket :=
    { document := 1, sourceEpoch := 0, operation := 1, point := ⟨none⟩, expected := ⟨[1]⟩ }
  let ops : List RegistryOp :=
    [.openDocument sampleOrigin [0x68] (some ⟨[1]⟩) true, .takeTarget 1 0 0, .prepareSave 1 false]
  have hruns : ((ops.foldlM Registry.step Registry.start).any fun registry =>
      decide (target ∈ registry.targets ∧ ticket ∈ registry.saves ∧
        (registry.recorded 1).version ≠ some ⟨[2]⟩) &&
      ((registry.step (.finishSave ticket ⟨[2]⟩)).any fun saved =>
        decide ((saved.recorded 1).version = some ⟨[2]⟩ ∧ Accepts (saved.documents.sync target ['o']))) &&
      ((registry.step (.setAccess 1 false false)).any fun revoked =>
        decide (Accepts (registry.documents.setAccess 1 false false) ∧
          Accepts (revoked.documents.failSave ticket)))) = true := by
    decide +kernel
  obtain ⟨registry, hrun, hchecks⟩ := (Option.any_eq_true _ _).mp hruns
  rw [Bool.and_eq_true, Bool.and_eq_true, decide_eq_true_iff] at hchecks
  obtain ⟨⟨⟨htarget, hticket, hversion⟩, hsave⟩, haccess⟩ := hchecks
  obtain ⟨saved, hsaved, hsync⟩ := (Option.any_eq_true _ _).mp hsave
  obtain ⟨revoked, hrevoked, hfail⟩ := (Option.any_eq_true _ _).mp haccess
  obtain ⟨hversion', hsync⟩ := of_decide_eq_true hsync
  obtain ⟨hchanged, hfail⟩ := of_decide_eq_true hfail
  exact ⟨registry, Runs.reaches_of_foldlM hrun,
    ⟨target, htarget, ticket, hticket, ⟨[2]⟩, saved, hsaved, hversion, hversion', fun h => h.1 _ hsync⟩,
    ticket, hticket, revoked, hrevoked, ⟨rfl, hchanged⟩, fun h => h.2 hfail⟩

end FesTerm.MobileDocs
