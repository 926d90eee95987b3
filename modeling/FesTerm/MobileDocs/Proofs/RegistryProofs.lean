import FesTerm.MobileDocs.Proofs.RegistryStepProofs

/-!
# The registry keeps edits

Epochs and counters only grow, which is what makes late targets and tickets fail. What a document takes for
saved is what is recorded for its version, through edits, conflicts, reloads and saves that end late.
-/

namespace FesTerm.MobileDocs

open Document List

/-! ## What only grows -/

structure EntryLater (operations : Nat) (entry entry' : OpenDocument) : Prop where
  sourceEpoch : entry.sourceEpoch ≤ entry'.sourceEpoch
  accessEpoch : entry.accessEpoch ≤ entry'.accessEpoch
  /-- A save that is under way was so before, or is a new one. -/
  saving : ∀ operation, entry'.saving = some operation →
    entry.saving = some operation ∨ operations < operation

/-- The second registry comes after the first one. A closed document does not come back. -/
structure Later (documents documents' : Documents) : Prop where
  nextDocument : documents.nextDocument ≤ documents'.nextDocument
  nextOperation : documents.nextOperation ≤ documents'.nextOperation
  entries : ∀ document entry', documents'.documents.get document = some entry' →
    document ≤ documents.nextDocument →
      ∃ entry, documents.documents.get document = some entry ∧ EntryLater documents.nextOperation entry entry'

theorem EntryLater.refl (operations : Nat) (entry : OpenDocument) : EntryLater operations entry entry :=
  ⟨le_rfl, le_rfl, fun _ => .inl⟩

variable {entry entry' : OpenDocument}

theorem EntryLater.trans {operations operations' : Nat} {entry'' : OpenDocument}
    (h : EntryLater operations entry entry') (h' : EntryLater operations' entry' entry'')
    (hle : operations ≤ operations') : EntryLater operations entry entry'' where
  sourceEpoch := h.sourceEpoch.trans h'.sourceEpoch
  accessEpoch := h.accessEpoch.trans h'.accessEpoch
  saving operation hsaving := by
    rcases h'.saving operation hsaving with hsame | hnew
    · exact h.saving operation hsame
    · exact .inr (hle.trans_lt hnew)

theorem Later.refl (documents : Documents) : Later documents documents where
  nextDocument := le_rfl
  nextOperation := le_rfl
  entries _ entry hentry _ := ⟨entry, hentry, .refl _ entry⟩

theorem Later.trans {documents documents' documents'' : Documents} (h : Later documents documents')
    (h' : Later documents' documents'') : Later documents documents'' where
  nextDocument := h.nextDocument.trans h'.nextDocument
  nextOperation := h.nextOperation.trans h'.nextOperation
  entries document entry'' hentry'' hknown := by
    obtain ⟨entry', hentry', hlater'⟩ := h'.entries document entry'' hentry'' (hknown.trans h.nextDocument)
    obtain ⟨entry, hentry, hlater⟩ := h.entries document entry' hentry' hknown
    exact ⟨entry, hentry, hlater.trans hlater' h.nextOperation⟩

theorem later_of_alter {documents documents' : Documents} {document : DocumentId}
    (hentry : documents.documents.get document = some entry)
    (hentries : ∀ other, documents'.documents.get other =
      if other = document then some entry' else documents.documents.get other)
    (hdocument : documents'.nextDocument = documents.nextDocument)
    (hoperation : documents.nextOperation ≤ documents'.nextOperation)
    (hlater : EntryLater documents.nextOperation entry entry') : Later documents documents' where
  nextDocument := hdocument.ge
  nextOperation := hoperation
  entries other found hfound _ := by
    rw [hentries] at hfound
    by_cases hother : other = document
    · rw [if_pos hother] at hfound
      cases hfound
      exact ⟨entry, hother ▸ hentry, hlater⟩
    · rw [if_neg hother] at hfound
      exact ⟨found, hfound, .refl _ found⟩

theorem observed_documents (registry : Registry) (document : DocumentId) (snapshot : SourceSnapshot)
    (documents : Documents) : (registry.observed document snapshot documents).documents = documents := by
  unfold Registry.observed
  split
  · rfl
  · rfl

theorem observed_later {snapshot : SourceSnapshot} {changed : Bool}
    (h : Documents.Observed entry snapshot changed entry') (operations : Nat) : EntryLater operations entry entry' := by
  cases h with
  | unchanged => exact .refl _ _
  | settled | conflicting | loaded => exact ⟨Nat.le_succ _, le_rfl, fun _ => .inl⟩

section

variable [CharTables] [Allocation] {registry registry' : Registry} {op : RegistryOp}

omit [CharTables] in
theorem Effect.later (h : Effect registry op registry') : Later registry.documents registry'.documents := by
  cases h with
  | refused | target | read => exact .refl _
  | viewed hdocuments hdocument hoperation =>
    refine ⟨hdocument.ge, hoperation.ge, fun document entry hentry _ => ?_⟩
    rw [hdocuments] at hentry
    exact ⟨entry, hentry, .refl _ entry⟩
  | opened hload hconflict hsaving hdocument hoperation hdocuments =>
    refine ⟨hdocument.ge.trans' (Nat.le_succ _), hoperation.ge, fun document entry hentry hknown => ?_⟩
    -- The new document was not known.
    have hne : document ≠ registry.documents.nextDocument + 1 := by
      intro heq
      rw [heq] at hknown
      exact absurd hknown (Nat.not_succ_le_self _)
    change Table.get _ document = some entry at hentry
    rw [Registry.record, hdocuments, Table.get_insert, if_neg (by rw [hdocument]; exact hne)] at hentry
    exact ⟨entry, hentry, .refl _ entry⟩
  | released hentry hdiscard hdocument hoperation hdocuments =>
    refine ⟨hdocument.ge, hoperation.ge, fun document entry hentry _ => ?_⟩
    rw [hdocuments, Table.get_erase] at hentry
    split at hentry
    · cases hentry
    · exact ⟨entry, hentry, .refl _ entry⟩
  | typed hentry htext hedits | kept hentry hconflict =>
    exact later_of_alter hentry (Documents.get_setEntry _ _ · _) rfl le_rfl
      ⟨le_rfl, le_rfl, fun _ => .inl⟩
  | observed hentry hsaving hobserved =>
    rw [observed_documents]
    exact later_of_alter hentry (Documents.get_setEntry _ _ · _) rfl le_rfl (observed_later hobserved _)
  | reloaded hentry hsaving hload hedits =>
    exact later_of_alter hentry (Documents.get_setEntry _ _ · _) rfl le_rfl
      ⟨Nat.le_succ _, le_rfl, fun _ => .inl⟩
  | access hentry =>
    exact later_of_alter hentry (Documents.get_setEntry _ _ · _) rfl le_rfl
      ⟨le_rfl, Nat.le_succ _, fun _ => .inl⟩
  | prepared hentry hsaving hsize hclose hsource hoperation hpoint =>
    have hnew : registry.documents.nextOperation < registry.documents.nextOperation + 1 := Nat.lt_succ_self _
    rw [← hoperation] at hnew
    refine later_of_alter hentry (Documents.get_setEntry _ _ · _) rfl hnew.le
      ⟨le_rfl, le_rfl, fun operation hsame => .inr ?_⟩
    cases hsame
    exact hnew
  | finished hticket hentry hsaving hmark | failed hentry =>
    refine later_of_alter hentry (Documents.get_setEntry _ _ · _) rfl le_rfl
      ⟨le_rfl, le_rfl, fun operation hsame => ?_⟩
    cases hsame

theorem later_of_reaches {later : Registry}
    (h : Runs.Reaches Registry.step (fun _ _ => True) registry later) :
    Later registry.documents later.documents := by
  induction h with
  | refl => exact .refl _
  | step _ _ hstep ih => exact ih.trans (step_effect hstep).later

/-! ## Late targets and tickets -/

/-- A target or ticket that was issued, when the epochs of its document were not higher than they are. -/
def Issued (documents : Documents) (document : DocumentId) (sourceEpoch accessEpoch : Nat) : Prop :=
  document ≤ documents.nextDocument ∧ ∀ entry, documents.documents.get document = some entry →
    sourceEpoch ≤ entry.sourceEpoch ∧ accessEpoch ≤ entry.accessEpoch

/-- Since it was issued the source of its document was loaded again. -/
def PastSource (documents : Documents) (document : DocumentId) (sourceEpoch : Nat) : Prop :=
  document ≤ documents.nextDocument ∧ ∀ entry, documents.documents.get document = some entry →
    sourceEpoch < entry.sourceEpoch

/-- Since it was issued the access to its document was changed. -/
def PastAccess (documents : Documents) (document : DocumentId) (accessEpoch : Nat) : Prop :=
  document ≤ documents.nextDocument ∧ ∀ entry, documents.documents.get document = some entry →
    accessEpoch < entry.accessEpoch

/-- The save of the ticket is over. -/
def PastSave (documents : Documents) (ticket : SaveTicket) : Prop :=
  ticket.document ≤ documents.nextDocument ∧ ticket.operation ≤ documents.nextOperation ∧
    ∀ entry, documents.documents.get ticket.document = some entry → entry.saving ≠ some ticket.operation

section

variable {documents documents' : Documents} {document : DocumentId} {sourceEpoch accessEpoch : Nat}
  {ticket : SaveTicket}

omit [CharTables] [Allocation]

theorem Issued.later (h : Issued documents document sourceEpoch accessEpoch) (hlater : Later documents documents') :
    Issued documents' document sourceEpoch accessEpoch := by
  refine ⟨h.1.trans hlater.nextDocument, fun entry' hentry' => ?_⟩
  obtain ⟨entry, hentry, hentries⟩ := hlater.entries document entry' hentry' h.1
  obtain ⟨hsource, haccess⟩ := h.2 entry hentry
  exact ⟨hsource.trans hentries.sourceEpoch, haccess.trans hentries.accessEpoch⟩

theorem PastSource.later (h : PastSource documents document sourceEpoch) (hlater : Later documents documents') :
    PastSource documents' document sourceEpoch := by
  refine ⟨h.1.trans hlater.nextDocument, fun entry' hentry' => ?_⟩
  obtain ⟨entry, hentry, hentries⟩ := hlater.entries document entry' hentry' h.1
  exact (h.2 entry hentry).trans_le hentries.sourceEpoch

theorem PastAccess.later (h : PastAccess documents document accessEpoch) (hlater : Later documents documents') :
    PastAccess documents' document accessEpoch := by
  refine ⟨h.1.trans hlater.nextDocument, fun entry' hentry' => ?_⟩
  obtain ⟨entry, hentry, hentries⟩ := hlater.entries document entry' hentry' h.1
  exact (h.2 entry hentry).trans_le hentries.accessEpoch

theorem PastSave.later (h : PastSave documents ticket) (hlater : Later documents documents') :
    PastSave documents' ticket := by
  refine ⟨h.1.trans hlater.nextDocument, h.2.1.trans hlater.nextOperation, fun entry' hentry' hsame => ?_⟩
  obtain ⟨entry, hentry, hentries⟩ := hlater.entries ticket.document entry' hentry' h.1
  rcases hentries.saving _ hsame with hold | hnew
  · exact h.2.2 entry hentry hold
  · exact absurd h.2.1 (Nat.not_le.mpr hnew)

end

theorem refusesTarget_of_past {target : EditTarget}
    (h : PastSource registry.documents target.document target.sourceEpoch ∨
      PastAccess registry.documents target.document target.accessEpoch) : RefusesTarget registry target := by
  have hrefuses : ∀ entry, (registry.documents.editableTarget target).run ≠ some (.ok entry) := by
    intro entry htarget
    obtain ⟨hentry, -, hsource, haccess⟩ := Documents.editableTarget_spec htarget
    rcases h with hpast | hpast
    · exact absurd (hpast.2 entry hentry) (by rw [hsource]; exact Nat.lt_irrefl _)
    · exact absurd (hpast.2 entry hentry) (by rw [haccess]; exact Nat.lt_irrefl _)
  constructor
  · rintro updated ⟨⟨changed, documents⟩, hrun⟩
    obtain ⟨entry, _, _, htarget, -⟩ := Documents.sync_spec hrun
    exact hrefuses entry htarget
  · rintro current replacement ⟨documents, hrun⟩
    obtain ⟨entry, _, _, htarget, -⟩ := Documents.replace_spec hrun
    exact hrefuses entry htarget

omit [CharTables] [Allocation] in
theorem refusesRead_of_past {ticket : ReadTicket}
    (h : PastSource registry.documents ticket.document ticket.sourceEpoch ∨
      PastAccess registry.documents ticket.document ticket.accessEpoch) : RefusesRead registry ticket := by
  rintro snapshot ⟨⟨changed, documents⟩, hrun⟩
  obtain ⟨entry, _, hentry, hsource, haccess, -⟩ := Documents.observe_spec hrun
  rcases h with hpast | hpast
  · exact absurd (hpast.2 entry hentry) (by rw [hsource]; exact Nat.lt_irrefl _)
  · exact absurd (hpast.2 entry hentry) (by rw [haccess]; exact Nat.lt_irrefl _)

omit [CharTables] [Allocation] in
theorem refusesSave_of_past {ticket : SaveTicket}
    (h : PastSource registry.documents ticket.document ticket.sourceEpoch ∨ PastSave registry.documents ticket) :
    RefusesSave registry ticket := by
  have hrefuses : ∀ entry, registry.documents.savingEntry ticket ≠ .ok entry := by
    intro entry hticket
    obtain ⟨hentry, hsource, hsaving⟩ := Documents.savingEntry_spec hticket
    rcases h with hpast | hpast
    · exact absurd (hpast.2 entry hentry) (by rw [hsource]; exact Nat.lt_irrefl _)
    · exact hpast.2.2 entry hentry hsaving
  constructor
  · rintro version ⟨documents, hrun⟩
    obtain ⟨entry, _, hticket, -⟩ := Documents.finishSave_spec hrun
    exact hrefuses entry hticket
  · rintro ⟨documents, hrun⟩
    obtain ⟨entry, hticket, -⟩ := Documents.failSave_spec hrun
    exact hrefuses entry hticket

/-! ## What is recorded -/

/-- What a document takes for saved, and the point of the save under way, are what the run remembers. -/
structure Tracked (registry : Registry) (document : DocumentId) (entry : OpenDocument) (saved : Option Text)
    (point : Option (SavePoint × Text)) : Prop where
  follows : Follows entry.text saved point
  bounds : entry.text.bounds = mobileDocumentBounds
  version : (registry.recorded document).version = entry.version
  recorded : ∀ text ∈ saved, ∃ bytes, (registry.recorded document).bytes = some bytes ∧
    ReadsBack bytes entry.text.encoding text
  kept : ∀ change, entry.conflict = some change → change.keptEdits = true →
    (document, change.snapshot.version) ∈ registry.chosen
  saving : ∀ operation, entry.saving = some operation → operation ≤ registry.documents.nextOperation ∧
    ∃ taken text, point = some (taken, text) ∧
      ReadsBack (registry.writing document) entry.text.encoding text ∧
      ∀ ticket ∈ registry.saves, ticket.document = document → ticket.operation = operation →
        ticket.point = taken

/-- What a run keeps. -/
structure Sound (registry : Registry) : Prop where
  documents : ∀ document entry, registry.documents.documents.get document = some entry →
    document ≤ registry.documents.nextDocument ∧ ∃ saved point, Tracked registry document entry saved point
  targets : ∀ target ∈ registry.targets,
    Issued registry.documents target.document target.sourceEpoch target.accessEpoch
  reads : ∀ ticket ∈ registry.reads,
    Issued registry.documents ticket.document ticket.sourceEpoch ticket.accessEpoch
  saves : ∀ ticket ∈ registry.saves, Issued registry.documents ticket.document ticket.sourceEpoch 0 ∧
    ticket.operation ≤ registry.documents.nextOperation

/-- The step leaves what is remembered of the other documents. -/
structure Beside (registry registry' : Registry) (document : DocumentId) : Prop where
  recorded : ∀ other, other ≠ document → registry'.recorded other = registry.recorded other
  writing : ∀ other, other ≠ document → registry'.writing other = registry.writing other
  chosen : ∀ choice ∈ registry.chosen, choice ∈ registry'.chosen
  saves : ∀ ticket ∈ registry'.saves, ticket.document ≠ document → ticket ∈ registry.saves
  operation : registry.documents.nextOperation ≤ registry'.documents.nextOperation

variable {document : DocumentId} {entry entry' : OpenDocument} {saved : Option Text}
  {point : Option (SavePoint × Text)} {bytes : List UInt8} {snapshot : SourceSnapshot} {sourceEpoch accessEpoch : Nat}

omit [CharTables] in
theorem Tracked.beside {other : DocumentId} (h : Tracked registry other entry saved point)
    (hbeside : Beside registry registry' document) (hother : other ≠ document) :
    Tracked registry' other entry saved point where
  follows := h.follows
  bounds := h.bounds
  version := by rw [hbeside.recorded other hother, h.version]
  recorded := by
    rw [hbeside.recorded other hother]
    exact h.recorded
  kept change hchange hkept := hbeside.chosen _ (h.kept change hchange hkept)
  saving operation hsaving := by
    obtain ⟨hknown, taken, text, hpoint, hwriting, htickets⟩ := h.saving operation hsaving
    refine ⟨hknown.trans hbeside.operation, taken, text, hpoint, ?_, ?_⟩
    · rw [hbeside.writing other hother]
      exact hwriting
    · intro ticket hticket hdocument hoperation
      exact htickets ticket (hbeside.saves ticket hticket (hdocument ▸ hother)) hdocument hoperation

omit [CharTables] in
theorem documents_of_alter (h : Sound registry) (hentries : ∀ other, registry'.documents.documents.get other =
      if other = document then some entry' else registry.documents.documents.get other)
    (hdocument : registry.documents.nextDocument ≤ registry'.documents.nextDocument)
    (hknown : document ≤ registry'.documents.nextDocument)
    (hbeside : Beside registry registry' document) (htracked : Tracked registry' document entry' saved point)
    (other : DocumentId) (found : OpenDocument) (hfound : registry'.documents.documents.get other = some found) :
    other ≤ registry'.documents.nextDocument ∧ ∃ saved point, Tracked registry' other found saved point := by
  rw [hentries] at hfound
  by_cases hother : other = document
  · rw [if_pos hother] at hfound
    cases hfound
    rw [hother]
    exact ⟨hknown, saved, point, htracked⟩
  · rw [if_neg hother] at hfound
    obtain ⟨hbound, saved, point, hkept⟩ := h.documents other found hfound
    exact ⟨hbound.trans hdocument, saved, point, hkept.beside hbeside hother⟩

omit [CharTables] [Allocation] in
theorem beside_of_same (hrecorded : registry'.recorded = registry.recorded)
    (hwriting : registry'.writing = registry.writing) (hchosen : registry'.chosen = registry.chosen)
    (hsaves : registry'.saves = registry.saves)
    (hoperation : registry.documents.nextOperation ≤ registry'.documents.nextOperation) :
    Beside registry registry' document where
  recorded other _ := congrFun hrecorded other
  writing other _ := congrFun hwriting other
  chosen _ hchoice := hchosen ▸ hchoice
  saves _ hticket _ := hsaves ▸ hticket
  operation := hoperation

omit [CharTables] [Allocation] in
theorem beside_record {documents : Documents} {recorded : Recorded}
    (hoperation : registry.documents.nextOperation ≤ documents.nextOperation) :
    Beside registry ({ registry with documents : Registry }.record document recorded) document where
  recorded _ hother := Function.update_of_ne hother _ _
  writing _ _ := rfl
  chosen _ hchoice := hchoice
  saves _ hticket _ := hticket
  operation := hoperation

section

omit [CharTables]

theorem Tracked.remembered (h : Tracked registry document entry saved point)
    (hbeside : ∀ other, Beside registry registry' other) : Tracked registry' document entry saved point :=
  h.beside (hbeside (document + 1)) (Nat.succ_ne_self document).symm

theorem tracked_loaded {loaded : TextDocument} (hfollows : Follows entry.text (some entry.text.text) none)
    (hbounds : entry.text.bounds = mobileDocumentBounds)
    (hload : TextDocument.fromBytes bytes mobileDocumentBounds = .ok loaded)
    (htext : loaded.text = entry.text.text) (hconflict : entry.conflict = none) (hsaving : entry.saving = none)
    (hrecorded : registry.recorded document = ⟨entry.version, some bytes⟩) :
    Tracked registry document entry (some entry.text.text) none where
  follows := hfollows
  bounds := hbounds
  version := by rw [hrecorded]
  recorded := by
    rintro text ⟨⟩
    exact ⟨bytes, by rw [hrecorded], .inl ⟨loaded, hload, htext⟩⟩
  kept change hchange := by
    rw [hconflict] at hchange
    cases hchange
  saving operation hoperation := by
    rw [hsaving] at hoperation
    cases hoperation

theorem tracked_unsaved
    (hfollows : Follows entry.text none none) (hbounds : entry.text.bounds = mobileDocumentBounds)
    (hconflict : entry.conflict = none) (hsaving : entry.saving = none)
    (hrecorded : registry.recorded document = ⟨entry.version, none⟩) :
    Tracked registry document entry none none where
  follows := hfollows
  bounds := hbounds
  version := by rw [hrecorded]
  recorded := by
    intro text htext
    cases htext
  kept change hchange := by
    rw [hconflict] at hchange
    cases hchange
  saving operation hoperation := by
    rw [hsaving] at hoperation
    cases hoperation

end

section

variable {document : DocumentId} {entry : OpenDocument} {text : TextDocument} {saved : Option Text}
  {point : Option (SavePoint × Text)}

section

omit [CharTables]

theorem Tracked.typed (h : Tracked registry document entry saved point) (htext : Retyped entry.text text)
    (hbeside : ∀ other, Beside registry registry' other) :
    Tracked registry' document { entry with text } saved point := by
  obtain ⟨hfollows, hform⟩ := htext _ _ h.follows
  have hkept := h.remembered hbeside
  refine ⟨hfollows, hform.bounds.trans h.bounds, hkept.version, ?_, hkept.kept, ?_⟩
  · change ∀ text' ∈ saved, _
    rw [hform.encoding]
    exact hkept.recorded
  · change ∀ operation, entry.saving = some operation → _
    rw [hform.encoding]
    exact hkept.saving

theorem Tracked.withConflict {conflict : Option ExternalChange} {entry' : OpenDocument}
    (h : Tracked registry document entry saved point) (hbeside : ∀ other, Beside registry registry' other)
    (hentry' : entry'.text = entry.text ∧ entry'.version = entry.version ∧ entry'.conflict = conflict)
    (hsaving : entry'.saving = entry.saving ∨ entry'.saving = none)
    (hconflict : ∀ change, conflict = some change → change.keptEdits = true →
      (document, change.snapshot.version) ∈ registry'.chosen) :
    Tracked registry' document entry' saved point := by
  obtain ⟨htext, hversion, hsame⟩ := hentry'
  have h := h.remembered hbeside
  refine ⟨htext ▸ h.follows, htext ▸ h.bounds, hversion ▸ h.version, htext ▸ h.recorded, hsame ▸ hconflict, ?_⟩
  intro operation hoperation
  rw [htext]
  rcases hsaving with hsaving | hsaving
  · exact h.saving operation (hsaving ▸ hoperation)
  · rw [hsaving] at hoperation
    cases hoperation

theorem Tracked.prepared (hsound : Sound registry) {ticket : SaveTicket}
    (h : Tracked registry ticket.document entry saved point)
    (hsize : mobileDocumentBounds.checkDeclaredSize entry.text.toBytes.length = .ok ())
    (hclose : entry.text.closeTransaction = some text)
    (hoperation : ticket.operation = registry.documents.nextOperation + 1)
    (hpoint : ticket.point = text.savePoint) (hsaves : registry'.saves = ticket :: registry.saves)
    (hwriting : registry'.writing ticket.document = entry.text.toBytes)
    (hrecorded : registry'.recorded = registry.recorded) (hchosen : registry'.chosen = registry.chosen)
    (hnext : registry'.documents.nextOperation = ticket.operation) :
    Tracked registry' ticket.document { entry with text, saving := some ticket.operation } saved
      (some (text.savePoint, text.text)) := by
  obtain ⟨hform, htext⟩ := sameForm_closeTransaction hclose
  refine ⟨(h.follows.closeTransaction hclose).savePoint, hform.bounds.trans h.bounds, ?_, ?_, ?_, ?_⟩
  · rw [hrecorded]
    exact h.version
  · rw [hrecorded]
    change ∀ text' ∈ saved, _
    rw [hform.encoding]
    exact h.recorded
  · rw [hchosen]
    exact h.kept
  · rintro operation ⟨⟩
    refine ⟨hnext.ge, text.savePoint, text.text, rfl, ?_, ?_⟩
    · rw [hwriting]
      change ReadsBack _ text.encoding text.text
      rw [hform.encoding, htext]
      exact h.follows.readsBack h.bounds hsize
    · intro other hother hdocument hsame
      rw [hsaves] at hother
      rcases mem_cons.mp hother with rfl | hold
      · exact hpoint
      · -- The earlier tickets have earlier operations.
        have hbound := (hsound.saves other hold).2
        rw [hsame, hoperation] at hbound
        exact absurd hbound (Nat.not_succ_le_self _)

theorem Tracked.finished {ticket : SaveTicket} (documents : Documents) (version : SourceVersion)
    (h : Tracked registry ticket.document entry saved point) (hticket : ticket ∈ registry.saves)
    (hsaving : entry.saving = some ticket.operation) (hmark : entry.text.markSavedAt ticket.point = some text) :
    ∃ written, Tracked ({ registry with documents : Registry }.record ticket.document
        ⟨some version, some (registry.writing ticket.document)⟩) ticket.document
      { entry with text, version := some version, conflict := none, saving := none } (some written) none := by
  obtain ⟨-, taken, written, rfl, hwriting, htickets⟩ := h.saving _ hsaving
  obtain rfl := htickets ticket hticket rfl rfl
  obtain ⟨hform, -⟩ := sameForm_markSavedAt hmark
  have hrecorded : ({ registry with documents : Registry }.record ticket.document
      ⟨some version, some (registry.writing ticket.document)⟩).recorded ticket.document =
        ⟨some version, some (registry.writing ticket.document)⟩ := Function.update_self _ _ _
  refine ⟨written, h.follows.markSavedAt hmark, hform.bounds.trans h.bounds, ?_, ?_, ?_, ?_⟩
  · rw [hrecorded]
  · rintro text' ⟨⟩
    refine ⟨registry.writing ticket.document, by rw [hrecorded], ?_⟩
    change ReadsBack _ text.encoding written
    rw [hform.encoding]
    exact hwriting
  · intro change hchange
    cases hchange
  · intro operation hoperation
    cases hoperation

end

end

/-! ## One operation -/

omit [CharTables] [Allocation] in
theorem observed_same
    (hentry : registry.documents.documents.get document = some entry) (hversion : entry'.version = entry.version) :
    registry.observed document snapshot (registry.documents.setEntry document entry') =
      { registry with documents := registry.documents.setEntry document entry' } := by
  have hget := Documents.get_eq_ok.mpr hentry
  have hget' : (registry.documents.setEntry document entry').get document = .ok entry' := by
    rw [Documents.get_eq_ok, Documents.get_setEntry, if_pos rfl]
  unfold Registry.observed
  rw [if_pos]
  rw [hget, hget']
  exact congrArg Except.ok hversion

omit [CharTables] [Allocation] in
theorem observed_loaded
    (hentry : registry.documents.documents.get document = some entry) (hversion : entry'.version ≠ entry.version) :
    registry.observed document snapshot (registry.documents.setEntry document entry') =
      ({ registry with documents := registry.documents.setEntry document entry' } : Registry).record document
        ⟨some snapshot.version, some snapshot.bytes⟩ := by
  have hget := Documents.get_eq_ok.mpr hentry
  have hget' : (registry.documents.setEntry document entry').get document = .ok entry' := by
    rw [Documents.get_eq_ok, Documents.get_setEntry, if_pos rfl]
  unfold Registry.observed
  rw [if_neg]
  rw [hget, hget']
  intro hsame
  exact hversion (Except.ok.inj hsame)

omit [CharTables] in
theorem tracked_observed {changed : Bool} (hentry : registry.documents.documents.get document = some entry)
    (htracked : Tracked registry document entry saved point) (hsaving : entry.saving = none)
    (hobserved : Documents.Observed entry snapshot changed entry') :
    Beside registry (registry.observed document snapshot (registry.documents.setEntry document entry')) document ∧
      ∃ saved point, Tracked
        (registry.observed document snapshot (registry.documents.setEntry document entry')) document entry'
        saved point := by
  cases hobserved with
  | unchanged =>
    rw [observed_same hentry (by rfl)]
    exact ⟨beside_of_same rfl rfl rfl rfl le_rfl, saved, point,
      htracked.remembered fun _ => beside_of_same rfl rfl rfl rfl le_rfl⟩
  | settled =>
    rw [observed_same hentry (by rfl)]
    refine ⟨beside_of_same rfl rfl rfl rfl le_rfl, saved, point,
      htracked.withConflict (fun _ => beside_of_same rfl rfl rfl rfl le_rfl)
        ⟨rfl, rfl, rfl⟩ (.inl rfl) ?_⟩
    intro change hchange
    cases hchange
  | conflicting =>
    rw [observed_same hentry (by rfl)]
    refine ⟨beside_of_same rfl rfl rfl rfl le_rfl, saved, point,
      htracked.withConflict (fun _ => beside_of_same rfl rfl rfl rfl le_rfl)
        ⟨rfl, rfl, rfl⟩ (.inl rfl) ?_⟩
    -- Edits are not kept against the new conflict before the user says so.
    rintro change ⟨⟩ hkept
    cases hkept
  | loaded hversion hclean hload =>
    rw [observed_loaded hentry (Ne.symm hversion)]
    obtain ⟨loaded, hbytes, htext, hbounds⟩ := fromBytes_of_reloadFrom hload
    rw [htracked.bounds] at hbytes hbounds
    have hconflict : entry.conflict = none := by
      rw [OpenDocument.dirty, Bool.or_eq_false_iff, Option.isSome_eq_false_iff] at hclean
      exact Option.isNone_iff_eq_none.mp hclean.2
    exact ⟨beside_record le_rfl, _, _, tracked_loaded (follows_reload hload) hbounds hbytes htext
      hconflict hsaving (Function.update_self _ _ _)⟩

omit [CharTables] [Allocation] in
theorem bounds_of_fromBytes {bounds : DocumentBounds} {text : TextDocument}
    (h : TextDocument.fromBytes bytes bounds = .ok text) : text.bounds = bounds := by
  obtain ⟨body, -, rfl⟩ := TextDocument.fromBytes_eq_ok_iff.mp h
  rfl

omit [CharTables] [Allocation] in
theorem bounds_of_fromUnsavedBytes {bounds : DocumentBounds} {text : TextDocument}
    (h : TextDocument.fromUnsavedBytes bytes bounds = .ok text) : text.bounds = bounds := by
  obtain ⟨loaded, hload, rfl⟩ := TextDocument.fromUnsavedBytes_ok h
  have hloaded := bounds_of_fromBytes hload
  exact hloaded

section

omit [CharTables]

theorem Effect.documents (h : Sound registry) (heffect : Effect registry op registry') :
    ∀ document entry, registry'.documents.documents.get document = some entry →
      document ≤ registry'.documents.nextDocument ∧ ∃ saved point, Tracked registry' document entry saved point := by
  cases heffect with
  | refused => exact h.documents
  | target | read =>
    intro document entry hentry
    obtain ⟨hknown, saved, point, htracked⟩ := h.documents document entry hentry
    exact ⟨hknown, saved, point, htracked.remembered fun _ => beside_of_same rfl rfl rfl rfl le_rfl⟩
  | viewed hdocuments hdocument hoperation =>
    intro document entry hentry
    rw [hdocuments] at hentry
    obtain ⟨hknown, saved, point, htracked⟩ := h.documents document entry hentry
    exact ⟨hknown.trans hdocument.ge, saved, point,
      htracked.remembered fun _ => beside_of_same rfl rfl rfl rfl hoperation.ge⟩
  | @opened documents origin bytes entry hload hconflict hsaving hdocument hoperation hdocuments =>
    have hentries : ∀ other, documents.documents.get other =
        if other = documents.nextDocument then some entry else registry.documents.documents.get other := by
      intro other
      rw [hdocuments]
      exact Table.get_insert _ _ _ _
    have hnext : registry.documents.nextDocument ≤ documents.nextDocument := by
      rw [hdocument]
      exact Nat.le_succ _
    by_cases huntitled : origin.isUntitled = true
    · rw [if_pos huntitled] at hload ⊢
      exact documents_of_alter h hentries hnext le_rfl (beside_record hoperation.ge)
        (tracked_unsaved (follows_unsaved hload) (bounds_of_fromUnsavedBytes hload) hconflict hsaving
          (Function.update_self _ _ _))
    · rw [if_neg huntitled] at hload ⊢
      exact documents_of_alter h hentries hnext le_rfl (beside_record hoperation.ge)
        (tracked_loaded (follows_loaded hload) (bounds_of_fromBytes hload) hload rfl hconflict hsaving
          (Function.update_self _ _ _))
  | released hentry hdiscard hdocument hoperation hdocuments =>
    intro other found hfound
    rw [hdocuments, Table.get_erase] at hfound
    split at hfound
    · cases hfound
    · obtain ⟨hknown, saved, point, htracked⟩ := h.documents other found hfound
      exact ⟨hknown.trans hdocument.ge, saved, point,
        htracked.remembered fun _ => beside_of_same rfl rfl rfl rfl hoperation.ge⟩
  | typed hentry htext hedits =>
    obtain ⟨hknown, saved, point, htracked⟩ := h.documents _ _ hentry
    exact documents_of_alter h (Documents.get_setEntry _ _ · _) le_rfl hknown
      (beside_of_same rfl rfl rfl rfl le_rfl)
      (htracked.typed htext fun _ => beside_of_same rfl rfl rfl rfl le_rfl)
  | observed hentry hsaving hobserved =>
    obtain ⟨hknown, saved, point, htracked⟩ := h.documents _ _ hentry
    obtain ⟨hbeside, saved', point', htracked'⟩ := tracked_observed hentry htracked hsaving hobserved
    refine documents_of_alter h ?_ ?_ ?_ hbeside htracked'
    · rw [observed_documents]
      exact (Documents.get_setEntry _ _ · _)
    · rw [observed_documents]
      exact le_rfl
    · rw [observed_documents]
      exact hknown
  | kept hentry hconflict =>
    obtain ⟨hknown, saved, point, htracked⟩ := h.documents _ _ hentry
    have hbeside : ∀ {other choice documents}, documents.nextOperation = registry.documents.nextOperation →
        Beside registry { registry with documents, chosen := choice :: registry.chosen } other :=
      fun hoperation => ⟨fun _ _ => rfl, fun _ _ => rfl, fun _ => mem_cons_of_mem _, fun _ hticket _ => hticket,
        hoperation.ge⟩
    refine documents_of_alter h (Documents.get_setEntry _ _ · _) (Nat.le_refl _) hknown (hbeside rfl)
      (htracked.withConflict (fun _ => hbeside rfl) ⟨rfl, rfl, rfl⟩ (.inl rfl) ?_)
    rintro change ⟨⟩ -
    exact mem_cons_self
  | reloaded hentry hsaving hload hedits =>
    obtain ⟨hknown, saved, point, htracked⟩ := h.documents _ _ hentry
    obtain ⟨loaded, hbytes, htext, hbounds⟩ := fromBytes_of_reloadFrom hload
    rw [htracked.bounds] at hbytes hbounds
    exact documents_of_alter h (Documents.get_setEntry _ _ · _) (Nat.le_refl _) hknown
      (beside_record (Nat.le_refl _))
      (tracked_loaded (follows_reload hload) hbounds hbytes htext rfl hsaving (Function.update_self _ _ _))
  | access hentry =>
    obtain ⟨hknown, saved, point, htracked⟩ := h.documents _ _ hentry
    exact documents_of_alter h (Documents.get_setEntry _ _ · _) (Nat.le_refl _) hknown
      (beside_of_same rfl rfl rfl rfl (Nat.le_refl _))
      (htracked.withConflict (fun _ => beside_of_same rfl rfl rfl rfl (Nat.le_refl _))
        ⟨rfl, rfl, rfl⟩ (.inl rfl) htracked.kept)
  | prepared hentry hsaving hsize hclose hsource hoperation hpoint =>
    obtain ⟨hknown, saved, point, htracked⟩ := h.documents _ _ hentry
    have hnext : registry.documents.nextOperation ≤ registry.documents.nextOperation + 1 := Nat.le_succ _
    rw [← hoperation] at hnext
    refine documents_of_alter h (Documents.get_setEntry _ _ · _) (Nat.le_refl _) hknown
      ⟨fun _ _ => rfl, fun _ hother => Function.update_of_ne hother _ _, fun _ hchoice => hchoice, ?_, hnext⟩
      (htracked.prepared h hsize hclose hoperation hpoint rfl (Function.update_self _ _ _) rfl rfl rfl)
    intro ticket hticket hother
    rcases mem_cons.mp hticket with rfl | hold
    · exact absurd rfl hother
    · exact hold
  | finished hticket hentry hsaving hmark =>
    obtain ⟨hknown, saved, point, htracked⟩ := h.documents _ _ hentry
    obtain ⟨written, htracked'⟩ := htracked.finished _ _ hticket hsaving hmark
    exact documents_of_alter h (Documents.get_setEntry _ _ · _) (Nat.le_refl _) hknown
      (beside_record (Nat.le_refl _)) htracked'
  | failed hentry =>
    obtain ⟨hknown, saved, point, htracked⟩ := h.documents _ _ hentry
    exact documents_of_alter h (Documents.get_setEntry _ _ · _) (Nat.le_refl _) hknown
      (beside_of_same rfl rfl rfl rfl (Nat.le_refl _))
      (htracked.withConflict (fun _ => beside_of_same rfl rfl rfl rfl (Nat.le_refl _))
        ⟨rfl, rfl, rfl⟩ (.inr rfl) htracked.kept)

/-! ## What is issued -/

theorem Effect.targets (h : Effect registry op registry') : registry'.targets = registry.targets ∨
    ∃ target entry, registry'.targets = target :: registry.targets ∧
      registry.documents.documents.get target.document = some entry ∧
      target.sourceEpoch = entry.sourceEpoch ∧ target.accessEpoch = entry.accessEpoch := by
  cases h with
  | target hentry hsource haccess => exact .inr ⟨_, _, rfl, hentry, hsource, haccess⟩
  | observed =>
    left
    unfold Registry.observed
    split
    · rfl
    · rfl
  | _ => exact .inl rfl

theorem Effect.reads (h : Effect registry op registry') : registry'.reads = registry.reads ∨
    ∃ ticket entry, registry'.reads = ticket :: registry.reads ∧
      registry.documents.documents.get ticket.document = some entry ∧
      ticket.sourceEpoch = entry.sourceEpoch ∧ ticket.accessEpoch = entry.accessEpoch := by
  cases h with
  | read hentry hsource haccess => exact .inr ⟨_, _, rfl, hentry, hsource, haccess⟩
  | observed =>
    left
    unfold Registry.observed
    split
    · rfl
    · rfl
  | _ => exact .inl rfl

theorem Effect.saves (h : Effect registry op registry') : registry'.saves = registry.saves ∨
    ∃ ticket entry, registry'.saves = ticket :: registry.saves ∧
      registry.documents.documents.get ticket.document = some entry ∧
      ticket.sourceEpoch = entry.sourceEpoch ∧ registry'.documents.nextOperation = ticket.operation := by
  cases h with
  | prepared hentry _ _ _ hsource => exact .inr ⟨_, _, rfl, hentry, hsource, rfl⟩
  | observed =>
    left
    unfold Registry.observed
    split
    · rfl
    · rfl
  | _ => exact .inl rfl

theorem Sound.issued (h : Sound registry) (hentry : registry.documents.documents.get document = some entry) :
    Issued registry.documents document entry.sourceEpoch entry.accessEpoch := by
  refine ⟨(h.documents document entry hentry).1, fun found hfound => ?_⟩
  cases hentry.symm.trans hfound
  exact ⟨le_rfl, le_rfl⟩

theorem Sound.start : Sound .start where
  documents _ _ hentry := by cases hentry
  targets _ htarget := by cases htarget
  reads _ hticket := by cases hticket
  saves _ hticket := by cases hticket

end

theorem Sound.step (h : Sound registry) (hstep : registry.step op = some registry') : Sound registry' := by
  have heffect := step_effect hstep
  have hlater := heffect.later
  refine ⟨heffect.documents h, ?_, ?_, ?_⟩
  · intro target htarget
    rcases heffect.targets with hsame | ⟨issued, entry, hnew, hentry, hsource, haccess⟩
    · exact (h.targets target (hsame ▸ htarget)).later hlater
    · rw [hnew] at htarget
      rcases mem_cons.mp htarget with rfl | hold
      · rw [hsource, haccess]
        exact (h.issued hentry).later hlater
      · exact (h.targets target hold).later hlater
  · intro ticket hticket
    rcases heffect.reads with hsame | ⟨issued, entry, hnew, hentry, hsource, haccess⟩
    · exact (h.reads ticket (hsame ▸ hticket)).later hlater
    · rw [hnew] at hticket
      rcases mem_cons.mp hticket with rfl | hold
      · rw [hsource, haccess]
        exact (h.issued hentry).later hlater
      · exact (h.reads ticket hold).later hlater
  · intro ticket hticket
    have hkept : ∀ ticket ∈ registry.saves, Issued registry'.documents ticket.document ticket.sourceEpoch 0 ∧
        ticket.operation ≤ registry'.documents.nextOperation := by
      intro ticket hold
      obtain ⟨hissued, hoperation⟩ := h.saves ticket hold
      exact ⟨hissued.later hlater, hoperation.trans hlater.nextOperation⟩
    rcases heffect.saves with hsame | ⟨issued, entry, hnew, hentry, hsource, hoperation⟩
    · exact hkept ticket (hsame ▸ hticket)
    · rw [hnew] at hticket
      rcases mem_cons.mp hticket with rfl | hold
      · obtain ⟨hknown, hepochs⟩ := (h.issued hentry).later hlater
        rw [hsource]
        exact ⟨⟨hknown, fun found hfound => ⟨(hepochs found hfound).1, Nat.zero_le _⟩⟩, hoperation.ge⟩
      · exact hkept ticket hold

theorem sound_of_reaches (h : Runs.Reaches Registry.step (fun _ _ => True) Registry.start registry) :
    Sound registry := by
  induction h with
  | refl => exact .start
  | step _ _ hstep ih => exact ih.step hstep

/-! ## What outdates a target or a ticket -/

omit [CharTables] [Allocation] in
theorem settle_of_ok {α : Type} {request : Request α} {accepted : α → Registry} {result : α}
    (h : request.run = some (.ok result)) : registry.settle request accepted = some (accepted result) := by
  unfold Registry.settle
  rw [h]

omit [CharTables] [Allocation] in
theorem pastSource_of_setEntry {documents : Documents} (h : Issued documents document sourceEpoch accessEpoch)
    (hentry : documents.documents.get document = some entry) (hlater : entry.sourceEpoch < entry'.sourceEpoch) :
    PastSource (documents.setEntry document entry') document sourceEpoch := by
  refine ⟨h.1, fun found hfound => ?_⟩
  rw [Documents.get_setEntry, if_pos rfl] at hfound
  cases hfound
  exact (h.2 entry hentry).1.trans_lt hlater

theorem pastSource_of_step
    (h : Issued registry.documents document sourceEpoch accessEpoch) (hstep : registry.step op = some registry')
    (hreloads : op.Reloads registry document) : PastSource registry'.documents document sourceEpoch := by
  cases op with
  | reload view =>
    obtain ⟨hview, documents, hrun⟩ := hreloads
    cases (settle_of_ok hrun).symm.trans hstep
    obtain ⟨found, entry, change, text, hentry, -, hconflict, -, rfl⟩ := Documents.reload_spec hrun
    rw [Registry.reloaded, conflictOf_eq hentry hconflict]
    obtain ⟨hfound, hentry⟩ := Documents.entryFor_eq_ok.mp hentry
    cases hfound.symm.trans hview
    exact pastSource_of_setEntry h hentry (Nat.lt_succ_self _)
  | observe ticket snapshot =>
    obtain ⟨rfl, documents, hrun⟩ := hreloads
    cases (settle_of_ok hrun).symm.trans hstep
    obtain ⟨entry, entry', hentry, -, -, -, -, hobserved, rfl⟩ := Documents.observe_spec hrun
    rw [observed_documents]
    refine pastSource_of_setEntry h hentry ?_
    cases hobserved with
    | settled => exact Nat.lt_succ_self _
    | conflicting => exact Nat.lt_succ_self _
    | loaded => exact Nat.lt_succ_self _
  | _ => exact hreloads.elim

theorem pastAccess_of_step
    (h : Issued registry.documents document sourceEpoch accessEpoch) (hstep : registry.step op = some registry')
    (hchanges : op.ChangesAccess registry document) : PastAccess registry'.documents document accessEpoch := by
  cases op with
  | setAccess changed available writable =>
    obtain ⟨rfl, documents, hrun⟩ := hchanges
    cases (settle_of_ok hrun).symm.trans hstep
    obtain ⟨entry, hentry, rfl⟩ := Documents.setAccess_spec hrun
    refine ⟨h.1, fun found hfound => ?_⟩
    rw [Documents.get_setEntry, if_pos rfl] at hfound
    cases hfound
    exact (h.2 entry hentry).2.trans_lt (Nat.lt_succ_self _)
  | _ => exact hchanges.elim

theorem pastSave_of_step (h : Sound registry) {ticket : SaveTicket} (hticket : ticket ∈ registry.saves)
    (hstep : registry.step op = some registry') (hends : op.EndsSave registry ticket) :
    PastSave registry'.documents ticket := by
  obtain ⟨⟨hknown, -⟩, hoperation⟩ := h.saves ticket hticket
  cases op with
  | finishSave finished version =>
    obtain ⟨rfl, documents, hrun⟩ := hends
    rw [Registry.step, if_pos hticket] at hstep
    cases (settle_of_ok hrun).symm.trans hstep
    obtain ⟨entry, text, -, -, rfl⟩ := Documents.finishSave_spec hrun
    refine ⟨hknown, hoperation, fun found hfound => ?_⟩
    change Table.get _ _ = some found at hfound
    rw [Registry.record, Documents.get_setEntry, if_pos rfl] at hfound
    cases hfound
    intro hsame
    cases hsame
  | failSave failed =>
    obtain ⟨rfl, documents, hrun⟩ := hends
    rw [Registry.step, if_pos hticket] at hstep
    cases (settle_of_ok hrun).symm.trans hstep
    obtain ⟨entry, -, rfl⟩ := Documents.failSave_spec hrun
    refine ⟨hknown, hoperation, fun found hfound => ?_⟩
    rw [Documents.get_setEntry, if_pos rfl] at hfound
    cases hfound
    intro hsame
    cases hsame
  | _ => exact hends.elim

end

end FesTerm.MobileDocs
