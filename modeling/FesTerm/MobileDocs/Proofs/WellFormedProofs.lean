import FesTerm.MobileDocs.WellFormed
import FesTerm.MobileDocs.Proofs.InPlaceProofs

/-!
# The registry stays well formed

Every method that returns has made one of seven moves or none. The moves keep the maps together, and name
new documents, views and saves above all that were named.
-/

namespace FesTerm.MobileDocs.Documents

open Document Procedure Table

variable [CharTables]

/-- What a request makes of the registry. -/
inductive Move (documents : Documents) (op : RegistryOp) : Documents → Prop
  | looked : Move documents op documents
  | edited {document : DocumentId} {entry entry' : OpenDocument}
    (hentry : documents.documents.get document = some entry) (horigin : entry'.origin = entry.origin)
    (hsaving : entry'.saving = entry.saving ∨ entry'.saving = none) :
    Move documents op (documents.setEntry document entry')
  | begun {document : DocumentId} {entry entry' : OpenDocument} {operation : Nat}
    (hentry : documents.documents.get document = some entry) (horigin : entry'.origin = entry.origin)
    (hsaving : entry'.saving = some operation) (hoperation : operation = documents.nextOperation + 1) :
    Move documents op { documents.setEntry document entry' with nextOperation := operation }
  | viewed {document : DocumentId} {view : ViewId} (hlimit : documents.views.entries.length < maxViews)
    (hview : view = documents.nextView + 1)
    (hopen : documents.WellFormed → documents.HasDocument document) :
    Move documents op { documents with nextView := view, views := documents.views.insert view document }
  | opened {document : DocumentId} {view : ViewId} {entry : OpenDocument}
    (horigin : documents.origins.get entry.origin.key = none) (hsaving : entry.saving = none)
    (hdocuments : documents.documents.entries.length < maxDocuments)
    (hviews : documents.views.entries.length < maxViews) (hdocument : document = documents.nextDocument + 1)
    (hview : view = documents.nextView + 1) :
    Move documents op
      { documents with
        nextDocument := document
        origins := documents.origins.insert entry.origin.key document
        documents := documents.documents.insert document entry
        nextView := view
        views := documents.views.insert view document }
  | closed {view : ViewId} {document : DocumentId} (hview : documents.views.get view = some document)
    (hmore : documents.views.count (· = document) ≠ 1) :
    Move documents op { documents with views := documents.views.erase view }
  | released {view : ViewId} {document : DocumentId} {entry : OpenDocument} {discard : Bool}
    (hop : op = .close view discard) (hview : documents.views.get view = some document)
    (hlast : documents.views.count (· = document) = 1) (hentry : documents.documents.get document = some entry)
    (hsaving : entry.saving = none) (hdirty : entry.dirty = true → discard = true) :
    Move documents op
      { documents with
        views := documents.views.erase view
        documents := documents.documents.erase document
        origins := documents.origins.erase entry.origin.key }

variable {documents documents' after later : Documents} {op : RegistryOp} {view : ViewId} {document : DocumentId}
  {entry : OpenDocument}

/-! ## The views of a document -/

variable {entry' : OpenDocument}

section

omit [CharTables]

theorem eq_of_last {other : ViewId} (hlast : documents.views.count (· = document) = 1)
    (hview : documents.views.get view = some document) (hother : documents.views.get other = some document) :
    other = view := by
  by_contra hne
  have hrest : (documents.views.erase view).count (· = document) = 0 := by
    have hcount := count_of_get hview (· = document)
    simp only [decide_true, if_true] at hcount
    omega
  have hmem : (other, document) ∈ (documents.views.erase view).entries := by
    rw [← get_eq_some, get_erase, if_neg hne]
    exact hother
  have hfalse := count_eq_zero.mp hrest _ hmem
  simp at hfalse

theorem exists_other_view (hmore : documents.views.count (· = document) ≠ 1)
    (hview : documents.views.get view = some document) :
    ∃ other, other ≠ view ∧ documents.views.get other = some document := by
  by_contra hnone
  push Not at hnone
  apply hmore
  have hrest : (documents.views.erase view).count (· = document) = 0 := by
    refine count_eq_zero.mpr fun found hfound => ?_
    have hget : (documents.views.erase view).get found.1 = some found.2 := get_eq_some.mpr hfound
    rw [get_erase] at hget
    split at hget
    · cases hget
    · next hne =>
      rw [decide_eq_false_iff_not]
      rintro rfl
      exact hnone found.1 hne hget
  have hcount := count_of_get hview (· = document)
  simpa [hrest] using hcount

theorem count_eq_one (hview : documents.views.get view = some document)
    (honly : ∀ other, documents.views.get other = some document → other = view) :
    documents.views.count (· = document) = 1 := by
  by_contra hmore
  obtain ⟨other, hne, hother⟩ := exists_other_view hmore hview
  exact hne (honly other hother)

/-! ## Every move keeps the registry well formed -/

theorem hasDocument_setEntry (hentry : documents.documents.get document = some entry)
    {other : DocumentId} :
    (documents.setEntry document entry').HasDocument other ↔ documents.HasDocument other := by
  unfold HasDocument
  rw [get_setEntry]
  by_cases h : other = document
  · subst h
    simp [hentry]
  · simp [h]

end

/-- An entry is changed, or gets a save of its own. -/
theorem WellFormed.changed (h : documents.WellFormed) {next : Nat}
    (hentry : documents.documents.get document = some entry) (horigin : entry'.origin = entry.origin)
    (hnext : documents.nextOperation ≤ next)
    (hsaving : ∀ operation, entry'.saving = some operation →
      entry.saving = some operation ∨ documents.nextOperation < operation ∧ operation ≤ next) :
    WellFormed { documents.setEntry document entry' with nextOperation := next } where
  origins key other := by
    show documents.origins.get key = some other ↔
      ∃ found, (documents.setEntry document entry').documents.get other = some found ∧ found.origin.key = key
    rw [h.origins key other, get_setEntry]
    by_cases hother : other = document
    · subst hother
      simp [hentry, horigin]
    · simp [hother]
  views view other hview := (hasDocument_setEntry hentry).mpr (h.views view other hview)
  viewed other hother := h.viewed other ((hasDocument_setEntry hentry).mp hother)
  documentLimit := (length_insert_of_get hentry entry').trans h.documentLimit
  viewLimit := h.viewLimit
  documentIds other hother := h.documentIds other ((hasDocument_setEntry hentry).mp hother)
  viewIds := h.viewIds
  saveIds := by
    rintro operation ⟨other, found, hfound, hsave⟩
    rw [show ({ documents.setEntry document entry' with nextOperation := next } : Documents).documents.get other =
      (documents.setEntry document entry').documents.get other from rfl, get_setEntry] at hfound
    split at hfound
    · cases hfound
      rcases hsaving operation hsave with hold | ⟨-, hle⟩
      · exact (h.saveIds operation ⟨document, entry, hentry, hold⟩).trans hnext
      · exact hle
    · exact (h.saveIds operation ⟨other, found, hfound, hsave⟩).trans hnext
  saves first second found found' operation hfirst hsecond hsave hsave' := by
    -- an entry that was not changed has a save that was handed out before
    have hold : ∀ {other : DocumentId} {found : OpenDocument},
        (documents.setEntry document entry').documents.get other = some found → found.saving = some operation →
        (∃ found, documents.documents.get other = some found ∧ found.saving = some operation) ∨
          other = document ∧ documents.nextOperation < operation := by
      intro other found hfound hsave
      rw [get_setEntry] at hfound
      split at hfound
      · next heq =>
        cases hfound
        rcases hsaving operation hsave with hold | ⟨hlt, -⟩
        · exact .inl ⟨entry, heq ▸ hentry, hold⟩
        · exact .inr ⟨heq, hlt⟩
      · exact .inl ⟨found, hfound, hsave⟩
    rcases hold hfirst hsave with ⟨old, hget, hsaves⟩ | ⟨rfl, hlt⟩
    · rcases hold hsecond hsave' with ⟨old', hget', hsaves'⟩ | ⟨rfl, hlt⟩
      · exact h.saves first second old old' operation hget hget' hsaves hsaves'
      · have := h.saveIds operation ⟨first, old, hget, hsaves⟩
        omega
    · rcases hold hsecond hsave' with ⟨old', hget', hsaves'⟩ | ⟨rfl, -⟩
      · have := h.saveIds operation ⟨second, old', hget', hsaves'⟩
        omega
      · rfl

theorem WellFormed.viewed_more (h : documents.WellFormed) (hlimit : documents.views.entries.length < maxViews)
    (hopen : documents.HasDocument document) (hview : view = documents.nextView + 1) :
    WellFormed { documents with nextView := view, views := documents.views.insert view document } where
  origins := h.origins
  views other found hfound := by
    simp only [get_insert] at hfound
    split at hfound
    · cases hfound
      exact hopen
    · exact h.views other found hfound
  viewed other hother := by
    obtain ⟨old, hold⟩ := h.viewed other hother
    refine ⟨old, ?_⟩
    have hlt : old < view := hview ▸ Nat.lt_succ_of_le (h.viewIds old ⟨other, hold⟩)
    simp only [get_insert]
    rw [if_neg hlt.ne]
    exact hold
  documentLimit := h.documentLimit
  viewLimit := (documents.views.length_insert_le view document).trans hlimit
  documentIds := h.documentIds
  viewIds := by
    rintro other ⟨found, hfound⟩
    simp only [get_insert] at hfound
    split at hfound
    · next heq => exact heq.le
    · exact (h.viewIds other ⟨found, hfound⟩).trans (hview ▸ Nat.le_succ _)
  saveIds := h.saveIds
  saves := h.saves

/-- A document whose origin is not open, under an id and a view of its own. -/
theorem WellFormed.opened (h : documents.WellFormed) (horigin : documents.origins.get entry.origin.key = none)
    (hsaving : entry.saving = none) (hdocuments : documents.documents.entries.length < maxDocuments)
    (hviews : documents.views.entries.length < maxViews) (hdocument : document = documents.nextDocument + 1)
    (hview : view = documents.nextView + 1) :
    WellFormed { documents with
      nextDocument := document
      origins := documents.origins.insert entry.origin.key document
      documents := documents.documents.insert document entry
      nextView := view
      views := documents.views.insert view document } := by
  have hfresh : ∀ other found, documents.documents.get other = some found → other ≠ document := by
    intro other found hfound
    have hlt : other < document := hdocument ▸ Nat.lt_succ_of_le (h.documentIds other ⟨found, hfound⟩)
    exact hlt.ne
  have hhas : ∀ other, (∃ found, (documents.documents.insert document entry).get other = some found) ↔
      other = document ∨ documents.HasDocument other := by
    intro other
    rw [get_insert]
    by_cases hother : other = document
    · simp [hother]
    · simp [hother, HasDocument]
  exact {
    origins := by
      intro key other
      simp only [get_insert]
      by_cases hkey : key = entry.origin.key
      · rw [if_pos hkey]
        constructor
        · intro hother
          cases hother
          exact ⟨entry, if_pos rfl, hkey.symm⟩
        · rintro ⟨found, hfound, hfoundKey⟩
          split at hfound
          · next heq => rw [heq]
          · have hopen := (h.origins key other).mpr ⟨found, hfound, hfoundKey⟩
            rw [hkey, horigin] at hopen
            cases hopen
      · rw [if_neg hkey, h.origins key other]
        constructor
        · rintro ⟨found, hfound, hfoundKey⟩
          exact ⟨found, by rw [if_neg (hfresh other found hfound)]; exact hfound, hfoundKey⟩
        · rintro ⟨found, hfound, hfoundKey⟩
          split at hfound
          · cases hfound
            exact absurd hfoundKey.symm hkey
          · exact ⟨found, hfound, hfoundKey⟩
    views := by
      intro other found hfound
      simp only [get_insert] at hfound
      refine (hhas found).mpr ?_
      split at hfound
      · exact .inl (Option.some.inj hfound).symm
      · exact .inr (h.views other found hfound)
    viewed := by
      intro other hother
      rcases (hhas other).mp hother with rfl | hold
      · exact ⟨view, by simp⟩
      · obtain ⟨old, hget⟩ := h.viewed other hold
        have hlt : old < view := hview ▸ Nat.lt_succ_of_le (h.viewIds old ⟨other, hget⟩)
        refine ⟨old, ?_⟩
        simp only [get_insert]
        rw [if_neg hlt.ne]
        exact hget
    documentLimit := (documents.documents.length_insert_le document entry).trans hdocuments
    viewLimit := (documents.views.length_insert_le view document).trans hviews
    documentIds := by
      intro other hother
      show other ≤ document
      rcases (hhas other).mp hother with rfl | hold
      · exact le_rfl
      · exact (h.documentIds other hold).trans (hdocument ▸ Nat.le_succ _)
    viewIds := by
      rintro other ⟨found, hfound⟩
      show other ≤ view
      simp only [get_insert] at hfound
      split at hfound
      · next heq => exact heq.le
      · exact (h.viewIds other ⟨found, hfound⟩).trans (hview ▸ Nat.le_succ _)
    saveIds := by
      rintro operation ⟨other, found, hfound, hsave⟩
      simp only [get_insert] at hfound
      split at hfound
      · cases hfound
        rw [hsaving] at hsave
        cases hsave
      · exact h.saveIds operation ⟨other, found, hfound, hsave⟩
    saves := by
      intro first second found found' operation hfirst hsecond hsave hsave'
      simp only [get_insert] at hfirst hsecond
      split at hfirst
      · cases hfirst
        rw [hsaving] at hsave
        cases hsave
      · split at hsecond
        · cases hsecond
          rw [hsaving] at hsave'
          cases hsave'
        · exact h.saves first second found found' operation hfirst hsecond hsave hsave' }

/-- A view that is not the last one of its document. -/
theorem WellFormed.closed (h : documents.WellFormed) (hview : documents.views.get view = some document)
    (hmore : documents.views.count (· = document) ≠ 1) :
    WellFormed { documents with views := documents.views.erase view } where
  origins := h.origins
  views other found hfound := by
    simp only [get_erase] at hfound
    split at hfound
    · cases hfound
    · exact h.views other found hfound
  viewed other hother := by
    obtain ⟨old, hold⟩ := h.viewed other hother
    by_cases hsame : old = view
    · subst hsame
      cases hview.symm.trans hold
      obtain ⟨another, hne, hanother⟩ := exists_other_view hmore hview
      refine ⟨another, ?_⟩
      simp only [get_erase]
      rw [if_neg hne]
      exact hanother
    · refine ⟨old, ?_⟩
      simp only [get_erase]
      rw [if_neg hsame]
      exact hold
  documentLimit := h.documentLimit
  viewLimit := (documents.views.length_erase_le view).trans h.viewLimit
  documentIds := h.documentIds
  viewIds := by
    rintro other ⟨found, hfound⟩
    simp only [get_erase] at hfound
    split at hfound
    · cases hfound
    · exact h.viewIds other ⟨found, hfound⟩
  saveIds := h.saveIds
  saves := h.saves

/-- The last view of a document, with the document. -/
theorem WellFormed.released (h : documents.WellFormed) (hview : documents.views.get view = some document)
    (hlast : documents.views.count (· = document) = 1)
    (hentry : documents.documents.get document = some entry) :
    WellFormed { documents with
      views := documents.views.erase view
      documents := documents.documents.erase document
      origins := documents.origins.erase entry.origin.key } := by
  have hget : ∀ {other : DocumentId} {found : OpenDocument},
      (documents.documents.erase document).get other = some found ↔
        other ≠ document ∧ documents.documents.get other = some found := by
    intro other found
    rw [get_erase]
    by_cases hother : other = document
    · simp [hother]
    · simp [hother]
  have hkey := (h.origins entry.origin.key document).mpr ⟨entry, hentry, rfl⟩
  exact {
    origins := by
      intro key other
      simp only [get_erase]
      by_cases hsame : key = entry.origin.key
      · rw [if_pos hsame]
        constructor
        · intro hfound
          cases hfound
        · rintro ⟨found, hfound, hfoundKey⟩
          obtain ⟨hne, hfound⟩ := hget.mp (by rw [get_erase]; exact hfound)
          have hother := (h.origins key other).mpr ⟨found, hfound, hfoundKey⟩
          rw [hsame, hkey] at hother
          exact absurd (Option.some.inj hother).symm hne
      · rw [if_neg hsame, h.origins key other]
        refine exists_congr fun found => and_congr_left fun hfoundKey => ?_
        rw [← get_erase, hget]
        refine ⟨fun hfound => ⟨?_, hfound⟩, fun hfound => hfound.2⟩
        rintro rfl
        cases hentry.symm.trans hfound
        exact hsame hfoundKey.symm
    views := by
      intro other found hfound
      simp only [get_erase] at hfound
      split at hfound
      · cases hfound
      · next hne =>
        obtain ⟨old, hold⟩ := h.views other found hfound
        refine ⟨old, hget.mpr ⟨?_, hold⟩⟩
        rintro rfl
        exact hne (eq_of_last hlast hview hfound)
    viewed := by
      rintro other ⟨found, hfound⟩
      obtain ⟨hne, hfound⟩ := hget.mp hfound
      obtain ⟨old, hold⟩ := h.viewed other ⟨found, hfound⟩
      refine ⟨old, ?_⟩
      simp only [get_erase]
      rw [if_neg]
      · exact hold
      · rintro rfl
        exact hne (Option.some.inj (hold.symm.trans hview))
    documentLimit := (documents.documents.length_erase_le document).trans h.documentLimit
    viewLimit := (documents.views.length_erase_le view).trans h.viewLimit
    documentIds := by
      rintro other ⟨found, hfound⟩
      exact h.documentIds other ⟨found, (hget.mp hfound).2⟩
    viewIds := by
      rintro other ⟨found, hfound⟩
      simp only [get_erase] at hfound
      split at hfound
      · cases hfound
      · exact h.viewIds other ⟨found, hfound⟩
    saveIds := by
      rintro operation ⟨other, found, hfound, hsave⟩
      exact h.saveIds operation ⟨other, found, (hget.mp hfound).2, hsave⟩
    saves := fun first second found found' operation hfirst hsecond =>
      h.saves first second found found' operation (hget.mp hfirst).2 (hget.mp hsecond).2 }

theorem WellFormed.empty : WellFormed .empty where
  origins key document := by simp [Documents.empty]
  views view document hview := by simp [Documents.empty] at hview
  viewed document hdocument := by simp [Documents.empty, HasDocument] at hdocument
  documentLimit := Nat.zero_le _
  viewLimit := Nat.zero_le _
  documentIds document hdocument := by simp [Documents.empty, HasDocument] at hdocument
  viewIds view hview := by simp [Documents.empty, HasView] at hview
  saveIds operation hsave := by simp [Documents.empty, HasSave] at hsave
  saves document other entry entry' operation hentry := by simp [Documents.empty] at hentry

theorem WellFormed.step (h : documents.WellFormed) (hmove : Move documents op after) : after.WellFormed := by
  cases hmove with
  | looked => exact h
  | edited hentry horigin hsaving =>
    refine h.changed hentry horigin le_rfl fun operation hsave => .inl ?_
    rcases hsaving with hsame | hnone
    · rw [← hsame]
      exact hsave
    · rw [hnone] at hsave
      cases hsave
  | begun hentry horigin hsaving hoperation =>
    refine h.changed hentry horigin (by omega) fun operation hsave => .inr ?_
    cases hsaving.symm.trans hsave
    omega
  | viewed hlimit hview hopen => exact h.viewed_more hlimit (hopen h) hview
  | opened horigin hsaving hdocuments hviews hdocument hview =>
    exact h.opened horigin hsaving hdocuments hviews hdocument hview
  | closed hview hmore => exact h.closed hview hmore
  | released hop hview hlast hentry hsaving hdirty => exact h.released hview hlast hentry

/-! ## What is named after a move was named before or is new -/

/-- Whatever is there after a step and was not there before it has a name above all earlier ones. -/
structure Grows (documents after : Documents) : Prop where
  documentCounter : documents.nextDocument ≤ after.nextDocument
  viewCounter : documents.nextView ≤ after.nextView
  saveCounter : documents.nextOperation ≤ after.nextOperation
  opens : ∀ document, after.HasDocument document →
    documents.HasDocument document ∨ documents.nextDocument < document
  views : ∀ view document, after.views.get view = some document →
    documents.views.get view = some document ∨ documents.nextView < view
  saves : ∀ operation, after.HasSave operation → documents.HasSave operation ∨ documents.nextOperation < operation

omit [CharTables] in
theorem Grows.refl (documents : Documents) : Grows documents documents :=
  ⟨le_rfl, le_rfl, le_rfl, fun _ h => .inl h, fun _ _ h => .inl h, fun _ h => .inl h⟩

omit [CharTables] in
theorem grows_changed {next : Nat}
    (hentry : documents.documents.get document = some entry) (hnext : documents.nextOperation ≤ next)
    (hsaving : ∀ operation, entry'.saving = some operation →
      entry.saving = some operation ∨ documents.nextOperation < operation) :
    Grows documents { documents.setEntry document entry' with nextOperation := next } where
  documentCounter := le_rfl
  viewCounter := le_rfl
  saveCounter := hnext
  opens other hother := .inl ((hasDocument_setEntry hentry).mp hother)
  views _ _ hview := .inl hview
  saves := by
    rintro operation ⟨other, found, hfound, hsave⟩
    rw [show ({ documents.setEntry document entry' with nextOperation := next } : Documents).documents.get other =
      (documents.setEntry document entry').documents.get other from rfl, get_setEntry] at hfound
    split at hfound
    · cases hfound
      rcases hsaving operation hsave with hold | hlt
      · exact .inl ⟨document, entry, hentry, hold⟩
      · exact .inr hlt
    · exact .inl ⟨other, found, hfound, hsave⟩

theorem Move.grows (hmove : Move documents op after) : Grows documents after := by
  cases hmove with
  | looked => exact .refl documents
  | edited hentry horigin hsaving =>
    refine grows_changed hentry le_rfl fun operation hsave => .inl ?_
    rcases hsaving with hsame | hnone
    · rw [← hsame]
      exact hsave
    · rw [hnone] at hsave
      cases hsave
  | begun hentry horigin hsaving hoperation =>
    refine grows_changed hentry (by omega) fun operation hsave => .inr ?_
    cases hsaving.symm.trans hsave
    omega
  | @viewed document view hlimit hview hopen =>
    refine { Grows.refl documents with viewCounter := hview ▸ Nat.le_succ _, views := fun other found hfound => ?_ }
    simp only [get_insert] at hfound
    split at hfound
    · next heq => exact .inr (heq ▸ hview ▸ Nat.lt_succ_self _)
    · exact .inl hfound
  | @opened document view entry horigin hsaving hdocuments hviews hdocument hview =>
    exact {
      documentCounter := hdocument ▸ Nat.le_succ _
      viewCounter := hview ▸ Nat.le_succ _
      saveCounter := le_rfl
      opens := by
        rintro other ⟨found, hfound⟩
        simp only [get_insert] at hfound
        split at hfound
        · next heq => exact .inr (heq ▸ hdocument ▸ Nat.lt_succ_self _)
        · exact .inl ⟨found, hfound⟩
      views := by
        intro other found hfound
        simp only [get_insert] at hfound
        split at hfound
        · next heq => exact .inr (heq ▸ hview ▸ Nat.lt_succ_self _)
        · exact .inl hfound
      saves := by
        rintro operation ⟨other, found, hfound, hsave⟩
        simp only [get_insert] at hfound
        split at hfound
        · cases hfound
          rw [hsaving] at hsave
          cases hsave
        · exact .inl ⟨other, found, hfound, hsave⟩ }
  | @closed view document hview hmore =>
    refine { Grows.refl documents with views := fun other found hfound => ?_ }
    simp only [get_erase] at hfound
    split at hfound
    · cases hfound
    · exact .inl hfound
  | @released view document entry discard hop hview hlast hentry hsaving hdirty =>
    have hget : ∀ {other : DocumentId} {found : OpenDocument},
        (documents.documents.erase document).get other = some found → documents.documents.get other = some found := by
      intro other found hfound
      rw [get_erase] at hfound
      split at hfound
      · cases hfound
      · exact hfound
    exact {
      documentCounter := le_rfl
      viewCounter := le_rfl
      saveCounter := le_rfl
      opens := by
        rintro other ⟨found, hfound⟩
        exact .inl ⟨found, hget hfound⟩
      views := by
        intro other found hfound
        simp only [get_erase] at hfound
        split at hfound
        · cases hfound
        · exact .inl hfound
      saves := by
        rintro operation ⟨other, found, hfound, hsave⟩
        exact .inl ⟨other, found, hget hfound, hsave⟩ }

/-! ## Every accepted request is a move -/

variable {next : ViewId}

theorem duplicateDocument_move (h : (documents.duplicateDocument document).run = some (.ok (next, after)))
    (hopen : documents.WellFormed → documents.HasDocument document) : Move documents op after := by
  unfold duplicateDocument at h
  simp only [ok_unless, ok_bind, ok_check, ok_pure] at h
  obtain ⟨hlimit, _, hnext, h⟩ := h
  cases h
  exact .viewed (not_le.mp hlimit) (nextId_eq_ok hnext) hopen

theorem duplicate_move (h : (documents.duplicate view).run = some (.ok (next, after))) :
    Move documents op after := by
  unfold duplicate at h
  simp only [ok_bind, ok_check] at h
  obtain ⟨document, hdocument, h⟩ := h
  exact duplicateDocument_move h fun hformed => hformed.views view document (documentFor_eq_ok.mp hdocument)

variable {bytes : List UInt8}

theorem openDocument_move {origin : DocumentOrigin} {version : Option SourceVersion} {writable : Bool}
    (h : (documents.openDocument origin bytes version writable).run = some (.ok (next, after))) :
    Move documents op after := by
  unfold openDocument at h
  split at h
  · next document hopen =>
    refine duplicateDocument_move h fun hformed => ?_
    obtain ⟨entry, hentry, -⟩ := (hformed.origins _ _).mp hopen
    exact ⟨entry, hentry⟩
  · next hclosed =>
    simp only [ok_unless, ok_bind, ok_check, ok_engine, ok_pure, not_or, not_le] at h
    obtain ⟨⟨hdocuments, hviews⟩, text, htext, document, hdocument, view, hview, h⟩ := h
    cases h
    exact .opened (by exact hclosed) (by rfl) hdocuments hviews (nextId_eq_ok hdocument) (nextId_eq_ok hview)

variable {outcome : CloseOutcome} {discard : Bool}

/-- A close that is accepted does nothing, takes out a view of several, or the last view with its document. -/
theorem close_cases (h : (documents.close view discard).run = some (.ok (outcome, after))) :
    after = documents ∨ ∃ document entry, documents.views.get view = some document ∧
      documents.documents.get document = some entry ∧
      (documents.views.count (· = document) ≠ 1 ∧ after = { documents with views := documents.views.erase view } ∨
        documents.views.count (· = document) = 1 ∧ entry.saving = none ∧ (entry.dirty = true → discard = true) ∧
          after =
            { documents with
              views := documents.views.erase view
              documents := documents.documents.erase document
              origins := documents.origins.erase entry.origin.key }) := by
  unfold close at h
  simp only [ok_unless, ok_bind, ok_check] at h
  obtain ⟨document, hdocument, entry, hentry, hsaving, h⟩ := h
  rw [get_eq_ok] at hentry
  rw [documentFor_eq_ok] at hdocument
  split at h
  · rw [ok_pure] at h
    cases h
    exact .inl rfl
  · next hconfirmed =>
    refine .inr ⟨document, entry, hdocument, hentry, ?_⟩
    split at h
    · next hlast =>
      rw [ok_pure] at h
      cases h
      have hnone : entry.saving = none := by
        cases hfound : entry.saving with
        | none => rfl
        | some operation => exact absurd ⟨hlast, by rw [OpenDocument.isSaving, hfound]; rfl⟩ hsaving
      refine .inr ⟨hlast, hnone, fun hdirty => ?_, rfl⟩
      by_contra hdiscard
      exact hconfirmed ⟨hlast, hdirty, by simpa using hdiscard⟩
    · next hmore =>
      rw [ok_pure] at h
      cases h
      exact .inl ⟨hmore, rfl⟩

theorem close_move (h : (documents.close view discard).run = some (.ok (outcome, after))) :
    Move documents (.close view discard) after := by
  rcases close_cases h with rfl | ⟨document, entry, hview, hentry, ⟨hmore, rfl⟩ | ⟨hlast, hsaving, hdirty, rfl⟩⟩
  · exact .looked
  · exact .closed hview hmore
  · exact .released rfl hview hlast hentry hsaving hdirty

theorem observe_move {ticket : ReadTicket} {snapshot : SourceSnapshot} {changed : Bool}
    (h : (documents.observe ticket snapshot).run = some (.ok (changed, after))) : Move documents op after := by
  obtain ⟨entry, entry', hentry, -, -, -, -, hobserved, rfl⟩ := observe_spec h
  refine .edited hentry ?_ (.inl ?_)
  · cases hobserved <;> rfl
  · cases hobserved <;> rfl

theorem prepareSave_move {automatic : Bool} {ticket : SaveTicket}
    (h : (documents.prepareSave view automatic).run = some (.ok ((ticket, bytes), after))) :
    Move documents op after := by
  obtain ⟨entry, text, hentry, -, -, -, -, -, -, hoperation, -, rfl⟩ := prepareSave_spec h
  exact .begun (entryFor_eq_ok.mp hentry).2 (by rfl) (by rfl) hoperation

section

variable [Allocation]

theorem move_of_answers (h : InPlace.Answers documents after op) : Move documents op after := by
  cases op with
  | openDocument origin bytes version writable =>
    obtain ⟨next, hrun⟩ := h
    exact openDocument_move hrun
  | duplicate view =>
    obtain ⟨next, hrun⟩ := h
    exact duplicate_move hrun
  | takeTarget view start stop | readTicket view =>
    obtain rfl : after = documents := h
    exact .looked
  | sync target updated =>
    obtain ⟨changed, hrun⟩ := h
    obtain ⟨entry, normalised, text, htarget, -, -, rfl⟩ := sync_spec hrun
    exact .edited (editableTarget_spec htarget).1 rfl (.inl rfl)
  | replace captured current replacement =>
    obtain ⟨entry, normalised, text, htarget, -, -, rfl⟩ := replace_spec h
    exact .edited (editableTarget_spec htarget).1 rfl (.inl rfl)
  | undo view =>
    obtain ⟨changed, hrun⟩ := h
    obtain ⟨document, entry, text, hentry, -, rfl⟩ := undo_spec hrun
    exact .edited (entryFor_eq_ok.mp hentry).2 rfl (.inl rfl)
  | redo view =>
    obtain ⟨changed, hrun⟩ := h
    obtain ⟨document, entry, text, hentry, -, rfl⟩ := redo_spec hrun
    exact .edited (entryFor_eq_ok.mp hentry).2 rfl (.inl rfl)
  | endTyping view =>
    obtain ⟨document, entry, text, hentry, -, rfl⟩ := endTyping_spec h
    exact .edited (entryFor_eq_ok.mp hentry).2 rfl (.inl rfl)
  | observe ticket snapshot =>
    obtain ⟨changed, taken, hrun, rfl⟩ := h
    split
    · exact observe_move hrun
    · exact .looked
  | keepEdits view =>
    obtain ⟨document, entry, change, hentry, -, rfl⟩ := keepEdits_spec h
    exact .edited (entryFor_eq_ok.mp hentry).2 rfl (.inl rfl)
  | reload view =>
    obtain ⟨document, entry, change, text, hentry, -, -, -, rfl⟩ := reload_spec h
    exact .edited (entryFor_eq_ok.mp hentry).2 rfl (.inl rfl)
  | setAccess document available writable =>
    obtain ⟨entry, hentry, rfl⟩ := setAccess_spec h
    exact .edited hentry rfl (.inl rfl)
  | prepareSave view automatic =>
    obtain ⟨handed, hrun⟩ := h
    exact prepareSave_move hrun
  | finishSave ticket version =>
    obtain ⟨entry, text, hentry, -, rfl⟩ := finishSave_spec h
    exact .edited (savingEntry_spec hentry).1 rfl (.inr rfl)
  | failSave ticket =>
    obtain ⟨entry, hentry, rfl⟩ := failSave_spec h
    exact .edited (savingEntry_spec hentry).1 rfl (.inr rfl)
  | close view discard =>
    obtain ⟨outcome, hrun⟩ := h
    exact close_move hrun

theorem move_of_step (h : InPlace.step documents op = some after) : Move documents op after := by
  rcases InPlace.step_cases h with rfl | hanswers
  · exact .looked
  · exact move_of_answers hanswers

/-! ## Runs -/

theorem wellFormed_of_reaches (h : Runs.Reaches InPlace.step (fun _ _ => True) .empty documents) :
    documents.WellFormed := by
  induction h with
  | refl => exact .empty
  | step _ _ hstep ih => exact ih.step (move_of_step hstep)

omit [Allocation] in
theorem Move.released_of_gone (hmove : Move documents op after)
    (hentry : documents.documents.get document = some entry) (hgone : ¬ after.HasDocument document) :
    entry.saving = none ∧ ∃ view discard, op = .close view discard ∧ (entry.dirty = true → discard = true) := by
  have hopen : documents.HasDocument document := ⟨entry, hentry⟩
  cases hmove with
  | looked | viewed | closed => exact absurd hopen hgone
  | edited hedited | begun hedited => exact absurd ((hasDocument_setEntry hedited).mpr hopen) hgone
  | @opened other view found =>
    refine absurd ?_ hgone
    unfold HasDocument
    simp only [get_insert]
    split
    · exact ⟨found, rfl⟩
    · exact hopen
  | @released view other found discard hop hview hlast hfound hsaving hdirty =>
    by_cases hsame : document = other
    · subst hsame
      cases hentry.symm.trans hfound
      exact ⟨hsaving, view, discard, hop, hdirty⟩
    · refine absurd ⟨entry, ?_⟩ hgone
      simp only [get_erase]
      rw [if_neg hsame]
      exact hentry

theorem renamed_of_reaches (h : documents.WellFormed) (hview : documents.views.get view = some document)
    (hlater : Runs.Reaches InPlace.step (fun _ _ => True) documents later) :
    view ≤ later.nextView ∧ ∀ document', later.views.get view = some document' → document' = document := by
  induction hlater with
  | refl =>
    refine ⟨h.viewIds view ⟨document, hview⟩, fun document' hother => ?_⟩
    exact Option.some.inj (hother.symm.trans hview)
  | step _ _ hstep ih =>
    obtain ⟨hle, hsame⟩ := ih
    have hgrows := (move_of_step hstep).grows
    refine ⟨hle.trans hgrows.viewCounter, fun document' hother => ?_⟩
    rcases hgrows.views view document' hother with hold | hnew
    · exact hsame document' hold
    · exact absurd hnew hle.not_gt

theorem counters_of_reaches (hlater : Runs.Reaches InPlace.step (fun _ _ => True) documents later) :
    documents.nextDocument ≤ later.nextDocument ∧ documents.nextView ≤ later.nextView ∧
      documents.nextOperation ≤ later.nextOperation := by
  induction hlater with
  | refl => exact ⟨le_rfl, le_rfl, le_rfl⟩
  | step _ _ hstep ih =>
    obtain ⟨hdocument, hview, hsave⟩ := ih
    have hgrows := (move_of_step hstep).grows
    exact ⟨hdocument.trans hgrows.documentCounter, hview.trans hgrows.viewCounter, hsave.trans hgrows.saveCounter⟩

theorem document_stays_gone (hlater : Runs.Reaches InPlace.step (fun _ _ => True) documents later)
    (hused : document ≤ documents.nextDocument) (hgone : ¬ documents.HasDocument document) :
    ¬ later.HasDocument document := by
  refine hlater.stays_unused HasDocument (fun documents document => document ≤ documents.nextDocument) hused hgone ?_
  intro before after op _ hstep hbefore
  have hgrows := (move_of_step hstep).grows
  refine ⟨hbefore.trans hgrows.documentCounter, fun hafter => ?_⟩
  rcases hgrows.opens document hafter with hold | hnew
  · exact hold
  · exact absurd hnew hbefore.not_gt

theorem view_stays_gone (hlater : Runs.Reaches InPlace.step (fun _ _ => True) documents later)
    (hused : view ≤ documents.nextView) (hgone : ¬ documents.HasView view) : ¬ later.HasView view := by
  refine hlater.stays_unused HasView (fun documents view => view ≤ documents.nextView) hused hgone ?_
  intro before after op _ hstep hbefore
  have hgrows := (move_of_step hstep).grows
  refine ⟨hbefore.trans hgrows.viewCounter, fun ⟨document, hafter⟩ => ?_⟩
  rcases hgrows.views view document hafter with hold | hnew
  · exact ⟨document, hold⟩
  · exact absurd hnew hbefore.not_gt

theorem save_stays_gone {operation : Nat} (hlater : Runs.Reaches InPlace.step (fun _ _ => True) documents later)
    (hused : operation ≤ documents.nextOperation) (hgone : ¬ documents.HasSave operation) :
    ¬ later.HasSave operation := by
  refine hlater.stays_unused HasSave (fun documents operation => operation ≤ documents.nextOperation) hused hgone ?_
  intro before after op _ hstep hbefore
  have hgrows := (move_of_step hstep).grows
  refine ⟨hbefore.trans hgrows.saveCounter, fun hafter => ?_⟩
  rcases hgrows.saves operation hafter with hold | hnew
  · exact hold
  · exact absurd hnew hbefore.not_gt

theorem Reliable.of_wellFormed (h : documents.WellFormed) : Reliable documents where
  wellFormed := h
  refused _ _ _ hperform := InPlace.refused_of_perform hperform
  last view discard after document entry hstep hview honly hentry hkept := by
    have hlast := count_eq_one hview honly
    rcases InPlace.step_cases hstep with hsame | ⟨outcome, hclose⟩
    · exact hsame
    rcases close_cases hclose with hsame | ⟨document', entry', hview', hentry', hcases⟩
    · exact hsame
    · cases hview.symm.trans hview'
      cases hentry.symm.trans hentry'
      rcases hcases with ⟨hmore, -⟩ | ⟨-, hsaving, hdirty, -⟩
      · exact absurd hlast hmore
      · rcases hkept with hsaves | ⟨hedited, hkeep⟩
        · rw [OpenDocument.isSaving, hsaving] at hsaves
          cases hsaves
        · rw [hdirty hedited] at hkeep
          cases hkeep
  released _ _ _ _ hstep hentry hgone := (move_of_step hstep).released_of_gone hentry hgone
  renamed _ _ _ _ hlater hview hother := (renamed_of_reaches h hview hlater).2 _ hother
  retired middle later hmiddle hlater := by
    obtain ⟨hdocument, hview, hsave⟩ := counters_of_reaches hmiddle
    refine ⟨fun document hopen hgone => ?_, fun view hopen hgone => ?_, fun operation hopen hgone => ?_⟩
    · exact document_stays_gone hlater ((h.documentIds document hopen).trans hdocument) hgone
    · exact view_stays_gone hlater ((h.viewIds view hopen).trans hview) hgone
    · exact save_stays_gone hlater ((h.saveIds operation hopen).trans hsave) hgone

/-- What holds of every registry that a run of requests reaches. -/
theorem stays_well_formed (h : Runs.Reaches InPlace.step (fun _ _ => True) .empty documents) : Reliable documents :=
  .of_wellFormed (wellFormed_of_reaches h)

end

omit [CharTables] in
/-- A document with two views is being saved; one view is closed, the close of the other is refused. -/
theorem busy_document_keeps_its_view :
    letI := CharTables.ascii
    letI := Allocation.reference
    ∃ documents, Runs.Reaches InPlace.step (fun _ _ => True) .empty documents ∧
      documents.views.entries = [(2, 1)] ∧ documents.nextOperation = 1 ∧ Reliable documents := by
  let _ := CharTables.ascii
  let _ := Allocation.reference
  let ops : List RegistryOp :=
    [.openDocument (.localFile ⟨[0x2f, 0x61], ['a']⟩) [0x68] (some ⟨[1]⟩) true, .duplicate 1, .prepareSave 1 false,
      .close 1 false, .close 2 true]
  have hruns : (ops.foldlM InPlace.step .empty).map (fun documents =>
      (documents.views.entries, documents.nextOperation)) = some ([(2, 1)], 1) := by
    decide +kernel
  obtain ⟨documents, hrun, hviews⟩ := Option.map_eq_some_iff.mp hruns
  obtain ⟨hentries, hoperation⟩ := Prod.mk.inj hviews
  have hreaches := Runs.reaches_of_foldlM hrun
  exact ⟨documents, hreaches, hentries, hoperation, stays_well_formed hreaches⟩

end FesTerm.MobileDocs.Documents
