import FesTerm.MobileDocs.InPlace
import FesTerm.MobileDocs.Proofs.RequestProofs

/-!
# The methods do what the requests say

A method that fails has changed nothing, because every early return stands before the first update; and one
that succeeds leaves the registry of its request.
-/

namespace FesTerm.MobileDocs

open Document Procedure

/-- From a state the method does what the request says of the documents: it succeeds with the same result
and registry, or fails with the same error and the documents as they were. -/
def Carries {α ρ : Type} (documents current : Documents) (command : Command α) (view : ρ → α × Documents)
    (request : Request ρ) : Prop :=
  command.Leads current (fun a after => ∃ result, request.run = some (.ok result) ∧ view result = (a, after))
    fun failure after => match failure with
      | none => request.run = none
      | some error => request.run = some (.error error) ∧ after = documents

variable {α β ρ : Type} {documents current : Documents} {view : ρ → α × Documents}

variable {result : Option (Except DocumentError α)}

theorem outcome_eq_ok {a : α} : outcome result = .ok a ↔ result = some (.ok a) := by
  rcases result with _ | (_ | _)
  · simp [outcome]
  · simp [outcome]
  · simp [outcome]

theorem outcome_eq_error {failure : Option DocumentError} :
    outcome result = .error failure ↔ result = failure.map .error := by
  rcases result with _ | (_ | _)
  · cases failure <;> simp [outcome]
  · cases failure <;> simp [outcome]
  · cases failure <;> simp [outcome]

theorem carries_given {f : Documents → Request β} {x : Request β} {g : β → Command α} {k : β → Request ρ}
    (hx : f documents = x)
    (h : ∀ b, x.run = some (.ok b) → Carries documents documents (g b) view (k b)) :
    Carries documents documents (given f >>= g) view (x >>= k) := by
  subst hx
  refine leads_ask_bind (fun b hb => ?_) (fun failure hfailure => ?_)
  · have hrun := outcome_eq_ok.mp hb
    have hbind : (f documents >>= k).run = (k b).run := by
      change (f documents).run.bind _ = _
      rw [hrun]
      rfl
    have hnext := h b hrun
    unfold Carries at hnext
    rwa [hbind]
  · have hrun := outcome_eq_error.mp hfailure
    have hbind : (f documents >>= k).run = failure.map .error := by
      change (f documents).run.bind _ = _
      rw [hrun]
      cases failure with
      | none | some error => rfl
    cases failure with
    | none => exact hbind
    | some error => exact ⟨hbind, rfl⟩

variable {error : DocumentError} {g : Unit → Command α} {request : Request ρ}

variable {x : PUnit → Request ρ} {y : Request ρ}

theorem carries_refuse {c : Prop} [Decidable c] (h : ¬ c → Carries documents documents (g ()) view y) :
    Carries documents documents (refuse c (some error) >>= g) view (if c then throw error >>= x else y) := by
  refine leads_refuse_bind (fun hc => ?_) fun hc => ?_
  · rw [if_neg hc]
    exact h hc
  · rw [if_pos hc]
    exact ⟨rfl, rfl⟩

theorem carries_ask_refuse {c : Documents → Prop} [DecidablePred c]
    (h : ¬ c documents → Carries documents documents (g ()) view y) :
    Carries documents documents (ask (fun documents => refuse (c documents) (some error)) >>= g) view
      (if c documents then throw error >>= x else y) := by
  refine leads_ask_bind (fun _ hc => ?_) (fun failure hfailure => ?_)
  · have hc := refuse_eq_ok.mp hc
    rw [if_neg hc]
    exact h hc
  · unfold refuse at hfailure
    split at hfailure
    · next hc =>
      cases hfailure
      rw [if_pos hc]
      exact ⟨rfl, rfl⟩
    · cases hfailure

theorem carries_okOr {value : Option β} {g : β → Command α}
    (hnone : value = none → request.run = some (.error error))
    (hsome : ∀ b, value = some b → Carries documents documents (g b) view request) :
    Carries documents documents (ask (fun _ => okOr value (some error)) >>= g) view request := by
  refine leads_ask_bind (fun b hb => hsome b (okOr_eq_ok.mp hb)) (fun failure hfailure => ?_)
  cases value with
  | none =>
    cases hfailure
    exact ⟨hnone rfl, rfl⟩
  | some b => cases hfailure

variable {f : Documents → Documents}

theorem carries_change (h : Carries documents (f current) (g ()) view request) :
    Carries documents current (change f >>= g) view request := leads_change_bind h

theorem carries_pure {a : α} {result : ρ} (hrun : request.run = some (.ok result))
    (hview : view result = (a, current)) : Carries documents current (pure a) view request := ⟨result, hrun, hview⟩

theorem carries_last {view : ρ → Unit × Documents} {result : ρ}
    (hrun : request.run = some (.ok result)) (hview : view result = ((), f current)) :
    Carries documents current (change f) view request := ⟨result, hrun, hview⟩

theorem setEntry_setEntry (documents : Documents) (document : DocumentId) (entry entry' : OpenDocument) :
    (documents.setEntry document entry).setEntry document entry' = documents.setEntry document entry' := by
  have htable : (documents.documents.insert document entry).insert document entry' =
      documents.documents.insert document entry' := by
    unfold Table.insert Table.erase Table.retain
    simp [List.filter_append, List.filter_filter]
  unfold Documents.setEntry
  rw [htable]

namespace Documents.InPlace

theorem updated_of_get {document : DocumentId} {entry : OpenDocument}
    (h : documents.documents.get document = some entry) (f : OpenDocument → OpenDocument) :
    updated document f documents = documents.setEntry document (f entry) := by
  unfold updated
  rw [h]

theorem updated_setEntry (documents : Documents) (document : DocumentId) (entry : OpenDocument)
    (f : OpenDocument → OpenDocument) :
    updated document f (documents.setEntry document entry) = documents.setEntry document (f entry) := by
  have hget : (documents.setEntry document entry).documents.get document = some entry := by
    rw [setEntry, Table.get_insert, if_pos rfl]
  rw [updated_of_get hget, setEntry_setEntry]

theorem duplicateDocument_carries (documents : Documents) (document : DocumentId) :
    Carries documents documents (duplicateDocument document) id (documents.duplicateDocument document) := by
  unfold duplicateDocument Documents.duplicateDocument
  refine carries_ask_refuse fun _ => carries_given rfl fun nextView _ => ?_
  exact carries_change (carries_change (carries_pure rfl rfl))

theorem duplicate_carries (documents : Documents) (view : ViewId) :
    Carries documents documents (duplicate view) id (documents.duplicate view) :=
  carries_given rfl fun document _ => duplicateDocument_carries documents document

section

variable [CharTables]

theorem openDocument_carries (documents : Documents) (origin : DocumentOrigin) (bytes : List UInt8)
    (version : Option SourceVersion) (writable : Bool) :
    Carries documents documents (openDocument origin bytes version writable) id
      (documents.openDocument origin bytes version writable) := by
  unfold openDocument Documents.openDocument
  refine leads_ask_bind (fun found hfound => ?_) nofun
  cases hfound
  cases documents.origins.get origin.key with
  | some document => exact duplicateDocument_carries documents document
  | none =>
    refine carries_ask_refuse fun _ => carries_given rfl fun text _ => ?_
    refine carries_given rfl fun document _ => carries_given rfl fun nextView _ => ?_
    refine carries_change (carries_change (carries_change (carries_change (carries_change ?_))))
    exact carries_pure rfl rfl

theorem close_carries (documents : Documents) (view : ViewId) (discard : Bool) :
    Carries documents documents (close view discard) id (documents.close view discard) := by
  unfold close Documents.close
  refine carries_given rfl fun document _ => ?_
  refine leads_ask_bind (fun last hlast => ?_) nofun
  cases hlast
  refine carries_given rfl fun entry hentry => ?_
  simp only [decide_eq_true_eq]
  refine carries_refuse fun _ => ?_
  by_cases hconfirm : documents.views.count (· = document) = 1 ∧ entry.dirty = true ∧ (!discard) = true
  · rw [if_pos hconfirm, if_pos hconfirm]
    exact carries_pure rfl rfl
  · rw [if_neg hconfirm, if_neg hconfirm]
    unfold removeView
    refine carries_change ?_
    by_cases hlast : documents.views.count (· = document) = 1
    · simp only [hlast, decide_true, if_true]
      have hfound : (check (({ documents with views := documents.views.erase view } : Documents).get document)).run =
          some (.ok entry) := hentry
      unfold Carries
      refine leads_ask_bind (fun found hget => ?_) (fun failure hfailure => ?_)
      · rw [hfound] at hget
        cases hget
        exact carries_change (carries_change (carries_pure rfl rfl))
      · rw [hfound] at hfailure
        cases hfailure
    · simp only [hlast, decide_false, if_false]
      exact carries_pure rfl rfl

end

section

variable [CharTables] [Allocation]

theorem sync_carries (documents : Documents) (target : EditTarget) (updated : Text) :
    Carries documents documents (sync target updated) id (documents.sync target updated) := by
  unfold sync Documents.sync
  refine carries_given rfl fun updated _ => carries_given rfl fun entry hentry => ?_
  refine carries_given rfl fun _ _ => carries_given rfl fun synced _ => ?_
  obtain ⟨hget, -⟩ := editableTarget_spec hentry
  refine carries_change ?_
  rw [updated_of_get hget]
  exact carries_pure rfl rfl

theorem replace_carries (documents : Documents) (captured current : EditTarget) (replacement : Text) :
    Carries documents documents (replace captured current replacement) (fun after => ((), after))
      (documents.replace captured current replacement) := by
  unfold replace Documents.replace
  refine carries_refuse fun _ => carries_given rfl fun replacement _ => carries_given rfl fun entry hentry => ?_
  refine carries_given rfl fun removed _ => carries_given rfl fun _ _ => carries_given rfl fun text _ => ?_
  obtain ⟨hget, -⟩ := editableTarget_spec hentry
  refine carries_last rfl ?_
  rw [updated_of_get hget]

end

theorem entryFor_ok {documents : Documents} {view : ViewId} {found : DocumentId × OpenDocument}
    (h : (check (documents.entryFor view)).run = some (.ok found)) :
    documents.documents.get found.1 = some found.2 := (entryFor_eq_ok.mp (ok_check.mp h)).2

theorem undo_carries (documents : Documents) (view : ViewId) :
    Carries documents documents (undo view) id (documents.undo view) := by
  unfold undo Documents.undo
  refine carries_given rfl fun found hfound => carries_given rfl fun _ _ => carries_given rfl fun undone _ => ?_
  refine carries_change ?_
  rw [updated_of_get (entryFor_ok hfound)]
  exact carries_pure rfl rfl

theorem redo_carries (documents : Documents) (view : ViewId) :
    Carries documents documents (redo view) id (documents.redo view) := by
  unfold redo Documents.redo
  refine carries_given rfl fun found hfound => carries_given rfl fun _ _ => carries_given rfl fun redone _ => ?_
  refine carries_change ?_
  rw [updated_of_get (entryFor_ok hfound)]
  exact carries_pure rfl rfl

theorem endTyping_carries (documents : Documents) (view : ViewId) :
    Carries documents documents (endTyping view) (fun after => ((), after)) (documents.endTyping view) := by
  unfold endTyping Documents.endTyping
  refine carries_given rfl fun found hfound => carries_given rfl fun text _ => carries_last rfl ?_
  rw [updated_of_get (entryFor_ok hfound)]

/-- Where nothing is taken in the request writes the entry back as it is, and the method writes nothing. -/
theorem observe_carries [CharTables] (documents : Documents) (ticket : ReadTicket) (snapshot : SourceSnapshot) :
    Carries documents documents (observe ticket snapshot)
      (fun result => if result.1 then result else (false, documents)) (documents.observe ticket snapshot) := by
  unfold observe Documents.observe
  refine carries_given rfl fun entry hentry => carries_refuse fun _ => carries_refuse fun _ => ?_
  have hget := get_eq_ok.mp (ok_check.mp hentry)
  refine carries_given rfl fun _ _ => ?_
  unfold observeEntry
  by_cases hversion : entry.version = some snapshot.version
  · rw [if_pos hversion, if_pos hversion]
    unfold settle
    by_cases hconflict : entry.conflict.isSome = true
    · rw [if_pos hconflict, if_pos hconflict]
      refine carries_change (carries_change ?_)
      rw [updated_of_get hget, updated_setEntry]
      exact carries_pure rfl rfl
    · rw [if_neg hconflict, if_neg hconflict]
      exact carries_pure rfl rfl
  · rw [if_neg hversion, if_neg hversion]
    by_cases hseen : (entry.conflict.any fun change => change.snapshot.version = snapshot.version) = true
    · rw [if_pos hseen, if_pos hseen]
      exact carries_pure rfl rfl
    · rw [if_neg hseen, if_neg hseen]
      unfold takeIn
      by_cases hdirty : entry.dirty = true
      · rw [if_pos hdirty, if_pos hdirty]
        refine carries_change (carries_change ?_)
        rw [updated_of_get hget, updated_setEntry]
        exact carries_pure rfl rfl
      · rw [if_neg hdirty, if_neg hdirty, bind_assoc]
        refine carries_given rfl fun text _ => carries_change (carries_change (carries_change ?_))
        rw [updated_of_get hget, updated_setEntry, updated_setEntry]
        exact carries_pure rfl rfl

theorem keepEdits_carries (documents : Documents) (view : ViewId) :
    Carries documents documents (keepEdits view) (fun after => ((), after)) (documents.keepEdits view) := by
  unfold keepEdits Documents.keepEdits
  refine carries_given rfl fun found hfound => carries_given rfl fun _ _ => ?_
  refine carries_okOr (fun hnone => ?_) fun change hchange => ?_
  · simp only [hnone]
    rfl
  · simp only [hchange]
    refine carries_last rfl ?_
    rw [updated_of_get (entryFor_ok hfound)]

theorem reload_carries (documents : Documents) (view : ViewId) :
    Carries documents documents (reload view) (fun after => ((), after)) (documents.reload view) := by
  unfold reload Documents.reload
  refine carries_given rfl fun found hfound => carries_refuse fun _ => ?_
  simp only [Bool.not_eq_true']
  refine carries_refuse fun _ => carries_okOr (fun hnone => ?_) fun change hchange => ?_
  · simp only [hnone]
    rfl
  · simp only [hchange]
    refine carries_given rfl fun text _ => carries_change (carries_change (carries_change (carries_last rfl ?_)))
    rw [updated_of_get (entryFor_ok hfound), updated_setEntry, updated_setEntry, updated_setEntry]

theorem setAccess_carries (documents : Documents) (document : DocumentId) (available writable : Bool) :
    Carries documents documents (setAccess document available writable) (fun after => ((), after))
      (documents.setAccess document available writable) := by
  unfold setAccess Documents.setAccess
  refine carries_given rfl fun entry hentry => carries_refuse fun _ => ?_
  refine carries_change (carries_change (carries_last rfl ?_))
  rw [updated_of_get (get_eq_ok.mp (ok_check.mp hentry)), updated_setEntry, updated_setEntry]

theorem prepareSave_carries (documents : Documents) (view : ViewId) (automatic : Bool) :
    Carries documents documents (prepareSave view automatic) id (documents.prepareSave view automatic) := by
  unfold prepareSave Documents.prepareSave
  refine carries_given rfl fun found hfound => carries_given rfl fun _ _ => ?_
  simp only [Bool.not_eq_true']
  refine carries_refuse fun _ => carries_refuse fun _ => carries_given rfl fun expected _ => ?_
  refine carries_given rfl fun _ _ => carries_given rfl fun operation _ => carries_change ?_
  have hget : ({ documents with nextOperation := operation } : Documents).documents.get found.1 = some found.2 :=
    entryFor_ok hfound
  cases hclose : found.2.text.closeTransaction with
  | none =>
    unfold Carries
    refine leads_ask_bind nofun (fun failure hfailure => ?_)
    cases hfailure
    rfl
  | some text =>
    unfold Carries
    refine leads_ask_bind (fun text' htext => ?_) nofun
    cases htext
    refine carries_change (carries_change ?_)
    rw [updated_of_get hget, updated_setEntry]
    exact carries_pure rfl rfl

theorem finishSave_carries (documents : Documents) (ticket : SaveTicket) (version : SourceVersion) :
    Carries documents documents (finishSave ticket version) (fun after => ((), after))
      (documents.finishSave ticket version) := by
  unfold finishSave Documents.finishSave
  refine carries_given rfl fun entry hentry => carries_given rfl fun text _ => ?_
  have hget := (savingEntry_spec (ok_check.mp hentry)).1
  refine carries_change (carries_change (carries_change (carries_last rfl ?_)))
  rw [updated_of_get hget, updated_setEntry, updated_setEntry, updated_setEntry]

theorem failSave_carries (documents : Documents) (ticket : SaveTicket) :
    Carries documents documents (failSave ticket) (fun after => ((), after)) (documents.failSave ticket) := by
  unfold failSave Documents.failSave
  refine carries_given rfl fun entry hentry => carries_last rfl ?_
  rw [updated_of_get (savingEntry_spec (ok_check.mp hentry)).1]

section

variable [CharTables] [Allocation]

/-- The request is accepted and leaves this registry. A read that is not taken in leaves it as it is. -/
def Answers (documents : Documents) (after : Documents) : RegistryOp → Prop
  | .openDocument origin bytes version writable =>
    ∃ next, (documents.openDocument origin bytes version writable).run = some (.ok (next, after))
  | .duplicate view => ∃ next, (documents.duplicate view).run = some (.ok (next, after))
  | .takeTarget _ _ _ => after = documents
  | .sync target updated => ∃ changed, (documents.sync target updated).run = some (.ok (changed, after))
  | .replace captured current replacement =>
    (documents.replace captured current replacement).run = some (.ok after)
  | .undo view => ∃ changed, (documents.undo view).run = some (.ok (changed, after))
  | .redo view => ∃ changed, (documents.redo view).run = some (.ok (changed, after))
  | .endTyping view => (documents.endTyping view).run = some (.ok after)
  | .readTicket _ => after = documents
  | .observe ticket snapshot =>
    ∃ changed taken, (documents.observe ticket snapshot).run = some (.ok (changed, taken)) ∧
      after = if changed then taken else documents
  | .keepEdits view => (documents.keepEdits view).run = some (.ok after)
  | .reload view => (documents.reload view).run = some (.ok after)
  | .setAccess document available writable =>
    (documents.setAccess document available writable).run = some (.ok after)
  | .prepareSave view automatic =>
    ∃ handed, (documents.prepareSave view automatic).run = some (.ok (handed, after))
  | .finishSave ticket version => (documents.finishSave ticket version).run = some (.ok after)
  | .failSave ticket => (documents.failSave ticket).run = some (.ok after)
  | .close view discard => ∃ outcome, (documents.close view discard).run = some (.ok (outcome, after))

/-- The method answers, stops the program, or fails and leaves the registry as it is. -/
def Performs (documents : Documents) (op : RegistryOp) (command : Command α) : Prop :=
  command.Leads documents (fun _ after => Answers documents after op) fun failure after =>
    failure = none ∨ after = documents

variable {op : RegistryOp} {after : Documents}

variable {command : Command α}

theorem performs_of_carries {view : ρ → α × Documents} {request : Request ρ}
    (h : Carries documents documents command view request)
    (hanswer : ∀ result, request.run = some (.ok result) → Answers documents (view result).2 op) :
    Performs documents op command := by
  refine h.mono (fun a after hdone => ?_) fun failure after hfailed => ?_
  · obtain ⟨result, hrun, hview⟩ := hdone
    have hanswered := hanswer result hrun
    rw [hview] at hanswered
    exact hanswered
  · cases failure with
    | none => exact .inl rfl
    | some error => exact .inr hfailed.2

theorem Performs.only (h : Performs documents op command) :
    Performs documents op (InPlace.only command) :=
  leads_bind.mpr (h.mono (fun _ _ hanswer => hanswer) fun _ _ hfailed => hfailed)

theorem performs_given {f : Documents → Request α} (hanswer : Answers documents documents op) :
    Performs documents op (given f) :=
  leads_ask.mpr ⟨fun _ _ => hanswer, fun _ _ => .inr rfl⟩

theorem perform_answers (documents : Documents) (op : RegistryOp) : Performs documents op (perform op) := by
  cases op with
  | openDocument origin bytes version writable =>
    exact .only (performs_of_carries (openDocument_carries ..) fun result hrun => ⟨result.1, hrun⟩)
  | duplicate view => exact .only (performs_of_carries (duplicate_carries ..) fun result hrun => ⟨result.1, hrun⟩)
  | takeTarget view start stop | readTicket view => exact .only (performs_given rfl)
  | sync target updated => exact .only (performs_of_carries (sync_carries ..) fun result hrun => ⟨result.1, hrun⟩)
  | replace captured current replacement => exact performs_of_carries (replace_carries ..) fun _ hrun => hrun
  | undo view => exact .only (performs_of_carries (undo_carries ..) fun result hrun => ⟨result.1, hrun⟩)
  | redo view => exact .only (performs_of_carries (redo_carries ..) fun result hrun => ⟨result.1, hrun⟩)
  | endTyping view => exact performs_of_carries (endTyping_carries ..) fun _ hrun => hrun
  | observe ticket snapshot =>
    refine .only (performs_of_carries (observe_carries ..) fun result hrun => ⟨result.1, result.2, hrun, ?_⟩)
    split <;> rfl
  | keepEdits view => exact performs_of_carries (keepEdits_carries ..) fun _ hrun => hrun
  | reload view => exact performs_of_carries (reload_carries ..) fun _ hrun => hrun
  | setAccess document available writable => exact performs_of_carries (setAccess_carries ..) fun _ hrun => hrun
  | prepareSave view automatic =>
    exact .only (performs_of_carries (prepareSave_carries ..) fun result hrun => ⟨result.1, hrun⟩)
  | finishSave ticket version => exact performs_of_carries (finishSave_carries ..) fun _ hrun => hrun
  | failSave ticket => exact performs_of_carries (failSave_carries ..) fun _ hrun => hrun
  | close view discard => exact .only (performs_of_carries (close_carries ..) fun result hrun => ⟨result.1, hrun⟩)

theorem refused_of_perform {error : DocumentError} (h : perform op documents = (.error (some error), after)) :
    after = documents := by
  rcases (perform_answers documents op).error h with hnone | hsame
  · cases hnone
  · exact hsame

theorem step_cases (h : step documents op = some after) : after = documents ∨ Answers documents after op := by
  unfold step at h
  rcases hperform : perform op documents with ⟨(_ | error) | _, reached⟩
  · rw [hperform] at h
    cases h
  · rw [hperform] at h
    cases h
    exact .inl (refused_of_perform hperform)
  · rw [hperform] at h
    cases h
    exact .inr ((perform_answers documents op).ok hperform)

end

end Documents.InPlace

end FesTerm.MobileDocs
