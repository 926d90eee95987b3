import FesTerm.Document.Text

/-!
# Replay proofs

Both replays are specified by `Patch`: a script that takes one text to another is replayed forwards
over the first and backwards over the second, by the single-pass rewrite always and in place
whenever `replay_ordered_edits` chooses to. Every validation of edits ends in a `Patch`, so this is
all that the undo history needs to know about offsets.
-/

namespace FesTerm.Document

open Checked Splicing List Option

@[simp] theorem utf8Len_nil : utf8Len [] = 0 := rfl

@[simp] theorem utf8Len_cons (c : Char) (text : Text) :
    utf8Len (c :: text) = c.utf8Size + utf8Len text := weigh_cons _ c text

variable (direction : EditDirection) (edit : TextEdit) (front kept back : Text)

@[simp] theorem utf8Len_append :
    utf8Len (front ++ back) = utf8Len front + utf8Len back := weigh_append _ front back

theorem utf8Len_eq_zero {text : Text} : utf8Len text = 0 ↔ text = [] := by
  cases text with
  | nil => simp
  | cons c text =>
    have := Char.utf8Size_pos c
    simp only [utf8Len_cons, reduceCtorEq, iff_false]
    omega

theorem cutText_eq_some_iff {text front back : Text} {offset : Nat} :
    cutText text offset = some (front, back) ↔ text = front ++ back ∧ utf8Len front = offset :=
  cut_eq_some_iff Char.utf8Size_pos

theorem cutText_append : cutText (front ++ back) (utf8Len front) = some (front, back) :=
  cutText_eq_some_iff.mpr ⟨rfl, rfl⟩

theorem sliceFrom_append : sliceFrom (front ++ back) (utf8Len front) = some back := by
  rw [sliceFrom, cutText_append]
  rfl

variable {stop : Nat}

theorem sliceText_append (middle back : Text) (hstop : stop = utf8Len front + utf8Len middle) :
    sliceText (front ++ (middle ++ back)) (utf8Len front) stop = some middle := by
  subst hstop
  rw [sliceText, sliceFrom_append, sub_eq (by omega), Nat.add_sub_cancel_left]
  simp only [some_bind]
  rw [cutText_append]
  rfl

theorem replaceRange_append (middle back replacement : Text) (hstop : stop = utf8Len front + utf8Len middle) :
    replaceRange (front ++ (middle ++ back)) (utf8Len front) stop replacement =
      some (front ++ (replacement ++ back)) := by
  subst hstop
  rw [replaceRange, cutText_append, sub_eq (by omega), Nat.add_sub_cancel_left]
  simp only [some_bind]
  rw [cutText_append]
  rfl

def scriptOf (edits : List TextEdit) : List (Edit Char) := edits.map TextEdit.toEdit

abbrev Edits (origin : Nat) (edits : List TextEdit) (before after : Text) : Prop :=
  Patch Char.utf8Size origin (scriptOf edits) before after

/-- The text a replay starts from. -/
def EditDirection.source (direction : EditDirection) (before after : Text) : Text :=
  match direction with
  | forward => before
  | undo => after

/-- The text a replay arrives at. -/
def EditDirection.target (direction : EditDirection) (before after : Text) : Text :=
  match direction with
  | forward => after
  | undo => before

theorem EditDirection.source_edit (before after : Text) :
    direction.source (kept ++ (edit.removed ++ before)) (kept ++ (edit.inserted ++ after)) =
      kept ++ ((direction.parts edit).1 ++ direction.source before after) := by
  cases direction <;> rfl

theorem EditDirection.target_edit (before after : Text) :
    direction.target (kept ++ (edit.removed ++ before)) (kept ++ (edit.inserted ++ after)) =
      kept ++ ((direction.parts edit).2 ++ direction.target before after) := by
  cases direction <;> rfl

@[simp] theorem scriptOf_nil : scriptOf [] = [] := rfl

@[simp] theorem scriptOf_cons (edit : TextEdit) (edits : List TextEdit) :
    scriptOf (edit :: edits) = edit.toEdit :: scriptOf edits := rfl

variable {before after : Text} {edits : List TextEdit}

theorem edits_single_iff {edit : TextEdit} : Edits 0 [edit] before after ↔
      ∃ front back, edit.start = utf8Len front ∧ before = front ++ (edit.removed ++ back) ∧
        after = front ++ (edit.inserted ++ back) := by
  constructor
  · intro h
    cases h with
    | @edit _ _ before after kept _ hstart hrest =>
      obtain rfl := Patch.nil_iff.mp hrest
      exact ⟨kept, before, hstart.trans (Nat.zero_add _), rfl, rfl⟩
  · rintro ⟨front, back, hstart, rfl, rfl⟩
    exact .edit front edit.toEdit (hstart.trans (Nat.zero_add _).symm) (.done _ back)

variable {origin : Nat}

theorem edits_filter_changes (h : Edits origin edits before after) :
    Edits origin (edits.filter fun edit => edit.removed ≠ edit.inserted) before after := by
  have hfilter := h.filter_changes
  rwa [scriptOf, List.filter_map] at hfilter

theorem append_inj_of_utf8Len {front back front' back' : Text}
    (h : front ++ back = front' ++ back') (hlen : utf8Len front = utf8Len front') :
    front = front' ∧ back = back' := by
  have hcut := cutText_append front back
  rw [h, hlen, cutText_append] at hcut
  simp only [some.injEq, Prod.mk.injEq] at hcut
  exact ⟨hcut.1.symm, hcut.2.symm⟩

theorem rewriteEdit_step (result : Text) (origin : Nat) (hstart : edit.start = origin + utf8Len kept) :
    rewriteEdit (front ++ (kept ++ ((direction.parts edit).1 ++ back))) direction
        ⟨result, origin, utf8Len front⟩ edit =
      some ⟨result ++ (kept ++ (direction.parts edit).2), edit.stop,
        utf8Len (front ++ (kept ++ (direction.parts edit).1))⟩ := by
  have hsub : sub edit.start origin = some (utf8Len kept) := by
    rw [sub_eq (by omega), hstart, Nat.add_sub_cancel_left]
  simp only [rewriteEdit, hsub, bind_eq_bind, bind_some]
  rw [sliceText_append front kept _ rfl]
  simp only [bind_some, utf8Len_append, Nat.add_assoc]
  rfl

/-- The loop of the rewrite, from any of its states. -/
theorem rewrite_loop : ∀ {edits : List TextEdit} {origin : Nat} {before after : Text} (front result : Text),
      Edits origin edits before after →
      ∃ state, edits.foldlM (rewriteEdit (front ++ direction.source before after) direction)
          ⟨result, origin, utf8Len front⟩ = some state ∧
        ∃ rest, sliceFrom (front ++ direction.source before after) state.sourceCursor = some rest ∧
          state.result ++ rest = result ++ direction.target before after := by
  intro edits
  induction edits with
  | nil =>
    intro origin before after front result h
    obtain rfl := Patch.nil_iff.mp h
    refine ⟨_, rfl, direction.source before before, sliceFrom_append _ _, ?_⟩
    cases direction <;> rfl
  | cons edit edits ih =>
    intro origin before after front result h
    cases h with
    | @edit _ _ before after kept _ hstart hrest =>
      obtain ⟨state, hloop, rest, hslice, hresult⟩ :=
        ih (front ++ (kept ++ (direction.parts edit).1))
          (result ++ (kept ++ (direction.parts edit).2)) hrest
      simp only [append_assoc] at hloop hslice hresult
      refine ⟨state, ?_, rest, ?_, ?_⟩
      · rw [foldlM_cons, direction.source_edit edit, rewriteEdit_step direction edit front kept _ result origin
          hstart]
        exact hloop
      · rw [direction.source_edit edit]
        exact hslice
      · rw [direction.target_edit edit]
        exact hresult

theorem rewrittenLength_eq (h : Edits origin edits before after) :
    rewrittenLength (utf8Len (direction.source before after)) edits direction =
      some (utf8Len (direction.target before after)) := by
  have hweigh := h.weigh_eq
  have hremoved := h.removed_le
  simp only [scriptOf, List.map_map, Function.comp_def] at hweigh hremoved
  change utf8Len before + (edits.map fun edit => utf8Len edit.inserted).sum =
    utf8Len after + (edits.map fun edit => utf8Len edit.removed).sum at hweigh
  change (edits.map fun edit => utf8Len edit.removed).sum ≤ utf8Len before at hremoved
  cases direction with
  | forward =>
    simp only [rewrittenLength, EditDirection.parts, EditDirection.source, EditDirection.target]
    rw [sub_eq hremoved]
    simp only [some_bind, Option.pure_def, some.injEq]
    omega
  | undo =>
    simp only [rewrittenLength, EditDirection.parts, EditDirection.source, EditDirection.target]
    rw [sub_eq (by omega)]
    simp only [some_bind, Option.pure_def, some.injEq]
    omega

theorem rewriteOrderedEdits_eq (h : Edits 0 edits before after) :
    rewriteOrderedEdits (direction.source before after) edits direction =
      some (direction.target before after) := by
  obtain ⟨state, hloop, rest, hslice, hresult⟩ := rewrite_loop direction [] [] h
  simp only [nil_append, utf8Len_nil] at hloop hslice hresult
  simp only [rewriteOrderedEdits, rewrittenLength_eq direction h, hloop, hslice, bind_eq_bind,
    bind_some, hresult]
  rfl

theorem spliceEdit_step (hstart : edit.start = utf8Len (front ++ kept)) :
    spliceEdit direction (front ++ (kept ++ ((direction.parts edit).1 ++ back))) edit =
      some (front ++ (kept ++ ((direction.parts edit).2 ++ back))) := by
  simp only [spliceEdit, hstart]
  rw [← append_assoc, replaceRange_append _ _ _ _ rfl, append_assoc]

theorem splice_loop : ∀ {edits : List TextEdit} {before after : Text} (front : Text),
      (∀ edit ∈ edits, utf8Len edit.removed = utf8Len edit.inserted) →
      Edits (utf8Len front) edits before after →
      spliceOrderedEdits (front ++ direction.source before after) edits direction =
        some (front ++ direction.target before after) := by
  intro edits
  induction edits with
  | nil =>
    intro before after front _ h
    obtain rfl := Patch.nil_iff.mp h
    cases direction <;> rfl
  | cons edit edits ih =>
    intro before after front hequal h
    cases h with
    | @edit _ _ before after kept _ hstart hrest =>
      have hsame := hequal edit (by simp)
      have hnext : edit.start + utf8Len edit.removed =
          utf8Len (front ++ (kept ++ (direction.parts edit).2)) := by
        change edit.start = utf8Len front + utf8Len kept at hstart
        cases direction <;> simp only [EditDirection.parts, utf8Len_append] <;> omega
      have htail := ih (front ++ (kept ++ (direction.parts edit).2))
        (fun e he => hequal e (by simp [he])) (hnext ▸ hrest)
      simp only [append_assoc] at htail
      rw [spliceOrderedEdits, foldlM_cons, direction.source_edit edit, direction.target_edit edit,
        spliceEdit_step direction edit front kept _ (by rw [utf8Len_append]; exact hstart)]
      exact htail

theorem spliceOrderedEdits_eq (hplace : replaysInPlace edits = true) (h : Edits 0 edits before after) :
    spliceOrderedEdits (direction.source before after) edits direction =
      some (direction.target before after) := by
  simp only [replaysInPlace, Bool.or_eq_true, beq_iff_eq, List.all_eq_true] at hplace
  rcases hplace with hone | hequal
  · -- a single edit needs no offset but its own
    obtain ⟨edit, rfl⟩ := length_eq_one_iff.mp hone
    cases h with
    | @edit _ _ before after kept _ hstart hrest =>
      obtain rfl := Patch.nil_iff.mp hrest
      have hstep := spliceEdit_step direction edit [] kept before (by
        rw [hstart, Nat.zero_add]
        rfl)
      simp only [nil_append] at hstep
      simp only [spliceOrderedEdits, foldlM_cons, foldlM_nil]
      cases direction
      · simpa [EditDirection.parts, EditDirection.source, EditDirection.target] using hstep
      · simpa [EditDirection.parts, EditDirection.source, EditDirection.target] using hstep
  · exact splice_loop direction [] hequal h

theorem replayOrderedEdits_eq (h : Edits 0 edits before after) :
    replayOrderedEdits (direction.source before after) edits direction =
      some (direction.target before after) := by
  unfold replayOrderedEdits
  split
  · rename_i hplace
    exact spliceOrderedEdits_eq direction hplace h
  · exact rewriteOrderedEdits_eq direction h

/-- At every edit, its offset re-based by the edits before it, the text holds what the replay takes
away. -/
def FindsEdits (text : Text) (direction : EditDirection) : Nat → Nat → List TextEdit → Prop
  | _, _, [] => True
  | originalCursor, sourceCursor, edit :: edits =>
    let start := sourceCursor + (edit.start - originalCursor)
    let stop := start + utf8Len (direction.parts edit).1
    originalCursor ≤ edit.start ∧ sliceText text start stop = some (direction.parts edit).1 ∧
      FindsEdits text direction edit.stop stop edits

/-- At every edit of an in-place replay, the text replayed so far holds at the recorded offset what
the replay takes away. -/
def FindsInPlace (direction : EditDirection) : Text → List TextEdit → Prop
  | _, [] => True
  | text, edit :: edits =>
    sliceText text edit.start (edit.start + utf8Len (direction.parts edit).1) =
        some (direction.parts edit).1 ∧
      ∀ text', spliceEdit direction text edit = some text' → FindsInPlace direction text' edits

/-- A replay of some edits: it finds what it takes away, and both algorithms give its result. -/
structure Replays (direction : EditDirection) (edits : List TextEdit) (text result : Text) :
    Prop where
  finds : FindsEdits text direction 0 0 edits
  findsInPlace : replaysInPlace edits = true → FindsInPlace direction text edits
  rewrite : rewriteOrderedEdits text edits direction = some result
  inPlace : replaysInPlace edits = true → spliceOrderedEdits text edits direction = some result

theorem findsEdits_of_edits : ∀ {edits : List TextEdit} {origin : Nat} {before after : Text} (front : Text),
      Edits origin edits before after →
      FindsEdits (front ++ direction.source before after) direction origin (utf8Len front) edits := by
  intro edits
  induction edits with
  | nil =>
    intro origin before after front h
    trivial
  | cons edit edits ih =>
    intro origin before after front h
    cases h with
    | @edit _ _ before after kept _ hstart hrest =>
      have hkept : edit.start - origin = utf8Len kept := by
        change edit.start = origin + utf8Len kept at hstart
        omega
      rw [direction.source_edit edit]
      have htail := ih (front ++ (kept ++ (direction.parts edit).1)) hrest
      simp only [append_assoc] at htail
      refine ⟨by omega, ?_, ?_⟩
      · rw [hkept, ← utf8Len_append, ← append_assoc]
        exact sliceText_append (front ++ kept) _ _ rfl
      · rw [hkept, Nat.add_assoc, ← utf8Len_append, ← utf8Len_append]
        exact htail

theorem findsInPlace_of_edits : ∀ {edits : List TextEdit} {before after : Text} (front : Text),
      (∀ edit ∈ edits, utf8Len edit.removed = utf8Len edit.inserted) →
      Edits (utf8Len front) edits before after →
      FindsInPlace direction (front ++ direction.source before after) edits := by
  intro edits
  induction edits with
  | nil =>
    intro before after front _ h
    trivial
  | cons edit edits ih =>
    intro before after front hequal h
    cases h with
    | @edit _ _ before after kept _ hstart hrest =>
      change edit.start = utf8Len front + utf8Len kept at hstart
      rw [← utf8Len_append] at hstart
      have hsame := hequal edit (by simp)
      have hnext : edit.start + utf8Len edit.removed =
          utf8Len (front ++ (kept ++ (direction.parts edit).2)) := by
        rw [utf8Len_append] at hstart
        cases direction <;> simp only [EditDirection.parts, utf8Len_append] <;> omega
      have htail := ih (front ++ (kept ++ (direction.parts edit).2))
        (fun e he => hequal e (by simp [he])) (hnext ▸ hrest)
      simp only [append_assoc] at htail
      rw [direction.source_edit edit]
      refine ⟨?_, ?_⟩
      · rw [hstart, ← append_assoc]
        exact sliceText_append (front ++ kept) _ _ rfl
      · intro text' hsplice
        rw [spliceEdit_step direction edit front kept _ hstart] at hsplice
        cases hsplice
        exact htail

theorem replays_of_edits (h : Edits 0 edits before after) :
    Replays direction edits (direction.source before after) (direction.target before after) := by
  refine ⟨findsEdits_of_edits direction [] h, ?_, rewriteOrderedEdits_eq direction h,
    fun hplace => spliceOrderedEdits_eq direction hplace h⟩
  intro hplace
  simp only [replaysInPlace, Bool.or_eq_true, beq_iff_eq, List.all_eq_true] at hplace
  rcases hplace with hone | hequal
  · obtain ⟨edit, rfl⟩ := length_eq_one_iff.mp hone
    obtain ⟨-, hslice, -⟩ := findsEdits_of_edits direction [] h
    simp only [nil_append, utf8Len_nil, Nat.zero_add, Nat.sub_zero] at hslice
    exact ⟨hslice, fun _ _ => trivial⟩
  · exact findsInPlace_of_edits direction [] hequal h

end FesTerm.Document
