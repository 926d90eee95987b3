import FesTerm.Document.Vi.Buffer
import FesTerm.Document.Proofs.TextProofs

/-!
# Differ proofs

A view hands back a whole buffer and a repeated change ends in one; both are recovered as a single
edit between a common beginning and a common end. `sync_from_view` compares bytes and retreats to
the next character boundary, the vi engine compares characters. What they find is an `ExactEdit`.
-/

namespace FesTerm.Document

open Checked Splicing List

/-- An edit that turns one text into another: it starts and stops at boundaries of both, what is
common before and behind it does not overlap, and both ways of applying it lead from the first text
to the second. -/
structure ExactEdit (old new : Text) (edit : TextEdit) : Prop where
  old_start : isCharBoundary old edit.start = true
  old_stop : isCharBoundary old edit.stop = true
  new_start : isCharBoundary new edit.start = true
  new_stop : isCharBoundary new (edit.start + utf8Len edit.inserted) = true
  removed : sliceText old edit.start edit.stop = some edit.removed
  inserted : sliceText new edit.start (edit.start + utf8Len edit.inserted) = some edit.inserted
  common : ∃ front back, edit.start = utf8Len front ∧ old = front ++ (edit.removed ++ back) ∧
    new = front ++ (edit.inserted ++ back)
  apart : ∃ suffix, edit.start + utf8Len edit.removed + suffix = utf8Len old ∧
    edit.start + utf8Len edit.inserted + suffix = utf8Len new
  replaces : replaceRange old edit.start edit.stop edit.inserted = some new
  rewrites : rewriteOrderedEdits old [edit] .forward = some new

theorem boundaries_around (front middle back : Text) :
    isCharBoundary (front ++ (middle ++ back)) (utf8Len front) = true ∧
      isCharBoundary (front ++ (middle ++ back)) (utf8Len front + utf8Len middle) = true := by
  constructor
  · exact isCharBoundary_iff.mpr ⟨front, middle ++ back, rfl, rfl⟩
  · exact isCharBoundary_iff.mpr
      ⟨front ++ middle, back, (append_assoc _ _ _).symm, utf8Len_append _ _⟩

theorem exactEdit_of_edits {old new : Text} {edit : TextEdit} (h : Edits 0 [edit] old new) :
    ExactEdit old new edit := by
  obtain ⟨front, back, hstart, rfl, rfl⟩ := edits_single_iff.mp h
  obtain ⟨hstart_old, hstop_old⟩ := boundaries_around front edit.removed back
  obtain ⟨hstart_new, hstop_new⟩ := boundaries_around front edit.inserted back
  have hstop : edit.stop = utf8Len front + utf8Len edit.removed := by
    rw [TextEdit.stop, hstart]
  refine ⟨?_, ?_, ?_, ?_, ?_, ?_, ⟨front, back, hstart, rfl, rfl⟩, ⟨utf8Len back, ?_, ?_⟩, ?_, ?_⟩
  · rwa [hstart]
  · rwa [hstop]
  · rwa [hstart]
  · rwa [hstart]
  · rw [hstop, hstart]
    exact sliceText_append front edit.removed back rfl
  · rw [hstart]
    exact sliceText_append front edit.inserted back rfl
  · simp only [hstart, utf8Len_append]
    omega
  · simp only [hstart, utf8Len_append]
    omega
  · rw [hstop, hstart]
    exact replaceRange_append front edit.removed back edit.inserted rfl
  · exact rewriteOrderedEdits_eq .forward h

namespace Vi

theorem sharedChars_spec : ∀ left right : Text, ∃ front left' right',
    left = front ++ left' ∧ right = front ++ right' ∧ sharedChars left right = utf8Len front := by
  intro left
  induction left with
  | nil => exact fun right => ⟨[], [], right, rfl, rfl, by simp [sharedChars]⟩
  | cons a left ih =>
    intro right
    cases right with
    | nil => exact ⟨[], a :: left, [], rfl, rfl, by simp [sharedChars]⟩
    | cons b right =>
      by_cases hsame : a = b
      · subst hsame
        obtain ⟨front, left', right', rfl, rfl, hshared⟩ := ih right
        refine ⟨a :: front, left', right', rfl, rfl, ?_⟩
        rw [sharedChars, if_pos rfl, hshared, utf8Len_cons]
      · exact ⟨[], a :: left, b :: right, rfl, rfl, by rw [sharedChars, if_neg hsame]; rfl⟩

theorem utf8Len_reverse (text : Text) : utf8Len text.reverse = utf8Len text := by
  induction text with
  | nil => rfl
  | cons c text ih =>
    rw [reverse_cons, utf8Len_append, ih, utf8Len_cons, utf8Len_cons, utf8Len_nil]
    omega

theorem sharedChars_reverse_spec (left right : Text) : ∃ left' right' back,
    left = left' ++ back ∧ right = right' ++ back ∧
      sharedChars left.reverse right.reverse = utf8Len back := by
  obtain ⟨front, left', right', hleft, hright, hshared⟩ := sharedChars_spec left.reverse right.reverse
  refine ⟨left'.reverse, right'.reverse, front.reverse, ?_, ?_, ?_⟩
  · rw [← reverse_append, ← hleft, reverse_reverse]
  · rw [← reverse_append, ← hright, reverse_reverse]
  · rw [hshared, utf8Len_reverse]

theorem singleEditDiff_spec (old new : Text) : (old = new ∧ singleEditDiff old new = some none) ∨
      ∃ edit, old ≠ new ∧ singleEditDiff old new = some (some edit) ∧ Edits 0 [edit] old new := by
  by_cases hsame : old = new
  · refine .inl ⟨hsame, ?_⟩
    rw [singleEditDiff, if_pos hsame]
    rfl
  · obtain ⟨front, rest, rest', hold, hnew, hfront⟩ := sharedChars_spec old new
    obtain ⟨removed, inserted, back, rfl, rfl, hback⟩ := sharedChars_reverse_spec rest rest'
    obtain ⟨hrest, hlen, hremoved⟩ := slices_around hold
    obtain ⟨hrest', hlen', hinserted⟩ := slices_around hnew
    refine .inr ⟨.owned (utf8Len front) removed inserted, hsame, ?_, ?_⟩
    · simp only [singleEditDiff, if_neg hsame, hfront, hrest, hrest', hback, hlen, hlen', hremoved,
        hinserted, some_bind]
      rfl
    · exact edits_single_iff.mpr ⟨front, back, rfl, hold, hnew⟩

end Vi

/-- Both differs recover exactly the change between two texts: no slice is out of place, there is no
edit exactly when the texts are equal, and otherwise the edit turns the first text into the
second. -/
theorem single_edit_differs_are_exact [Allocation] : (∀ (document : TextDocument) (updated : Text),
      (updated = document.text ∧ document.syncFromView updated = some (.ok (false, document))) ∨
      (updated ≠ document.text ∧ ∃ edit coalescable, document.syncEdit updated = some (edit, coalescable) ∧
        ExactEdit document.text updated edit ∧
        document.syncFromView updated =
          (document.applyTransaction [edit] coalescable).map (Except.map (true, ·)))) ∧
    ∀ old new : Text,
      (old = new ∧ Vi.singleEditDiff old new = some none) ∨
      (old ≠ new ∧ ∃ edit, Vi.singleEditDiff old new = some (some edit) ∧
        ExactEdit old new edit) := by
  constructor
  · intro document updated
    by_cases hsame : updated = document.text
    · refine .inl ⟨hsame, ?_⟩
      rw [TextDocument.syncFromView, if_pos hsame]
      rfl
    · obtain ⟨edit, coalescable, hedit, hedits⟩ := document.syncEdit_spec updated
      refine .inr ⟨hsame, edit, coalescable, hedit, exactEdit_of_edits hedits, ?_⟩
      simp only [TextDocument.syncFromView, if_neg hsame, hedit, Option.bind_eq_bind, Option.bind_some]
      cases document.applyTransaction [edit] coalescable with
      | none => rfl
      | some result => cases result <;> rfl
  · intro old new
    rcases Vi.singleEditDiff_spec old new with hsame | ⟨edit, hdiffer, hdiff, hedits⟩
    · exact .inl hsame
    · exact .inr ⟨hdiffer, edit, hdiff, exactEdit_of_edits hedits⟩

end FesTerm.Document
