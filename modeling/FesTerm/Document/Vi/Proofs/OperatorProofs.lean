import FesTerm.Document.Vi.Proofs.KeystrokeProofs

/-!
# Operator proofs

`D` removes the rest of the line, `d$` everything up to the last character of it and that character
too. `Spanned` gives what both work with: the line around the caret, split there. They part where
the line has no last character.
-/

namespace FesTerm.Document.Vi

open Checked Splicing List Option

/-- The caret is on an empty line that another line follows. -/
def OnEmptyLine (text : Text) (caret : Nat) : Prop :=
  let buf := Buffer.new text
  let ci := buf.ciOfByte (ViEngine.floorTextBoundary text caret)
  buf.lineStart ci = buf.lineEnd ci ∧ buf.lineEnd ci < buf.nchars

instance (text : Text) (caret : Nat) : Decidable (OnEmptyLine text caret) := by
  unfold OnEmptyLine
  infer_instance

/-- The line around the caret of an editing. -/
structure Spanned (text : Text) (caret : Nat) (line : Nat) (before left right after : Text) :
    Prop where
  at' : LineAt text line before (left ++ right) after
  caret : ViEngine.floorTextBoundary text caret = utf8Len (before ++ left)

theorem exists_spanned (text : Text) (caret : Nat) :
    ∃ line before left right after, Spanned text caret line before left right after := by
  obtain ⟨i, hi, hcaret⟩ := floorCharBoundary_offset text (min caret (utf8Len text))
  obtain ⟨before, left, right, after, hpos, hat⟩ :=
    Buffer.exists_line_of_position (.new text) hi
  have htext := hat.text_eq
  change text = before ++ (left ++ right ++ after) at htext
  refine ⟨_, before, left, right, after, hat, ?_⟩
  change floorCharBoundary text _ = _
  rw [hcaret, hpos, ← length_append]
  conv_lhs => rw [htext, append_assoc, ← append_assoc before]
  exact offset_append _ _

namespace Spanned

variable {text : Text} {caret line : Nat} {before left right after : Text}
  (h : Spanned text caret line before left right after)

include h

theorem text_split : text = (before ++ left) ++ (right ++ after) := by
  rw [h.at'.text_eq]
  simp only [append_assoc]

theorem length_le : before.length + left.length + right.length + after.length = text.length := by
  rw [h.text_split]
  simp only [length_append]
  omega

theorem position : (Buffer.new text).ciOfByte (utf8Len (before ++ left)) = before.length + left.length := by
  have hlen := h.length_le
  have hoffset : utf8Len (before ++ left) = offset text (before ++ left).length := by
    conv_rhs => rw [h.text_split]
    exact (offset_append _ _).symm
  rw [hoffset, ← length_append]
  refine Buffer.ciOfByte_offset (.new text) ?_
  change _ ≤ text.length
  simp only [length_append]
  omega

theorem lineStart : (Buffer.new text).lineStart (before.length + left.length) = before.length :=
  Buffer.lineStart_eq (.new text) h.at' rfl

theorem lineEnd : (Buffer.new text).lineEnd (before.length + left.length) =
    before.length + left.length + right.length := by
  rw [Buffer.lineEnd_eq (.new text) h.at' rfl, length_append, Nat.add_assoc]

theorem byte_position : (Buffer.new text).byte (before.length + left.length) =
    utf8Len (before ++ left) := by
  have hlen := h.length_le
  rw [Buffer.byte_of_le (.new text) (by change _ ≤ text.length; omega)]
  change offset text _ = _
  rw [← length_append]
  conv_lhs => rw [h.text_split]
  exact offset_append _ _

theorem slice_right : (Buffer.new text).slice (before.length + left.length)
    (before.length + left.length + right.length) = some right := by
  rw [← length_append]
  exact Buffer.slice_append (.new text) h.text_split

theorem onEmptyLine_iff : OnEmptyLine text caret ↔ left ++ right = [] ∧ after ≠ [] := by
  have hlen := h.length_le
  unfold OnEmptyLine
  simp only
  rw [h.caret, h.position, h.lineStart, h.lineEnd]
  change _ ∧ _ < text.length ↔ _
  rw [append_eq_nil_iff, ← length_eq_zero_iff, ← length_eq_zero_iff, ne_eq,
    ← length_eq_zero_iff]
  omega

theorem caretAfterDelete_lineEnd : caretAfterDelete (.new text) (before.length + left.length)
    (before.length + left.length + right.length) =
    if left = [] then utf8Len (before ++ left)
    else (Buffer.new text).byte (before.length + left.length - 1) := by
  have hlen := h.length_le
  have hatEnd : before.length + left.length + right.length ≥ (Buffer.new text).nchars ∨
      (Buffer.new text).ch (before.length + left.length + right.length) = some '\n' := by
    change _ ≥ text.length ∨ text[_]? = _
    rcases h.at'.opens with rfl | ⟨rest, rfl⟩
    · left
      simp only [length_nil] at hlen
      omega
    · right
      have hsplit := h.text_split
      rw [← append_assoc] at hsplit
      rw [hsplit, ← length_append, ← length_append, getElem?_append_right le_rfl, Nat.sub_self]
      rfl
  unfold caretAfterDelete
  simp only [hatEnd, true_and, h.lineStart]
  cases left with
  | nil =>
    rw [if_neg (by simp), if_pos rfl]
    exact h.byte_position
  | cons c left => rw [if_pos (by simp), if_neg (by simp)]

/-- What `$` names behind the caret: the last character of the line, and past the text nothing. -/
theorem resolve_lineEnd [Unicode] [Build] (op : Option Operator) (htext : utf8Len text < 2 ^ 63) :
    resolveMotion (.new text) (utf8Len (before ++ left)) '$' none op =
      some (some (.chars (before.length + left.length)
        (before.length + (left.length + right.length) -
          if left ++ right = [] then 0 else 1) true)) := by
  have hlen := h.length_le
  have hchars := length_le_utf8Len text
  have hindex := Buffer.lineIndex_eq (.new text) h.at' rfl
  have hstart := Buffer.nthLineStart_eq (.new text) h.at'
  have hstop := Buffer.lineEndByLine_eq (.new text) h.at'
  have hnumber := h.at'.number_le
  have hfew : text.count '\n' ≤ text.length := count_le_length
  have hlast : min line ((Buffer.new text).lineCount - 1) = line := Nat.min_eq_left hnumber
  have hmotion : resolveLineEnd (.new text) (before.length + left.length) 1 =
      some (.chars (before.length + left.length)
        (before.length + (left.length + right.length) -
          if left ++ right = [] then 0 else 1) true) := by
    simp only [resolveLineEnd, hindex, Nat.sub_self, Nat.add_zero,
      usize_eq (show line < 2 ^ 64 by omega), some_bind, hlast, hstop,
      hstart, length_append]
    by_cases hempty : left ++ right = []
    · obtain ⟨rfl, rfl⟩ := append_eq_nil_iff.mp hempty
      simp
    · have hpos := length_pos_of_ne_nil hempty
      rw [length_append] at hpos
      rw [if_pos (by omega), if_neg hempty]
      rfl
  unfold resolveMotion
  simp only [h.position, getD_none, hmotion, some_bind]
  rfl

theorem operatorRange_lineEnd [Build] (htext : utf8Len text < 2 ^ 63) :
    ViEngine.operatorRange (.new text) (before.length + left.length)
        (before.length + (left.length + right.length) - if left ++ right = [] then 0 else 1) true =
      some (before.length + left.length, before.length + left.length + right.length +
        if left ++ right = [] ∧ after ≠ [] then 1 else 0) := by
  have hlen := h.length_le
  have hchars := length_le_utf8Len text
  have hnchars : (Buffer.new text).nchars = text.length := rfl
  simp only [ViEngine.operatorRange, if_true, hnchars]
  rw [usize_eq (by omega)]
  simp only [some_bind, Option.pure_def, some.injEq, Prod.mk.injEq, true_and]
  by_cases hempty : left ++ right = []
  · obtain ⟨rfl, rfl⟩ := append_eq_nil_iff.mp hempty
    cases after with
    | nil =>
      simp only [length_nil] at hlen
      simp
      omega
    | cons c rest =>
      simp only [length_nil, length_cons] at hlen
      simp
      omega
  · have hpos := length_pos_of_ne_nil hempty
    rw [length_append] at hpos
    rw [if_neg hempty, if_neg (by simp [hempty])]
    omega

end Spanned

/-! ## Runs -/

/-- An engine in Normal mode with nothing half typed. -/
structure Ready (engine : ViEngine) : Prop where
  mode : engine.mode = .normal
  stage : engine.stage = .ready
  count : engine.count = none
  operatorCount : engine.operatorCount = none

variable {engine : ViEngine}

theorem ready_iff : Ready engine ↔ engine.mode = .normal ∧ engine.isPending = false := by
  constructor
  · intro h
    refine ⟨h.mode, ?_⟩
    rw [ViEngine.isPending, h.stage, h.count, h.operatorCount]
    rfl
  · rintro ⟨hmode, hpending⟩
    simp only [ViEngine.isPending, Bool.or_eq_false_iff, bne_eq_false_iff_eq,
      isSome_eq_false_iff, isNone_iff_eq_none] at hpending
    exact ⟨hmode, hpending.1.1, hpending.1.2, hpending.2⟩

/-- The engine behind a deletion. -/
def deleted (engine : ViEngine) (removed : Text) (change : Bool) : ViEngine :=
  { engine with
    mode := if change then .insert else .normal
    stage := .ready
    count := none
    operatorCount := none
    register := ⟨removed, false⟩ }

/-- The caret behind a deletion. -/
def deletedCaret (text before left : Text) (change : Bool) : Nat :=
  if change ∨ left = [] then utf8Len (before ++ left)
  else (Buffer.new text).byte (before.length + left.length - 1)

/-- The operator of `d` or `c`. -/
def deletingOperator (change : Bool) : Operator := if change then .change else .delete

variable {behind removed : Text}

namespace Spanned

variable [Unicode] [Build] {text : Text} {caret line : Nat} {before left right after : Text}
  (h : Spanned text caret line before left right after)

include h

omit [Build] [Unicode] in
theorem applied_removed (hsplit : right ++ after = removed ++ behind) :
    Editing.applied text (ViEngine.removal (utf8Len (before ++ left)) removed) =
      some (before ++ left ++ behind) := by
  conv_lhs => rw [h.text_split, hsplit]
  exact Editing.applied_removal (before ++ left) removed behind

omit [Unicode] [Build] in
theorem deleteToLineEnd_eq {engine' : ViEngine} (hready : Ready engine)
    (hsame : SameCommand engine engine') (change : Bool) :
    ∃ next, engine'.deleteToLineEnd (.new text) (utf8Len (before ++ left)) change =
        some (next, ViEngine.removal (utf8Len (before ++ left)) right, deletedCaret text before left change) ∧
      SameCommand (deleted engine right change) next := by
  simp only [ViEngine.deleteToLineEnd, h.position, h.lineEnd, h.slice_right, h.lineStart, some_bind]
  cases change with
  | true =>
    refine ⟨_, rfl, ⟨rfl, hsame.stage.trans hready.stage, hsame.count.trans hready.count,
      hsame.operatorCount.trans hready.operatorCount, rfl, hsame.visualAnchor, hsame.replaying⟩⟩
  | false =>
    refine ⟨engine'.setRegister right false, ?_, ⟨hsame.mode.trans hready.mode,
      hsame.stage.trans hready.stage, hsame.count.trans hready.count,
      hsame.operatorCount.trans hready.operatorCount, rfl, hsame.visualAnchor, hsame.replaying⟩⟩
    cases left with
    | nil => simp [deletedCaret]
    | cons c left => simp [deletedCaret]

/-- What `$` gives the operator to remove: the rest of the line, or the line feed of an empty
line. -/
theorem operatorKey_lineEnd {engine' : ViEngine} (htext : utf8Len text < 2 ^ 63)
    (hcount : engine.count = none) (hoperatorCount : engine.operatorCount = none)
    (hmode : engine.mode = .normal) (hsame : SameCommand engine engine') (change : Bool)
    (hsplit : right ++ after = removed ++ behind)
    (hremoved : removed.length = right.length + if left ++ right = [] ∧ after ≠ [] then 1 else 0) :
    ∃ next, engine'.operatorKey (.new text) (deletingOperator change) '$' (utf8Len (before ++ left)) =
        some (next, ViEngine.removal (utf8Len (before ++ left)) removed,
          if change then utf8Len (before ++ left)
          else caretAfterDelete (.new text) (before.length + left.length)
            (before.length + left.length + removed.length)) ∧
      SameCommand (deleted engine removed change) next := by
  have hcount' := hsame.count.trans hcount
  have hoperatorCount' := hsame.operatorCount.trans hoperatorCount
  have hmotion := h.resolve_lineEnd (some (deletingOperator change)) htext
  have hrange := h.operatorRange_lineEnd htext
  have hslice : (Buffer.new text).slice (before.length + left.length)
      (before.length + left.length + removed.length) = some removed := by
    have htext' := h.text_split
    rw [hsplit] at htext'
    rw [← length_append]
    exact Buffer.slice_append (.new text) htext'
  rw [Nat.add_assoc, ← hremoved] at hrange
  have hdoubled : '$' ≠ ViEngine.doublingKey (deletingOperator change) := by
    cases change <;> decide
  have hkey : engine'.operatorKey (.new text) (deletingOperator change) '$'
      (utf8Len (before ++ left)) =
        ({ engine' with operatorCount := none, count := none, stage := .ready } :
          ViEngine).applyOperator (.new text) (deletingOperator change)
            (.chars (before.length + left.length) (before.length + (left.length + right.length) -
              if left ++ right = [] then 0 else 1) true) := by
    unfold ViEngine.operatorKey
    rw [hcount', hoperatorCount']
    simp only [ViEngine.effectiveCount, bind_eq_bind, Option.pure_def, bind_some,
      if_neg hdoubled, hmotion]
    rfl
  rw [hkey]
  simp only [ViEngine.applyOperator, hrange, hslice, h.byte_position, bind_eq_bind, bind_some]
  cases change with
  | true =>
    exact ⟨_, rfl, ⟨rfl, rfl, rfl, rfl, rfl, hsame.visualAnchor, hsame.replaying⟩⟩
  | false =>
    exact ⟨_, rfl, ⟨hsame.mode.trans hmode, rfl, rfl, rfl, rfl, hsame.visualAnchor, hsame.replaying⟩⟩

end Spanned

namespace Editing

variable [Unicode] [Build] {editing : Editing} {line : Nat} {before left right after : Text}

theorem type_toLineEnd (hready : Ready editing.engine)
    (h : Spanned editing.text editing.caret line before left right after) (change : Bool) :
    ∃ editing', editing.type [if change then 'C' else 'D'] = some editing' ∧
      editing'.shown = (before ++ left ++ after, ⟨right, false⟩,
        deletedCaret editing.text before left change, if change then .insert else .normal) := by
  have hkey : (if change then 'C' else 'D') ≠ '.' ∧ (if change then 'C' else 'D') ≠ 'u' ∧
      (if change then 'C' else 'D').isDigit = false := by cases change <;> decide
  have hcommand : ∀ engine, SameCommand editing.engine engine →
      ∃ next, ({ engine with count := none } : ViEngine).normalCommand (.new editing.text)
          (if change then 'C' else 'D') engine.count (utf8Len (before ++ left)) =
          some (next, ViEngine.removal (utf8Len (before ++ left)) right,
            deletedCaret editing.text before left change) ∧
        SameCommand (deleted editing.engine right change) next := by
    intro engine hengine
    have hsame : SameCommand editing.engine { engine with count := none } :=
      ⟨hengine.mode, hengine.stage, hready.count.symm, hengine.operatorCount, hengine.register,
        hengine.visualAnchor, hengine.replaying⟩
    obtain ⟨next, hnext, hlast⟩ := h.deleteToLineEnd_eq hready hsame change
    refine ⟨next, ?_, hlast⟩
    cases change <;> exact hnext
  obtain ⟨editing', hpress, htext, hcaret, hsame⟩ := press_command hready.mode hready.stage h.caret
    hkey.1 hkey.2.1 hkey.2.2 (by intro count; cases change <;> rfl) hcommand
    (h.applied_removed rfl)
  refine ⟨editing', ?_, ?_⟩
  · simp only [type, foldlM_cons, foldlM_nil, hpress, bind_eq_bind, bind_some]
    rfl
  · rw [shown, htext, hcaret, hsame.register, hsame.mode]
    rfl

/-- `d$` and `c$`. -/
theorem type_operator_lineEnd (hready : Ready editing.engine) (hlen : utf8Len editing.text < 2 ^ 63)
    (h : Spanned editing.text editing.caret line before left right after) (change : Bool)
    (hsplit : right ++ after = removed ++ behind)
    (hremoved : removed.length = right.length + if left ++ right = [] ∧ after ≠ [] then 1 else 0) :
    ∃ editing', editing.type [if change then 'c' else 'd', '$'] = some editing' ∧
      editing'.shown = (before ++ left ++ behind, ⟨removed, false⟩, if change then utf8Len (before ++ left)
        else caretAfterDelete (.new editing.text) (before.length + left.length)
          (before.length + left.length + removed.length),
        if change then .insert else .normal) := by
  obtain ⟨pending, hfirst, htext, hcaret, hpending⟩ :=
    press_operator (deletingOperator change) hready.mode hready.stage
  -- the second key is handed the caret of the first one's response, which is a boundary already
  have hfloor : ViEngine.floorTextBoundary pending.text pending.caret = utf8Len (before ++ left) := by
    obtain ⟨i, hi, hposition⟩ := editing.exists_position
    rw [htext, hcaret, hposition, floorTextBoundary_offset hi, ← hposition, h.caret]
  obtain ⟨editing', hsecond, htext', hcaret', hsame⟩ := press_operatorKey
    (hpending.mode.trans hready.mode) hpending.stage hfloor (show '$' ≠ '.' by decide)
    (by decide) (by decide)
    (by
      intro engine hengine
      rw [htext]
      exact h.operatorKey_lineEnd hlen hpending.count
        (hpending.operatorCount.trans hready.count) (hpending.mode.trans hready.mode) hengine change
        hsplit hremoved)
    (htext ▸ h.applied_removed hsplit)
  refine ⟨editing', ?_, ?_⟩
  · have hkey : (if change then 'c' else 'd') = ViEngine.doublingKey (deletingOperator change) := by
      cases change <;> rfl
    simp only [type, foldlM_cons, foldlM_nil, hkey, hfirst, hsecond, bind_eq_bind,
      bind_some]
    rfl
  · rw [shown, htext', hcaret', hsame.register, hsame.mode]
    rfl

end Editing

/-- `D` does what `d$` does and `C` what `c$` does unless the caret is on an empty line that another
one follows: there `$` names the line feed. -/
theorem delete_to_line_end_is_operator_to_line_end [Unicode] [Build] (editing : Editing)
    (hmode : editing.engine.mode = .normal) (hpending : editing.engine.isPending = false)
    (hlen : utf8Len editing.text < 2 ^ 63) :
    ∃ deleted operated changed operatedChange : Editing,
      editing.type ['D'] = some deleted ∧ editing.type ['d', '$'] = some operated ∧
      editing.type ['C'] = some changed ∧ editing.type ['c', '$'] = some operatedChange ∧
      ((deleted.shown = operated.shown ∧ changed.shown = operatedChange.shown) ↔
        ¬ OnEmptyLine editing.text editing.caret) := by
  have hready := ready_iff.mpr ⟨hmode, hpending⟩
  obtain ⟨line, before, left, right, after, h⟩ := exists_spanned editing.text editing.caret
  obtain ⟨deleted, hdeleted, hshown⟩ := editing.type_toLineEnd hready h false
  obtain ⟨changed, hchanged, hshown'⟩ := editing.type_toLineEnd hready h true
  by_cases hempty : OnEmptyLine editing.text editing.caret
  · obtain ⟨hbody, hafter⟩ := h.onEmptyLine_iff.mp hempty
    obtain ⟨rfl, rfl⟩ := append_eq_nil_iff.mp hbody
    obtain ⟨rest, rfl⟩ := h.at'.opens.resolve_left hafter
    obtain ⟨operated, hoperated, hother⟩ := editing.type_operator_lineEnd hready hlen h false
      (show [] ++ '\n' :: rest = ['\n'] ++ rest from rfl) (by simp)
    obtain ⟨operatedChange, hoperatedChange, -⟩ := editing.type_operator_lineEnd hready hlen h true
      (show [] ++ '\n' :: rest = ['\n'] ++ rest from rfl) (by simp)
    refine ⟨deleted, operated, changed, operatedChange, hdeleted, hoperated, hchanged, hoperatedChange, ?_⟩
    rw [hshown, hother]
    simp [hempty]
  · have hremoved : right.length = right.length + if left ++ right = [] ∧ after ≠ [] then 1 else 0 := by
      rw [if_neg (fun hboth => hempty (h.onEmptyLine_iff.mpr hboth))]
      rfl
    obtain ⟨operated, hoperated, hother⟩ :=
      editing.type_operator_lineEnd hready hlen h false rfl hremoved
    obtain ⟨operatedChange, hoperatedChange, hother'⟩ :=
      editing.type_operator_lineEnd hready hlen h true rfl hremoved
    refine ⟨deleted, operated, changed, operatedChange, hdeleted, hoperated, hchanged, hoperatedChange, ?_⟩
    rw [hshown, hshown', hother, hother', h.caretAfterDelete_lineEnd]
    simp [hempty, deletedCaret]

/-- On the empty line between two others `d$` joins them, and `D` does nothing. -/
theorem delete_to_line_end_joins_lines :
    letI := Unicode.ascii
    letI := Build.release
    ((Editing.opened ['a', '\n', '\n', 'b'] 2).type ['D']).map Editing.shown =
        some (['a', '\n', '\n', 'b'], ⟨[], false⟩, 2, .normal) ∧
      ((Editing.opened ['a', '\n', '\n', 'b'] 2).type ['d', '$']).map Editing.shown =
        some (['a', '\n', 'b'], ⟨['\n'], false⟩, 2, .normal) ∧
      ((Editing.opened ['a', '\n', '\n', 'b'] 2).type ['D']).map Editing.shown ≠
        ((Editing.opened ['a', '\n', '\n', 'b'] 2).type ['d', '$']).map Editing.shown := by
  decide +kernel

/-- Between two letters the commands agree. -/
theorem delete_to_line_end_is_operator_in_line :
    letI := Unicode.ascii
    letI := Build.release
    ∃ deleted operated changed operatedChange : Editing,
      (Editing.opened ['a', 'b', '\n', 'c'] 1).type ['D'] = some deleted ∧
      (Editing.opened ['a', 'b', '\n', 'c'] 1).type ['d', '$'] = some operated ∧
      (Editing.opened ['a', 'b', '\n', 'c'] 1).type ['C'] = some changed ∧
      (Editing.opened ['a', 'b', '\n', 'c'] 1).type ['c', '$'] = some operatedChange ∧
      deleted.shown = operated.shown ∧ changed.shown = operatedChange.shown := by
  let _ := Unicode.ascii
  let _ := Build.release
  obtain ⟨deleted, operated, changed, operatedChange, hdeleted, hoperated, hchanged, hchange, hiff⟩ :=
    delete_to_line_end_is_operator_to_line_end (Editing.opened ['a', 'b', '\n', 'c'] 1) rfl rfl
      (by decide)
  obtain ⟨hsame, hsame'⟩ := hiff.mpr (by decide +kernel)
  exact ⟨deleted, operated, changed, operatedChange, hdeleted, hoperated, hchanged, hchange, hsame, hsame'⟩

end FesTerm.Document.Vi
