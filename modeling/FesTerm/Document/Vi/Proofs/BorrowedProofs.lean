import FesTerm.Document.Vi.Keystrokes
import FesTerm.Document.Vi.Proofs.MotionProofs

/-!
# Borrowed motion proofs

A motion key is answered on the borrowed text when nothing is pending, and through the buffer view
otherwise. `Agree` is what holds of the two answers: both paths end, in one place of the text once
the caret is clamped.

The buffer view holds a word for every character, and no allocation is larger than a signed word
counts; so a text with a view has fewer than `2 ^ 60` characters.
-/

namespace FesTerm.Document.Vi

open Checked Splicing List Option

section Paths

variable [Unicode] [Build]

/-- The indexed path: the motion is resolved and the cursor moved along it. -/
def indexedMotion (text : Text) (caret : Nat) (key : Char) (count : Option Nat) : Option (Option Nat) := do
  match ← resolveMotion (.new text) caret key count none with
  | none => return none
  | some motion => return some (moveCursor (.new text) caret motion)

/-- Both paths end, and in one place. -/
def Agree (text : Text) (caret : Nat) (key : Char) (count : Option Nat) : Prop :=
  ∃ target i, borrowedTarget text caret key count = some (some target) ∧ At text i target ∧
    indexedMotion text caret key count = some (some (clampCursor (.new text) i))

variable {text : Text} {i caret : Nat} {key : Char} {count : Option Nat}

omit [Unicode] [Build] in
theorem At.clampTextCursor_eq (h : At text i caret) :
    clampTextCursor text caret = some (clampCursor (.new text) i) := by
  obtain ⟨before, left, right, after, rfl, rfl, hline⟩ := h.exists_line
  rw [hline.clampTextCursor_eq, hline.clampCursor_eq (by simp)]

omit [Unicode] [Build] in
theorem At.ciOfByte_eq (h : At text i caret) : (Buffer.new text).ciOfByte caret = i := by
  rw [h.eq]
  exact Buffer.ciOfByte_offset (.new text) h.le

variable {inclusive : Bool} {line : Nat} {before after : Text}

variable {dest : Nat}

theorem At.indexed_forward (h : At text i caret) (hdest : dest ≤ text.length)
    (hmotion : resolveMotion (.new text) caret key count none =
      some (some (.chars i dest inclusive))) :
    indexedMotion text caret key count = some (some (clampCursor (.new text) dest)) := by
  have hmin : min dest (Buffer.new text).nchars = dest := Nat.min_eq_left hdest
  simp [indexedMotion, hmotion, moveCursor, h.ciOfByte_eq, hmin]

theorem At.indexed_back (h : At text i caret) (hdest : dest ≤ text.length)
    (hmotion : resolveMotion (.new text) caret key count none =
      some (some (.chars dest i inclusive))) :
    indexedMotion text caret key count = some (some (clampCursor (.new text) dest)) := by
  have hmin : min dest (Buffer.new text).nchars = dest := Nat.min_eq_left hdest
  by_cases heq : dest = i
  · subst heq
    simp [indexedMotion, hmotion, moveCursor, h.ciOfByte_eq, hmin]
  · simp [indexedMotion, hmotion, moveCursor, h.ciOfByte_eq, hmin, heq]

theorem indexed_there (hdest : dest ≤ text.length) (hmotion : resolveMotion (.new text) caret key count none =
      some (some (.chars dest dest inclusive))) :
    indexedMotion text caret key count = some (some (clampCursor (.new text) dest)) := by
  have hmin : min dest (Buffer.new text).nchars = dest := Nat.min_eq_left hdest
  simp [indexedMotion, hmotion, moveCursor, hmin]

attribute [local simp] borrowedTarget resolveMotion

theorem At.agree_wordForward (h : At text i caret) (big : Bool) (count : Option Nat) :
    Agree text caret (if big then 'W' else 'w') count := by
  obtain ⟨dest, target, hdest, htarget, hat⟩ := At.wordForward big (count.getD 1) h
  have hmotion : resolveWord (.new text) i (count.getD 1) big none =
      some (.chars i dest false) := by
    rw [resolveWord, if_neg (fun hop => by cases hop.1), hdest]
    rfl
  refine ⟨target, dest, ?_, hat, h.indexed_forward hat.le (?_ : _ = some (some (Motion.chars _ _ false)))⟩
  · cases big <;>
    · simp only [borrowedTarget, htarget]
      rfl
  · cases big <;>
    · simp only [resolveMotion, h.ciOfByte_eq, hmotion]
      rfl

theorem At.agree_wordEnd (h : At text i caret) (big : Bool) (count : Option Nat) :
    Agree text caret (if big then 'E' else 'e') count := by
  obtain ⟨dest, target, hdest, htarget, hat⟩ := At.wordEnd big (count.getD 1) h
  refine ⟨target, dest, ?_, hat, h.indexed_forward hat.le (?_ : _ = some (some (Motion.chars _ _ true)))⟩
  · cases big <;>
    · simp only [borrowedTarget, htarget]
      rfl
  · cases big <;>
    · simp only [resolveMotion, h.ciOfByte_eq, hdest]
      rfl

theorem At.agree_wordBack (h : At text i caret) (big : Bool) (count : Option Nat) :
    Agree text caret (if big then 'B' else 'b') count := by
  obtain ⟨dest, target, hdest, htarget, hat⟩ := At.wordBack big (count.getD 1) h
  refine ⟨target, dest, ?_, hat, h.indexed_back hat.le (?_ : _ = some (some (Motion.chars _ _ false)))⟩
  · cases big <;>
    · simp only [borrowedTarget, htarget]
      rfl
  · cases big <;>
    · simp only [resolveMotion, h.ciOfByte_eq, hdest]
      rfl

variable {body : Text}

section

omit [Unicode] [Build]

theorem lineCount_eq (text : Text) : (Buffer.new text).lineCount = text.count '\n' + 1 := rfl

theorem LineAt.at_end (h : LineAt text line before body after) :
    At text (before.length + body.length) (utf8Len (before ++ body)) := by
  have hline : LineAt text line before (body ++ []) after := by rwa [append_nil]
  exact hline.at'

theorem LineAt.at_firstNonBlank (h : LineAt text line before body after) :
    At text ((Buffer.new text).firstNonBlank before.length)
      (utf8Len (before ++ body.takeWhile isBlank)) := by
  have hline : LineAt text line before (body.takeWhile isBlank ++ body.dropWhile isBlank) after := by
    rwa [takeWhile_append_dropWhile]
  have hat := hline.at'
  rwa [← Buffer.firstNonBlank_eq (.new text) h] at hat

end

section Line

variable {line : Nat} {before left right after : Text}
  (h : LineAt text line before (left ++ right) after)

include h

section

omit [Unicode] [Build]

theorem LineAt.length_le : before.length + left.length + right.length ≤ text.length := by
  rw [h.text_eq]
  simp only [length_append]
  omega

theorem LineAt.buffer_lineStart : (Buffer.new text).lineStart (before.length + left.length) = before.length :=
  Buffer.lineStart_eq (.new text) h rfl

theorem LineAt.buffer_lineEnd : (Buffer.new text).lineEnd (before.length + left.length) =
    before.length + (left.length + right.length) := by
  rw [Buffer.lineEnd_eq (.new text) h rfl, length_append]

variable (moves : Nat)

theorem LineAt.at_left : At text (before.length + (left.length - moves))
    (utf8Len (before ++ left.take (left.length - moves))) := by
  have hline : LineAt text line before
      (left.take (left.length - moves) ++ (left.drop (left.length - moves) ++ right)) after := by
    rwa [← append_assoc, take_append_drop]
  have hat := hline.at'
  rwa [length_take, Nat.min_eq_left (Nat.sub_le _ _)] at hat

theorem LineAt.at_right : At text (before.length + (left.length + min moves right.length))
      (utf8Len (before ++ (left ++ right.take moves))) := by
  have hline : LineAt text line before ((left ++ right.take moves) ++ right.drop moves) after := by
    rwa [append_assoc, take_append_drop]
  have hat := hline.at'
  rwa [length_append, length_take] at hat

end

theorem LineAt.agree_left (count : Option Nat) : Agree text (utf8Len (before ++ left)) 'h' count := by
  have hat := h.at_left (count.getD 1)
  have hdest : max (before.length + left.length - count.getD 1) before.length =
      before.length + (left.length - count.getD 1) := by omega
  refine ⟨_, _, ?_, hat, h.at'.indexed_back hat.le (?_ : _ = some (some (Motion.chars _ _ false)))⟩
  · simp only [borrowedTarget, h.lineStartByte_eq, some_bind, h.backAlong_eq]
    rfl
  · simp only [resolveMotion, h.at'.ciOfByte_eq, h.buffer_lineStart, hdest]
    rfl

theorem LineAt.agree_right (count : Option Nat) (htext : text.length < 2 ^ 60)
    (hcount : count.getD 1 < 2 ^ 63) : Agree text (utf8Len (before ++ left)) 'l' count := by
  have hat := h.at_right (count.getD 1)
  have hle := h.length_le
  have hdest : min (before.length + left.length + count.getD 1)
      (before.length + (left.length + right.length)) =
      before.length + (left.length + min (count.getD 1) right.length) := by omega
  refine ⟨_, _, ?_, hat, h.at'.indexed_forward hat.le (?_ : _ = some (some (Motion.chars _ _ false)))⟩
  · simp only [borrowedTarget, h.alongLine_eq]
    rfl
  · simp only [resolveMotion, h.at'.ciOfByte_eq, h.buffer_lineEnd,
      usize_eq (show before.length + left.length + count.getD 1 < 2 ^ 64 by omega),
      some_bind, hdest]
    rfl

theorem LineAt.agree_lineStart (count : Option Nat) : Agree text (utf8Len (before ++ left)) '0' count := by
  have hstart : LineAt text line before ([] ++ (left ++ right)) after := h
  have hat := hstart.at'
  rw [append_nil, length_nil, Nat.add_zero] at hat
  refine ⟨_, _, ?_, hat, h.at'.indexed_back hat.le (?_ : _ = some (some (Motion.chars _ _ false)))⟩
  · simp only [borrowedTarget, h.lineStartByte_eq]
    rfl
  · simp only [resolveMotion, h.at'.ciOfByte_eq, h.buffer_lineStart]
    rfl

theorem LineAt.agree_firstNonBlank (count : Option Nat) :
    Agree text (utf8Len (before ++ left)) '^' count := by
  have hat := h.at_firstNonBlank
  refine ⟨_, _, ?_, hat, ?_⟩
  · simp only [borrowedTarget, h.lineStartByte_eq, some_bind, h.firstNonBlankByte_eq]
    rfl
  · have hmotion : resolveMotion (.new text) (utf8Len (before ++ left)) '^' count none =
        some (some (.chars
          (ordered ((Buffer.new text).firstNonBlank before.length)
            (before.length + left.length)).1
          (ordered ((Buffer.new text).firstNonBlank before.length)
            (before.length + left.length)).2 false)) := by
      simp only [resolveMotion, h.at'.ciOfByte_eq, h.buffer_lineStart]
      rfl
    rcases Nat.le_total ((Buffer.new text).firstNonBlank before.length)
      (before.length + left.length) with hle | hge
    · rw [ordered, if_pos hle] at hmotion
      exact h.at'.indexed_back hat.le hmotion
    · by_cases heq : (Buffer.new text).firstNonBlank before.length = before.length + left.length
      · rw [ordered, if_pos (le_of_eq heq)] at hmotion
        exact h.at'.indexed_back hat.le hmotion
      · rw [ordered, if_neg (by omega)] at hmotion
        exact h.at'.indexed_forward hat.le hmotion

omit [Unicode] [Build] in
theorem LineAt.buffer_lineIndex : (Buffer.new text).lineIndex (before.length + left.length) = line :=
  Buffer.lineIndex_eq (.new text) h rfl

theorem LineAt.agree_lineEnd (count : Option Nat) (htext : text.length < 2 ^ 60)
    (hcount : count.getD 1 < 2 ^ 63) : Agree text (utf8Len (before ++ left)) '$' count := by
  obtain ⟨before', body, after', hline, hloop⟩ := h.lineEnds_eq (count.getD 1 - 1)
  have hat := hline.at_end
  have hlines : text.count '\n' ≤ text.length := count_le_length
  have hnumber := h.number_le
  have hclamp : clampCursor (.new text) (before'.length + body.length) =
      clampCursor (.new text) (before'.length + (body.length - 1)) := by
    rw [hline.clampCursor_eq le_rfl, hline.clampCursor_eq (by omega)]
    exact congrArg (offset text) (by omega)
  have hmotion : resolveLineEnd (.new text) (before.length + left.length) (count.getD 1) =
      some (.chars (before.length + left.length) (before'.length + (body.length - 1)) true) := by
    have hlast : min (line + (count.getD 1 - 1)) ((Buffer.new text).lineCount - 1) =
        min (line + (count.getD 1 - 1)) (text.count '\n') := by rw [lineCount_eq, Nat.add_sub_cancel]
    have hstop : (if before'.length + body.length > before'.length then
        before'.length + body.length - 1 else before'.length + body.length) =
        before'.length + (body.length - 1) := by
      split <;> omega
    simp only [resolveLineEnd, h.buffer_lineIndex,
      usize_eq (show line + (count.getD 1 - 1) < 2 ^ 64 by omega), bind_eq_bind,
      bind_some, hlast, Buffer.lineEndByLine_eq (.new text) hline,
      Buffer.nthLineStart_eq (.new text) hline, hstop]
    rfl
  refine ⟨_, _, ?_, hat, ?_⟩
  · simp only [borrowedTarget, h.lineEndByte_eq, some_bind, hloop]
    rfl
  · rw [hclamp]
    have hle := hat.le
    refine h.at'.indexed_forward (by omega) (?_ : _ = some (some (Motion.chars _ _ true)))
    simp only [resolveMotion, h.at'.ciOfByte_eq, hmotion]
    rfl

variable {before' : Text}

variable {line' : Nat} {after' : Text}

omit [Unicode] in
theorem LineAt.vertical_eq {delta sum : Int}
    (hline : LineAt text line' before' body after') (htext : text.length < 2 ^ 60)
    (hsum : isize (line + delta) = some sum) (hclamp : min (max sum 0) (text.count '\n') = line') :
    vertical (.new text) (before.length + left.length) delta =
      some (before'.length + min left.length (body.length - 1)) := by
  have hlines : text.count '\n' ≤ text.length := count_le_length
  have hnumber := h.number_le
  have hcount : asIsize (Buffer.new text).lineCount - 1 = text.count '\n' := by
    rw [lineCount_eq, asIsize_eq (by omega)]
    push_cast
    omega
  have hlast : (if before'.length + body.length > before'.length then
      before'.length + body.length - 1 else before'.length) =
      before'.length + (body.length - 1) := by
    split <;> omega
  have hcolumn : before.length + left.length - before.length = left.length := by omega
  unfold vertical
  simp only [h.buffer_lineIndex, asIsize_eq (show line < 2 ^ 63 by omega), hsum, hcount, hclamp,
    some_bind, Int.toNat_natCast,
    Buffer.nthLineStart_eq (.new text) hline, Buffer.lineEndByLine_eq (.new text) hline, hlast,
    h.buffer_lineStart, hcolumn, Option.pure_def, some.injEq]
  omega

omit [Unicode] in
theorem LineAt.vertical_stop {delta : Int} (htext : text.length < 2 ^ 60)
    (hsum : isize (line + delta) = none) :
    vertical (.new text) (before.length + left.length) delta = none := by
  have hlines : text.count '\n' ≤ text.length := count_le_length
  have hnumber := h.number_le
  unfold vertical
  rw [h.buffer_lineIndex, asIsize_eq (by omega), hsum]
  rfl

omit [Unicode] [Build] in
/-- A borrowed vertical motion to a line. -/
theorem LineAt.borrowedVertical_eq (n : Nat) (down : Bool) (hline : LineAt text line' before' body after')
    (hmoves : (if down then downLines text n (utf8Len before) else upLines text n (utf8Len before)) =
      some (utf8Len before')) :
    ∃ target, borrowedVertical text (utf8Len (before ++ left)) n down = some target ∧
      At text (before'.length + min left.length body.length) target := by
  have hslice : sliceText text (utf8Len before) (utf8Len (before ++ left)) = some left := by
    have htext : text = before ++ (left ++ (right ++ after)) := by
      rw [h.text_eq]
      simp only [append_assoc]
    have hend : utf8Len text - utf8Len (right ++ after) = utf8Len (before ++ left) := by
      rw [htext]
      simp only [utf8Len_append]
      omega
    have hthree := (slices_around htext).2.2
    rwa [hend] at hthree
  have hstart : LineAt text line' before' ([] ++ body) after' := hline
  have hwalk := hstart.alongLine_eq left.length
  rw [append_nil, nil_append] at hwalk
  have hat := hstart.at_right left.length
  rw [nil_append, length_nil, Nat.zero_add] at hat
  refine ⟨_, ?_, hat⟩
  unfold borrowedVertical
  simp only [h.lineStartByte_eq, hslice, some_bind]
  cases down with
  | true =>
    simp only [if_true] at hmoves ⊢
    rw [hmoves]
    exact hwalk
  | false =>
    simp only [Bool.false_eq_true, if_false] at hmoves ⊢
    rw [hmoves]
    exact hwalk

omit [Unicode] [Build] h in
theorem LineAt.clampCursor_column (hline : LineAt text line' before' body after') (column : Nat) :
    clampCursor (.new text) (before'.length + min column (body.length - 1)) =
      clampCursor (.new text) (before'.length + min column body.length) := by
  rw [hline.clampCursor_eq (by omega), hline.clampCursor_eq (by omega)]
  exact congrArg (offset text) (by omega)

variable (buf : Buffer)

omit h in
theorem resolveMotion_down (caret : Nat) (count : Option Nat) : resolveMotion buf caret 'j' count none =
      (vertical buf (buf.ciOfByte caret) (asIsize (count.getD 1))).bind fun dest =>
        some (some (.chars (buf.ciOfByte caret) dest false)) := by
  simp only [resolveMotion, isSome_none, Bool.false_eq_true, if_false, Option.pure_def,
    bind_eq_bind]

theorem LineAt.agree_down (count : Option Nat) (htext : text.length < 2 ^ 60)
    (hcount : line + count.getD 1 < 2 ^ 63) : Agree text (utf8Len (before ++ left)) 'j' count := by
  obtain ⟨before', body, after', hline, hloop⟩ := h.downLines_eq (count.getD 1)
  obtain ⟨target, htarget, hat⟩ :=
    h.borrowedVertical_eq (count.getD 1) true hline hloop
  have hsum : isize ((line : Int) + (count.getD 1 : Int)) = some (line + (count.getD 1 : Int)) :=
    isize_eq (by omega) (by omega)
  have hmotion := h.vertical_eq hline htext hsum (by omega)
  refine ⟨target, _, ?_, hat, ?_⟩
  · simp only [borrowedTarget, htarget]
    rfl
  · rw [← hline.clampCursor_column]
    have hle := hat.le
    refine h.at'.indexed_forward (by omega) (?_ : _ = some (some (Motion.chars _ _ false)))
    rw [resolveMotion_down, h.at'.ciOfByte_eq, asIsize_eq (by omega), hmotion, bind_some]

omit h in
theorem resolveMotion_up (caret : Nat) (count : Option Nat) : resolveMotion buf caret 'k' count none =
      (isize (-asIsize (count.getD 1))).bind fun delta =>
        (vertical buf (buf.ciOfByte caret) delta).bind fun dest =>
          some (some (.chars dest (buf.ciOfByte caret) false)) := by
  simp only [resolveMotion, isSome_none, Bool.false_eq_true, if_false, Option.pure_def,
    bind_eq_bind]

theorem LineAt.agree_up (count : Option Nat) (htext : text.length < 2 ^ 60)
    (hcount : count.getD 1 < 2 ^ 63) : Agree text (utf8Len (before ++ left)) 'k' count := by
  obtain ⟨before', body, after', hline, hloop⟩ := h.upLines_eq (count.getD 1)
  obtain ⟨target, htarget, hat⟩ :=
    h.borrowedVertical_eq (count.getD 1) false hline hloop
  have hnegated : isize (-(count.getD 1 : Int)) = some (-(count.getD 1 : Int)) :=
    isize_eq (by omega) (by omega)
  have hlines : text.count '\n' ≤ text.length := count_le_length
  have hnumber := h.number_le
  have hsum : isize ((line : Int) + -(count.getD 1 : Int)) = some (line + -(count.getD 1 : Int)) :=
    isize_eq (by omega) (by omega)
  have hmotion := h.vertical_eq hline htext hsum (by omega)
  refine ⟨target, _, ?_, hat, ?_⟩
  · simp only [borrowedTarget, htarget]
    rfl
  · rw [← hline.clampCursor_column]
    have hle := hat.le
    refine h.at'.indexed_back (by omega) (?_ : _ = some (some (Motion.chars _ _ false)))
    rw [resolveMotion_up, h.at'.ciOfByte_eq, asIsize_eq hcount, hnegated, bind_some, hmotion,
      bind_some]

end Line

theorem agree_goto_line (caret count : Nat) : Agree text caret 'G' (some count) := by
  obtain ⟨before, body, after, hline, hstart⟩ := (lineAt_zero text).downLines_eq (count - 1)
  rw [Nat.zero_add] at hline
  have hstart : downLines text (count - 1) 0 = some (utf8Len before) := hstart
  have hat := hline.at_firstNonBlank
  refine ⟨_, _, ?_, hat, indexed_there hat.le (?_ : _ = some (some (Motion.chars _ _ false)))⟩
  · simp only [borrowedTarget, hstart, hline.firstNonBlankByte_eq, bind_eq_bind, bind_some]
    rfl
  · rw [← Buffer.nthLineStart_eq (.new text) hline]
    simp only [resolveMotion, resolveGoto, lineCount_eq, Nat.add_sub_cancel]
    rfl

theorem agree_goto_last (caret : Nat) : Agree text caret 'G' none := by
  obtain ⟨before, body, after, hline⟩ := exists_lineAt (Nat.lt_succ_self (text.count '\n'))
  have hend : LineAt text (text.count '\n') before (body ++ []) after := by
    rwa [append_nil]
  have hstart := hend.lineStartByte_eq
  have hlen : utf8Len text = utf8Len (before ++ body) := by
    rw [hline.text_eq, hline.last_iff.mp rfl, append_nil]
  rw [← hlen] at hstart
  have hat := hline.at_firstNonBlank
  refine ⟨_, _, ?_, hat, indexed_there hat.le (?_ : _ = some (some (Motion.chars _ _ false)))⟩
  · simp only [borrowedTarget, hstart, hline.firstNonBlankByte_eq, bind_eq_bind, bind_some]
    rfl
  · rw [← Buffer.nthLineStart_eq (.new text) hline]
    simp only [resolveMotion, resolveGoto, lineCount_eq, Nat.add_sub_cancel]
    rfl

theorem agree_goto (caret : Nat) (count : Option Nat) : Agree text caret 'G' count := by
  cases count with
  | some count => exact agree_goto_line caret count
  | none => exact agree_goto_last caret

theorem Agree.borrowed (h : Agree text caret key count) (hcount : count.getD 1 < 2 ^ 63) :
    ∃ moved, borrowedMotion text caret key count = some (some moved) ∧
      indexedMotion text caret key count = some (some moved) := by
  obtain ⟨target, i, htarget, hat, hindexed⟩ := h
  refine ⟨_, ?_, hindexed⟩
  unfold borrowedMotion
  rw [if_neg (by omega), htarget]
  simp only [some_bind, hat.clampTextCursor_eq, Option.pure_def]

omit [Build] in
theorem borrowedTarget_other
    (hkey : key ∉ ['h', 'l', '0', '^', '$', 'j', 'k', 'G', 'w', 'W', 'b', 'B', 'e', 'E']) :
    borrowedTarget text caret key count = some none := by
  simp only [mem_cons, not_mem_nil, or_false, not_or] at hkey
  unfold borrowedTarget
  split <;> first | rfl | (exfalso; simp at hkey)

theorem At.agree (h : At text i caret) (htext : text.length < 2 ^ 60) (hcount : count.getD 1 < 2 ^ 63)
    (hkey : key ∈ ['h', 'l', '0', '^', '$', 'j', 'k', 'G', 'w', 'W', 'b', 'B', 'e', 'E'])
    (hdown : key = 'j' → (Buffer.new text).lineIndex i + count.getD 1 < 2 ^ 63) :
    Agree text caret key count := by
  obtain ⟨before, left, right, after, rfl, rfl, hline⟩ := h.exists_line
  simp only [mem_cons, not_mem_nil, or_false] at hkey
  rcases hkey with rfl | rfl | rfl | rfl | rfl | rfl | rfl | rfl | rfl | rfl | rfl | rfl | rfl | rfl
  · exact hline.agree_left count
  · exact hline.agree_right count htext hcount
  · exact hline.agree_lineStart count
  · exact hline.agree_firstNonBlank count
  · exact hline.agree_lineEnd count htext hcount
  · exact hline.agree_down count htext (hdown rfl)
  · exact hline.agree_up count htext hcount
  · exact agree_goto _ count
  · exact h.agree_wordForward false count
  · exact h.agree_wordForward true count
  · exact h.agree_wordBack false count
  · exact h.agree_wordBack true count
  · exact h.agree_wordEnd false count
  · exact h.agree_wordEnd true count

omit [Unicode] [Build] in
theorem LineAt.lineIndex_column {column : Nat}
    (h : LineAt text line before body after) (hcolumn : column ≤ body.length) :
    (Buffer.new text).lineIndex (before.length + column) = line := by
  have hbody : body = body.take column ++ body.drop column := (take_append_drop _ _).symm
  have hindex := Buffer.lineIndex_eq (.new text) h hbody
  rwa [length_take, Nat.min_eq_left hcolumn] at hindex

/-- When the line and the count do not fit in a signed word together, the borrowed motion goes to
the last line; the indexed one stops, or comes back to the first line. -/
theorem LineAt.disagree_down {left right : Text}
    (h : LineAt text line before (left ++ right) after) (htext : text.length < 2 ^ 60)
    (hcount : count.getD 1 < 2 ^ 63) (hover : 2 ^ 63 ≤ line + count.getD 1) :
    ∃ moved, borrowedMotion text (utf8Len (before ++ left)) 'j' count = some (some moved) ∧
      indexedMotion text (utf8Len (before ++ left)) 'j' count ≠ some (some moved) := by
  have hlines : text.count '\n' ≤ text.length := count_le_length
  have hnumber := h.number_le
  obtain ⟨before', body, after', hline, hloop⟩ := h.downLines_eq (count.getD 1)
  rw [Nat.min_eq_right (by omega)] at hline
  obtain ⟨target, htarget, hat⟩ := h.borrowedVertical_eq (count.getD 1) true hline hloop
  refine ⟨clampCursor (.new text) (before'.length + min left.length body.length), ?_, ?_⟩
  · have hborrowed : borrowedTarget text (utf8Len (before ++ left)) 'j' count =
        some (some target) := by
      simp only [borrowedTarget, htarget]
      rfl
    unfold borrowedMotion
    rw [if_neg (by omega), hborrowed]
    simp only [some_bind, hat.clampTextCursor_eq, Option.pure_def]
  · have hwraps : isize ((line : Int) + (count.getD 1 : Int)) =
        if Build.overflowChecks then none
        else some ((line : Int) + (count.getD 1 : Int) - 2 ^ 64) := isize_wraps (by omega) (by omega)
    intro hsame
    by_cases hchecks : Build.overflowChecks = true
    · rw [if_pos hchecks] at hwraps
      have hstop := h.vertical_stop htext hwraps
      unfold indexedMotion at hsame
      rw [resolveMotion_down, h.at'.ciOfByte_eq, asIsize_eq hcount, hstop] at hsame
      cases hsame
    · rw [if_neg hchecks] at hwraps
      obtain ⟨front, body', behind, hfirst⟩ :
          ∃ front body' behind, LineAt text 0 front body' behind := ⟨_, _, _, lineAt_zero text⟩
      have hmotion := h.vertical_eq hfirst htext hwraps (by omega)
      have hend := hfirst.at_end.le
      have hend' := hline.at_end.le
      have hresolved : resolveMotion (.new text) (utf8Len (before ++ left)) 'j' count none =
          some (some (.chars (before.length + left.length)
            (front.length + min left.length (body'.length - 1)) false)) := by
        rw [resolveMotion_down, h.at'.ciOfByte_eq, asIsize_eq hcount, hmotion, bind_some]
      rw [h.at'.indexed_forward (by omega) hresolved, some.injEq, some.injEq,
        hfirst.clampCursor_eq (by omega), hline.clampCursor_eq (by omega)] at hsame
      have hindex := congrArg (Buffer.new text).lineIndex
        (offset_inj (by omega) (by omega) hsame)
      rw [hfirst.lineIndex_column (by omega), hline.lineIndex_column (by omega)] at hindex
      omega

end Paths

/-- The borrowed motion agrees with the resolved one, except for `j` with a count that does not fit
in a signed word together with the line it starts from. -/
theorem borrowed_motion_is_resolved_motion [Unicode] [Build] {text : Text} {caret : Nat}
    (hcaret : isCharBoundary text caret = true) (htext : text.length < 2 ^ 60) (key : Char)
    (count : Option Nat) :
    (∃ moved, borrowedMotion text caret key count = some moved ∧
      ∀ target, moved = some target → indexedMotion text caret key count = some (some target)) ↔
    (key = 'j' → count.getD 1 < 2 ^ 63 →
      (Buffer.new text).lineIndex ((Buffer.new text).ciOfByte caret) + count.getD 1 < 2 ^ 63) := by
  obtain ⟨front, back, rfl, rfl⟩ := isCharBoundary_iff.mp hcaret
  have hat : At (front ++ back) front.length (utf8Len front) := by
    refine ⟨by simp, (offset_append front back).symm⟩
  rw [hat.ciOfByte_eq]
  by_cases hcount : count.getD 1 < 2 ^ 63
  · by_cases hkey : key ∈ ['h', 'l', '0', '^', '$', 'j', 'k', 'G', 'w', 'W', 'b', 'B', 'e', 'E']
    · constructor
      · rintro ⟨moved, hborrowed, hindexed⟩ rfl -
        by_contra hover
        obtain ⟨before, left, right, after, hi, hlen, hline⟩ := hat.exists_line
        obtain ⟨target, htarget, hne⟩ := hline.disagree_down htext hcount (Nat.le_of_not_lt hover)
        rw [← hlen] at htarget hne
        exact hne (hindexed target (some.inj (hborrowed.symm.trans htarget)))
      · intro hdown
        obtain ⟨moved, hborrowed, hindexed⟩ :=
          (hat.agree htext hcount hkey fun hj => hdown hj hcount).borrowed hcount
        refine ⟨some moved, hborrowed, ?_⟩
        rintro target ⟨rfl⟩
        exact hindexed
    · have hnone : borrowedMotion (front ++ back) (utf8Len front) key count = some none := by
        unfold borrowedMotion
        rw [if_neg (by omega), borrowedTarget_other hkey]
        rfl
      refine iff_of_true ⟨none, hnone, nofun⟩ ?_
      rintro rfl
      exact absurd (by decide) hkey
  · have hnone : borrowedMotion (front ++ back) (utf8Len front) key count = some none := by
      unfold borrowedMotion
      rw [if_pos (by omega)]
      rfl
    exact iff_of_true ⟨none, hnone, nofun⟩ fun _ h => absurd h hcount

/-- On the last of two lines, `j` with the largest signed count stays where it is on the borrowed
text; through the buffer view the sum comes back from below, and the caret goes to the first line. -/
theorem borrowed_motion_leaves_resolved_motion :
    letI := Unicode.ascii
    letI := Build.release
    isCharBoundary ['a', '\n', 'b'] 2 = true ∧
      borrowedMotion ['a', '\n', 'b'] 2 'j' (some (2 ^ 63 - 1)) = some (some 2) ∧
      indexedMotion ['a', '\n', 'b'] 2 'j' (some (2 ^ 63 - 1)) = some (some 0) := by
  decide +kernel

/-- A count of one goes down on both paths. -/
theorem borrowed_motion_is_resolved_motion_down :
    letI := Unicode.ascii
    letI := Build.release
    ∃ moved, borrowedMotion ['a', '\n', 'b'] 0 'j' none = some moved ∧
      ∀ target, moved = some target → indexedMotion ['a', '\n', 'b'] 0 'j' none = some (some target) := by
  let _ := Unicode.ascii
  let _ := Build.release
  exact (borrowed_motion_is_resolved_motion (by decide) (by decide) 'j' none).mpr (by decide)

end FesTerm.Document.Vi
