import FesTerm.Document.Vi.Proofs.OperatorProofs

/-!
# Linewise proofs

`dd` takes a block of lines out with the line feed behind it, or with the one before it when nothing
is behind it, and `P` and `p` put the register back with a line feed at the other side. `BlockAt`
names the block by what stands before and behind it.
-/

namespace FesTerm.Document.Vi

open Checked Splicing List Option

/-- Some lines of a text. -/
structure BlockAt (text : Text) (first last : Nat) (before block after : Text) : Prop where
  text_eq : text = before ++ (block ++ after)
  count : before.count '\n' = first
  closed : before = [] ∨ ∃ init, before = init ++ ['\n']
  start : (Buffer.new text).nthLineStart first = before.length
  stop : (Buffer.new text).lineEndByLine last = before.length + block.length
  opens : after = [] ∨ ∃ rest, after = '\n' :: rest
  last_iff : last + 1 = (Buffer.new text).lineCount ↔ after = []
  next : ∀ rest, after = '\n' :: rest → ∃ body behind, rest = body ++ behind ∧
    LineAt text (last + 1) (before ++ (block ++ ['\n'])) body behind
  previous : ∀ init, before = init ++ ['\n'] → ∃ front body, init = front ++ body ∧
    LineAt text (first - 1) front body ('\n' :: (block ++ after))
  lines : first + block.count '\n' = last

theorem exists_block {text : Text} {first last : Nat} (hle : first ≤ last)
    (hlast : last < (Buffer.new text).lineCount) :
    ∃ before block after, BlockAt text first last before block after := by
  have hcount : (Buffer.new text).lineCount = text.count '\n' + 1 := rfl
  obtain ⟨before, body, after, hfirst⟩ :=
    exists_lineAt (show first < text.count '\n' + 1 by omega)
  -- the last line is the line of that distance in what follows
  have hrest : (body ++ after).count '\n' = text.count '\n' - first := by
    conv_rhs => rw [hfirst.text_eq, count_append, hfirst.count]
    omega
  obtain ⟨between, body', after', hwithin⟩ :=
    exists_lineAt (show last - first < (body ++ after).count '\n' + 1 by omega)
  have hlastLine : LineAt text last (before ++ between) body' after' := by
    refine ⟨?_, ?_, ?_, hwithin.plain, hwithin.opens⟩
    · rw [hfirst.text_eq, hwithin.text_eq, append_assoc]
    · rw [count_append, hfirst.count, hwithin.count]
      omega
    · rcases hwithin.closed with rfl | ⟨init, rfl⟩
      · rw [append_nil]
        exact hfirst.closed
      · exact .inr ⟨before ++ init, (append_assoc _ _ _).symm⟩
  have htext : text = before ++ (between ++ body' ++ after') := by
    rw [hfirst.text_eq, hwithin.text_eq, append_assoc]
  refine ⟨before, between ++ body', after', htext, hfirst.count, hfirst.closed,
    Buffer.nthLineStart_eq (.new text) hfirst, ?_, hwithin.opens, ?_, ?_, ?_, ?_⟩
  · rw [Buffer.lineEndByLine_eq (.new text) hlastLine]
    simp only [length_append]
    omega
  · rw [hcount, Nat.add_right_cancel_iff]
    exact hlastLine.last_iff
  · rintro rest rfl
    obtain ⟨body, behind, hsplit, hnext⟩ := hlastLine.next
    refine ⟨body, behind, hsplit, ?_⟩
    have hjoined : before ++ between ++ (body' ++ ['\n']) =
        before ++ (between ++ body' ++ ['\n']) := by simp
    rwa [hjoined] at hnext
  · rintro init rfl
    obtain ⟨front, body'', hinit, hprevious⟩ := hfirst.previous
    refine ⟨front, body'', hinit, ?_⟩
    rwa [hwithin.text_eq, ← append_assoc] at hprevious
  · rw [count_append, hwithin.count, List.count_eq_zero.mpr hwithin.plain]
    omega

theorem length_lines (text : Text) : (text.splitOn '\n').length = text.count '\n' + 1 := by
  induction text with
  | nil => rfl
  | cons c rest ih =>
    rw [splitOn_cons_eq_if_modifyHead, count_cons]
    split
    · rw [length_cons, ih]
    · rw [length_modifyHead, ih, Nat.add_zero]

theorem blanks_append (body : Text) : body = body.takeWhile isBlank ++ body.dropWhile isBlank :=
  (takeWhile_append_dropWhile).symm

theorem byte_length {text front back : Text} (hsplit : text = front ++ back) :
    (Buffer.new text).byte front.length = utf8Len front := by
  have hle : front.length ≤ text.length := by
    rw [hsplit, length_append]
    omega
  rw [Buffer.byte_of_le (.new text) hle]
  change offset text _ = _
  rw [hsplit, offset_append]

theorem byte_firstNonBlank {text : Text} {line : Nat} {front body behind : Text}
    (hline : LineAt text line front body behind) :
    (Buffer.new text).byte ((Buffer.new text).firstNonBlank ((Buffer.new text).nthLineStart line)) =
      utf8Len (front ++ body.takeWhile isBlank) := by
  have hsplit : text = (front ++ body.takeWhile isBlank) ++ (body.dropWhile isBlank ++ behind) := by
    conv_lhs => rw [hline.text_eq, blanks_append body]
    simp only [append_assoc]
  rw [Buffer.nthLineStart_eq (.new text) hline, Buffer.firstNonBlank_eq (.new text) hline,
    ← length_append]
  exact byte_length hsplit

theorem spanned_of_lineAt {text before left right after : Text} {line : Nat}
    (h : LineAt text line before (left ++ right) after) :
    Spanned text (utf8Len (before ++ left)) line before left right after := by
  have htext : text = (before ++ left) ++ (right ++ after) := by
    rw [h.text_eq]
    simp only [append_assoc]
  have hle : (before ++ left).length ≤ text.length := by
    conv_rhs => rw [htext, length_append]
    omega
  have hoffset : offset text (before ++ left).length = utf8Len (before ++ left) := by
    conv_lhs => rw [htext]
    exact offset_append _ _
  refine ⟨h, ?_⟩
  rw [← hoffset]
  exact Editing.floorTextBoundary_offset hle

namespace BlockAt

variable {text : Text} {first last : Nat} {before block after : Text}
  (h : BlockAt text first last before block after)

include h

theorem length_eq : before.length + block.length + after.length = text.length := by
  rw [h.text_eq]
  simp only [length_append]
  omega

/-- The block is so many lines of the text, and those before it and behind it are the others. -/
theorem exists_lines : ∃ above below, text.splitOn '\n' = above ++ (block.splitOn '\n' ++ below) ∧
    above.length = first ∧ (above ++ block.splitOn '\n').length = last + 1 ∧
    (before = [] → above = []) ∧ (∀ init, before = init ++ ['\n'] → above = init.splitOn '\n') ∧
    (after = [] → below = []) ∧ ∀ rest, after = '\n' :: rest → below = rest.splitOn '\n' := by
  obtain ⟨below, hbelow, hend, hrest⟩ : ∃ below, (block ++ after).splitOn '\n' = block.splitOn '\n' ++ below ∧
      (after = [] → below = []) ∧ ∀ rest, after = '\n' :: rest → below = rest.splitOn '\n' := by
    rcases h.opens with rfl | ⟨rest, rfl⟩
    · exact ⟨[], by rw [append_nil, append_nil], fun _ => rfl, by rintro _ ⟨⟩⟩
    · refine ⟨_, splitOn_append_cons_self _ _, (by rintro ⟨⟩), ?_⟩
      rintro _ ⟨⟩
      rfl
  have hlast := h.lines
  have hfirst := h.count
  rcases h.closed with rfl | ⟨init, rfl⟩
  · refine ⟨[], below, ?_, hfirst, ?_, fun _ => rfl, ?_, hend, hrest⟩
    · rw [h.text_eq]
      exact hbelow
    · rw [nil_append, length_lines, ← hlast, ← hfirst, count_nil, Nat.zero_add]
    · intro init hinit
      cases init <;> cases hinit
  · rw [count_append, count_singleton_self] at hfirst
    refine ⟨init.splitOn '\n', below, ?_, ?_, ?_, ?_, ?_, hend, hrest⟩
    · rw [h.text_eq, append_assoc, singleton_append, splitOn_append_cons_self, hbelow]
    · rw [length_lines, hfirst]
    · rw [length_append, length_lines, length_lines]
      omega
    · exact fun hempty => absurd hempty (append_ne_nil_of_right_ne_nil _ (cons_ne_nil _ _))
    · intro other hother
      rw [append_cancel_right hother]

/-- The lines of the block, and what is left without them. -/
theorem lines_eq {kept : Text} (hkept : (before = [] ∧ after = [] ∧ kept = []) ∨
      (after = [] ∧ before = kept ++ ['\n']) ∨ ∃ rest, after = '\n' :: rest ∧ kept = before ++ rest) :
    kept = ['\n'].intercalate ((text.splitOn '\n').take first ++ (text.splitOn '\n').drop (last + 1)) ∧
      block = ['\n'].intercalate (((text.splitOn '\n').take (last + 1)).drop first) := by
  obtain ⟨above, below, hlines, hfirst, hlast, hnone, habove, hend, hbelow⟩ := h.exists_lines
  have htake : (text.splitOn '\n').take first = above := by rw [hlines, take_left' hfirst]
  rw [htake, hlines, ← append_assoc, drop_left' hlast, take_left' hlast,
    drop_left' hfirst, intercalate_splitOn]
  refine ⟨?_, rfl⟩
  rcases hkept with ⟨hbefore, hafter, rfl⟩ | ⟨hafter, hbefore⟩ | ⟨rest, hafter, rfl⟩
  · rw [hnone hbefore, hend hafter]
    rfl
  · rw [habove _ hbefore, hend hafter, append_nil, intercalate_splitOn]
  · rw [hbelow rest hafter]
    rcases h.closed with rfl | ⟨init, rfl⟩
    · rw [hnone rfl, nil_append, nil_append, intercalate_splitOn]
    · rw [habove init rfl, ← splitOn_append_cons_self, intercalate_splitOn,
        append_assoc, singleton_append]

theorem registerText : (Buffer.new text).linewiseRegisterText first last = some (block ++ ['\n']) := by
  have hslice := Buffer.slice_append (.new text) h.text_eq
  simp only [Buffer.linewiseRegisterText, h.start, h.stop, hslice, bind_eq_bind, bind_some]
  rfl

/-- The deletion of a block that a line follows. -/
theorem delete_above {rest : Text} (hafter : after = '\n' :: rest) {a b : Nat}
    (hordered : ordered a b = (first, last)) :
    ∃ body behind, LineAt (before ++ rest) first before body behind ∧
      ∀ engine : ViEngine, engine.applyLinewise (.new text) .delete a b =
        some (engine.setRegister (block ++ ['\n']) true, ViEngine.removal (utf8Len before) (block ++ ['\n']),
          utf8Len (before ++ body.takeWhile isBlank)) := by
  obtain ⟨body, behind, hrest, hnext⟩ := h.next rest hafter
  have htext : text = before ++ ((block ++ ['\n']) ++ rest) := by
    rw [h.text_eq, hafter]
    simp
  have hlen := h.length_eq
  rw [hafter, length_cons] at hlen
  have hstart : (Buffer.new text).byte before.length = utf8Len before := byte_length htext
  have hstop : (Buffer.new text).byte (before.length + block.length + 1) =
      utf8Len before + utf8Len (block ++ ['\n']) := by
    have hbyte := byte_length (show text = (before ++ (block ++ ['\n'])) ++ rest by
      rw [htext]
      simp only [append_assoc])
    rw [utf8Len_append] at hbyte
    rw [← hbyte]
    simp [Nat.add_assoc]
  have hrange : (Buffer.new text).linewiseDeleteRange first last =
      (before.length, before.length + block.length + 1) := by
    simp only [Buffer.linewiseDeleteRange, h.start, h.stop]
    rw [if_pos]
    change _ < text.length
    omega
  have hslice : (Buffer.new text).slice before.length (before.length + block.length + 1) =
      some (block ++ ['\n']) := by
    have := Buffer.slice_append (.new text) htext
    rwa [length_append, length_singleton, ← Nat.add_assoc] at this
  have hnumber : last + 1 < (Buffer.new text).lineCount := Nat.lt_succ_of_le hnext.number_le
  have hcaret : ViEngine.caretAfterLines (.new text) first last (utf8Len (block ++ ['\n'])) =
      some (utf8Len (before ++ body.takeWhile isBlank)) := by
    rw [ViEngine.caretAfterLines, if_pos hnumber, byte_firstNonBlank hnext]
    simp only [utf8Len_append]
    rw [sub_eq (by omega)]
    congr 1
    omega
  refine ⟨body, behind, ?_, ?_⟩
  · exact ⟨by rw [hrest], h.count, h.closed, hnext.plain, hnext.opens⟩
  · intro engine
    simp only [ViEngine.applyLinewise, hordered, h.registerText, hrange, hslice, hstop, hstart,
      sub_eq (Nat.le_add_right _ _), Nat.add_sub_cancel_left, hcaret, bind_eq_bind,
      bind_some]
    rfl

/-- The deletion of a block at the end of the text, with a line before it. -/
theorem delete_below {init : Text} (hafter : after = []) (hbefore : before = init ++ ['\n'])
    {a b : Nat} (hordered : ordered a b = (first, last)) :
    ∃ front body, LineAt init (first - 1) front body [] ∧
      ∀ engine : ViEngine, engine.applyLinewise (.new text) .delete a b =
        some (engine.setRegister (block ++ ['\n']) true, ViEngine.removal (utf8Len init) ('\n' :: block),
          utf8Len (front ++ body.takeWhile isBlank)) := by
  obtain ⟨front, body, hinit, hprevious⟩ := h.previous init hbefore
  have htext : text = init ++ (('\n' :: block) ++ []) := by
    rw [h.text_eq, hafter, hbefore]
    simp
  have hlen := h.length_eq
  rw [hafter, hbefore, length_append, length_singleton] at hlen
  have hpos : 0 < first := by
    rw [← h.count, hbefore, count_append, count_singleton_self]
    omega
  have hstart : (Buffer.new text).byte init.length = utf8Len init := byte_length htext
  have hend : (Buffer.new text).byte (init.length + ('\n' :: block).length) =
      utf8Len init + utf8Len ('\n' :: block) := by
    have hbyte := byte_length (show text = (init ++ ('\n' :: block)) ++ [] by
      rw [htext, append_assoc])
    rwa [utf8Len_append, length_append] at hbyte
  have hrange : (Buffer.new text).linewiseDeleteRange first last =
      (init.length, init.length + ('\n' :: block).length) := by
    simp only [Buffer.linewiseDeleteRange, h.start, h.stop, hbefore, length_append,
      length_cons, length_nil]
    rw [if_neg (by change ¬ _ < text.length; simp only [length_nil] at hlen; omega), if_pos (by omega)]
    simp only [Prod.mk.injEq]
    omega
  have hslice := Buffer.slice_append (.new text) htext
  have hnumber : ¬ last + 1 < (Buffer.new text).lineCount := by
    have := h.last_iff.mpr hafter
    omega
  have hcaret : ViEngine.caretAfterLines (.new text) first last (utf8Len ('\n' :: block)) =
      some (utf8Len (front ++ body.takeWhile isBlank)) := by
    rw [ViEngine.caretAfterLines, if_neg hnumber, if_pos hpos, byte_firstNonBlank hprevious]
  refine ⟨front, body, ?_, ?_⟩
  · refine ⟨by rw [hinit, append_nil], hprevious.count, hprevious.closed, hprevious.plain, .inl rfl⟩
  · intro engine
    simp only [ViEngine.applyLinewise, hordered, h.registerText, hrange, hslice, hend, hstart,
      sub_eq (Nat.le_add_right _ _), Nat.add_sub_cancel_left, hcaret, bind_eq_bind,
      bind_some]
    rfl

theorem delete_all (hafter : after = []) (hbefore : before = []) (engine : ViEngine) {a b : Nat}
    (hordered : ordered a b = (first, last)) :
    engine.applyLinewise (.new text) .delete a b =
      some (engine.setRegister (block ++ ['\n']) true, ViEngine.removal 0 block, 0) := by
  have htext : text = [] ++ (block ++ []) := by
    rw [h.text_eq, hafter, hbefore]
  have hlen := h.length_eq
  rw [hafter, hbefore] at hlen
  have hfirst : first = 0 := by
    rw [← h.count, hbefore]
    rfl
  have hrange : (Buffer.new text).linewiseDeleteRange first last = (0, 0 + block.length) := by
    simp only [Buffer.linewiseDeleteRange, h.start, h.stop, hbefore, length_nil]
    rw [if_neg (by change ¬ _ < text.length; simp only [length_nil] at hlen; omega), if_neg (by omega)]
  have hslice : (Buffer.new text).slice 0 (0 + block.length) = some block :=
    Buffer.slice_append (.new text) htext
  have hstart : (Buffer.new text).byte 0 = 0 := byte_length (show text = [] ++ text from rfl)
  have hnumber : ¬ last + 1 < (Buffer.new text).lineCount := by
    have := h.last_iff.mpr hafter
    omega
  have hcaret : ∀ n, ViEngine.caretAfterLines (.new text) first last n = some 0 := by
    intro n
    rw [ViEngine.caretAfterLines, if_neg hnumber, if_neg (by omega)]
  simp only [ViEngine.applyLinewise, hordered, h.registerText, hrange, hslice, hstart,
    sub_eq (Nat.zero_le _), hcaret, some_bind]
  rfl

end BlockAt

/-! ## Putting back -/

namespace Spanned

variable {text : Text} {caret line : Nat} {before left right after : Text}
  (h : Spanned text caret line before left right after)

include h

theorem pasteLines_above (engine : ViEngine) :
    engine.pasteLines (.new text) (utf8Len (before ++ left)) false =
      (engine, .edit [insertAt (utf8Len before) engine.register.text],
        utf8Len before + leadingBlankBytes engine.register.text) := by
  have hstart := Buffer.nthLineStart_eq (.new text) h.at'
  have hindex := Buffer.lineIndex_eq (.new text) h.at' rfl
  simp only [ViEngine.pasteLines, h.position, hindex, hstart, byte_length h.at'.text_eq,
    Bool.false_eq_true, if_false]

theorem pasteLines_below (hafter : after = []) (engine : ViEngine) {block : Text}
    (hregister : engine.register.text = block ++ ['\n']) :
    engine.pasteLines (.new text) (utf8Len (before ++ left)) true =
      (engine, .edit [insertAt (utf8Len text) ('\n' :: block)], utf8Len text + 1) := by
  have hindex := Buffer.lineIndex_eq (.new text) h.at' rfl
  have hlen := h.length_le
  rw [hafter, length_nil] at hlen
  have hend : (Buffer.new text).lineEndByLine line = text.length := by
    rw [Buffer.lineEndByLine_eq (.new text) h.at', length_append]
    omega
  have hbyte : (Buffer.new text).byte text.length = utf8Len text :=
    byte_length (append_nil text).symm
  simp only [ViEngine.pasteLines, h.position, hindex, hend, hregister, if_true,
    getLast?_concat, dropLast_concat]
  rw [if_neg (by change ¬ text.length < text.length; omega), hbyte]

end Spanned

namespace Editing

variable [Unicode] [Build] {editing : Editing}

omit [Unicode] [Build] in
theorem paste_linewise (engine : ViEngine) (buf : Buffer) (caret : Nat) (below : Bool) {text : Text}
    (hregister : engine.register = ⟨text, true⟩) (htext : text ≠ []) :
    engine.paste buf caret below = some (engine.pasteLines buf caret below) := by
  have hempty : engine.register.text.isEmpty = false := by
    rw [hregister]
    exact isEmpty_eq_false_iff.mpr htext
  have hlinewise : engine.register.linewise = true := by rw [hregister]
  simp only [ViEngine.paste, hempty, hlinewise, Bool.false_eq_true, if_false, if_true]
  rfl

theorem type_put (hready : Ready editing.engine) {boundary new : Nat} {action : ViAction}
    {text after : Text} (hregister : editing.engine.register = ⟨text, true⟩) (htext : text ≠ [])
    (hcaret : ViEngine.floorTextBoundary editing.text editing.caret = boundary) (below : Bool)
    (hpaste : ∀ engine : ViEngine, engine.register = ⟨text, true⟩ →
      engine.pasteLines (.new editing.text) boundary below = (engine, action, new))
    (hafter : applied editing.text action = some after) :
    ∃ editing', editing.type [if below then 'p' else 'P'] = some editing' ∧
      editing'.text = after := by
  have hkey : (if below then 'p' else 'P') ≠ '.' ∧ (if below then 'p' else 'P') ≠ 'u' ∧
      (if below then 'p' else 'P').isDigit = false := by cases below <;> decide
  have hcommand : ∀ engine, SameCommand editing.engine engine →
      ∃ next, ({ engine with count := none } : ViEngine).normalCommand (.new editing.text)
          (if below then 'p' else 'P') engine.count boundary = some (next, action, new) ∧
        SameCommand editing.engine next := by
    intro engine hengine
    have hregister' := hengine.register.trans hregister
    refine ⟨{ engine with count := none }, ?_, ⟨hengine.mode, hengine.stage, hready.count.symm,
      hengine.operatorCount, hengine.register, hengine.visualAnchor, hengine.replaying⟩⟩
    have hput : ({ engine with count := none } : ViEngine).paste (.new editing.text) boundary below =
        some ({ engine with count := none }, action, new) := by
      rw [paste_linewise { engine with count := none } _ _ _ hregister' htext]
      exact congrArg some (hpaste { engine with count := none } hregister')
    cases below <;> exact hput
  obtain ⟨editing', hpress, hafter', -, -⟩ := press_command hready.mode hready.stage hcaret hkey.1
    hkey.2.1 hkey.2.2 (by intro count; cases below <;> rfl) hcommand hafter
  refine ⟨editing', ?_, hafter'⟩
  simp only [type, foldlM_cons, foldlM_nil, hpress, some_bind]
  rfl

end Editing

/-! ## Doubled operators -/

section Doubled

variable [Build]

def doubledLast (line count lineCount : Nat) : Option Nat := do
  return min (← usizeSub (← usize (line + count)) 1) (lineCount - 1)

/-- In a build without overflow checks the addition and the subtraction wrap around. -/
theorem doubledLast_eq {line count : Nat} (lineCount : Nat)
    (hwithin : Build.overflowChecks = true → 0 < line + count ∧ line + count < 2 ^ 64) :
    doubledLast line count lineCount =
      some (min ((line + count + (2 ^ 64 - 1)) % 2 ^ 64) (lineCount - 1)) := by
  have hsum : usize (line + count) = some ((line + count) % 2 ^ 64) := by
    unfold usize
    split
    next hfits => rw [Nat.mod_eq_of_lt hfits]
    next hwide => rw [if_neg fun hchecks => hwide (hwithin hchecks).2]
  have hless : usizeSub ((line + count) % 2 ^ 64) 1 = some ((line + count + (2 ^ 64 - 1)) % 2 ^ 64) := by
    unfold usizeSub
    split
    · exact congrArg some (by omega)
    next hzero =>
      rw [if_neg fun hchecks => hzero (by have := hwithin hchecks; omega)]
      exact congrArg some (by omega)
  rw [doubledLast, hsum, some_bind, hless, some_bind]
  rfl

theorem doubledLast_stop {line count : Nat} (lineCount : Nat) (hchecks : Build.overflowChecks = true)
    (hout : ¬ (0 < line + count ∧ line + count < 2 ^ 64)) : doubledLast line count lineCount = none := by
  unfold doubledLast usize
  rw [if_pos hchecks]
  split
  next hfits =>
    have hzero : ¬ 1 ≤ line + count := fun hpos => hout ⟨hpos, hfits⟩
    rw [some_bind, usizeSub, if_neg hzero, if_pos hchecks]
    rfl
  · rfl

theorem effectiveCount_before {count : Option Nat} (hcount : ∀ n, count = some n → n < 2 ^ 64) :
    ViEngine.effectiveCount count none = some count := by
  cases count with
  | none => rfl
  | some n =>
    simp only [ViEngine.effectiveCount, getD_some, getD_none, Nat.mul_one,
      usize_eq (hcount n rfl), some_bind]
    rfl

theorem operatorKey_doubled [Unicode] {engine : ViEngine} (op : Operator) {buf : Buffer}
    {caret line : Nat} (hcount : engine.count = none)
    (hfits : ∀ n, engine.operatorCount = some n → n < 2 ^ 64)
    (hline : buf.lineIndex (buf.ciOfByte caret) = line) :
    engine.operatorKey buf op (ViEngine.doublingKey op) caret =
      (doubledLast line (engine.operatorCount.getD 1) buf.lineCount).bind fun last =>
        ({ engine with operatorCount := none, count := none, stage := .ready } :
          ViEngine).applyLinewise buf op line last := by
  unfold ViEngine.operatorKey
  rw [hcount, effectiveCount_before hfits]
  simp only [bind_eq_bind, bind_some, if_true, hline, doubledLast, bind_assoc,
    Option.pure_def]

end Doubled

namespace Editing

variable [Unicode] [Build] {editing : Editing} {line : Nat} {before left right after : Text}

theorem press_delete (hmode : editing.engine.mode = .normal) (hstage : editing.engine.stage = .ready)
    (h : Spanned editing.text editing.caret line before left right after) :
    ∃ pending, editing.press (.char 'd') = some pending ∧ pending.text = editing.text ∧
      ViEngine.floorTextBoundary pending.text pending.caret = utf8Len (before ++ left) ∧
      SameCommand { editing.engine with
        count := none, operatorCount := editing.engine.count, stage := .afterOperator .delete }
        pending.engine := by
  obtain ⟨pending, hpress, htext, hcaret, hsame⟩ := press_operator .delete hmode hstage
  refine ⟨pending, hpress, htext, ?_, hsame⟩
  obtain ⟨i, hi, hposition⟩ := editing.exists_position
  rw [htext, hcaret, hposition, floorTextBoundary_offset hi, ← hposition, h.caret]

/-- The second `d` takes the lines that the count of the first one names. -/
theorem operatorKey_pending {pending engine : ViEngine}
    (hfits : ∀ n, editing.engine.count = some n → n < 2 ^ 64)
    (h : Spanned editing.text editing.caret line before left right after)
    (hpending : SameCommand { editing.engine with
      count := none, operatorCount := editing.engine.count, stage := .afterOperator .delete } pending)
    (hengine : SameCommand pending engine) :
    engine.operatorKey (.new editing.text) .delete 'd' (utf8Len (before ++ left)) =
      (doubledLast line (editing.engine.count.getD 1) (Buffer.new editing.text).lineCount).bind
        (({ engine with operatorCount := none, count := none, stage := .ready } :
          ViEngine).applyLinewise (.new editing.text) .delete line) := by
  have hoperatorCount := hengine.operatorCount.trans hpending.operatorCount
  change engine.operatorCount = editing.engine.count at hoperatorCount
  have hline := Buffer.lineIndex_eq (.new editing.text) h.at' rfl
  have hdoubled := operatorKey_doubled .delete (hengine.count.trans hpending.count)
    (fun n hn => hfits n (hoperatorCount ▸ hn)) (h.position ▸ hline)
  rwa [hoperatorCount] at hdoubled

/-- `dd`, when the last line it names is known. -/
theorem type_doubled (hmode : editing.engine.mode = .normal) (hstage : editing.engine.stage = .ready)
    (hfits : ∀ n, editing.engine.count = some n → n < 2 ^ 64)
    (h : Spanned editing.text editing.caret line before left right after) {last new : Nat}
    {action : ViAction} {register text : Text}
    (hlast : doubledLast line (editing.engine.count.getD 1) (Buffer.new editing.text).lineCount =
      some last)
    (happly : ∀ engine : ViEngine, engine.applyLinewise (.new editing.text) .delete line last =
      some (engine.setRegister register true, action, new))
    (hafter : applied editing.text action = some text) :
    ∃ deleted, editing.type ['d', 'd'] = some deleted ∧ deleted.text = text ∧
      deleted.caret = new ∧ Ready deleted.engine ∧
      deleted.engine.register = ⟨register, true⟩ := by
  obtain ⟨pending, hfirst, htext, hcaret, hpending⟩ := press_delete hmode hstage h
  have hkey : ∀ engine, SameCommand pending.engine engine →
      ∃ next, engine.operatorKey (.new pending.text) .delete 'd' (utf8Len (before ++ left)) =
          some (next, action, new) ∧
        SameCommand (({ editing.engine with
          count := none, operatorCount := none, stage := .ready } : ViEngine).setRegister register
            true) next := by
    intro engine hengine
    refine ⟨({ engine with operatorCount := none, count := none, stage := .ready } :
      ViEngine).setRegister register true, ?_, ?_⟩
    · rw [htext, operatorKey_pending hfits h hpending hengine, hlast]
      exact happly _
    · exact ⟨hengine.mode.trans hpending.mode, rfl, rfl, rfl, rfl,
        hengine.visualAnchor.trans hpending.visualAnchor, hengine.replaying.trans hpending.replaying⟩
  obtain ⟨deleted, hsecond, hdeleted, hnew, hsame⟩ := press_operatorKey
    (hpending.mode.trans hmode) hpending.stage hcaret (show 'd' ≠ '.' by decide) (by decide)
    (by decide) hkey (htext ▸ hafter)
  refine ⟨deleted, ?_, hdeleted, hnew, ⟨hsame.mode.trans hmode, hsame.stage, hsame.count,
    hsame.operatorCount⟩, hsame.register⟩
  simp only [type, foldlM_cons, foldlM_nil, hfirst, hsecond, bind_eq_bind, bind_some]
  rfl

theorem type_doubled_stop (hmode : editing.engine.mode = .normal) (hstage : editing.engine.stage = .ready)
    (hfits : ∀ n, editing.engine.count = some n → n < 2 ^ 64)
    (h : Spanned editing.text editing.caret line before left right after)
    (hlast : doubledLast line (editing.engine.count.getD 1) (Buffer.new editing.text).lineCount =
      none) : editing.type ['d', 'd'] = none := by
  obtain ⟨pending, hfirst, htext, hcaret, hpending⟩ := press_delete hmode hstage h
  have hsecond : pending.press (.char 'd') = none := by
    refine press_operatorKey_stop (hpending.mode.trans hmode) hpending.stage (by decide) (by decide)
      (by decide) ?_
    intro engine hengine
    rw [hcaret, htext, operatorKey_pending hfits h hpending hengine, hlast]
    rfl
  simp only [type, foldlM_cons, hfirst, hsecond, bind_eq_bind, bind_some, bind_none]

theorem put_above {deleted : Editing} (hready : Ready deleted.engine) {block rest body behind : Text}
    {first : Nat} (hregister : deleted.engine.register = ⟨block ++ ['\n'], true⟩)
    (htext : deleted.text = before ++ rest)
    (hline : LineAt (before ++ rest) first before body behind)
    (hcaret : deleted.caret = utf8Len (before ++ body.takeWhile isBlank)) :
    ∃ restored, deleted.type ['P'] = some restored ∧
      restored.text = before ++ ((block ++ ['\n']) ++ rest) := by
  rw [blanks_append body] at hline
  have hspanned := spanned_of_lineAt hline
  rw [← htext, ← hcaret] at hspanned
  have hputs : ∀ engine : ViEngine, engine.register = ⟨block ++ ['\n'], true⟩ →
      engine.pasteLines (.new deleted.text) (utf8Len (before ++ body.takeWhile isBlank)) false =
        (engine, .edit [insertAt (utf8Len before) (block ++ ['\n'])],
          utf8Len before + leadingBlankBytes (block ++ ['\n'])) := by
    intro engine hengine
    rw [hspanned.pasteLines_above engine, hengine]
  exact type_put hready hregister (by simp) hspanned.caret false hputs
    (htext ▸ applied_insertion before (block ++ ['\n']) rest)

theorem put_below {deleted : Editing} (hready : Ready deleted.engine) {block front body : Text}
    {line : Nat} (hregister : deleted.engine.register = ⟨block ++ ['\n'], true⟩)
    (hline : LineAt deleted.text line front body [])
    (hcaret : deleted.caret = utf8Len (front ++ body.takeWhile isBlank)) :
    ∃ restored, deleted.type ['p'] = some restored ∧
      restored.text = deleted.text ++ ('\n' :: block) := by
  rw [blanks_append body] at hline
  have hspanned := spanned_of_lineAt hline
  rw [← hcaret] at hspanned
  have happlied := applied_insertion deleted.text ('\n' :: block) []
  rw [append_nil, append_nil] at happlied
  have hputs : ∀ engine : ViEngine, engine.register = ⟨block ++ ['\n'], true⟩ →
      engine.pasteLines (.new deleted.text) (utf8Len (front ++ body.takeWhile isBlank)) true =
        (engine, .edit [insertAt (utf8Len deleted.text) ('\n' :: block)],
          utf8Len deleted.text + 1) := by
    intro engine hengine
    exact hspanned.pasteLines_below rfl engine (by rw [hengine])
  exact type_put hready hregister (by simp) hspanned.caret true hputs happlied

end Editing

/-- `dd` took the lines from `first` to `last` out of the text and into the register. Where any line is left,
`P` puts them back above the line that followed them, and `p` below the line before them. -/
structure RestoresLines [Unicode] [Build] (editing deleted : Editing) (first last : Nat) : Prop where
  text : deleted.text = ['\n'].intercalate
    ((editing.text.splitOn '\n').take first ++ (editing.text.splitOn '\n').drop (last + 1))
  register : deleted.engine.register =
    ⟨['\n'].intercalate (((editing.text.splitOn '\n').take (last + 1)).drop first) ++ ['\n'], true⟩
  above : last + 1 < (editing.text.splitOn '\n').length →
    ∃ restored, deleted.type ['P'] = some restored ∧ restored.text = editing.text
  below : last + 1 = (editing.text.splitOn '\n').length → 0 < first →
    ∃ restored, deleted.type ['p'] = some restored ∧ restored.text = editing.text

/-- A block that `dd` deletes is put back. -/
theorem BlockAt.restores [Unicode] [Build] {editing : Editing} (hmode : editing.engine.mode = .normal)
    (hstage : editing.engine.stage = .ready) (hcount : ∀ n, editing.engine.count = some n → n < 2 ^ 64)
    {line named first last : Nat} {front left right behind before block after : Text}
    (hspanned : Spanned editing.text editing.caret line front left right behind)
    (hnamed : doubledLast line (editing.engine.count.getD 1) (Buffer.new editing.text).lineCount = some named)
    (hordered : ordered line named = (first, last)) (h : BlockAt editing.text first last before block after) :
    ∃ deleted, editing.type ['d', 'd'] = some deleted ∧ RestoresLines editing deleted first last := by
  have hlines := length_lines editing.text
  have hlast : last + 1 = (Buffer.new editing.text).lineCount ↔ after = [] := h.last_iff
  change last + 1 = editing.text.count '\n' + 1 ↔ _ at hlast
  rw [← hlines] at hlast
  rcases h.opens with hafter | ⟨rest, hafter⟩
  · have hend := hlast.mpr hafter
    rcases h.closed with hbefore | ⟨init, hbefore⟩
    · -- the whole text is deleted
      have happlied : Editing.applied editing.text (ViEngine.removal 0 block) = some [] := by
        have htext : editing.text = [] ++ (block ++ []) := by
          rw [h.text_eq, hafter, hbefore]
        rw [htext]
        exact Editing.applied_removal [] block []
      obtain ⟨deleted, htype, htext, -, -, hregister⟩ := Editing.type_doubled hmode hstage hcount hspanned hnamed
        (fun engine => h.delete_all hafter hbefore engine hordered) happlied
      obtain ⟨hkept, hblock⟩ := h.lines_eq (.inl ⟨hbefore, hafter, htext⟩)
      refine ⟨deleted, htype, hkept, by rw [hregister, ← hblock], fun hmore => absurd hend hmore.ne, ?_⟩
      intro _ hpos
      rw [← h.count, hbefore] at hpos
      exact absurd hpos (Nat.lt_irrefl _)
    · obtain ⟨front', body, hat, happly⟩ := h.delete_below hafter hbefore hordered
      have happlied : Editing.applied editing.text
          (ViEngine.removal (utf8Len init) ('\n' :: block)) = some init := by
        have hremoved := Editing.applied_removal init ('\n' :: block) []
        rwa [append_nil, append_nil, ← show editing.text = init ++ '\n' :: block by
          rw [h.text_eq, hafter, hbefore]; simp] at hremoved
      obtain ⟨deleted, htype, htext, hcaret, hready, hregister⟩ :=
        Editing.type_doubled hmode hstage hcount hspanned hnamed happly happlied
      obtain ⟨hkept, hblock⟩ := h.lines_eq (.inr (.inl ⟨hafter, htext ▸ hbefore⟩))
      refine ⟨deleted, htype, hkept, by rw [hregister, ← hblock], fun hmore => absurd hend hmore.ne, ?_⟩
      intro _ _
      obtain ⟨restored, hput, hrestored⟩ := Editing.put_below hready hregister (htext ▸ hat) hcaret
      refine ⟨restored, hput, ?_⟩
      rw [hrestored, htext, h.text_eq, hafter, hbefore]
      simp
  · obtain ⟨body, behind', hat, happly⟩ := h.delete_above hafter hordered
    have hsplit : editing.text = before ++ ((block ++ ['\n']) ++ rest) := by
      rw [h.text_eq, hafter]
      simp
    have happlied : Editing.applied editing.text
        (ViEngine.removal (utf8Len before) (block ++ ['\n'])) = some (before ++ rest) := by
      rw [hsplit]
      exact Editing.applied_removal before (block ++ ['\n']) rest
    obtain ⟨deleted, htype, htext, hcaret, hready, hregister⟩ :=
      Editing.type_doubled hmode hstage hcount hspanned hnamed happly happlied
    obtain ⟨hkept, hblock⟩ := h.lines_eq (.inr (.inr ⟨rest, hafter, htext⟩))
    refine ⟨deleted, htype, hkept, by rw [hregister, ← hblock], fun _ => ?_, ?_⟩
    · obtain ⟨restored, hput, hrestored⟩ := Editing.put_above hready hregister htext hat hcaret
      exact ⟨restored, hput, hrestored.trans hsplit.symm⟩
    · intro hend _
      have hempty := hlast.mp hend
      rw [hafter] at hempty
      cases hempty

/-- `{count}dd` takes out the lines between that of the caret and the one that the count names, and `P` or `p`
puts them back, unless a build with overflow checks stops at a count out of the machine word. -/
theorem linewise_delete_then_put_restores [Unicode] [Build] (editing : Editing)
    (hmode : editing.engine.mode = .normal) (hstage : editing.engine.stage = .ready)
    (hcount : ∀ n, editing.engine.count = some n → n < 2 ^ 64) :
    let buf := Buffer.new editing.text
    let line := buf.lineIndex
      (buf.ciOfByte (ViEngine.floorTextBoundary editing.text editing.caret))
    let count := editing.engine.count.getD 1
    let named := min ((line + count + (2 ^ 64 - 1)) % 2 ^ 64) ((editing.text.splitOn '\n').length - 1)
    let within := Build.overflowChecks = true → 0 < line + count ∧ line + count < 2 ^ 64
    ((∃ deleted, editing.type ['d', 'd'] = some deleted ∧
        RestoresLines editing deleted (min line named) (max line named)) ↔ within) ∧
      (¬ within → editing.type ['d', 'd'] = none) := by
  obtain ⟨line, before, left, right, after, h⟩ := exists_spanned editing.text editing.caret
  have hline : (Buffer.new editing.text).lineIndex ((Buffer.new editing.text).ciOfByte
      (ViEngine.floorTextBoundary editing.text editing.caret)) = line := by
    rw [h.caret, h.position]
    exact Buffer.lineIndex_eq (.new editing.text) h.at' rfl
  have hnumber : line < (Buffer.new editing.text).lineCount := Nat.lt_succ_of_le h.at'.number_le
  have hlines : (editing.text.splitOn '\n').length = (Buffer.new editing.text).lineCount := length_lines _
  simp only [hline, hlines]
  -- Outside the word the program stops.
  have hstop : ¬ (Build.overflowChecks = true → 0 < line + editing.engine.count.getD 1 ∧
      line + editing.engine.count.getD 1 < 2 ^ 64) → editing.type ['d', 'd'] = none := by
    intro hout
    rw [Classical.not_imp] at hout
    exact Editing.type_doubled_stop hmode hstage hcount h (doubledLast_stop _ hout.1 hout.2)
  refine ⟨⟨fun hrestores => ?_, fun hwithin => ?_⟩, hstop⟩
  · by_contra hout
    obtain ⟨deleted, htype, -⟩ := hrestores
    rw [hstop hout] at htype
    cases htype
  · have hnamed := doubledLast_eq (Buffer.new editing.text).lineCount hwithin
    have hless : min ((line + editing.engine.count.getD 1 + (2 ^ 64 - 1)) % 2 ^ 64)
        ((Buffer.new editing.text).lineCount - 1) < (Buffer.new editing.text).lineCount :=
      (Nat.min_le_right _ _).trans_lt (Nat.sub_one_lt (Nat.ne_zero_of_lt hnumber))
    generalize min ((line + editing.engine.count.getD 1 + (2 ^ 64 - 1)) % 2 ^ 64)
      ((Buffer.new editing.text).lineCount - 1) = named at hnamed hless ⊢
    have hordered : ordered line named = (min line named, max line named) := by
      unfold ordered
      split
      next hle => rw [Nat.min_eq_left hle, Nat.max_eq_right hle]
      next hgt => rw [Nat.min_eq_right (by omega), Nat.max_eq_left (by omega)]
    obtain ⟨front, block, behind, hblock⟩ := exists_block
      (show min line named ≤ max line named by omega) (Nat.max_lt.mpr ⟨hnumber, hless⟩)
    exact hblock.restores hmode hstage hcount h hnamed hordered

/-- Two lines of three are deleted and put back, in a build with overflow checks. -/
theorem linewise_delete_then_put_restores_two_lines :
    letI := Unicode.ascii
    letI : Build := ⟨true⟩
    ∃ deleted restored,
      ({ Editing.opened ['a', '\n', 'b', '\n', 'c'] 0 with
        engine := { ViEngine.new with count := some 2 } } : Editing).type ['d', 'd'] =
          some deleted ∧
      deleted.text = ['c'] ∧ deleted.engine.register = ⟨['a', '\n', 'b', '\n'], true⟩ ∧
      deleted.type ['P'] = some restored ∧ restored.text = ['a', '\n', 'b', '\n', 'c'] := by
  let _ := Unicode.ascii
  let _ : Build := ⟨true⟩
  obtain ⟨deleted, htype, hrestores⟩ := (linewise_delete_then_put_restores
    { Editing.opened ['a', '\n', 'b', '\n', 'c'] 0 with
      engine := { ViEngine.new with count := some 2 } } rfl rfl (by decide)).1.mpr (by decide +kernel)
  obtain ⟨restored, hput, hsame⟩ := hrestores.above (by decide +kernel)
  refine ⟨deleted, restored, htype, hrestores.text.trans ?_, hrestores.register.trans ?_, hput, hsame⟩
  · decide +kernel
  · decide +kernel

/-- The largest count that can be typed, on the second line, stops a build with overflow checks. -/
theorem linewise_delete_stops_at_largest_count :
    letI := Unicode.ascii
    letI : Build := ⟨true⟩
    ∃ counted, (Editing.opened ['a', '\n', 'b'] 2).type (Nat.toDigits 10 (2 ^ 64 - 1)) = some counted ∧
      counted.engine.mode = .normal ∧ counted.engine.stage = .ready ∧
      counted.engine.count = some (2 ^ 64 - 1) ∧
      ¬ ∃ deleted, counted.type ['d', 'd'] = some deleted := by
  let _ := Unicode.ascii
  let _ : Build := ⟨true⟩
  have hruns : ((Editing.opened ['a', '\n', 'b'] 2).type (Nat.toDigits 10 (2 ^ 64 - 1))).any (fun counted =>
      decide (counted.engine.mode = .normal ∧ counted.engine.stage = .ready ∧
        counted.engine.count = some (2 ^ 64 - 1) ∧ (counted.type ['d', 'd']).isNone = true)) = true := by
    decide +kernel
  obtain ⟨counted, htype, hcheck⟩ := (Option.any_eq_true _ _).mp hruns
  obtain ⟨hmode, hstage, hcount, hstop⟩ := of_decide_eq_true hcheck
  refine ⟨counted, htype, hmode, hstage, hcount, ?_⟩
  rintro ⟨deleted, hdeleted⟩
  rw [hdeleted] at hstop
  cases hstop

end FesTerm.Document.Vi
