import FesTerm.Document.Vi.Proofs.ScanProofs

/-!
# Motion proofs

The motions over the borrowed text and the motions over the buffer view. Both walk the lines of one
text; a line is named by what stands before and behind it, and every loop of the borrowed motion is
computed on these pieces.
-/

namespace FesTerm.Document.Vi

open Checked Splicing List Option

/-! ## Bytes of a line -/

theorem lineFeed_mem_utf8Bytes {text : Text} : 0x0a ∈ utf8Bytes text ↔ '\n' ∈ text := by
  rw [utf8Bytes, mem_flatMap]
  constructor
  · rintro ⟨c, hmem, hbyte⟩
    have hc := (ascii_mem_utf8EncodeChar (by decide)).mp hbyte
    obtain rfl : c = '\n' := Char.toNat_inj.mp hc
    exact hmem
  · exact fun hmem => ⟨_, hmem, (ascii_mem_utf8EncodeChar (by decide)).mpr rfl⟩

theorem utf8Bytes_append (front back : Text) :
    utf8Bytes (front ++ back) = utf8Bytes front ++ utf8Bytes back := flatMap_append

theorem findIdx?_lineFeed {plain : Text} (hplain : '\n' ∉ plain) (rest : List UInt8) :
    (utf8Bytes plain ++ rest).findIdx? (· == 0x0a) =
      (rest.findIdx? (· == 0x0a)).map (· + utf8Len plain) := by
  have hnone : (utf8Bytes plain).findIdx? (· == 0x0a) = none := by
    rw [findIdx?_eq_none_iff]
    intro byte hbyte
    rw [beq_eq_false_iff_ne]
    rintro rfl
    exact hplain (lineFeed_mem_utf8Bytes.mp hbyte)
  rw [findIdx?_append, hnone, none_or, length_utf8Bytes]

theorem isBlank_byte {c : Char} {byte : UInt8} (hbyte : byte ∈ String.utf8EncodeChar c) :
    (byte == 0x20 || byte == 0x09) = isBlank c := by
  have hascii : ∀ ascii : UInt8, ascii.toNat < 0x80 → byte = ascii → c.toNat = ascii.toNat := by
    rintro ascii hascii rfl
    exact (ascii_mem_utf8EncodeChar hascii).mp hbyte
  rw [Bool.eq_iff_iff]
  simp only [Bool.or_eq_true, beq_iff_eq, isBlank]
  constructor
  · rintro (hspace | htab)
    · exact .inl (Char.toNat_inj.mp (hascii 0x20 (by decide) hspace))
    · exact .inr (Char.toNat_inj.mp (hascii 0x09 (by decide) htab))
  · rintro (rfl | rfl)
    · exact .inl (mem_singleton.mp hbyte)
    · exact .inr (mem_singleton.mp hbyte)

theorem leadingBlankBytes_eq (text : Text) : leadingBlankBytes text = utf8Len (text.takeWhile isBlank) := by
  unfold leadingBlankBytes
  induction text with
  | nil => rfl
  | cons c rest ih =>
    rw [utf8Bytes, flatMap_cons, takeWhile_cons]
    cases h : isBlank c with
    | true =>
      rw [takeWhile_append_of_pos fun byte hbyte => (isBlank_byte hbyte).trans h, if_pos rfl,
        length_append, utf8Len_cons, String.length_utf8EncodeChar]
      exact congrArg _ ih
    | false =>
      have hne : String.utf8EncodeChar c ≠ [] := by
        rw [← length_pos_iff, String.length_utf8EncodeChar]
        exact Char.utf8Size_pos c
      obtain ⟨byte, tail, henc⟩ := exists_cons_of_ne_nil hne
      have hbyte := isBlank_byte (show byte ∈ String.utf8EncodeChar c by
        rw [henc]
        exact mem_cons_self)
      rw [henc, cons_append, takeWhile_cons, hbyte, h]
      rfl

/-! ## Places in a line -/

variable (moves : Nat)

section Line

variable {text : Text} {line : Nat} {before left right after : Text}

theorem LineAt.at' (h : LineAt text line before (left ++ right) after) :
    At text (before.length + left.length) (utf8Len (before ++ left)) := by
  have htext : text = (before ++ left) ++ (right ++ after) := by
    rw [h.text_eq]
    simp only [append_assoc]
  refine ⟨?_, ?_⟩
  · rw [htext]
    simp only [length_append]
    omega
  · rw [← length_append]
    conv_rhs => rw [htext]
    exact (offset_append _ _).symm

theorem At.exists_line {i caret : Nat} (h : At text i caret) :
    ∃ before left right after, i = before.length + left.length ∧
      caret = utf8Len (before ++ left) ∧
      LineAt text ((Buffer.new text).lineIndex i) before (left ++ right) after := by
  obtain ⟨before, left, right, after, hi, hline⟩ :=
    Buffer.exists_line_of_position (.new text) h.le
  refine ⟨before, left, right, after, hi, ?_, hline⟩
  rw [h.eq, hi]
  exact (LineAt.at' hline).eq.symm

theorem LineAt.lineStartByte_eq (h : LineAt text line before (left ++ right) after) :
    lineStartByte text (utf8Len (before ++ left)) = some (utf8Len before) := by
  have hat := h.at'
  have htake : text.take (before.length + left.length) = before ++ left := by
    rw [h.text_eq, ← length_append, append_assoc left, ← append_assoc before, take_left]
  have hleft : '\n' ∉ left := fun hmem => h.plain (mem_append_left _ hmem)
  unfold lineStartByte
  rw [hat.cutText_eq, htake]
  simp only [some_bind, Option.pure_def, some.injEq,
    utf8Bytes_append, reverse_append, length_utf8Bytes]
  have hnone : (utf8Bytes left).reverse.findIdx? (· == 0x0a) = none := by
    rw [findIdx?_eq_none_iff]
    intro byte hbyte
    rw [beq_eq_false_iff_ne]
    rintro rfl
    exact hleft (lineFeed_mem_utf8Bytes.mp (mem_reverse.mp hbyte))
  rw [findIdx?_append, hnone, none_or, length_reverse, length_utf8Bytes]
  rcases h.closed with rfl | ⟨init, rfl⟩
  · rfl
  · have hlast : utf8Bytes ['\n'] = [0x0a] := by decide
    rw [utf8Bytes_append, hlast, reverse_append]
    simp only [reverse_cons, reverse_nil, nil_append, cons_append,
      findIdx?_cons, beq_self_eq_true, if_true, map_some, getD_some]
    have := utf8Len_append (init ++ ['\n']) left
    omega

theorem LineAt.lineEndByte_eq (h : LineAt text line before (left ++ right) after) :
    lineEndByte text (utf8Len (before ++ left)) = some (utf8Len (before ++ (left ++ right))) := by
  have hdrop : text.drop (before.length + left.length) = right ++ after := by
    rw [h.text_eq, ← length_append, append_assoc left, ← append_assoc before, drop_left]
  have hright : '\n' ∉ right := fun hmem => h.plain (mem_append_right _ hmem)
  unfold lineEndByte
  rw [h.at'.sliceFrom_eq, hdrop]
  simp only [some_bind, Option.pure_def, some.injEq]
  rw [utf8Bytes_append, findIdx?_lineFeed hright]
  rcases h.opens with rfl | ⟨rest, rfl⟩
  · rw [h.text_eq]
    simp only [utf8Bytes, flatMap_nil, findIdx?_nil, map_none, getD_none,
      append_nil]
  · have hfirst : utf8Bytes ('\n' :: rest) = 0x0a :: utf8Bytes rest := rfl
    rw [hfirst]
    simp only [findIdx?_cons, beq_self_eq_true, if_true, map_some, getD_some,
      utf8Len_append]
    omega

theorem LineAt.getElem?_eq (h : LineAt text line before (left ++ right) after) :
    text[before.length + left.length]? = (right ++ after).head? := by
  have htext : text = (before ++ left) ++ (right ++ after) := by
    rw [h.text_eq]
    simp only [append_assoc]
  conv_lhs => rw [htext, ← length_append]
  rw [getElem?_append_right le_rfl, Nat.sub_self, head?_eq_getElem?]

theorem LineAt.textEndsLine_eq (h : LineAt text line before (left ++ right) after) :
    textEndsLine text (utf8Len (before ++ left)) = some right.isEmpty := by
  unfold textEndsLine
  rw [h.at'.textCharacter_eq, h.getElem?_eq]
  cases right with
  | nil =>
    rcases h.opens with rfl | ⟨rest, rfl⟩ <;> rfl
  | cons c right =>
    have hc : c ≠ '\n' := by
      rintro rfl
      exact h.plain (by simp)
    simp [hc]

theorem LineAt.lineFeed_before (h : LineAt text line before (left ++ right) after)
    (hpos : 0 < before.length + left.length) :
    text[before.length + left.length - 1]? = some '\n' ↔ left = [] := by
  rcases eq_nil_or_concat left with rfl | ⟨init, c, rfl⟩
  · rcases h.closed with rfl | ⟨init, rfl⟩
    · exact absurd hpos (by decide)
    · rw [h.text_eq, append_assoc, getElem?_append_right (by simp)]
      simp
  · rw [concat_eq_append] at h ⊢
    have hshort : LineAt text line before (init ++ (c :: right)) after := by simpa using h
    have hindex : before.length + (init ++ [c]).length - 1 = before.length + init.length := by simp
    have hc : c ≠ '\n' := by
      rintro rfl
      exact h.plain (by simp)
    rw [hindex, hshort.getElem?_eq]
    simp [hc]

theorem LineAt.clampCursor_eq {column : Nat} {body : Text}
    (h : LineAt text line before body after) (hcolumn : column ≤ body.length) :
    clampCursor (.new text) (before.length + column) =
      offset text (before.length + min column (body.length - 1)) := by
  have hbody : body = body.take column ++ body.drop column := (take_append_drop _ _).symm
  have hlen : (body.take column).length = column := by
    rw [length_take]
    omega
  have hle : before.length + body.length ≤ text.length := by
    rw [h.text_eq]
    simp only [length_append]
    omega
  have hstart := Buffer.lineStart_eq (.new text) h hbody
  have hstop := Buffer.lineEnd_eq (.new text) h hbody
  rw [hlen] at hstart hstop
  unfold clampCursor
  simp only [hstart, hstop]
  split
  · rw [Buffer.byte_of_le (.new text) (by change _ ≤ text.length; omega)]
    exact congrArg (offset text) (by omega)
  · rw [Buffer.byte_of_le (.new text) (by change _ ≤ text.length; omega)]
    exact congrArg (offset text) (by omega)

theorem LineAt.clampTextCursor_eq (h : LineAt text line before (left ++ right) after) :
    clampTextCursor text (utf8Len (before ++ left)) =
      some (offset text (before.length + min left.length ((left ++ right).length - 1))) := by
  have hat := h.at'
  unfold clampTextCursor
  rw [h.textEndsLine_eq]
  simp only [bind_eq_bind, bind_some, Option.pure_def]
  cases right with
  | cons c right =>
    simp only [isEmpty_cons, Bool.false_and, Bool.false_eq_true, if_false, length_append,
      length_cons]
    rw [hat.eq]
    congr 3
    omega
  | nil =>
    obtain ⟨j, c, hj, hc, hprevious⟩ := hat.previous
    cases hj
    simp only [isEmpty_nil, Bool.true_and, decide_eq_true_eq, hc, bind_some,
      hprevious.textCharacter_eq, append_nil]
    have hstay : offset text (before.length + min left.length (left.length - 1)) =
        if 0 < before.length + left.length ∧ left ≠ [] then c else utf8Len (before ++ left) := by
      rw [hprevious.eq, hat.eq]
      rcases eq_nil_or_concat left with rfl | ⟨init, d, rfl⟩
      · rw [if_neg (fun hboth => hboth.2 rfl)]
        rfl
      · rw [if_pos ⟨by simp, by simp⟩]
        exact congrArg (offset text) (by simp)
    rw [hstay]
    by_cases hpos : 0 < before.length + left.length
    · rw [if_pos (hat.pos_iff.mpr hpos)]
      by_cases hleft : left = []
      · rw [if_neg (fun hne => hne ((h.lineFeed_before hpos).mpr hleft)), if_neg (fun hboth => hboth.2 hleft)]
      · rw [if_pos (fun heq => hleft ((h.lineFeed_before hpos).mp heq)), if_pos ⟨hpos, hleft⟩]
    · rw [if_neg (fun h' => hpos (hat.pos_iff.mp h')), if_neg (fun hboth => hpos hboth.1)]

/-! ## Loops over a line and over lines -/

theorem LineAt.alongLine_eq :
    ∀ {left right : Text}, LineAt text line before (left ++ right) after →
      alongLine text moves (utf8Len (before ++ left)) =
        some (utf8Len (before ++ (left ++ right.take moves))) := by
  unfold alongLine
  induction moves with
  | zero =>
    intro left right h
    rw [take_zero, append_nil]
    rfl
  | succ moves ih =>
    intro left right h
    cases right with
    | nil =>
      rw [take_nil, append_nil]
      exact loop_stays (by rw [h.textEndsLine_eq]; rfl) _
    | cons c right =>
      have hnext : LineAt text line before ((left ++ [c]) ++ right) after := by simpa using h
      have hmove : textNext text (utf8Len (before ++ left)) =
          some (utf8Len (before ++ (left ++ [c]))) := by
        unfold textNext
        rw [h.at'.textCharacter_eq, h.getElem?_eq]
        simp [utf8Len_append, utf8Len_cons, Nat.add_assoc]
      have htake : left ++ (c :: right).take (moves + 1) = left ++ [c] ++ right.take moves := by
        simp
      rw [loop_moves (by rw [h.textEndsLine_eq]; rfl) hmove, htake]
      exact ih hnext

/-- A walk to the left stays on the line. -/
theorem LineAt.backAlong_eq :
    ∀ {left right : Text}, LineAt text line before (left ++ right) after →
      loop (fun target => some (target != utf8Len before)) (textPrevious text) moves
          (utf8Len (before ++ left)) =
        some (utf8Len (before ++ left.take (left.length - moves))) := by
  induction moves with
  | zero =>
    intro left right h
    rw [Nat.sub_zero, take_length]
    rfl
  | succ moves ih =>
    intro left right h
    rcases eq_nil_or_concat left with rfl | ⟨init, c, rfl⟩
    · simp [loop]
    · rw [concat_eq_append] at h ⊢
      have hshort : LineAt text line before (init ++ (c :: right)) after := by simpa using h
      have hne : (utf8Len (before ++ (init ++ [c])) != utf8Len before) = true := by
        have := Char.utf8Size_pos c
        simp only [utf8Len_append, utf8Len_cons, bne_iff_ne]
        omega
      have hmove : textPrevious text (utf8Len (before ++ (init ++ [c]))) =
          some (utf8Len (before ++ init)) := by
        obtain ⟨j, caret, hj, hcaret, hat⟩ := h.at'.previous
        cases hj
        rw [hcaret, hat.eq, hshort.at'.eq]
        exact congrArg (fun i => some (offset text i)) (by simp)
      have hrest := ih hshort
      have htake : (init ++ [c]).take ((init ++ [c]).length - (moves + 1)) =
          init.take (init.length - moves) := by
        rw [length_append, take_append_of_le_length (by simp)]
        congr 1
        simp
      rw [htake, ← hrest]
      exact loop_moves (congrArg some hne) hmove _

end Line

/-- A walk down the lines ends at the last line. -/
theorem LineAt.downLines_eq {text : Text} :
    ∀ {line : Nat} {before body after : Text}, LineAt text line before body after →
      ∃ before' body' after',
        LineAt text (min (line + moves) (text.count '\n')) before' body' after' ∧
          downLines text moves (utf8Len before) = some (utf8Len before') := by
  unfold downLines
  induction moves with
  | zero =>
    intro line before body after h
    refine ⟨before, body, after, ?_, rfl⟩
    rw [Nat.add_zero, Nat.min_eq_left h.number_le]
    exact h
  | succ moves ih =>
    intro line before body after h
    have hstop : lineEndByte text (utf8Len before) = some (utf8Len (before ++ body)) := by
      have hstart : LineAt text line before ([] ++ body) after := h
      have hbyte := hstart.lineEndByte_eq
      rwa [append_nil] at hbyte
    rcases h.opens with rfl | ⟨rest, rfl⟩
    · have hlast := h.last_iff.mpr rfl
      have hend : utf8Len (before ++ body) = utf8Len text := by rw [h.text_eq, append_nil]
      refine ⟨before, body, [], ?_, ?_⟩
      · rw [Nat.min_eq_right (by omega), ← hlast]
        exact h
      · exact loop_stays (by simp [hstop, hend]) _
    · obtain ⟨body', after', -, hnext⟩ := h.next
      have hgoes : (utf8Len (before ++ body) != utf8Len text) = true := by
        rw [h.text_eq, bne_iff_ne]
        simp only [utf8Len_append, utf8Len_cons]
        have := Char.utf8Size_pos '\n'
        omega
      have hstart : utf8Len (before ++ (body ++ ['\n'])) = utf8Len (before ++ body) + 1 := by
        simp only [utf8Len_append, utf8Len_cons]
        have : Char.utf8Size '\n' = 1 := rfl
        have : utf8Len [] = 0 := rfl
        omega
      obtain ⟨before'', body'', after'', hat, hloop⟩ := ih hnext
      refine ⟨before'', body'', after'', ?_, ?_⟩
      · rwa [Nat.add_right_comm, Nat.add_assoc] at hat
      · rw [hstart] at hloop
        rw [loop_moves (by rw [hstop]; exact congrArg some hgoes)
          (show _ = some (utf8Len (before ++ body) + 1) by rw [hstop]; rfl)]
        exact hloop

/-- A walk up the lines ends at the first line. -/
theorem LineAt.upLines_eq {text : Text} :
    ∀ {line : Nat} {before body after : Text}, LineAt text line before body after →
      ∃ before' body' after', LineAt text (line - moves) before' body' after' ∧
        upLines text moves (utf8Len before) = some (utf8Len before') := by
  unfold upLines
  induction moves with
  | zero => exact fun h => ⟨_, _, _, h, rfl⟩
  | succ moves ih =>
    intro line before body after h
    rcases h.closed with rfl | ⟨init, rfl⟩
    · refine ⟨[], body, after, ?_, rfl⟩
      rw [h.first_iff.mpr rfl, Nat.zero_sub]
      rw [h.first_iff.mpr rfl] at h
      exact h
    · obtain ⟨before', body', hinit, hprevious⟩ := h.previous
      have hone : utf8Len (init ++ ['\n']) - 1 = utf8Len (before' ++ (body' ++ [])) := by
        rw [utf8Len_append, append_nil, ← hinit]
        rfl
      have hstart : lineStartByte text (utf8Len (init ++ ['\n']) - 1) = some (utf8Len before') := by
        rw [hone, append_nil]
        have hend : LineAt text (line - 1) before' (body' ++ []) ('\n' :: (body ++ after)) := by
          rwa [append_nil]
        exact hend.lineStartByte_eq
      have hgoes : (utf8Len (init ++ ['\n']) != 0) = true := by
        rw [utf8Len_append, bne_iff_ne]
        have : utf8Len ['\n'] = 1 := rfl
        omega
      obtain ⟨before'', body'', after'', hat, hloop⟩ := ih hprevious
      refine ⟨before'', body'', after'', ?_, ?_⟩
      · rwa [Nat.sub_sub, Nat.add_comm] at hat
      · refine (loop_moves ?_ ?_ moves).trans hloop
        · exact congrArg some hgoes
        · exact hstart

/-- A walk from line end to line end. -/
theorem LineAt.lineEnds_eq {text : Text} :
    ∀ {line : Nat} {before body after : Text}, LineAt text line before body after →
      ∃ before' body' after',
        LineAt text (min (line + moves) (text.count '\n')) before' body' after' ∧
          loop (fun stop => some (stop != utf8Len text)) (fun stop => lineEndByte text (stop + 1))
            moves (utf8Len (before ++ body)) = some (utf8Len (before' ++ body')) := by
  induction moves with
  | zero =>
    intro line before body after h
    refine ⟨before, body, after, ?_, rfl⟩
    rw [Nat.add_zero, Nat.min_eq_left h.number_le]
    exact h
  | succ moves ih =>
    intro line before body after h
    rcases h.opens with rfl | ⟨rest, rfl⟩
    · have hlast := h.last_iff.mpr rfl
      have hend : utf8Len (before ++ body) = utf8Len text := by rw [h.text_eq, append_nil]
      refine ⟨before, body, [], ?_, ?_⟩
      · rw [Nat.min_eq_right (by omega), ← hlast]
        exact h
      · exact loop_stays (by simp [hend]) _
    · obtain ⟨body', after', -, hnext⟩ := h.next
      have hgoes : (utf8Len (before ++ body) != utf8Len text) = true := by
        rw [h.text_eq, bne_iff_ne]
        simp only [utf8Len_append, utf8Len_cons]
        have := Char.utf8Size_pos '\n'
        omega
      have hstart : utf8Len (before ++ body) + 1 = utf8Len (before ++ (body ++ ['\n']) ++ []) := by
        simp only [utf8Len_append, utf8Len_cons]
        have : Char.utf8Size '\n' = 1 := rfl
        have : utf8Len [] = 0 := rfl
        omega
      have hstop : lineEndByte text (utf8Len (before ++ body) + 1) =
          some (utf8Len (before ++ (body ++ ['\n']) ++ body')) := by
        rw [hstart]
        have hfirst : LineAt text (line + 1) (before ++ (body ++ ['\n'])) ([] ++ body') after' := hnext
        exact hfirst.lineEndByte_eq
      obtain ⟨before'', body'', after'', hat, hloop⟩ := ih hnext
      refine ⟨before'', body'', after'', ?_, ?_⟩
      · rwa [Nat.add_right_comm, Nat.add_assoc] at hat
      · refine (loop_moves ?_ ?_ moves).trans hloop
        · exact congrArg some hgoes
        · exact hstop

theorem LineAt.firstNonBlankByte_eq {text : Text} {line : Nat} {before body after : Text}
    (h : LineAt text line before body after) :
    firstNonBlankByte text (utf8Len before) = some (utf8Len (before ++ body.takeWhile isBlank)) := by
  have hstart : LineAt text line before ([] ++ body) after := h
  have hat := hstart.at'
  have hdrop : text.drop before.length = body ++ after := by rw [h.text_eq, drop_left]
  have hblanks : (body ++ after).takeWhile isBlank = body.takeWhile isBlank := by
    rcases h.opens with rfl | ⟨rest, rfl⟩
    · rw [append_nil]
    · rw [takeWhile_append]
      split
      · rename_i hall
        rw [takeWhile_cons, if_neg (by decide), append_nil]
        exact ((List.takeWhile_prefix _).eq_of_length hall).symm
      · rfl
  have hslice := hat.sliceFrom_eq
  rw [append_nil, length_nil, Nat.add_zero, hdrop] at hslice
  unfold firstNonBlankByte
  rw [hslice]
  simp only [some_bind, Option.pure_def, leadingBlankBytes_eq, hblanks, utf8Len_append]

end FesTerm.Document.Vi
