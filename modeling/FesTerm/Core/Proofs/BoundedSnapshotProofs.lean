import FesTerm.Core.Proofs.RunProofs
import FesTerm.Core.Proofs.SnapshotProofs
import FesTerm.Lib.TextLines

/-!
# Bounded snapshots

The accumulator counts bytes and lines as it writes. What it has counted is what its text holds, so it
refuses exactly the texts that exceed its bounds, and the bound it names is one that the whole text exceeds.
-/

namespace FesTerm

open Checked TextLines List

def textLines (text : List Char) : List (List Char) := lines '\n' text

/-- A text keeps to the bounds of a snapshot. -/
structure SnapshotBounds.Within (bounds : SnapshotBounds) (text : List Char) : Prop where
  bytes : utf8Len text ≤ bounds.maxBytes
  lines : (textLines text).length ≤ bounds.maxLines
  lineBytes : ∀ line ∈ textLines text, utf8Len line ≤ bounds.maxLineBytes

/-- A refusal names a bound that a text exceeds, and for the length of a line the line that does. -/
def SnapshotRefusal.Names (refusal : SnapshotRefusal) (bounds : SnapshotBounds) (text : List Char) : Prop :=
  match refusal with
  | .tooLarge _ limit => limit = bounds.maxBytes ∧ limit < utf8Len text
  | .tooManyLines _ limit => limit = bounds.maxLines ∧ limit < (textLines text).length
  | .lineTooLong line limit => limit = bounds.maxLineBytes ∧
    ∃ long, (textLines text)[line - 1]? = some long ∧ limit < utf8Len long

/-- Bounds that a caller can give: machine words, with room for a line. -/
structure SnapshotBounds.Ok (bounds : SnapshotBounds) : Prop where
  bytes_le : bounds.maxBytes ≤ usizeMax
  lines_le : bounds.maxLines ≤ usizeMax
  lineBytes_le : bounds.maxLineBytes ≤ usizeMax
  one_le_lines : 1 ≤ bounds.maxLines

/-! ## Sizes -/

theorem utf8Len_concat (text more : List Char) : utf8Len (text ++ more) = utf8Len text + utf8Len more := by
  rw [utf8Len, map_append, sum_append]
  rfl

variable {text : List Char}

theorem utf8Len_le_of_sublist {more : List Char} (h : text.Sublist more) : utf8Len text ≤ utf8Len more := by
  induction h with
  | slnil => exact le_rfl
  | @cons text more c h ih =>
    have hcons : utf8Len (c :: more) = c.utf8Size + utf8Len more := rfl
    omega
  | @cons_cons text more c h ih =>
    have hcons : utf8Len (c :: more) = c.utf8Size + utf8Len more := rfl
    have hcons' : utf8Len (c :: text) = c.utf8Size + utf8Len text := rfl
    omega

theorem length_le_utf8Len (text : List Char) : text.length ≤ utf8Len text := by
  induction text with
  | nil => exact le_rfl
  | cons c text ih =>
    have hcons : utf8Len (c :: text) = c.utf8Size + utf8Len text := rfl
    have hpos := c.utf8Size_pos
    rw [length_cons]
    omega

theorem utf8Len_eq_zero_iff : utf8Len text = 0 ↔ text = [] := by
  constructor
  · intro h
    have hle := length_le_utf8Len text
    exact length_eq_zero_iff.mp (by omega)
  · rintro rfl
    rfl

variable {refusal : SnapshotRefusal} {bounds : SnapshotBounds}

theorem SnapshotRefusal.Names.append
    (h : refusal.Names bounds text) (more : List Char) : refusal.Names bounds (text ++ more) := by
  cases refusal with
  | tooLarge bytes limit =>
    obtain ⟨hlimit, hlt⟩ := h
    refine ⟨hlimit, ?_⟩
    rw [utf8Len_concat]
    omega
  | tooManyLines count limit =>
    obtain ⟨hlimit, hlt⟩ := h
    exact ⟨hlimit, Nat.lt_of_lt_of_le hlt (length_lines_append text more)⟩
  | lineTooLong line limit =>
    obtain ⟨hlimit, long, hlong, hlt⟩ := h
    obtain ⟨longer, hlonger, hle⟩ := getElem?_lines_append more hlong
    exact ⟨hlimit, longer, hlonger, Nat.lt_of_lt_of_le hlt (utf8Len_le_of_sublist hle.sublist)⟩

namespace SnapshotAccumulator

def wordBounds : SnapshotBounds := ⟨usizeMax, usizeMax, usizeMax⟩

/-- The counters of an accumulator are right for its text, which is cut before the line that is begun. -/
structure Counted (limits : SnapshotBounds) (before line : List Char) (target : SnapshotAccumulator) :
    Prop where
  bounds : target.bounds.getD wordBounds = limits
  text : target.text = before ++ line
  closed : Closed '\n' before
  unbroken : '\n' ∉ line
  bytes : target.bytes = utf8Len (before ++ line)
  lines : target.lines = max 1 (textLines (before ++ line)).length
  currentLineBytes : target.currentLineBytes = utf8Len line
  trailingNewline : target.trailingNewline = true ↔ before ≠ [] ∧ line = []
  within : limits.Within (before ++ line)

/-- The text is written and counted, or refused for a bound that it exceeds. -/
def Writes (limits : SnapshotBounds) (text : List Char)
    (result : Except SnapshotRefusal SnapshotAccumulator) : Prop :=
  (∃ target before line, result = .ok target ∧ Counted limits before line target ∧ before ++ line = text) ∨
    ∃ refusal, result = .error refusal ∧ refusal.Names limits text

variable {limits : SnapshotBounds} {before line : List Char} {target : SnapshotAccumulator}

variable {field : SnapshotBounds → Nat}

theorem limit_eq (hbounds : target.bounds.getD wordBounds = limits)
    (hword : field wordBounds = usizeMax) : target.limit field = field limits := by
  rw [← hbounds, limit]
  cases target.bounds with
  | none => exact hword.symm
  | some bounds => rfl

theorem any_bounds (hbounds : target.bounds.getD wordBounds = limits)
    (hword : field wordBounds = usizeMax) {n : Nat} (hn : n ≤ usizeMax) :
    target.bounds.any (n > field ·) = true ↔ field limits < n := by
  rw [← hbounds]
  cases target.bounds with
  | none =>
    rw [Option.getD_none, hword]
    constructor
    · intro h
      cases h
    · intro h
      exact absurd hn (Nat.not_le_of_lt h)
  | some bounds => simp

theorem reserveBytes_cases (hbounds : target.bounds.getD wordBounds = limits) (hok : limits.Ok) (added : Nat) :
    target.bytes + added ≤ limits.maxBytes ∧
        target.reserveBytes added = .ok { target with bytes := target.bytes + added } ∨
      limits.maxBytes < target.bytes + added ∧
        ∃ bytes, target.reserveBytes added = .error (.tooLarge bytes limits.maxBytes) := by
  have hle := hok.bytes_le
  have hlimit : target.limit (·.maxBytes) = limits.maxBytes := limit_eq hbounds rfl
  unfold reserveBytes
  rw [hlimit]
  by_cases hword : target.bytes + added > usizeMax
  · rw [if_pos hword]
    exact .inr ⟨by omega, _, rfl⟩
  · have hany := any_bounds hbounds (show wordBounds.maxBytes = usizeMax from rfl)
      (show target.bytes + added ≤ usizeMax by omega)
    rw [if_neg hword]
    by_cases hlarge : limits.maxBytes < target.bytes + added
    · rw [if_pos (hany.mpr hlarge)]
      exact .inr ⟨hlarge, _, rfl⟩
    · rw [if_neg (mt hany.mp hlarge)]
      exact .inl ⟨by omega, rfl⟩

theorem startLine_cases (hbounds : target.bounds.getD wordBounds = limits) (hok : limits.Ok) :
    target.lines + 1 ≤ limits.maxLines ∧
        target.startLine = .ok { target with trailingNewline := false, lines := target.lines + 1 } ∨
      limits.maxLines < target.lines + 1 ∧
        ∃ count, target.startLine = .error (.tooManyLines count limits.maxLines) := by
  have hle := hok.lines_le
  have hlimit : target.limit (·.maxLines) = limits.maxLines := limit_eq hbounds rfl
  unfold startLine
  rw [hlimit]
  by_cases hword : target.lines + 1 > usizeMax
  · rw [if_pos hword]
    exact .inr ⟨by omega, _, rfl⟩
  · have hany := any_bounds hbounds (show wordBounds.maxLines = usizeMax from rfl)
      (show target.lines + 1 ≤ usizeMax by omega)
    rw [if_neg hword]
    by_cases hmany : limits.maxLines < target.lines + 1
    · rw [if_pos (hany.mpr hmany)]
      exact .inr ⟨hmany, _, rfl⟩
    · rw [if_neg (mt hany.mp hmany)]
      exact .inl ⟨by omega, rfl⟩

theorem Counted.textLines_eq (h : Counted limits before line target) (more : List Char) :
    textLines (before ++ line ++ more) = textLines before ++ textLines (line ++ more) := by
  rw [append_assoc]
  exact lines_append h.closed (line ++ more)

/-- With a line begun, the counter is at that line. -/
theorem Counted.resume_cases (h : Counted limits before line target) (hok : limits.Ok) :
    (textLines before).length + 1 ≤ limits.maxLines ∧
        target.resume = .ok { target with trailingNewline := false, lines := (textLines before).length + 1 } ∨
      limits.maxLines < (textLines before).length + 1 ∧
        ∃ count, target.resume = .error (.tooManyLines count limits.maxLines) := by
  have hlines : textLines (before ++ line) = textLines before ++ textLines line := lines_append h.closed line
  have hcount := h.lines
  rw [hlines, length_append] at hcount
  unfold resume
  cases htrailing : target.trailingNewline with
  | true =>
    obtain ⟨hbefore, rfl⟩ := h.trailingNewline.mp htrailing
    have hpos : 0 < (textLines before).length := length_pos_of_ne_nil (lines_ne_nil hbefore)
    have hcount : target.lines = (textLines before).length := by
      rw [show textLines [] = [] from rfl, length_nil] at hcount
      omega
    rw [if_pos rfl, ← hcount]
    exact startLine_cases h.bounds hok
  | false =>
    have hbegun : target.lines = (textLines before).length + 1 ∧
        (textLines before).length + 1 ≤ limits.maxLines := by
      have hmany := h.within.lines
      have hone := hok.one_le_lines
      rw [hlines, length_append] at hmany
      by_cases hline : line = []
      · have hbefore : before = [] := by
          by_contra hne
          rw [h.trailingNewline.mpr ⟨hne, hline⟩] at htrailing
          cases htrailing
        rw [hbefore, hline, show textLines [] = [] from rfl, length_nil] at hcount
        rw [hbefore, show textLines [] = [] from rfl, length_nil]
        exact ⟨hcount, hone⟩
      · rw [show textLines line = [line] from lines_word hline h.unbroken, length_singleton] at hcount hmany
        exact ⟨by omega, hmany⟩
    rw [if_neg Bool.false_ne_true, ← hbegun.1, ← htrailing]
    exact .inl ⟨hbegun.1 ▸ hbegun.2, rfl⟩

theorem Counted.within_extended (h : Counted limits before line target) {last : List Char}
    (hlines : textLines text = textLines before ++ [last]) (hbytes : utf8Len text ≤ limits.maxBytes)
    (hroom : (textLines before).length + 1 ≤ limits.maxLines) (hlast : utf8Len last ≤ limits.maxLineBytes) :
    limits.Within text where
  bytes := hbytes
  lines := by rw [hlines, length_append]; exact hroom
  lineBytes long hlong := by
    rw [hlines, mem_append, mem_singleton] at hlong
    rcases hlong with hlong | rfl
    · refine h.within.lineBytes long ?_
      rw [show textLines (before ++ line) = textLines before ++ textLines line from lines_append h.closed line]
      exact mem_append_left _ hlong
    · exact hlast

theorem Counted.pushCellText (h : Counted limits before line target) (hok : limits.Ok)
    (hfeed : '\n' ∉ text) : Writes limits (before ++ line ++ text) (target.pushCellText text) := by
  by_cases hempty : text = []
  · rw [hempty, append_nil]
    exact .inl ⟨target, before, line, rfl, h, rfl⟩
  have hunbroken : '\n' ∉ line ++ text := by
    rw [mem_append, not_or]
    exact ⟨h.unbroken, hfeed⟩
  have hlines : textLines (before ++ line ++ text) = textLines before ++ [line ++ text] := by
    rw [h.textLines_eq, show textLines (line ++ text) = [line ++ text] from
      lines_word (append_ne_nil_of_right_ne_nil _ hempty) hunbroken]
  unfold SnapshotAccumulator.pushCellText
  rw [if_neg (by simp [hempty])]
  obtain ⟨hroom, heq⟩ | ⟨hmany, count, heq⟩ := h.resume_cases hok
  · rw [heq]
    simp only [bind, Except.bind]
    have hbounds : ({ target with trailingNewline := false, lines := (textLines before).length + 1 } :
      SnapshotAccumulator).bounds.getD wordBounds = limits := h.bounds
    have hlimit := limit_eq hbounds (show wordBounds.maxLineBytes = usizeMax from rfl)
    have hnext : target.currentLineBytes + utf8Len text = utf8Len (line ++ text) := by
      rw [h.currentLineBytes, utf8Len_concat]
    have hnames : limits.maxLineBytes < utf8Len (line ++ text) →
        (SnapshotRefusal.lineTooLong ((textLines before).length + 1) limits.maxLineBytes).Names limits
          (before ++ line ++ text) := by
      intro hlt
      refine ⟨rfl, line ++ text, ?_, hlt⟩
      rw [hlines, Nat.add_sub_cancel, getElem?_append_right le_rfl, Nat.sub_self]
      rfl
    have hlong := hok.lineBytes_le
    rw [hnext, hlimit]
    by_cases hword : utf8Len (line ++ text) > usizeMax
    · rw [if_pos hword]
      exact .inr ⟨_, rfl, hnames (by omega)⟩
    rw [if_neg hword]
    have hany := any_bounds h.bounds (show wordBounds.maxLineBytes = usizeMax from rfl) (Nat.le_of_not_lt hword)
    by_cases hlong : limits.maxLineBytes < utf8Len (line ++ text)
    · rw [if_pos (hany.mpr hlong)]
      exact .inr ⟨_, rfl, hnames hlong⟩
    rw [if_neg (mt hany.mp hlong)]
    have hbytes : target.bytes + utf8Len text = utf8Len (before ++ line ++ text) := by
      rw [h.bytes, utf8Len_concat (before ++ line)]
    obtain ⟨hfits, hreserve⟩ | ⟨hlarge, bytes, hreserve⟩ := reserveBytes_cases hbounds hok (utf8Len text)
    · rw [hreserve]
      rw [hbytes] at hfits
      have hassoc : before ++ (line ++ text) = before ++ line ++ text := (append_assoc ..).symm
      have hcount : max 1 (textLines (before ++ line ++ text)).length = (textLines before).length + 1 := by
        rw [hlines, length_append, length_singleton]
        exact Nat.max_eq_right (Nat.le_add_left 1 _)
      refine .inl ⟨_, before, line ++ text, rfl, ?_, hassoc⟩
      exact {
        bounds := h.bounds
        text := by rw [hassoc, ← h.text]
        closed := h.closed
        unbroken := hunbroken
        bytes := by rw [hassoc]; exact hbytes
        lines := by rw [hassoc, hcount]
        currentLineBytes := rfl
        trailingNewline := by
          constructor
          · intro hfalse
            cases hfalse
          · intro hline
            exact absurd hline.2 (append_ne_nil_of_right_ne_nil _ hempty)
        within := by rw [hassoc]; exact h.within_extended hlines hfits hroom (Nat.le_of_not_lt hlong) }
    · rw [hreserve]
      exact .inr ⟨_, rfl, rfl, hbytes ▸ hlarge⟩
  · rw [heq]
    refine .inr ⟨_, rfl, rfl, ?_⟩
    rw [hlines, length_append]
    exact hmany

theorem Counted.pushNewline (h : Counted limits before line target) (hok : limits.Ok) :
    Writes limits (before ++ line ++ ['\n']) target.pushNewline := by
  have hlines : textLines (before ++ line ++ ['\n']) = textLines before ++ [line] := by
    rw [h.textLines_eq, show textLines (line ++ ['\n']) = [line] from lines_word_sep h.unbroken]
  unfold SnapshotAccumulator.pushNewline
  obtain ⟨hroom, heq⟩ | ⟨hmany, count, heq⟩ := h.resume_cases hok
  · rw [heq]
    simp only [bind, Except.bind]
    have hbounds : ({ target with trailingNewline := false, lines := (textLines before).length + 1 } :
      SnapshotAccumulator).bounds.getD wordBounds = limits := h.bounds
    have hbytes : target.bytes + 1 = utf8Len (before ++ line ++ ['\n']) := by
      rw [h.bytes, utf8Len_concat (before ++ line)]
      rfl
    obtain ⟨hfits, hreserve⟩ | ⟨hlarge, bytes, hreserve⟩ := reserveBytes_cases hbounds hok 1
    · rw [hreserve]
      rw [hbytes] at hfits
      have hline : utf8Len line ≤ limits.maxLineBytes := by
        by_cases hempty : line = []
        · rw [hempty]
          exact Nat.zero_le _
        · refine h.within.lineBytes line ?_
          rw [show textLines (before ++ line) = textLines before ++ textLines line from lines_append h.closed line,
            show textLines line = [line] from lines_word hempty h.unbroken]
          exact mem_append_right _ mem_cons_self
      have hwhole : before ++ line ++ ['\n'] ++ [] = before ++ line ++ ['\n'] := append_nil _
      refine .inl ⟨_, before ++ line ++ ['\n'], [], rfl, ?_, hwhole⟩
      exact {
        bounds := h.bounds
        text := by rw [hwhole, ← h.text]
        closed := closed_concat _
        unbroken := by simp
        bytes := by rw [hwhole]; exact hbytes
        lines := by
          rw [hwhole, hlines, length_append, length_singleton]
          exact (Nat.max_eq_right (Nat.le_add_left 1 _)).symm
        currentLineBytes := rfl
        trailingNewline := ⟨fun _ => ⟨by simp, rfl⟩, fun _ => rfl⟩
        within := by rw [hwhole]; exact h.within_extended hlines hfits hroom hline }
    · rw [hreserve]
      exact .inr ⟨_, rfl, rfl, hbytes ▸ hlarge⟩
  · rw [heq]
    refine .inr ⟨_, rfl, rfl, ?_⟩
    rw [hlines, length_append]
    exact hmany

/-! ## Tokens -/

/-- The text that a token stands for. -/
def tokenText : Option Cell → List Char
  | none => ['\n']
  | some cell => if cell.isContinuation then [] else cell.text

def Unbroken (token : Option Cell) : Prop := ∀ cell ∈ token, '\n' ∉ cell.text

theorem Counted.pushToken (h : Counted limits before line target) (hok : limits.Ok) {token : Option Cell}
    (htoken : Unbroken token) : Writes limits (before ++ line ++ tokenText token) (target.pushToken token) := by
  cases token with
  | none => exact h.pushNewline hok
  | some cell =>
    show Writes limits (before ++ line ++ if cell.isContinuation then [] else cell.text)
      (if cell.isContinuation then .ok target else target.pushCellText cell.text)
    by_cases hcontinues : cell.isContinuation = true
    · rw [if_pos hcontinues, if_pos hcontinues, append_nil]
      exact .inl ⟨target, before, line, rfl, h, rfl⟩
    · rw [if_neg hcontinues, if_neg hcontinues]
      exact h.pushCellText hok (htoken cell rfl)

theorem Counted.pushTokens (h : Counted limits before line target) (hok : limits.Ok)
    {tokens : List (Option Cell)} (htokens : ∀ token ∈ tokens, Unbroken token) :
    Writes limits (before ++ line ++ tokens.flatMap tokenText) (target.pushTokens tokens) := by
  induction tokens generalizing before line target with
  | nil =>
    rw [flatMap_nil, append_nil]
    exact .inl ⟨target, before, line, rfl, h, rfl⟩
  | cons token tokens ih =>
    rw [flatMap_cons, ← append_assoc, SnapshotAccumulator.pushTokens, foldlM_cons]
    obtain ⟨next, before', line', heq, hcounted, htext⟩ | ⟨refusal, heq, hnames⟩ :=
      h.pushToken hok (htokens token mem_cons_self)
    · rw [heq, ← htext]
      exact ih hcounted fun other hother => htokens other (mem_cons_of_mem _ hother)
    · rw [heq]
      exact .inr ⟨refusal, rfl, hnames.append _⟩

theorem Counted.breakBefore (h : Counted limits before line target) (continuing : Bool) :
    target.breakBefore continuing 0 =
      if continuing = false ∧ line ≠ [] then target.pushNewline else .ok target := by
  have hpending : 0 < target.bytes ∧ target.trailingNewline = false ↔ line ≠ [] := by
    rw [h.bytes, Nat.pos_iff_ne_zero, ne_eq, utf8Len_eq_zero_iff, ← Bool.not_eq_true, h.trailingNewline]
    constructor
    · rintro ⟨hne, hbefore⟩ rfl
      refine hbefore ⟨?_, rfl⟩
      rintro rfl
      exact hne rfl
    · intro hline
      exact ⟨append_ne_nil_of_right_ne_nil _ hline, fun hempty => hline hempty.2⟩
  unfold SnapshotAccumulator.breakBefore
  cases continuing with
  | true => rfl
  | false =>
    refine if_congr ?_ rfl rfl
    rw [← hpending]
    simp

end SnapshotAccumulator

open SnapshotAccumulator

variable [Platform]

variable {promise : Promise} {row : ScreenRow}

omit [Platform] in
theorem Screen.Good.unbroken {screen : Screen} (h : screen.Good promise)
    {rows : List ScreenRow} (hshows : screen.Shows rows) (hrow : row ∈ rows) :
    ∀ token ∈ rowTokens row, Unbroken token := by
  intro token htoken
  obtain ⟨cell, hcell, rfl⟩ := List.mem_map.mp htoken
  obtain ⟨k, hk⟩ := mem_iff_getElem?.mp hrow
  obtain ⟨line, hline⟩ := h.line_some k
  obtain ⟨htoRow, hfits⟩ := (h.line_good hline).toRow
  have hcells := hshows.cells k row hk
  rw [Screen.occupiedRowCells, hline] at hcells
  change slice line.cells 0 line.occupiedColumns = some row.cells at hcells
  have hmem : cell ∈ line.cells.take line.occupiedColumns := by
    rw [Line.toRow, hcells] at htoRow
    have hcopied : row.cells = line.cells.take line.occupiedColumns :=
      congrArg ScreenRow.cells (Option.some.inj htoRow)
    rw [← hcopied]
    exact hcell
  intro other hother
  cases hother
  exact (hfits.text cell hmem).lineFeed

variable {sb : Scrollback} {columns : Nat}

theorem Scrollback.Good.unbroken (h : sb.Good promise columns) (hrow : row ∈ Scrollback.allRows sb.lines) :
    ∀ token ∈ rowTokens row, Unbroken token := by
  intro token htoken
  obtain ⟨cell, hcell, rfl⟩ := List.mem_map.mp htoken
  intro other hother
  cases hother
  exact ((h.rows row hrow).text cell hcell).lineFeed

namespace Terminal

variable {terminal : Terminal} {limits : SnapshotBounds}

section

omit [Platform]

end

end Terminal

end FesTerm
