import FesTerm.Core.Proofs.HistoryAnchorProofs
import FesTerm.Core.Proofs.HistoryRecoveryProofs
import FesTerm.Lib.SoftWrap

/-!
# The content of the history

The retained lines seen as one list of physical rows. Without a limit, pushing rows appends them;
rewrapping keeps the lines; splitting and enforcing a limit take rows from the two ends. An anchor taken
in one layout of the lines and resolved in another names the same cell.
-/

namespace FesTerm

open Checked List Option

abbrev logicalLines (rows : List ScreenRow) : List (List Cell) :=
  SoftWrap.lines ScreenRow.cells ScreenRow.softWrapped rows

namespace LogicalLine

variable [Platform] {line : LogicalLine}

theorem Ok.screenRows_ne_nil (h : line.Ok) : line.screenRows ≠ [] := by
  have := h.rows_pos
  intro hnil
  have hlen := congrArg List.length hnil
  simp only [screenRows, length_map, length_range, length_nil] at hlen
  omega

omit [Platform] in
theorem screenRows_wrap (line : LogicalLine) : ∀ row ∈ line.screenRows.dropLast, row.softWrapped = true := by
  intro row hrow
  obtain ⟨i, hi⟩ := mem_iff_getElem?.mp hrow
  have hlt := (List.getElem?_eq_some_iff.mp hi).1
  rw [length_dropLast, screenRows, length_map, length_range] at hlt
  rw [getElem?_dropLast, if_pos (by simpa [screenRows] using hlt), screenRows_getElem? (by omega)] at hi
  rw [← some.inj hi]
  simp only [decide_eq_true_eq]
  left
  omega

theorem Ok.screenRows_last (h : line.Ok) :
    ∃ row, line.screenRows.getLast? = some row ∧ row.softWrapped = !line.hardBreak := by
  have hpos := h.rows_pos
  have hlen : line.screenRows.length = line.physicalRows := by simp [screenRows]
  have hget := screenRows_getElem? (show line.physicalRows - 1 < line.physicalRows by omega)
  refine ⟨_, List.getLast?_eq_getElem?.trans (by rw [hlen]; exact hget), ?_⟩
  simp [show line.physicalRows - 1 + 1 = line.physicalRows by omega]

theorem Ok.lines_screenRows (h : line.Ok) : logicalLines line.screenRows = [line.cells] := by
  rw [logicalLines, SoftWrap.lines_wrapped line.screenRows_wrap h.screenRows_ne_nil, h.cells_eq,
    flatMap_def]

end LogicalLine

namespace Scrollback

variable [Platform] {sb : Scrollback}

variable {lines : List LogicalLine} {index : Nat} {line : LogicalLine}

theorem lines_allRows (hok : ∀ line ∈ lines, line.Ok)
    (hbreaks : ∀ line ∈ lines.dropLast, line.hardBreak = true) :
    logicalLines (allRows lines) = lines.map (·.cells) := by
  induction lines with
  | nil => rfl
  | cons line rest ih =>
    have hline := hok line mem_cons_self
    have hrest := fun l hl => hok l (mem_cons_of_mem line hl)
    cases rest with
    | nil => simp [hline.lines_screenRows]
    | cons next rest =>
      rw [dropLast_cons_of_ne_nil (by simp)] at hbreaks
      have ih := ih hrest fun l hl => hbreaks l (mem_cons_of_mem line hl)
      obtain ⟨row, hlast, hwrap⟩ := hline.screenRows_last
      rw [hbreaks line mem_cons_self] at hwrap
      have hne : allRows (next :: rest) ≠ [] := by
        have := (hrest next mem_cons_self).screenRows_ne_nil
        simp [allRows, this]
      calc logicalLines (allRows (line :: next :: rest))
          = logicalLines (line.screenRows ++ allRows (next :: rest)) := rfl
        _ = logicalLines line.screenRows ++ logicalLines (allRows (next :: rest)) :=
            SoftWrap.lines_append hlast hwrap hne
        _ = (line :: next :: rest).map (·.cells) := by rw [hline.lines_screenRows, ih]; rfl

theorem Layout.lines_allRows (h : sb.Layout) : logicalLines (allRows sb.lines) = sb.lines.map (·.cells) :=
  Scrollback.lines_allRows h.lines_ok h.breaks

theorem Inv.lines_reflow (h : sb.Inv) (columns : Nat) :
    logicalLines (allRows (sb.reflow columns).lines) = logicalLines (allRows sb.lines) := by
  rw [(h.reflow columns).toLayout.lines_allRows, h.toLayout.lines_allRows, h.toLayout.reflow_eq]
  simp only [List.map_map]
  rfl

omit [Platform] in
theorem allRows_split (h : lines[index]? = some line) :
    allRows lines = allRows (lines.take index) ++ (line.screenRows ++ allRows (lines.drop (index + 1))) := by
  obtain ⟨hlt, rfl⟩ := List.getElem?_eq_some_iff.mp h
  conv_lhs => rw [← take_append_drop index lines, drop_eq_getElem_cons hlt]
  rw [allRows_append]
  rfl

omit [Platform] in
theorem wraps_of_last_line {k : Nat} {row : ScreenRow}
    (hlast : lines.length ≤ index + 1) (hstart : totalRows (lines.take index) ≤ k)
    (hk : k + 1 < totalRows lines) (hrow : (allRows lines)[k]? = some row) : row.softWrapped = true := by
  have hindex : index < lines.length := by
    by_contra hge
    rw [take_of_length_le (by omega)] at hstart
    omega
  have hline := getElem?_eq_getElem hindex
  have hlen : lines[index].screenRows.length = lines[index].physicalRows := by
    simp [LogicalLine.screenRows]
  have hsplit := allRows_split hline
  rw [drop_of_length_le hlast, show allRows [] = [] from rfl, append_nil] at hsplit
  have htotal := congrArg List.length hsplit
  rw [length_allRows, length_append, length_allRows, hlen] at htotal
  rw [hsplit, getElem?_append_right (by rw [length_allRows]; exact hstart), length_allRows] at hrow
  refine lines[index].screenRows_wrap row (mem_of_getElem? (i := k - totalRows (lines.take index)) ?_)
  rw [getElem?_dropLast, if_pos (by omega)]
  exact hrow

theorem Inv.reflow_last (h : sb.Inv) {columns : Nat} (hcols : 2 ≤ columns) {row : ScreenRow}
    (hlast : (allRows sb.lines).getLast? = some row) (hcells : row.cells ≠ []) :
    ∃ row', (allRows (sb.reflow columns).lines).getLast? = some row' ∧ row'.cells ≠ [] := by
  obtain ⟨before, line, hlines⟩ : ∃ before line, sb.lines = before ++ [line] := by
    rcases eq_nil_or_concat sb.lines with hnil | ⟨before, line, hlines⟩
    · rw [hnil] at hlast
      cases hlast
    · exact ⟨before, line, hlines.trans concat_eq_append⟩
  have hok := h.lines_ok line (by rw [hlines]; simp)
  have hok' := hok.reflow columns
  rw [hlines, allRows_append, allRows_singleton,
    getLast?_append_of_ne_nil _ hok.screenRows_ne_nil] at hlast
  have hne : line.cells ≠ [] := fun hnil => by
    have hmem := mem_of_getLast? hlast
    obtain ⟨cell, hcell⟩ := exists_mem_of_ne_nil _ hcells
    have : cell ∈ line.cells := by
      rw [hok.cells_eq]
      exact mem_flatten.mpr ⟨row.cells, List.mem_map.mpr ⟨row, hmem, rfl⟩, hcell⟩
    rw [hnil] at this
    cases this
  obtain ⟨row', hrow', -⟩ := hok'.screenRows_last
  refine ⟨row', ?_, ?_⟩
  · rw [h.toLayout.reflow_eq, hlines]
    simp only [map_append, map_cons, map_nil]
    rw [allRows_append, allRows_singleton, getLast?_append_of_ne_nil _ hok'.screenRows_ne_nil]
    exact hrow'
  · obtain ⟨i, hi, hi'⟩ := LogicalLine.mem_screenRows (mem_of_getLast? hrow')
    rw [hi']
    exact ne_nil_of_length_pos ((hok.reflow_row_length hcols hi).2 hne)

omit [Platform] in
theorem evictLoop_unlimited (hlimit : sb.limitBytes = none) (lines : List LogicalLine) :
    sb.evictLoop lines = sb := by
  cases lines with
  | nil => rfl
  | cons line rest =>
    rw [evictLoop, hlimit, if_neg]
    rintro ⟨hover, -⟩
    cases hover

theorem enforceLimit_unlimited (hlimit : sb.limitBytes = none) : sb.enforceLimit = some sb := by
  unfold enforceLimit evictCompleteLines
  rw [evictLoop_unlimited hlimit]
  simp only [hlimit]
  rfl

theorem setLimitBytes_unlimited (sb : Scrollback) :
    sb.setLimitBytes none = some { sb with limitBytes := none } := enforceLimit_unlimited rfl

/-- The state after rows were pushed without a limit. -/
structure Folded (sb : Scrollback) (rows : List ScreenRow) (sb' : Scrollback) : Prop where
  inv : sb'.Inv
  rows : allRows sb'.lines = allRows sb.lines ++ rows
  limitBytes : sb'.limitBytes = none
  contentRowOrigin : sb'.contentRowOrigin = sb.contentRowOrigin

theorem Inv.pushRow_unlimited (h : sb.Inv) (hlimit : sb.limitBytes = none) (row : ScreenRow) :
    ∃ sb', sb.pushRow row = some sb' ∧ Folded sb [row] sb' := by
  obtain ⟨before, line, nextId, active, ho, heq⟩ := h.pushRow_grow (by rw [hlimit]; simp) row
  rw [enforceLimit_unlimited (by exact hlimit), bind_some] at heq
  obtain ⟨sb', hsb', hpushed⟩ := h.pushRow row
  cases heq.symm.trans hsb'
  refine ⟨_, heq, ⟨(hpushed.kept h).1.inv, ?_, ?_, ?_⟩⟩
  · rw [← ho.allRows_grow h row]
    split <;> rfl
  · split
    · exact hlimit
    · exact hlimit
  · split <;> rfl

theorem Inv.pushRows_unlimited (h : sb.Inv) (hlimit : sb.limitBytes = none) (rows : List ScreenRow) :
    ∃ sb', sb.pushRows rows = some sb' ∧ Folded sb rows sb' := by
  induction rows generalizing sb with
  | nil => exact ⟨sb, rfl, h, by simp, hlimit, rfl⟩
  | cons row rest ih =>
    obtain ⟨mid, hmid, hf⟩ := h.pushRow_unlimited hlimit row
    obtain ⟨sb', hsb', hf'⟩ := ih hf.inv hf.limitBytes
    refine ⟨sb', ?_, hf'.inv, ?_, hf'.limitBytes, hf'.contentRowOrigin.trans hf.contentRowOrigin⟩
    · rw [Scrollback.pushRows, foldlM_cons, hmid]
      exact hsb'
    · rw [hf'.rows, hf.rows, append_assoc, singleton_append]

theorem Inv.splitOffTail_unlimited (h : sb.Inv) (hlimit : sb.limitBytes = none) (n : Nat) :
    ∃ sb' tail, sb.splitOffTail n = some (sb', tail) ∧ sb'.Inv ∧
      allRows sb.lines = allRows sb'.lines ++ tail ∧ tail.length = min n (totalRows sb.lines) ∧
      sb'.contentRowOrigin = sb.contentRowOrigin := by
  obtain ⟨mid, removed, hloop, hs⟩ := h.splitLoop sb.lines.length le_rfl n []
  obtain ⟨sb', -, -, removed', hsplit, -, -, -, hinv⟩ := h.splitOffTail n
  have heq : sb.splitOffTail n =
      some ({ mid with screenRowOrigin := mid.screenRowOrigin - removed.length }, removed) := by
    unfold Scrollback.splitOffTail
    rw [hloop]
    simp only [some_bind, append_nil]
    rw [enforceLimit_unlimited (hs.limitBytes.trans hlimit)]
    rfl
  cases heq.symm.trans hsplit
  exact ⟨_, _, heq, hinv, hs.rows, hs.count, hs.contentRowOrigin⟩

variable {sb' : Scrollback}

theorem EnforcedTo.dropped (h : sb.Layout) (he : EnforcedTo sb sb') :
    ∃ dropped, allRows sb.lines = dropped ++ allRows sb'.lines ∧
      sb'.contentRowOrigin = sb.contentRowOrigin + dropped.length := by
  obtain ⟨dropped, hrows⟩ := he.allRows_suffix h
  refine ⟨dropped, hrows, ?_⟩
  have hlen := congrArg List.length hrows
  rw [length_append, length_allRows, length_allRows] at hlen
  have := he.rows
  omega

abbrev cellOffset (rows : List ScreenRow) (row : Nat) : Nat := SoftWrap.offset ScreenRow.cells rows row

variable {row localRow : Nat}

omit [Platform] in
theorem RowAt.getElem?_allRows
    (h : RowAt lines row index line localRow) (hlocal : localRow < line.physicalRows) :
    (allRows lines)[row]? = line.screenRows[localRow]? := by
  have hlen : line.screenRows.length = line.physicalRows := by simp [LogicalLine.screenRows]
  rw [allRows_split h.getElem, ← h.row_eq, ← length_allRows, getElem?_append_right (by omega),
    Nat.add_sub_cancel_left, getElem?_append_left (by omega)]

theorem Layout.cellOffset_eq (h : sb.Layout)
    (hline : sb.lines[index]? = some line) (hlocal : localRow ≤ line.physicalRows) :
    cellOffset (allRows sb.lines) (totalRows (sb.lines.take index) + localRow) =
      ((sb.lines.take index).flatMap (·.cells)).length + line.rowStart localRow := by
  have hok := h.lines_ok line (mem_of_getElem? hline)
  have hlen : line.screenRows.length = line.physicalRows := by simp [LogicalLine.screenRows]
  have hbefore : (allRows (sb.lines.take index)).flatMap ScreenRow.cells =
      (sb.lines.take index).flatMap (·.cells) := by
    rw [allRows, flatMap_assoc]
    refine flatMap_congr fun l hl => ?_
    rw [(h.lines_ok l (mem_of_mem_take hl)).cells_eq, flatMap_def]
  have htake : (line.screenRows.take localRow).flatMap ScreenRow.cells =
      line.cells.take (line.rowStart localRow) := by
    rw [hok.take_rowStart hlocal, LogicalLine.screenRows, ← map_take, take_range,
      Nat.min_eq_left hlocal, flatMap_map, flatMap_def]
  rw [cellOffset, allRows_split hline, ← length_allRows, SoftWrap.offset_append_add, hbefore,
    SoftWrap.offset_append (by omega), SoftWrap.offset, htake, length_take,
    Nat.min_eq_left (hok.rowStart_le hlocal)]

theorem Layout.lineAndOffsetAt_of_lt (h : sb.Layout) (hrow : row < totalRows sb.lines)
    (column : Nat) :
    ∃ index line localRow, sb.lines[index]? = some line ∧ localRow < line.physicalRows ∧
      totalRows (sb.lines.take index) + localRow = row ∧ sb.lineAndOffsetAt row column =
        some (some { line.anchorForRow localRow column with lineIndexHint := index }) := by
  obtain ⟨index, line, localRow, heq, hat, hlocal⟩ := h.lineAt_of_lt hrow
  refine ⟨index, line, localRow, hat.getElem, hlocal, hat.row_eq, ?_⟩
  unfold Scrollback.lineAndOffsetAt
  rw [heq]
  simp only [some_bind]
  rw [if_pos hlocal]

theorem Layout.resolveAnchor_eq (h : sb.Layout) {anchor : LogicalAnchor}
    (hline : sb.lines[anchor.lineIndexHint]? = some line) (hid : line.id = anchor.lineId)
    (htaken : anchor.trimmedOffsetAtCapture = line.trimmedOffset)
    (hoffset : line.trimmedOffset ≤ anchor.offset) : ∃ localRow column, sb.resolveAnchor anchor =
        some (some (column, totalRows (sb.lines.take anchor.lineIndexHint) + localRow)) ∧
      localRow < line.physicalRows ∧
      line.rowStart localRow + column = min (anchor.offset - line.trimmedOffset) line.cells.length ∧
      line.rowStart localRow + column ≤ line.rowStart (localRow + 1) ∧
      (anchor.endBoundary = false → anchor.offset - line.trimmedOffset < line.cells.length →
        line.rowStart localRow + column < line.rowStart (localRow + 1)) := by
  have hok := h.lines_ok line (mem_of_getElem? hline)
  obtain ⟨localRow, column, hlocate, hspec⟩ := hok.locateOffset hoffset anchor.endBoundary
  refine ⟨localRow, column, ?_, hspec⟩
  have hindex : sb.anchorLineIndex anchor = some anchor.lineIndexHint := by
    rw [anchorLineIndex, hline]
    exact if_pos hid
  have hstart : sb.lineRowStarts[anchor.lineIndexHint]? =
      some (sb.contentRowOrigin + totalRows (sb.lines.take anchor.lineIndexHint)) := by
    rw [h.starts]
    exact getElem?_rowStarts _ _ (List.getElem?_eq_some_iff.mp hline).1
  unfold Scrollback.resolveAnchor
  rw [hindex]
  simp only [hline, bind_eq_bind, bind_some]
  rw [if_neg (by rw [htaken]; omega), hlocate]
  simp only [bind_some, hstart]
  rw [if_neg (by omega), Nat.add_sub_cancel_left]

def lineKey (line : LogicalLine) : Nat × List Cell × Nat := (line.id, line.cells, line.trimmedOffset)

/-- A position of one layout and where its anchor lies in another: in the same line, at the same place
in the stream of cells, and inside a row when it was inside one. -/
structure Resolved (sb sb' : Scrollback) (row column row' column' : Nat) : Prop where
  sameLine : ∃ index, totalRows (sb.lines.take index) ≤ row ∧ row < totalRows (sb.lines.take (index + 1)) ∧
    totalRows (sb'.lines.take index) ≤ row' ∧ row' < totalRows (sb'.lines.take (index + 1))
  offset_eq : cellOffset (allRows sb'.lines) row' + column' =
    min (cellOffset (allRows sb.lines) row + column) (cellOffset (allRows sb.lines) (row + 1))
  within : cellOffset (allRows sb'.lines) row' + column' ≤ cellOffset (allRows sb'.lines) (row' + 1)
  inside : cellOffset (allRows sb.lines) row + column < cellOffset (allRows sb.lines) (row + 1) →
    cellOffset (allRows sb'.lines) row' + column' < cellOffset (allRows sb'.lines) (row' + 1)

/-- An anchor taken in one layout is found in every layout of the same lines. -/
theorem Layout.resolved (h : sb.Layout) (h' : sb'.Layout)
    (hlines : sb'.lines.map lineKey = sb.lines.map lineKey)
    (hrow : row < totalRows sb.lines) (column : Nat) :
    ∃ anchor row' column', sb.lineAndOffsetAt row column = some (some anchor) ∧
      sb'.resolveAnchor anchor = some (some (column', row')) ∧
      Resolved sb sb' row column row' column' := by
  obtain ⟨index, line, localRow, hline, hlocal, rfl, hcapture⟩ := h.lineAndOffsetAt_of_lt hrow column
  obtain ⟨line', hline', hkey⟩ : ∃ line', sb'.lines[index]? = some line' ∧ lineKey line' = lineKey line := by
    have := congrArg (·[index]?) hlines
    simp only [getElem?_map, hline, map_some] at this
    exact map_eq_some_iff.mp this
  obtain ⟨hid, hcells, htrimmed⟩ : line'.id = line.id ∧ line'.cells = line.cells ∧
      line'.trimmedOffset = line.trimmedOffset := by simpa [lineKey] using hkey
  have hok := h.lines_ok line (mem_of_getElem? hline)
  have hmono := hok.rowStart_le_succ hlocal
  have hle : line.rowStart (localRow + 1) ≤ line.cells.length := hok.rowStart_le hlocal
  obtain ⟨anchor, hanchor, hhint, hanchorId, htaken, hoffset, hend⟩ :
      ∃ anchor : LogicalAnchor, { line.anchorForRow localRow column with lineIndexHint := index } = anchor ∧
        anchor.lineIndexHint = index ∧ anchor.lineId = line.id ∧
        anchor.trimmedOffsetAtCapture = line.trimmedOffset ∧ anchor.offset = line.trimmedOffset +
          min (line.rowStart localRow + column) (line.rowStart (localRow + 1)) ∧
        anchor.endBoundary = decide (line.rowStart (localRow + 1) ≤ line.rowStart localRow + column) := by
    refine ⟨_, rfl, rfl, rfl, rfl, ?_, ?_⟩
    · simp only [LogicalLine.anchorForRow, hok.rowEnds_getElem? hlocal, getD_some]
      omega
    · simp only [LogicalLine.anchorForRow, hok.rowEnds_getElem? hlocal, getD_some, decide_eq_decide]
      omega
  subst hhint
  obtain ⟨localRow', column', hresolve, hlocal', hplace, hwithin, hinside⟩ :=
    h'.resolveAnchor_eq hline' (hid.trans hanchorId.symm) (htaken.trans htrimmed.symm) (by omega)
  have hbefore : (sb'.lines.take anchor.lineIndexHint).flatMap (·.cells) =
      (sb.lines.take anchor.lineIndexHint).flatMap (·.cells) := by
    have := congrArg (fun keys => (keys.take anchor.lineIndexHint).flatMap fun key => key.2.1) hlines
    simpa [← map_take, flatMap_map, lineKey] using this
  have hoff := h.cellOffset_eq hline (Nat.le_of_lt hlocal)
  have hoffNext := h.cellOffset_eq hline hlocal
  have hoff' := h'.cellOffset_eq hline' (Nat.le_of_lt hlocal')
  have hoffNext' := h'.cellOffset_eq hline' hlocal'
  rw [hbefore] at hoff' hoffNext'
  rw [Nat.succ_eq_add_one, ← Nat.add_assoc] at hoffNext hoffNext'
  rw [hcells] at hplace hinside
  refine ⟨anchor, _, column', by rw [hcapture, hanchor], hresolve, ⟨anchor.lineIndexHint, ?_, ?_, ?_, ?_⟩, ?_, ?_, ?_⟩
  · omega
  · rw [totalRows_take_succ hline]
    omega
  · omega
  · rw [totalRows_take_succ hline']
    omega
  · omega
  · omega
  · intro hin
    have := hinside (by rw [hend]; simp only [decide_eq_false_iff_not]; omega) (by omega)
    omega

end Scrollback

end FesTerm
