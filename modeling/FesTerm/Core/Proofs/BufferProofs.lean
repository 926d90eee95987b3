import FesTerm.Core.Buffer
import FesTerm.Core.Proofs.ScreenProofs
import FesTerm.Core.Proofs.HistoryRecoveryProofs
import FesTerm.Core.Proofs.HistoryAnchorProofs

/-!
# Buffers between operations

What holds of a screen buffer and of the history between two operations of the terminal, and that the
two ways to resize a buffer keep it. A buffer is `Sound` when its grid is in order and its cursors and
margins lie inside it; it is `Settled` when the pending wrap and the grapheme anchor agree with the
cursor, which an operation may break on its way.

`Reflowing` names the intermediate results of a reflow.
-/

namespace FesTerm

open Checked List

variable [Platform]

/-! ## The history -/

/-- A row of the history. -/
structure ScreenRow.Retained (promise : Promise) (columns : Nat) (row : ScreenRow) : Prop where
  text : ∀ cell ∈ row.cells, cell.TextOk
  fits : row.cells.length ≤ columns
  pairs : promise.pairs = true → Pairs row.cells

omit [Platform] in
theorem ScreenRow.Fits.retained {promise : Promise} {columns : Nat} {row : ScreenRow}
    (h : row.Fits promise columns) : row.Retained promise columns :=
  ⟨h.text, h.length_le, h.pairs⟩

omit [Platform] in
theorem ScreenRow.Retained.ok {promise : Promise} {columns : Nat} {row : ScreenRow}
    (h : row.Retained promise columns) (hpairs : promise.pairs = true) : RowOk columns row.cells :=
  ⟨h.pairs hpairs, h.fits, h.text⟩

namespace Scrollback

/-- The history below a screen of the given width. -/
structure Good (promise : Promise) (columns : Nat) (sb : Scrollback) : Prop extends Inv sb where
  rows : ∀ row ∈ allRows sb.lines, row.Retained promise columns

variable {promise : Promise} {columns : Nat} {sb sb' : Scrollback}

theorem EnforcedTo.mem_allRows (h : sb.Layout) (he : EnforcedTo sb sb') {row : ScreenRow}
    (hr : row ∈ allRows sb'.lines) : row ∈ allRows sb.lines := by
  obtain ⟨dropped, hdrop⟩ := he.allRows_suffix h
  rw [hdrop]
  exact mem_append_right _ hr

theorem Pushed.mem_allRows (h : sb.Inv) {row r : ScreenRow} (hp : Pushed sb row sb')
    (hr : r ∈ allRows sb'.lines) : r ∈ allRows sb.lines ∨ r = row := by
  cases hp with
  | unretained hzero => exact .inl hr
  | grown before line nextId active hlimit ho mid he =>
    have hmid : r ∈ allRows mid.lines := by
      split at hr
      · exact hr
      · exact hr
    have := he.mem_allRows (ho.grow_layout h row) hmid
    rw [ho.allRows_grow h] at this
    simpa using this

theorem good_new (limitBytes : ByteLimit) : (new limitBytes).Good promise columns :=
  ⟨inv_new limitBytes, by simp [new, allRows]⟩

theorem good_clear : sb.clear.Good promise columns := ⟨sb.clear_inv, by simp [clear, allRows]⟩

theorem Good.setLimitBytes (h : sb.Good promise columns) (limitBytes : ByteLimit) :
    ∃ sb', sb.setLimitBytes limitBytes = some sb' ∧ sb'.Good promise columns ∧
      EnforcedTo { sb with limitBytes := limitBytes } sb' := by
  obtain ⟨sb', heq, he, hinv⟩ := h.toInv.setLimitBytes limitBytes
  exact ⟨sb', heq, ⟨hinv, fun row hr => h.rows row (he.mem_allRows (h.withLimit limitBytes) hr)⟩, he⟩

theorem Good.pushRow (h : sb.Good promise columns) {row : ScreenRow} (hrow : row.Retained promise columns) :
    ∃ sb', sb.pushRow row = some sb' ∧ sb'.Good promise columns := by
  obtain ⟨sb', heq, hp⟩ := h.toInv.pushRow row
  refine ⟨sb', heq, (hp.kept h.toInv).1.inv, fun r hr => ?_⟩
  rcases hp.mem_allRows h.toInv hr with hr | rfl
  · exact h.rows r hr
  · exact hrow

theorem Good.pushRows (h : sb.Good promise columns) {rows : List ScreenRow}
    (hrows : ∀ row ∈ rows, row.Retained promise columns) :
    ∃ sb', sb.pushRows rows = some sb' ∧ sb'.Good promise columns := by
  induction rows generalizing sb with
  | nil => exact ⟨sb, rfl, h⟩
  | cons row rows ih =>
    obtain ⟨mid, heq, hmid⟩ := h.pushRow (hrows row (by simp))
    obtain ⟨sb', heq', hsb'⟩ := ih hmid fun r hr => hrows r (by simp [hr])
    refine ⟨sb', ?_, hsb'⟩
    rw [Scrollback.pushRows, foldlM_cons, heq]
    exact heq'

theorem reflow_retained {line : LogicalLine} (h : line.Ok) {old : Nat} (hcols : 2 ≤ columns)
    (hrows : ∀ row ∈ line.screenRows, row.Retained promise old) :
    ∀ row ∈ (line.reflow columns).screenRows, row.Retained promise columns := by
  intro row hr
  obtain ⟨i, hi, hcells⟩ := LogicalLine.mem_screenRows hr
  refine ⟨fun cell hc => ?_, ?_, fun hp =>
    (h.reflow_rows hcols (fun r hr => (hrows r hr).ok hp) row hr).pairs⟩
  rotate_left
  · rw [hcells]
    exact (h.reflow_row_length hcols hi).1
  have hmem : cell ∈ line.cells := by
    rw [hcells] at hc
    exact mem_of_mem_drop (mem_of_mem_take hc)
  obtain ⟨r, hr', hcell⟩ := h.mem_cells hmem
  exact (hrows r hr').text cell hcell

theorem Good.reflow {old : Nat} (h : sb.Good promise old) (hcols : 2 ≤ columns) :
    (sb.reflow columns).Good promise columns := by
  refine ⟨h.toInv.reflow columns, fun row hrow => ?_⟩
  rw [h.reflow_eq] at hrow
  obtain ⟨line', hline', hrow⟩ := mem_flatMap.mp hrow
  obtain ⟨line, hline, rfl⟩ := List.mem_map.mp hline'
  exact reflow_retained (h.lines_ok line hline) hcols
    (fun r hr => h.rows r (mem_flatMap.mpr ⟨line, hline, hr⟩)) row hrow

theorem Good.splitOffTail (h : sb.Good promise columns) (n : Nat) :
    ∃ sb' removed, sb.splitOffTail n = some (sb', removed) ∧ sb'.Good promise columns ∧
      ∀ row ∈ removed, row.Retained promise columns := by
  obtain ⟨sb', mid, mid', removed, heq, hs, he, rfl, hinv⟩ := h.toInv.splitOffTail n
  have hall : ∀ row ∈ allRows mid.lines ++ removed, row.Retained promise columns := by
    rw [← hs.rows]
    exact h.rows
  exact ⟨_, removed, heq,
    ⟨hinv, fun row hr => hall row (mem_append_left _ (he.mem_allRows hs.layout hr))⟩,
    fun row hr => hall row (mem_append_right _ hr)⟩

end Scrollback

/-! ## Buffers -/

namespace BufferState

/-- The grid is in order, and cursors and margins lie inside it. -/
structure Sound (promise : Promise) (dimensions : Dimensions) (buffer : BufferState) : Prop where
  screen : buffer.screen.Good promise
  dims : buffer.screen.dimensions = dimensions
  cursor : buffer.cursor.InGrid dimensions
  top_le : buffer.scrollTop ≤ buffer.scrollBottom
  bottom_lt : buffer.scrollBottom < dimensions.rows
  left_lt : buffer.scrollLeft < buffer.scrollRight
  right_lt : buffer.scrollRight < dimensions.columns
  anchor : ∀ anchor ∈ buffer.graphemeAnchor, anchor.InGrid dimensions
  decSaved : ∀ saved ∈ buffer.decSaved, saved.cursor.InGrid dimensions
  ansiSaved : ∀ saved ∈ buffer.ansiSaved, saved.cursor.InGrid dimensions

/-- The pending wrap and the grapheme anchor agree with the cursor. -/
structure Settled (promise : Promise) (dimensions : Dimensions) (buffer : BufferState) : Prop where
  wrap : promise.wraps = true → buffer.pendingWrap = true →
    buffer.cursor.column + 1 = dimensions.columns
  anchor_le : ∀ anchor ∈ buffer.graphemeAnchor, anchor.column ≤ buffer.cursor.column

structure Good (promise : Promise) (dimensions : Dimensions) (buffer : BufferState) : Prop
    extends Sound promise dimensions buffer, Settled promise dimensions buffer

variable {promise : Promise} {dimensions old : Dimensions} {buffer buffer' : BufferState}

section

omit [Platform]

theorem last_column (dimensions : Dimensions) : dimensions.columns - 1 < dimensions.columns := by
  have := dimensions.two_le_columns
  omega

theorem last_row (dimensions : Dimensions) : dimensions.rows - 1 < dimensions.rows := by
  have := dimensions.one_le_rows
  omega

theorem origin_inGrid (dimensions : Dimensions) : Cursor.InGrid ⟨0, 0⟩ dimensions := by
  have := last_column dimensions
  have := last_row dimensions
  exact ⟨by simp only; omega, by simp only; omega⟩

theorem clampCursor_inGrid (cursor : Cursor) (dimensions : Dimensions) :
    (clampCursor cursor dimensions).InGrid dimensions := by
  have := last_column dimensions
  have := last_row dimensions
  exact ⟨by simp only [clampCursor]; omega, by simp only [clampCursor]; omega⟩

theorem settled_of_none (hwrap : buffer.pendingWrap = false) (hanchor : buffer.graphemeAnchor = none) :
    buffer.Settled promise dimensions where
  wrap _ h := by rw [hwrap] at h; cases h
  anchor_le anchor h := by rw [hanchor] at h; cases h

theorem rest_good {screen : Screen} (h : screen.Good promise) (hd : screen.dimensions = dimensions) :
    Good promise dimensions {
      screen := screen
      cursor := ⟨0, 0⟩
      scrollTop := 0
      scrollBottom := dimensions.rows - 1
      scrollLeft := 0
      scrollRight := dimensions.columns - 1
      pendingWrap := false
      graphemeAnchor := none
      decSaved := none
      ansiSaved := none } where
  screen := h
  dims := hd
  cursor := origin_inGrid dimensions
  top_le := Nat.zero_le _
  bottom_lt := last_row dimensions
  left_lt := by
    have := dimensions.two_le_columns
    simp only
    omega
  right_lt := last_column dimensions
  anchor _ h := by cases h
  decSaved _ h := by cases h
  ansiSaved _ h := by cases h
  toSettled := settled_of_none rfl rfl

end

theorem new_good (dimensions : Dimensions) : (new dimensions).Good promise dimensions :=
  rest_good (Screen.new_good dimensions) rfl

theorem reset_good (h : buffer.Sound promise dimensions) : buffer.reset.Good promise dimensions := by
  have hk := Screen.clearAll_kept h.screen blankCell_fillOk
  have := rest_good hk.good (hk.dimensions.trans h.dims)
  rw [reset, h.dims]
  exact this

/-! ## Resizing -/

section

omit [Platform]

theorem resizedHorizontalMargins_lt (buffer : BufferState) (dimensions : Dimensions) :
    (buffer.resizedHorizontalMargins dimensions).1 < (buffer.resizedHorizontalMargins dimensions).2 ∧
      (buffer.resizedHorizontalMargins dimensions).2 < dimensions.columns := by
  have := dimensions.two_le_columns
  unfold resizedHorizontalMargins
  simp only
  split
  · simp only
    omega
  · simp only
    omega

theorem resizedVerticalMargins_le (buffer : BufferState) (dimensions : Dimensions) :
    (buffer.resizedVerticalMargins dimensions).1 ≤ (buffer.resizedVerticalMargins dimensions).2 ∧
      (buffer.resizedVerticalMargins dimensions).2 < dimensions.rows := by
  have := dimensions.one_le_rows
  unfold resizedVerticalMargins
  simp only
  split
  · simp only
    omega
  · simp only
    omega

theorem clamp_eq {value low high : Nat} (h : low ≤ high) :
    clamp value low high = some (max low (min value high)) := if_pos h

theorem savedRow_lt (originMode : Bool) {row top bottom rows : Nat} (hrow : row < rows)
    (htop : top ≤ bottom) (hbottom : bottom < rows) :
    Yields (savedRow originMode row top bottom) (· < rows) := by
  unfold savedRow
  split
  · exact ⟨_, clamp_eq htop, by omega⟩
  · exact .some hrow

end

/-- What a resize hands to `clamp_saved_states`: the saved cursors are still those of the old grid. -/
structure Unclamped (promise : Promise) (dimensions : Dimensions) (buffer : BufferState) : Prop where
  screen : buffer.screen.Good promise
  dims : buffer.screen.dimensions = dimensions
  cursor : buffer.cursor.InGrid dimensions
  top_le : buffer.scrollTop ≤ buffer.scrollBottom
  bottom_lt : buffer.scrollBottom < dimensions.rows
  left_lt : buffer.scrollLeft < buffer.scrollRight
  right_lt : buffer.scrollRight < dimensions.columns
  anchor : ∀ anchor ∈ buffer.graphemeAnchor, anchor.InGrid dimensions

section

omit [Platform]

theorem Unclamped.clampSavedStates (h : buffer.Unclamped promise dimensions) :
    ∃ decSaved ansiSaved, buffer.clampSavedStates dimensions =
        some { buffer with decSaved := decSaved, ansiSaved := ansiSaved } ∧
      Sound promise dimensions { buffer with decSaved := decSaved, ansiSaved := ansiSaved } := by
  have hansi : ∀ saved ∈ buffer.ansiSaved.map fun saved =>
      { saved with cursor := clampCursor saved.cursor dimensions }, saved.cursor.InGrid dimensions := by
    intro saved hs
    obtain ⟨before, -, rfl⟩ := Option.map_eq_some_iff.mp hs
    exact clampCursor_inGrid _ _
  have hsound : ∀ decSaved : Option SavedDecState, (∀ saved ∈ decSaved, saved.cursor.InGrid dimensions) →
      Sound promise dimensions { buffer with
        decSaved := decSaved
        ansiSaved := buffer.ansiSaved.map fun saved =>
          { saved with cursor := clampCursor saved.cursor dimensions } } := fun decSaved hdec =>
    ⟨h.screen, h.dims, h.cursor, h.top_le, h.bottom_lt, h.left_lt, h.right_lt, h.anchor, hdec, hansi⟩
  unfold BufferState.clampSavedStates
  cases hdec : buffer.decSaved with
  | none => exact ⟨none, _, rfl, hsound none (by simp)⟩
  | some saved =>
    have hgrid := clampCursor_inGrid saved.cursor dimensions
    obtain ⟨row, hrow, hlt⟩ := savedRow_lt saved.originMode hgrid.2 h.top_le h.bottom_lt
    simp only [hrow, some_bind]
    refine ⟨_, _, rfl, hsound _ fun saved' hs => ?_⟩
    cases hs
    exact ⟨hgrid.1, hlt⟩

theorem cell_total {screen : Screen} (h : screen.Shape) (column row : Nat) :
    ∃ cell, screen.cell column row = some cell := by
  unfold Screen.cell
  split
  · obtain ⟨line, hl⟩ := h.line_some row
    exact ⟨line.cells[column]?, by rw [hl]; rfl⟩
  · exact ⟨none, rfl⟩

theorem survives_inGrid (h : buffer.screen.Shape) (anchor : Cursor) (dimensions : Dimensions) :
    ∃ survives, buffer.graphemeAnchorSurvivesResize anchor dimensions = some survives ∧
      (survives = true → anchor.InGrid dimensions) := by
  unfold graphemeAnchorSurvivesResize
  by_cases hout : anchor.column ≥ dimensions.columns ∨ anchor.row ≥ dimensions.rows
  · rw [if_pos hout]
    exact ⟨false, rfl, by simp⟩
  · rw [if_neg hout]
    have hin : anchor.InGrid dimensions := ⟨by omega, by omega⟩
    obtain ⟨cell, hcell⟩ := cell_total h anchor.column anchor.row
    obtain ⟨next, hnext⟩ := cell_total h (anchor.column + 1) anchor.row
    rw [hcell]
    simp only [some_bind, hnext]
    cases cell with
    | none => exact ⟨false, rfl, by simp⟩
    | some cell =>
      simp only
      cases cell.width with
      | single => exact ⟨true, rfl, fun _ => hin⟩
      | continuation => exact ⟨false, rfl, by simp⟩
      | double =>
        simp only
        split
        · exact ⟨_, rfl, fun _ => hin⟩
        · exact ⟨false, rfl, by simp⟩

theorem resizedAnchor_spec (h : buffer.screen.Shape) (dimensions : Dimensions) :
    ∃ anchor, buffer.resizedAnchor dimensions = some anchor ∧
      ∀ a ∈ anchor, a.InGrid dimensions ∧ buffer.graphemeAnchor = some a := by
  unfold resizedAnchor
  cases buffer.graphemeAnchor with
  | none => exact ⟨none, rfl, by simp⟩
  | some a =>
    obtain ⟨survives, heq, hs⟩ := survives_inGrid h a dimensions
    simp only [heq, some_bind]
    cases survives with
    | true => exact ⟨some a, rfl, fun b hb => Option.some.inj hb ▸ ⟨hs rfl, rfl⟩⟩
    | false => exact ⟨none, rfl, by simp⟩

end

theorem resized_good (h : buffer.Good promise old) (dimensions : Dimensions) :
    ∃ buffer', buffer.resized dimensions = some buffer' ∧ buffer'.Good promise dimensions ∧
      (buffer.graphemeAnchor = none → buffer'.graphemeAnchor = none) := by
  obtain ⟨screen, hscreen, hgood, hdims⟩ := Screen.resized_good h.screen dimensions
  obtain ⟨anchor, hanchor, hin⟩ := resizedAnchor_spec h.screen.toShape dimensions
  have hh := buffer.resizedHorizontalMargins_lt dimensions
  have hv := buffer.resizedVerticalMargins_le dimensions
  have hunclamped : Unclamped promise dimensions {
      screen := screen
      cursor := clampCursor buffer.cursor dimensions
      scrollTop := (buffer.resizedVerticalMargins dimensions).1
      scrollBottom := (buffer.resizedVerticalMargins dimensions).2
      scrollLeft := (buffer.resizedHorizontalMargins dimensions).1
      scrollRight := (buffer.resizedHorizontalMargins dimensions).2
      pendingWrap := buffer.pendingWrap &&
        (clampCursor buffer.cursor dimensions).column + 1 == dimensions.columns
      graphemeAnchor := anchor
      decSaved := buffer.decSaved
      ansiSaved := buffer.ansiSaved } :=
    ⟨hgood, hdims, clampCursor_inGrid _ _, hv.1, hv.2, hh.1, hh.2, fun a ha => (hin a ha).1⟩
  obtain ⟨decSaved, ansiSaved, heq, hsound⟩ := hunclamped.clampSavedStates
  refine ⟨_, ?_, ⟨hsound, ⟨fun _ hwrap => ?_, fun a ha => ?_⟩⟩, fun hnone => ?_⟩
  · unfold resized
    simp only [hanchor, hscreen, some_bind]
    exact heq
  · simp only [Bool.and_eq_true, beq_iff_eq] at hwrap
    exact hwrap.2
  · have hle := h.anchor_le a (hin a ha).2
    have := (hin a ha).1.1
    simp only [clampCursor]
    omega
  · cases anchor with
    | none => rfl
    | some a =>
      have := (hin a rfl).2
      rw [hnone] at this
      cases this

/-! ## Reflow -/

omit [Platform] in
theorem contentRows_spec (h : buffer.screen.Shape) (hcursor : buffer.cursor.row < buffer.screen.dimensions.rows) :
    ∃ contentRows, buffer.contentRows = some contentRows ∧ buffer.cursor.row < contentRows ∧
      contentRows ≤ buffer.screen.dimensions.rows := by
  have hline : ∀ row, ∃ line, buffer.screen.line row = some line := h.line_some
  choose line hl using hline
  have hcount : buffer.screen.occupiedRowCount = some (occupiedExtent
      ((List.range buffer.screen.dimensions.rows).map fun row =>
        decide (0 < (line row).occupiedColumns))) := by
    unfold Screen.occupiedRowCount
    rw [mapM_eq_map fun row _ => by rw [hl]; rfl]
    rfl
  refine ⟨_, by rw [contentRows, hcount]; rfl, ?_, ?_⟩
  · omega
  · omega

/-- The intermediate results of a reflow: the rows of the screen, the history with its limit lifted,
with the screen folded in, after the split and under its limit again, and what becomes of anchors. -/
structure Reflowing (buffer : BufferState) (dimensions : Dimensions) (scrollback : Scrollback) where
  contentRows : Nat
  screenRows : List ScreenRow
  lifted : Scrollback
  folded : Scrollback
  wrapped : Scrollback
  split : Scrollback
  kept : Scrollback
  tail : List ScreenRow
  screen : Screen
  cursorAnchor : Option LogicalAnchor
  anchor : ContentPosition → Option LogicalAnchor
  position : Option LogicalAnchor → Option (Nat × Nat)
  contentRows_eq : buffer.contentRows = some contentRows
  contentRows_pos : 1 ≤ contentRows
  screenRows_eq : buffer.screen.toRows = some screenRows
  lifted_eq : scrollback.setLimitBytes none = some lifted
  folded_eq : lifted.pushRows (screenRows.take contentRows) = some folded
  wrapped_eq : wrapped = if dimensions.columns ≠ buffer.screen.dimensions.columns
    then folded.reflow dimensions.columns else folded
  cursorAnchor_eq : folded.lineAndOffsetAt
    (scrollback.totalPhysicalRows + min buffer.cursor.row (contentRows - 1)) buffer.cursor.column =
      some cursorAnchor
  anchor_eq : ∀ position, positionAnchor scrollback folded position = some (anchor position)
  position_eq : ∀ anchor, resolve wrapped anchor = some (position anchor)
  split_eq : wrapped.splitOffTail dimensions.rows = some (split, tail)
  kept_eq : split.setLimitBytes scrollback.limitBytes = some kept
  screen_eq : Screen.fromRows dimensions tail = some screen

namespace Reflowing

variable {scrollback : Scrollback}

def evictedRows (r : Reflowing buffer dimensions scrollback) : Nat :=
  r.kept.contentRowOrigin - r.wrapped.contentRowOrigin

def cursor (r : Reflowing buffer dimensions scrollback) : Cursor :=
  reflowedCursor r.kept dimensions r.evictedRows (r.position r.cursorAnchor)

/-- Where a position of the old content lies afterwards. -/
def moved (r : Reflowing buffer dimensions scrollback) (position : ContentPosition) :
    Option ContentPosition :=
  (r.position (r.anchor position)).bind fun found =>
    rebase r.kept dimensions r.evictedRows found.1 found.2

/-- The buffer before the saved cursors are clamped. -/
def unclamped (r : Reflowing buffer dimensions scrollback) : BufferState where
  screen := r.screen
  cursor := r.cursor
  scrollTop := (buffer.resizedVerticalMargins dimensions).1
  scrollBottom := (buffer.resizedVerticalMargins dimensions).2
  scrollLeft := (buffer.resizedHorizontalMargins dimensions).1
  scrollRight := (buffer.resizedHorizontalMargins dimensions).2
  pendingWrap := buffer.pendingWrap && r.cursor.column + 1 == dimensions.columns
  graphemeAnchor := none
  decSaved := buffer.decSaved
  ansiSaved := buffer.ansiSaved

theorem reflowed_eq (r : Reflowing buffer dimensions scrollback) (positions : List ContentPosition) :
    buffer.reflowed dimensions scrollback positions =
      (r.unclamped.clampSavedStates dimensions).map fun resized =>
        (resized, r.kept, positions.map r.moved) := by
  have hanchors : positions.mapM (positionAnchor scrollback r.folded) = some (positions.map r.anchor) :=
    mapM_eq_map fun position _ => r.anchor_eq position
  have hresolved : (positions.map r.anchor).mapM (resolve r.wrapped) =
      some ((positions.map r.anchor).map r.position) := mapM_eq_map fun anchor _ => r.position_eq anchor
  unfold reflowed
  simp only [r.contentRows_eq, r.screenRows_eq, r.lifted_eq, r.folded_eq, sub_eq r.contentRows_pos,
    r.cursorAnchor_eq, hanchors, ← r.wrapped_eq, r.position_eq, hresolved, r.split_eq, r.kept_eq,
    r.screen_eq, some_bind, List.map_map]
  rw [Option.map_eq_bind]
  rfl

theorem cursor_inGrid (r : Reflowing buffer dimensions scrollback) : r.cursor.InGrid dimensions := by
  have := last_column dimensions
  have := last_row dimensions
  unfold cursor reflowedCursor
  split
  · split
    · exact ⟨by simp only; omega, by simp only; omega⟩
    · exact ⟨by simp only; omega, by simp only; omega⟩
  · exact ⟨by simp only; omega, by simp only; omega⟩

end Reflowing

theorem resolve_total {combined : Scrollback} (h : combined.Layout)
    (anchor : Option LogicalAnchor) : ∃ position, resolve combined anchor = some position := by
  cases anchor with
  | none => exact ⟨none, rfl⟩
  | some anchor => exact h.resolveAnchor anchor

theorem positionAnchor_total {scrollback combined : Scrollback} (h : combined.Layout)
    (position : ContentPosition) : ∃ anchor, positionAnchor scrollback combined position = some anchor := by
  unfold positionAnchor
  split
  · exact ⟨none, rfl⟩
  · split
    · exact h.lineAndOffsetAt _ _
    · exact ⟨none, rfl⟩

/-- A reflow of a sound buffer over a good history goes through. -/
theorem Sound.reflowing (h : buffer.Sound promise old) {scrollback : Scrollback}
    (hsb : scrollback.Good promise old.columns) (dimensions : Dimensions) :
    ∃ r : Reflowing buffer dimensions scrollback, r.screen.Good promise ∧
      r.screen.dimensions = dimensions ∧ r.kept.Good promise dimensions.columns := by
  obtain ⟨contentRows, hcontent, hcursor, -⟩ := contentRows_spec h.screen.toShape
    (by rw [h.dims]; exact h.cursor.2)
  obtain ⟨screenRows, hrows, hfits⟩ := Screen.toRow_mapM h.screen
    (List.range buffer.screen.dimensions.rows)
  obtain ⟨lifted, hlifted, hliftedGood, -⟩ := hsb.setLimitBytes none
  have hretained : ∀ row ∈ screenRows.take contentRows, row.Retained promise old.columns := fun row hr => by
    have := hfits row (mem_of_mem_take hr)
    rw [h.dims] at this
    exact this.retained
  obtain ⟨folded, hfolded, hfoldedGood⟩ := hliftedGood.pushRows hretained
  obtain ⟨cursorAnchor, hcursorAnchor⟩ := hfoldedGood.lineAndOffsetAt
    (scrollback.totalPhysicalRows + min buffer.cursor.row (contentRows - 1)) buffer.cursor.column
  have hwrapped : (if dimensions.columns ≠ buffer.screen.dimensions.columns
      then folded.reflow dimensions.columns else folded).Good promise dimensions.columns := by
    split
    · exact hfoldedGood.reflow dimensions.two_le_columns
    · next hsame =>
      rw [not_not.mp hsame, h.dims]
      exact hfoldedGood
  obtain ⟨split, tail, hsplit, hsplitGood, htail⟩ := hwrapped.splitOffTail dimensions.rows
  obtain ⟨kept, hkept, hkeptGood, -⟩ := hsplitGood.setLimitBytes scrollback.limitBytes
  obtain ⟨screen, hscreen, hgood, hdims⟩ := Screen.fromRows_good dimensions
    fun row hr => (htail row hr).text
  choose anchor hanchor using positionAnchor_total hfoldedGood.toLayout
  choose position hposition using resolve_total hwrapped.toLayout
  exact ⟨{
    contentRows, screenRows, lifted, folded, split, kept, tail, screen, cursorAnchor, anchor, position
    wrapped := _
    contentRows_eq := hcontent
    contentRows_pos := by omega
    screenRows_eq := hrows
    lifted_eq := hlifted
    folded_eq := hfolded
    wrapped_eq := rfl
    cursorAnchor_eq := hcursorAnchor
    anchor_eq := hanchor
    position_eq := hposition
    split_eq := hsplit
    kept_eq := hkept
    screen_eq := hscreen }, hgood, hdims, hkeptGood⟩

theorem Sound.reflowed (h : buffer.Sound promise old) {scrollback : Scrollback}
    (hsb : scrollback.Good promise old.columns) (dimensions : Dimensions)
    (positions : List ContentPosition) :
    ∃ buffer' kept moved, buffer.reflowed dimensions scrollback positions = some (buffer', kept, moved) ∧
      buffer'.Good promise dimensions ∧ buffer'.graphemeAnchor = none ∧
      kept.Good promise dimensions.columns := by
  obtain ⟨r, hscreen, hdims, hkept⟩ := h.reflowing hsb dimensions
  have hh := buffer.resizedHorizontalMargins_lt dimensions
  have hv := buffer.resizedVerticalMargins_le dimensions
  have hunclamped : r.unclamped.Unclamped promise dimensions :=
    ⟨hscreen, hdims, r.cursor_inGrid, hv.1, hv.2, hh.1, hh.2, nofun⟩
  obtain ⟨decSaved, ansiSaved, heq, hsound⟩ := hunclamped.clampSavedStates
  refine ⟨_, r.kept, positions.map r.moved, by rw [r.reflowed_eq, heq]; rfl,
    ⟨hsound, ⟨fun _ hwrap => ?_, nofun⟩⟩, rfl, hkept⟩
  simp only [Reflowing.unclamped, Bool.and_eq_true, beq_iff_eq] at hwrap
  exact hwrap.2

/-! ## Recovery validation -/

section

omit [Platform]

theorem validateCursor_ok {cursor : Cursor} (h : cursor.InGrid dimensions) (label : String) :
    validateCursor cursor dimensions label = .ok () := by
  have := h.1
  have := h.2
  exact if_neg (by omega)

theorem validateOptionalCursor_ok {cursor : Option Cursor} (h : ∀ c ∈ cursor, c.InGrid dimensions)
    (label : String) : validateOptionalCursor cursor dimensions label = .ok () := by
  cases cursor with
  | none => rfl
  | some cursor => exact validateCursor_ok (h cursor rfl) label

theorem validateScrollRegion_ok {start stop limit : Nat} (hle : start ≤ stop) (hlt : stop < limit)
    (label : String) : validateScrollRegion start stop limit label = .ok () := if_neg (by omega)

theorem Good.validate (h : buffer.Good promise dimensions) (hpairs : promise.pairs = true)
    (hwraps : promise.wraps = true) : buffer.validateRecoveryState = some (.ok ()) := by
  have hwrap : (buffer.pendingWrap && buffer.cursor.column + 1 != buffer.screen.dimensions.columns) =
      false := by
    rw [h.dims]
    cases hpending : buffer.pendingWrap with
    | false => rfl
    | true => simp [h.wrap hwraps hpending]
  unfold BufferState.validateRecoveryState
  rw [h.screen.validate hpairs]
  simp only [Option.pure_def, some_bind, hwrap, Bool.false_eq_true, if_false]
  rw [h.dims, validateCursor_ok h.cursor, validateScrollRegion_ok h.top_le h.bottom_lt,
    validateScrollRegion_ok (Nat.le_of_lt h.left_lt) h.right_lt]
  rw [validateOptionalCursor_ok h.anchor, validateOptionalCursor_ok fun cursor hc => ?_,
    validateOptionalCursor_ok fun cursor hc => ?_]
  · rfl
  · obtain ⟨saved, hs, rfl⟩ := Option.map_eq_some_iff.mp hc
    exact h.ansiSaved saved hs
  · obtain ⟨saved, hs, rfl⟩ := Option.map_eq_some_iff.mp hc
    exact h.decSaved saved hs

end

end BufferState

end FesTerm
