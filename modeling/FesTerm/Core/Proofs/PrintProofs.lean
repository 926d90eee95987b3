import FesTerm.Core.Proofs.ControlProofs

/-!
# Printing

Printing a character extends the anchored cluster or writes a new one, wraps before it when a wrap is
pending, and moves a cluster that became too wide to the next row. It never fails, and it arms the
pending wrap where `landing` says the cluster goes. The cursor's view is followed exactly through the
steps, since the wrap limit is computed at one of them and used at another.
-/

namespace FesTerm

open Checked List Option

namespace View

def geometry (view : View) (columns : Nat) : Nat × Nat :=
  Terminal.geometryAt (view.margins columns) columns view.column

/-- The view after a pending wrap has been taken. -/
def unwrapped (view : View) (columns : Nat) : View :=
  if view.pendingWrap ∧ view.modes.autoWrap then
    { view with column := (view.geometry columns).2, pendingWrap := false }
  else view

end View

namespace Terminal

variable [Platform]

variable {promise : Promise} {base terminal terminal' : Terminal} {P : View → Prop}
  {buffer : BufferState} {seen : View}

abbrev SeenAt (promise : Promise) (base : Terminal) (seen : View) : Terminal → Prop :=
  At promise base (· = seen)

abbrev SettledAt (promise : Promise) (base : Terminal) : Terminal → Prop :=
  At promise base (View.Settled promise base.dimensions)

omit [Platform] in
theorem wrapGeometry_eq (hb : terminal.activeBuffer = some buffer) :
    terminal.wrapGeometry = some (geometryAt ((terminal.view buffer).margins terminal.dimensions.columns)
      terminal.dimensions.columns buffer.cursor.column) := by
  unfold wrapGeometry geometryAt
  simp only [cursorWithinMargins_eq hb, horizontalMargins_eq hb, some_bind,
    Bool.and_eq_true, decide_eq_true_eq]
  split <;> rfl

/-- A wrap limit inside the grid, right of the column and at least two columns past the home. -/
structure GeometryOk (columns column : Nat) (geometry : Nat × Nat) : Prop where
  limit_le : geometry.1 ≤ columns
  column_lt : column < geometry.1
  home_le : geometry.2 + 2 ≤ geometry.1
  last : column + 1 = columns → geometry.1 = columns

variable {columns : Nat}

omit [Platform] in
theorem geometryAt_ok {margins : ColumnSpan} {column : Nat} (hlt : margins.left < margins.right)
    (hright : margins.right < columns) (hcolumn : column < columns) :
    GeometryOk columns column (geometryAt margins columns column) := by
  unfold geometryAt
  split
  · exact ⟨by simp only; omega, by simp only; omega, by simp only; omega, fun _ => by simp only; omega⟩
  · exact ⟨by simp only; omega, by simp only; omega, by simp only; omega, fun _ => rfl⟩

theorem SeenAt.geometry (h : SeenAt promise base seen terminal) :
    terminal.wrapGeometry = some (seen.geometry base.dimensions.columns) ∧
      GeometryOk base.dimensions.columns seen.column (seen.geometry base.dimensions.columns) ∧
      (seen.margins base.dimensions.columns).left < (seen.margins base.dimensions.columns).right ∧
      (seen.margins base.dimensions.columns).right < base.dimensions.columns := by
  have hd := h.dimensions
  obtain ⟨buffer, hb, hs, rfl⟩ := h.active
  obtain ⟨hlt, hright⟩ := margins_bounds terminal hs
  refine ⟨?_, geometryAt_ok hlt hright hs.cursor.1, hlt, hright⟩
  rw [wrapGeometry_eq hb, hd]
  rfl

variable {dimensions : Dimensions} {position anchor : Cursor} {cell : Cell} {character : Char} {width wrapLimit : Nat}
  {autoWrap : Bool}

omit [Platform] in
theorem cell_spec (hs : buffer.Sound promise dimensions) (hin : position.InGrid dimensions) :
    ∃ line cell, buffer.screen.line position.row = some line ∧
      line.cells[position.column]? = some cell ∧
      buffer.screen.cell position.column position.row = some (some cell) ∧ cell.TextOk := by
  obtain ⟨line, hl⟩ := hs.screen.line_some position.row
  have hg := hs.screen.line_good hl
  obtain ⟨cell, occupied, he, hok⟩ := hg.toLoose.entry_some (i := position.column)
    (by rw [hs.dims]; exact hin.1)
  have hcell : line.cells[position.column]? = some cell := congrArg Prod.fst he
  refine ⟨line, cell, hl, hcell, ?_, hok.text⟩
  unfold Screen.cell
  rw [hs.dims, if_pos (show _ ∧ _ from hin), hl]
  simp only [some_bind, hcell]

omit [Platform] in
theorem utf8Len_append (text : List Char) (character : Char) :
    utf8Len (text ++ [character]) = utf8Len text + character.utf8Size := by
  simp [utf8Len]

variable {text : List Char}

theorem withText_textOk (h : cell.TextOk)
    (hlen : utf8Len text ≤ maxGraphemeBytes) (hfeed : '\n' ∉ text) : (withText cell text).TextOk :=
  textOk_of_short h.len_le hlen rfl hfeed

omit [Platform] in
theorem textOk_withWidth (h : cell.TextOk) (width : CellWidth) :
    { cell with width := width }.TextOk :=
  ⟨⟨h.len_le, h.len_le_capacity, h.capacity_le⟩, h.lineFeed⟩

theorem replacement_textOk (h : cell.TextOk) : { withText cell [replacementCharacter] with width :=.single }.TextOk :=
  textOk_withWidth (withText_textOk h (show utf8Len [replacementCharacter] ≤ maxGraphemeBytes by decide)
    (show '\n' ∉ [replacementCharacter] by decide)) _

omit [Platform] in
theorem utf8Len_single (character : Char) : utf8Len [character] ≤ maxGraphemeBytes := by
  have := character.utf8Size_le_four
  simp only [utf8Len, map_cons, map_nil, sum_cons, sum_nil, maxGraphemeBytes]
  omega

theorem printedCell_textOk (terminal : Terminal) (hfeed : character ≠ '\n') (width : Nat) :
    (terminal.printedCell character width).TextOk :=
  textOk_of_short (by decide) (utf8Len_single character) rfl
    fun hmem => hfeed (mem_singleton.mp hmem).symm

theorem lineFeed_ne_of_width (h : (Platform.charWidth character).getD 0 ≠ 0) : character ≠ '\n' := by
  rintro rfl
  rw [Platform.control_width '\n' (by decide)] at h
  exact h rfl

omit [Platform] in
theorem placeCursor_settled (hs : buffer.Sound promise dimensions) (hin : position.InGrid dimensions)
    (hlimit : wrapLimit ≤ dimensions.columns) (hanchor : ∀ anchor ∈ buffer.graphemeAnchor, anchor = position)
    (hwrap : promise.wraps = true → autoWrap = true →
      landsWell dimensions.columns (position.column, width, wrapLimit) = true) :
    (placeCursorAfterCluster buffer position width wrapLimit autoWrap).Sound promise dimensions ∧
      (terminal.view (placeCursorAfterCluster buffer position width wrapLimit autoWrap)).Settled promise
        dimensions := by
  unfold placeCursorAfterCluster
  by_cases hge : position.column + width ≥ wrapLimit
  · rw [if_pos hge]
    refine ⟨{ hs with cursor := hin }, fun hp ha => ?_, fun anchor ha => ?_⟩
    · have := hwrap hp ha
      simp only [landsWell, Bool.or_eq_true, decide_eq_true_eq] at this
      rcases this with hlt | hlast
      · omega
      · exact hlast
    · rw [hanchor anchor ha]
      exact le_rfl
  · rw [if_neg hge]
    refine ⟨{ hs with cursor := ⟨by simp only; omega, hin.2⟩ },
      ⟨fun _ ha => absurd ha Bool.false_ne_true, fun anchor ha => ?_⟩⟩
    rw [hanchor anchor ha]
    exact Nat.le_add_right _ _

theorem At.placeCluster (h : At promise base P terminal) {anchor : Option Cursor}
    (hin : position.InGrid base.dimensions)
    (hfit : position.column + cell.width.columns ≤ base.dimensions.columns)
    (hcw : cell.width ≠ .continuation) (htext : cell.TextOk)
    (hlimit : wrapLimit ≤ base.dimensions.columns) (hanchor : ∀ a ∈ anchor, a = position)
    (hwrap : promise.wraps = true → autoWrap = true →
      landsWell base.dimensions.columns (position.column, width, wrapLimit) = true) :
    Yields (terminal.placeCluster position cell anchor width wrapLimit autoWrap)
      (SettledAt promise base) :=
  h.modifyActive fun buffer _ hs _ => by
    obtain ⟨screen, heq, hk⟩ := Screen.replaceCluster_kept hs.screen
      (by rw [hs.dims]; exact hin.2)
      (by rw [hs.dims]; exact hfit) hcw htext
    have hsound : BufferState.Sound promise base.dimensions
        { buffer with screen := screen, graphemeAnchor := anchor } :=
      { sound_withScreen hs hk with anchor := fun a ha => hanchor a ha ▸ hin }
    refine ⟨_, by simp only [heq, some_bind], placeCursor_settled hsound hin hlimit hanchor hwrap⟩

theorem At.spendHyperlinkCredit (h : At promise base P terminal) :
    At promise base P terminal.spendHyperlinkCredit := by
  unfold Terminal.spendHyperlinkCredit
  split
  · next hpos =>
    refine h.samePen ⟨rfl, rfl, rfl, rfl, fun hold hnone => ?_, rfl, rfl, rfl, rfl⟩ rfl
    by_cases hlast : terminal.currentHyperlinkCellsRemaining - 1 = 0
    · exact hlast
    · simp only [if_neg hlast] at hnone
      have := hold hnone
      omega
  · exact h

theorem printedCell_columns (terminal : Terminal) (character : Char) (hwidth : width = 1 ∨ width = 2) :
    (terminal.printedCell character width).width.columns = width ∧
      (terminal.printedCell character width).width ≠ .continuation := by
  rcases hwidth with rfl | rfl
  · exact ⟨rfl, by simp [printedCell]⟩
  · exact ⟨rfl, by simp [printedCell]⟩

theorem SeenAt.makeRoom (h : SeenAt promise base seen terminal) (width : Nat) (hpos : 1 ≤ wrapLimit) :
    Yields (terminal.makeRoom width wrapLimit) (SeenAt promise base seen) := by
  unfold Terminal.makeRoom
  split
  · simp only [sub_eq hpos, some_bind]
    refine h.modifyScreen fun buffer hb hs => ?_
    exact Screen.insertCharacters_kept hs.screen _ (by rw [hs.dims, cursor_eq hb]; exact hs.cursor.2) _
      terminal.eraseCell_fillOk _
  · exact .some h

theorem SeenAt.printCluster (h : SeenAt promise base seen terminal)
    (hfeed : character ≠ '\n') (hwidth : width = 1 ∨ width = 2) (hlimit : wrapLimit ≤ base.dimensions.columns)
    (hpos : 1 ≤ wrapLimit) (hfit : seen.column + width ≤ base.dimensions.columns)
    (hwrap : promise.wraps = true → seen.modes.autoWrap = true →
      landsWell base.dimensions.columns (seen.column, width, wrapLimit) = true) :
    Yields (terminal.printCluster character width wrapLimit) (SettledAt promise base) := by
  refine (h.makeRoom width hpos).bind fun terminal ht => ?_
  obtain ⟨buffer, hb, hs, hseen⟩ := ht.active
  obtain ⟨hcolumns, hcw⟩ := terminal.printedCell_columns character hwidth
  have hcolumn : buffer.cursor.column = seen.column := by rw [← hseen]; rfl
  have hmodes : terminal.modes = seen.modes := by rw [← hseen]; rfl
  refine (ht.spendHyperlinkCredit).placeCluster ?_ ?_ hcw (terminal.printedCell_textOk hfeed width)
    hlimit (fun a ha => (some.inj ha).symm) ?_
  · rw [cursor_eq hb]
    exact hs.cursor
  · rw [cursor_eq hb, hcolumns, hcolumn]
    exact hfit
  · rw [cursor_eq hb, hcolumn, hmodes]
    exact hwrap

theorem SeenAt.wrapCursor (h : SeenAt promise base seen terminal) {home : Nat}
    (hhome : home < base.dimensions.columns) :
    Yields (terminal.wrapCursor home)
      (SeenAt promise base { seen with column := home, pendingWrap := false }) :=
  h.modifyActive fun buffer _ hs hp => by
    obtain ⟨screen, heq, hk⟩ := Screen.setSoftWrapped_kept hs.screen buffer.cursor.row true
    have hsound := sound_withScreen hs hk
    exact ⟨{ buffer with screen := screen, cursor := ⟨home, buffer.cursor.row⟩, pendingWrap := false },
      by rw [Screen.markSoftWrapped, heq]; rfl,
      { hsound with cursor := ⟨hhome, hs.cursor.2⟩ }, by rw [← hp]; rfl⟩

/-- The anchored cluster that grows too wide for its row moves to the next one. -/
theorem SeenAt.rewrapCluster (h : SeenAt promise base seen terminal)
    (hin : anchor.InGrid base.dimensions) (hcell : cell.width = .double)
    (htext : cell.TextOk) {geometry : Nat × Nat}
    (hgeometry : GeometryOk base.dimensions.columns seen.column geometry)
    (hwrap : promise.wraps = true → seen.modes.autoWrap = true →
      landsWell base.dimensions.columns (geometry.2, 2, geometry.1) = true) :
    Yields (terminal.rewrapCluster anchor cell 2 geometry.1 geometry.2) (SettledAt promise base) := by
  have hd := h.dimensions
  have hlinear := (linear_le hin).1
  have hlimit := hgeometry.limit_le
  have hhome := hgeometry.home_le
  have hmoved : Yields (terminal.modifyActive fun buffer => do
      let screen ← buffer.screen.fillLinear (anchor.row * terminal.dimensions.columns + anchor.column)
        (anchor.row * terminal.dimensions.columns + anchor.column + 1) terminal.eraseCell
      let screen ← screen.markSoftWrapped anchor.row
      some { buffer with
        screen := screen
        cursor := ⟨geometry.2, buffer.cursor.row⟩
        pendingWrap := false })
      (SeenAt promise base { seen with column := geometry.2, pendingWrap := false }) := by
    rw [hd]
    refine h.modifyActive fun buffer _ hs hp => ?_
    have hstop : anchor.row * base.dimensions.columns + anchor.column + 1 ≤
        buffer.screen.dimensions.columns * buffer.screen.dimensions.rows := by rw [hs.dims]; exact hlinear
    obtain ⟨screen1, h1, hk1⟩ := Screen.fillLinearWith_kept hs.screen
      (anchor.row * base.dimensions.columns + anchor.column) hstop terminal.eraseCell_fillOk false rfl
    obtain ⟨screen2, h2, hk2⟩ := Screen.setSoftWrapped_kept hk1.good anchor.row true
    have hsound := sound_withScreen hs (hk1.trans hk2)
    refine ⟨{ buffer with screen := screen2, cursor := ⟨geometry.2, buffer.cursor.row⟩, pendingWrap := false },
      ?_, { hsound with cursor := ⟨by simp only; omega, hs.cursor.2⟩ }, by rw [← hp]; rfl⟩
    simp only [Screen.fillLinear, h1, Screen.markSoftWrapped, h2, some_bind]
  unfold Terminal.rewrapCluster
  refine hmoved.bind fun moved hm => (At.index hm).bind fun next hn => ?_
  obtain ⟨buffer, hb, hs, hseen⟩ := hn.active
  have hcolumn : buffer.cursor.column = geometry.2 := congrArg View.column hseen
  have hmodes : next.modes = seen.modes := congrArg View.modes hseen
  refine hn.placeCluster ?_ ?_ (by rw [hcell]; simp) htext hlimit
    (fun a ha => (some.inj ha).symm) ?_
  · rw [cursor_eq hb]
    exact hs.cursor
  · rw [cursor_eq hb, hcolumn, hcell]
    simp only [CellWidth.columns]
    omega
  · rw [cursor_eq hb, hcolumn, hmodes]
    exact hwrap

theorem graphemeWidth_cases (h : graphemeWidth text ≠ 0) :
    graphemeWidth text = 1 ∨ graphemeWidth text = 2 := by
  have : graphemeWidth text ≤ 2 := Nat.min_le_right _ _
  omega

omit [Platform] in
theorem cellWidth_columns (h : width = 1 ∨ width = 2) :
    CellWidth.columns (if width = 2 then .double else .single) = width ∧
      (if width = 2 then CellWidth.double else .single) ≠ .continuation := by
  rcases h with rfl | rfl
  · exact ⟨rfl, by simp⟩
  · exact ⟨rfl, by simp⟩

variable {extended : Cell} {line : Line} {newWidth : Nat}

theorem rewriteCluster_kept (hs : buffer.Sound promise dimensions) (hin : anchor.InGrid dimensions)
    (hline : buffer.screen.line anchor.row = some line) (hcell : line.cells[anchor.column]? = some cell)
    (hcw : cell.isContinuation = false) (hwidth : newWidth = 1 ∨ newWidth = 2)
    (hextended : extended.width = if newWidth = 2 then .double else .single) (htext : extended.TextOk)
    (hfit : cell.width.columns ≠ newWidth → anchor.column + newWidth ≤ dimensions.columns) :
    Yields (rewriteCluster buffer.screen anchor extended cell.width.columns newWidth)
      (Screen.Kept promise buffer.screen) := by
  obtain ⟨hcolumns, hne⟩ := cellWidth_columns hwidth
  unfold rewriteCluster
  split
  · next hsame =>
    refine Screen.replaceCell_kept hs.screen (by rw [hs.dims]; exact hin.2) htext (fun line' hl' => ?_)
      (by rw [hs.dims]; exact hin.1)
    cases hline.symm.trans hl'
    rw [widthAt_of_getElem? hcell, hextended]
    congr 1
    rw [Cell.isContinuation] at hcw
    cases hw : cell.width with
    | single | double => rw [hw] at hsame; simp [← hsame, CellWidth.columns]
    | continuation => simp [hw] at hcw
  · next hdiff =>
    exact Screen.replaceCluster_kept hs.screen (by rw [hs.dims]; exact hin.2)
      (by rw [hs.dims, hextended, hcolumns]; exact hfit hdiff) (by rw [hextended]; exact hne) htext

theorem SeenAt.replaceAnchored (h : SeenAt promise base seen terminal)
    (hin : anchor.InGrid base.dimensions) (hle : anchor.column ≤ seen.column)
    (hsingle : cell.width = .single) (htext : cell.TextOk) : Yields (terminal.modifyActive fun buffer => do
      let screen ← buffer.screen.replaceCluster anchor.column anchor.row cell
      some { buffer with screen := screen, graphemeAnchor := some anchor, pendingWrap := false })
      (SettledAt promise base) :=
  h.modifyActive fun buffer _ hs hp => by
    obtain ⟨screen, heq, hk⟩ := Screen.replaceCluster_kept hs.screen
      (by rw [hs.dims]; exact hin.2)
      (by rw [hs.dims, hsingle]; exact hin.1) (by rw [hsingle]; simp) htext
    have hsound := sound_withScreen hs hk
    have hcolumn : buffer.cursor.column = seen.column := congrArg View.column hp
    refine ⟨{ buffer with screen := screen, graphemeAnchor := some anchor, pendingWrap := false },
      by simp only [heq, some_bind],
      { hsound with anchor := fun a ha => some.inj ha ▸ hin },
      fun _ ha => absurd ha Bool.false_ne_true, fun a ha => ?_⟩
    rw [← some.inj ha]
    exact Nat.le_trans hle (Nat.le_of_eq hcolumn.symm)

theorem SeenAt.rewriteAnchored (h : SeenAt promise base seen terminal)
    (hb : terminal.activeBuffer = some buffer) (hin : anchor.InGrid base.dimensions) {oldWidth : Nat}
    (hkept : Yields (rewriteCluster buffer.screen anchor extended oldWidth newWidth)
      (Screen.Kept promise buffer.screen)) (hlimit : wrapLimit ≤ base.dimensions.columns)
    (hwrap : promise.wraps = true → autoWrap = true →
      landsWell base.dimensions.columns (anchor.column, newWidth, wrapLimit) = true) :
    Yields (terminal.modifyActive fun buffer => do
      let screen ← rewriteCluster buffer.screen anchor extended oldWidth newWidth
      some (placeCursorAfterCluster { buffer with screen := screen, graphemeAnchor := some anchor }
        anchor newWidth wrapLimit autoWrap)) (SettledAt promise base) :=
  h.modifyActive fun buffer' hb' hs _ => by
    cases hb.symm.trans hb'
    obtain ⟨screen, heq, hk⟩ := hkept
    have hsound : BufferState.Sound promise base.dimensions
        { buffer with screen := screen, graphemeAnchor := some anchor } :=
      { sound_withScreen hs hk with anchor := fun a ha => some.inj ha ▸ hin }
    exact ⟨_, by simp only [heq, some_bind],
      placeCursor_settled hsound hin hlimit (fun a ha => (some.inj ha).symm) hwrap⟩

theorem SeenAt.extendCluster (h : SeenAt promise base seen terminal)
    (hset : seen.Settled promise base.dimensions) (hb : terminal.activeBuffer = some buffer)
    (hanchor : seen.anchor = some anchor)
    (hline : buffer.screen.line anchor.row = some line) (hcell : line.cells[anchor.column]? = some cell)
    (hcw : cell.isContinuation = false) (htext : cell.TextOk) (hfeed : character ≠ '\n')
    (hwrap : promise.wraps = true → seen.modes.autoWrap = true →
      (extensionLanding seen.modes.autoWrap (seen.geometry base.dimensions.columns) anchor cell
        character).all (landsWell base.dimensions.columns) = true) :
    Yields (terminal.extendCluster anchor cell character) (SettledAt promise base) := by
  obtain ⟨hgeometry, hok, -, -⟩ := h.geometry
  obtain ⟨buffer', hb', hs, hseen⟩ := h.active
  cases hb.symm.trans hb'
  have hin : anchor.InGrid base.dimensions := hs.anchor anchor (by rw [← hseen] at hanchor; exact hanchor)
  have hle := hset.anchor_le anchor hanchor
  have hmodes : terminal.modes = seen.modes := congrArg View.modes hseen
  have hcursor : seen.column < base.dimensions.columns := hseen ▸ hs.cursor.1
  unfold Terminal.extendCluster
  unfold extensionLanding at hwrap
  simp only [hgeometry, hmodes, some_bind]
  by_cases hlong : utf8Len cell.text + character.utf8Size > maxGraphemeBytes
  · rw [if_pos hlong]
    simp only [if_pos hlong, all_some] at hwrap
    exact h.placeCluster hin hin.1 (by simp) (replacement_textOk htext) hok.limit_le
      nofun hwrap
  rw [if_neg hlong]
  simp only [if_neg hlong] at hwrap
  have hext : (withText cell (cell.text ++ [character])).TextOk :=
    withText_textOk htext (by rw [utf8Len_append]; omega) fun hmem => by
      rcases mem_append.mp hmem with hmem | hmem
      · exact htext.lineFeed hmem
      · exact hfeed (mem_singleton.mp hmem).symm
  have hnew : graphemeWidth (withText cell (cell.text ++ [character])).text =
      graphemeWidth (cell.text ++ [character]) := rfl
  rw [hnew]
  by_cases hzero : graphemeWidth (cell.text ++ [character]) = 0
  · rw [if_pos hzero]
    exact .some (h.mono fun _ hv => hv ▸ hset)
  rw [if_neg hzero]
  simp only [if_neg hzero] at hwrap
  have hwidth := graphemeWidth_cases hzero
  generalize graphemeWidth (cell.text ++ [character]) = newWidth at hwrap hwidth ⊢
  by_cases hedge : cell.width.columns = 1 ∧ newWidth = 2 ∧
      anchor.column + 1 = (seen.geometry base.dimensions.columns).1
  · rw [if_pos hedge]
    simp only [if_pos hedge] at hwrap
    cases hauto : seen.modes.autoWrap with
    | false =>
      rw [if_pos (by simp)]
      exact h.replaceAnchored hin hle rfl (replacement_textOk (textOk_withWidth hext _))
    | true =>
      rw [if_neg (by simp)]
      simp only [hauto, if_true, all_some] at hwrap
      obtain ⟨-, rfl, -⟩ := hedge
      exact h.rewrapCluster hin rfl (textOk_withWidth hext _) hok fun hp _ => hwrap hp trivial
  · rw [if_neg hedge]
    simp only [if_neg hedge, all_some] at hwrap
    refine h.rewriteAnchored hb hin ?_ hok.limit_le hwrap
    refine rewriteCluster_kept hs hin hline hcell hcw hwidth rfl (textOk_withWidth hext _) fun hdiff => ?_
    have hlt := hin.1
    have hlast := hok.last
    rcases hwidth with rfl | rfl
    · exact hlt
    · have hold : cell.width.columns = 1 := by
        rw [Cell.isContinuation] at hcw
        cases hw : cell.width with
        | single => rfl
        | double => rw [hw] at hdiff; exact absurd rfl hdiff
        | continuation => simp [hw] at hcw
      -- an anchor in the last column would put the cursor and the wrap limit there too
      by_contra hbad
      exact hedge ⟨hold, rfl, by rw [hlast (by omega)]; omega⟩

omit [Platform] in
theorem all_of_landing {place : Option (Nat × Nat × Nat)} {column limit : Nat}
    (h : place.all (landsWell columns) = true) (hplace : place = some (column, width, limit)) :
    landsWell columns (column, width, limit) = true := by
  rw [hplace] at h
  exact h

/-- Extending is tried first; otherwise the terminal stays as it is. -/
theorem SeenAt.tryExtendGrapheme (h : SeenAt promise base seen terminal)
    (hset : seen.Settled promise base.dimensions) (hb : terminal.activeBuffer = some buffer)
    (character : Char)
    (hwrap : promise.wraps = true → seen.modes.autoWrap = true →
      (landing seen.modes.autoWrap (seen.margins base.dimensions.columns) base.dimensions.columns buffer
        character).all (landsWell base.dimensions.columns) = true) :
    Yields (terminal.tryExtendGrapheme character) fun result =>
      result.2 = true ∧ SettledAt promise base result.1 ∨
        result = (terminal, false) ∧ extensionTarget buffer character = some none := by
  obtain ⟨buffer', hb', hs, hseen⟩ := h.active
  cases hb.symm.trans hb'
  have hcolumn : buffer.cursor.column = seen.column := congrArg View.column hseen
  unfold Terminal.tryExtendGrapheme
  simp only [hb, bind_eq_bind, bind_some]
  cases hanchor : buffer.graphemeAnchor with
  | none =>
    have htarget : extensionTarget buffer character = some none := by rw [extensionTarget, hanchor]
    exact ⟨(terminal, false), by simp only [htarget, bind_some], .inr ⟨rfl, htarget⟩⟩
  | some anchor =>
    obtain ⟨line, cell, hline, hcell, hfound, htext⟩ := cell_spec hs (hs.anchor anchor hanchor)
    by_cases hstop : cell.isContinuation ∨ !extendsGrapheme cell.text character
    · have htarget : extensionTarget buffer character = some none := by
        simp only [extensionTarget, hanchor, hfound, some_bind, if_pos hstop]
      exact ⟨(terminal, false), by simp only [htarget, bind_some], .inr ⟨rfl, htarget⟩⟩
    · have htarget : extensionTarget buffer character = some (some (anchor, cell)) := by
        simp only [extensionTarget, hanchor, hfound, some_bind, if_neg hstop]
      have hcw : cell.isContinuation = false := by
        simpa using fun hc => hstop (.inl hc)
      have hseenAnchor : seen.anchor = some anchor := by rw [← hseen]; exact hanchor
      simp only [landing, htarget, hcolumn] at hwrap
      have hfeed : character ≠ '\n' := by
        rintro rfl
        exact hstop (.inr (by simp [extendsGrapheme, isAscii]))
      have hext := h.extendCluster hset hb hseenAnchor hline hcell hcw htext hfeed hwrap
      obtain ⟨terminal', heq, ht⟩ := hext
      exact ⟨(terminal', true), by simp only [htarget, bind_some, heq], .inl ⟨rfl, ht⟩⟩

theorem SeenAt.takePendingWrap (h : SeenAt promise base seen terminal) :
    Yields terminal.takePendingWrap (SeenAt promise base (seen.unwrapped base.dimensions.columns)) := by
  obtain ⟨hgeometry, hok, -, -⟩ := h.geometry
  obtain ⟨buffer, hb, hs, hseen⟩ := h.active
  have hpending : buffer.pendingWrap = seen.pendingWrap := congrArg View.pendingWrap hseen
  have hmodes : terminal.modes = seen.modes := congrArg View.modes hseen
  have hlimit := hok.limit_le
  have hhome := hok.home_le
  unfold Terminal.takePendingWrap View.unwrapped
  simp only [hb, hpending, hmodes, hgeometry, some_bind]
  split
  · exact (h.wrapCursor (by omega)).bind fun terminal ht => ht.index
  · exact .some h

variable {fallback : Terminal → Option Terminal}

/-- Writing a cluster at the cursor, on the next row when it does not fit the current one. -/
theorem SeenAt.printAt (h : SeenAt promise base seen terminal) (hfeed : character ≠ '\n') (hwidth : width ≠ 0)
    (hfallback : min width 2 = 2 → seen.modes.autoWrap = false →
      Yields (fallback terminal) (SettledAt promise base))
    (hwrap : promise.wraps = true → seen.modes.autoWrap = true →
      landsWell base.dimensions.columns
        (if min width 2 = 2 ∧ seen.column + 1 = (seen.geometry base.dimensions.columns).1 then
          ((seen.geometry base.dimensions.columns).2, 2, (seen.geometry base.dimensions.columns).1)
        else (seen.column, min width 2, (seen.geometry base.dimensions.columns).1)) = true) :
    Yields (terminal.printAt character width fallback) (SettledAt promise base) := by
  obtain ⟨hgeometry, hok, -, -⟩ := h.geometry
  obtain ⟨buffer, hb, hs, hseen⟩ := h.active
  have hcolumn : buffer.cursor.column = seen.column := congrArg View.column hseen
  have hmodes : terminal.modes = seen.modes := congrArg View.modes hseen
  have hlt : seen.column < base.dimensions.columns := hcolumn ▸ hs.cursor.1
  have hlimit := hok.limit_le
  have hhome := hok.home_le
  have hlast := hok.last
  unfold Terminal.printAt
  simp only [hgeometry, cursor_eq hb, hcolumn, hmodes, some_bind]
  by_cases hedge : min width 2 = 2 ∧ seen.column + 1 = (seen.geometry base.dimensions.columns).1
  · rw [if_pos hedge]
    rw [if_pos hedge] at hwrap
    cases hauto : seen.modes.autoWrap with
    | false =>
      rw [if_neg (by simp)]
      exact hfallback hedge.1 hauto
    | true =>
      rw [if_pos rfl]
      refine (h.wrapCursor (show (seen.geometry base.dimensions.columns).2 < _ by omega)).bind
        fun wrapped hw => (At.index hw).bind fun next hn => ?_
      rw [hedge.1]
      exact SeenAt.printCluster hn hfeed (.inr rfl) hlimit (by omega) (by simp only; omega)
        fun hp _ => hwrap hp hauto
  · rw [if_neg hedge]
    rw [if_neg hedge] at hwrap
    refine h.printCluster hfeed (by omega) hlimit (by omega) ?_ hwrap
    -- a wide cluster in the last column would meet the wrap limit
    by_contra hbad
    exact hedge ⟨by omega, by rw [hlast (by omega)]; omega⟩

theorem SeenAt.printWith (h : SeenAt promise base seen terminal)
    (hset : seen.Settled promise base.dimensions) (hb : terminal.activeBuffer = some buffer)
    (character : Char)
    (hfallback : min ((Platform.charWidth character).getD 0) 2 = 2 → seen.modes.autoWrap = false →
      ∀ terminal', SeenAt promise base seen terminal' → Yields (fallback terminal') (SettledAt promise base))
    (hwrap : promise.wraps = true → seen.modes.autoWrap = true →
      (landing seen.modes.autoWrap (seen.margins base.dimensions.columns) base.dimensions.columns buffer
        character).all (landsWell base.dimensions.columns) = true) :
    Yields (printWith fallback terminal character) (SettledAt promise base) := by
  obtain ⟨buffer', hb', -, hseen⟩ := h.active
  cases hb.symm.trans hb'
  have hcolumn : buffer.cursor.column = seen.column := congrArg View.column hseen
  have hpending : buffer.pendingWrap = seen.pendingWrap := congrArg View.pendingWrap hseen
  obtain ⟨⟨terminal', extended⟩, heq, hresult⟩ := h.tryExtendGrapheme hset hb character hwrap
  unfold Terminal.printWith
  simp only [heq, some_bind]
  rcases hresult with ⟨hext, ht⟩ | ⟨hsame, htarget⟩
  · simp only at hext
    rw [if_pos hext]
    exact .some ht
  obtain ⟨rfl, rfl⟩ := Prod.mk.inj hsame
  rw [if_neg Bool.false_ne_true]
  by_cases hzero : (Platform.charWidth character).getD 0 = 0
  · rw [if_pos hzero]
    exact At.clearGraphemeAnchor h fun _ hv =>
      ⟨fun hp hw => hset.wrap hp (hv ▸ hw) ▸ hv ▸ rfl, nofun⟩
  rw [if_neg hzero]
  have hmarked : SeenAt promise base seen { terminal' with lastGraphicCharacter := some character } :=
    h.samePen ⟨rfl, rfl, rfl, rfl, id, rfl, rfl, rfl, rfl⟩ rfl
  have hmargins : (seen.unwrapped base.dimensions.columns).margins base.dimensions.columns =
      seen.margins base.dimensions.columns := by
    unfold View.unwrapped
    split <;> rfl
  have hautoWrap : (seen.unwrapped base.dimensions.columns).modes = seen.modes := by
    unfold View.unwrapped
    split <;> rfl
  refine hmarked.takePendingWrap.bind fun next hn =>
    hn.printAt (lineFeed_ne_of_width hzero) hzero (fun hwide hauto => ?_)
    fun hp hauto => ?_
  · rw [hautoWrap] at hauto
    refine hfallback hwide hauto next ?_
    rw [View.unwrapped, if_neg (by simp [hauto])] at hn
    exact hn
  · rw [hautoWrap] at hauto
    have hland := hwrap hp hauto
    simp only [landing, htarget, freshLanding] at hland
    rw [if_neg (by omega)] at hland
    have hstart : (if buffer.pendingWrap = true ∧ seen.modes.autoWrap = true then
        (geometryAt (seen.margins base.dimensions.columns) base.dimensions.columns buffer.cursor.column).2
        else buffer.cursor.column) = (seen.unwrapped base.dimensions.columns).column := by
      rw [hpending, hcolumn]
      unfold View.unwrapped
      split <;> rfl
    have hgeometry : geometryAt (seen.margins base.dimensions.columns) base.dimensions.columns
        (seen.unwrapped base.dimensions.columns).column =
          (seen.unwrapped base.dimensions.columns).geometry base.dimensions.columns := by
      rw [View.geometry, hmargins]
    simp only [hstart, hgeometry] at hland
    simp only [hauto, if_true] at hland
    split
    · next hedge => exact all_of_landing hland (if_pos hedge)
    · next hedge => exact all_of_landing hland (if_neg hedge)

theorem SettledAt.print (h : SettledAt promise base terminal) (character : Char)
    (hkeep : terminal.printKeeps promise character = true) :
    Yields (terminal.print character) (SettledAt promise base) := by
  have hd := h.dimensions
  obtain ⟨buffer, hb, hs, hset⟩ := h.active
  have hseen : SeenAt promise base (terminal.view buffer) terminal :=
    { h with active := ⟨buffer, hb, hs, rfl⟩ }
  simp only [printKeeps, hb, horizontalMargins_eq hb, hd, Bool.or_eq_true, Bool.not_eq_true'] at hkeep
  refine hseen.printWith hset hb character (fun _ hauto terminal' ht => ?_) fun hp hauto => ?_
  · -- autowrap is off, so the replacement character arms nothing
    obtain ⟨buffer', hb', -, -⟩ := ht.active
    refine ht.printWith hset hb' replacementCharacter (fun hwide => ?_) fun _ ha => ?_
    · rw [Platform.replacement_width] at hwide
      simp at hwide
    · rw [hauto] at ha
      cases ha
  · rcases hkeep with (hno | hno) | hland
    · rw [hno] at hp
      cases hp
    · rw [show terminal.modes.autoWrap = true from hauto] at hno
      cases hno
    · exact hland

theorem SettledAt.repeatPrecedingCharacter (h : SettledAt promise base terminal)
    (parameters : CsiParameters) (hkeep : terminal.repeatKeeps promise parameters = true) :
    Yields (terminal.repeatPrecedingCharacter parameters) (SettledAt promise base) := by
  unfold Terminal.repeatPrecedingCharacter
  unfold repeatKeeps at hkeep
  cases hlast : terminal.lastGraphicCharacter with
  | none => exact .some h
  | some character =>
    rw [hlast] at hkeep
    exact foldlM_along (SettledAt promise base) h hkeep fun terminal _ ht hk => ht.print character hk

end Terminal

end FesTerm
