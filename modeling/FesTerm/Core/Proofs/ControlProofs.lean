import FesTerm.Core.Proofs.TerminalProofs
import FesTerm.Core.Proofs.RunConditions

/-!
# Control functions

Every control function but printing starts with no cluster to extend, never fails, and ends calm: the
cursor is in the grid, and a wrap is pending in the last column only. Most of them either replace the
cursor and drop the pending wrap, or change the grid and leave the cursor alone. Selective erases keep
the promise when their condition holds.
-/

namespace FesTerm

open Checked List Option

namespace Terminal

variable [Platform]

abbrev CalmAt (promise : Promise) (base : Terminal) : Terminal → Prop :=
  At promise base (View.Calm promise base.dimensions)

abbrev LooseAt (promise : Promise) (base : Terminal) : Terminal → Prop :=
  At promise base View.Anchorless

variable {promise : Promise} {base terminal terminal' : Terminal} {P : View → Prop}
  {buffer : BufferState}

abbrev RestedAt (promise : Promise) (base : Terminal) : Terminal → Prop := At promise base View.Rested

theorem RestedAt.calm (h : RestedAt promise base terminal) : CalmAt promise base terminal :=
  h.mono fun _ hv => View.Anchorless.calm hv.anchor hv.wrap

theorem CalmAt.loose (h : CalmAt promise base terminal) : LooseAt promise base terminal :=
  h.mono fun _ hv => hv.anchor

theorem LooseAt.clearPendingWrap (h : LooseAt promise base terminal) :
    Yields terminal.clearPendingWrap (CalmAt promise base) :=
  At.clearPendingWrap h fun _ hv => View.Anchorless.calm hv rfl

variable {column : Nat}

theorem LooseAt.setCursorColumn (h : LooseAt promise base terminal)
    (hcolumn : column < base.dimensions.columns) :
    Yields (terminal.setCursorColumn column) (LooseAt promise base) :=
  At.setCursorColumn h hcolumn fun _ hv => hv

theorem CalmAt.same (h : CalmAt promise base terminal) (hs : Same terminal terminal') :
    CalmAt promise base terminal' :=
  At.same h hs fun _ hv => ⟨hv.wrap, hv.anchor⟩

theorem LooseAt.same (h : LooseAt promise base terminal) (hs : Same terminal terminal') :
    LooseAt promise base terminal' :=
  At.same h hs fun _ hv => hv

variable {move : BufferState → Cursor}

theorem LooseAt.moveCursor (h : LooseAt promise base terminal)
    (hmove : ∀ buffer, terminal.activeBuffer = some buffer → buffer.Sound promise base.dimensions →
      (move buffer).InGrid base.dimensions) :
    Yields (terminal.moveCursor move) (RestedAt promise base) :=
  h.modifyActive fun buffer hb hs hp => .some ⟨{ hs with cursor := hmove buffer hb hs }, rfl, hp⟩

theorem LooseAt.placeCursor (h : LooseAt promise base terminal)
    (hmove : ∀ buffer, terminal.activeBuffer = some buffer → buffer.Sound promise base.dimensions →
      (move buffer).InGrid base.dimensions) :
    Yields (terminal.moveCursor move) (CalmAt promise base) :=
  (h.moveCursor hmove).mono fun _ hrested => hrested.calm

variable (parameters : CsiParameters)

omit [Platform] in
theorem parameterOr_pos (index : Nat) {fallback : Nat}
    (h : 1 ≤ fallback) : 1 ≤ parameterOr parameters index fallback := by
  unfold parameterOr
  split
  · exact h
  · exact h
  · next value hne _ =>
    have : value ≠ 0 := fun h0 => hne (by rw [h0])
    omega

theorem LooseAt.tab (h : LooseAt promise base terminal) : Yields terminal.tab (LooseAt promise base) := by
  have hd := h.dimensions
  obtain ⟨buffer, hb, hs, -⟩ := h.active
  obtain ⟨-, hright⟩ := margins_bounds terminal hs
  have hcursor := hs.cursor.1
  have hcolumns := base.dimensions.two_le_columns
  unfold Terminal.tab
  simp only [horizontalMargins_eq hb, cursor_eq hb, hd, some_bind]
  refine h.setCursorColumn ?_
  split
  · omega
  · omega

variable {stop : Nat}

omit [Platform] in
theorem previousTabStop_lt {tabStops : List Bool}
    (h : previousTabStop tabStops column = some stop) : stop < column := by
  have hmem := mem_of_find?_eq_some h
  rw [mem_reverse, mem_range] at hmem
  omega

theorem LooseAt.backwardTab (h : LooseAt promise base terminal) :
    Yields terminal.backwardTab (LooseAt promise base) := by
  obtain ⟨buffer, hb, hs, -⟩ := h.active
  have hcursor := hs.cursor.1
  refine h.setCursorColumn ?_
  rw [cursor_eq hb]
  cases hstop : previousTabStop terminal.tabStops buffer.cursor.column with
  | none =>
    rw [getD_none]
    omega
  | some stop =>
    have := previousTabStop_lt hstop
    rw [getD_some]
    omega

theorem CalmAt.writeTabStop (h : CalmAt promise base terminal) (column : Nat) (stop : Bool) :
    CalmAt promise base (terminal.writeTabStop column stop) :=
  h.same ⟨rfl, rfl, rfl, length_set, id, rfl, rfl, rfl, rfl⟩

theorem CalmAt.clearTabStops (h : CalmAt promise base terminal) (parameters : CsiParameters) :
    CalmAt promise base (terminal.clearTabStops parameters) := by
  unfold Terminal.clearTabStops
  split
  · exact h.writeTabStop _ _
  · exact h.same ⟨rfl, rfl, rfl, length_map _, id, rfl, rfl, rfl, rfl⟩
  · exact h

theorem At.carriageReturn (h : At promise base P terminal)
    (hq : ∀ view column, P view → P { view with column := column }) :
    Yields terminal.carriageReturn (At promise base P) := by
  have hd := h.dimensions
  obtain ⟨buffer, hb, hs, -⟩ := h.active
  obtain ⟨hlt, hright⟩ := margins_bounds terminal hs
  unfold Terminal.carriageReturn carriageReturnColumn
  simp only [horizontalMargins_eq hb, hb, hd, some_bind]
  refine h.setCursorColumn ?_ fun view hv => hq view _ hv
  split
  · omega
  · omega

theorem LooseAt.carriageReturn (h : LooseAt promise base terminal) :
    Yields terminal.carriageReturn (LooseAt promise base) :=
  At.carriageReturn h fun _ _ hv => hv

theorem CalmAt.moveVertical (h : CalmAt promise base terminal) (parameters : CsiParameters)
    (down : Bool) : Yields (terminal.moveVertical parameters down) (RestedAt promise base) := by
  have hd := h.dimensions
  obtain ⟨buffer, hb, hs, -⟩ := h.active
  unfold Terminal.moveVertical relativeVerticalBounds
  simp only [hb, hd, some_bind]
  refine h.loose.moveCursor fun buffer' hb' _ => ?_
  cases hb.symm.trans hb'
  have hrows := base.dimensions.one_le_rows
  have hcursor := hs.cursor.2
  have htop := hs.top_le
  have hbottom := hs.bottom_lt
  refine ⟨hs.cursor.1, ?_⟩
  simp only
  cases down with
  | true =>
    rw [if_pos rfl]
    split <;> omega
  | false =>
    rw [if_neg (by decide)]
    split <;> omega

omit [Platform] in
/-- The climb ends inside the grid. -/
theorem climbBack_inGrid (hs : buffer.Sound promise base.dimensions) {left right : Nat}
    (hright : right < base.dimensions.columns) (reverseWrap : Bool) :
    ∀ (row column remaining : Nat), row < base.dimensions.rows → column < base.dimensions.columns →
      Yields (climbBack buffer left right reverseWrap row column remaining) fun cursor =>
        cursor.InGrid base.dimensions := by
  intro row
  induction row with
  | zero =>
    intro column remaining hrow hcolumn
    unfold climbBack
    simp only [sub_eq (show min remaining (column - left) ≤ column by omega),
      sub_eq (show min remaining (column - left) ≤ remaining by omega), bind_eq_bind,
      bind_some]
    exact .some ⟨by simp only; omega, hrow⟩
  | succ above ih =>
    intro column remaining hrow hcolumn
    have hstay : Cursor.InGrid ⟨column - min remaining (column - left), above + 1⟩ base.dimensions :=
      ⟨by simp only; omega, hrow⟩
    obtain ⟨line, hl⟩ := hs.screen.line_some above
    have hwrapped : buffer.screen.rowSoftWrapped above = some (some line.softWrapped) := by
      unfold Screen.rowSoftWrapped
      rw [hs.dims, if_pos (by omega), hl]
      rfl
    unfold climbBack
    simp only [sub_eq (show min remaining (column - left) ≤ column by omega),
      sub_eq (show min remaining (column - left) ≤ remaining by omega), bind_eq_bind,
      bind_some, hwrapped]
    split
    · exact .some hstay
    · next hgo =>
      split
      · exact .some hstay
      · have hpos : 1 ≤ remaining - min remaining (column - left) := by
          rcases Nat.eq_zero_or_pos (remaining - min remaining (column - left)) with h0 | h0
          · exact absurd (.inl h0) hgo
          · exact h0
        rw [sub_eq hpos]
        exact ih right _ (by omega) hright

theorem CalmAt.moveCursorBack (h : CalmAt promise base terminal) (count : Nat) :
    Yields (terminal.moveCursorBack count) (CalmAt promise base) := by
  have hd := h.dimensions
  obtain ⟨buffer, hb, hs, -⟩ := h.active
  obtain ⟨hlt, hright⟩ := margins_bounds terminal hs
  have hcolumns := base.dimensions.two_le_columns
  unfold Terminal.moveCursorBack relativeHorizontalBounds
  simp only [horizontalMargins_eq hb, hb, hd, some_bind]
  refine Yields.bind (climbBack_inGrid hs ?_ _ _ _ _ hs.cursor.2 hs.cursor.1) fun cursor hc =>
    h.loose.placeCursor fun _ _ _ => hc
  split <;> omega

theorem CalmAt.moveHorizontal (h : CalmAt promise base terminal) (parameters : CsiParameters)
    (forward : Bool) : Yields (terminal.moveHorizontal parameters forward) (CalmAt promise base) := by
  cases forward with
  | false => exact h.moveCursorBack _
  | true =>
    have hd := h.dimensions
    obtain ⟨buffer, hb, hs, -⟩ := h.active
    obtain ⟨hlt, hright⟩ := margins_bounds terminal hs
    have hcolumns := base.dimensions.two_le_columns
    unfold Terminal.moveHorizontal relativeHorizontalBounds
    simp only [horizontalMargins_eq hb, hb, hd, some_bind, Bool.not_true, Bool.false_eq_true, if_false]
    refine h.loose.placeCursor fun buffer' hb' hs' => ⟨?_, hs'.cursor.2⟩
    simp only
    split <;> omega

theorem absoluteColumn_lt (h : At promise base P terminal) (requested : Nat) :
    Yields (terminal.absoluteColumn requested) (· < base.dimensions.columns) := by
  have hd := h.dimensions
  obtain ⟨buffer, hb, hs, -⟩ := h.active
  obtain ⟨hlt, hright⟩ := margins_bounds terminal hs
  have hcolumns := base.dimensions.two_le_columns
  unfold absoluteColumn
  simp only [horizontalMargins_eq hb, hd, some_bind]
  split
  · exact .some (by omega)
  · exact .some (by omega)

theorem absoluteRow_lt (h : At promise base P terminal) (requested : Nat) :
    Yields (terminal.absoluteRow requested) (· < base.dimensions.rows) := by
  have hd := h.dimensions
  obtain ⟨buffer, hb, hs, -⟩ := h.active
  have hrows := base.dimensions.one_le_rows
  have hbottom := hs.bottom_lt
  unfold absoluteRow verticalBounds
  by_cases ho : terminal.modes.originMode = true
  · simp only [ho, if_true, hb, some_bind]
    exact .some (by omega)
  · simp only [ho, if_false, hd, some_bind, Bool.false_eq_true]
    exact .some (by omega)

theorem CalmAt.cursorHorizontalAbsolute (h : CalmAt promise base terminal) (parameters : CsiParameters)
    (originRelative : Bool) :
    Yields (terminal.cursorHorizontalAbsolute parameters originRelative) (CalmAt promise base) := by
  have hd := h.dimensions
  have hcolumns := base.dimensions.two_le_columns
  unfold Terminal.cursorHorizontalAbsolute
  rw [sub_eq (parameterOr_pos parameters 0 (Nat.le_refl 1))]
  simp only [bind_eq_bind, bind_some]
  cases originRelative with
  | true =>
    obtain ⟨column, hcolumn, hlt⟩ := absoluteColumn_lt h (parameterOr parameters 0 1 - 1)
    simp only [if_true, hcolumn, bind_some]
    exact h.loose.placeCursor fun _ _ hs => ⟨hlt, hs.cursor.2⟩
  | false =>
    simp only [Bool.false_eq_true, if_false, hd]
    exact h.loose.placeCursor fun _ _ hs => ⟨by simp only; omega, hs.cursor.2⟩

theorem CalmAt.cursorPosition (h : CalmAt promise base terminal) (parameters : CsiParameters) :
    Yields (terminal.cursorPosition parameters) (CalmAt promise base) := by
  unfold Terminal.cursorPosition
  rw [sub_eq (parameterOr_pos parameters 0 (Nat.le_refl 1)),
    sub_eq (parameterOr_pos parameters 1 (Nat.le_refl 1))]
  exact (absoluteRow_lt h _).bind fun row hrow => (absoluteColumn_lt h _).bind fun column hcolumn =>
    h.loose.placeCursor fun _ _ _ => ⟨hcolumn, hrow⟩

theorem CalmAt.verticalPositionAbsolute (h : CalmAt promise base terminal) (parameters : CsiParameters) :
    Yields (terminal.verticalPositionAbsolute parameters) (CalmAt promise base) := by
  unfold Terminal.verticalPositionAbsolute
  rw [sub_eq (parameterOr_pos parameters 0 (Nat.le_refl 1))]
  exact (absoluteRow_lt h _).bind fun row hrow =>
    h.loose.placeCursor fun _ _ hs => ⟨hs.cursor.1, hrow⟩

theorem LooseAt.homeCursor (h : LooseAt promise base terminal) :
    Yields terminal.homeCursor (CalmAt promise base) := by
  have hd := h.dimensions
  obtain ⟨buffer, hb, hs, -⟩ := h.active
  obtain ⟨hlt, hright⟩ := margins_bounds terminal hs
  unfold Terminal.homeCursor
  simp only [horizontalMargins_eq hb, hd, some_bind]
  refine h.placeCursor fun buffer' _ hs' => ?_
  have htop := hs'.top_le
  have hbottom := hs'.bottom_lt
  constructor
  · simp only
    split <;> omega
  · simp only
    split <;> omega

theorem CalmAt.setScrollRegion (h : CalmAt promise base terminal) (parameters : CsiParameters) :
    Yields (terminal.setScrollRegion parameters) (CalmAt promise base) := by
  have hd := h.dimensions
  have hrows := base.dimensions.one_le_rows
  unfold Terminal.setScrollRegion
  simp only [hd, sub_eq (parameterOr_pos parameters 0 (Nat.le_refl 1)),
    sub_eq (parameterOr_pos parameters 1 hrows), some_bind, Option.pure_def]
  generalize parameterOr parameters 0 1 - 1 = top
  generalize parameterOr parameters 1 base.dimensions.rows - 1 = bottom
  by_cases hbad : top ≥ bottom ∨ bottom ≥ base.dimensions.rows
  · rw [if_pos hbad]
    exact .some h
  · rw [if_neg hbad]
    have horigin := BufferState.origin_inGrid base.dimensions
    have hregion : Yields (terminal.modifyActive fun buffer => some { buffer with
        scrollTop := top
        scrollBottom := bottom
        cursor := ⟨0, if terminal.modes.originMode then top else 0⟩
        pendingWrap := false }) (LooseAt promise base) :=
      h.loose.modifyActive fun buffer _ hs hp => by
        refine .some ⟨{ hs with
          top_le := by simp only; omega
          bottom_lt := by simp only; omega
          cursor := ⟨horigin.1, ?_⟩ }, hp⟩
        simp only
        split <;> omega
    exact hregion.bind fun terminal ht => ht.homeCursor

theorem CalmAt.setHorizontalMargins (h : CalmAt promise base terminal) (parameters : CsiParameters) :
    Yields (terminal.setHorizontalMargins parameters) (CalmAt promise base) := by
  have hd := h.dimensions
  have hcolumns := base.dimensions.two_le_columns
  unfold Terminal.setHorizontalMargins
  simp only [hd, sub_eq (parameterOr_pos parameters 0 (Nat.le_refl 1)),
    sub_eq (parameterOr_pos parameters 1 (show 1 ≤ base.dimensions.columns by omega)),
    some_bind, Option.pure_def]
  generalize parameterOr parameters 0 1 - 1 = left
  generalize parameterOr parameters 1 base.dimensions.columns - 1 = right
  by_cases hbad : left ≥ right ∨ right ≥ base.dimensions.columns
  · rw [if_pos hbad]
    exact .some h
  · rw [if_neg hbad]
    have hmargins : Yields (terminal.modifyActive fun buffer =>
        some { buffer with scrollLeft := left, scrollRight := right }) (LooseAt promise base) :=
      h.loose.modifyActive fun buffer _ hs hp =>
        .some ⟨{ hs with left_lt := by simp only; omega, right_lt := by simp only; omega }, hp⟩
    exact hmargins.bind fun terminal ht => ht.homeCursor

theorem CalmAt.saveDec (h : CalmAt promise base terminal) : Yields terminal.saveDec (CalmAt promise base) :=
  h.modifyActive fun _ _ hs hp =>
    .some ⟨{ hs with decSaved := fun _ hs' => some.inj hs' ▸ hs.cursor }, hp⟩

theorem CalmAt.saveAnsi (h : CalmAt promise base terminal) : Yields terminal.saveAnsi (CalmAt promise base) :=
  h.modifyActive fun _ hb hs hp => .some ⟨{ hs with
    ansiSaved := fun _ hs' => some.inj hs' ▸ cursor_eq hb ▸ hs.cursor }, hp⟩

theorem CalmAt.restoreDec (h : CalmAt promise base terminal) :
    Yields terminal.restoreDec (CalmAt promise base) := by
  have hd := h.dimensions
  obtain ⟨buffer, hb, hs, hp⟩ := h.active
  unfold Terminal.restoreDec
  simp only [hb, bind_eq_bind, bind_some]
  cases hsaved : buffer.decSaved with
  | none =>
    exact (h.loose.placeCursor fun _ _ _ => BufferState.origin_inGrid base.dimensions).bind
      fun terminal ht => .some (ht.same ⟨rfl, rfl, rfl, rfl, id, rfl, rfl, rfl, rfl⟩)
  | some saved =>
    simp only [hd]
    have hgrid := BufferState.clampCursor_inGrid saved.cursor base.dimensions
    obtain ⟨row, hrow, hlt⟩ := BufferState.savedRow_lt saved.originMode hgrid.2 hs.top_le hs.bottom_lt
    simp only [hrow, bind_some]
    have hrestored : BufferState.Sound promise base.dimensions { buffer with
        cursor := ⟨(BufferState.clampCursor saved.cursor base.dimensions).column, row⟩
        pendingWrap := saved.pendingWrap &&
          (BufferState.clampCursor saved.cursor base.dimensions).column + 1 == base.dimensions.columns } :=
      { hs with cursor := ⟨hgrid.1, hlt⟩ }
    have hset := h.setActiveBuffer (Q := View.Calm promise base.dimensions) hrestored ⟨fun _ hw => by
        simp only [view, Bool.and_eq_true, beq_iff_eq] at hw
        exact hw.2, hp.anchor⟩
    rw [hsaved] at hset
    exact .some (CalmAt.same hset ⟨rfl, rfl, rfl, rfl, id, rfl, rfl, rfl, rfl⟩)

theorem CalmAt.restoreAnsi (h : CalmAt promise base terminal) :
    Yields terminal.restoreAnsi (CalmAt promise base) := by
  have hd := h.dimensions
  have hmodes : CalmAt promise base
      { terminal with modes := { terminal.modes with originMode := false } } :=
    h.same ⟨rfl, rfl, rfl, rfl, id, rfl, rfl, rfl, rfl⟩
  obtain ⟨buffer, hb, -, -⟩ := hmodes.active
  have hd' := hmodes.dimensions
  unfold Terminal.restoreAnsi
  simp only [hb, some_bind]
  cases buffer.ansiSaved with
  | none =>
    exact (hmodes.loose.placeCursor fun _ _ _ => BufferState.origin_inGrid base.dimensions).bind
      fun terminal ht => .some (ht.same ⟨rfl, rfl, rfl, rfl, id, rfl, rfl, rfl, rfl⟩)
  | some saved =>
    refine Yields.bind (hmodes.loose.placeCursor fun _ _ _ => ?_)
      fun terminal ht => .some (ht.same ⟨rfl, rfl, rfl, rfl, id, rfl, rfl, rfl, rfl⟩)
    rw [hd']
    exact BufferState.clampCursor_inGrid saved.cursor base.dimensions

omit [Platform] in
theorem linear_le {cursor : Cursor} {dimensions : Dimensions} (h : cursor.InGrid dimensions) :
    cursor.row * dimensions.columns + cursor.column + 1 ≤ dimensions.columns * dimensions.rows ∧
      cursor.row * dimensions.columns + dimensions.columns ≤ dimensions.columns * dimensions.rows := by
  have hrows : (cursor.row + 1) * dimensions.columns ≤ dimensions.rows * dimensions.columns :=
    Nat.mul_le_mul_right _ h.2
  rw [Nat.add_mul, Nat.one_mul, Nat.mul_comm dimensions.rows] at hrows
  have := h.1
  omega

variable {start : Nat}

theorem At.fillRun (h : At promise base P terminal) {spare : Bool}
    (hstop : stop ≤ base.dimensions.columns * base.dimensions.rows)
    (hkeep : terminal.runKeeps promise (some (start, stop)) spare = true) :
    Yields (terminal.modifyScreen fun screen =>
      screen.fillLinearWith start stop terminal.eraseCell spare) (At promise base P) :=
  h.modifyScreen fun buffer hb hs => by
    simp only [runKeeps, hb] at hkeep
    exact Screen.fillLinearWith_kept hs.screen _ (by rw [hs.dims]; exact hstop)
      terminal.eraseCell_fillOk spare hkeep

theorem eraseDisplayRun_le (h : At promise base P terminal) {mode : Nat}
    (hrun : terminal.eraseDisplayRun mode = some (start, stop)) :
    stop ≤ base.dimensions.columns * base.dimensions.rows := by
  obtain ⟨buffer, hb, hs, -⟩ := h.active
  have hlinear := (linear_le hs.cursor).1
  unfold eraseDisplayRun at hrun
  simp only [h.dimensions, cursor_eq hb] at hrun
  split at hrun
  · cases hrun
    exact le_rfl
  · cases hrun
    exact hlinear
  · cases hrun
    exact le_rfl
  · cases hrun

theorem At.eraseDisplay (h : At promise base P terminal) (parameters : CsiParameters) (selective : Bool)
    (hkeep : terminal.eraseDisplayKeeps promise parameters selective = true) :
    Yields (terminal.eraseDisplay parameters selective) (At promise base P) := by
  unfold Terminal.eraseDisplay
  unfold eraseDisplayKeeps at hkeep
  simp only
  generalize rawParameter parameters 0 0 = mode at hkeep ⊢
  by_cases hclear : mode = 3
  · rw [if_pos hclear]
    by_cases hprimary : terminal.activeScreen = .primary
    · rw [if_pos hprimary]
      exact .some (h.withScrollback Scrollback.good_clear (by rw [← h.activeScreen]; exact hprimary))
    · rw [if_neg hprimary]
      exact .some h
  · rw [if_neg hclear]
    by_cases hall : mode = 2 ∧ !terminal.sparesProtectedCells selective
    · simp only [if_pos hall]
      exact h.modifyScreen fun buffer _ hs =>
        .some (Screen.clearAll_kept hs.screen terminal.eraseCell_fillOk)
    · simp only [if_neg hall]
      cases hrun : terminal.eraseDisplayRun mode with
      | none => exact h.modifyScreen fun buffer _ hs => .some hs.screen.kept
      | some run =>
        rw [hrun] at hkeep
        exact h.fillRun (eraseDisplayRun_le h hrun) hkeep

theorem eraseLineRun_le (h : At promise base P terminal) {mode : Nat}
    (hrun : terminal.eraseLineRun mode = some (start, stop)) :
    stop ≤ base.dimensions.columns * base.dimensions.rows := by
  obtain ⟨buffer, hb, hs, -⟩ := h.active
  obtain ⟨hcell, hline⟩ := linear_le hs.cursor
  unfold eraseLineRun at hrun
  simp only [h.dimensions, cursor_eq hb] at hrun
  split at hrun
  · cases hrun
    exact hline
  · cases hrun
    exact hcell
  · cases hrun
    exact hline
  · cases hrun

theorem At.eraseLine (h : At promise base P terminal) (parameters : CsiParameters) (selective : Bool)
    (hkeep : terminal.eraseLineKeeps promise parameters selective = true) :
    Yields (terminal.eraseLine parameters selective) (At promise base P) := by
  unfold Terminal.eraseLine
  unfold eraseLineKeeps at hkeep
  cases hrun : terminal.eraseLineRun (rawParameter parameters 0 0) with
  | none => exact .some h
  | some run =>
    rw [hrun] at hkeep
    exact h.fillRun (eraseLineRun_le h hrun) hkeep

theorem At.eraseCharacters (h : At promise base P terminal) (parameters : CsiParameters)
    (hkeep : terminal.eraseCharactersKeeps promise parameters = true) :
    Yields (terminal.eraseCharacters parameters) (At promise base P) := by
  obtain ⟨buffer, hb, hs, -⟩ := h.active
  have hline := (linear_le hs.cursor).2
  refine h.fillRun ?_ hkeep
  simp only [h.dimensions, cursor_eq hb, Nat.add_mul, Nat.one_mul]
  omega

theorem rectangleOrigin_lt (h : At promise base P terminal) : Yields terminal.rectangleOrigin fun origin =>
      origin.1 < base.dimensions.rows ∧ origin.2 < base.dimensions.columns := by
  have hd := h.dimensions
  obtain ⟨buffer, hb, hs, -⟩ := h.active
  obtain ⟨hlt, hright⟩ := margins_bounds terminal hs
  have htop := hs.top_le
  have hbottom := hs.bottom_lt
  have horigin := BufferState.origin_inGrid base.dimensions
  unfold rectangleOrigin
  simp only [horizontalMargins_eq hb, hb, hd, some_bind]
  split
  · exact .some ⟨by simp only; omega, by simp only; omega⟩
  · exact .some ⟨horigin.2, horigin.1⟩

theorem rectangleFrom_fits (h : At promise base P terminal) (parameters : CsiParameters) (first : Nat) :
    Yields (terminal.rectangleFrom parameters first) fun found =>
      ∀ rectangle ∈ found, ∀ buffer : BufferState, buffer.Sound promise base.dimensions →
        buffer.screen.FitsRectangle rectangle := by
  have hrows := base.dimensions.one_le_rows
  have hcolumns := base.dimensions.two_le_columns
  obtain ⟨⟨rowOrigin, columnOrigin⟩, heq, hrow, hcolumn⟩ := rectangleOrigin_lt h
  have h1 := parameterOr_pos parameters first (Nat.le_refl 1)
  have h2 := parameterOr_pos parameters (first + 1) (Nat.le_refl 1)
  have h3 := parameterOr_pos parameters (first + 2)
    (show 1 ≤ base.dimensions.rows - rowOrigin by simp only at hrow; omega)
  have h4 := parameterOr_pos parameters (first + 3)
    (show 1 ≤ base.dimensions.columns - columnOrigin by simp only at hcolumn; omega)
  unfold rectangleFrom
  simp only [heq, h.dimensions, some_bind, Option.pure_def,
    sub_eq (show rowOrigin ≤ base.dimensions.rows from Nat.le_of_lt hrow),
    sub_eq (show columnOrigin ≤ base.dimensions.columns from Nat.le_of_lt hcolumn),
    sub_eq (Nat.le_trans h1 (Nat.le_add_left _ rowOrigin)),
    sub_eq (Nat.le_trans h2 (Nat.le_add_left _ columnOrigin)),
    sub_eq (Nat.le_trans h3 (Nat.le_add_left _ rowOrigin)),
    sub_eq (Nat.le_trans h4 (Nat.le_add_left _ columnOrigin))]
  split
  · exact .some nofun
  · split
    · exact .some nofun
    · refine .some fun rectangle hr buffer hs => ?_
      cases hr
      exact ⟨by simp only; omega, by rw [hs.dims]; simp only; omega, by simp only; omega,
        by rw [hs.dims]; simp only; omega⟩

theorem At.fillRectangle (h : At promise base P terminal) (parameters : CsiParameters) :
    Yields (terminal.fillRectangle parameters) (At promise base P) := by
  unfold Terminal.fillRectangle
  cases hvalue : parameters.value 0 with
  | none => exact .some h
  | some value =>
    simp only
    split
    · next hrange =>
      obtain ⟨found, hfound, hfits⟩ := rectangleFrom_fits h parameters 1
      simp only [hfound, some_bind]
      cases found with
      | none => exact .some h
      | some rectangle =>
        have hsize := (Char.ofNat value).utf8Size_le_four
        have hfill : FillOk { terminal.eraseCell with
            text := [Char.ofNat value]
            textCapacityBytes := Platform.textCapacity [] [Char.ofNat value] } :=
          ⟨textOk_of_short (by decide)
            (show utf8Len [Char.ofNat value] ≤ maxGraphemeBytes by
              simp only [utf8Len, map_cons, map_nil, sum_cons, sum_nil, maxGraphemeBytes]
              omega) rfl
            fun hmem => by
              have hfeed : (Char.ofNat value).toNat = 10 := by rw [← mem_singleton.mp hmem]; rfl
              rw [Char.toNat_ofNat, if_pos (.inl (by omega))] at hfeed
              omega, rfl⟩
        exact h.modifyScreen fun buffer _ hs =>
          Screen.fillRectangle_kept hs.screen (hfits rectangle rfl buffer hs) hfill false rfl
    · exact .some h

theorem At.eraseRectangle (h : At promise base P terminal) (parameters : CsiParameters) (selective : Bool)
    (hkeep : terminal.eraseRectangleKeeps promise parameters selective = true) :
    Yields (terminal.eraseRectangle parameters selective) (At promise base P) := by
  obtain ⟨found, hfound, hfits⟩ := rectangleFrom_fits h parameters 0
  unfold Terminal.eraseRectangle
  simp only [hfound, some_bind]
  cases found with
  | none => exact .some h
  | some rectangle =>
    refine h.modifyScreen fun buffer hb hs => ?_
    simp only [eraseRectangleKeeps, hb, hfound] at hkeep
    exact Screen.fillRectangle_kept hs.screen (hfits rectangle rfl buffer hs) terminal.eraseCell_fillOk
      _ hkeep

theorem At.copyRectangle (h : At promise base P terminal) (parameters : CsiParameters) :
    Yields (terminal.copyRectangle parameters) (At promise base P) := by
  have hrows := base.dimensions.one_le_rows
  have hcolumns := base.dimensions.two_le_columns
  obtain ⟨found, hfound, hfits⟩ := rectangleFrom_fits h parameters 0
  obtain ⟨⟨rowOrigin, columnOrigin⟩, heq, -⟩ := rectangleOrigin_lt h
  have h1 := parameterOr_pos parameters 5 (Nat.le_refl 1)
  have h2 := parameterOr_pos parameters 6 (Nat.le_refl 1)
  unfold Terminal.copyRectangle
  simp only [hfound, bind_eq_bind, bind_some]
  cases found with
  | none => exact .some h
  | some rectangle =>
    simp only [heq, h.dimensions, bind_some, sub_eq (Nat.le_trans h1 (Nat.le_add_left _ rowOrigin)),
      sub_eq (Nat.le_trans h2 (Nat.le_add_left _ columnOrigin))]
    refine h.modifyScreen fun buffer hb hs => ?_
    exact Screen.copyRectangle_kept hs.screen (hfits rectangle rfl buffer hs)
      (by rw [hs.dims]; omega) (by rw [hs.dims]; omega)

theorem At.shiftRegion (h : At promise base P terminal) {shift : Screen → Nat → Option Screen}
    (hshift : ∀ (screen : Screen) (row : Nat), screen.Good promise → row < screen.dimensions.rows →
      Yields (shift screen row) (Screen.Kept promise screen)) :
    Yields (terminal.shiftRegion shift) (At promise base P) := by
  obtain ⟨buffer, hb, hs, -⟩ := h.active
  have htop := hs.top_le
  have hbottom := hs.bottom_lt
  unfold Terminal.shiftRegion
  simp only [hb, some_bind]
  refine h.modifyScreen fun buffer' hb' hs' => ?_
  cases hb.symm.trans hb'
  exact Screen.forRange_kept hs.screen (by omega) fun screen row _ hrow hk =>
    hshift screen row hk.good (by rw [hk.dimensions, hs.dims]; omega)

theorem At.insideMargins (h : At promise base P terminal) {edit : ColumnSpan → Option Terminal}
    (hedit : ∀ span, (∀ buffer, terminal.activeBuffer = some buffer → buffer.screen.Fits span) →
      Yields (edit span) (At promise base P)) :
    Yields (do
      if ← terminal.cursorWithinMargins then
        let span ← terminal.horizontalMargins
        edit span
      else some terminal) (At promise base P) := by
  have hd := h.dimensions
  obtain ⟨buffer, hb, hs, -⟩ := h.active
  simp only [cursorWithinMargins_eq hb, horizontalMargins_eq hb, hd, bind_eq_bind, bind_some]
  split
  · refine hedit _ fun buffer' hb' => ?_
    cases hb.symm.trans hb'
    exact margins_fits hs
  · exact .some h

theorem At.insertColumns (h : At promise base P terminal) (parameters : CsiParameters) :
    Yields (terminal.insertColumns parameters) (At promise base P) :=
  h.insideMargins fun span _ => h.shiftRegion fun _ _ hg hrow =>
    Screen.insertCharacters_kept hg _ hrow _ terminal.eraseCell_fillOk span

theorem At.deleteColumns (h : At promise base P terminal) (parameters : CsiParameters) :
    Yields (terminal.deleteColumns parameters) (At promise base P) :=
  h.insideMargins fun span _ => h.shiftRegion fun _ _ hg hrow =>
    Screen.deleteCharacters_kept hg _ hrow _ terminal.eraseCell_fillOk span

theorem At.insertCharacters (h : At promise base P terminal) (parameters : CsiParameters) :
    Yields (terminal.insertCharacters parameters) (At promise base P) :=
  h.insideMargins fun span _ => h.modifyScreen fun _ hb hs =>
    Screen.insertCharacters_kept hs.screen _ (by rw [hs.dims, cursor_eq hb]; exact hs.cursor.2) _
      terminal.eraseCell_fillOk span

theorem At.deleteCharacters (h : At promise base P terminal) (parameters : CsiParameters) :
    Yields (terminal.deleteCharacters parameters) (At promise base P) :=
  h.insideMargins fun span _ => h.modifyScreen fun _ hb hs =>
    Screen.deleteCharacters_kept hs.screen _ (by rw [hs.dims, cursor_eq hb]; exact hs.cursor.2) _
      terminal.eraseCell_fillOk span

theorem LooseAt.backIndex (h : LooseAt promise base terminal) :
    Yields terminal.backIndex (LooseAt promise base) := by
  obtain ⟨buffer, hb, hs, -⟩ := h.active
  have hcursor := hs.cursor.1
  unfold Terminal.backIndex
  simp only [horizontalMargins_eq hb, cursor_eq hb, some_bind]
  split
  · exact h.shiftRegion fun _ _ hg hrow =>
      Screen.insertCharacters_kept hg _ hrow _ terminal.eraseCell_fillOk _
  · split
    · exact h.setCursorColumn (by omega)
    · exact .some h

theorem LooseAt.forwardIndex (h : LooseAt promise base terminal) :
    Yields terminal.forwardIndex (LooseAt promise base) := by
  have hd := h.dimensions
  obtain ⟨buffer, hb, hs, -⟩ := h.active
  unfold Terminal.forwardIndex
  simp only [horizontalMargins_eq hb, cursor_eq hb, hd, some_bind]
  split
  · exact h.shiftRegion fun _ _ hg hrow =>
      Screen.deleteCharacters_kept hg _ hrow _ terminal.eraseCell_fillOk _
  · split
    · next hlt => exact h.setCursorColumn hlt
    · exact .some h

theorem At.editLines (h : At promise base P terminal)
    {edit : Screen → Nat → Nat → Cell → ColumnSpan → Option Screen}
    (hedit : ∀ (screen : Screen) (row bottom : Nat) (cell : Cell) (span : ColumnSpan),
      screen.Good promise → row ≤ bottom → bottom < screen.dimensions.rows → FillOk cell →
      screen.Fits span → Yields (edit screen row bottom cell span) (Screen.Kept promise screen)) :
    Yields (terminal.editLines edit) (At promise base P) := by
  obtain ⟨buffer, hb, hs, -⟩ := h.active
  refine h.insideMargins fun span hfits => ?_
  simp only [hb, some_bind]
  split
  · next hin =>
    refine h.modifyScreen fun buffer' hb' hs' => ?_
    cases hb.symm.trans hb'
    exact hedit _ _ _ _ _ hs.screen hin.2 (by rw [hs.dims]; exact hs.bottom_lt)
      terminal.eraseCell_fillOk (hfits buffer hb)
  · exact .some h

theorem At.insertLines (h : At promise base P terminal) (parameters : CsiParameters) :
    Yields (terminal.insertLines parameters) (At promise base P) :=
  h.editLines fun _ _ _ _ _ hg hle hlt hf hfits => Screen.shiftDown_kept hg hle hlt _ hf hfits

theorem At.deleteLines (h : At promise base P terminal) (parameters : CsiParameters) :
    Yields (terminal.deleteLines parameters) (At promise base P) :=
  h.editLines fun _ _ _ _ _ hg hle hlt hf hfits => Screen.deleteLines_kept hg hle hlt _ hf hfits

theorem CalmAt.screenAlignmentPattern (h : CalmAt promise base terminal) :
    Yields terminal.screenAlignmentPattern (CalmAt promise base) := by
  have hd := h.dimensions
  have hrows := base.dimensions.one_le_rows
  have hcolumns := base.dimensions.two_le_columns
  have hmodes : CalmAt promise base
      { terminal with modes := { terminal.modes with leftRightMarginMode := false } } :=
    h.same ⟨rfl, rfl, rfl, rfl, id, rfl, rfl, rfl, rfl⟩
  refine hmodes.modifyActive fun buffer _ hs hp => ?_
  have hfits : buffer.screen.FitsRectangle
      ⟨0, 0, base.dimensions.rows - 1, base.dimensions.columns - 1⟩ :=
    ⟨Nat.zero_le _, by rw [hs.dims]; simp only; omega, Nat.zero_le _, by rw [hs.dims]; simp only; omega⟩
  have hfill : FillOk {
      text := ['E']
      textCapacityBytes := Platform.textCapacity [] ['E']
      width := .single
      foreground := .default
      background := .default
      attributes := .none
      hyperlink := none } :=
    ⟨textOk_of_short (by decide) (show utf8Len ['E'] ≤ maxGraphemeBytes by decide) rfl
      (show '\n' ∉ ['E'] by decide), rfl⟩
  obtain ⟨screen, heq, hk⟩ := Screen.fillRectangle_kept hs.screen hfits hfill false rfl
  have hgood := BufferState.rest_good hk.good (hk.dimensions.trans hs.dims)
  refine ⟨{ buffer with
      screen := screen
      scrollTop := 0
      scrollBottom := base.dimensions.rows - 1
      scrollLeft := 0
      scrollRight := base.dimensions.columns - 1
      cursor := ⟨0, 0⟩
      pendingWrap := false }, by rw [hd]; simp only [heq, some_bind],
    { hs with
      screen := hk.good
      dims := hk.dimensions.trans hs.dims
      top_le := hgood.top_le
      bottom_lt := hgood.bottom_lt
      left_lt := hgood.left_lt
      right_lt := hgood.right_lt
      cursor := hgood.cursor },
    View.Anchorless.calm hp.anchor rfl⟩

/-- The pen may change, and the hyperlink may be dropped. -/
structure PenOnly (terminal terminal' : Terminal) : Prop where
  same : Same terminal terminal'
  modes : terminal'.modes = terminal.modes

section

omit [Platform]

theorem PenOnly.refl (terminal : Terminal) : PenOnly terminal terminal :=
  ⟨⟨rfl, rfl, rfl, rfl, id, rfl, rfl, rfl, rfl⟩, rfl⟩

theorem PenOnly.trans {terminal'' : Terminal} (h : PenOnly terminal terminal')
    (h' : PenOnly terminal' terminal'') : PenOnly terminal terminal'' where
  same := {
    parser := h'.same.parser.trans h.same.parser
    utf8 := h'.same.utf8.trans h.same.utf8
    title := h'.same.title.trans h.same.title
    tabStops := h'.same.tabStops.trans h.same.tabStops
    hyperlink := fun hh => h'.same.hyperlink (h.same.hyperlink hh)
    activeScreen := h'.same.activeScreen.trans h.same.activeScreen
    primary := h'.same.primary.trans h.same.primary
    alternate := h'.same.alternate.trans h.same.alternate
    scrollback := h'.same.scrollback.trans h.same.scrollback }
  modes := h'.modes.trans h.modes

theorem resetGraphicsRendition_penOnly (terminal : Terminal) :
    PenOnly terminal terminal.resetGraphicsRendition :=
  ⟨⟨rfl, rfl, rfl, rfl, fun _ _ => rfl, rfl, rfl, rfl, rfl⟩, rfl⟩

theorem setExtendedColor_penOnly (terminal : Terminal) (parameters : CsiParameters) (index : Nat)
    (foreground : Bool) : PenOnly terminal (terminal.setExtendedColor parameters index foreground).1 := by
  unfold setExtendedColor
  split
  · exact .refl terminal
  · simp only
    split
    · split
      · exact ⟨⟨rfl, rfl, rfl, rfl, id, rfl, rfl, rfl, rfl⟩, rfl⟩
      · exact ⟨⟨rfl, rfl, rfl, rfl, id, rfl, rfl, rfl, rfl⟩, rfl⟩
    · exact .refl terminal

theorem applyRendition_penOnly (terminal : Terminal) (code : Nat) :
    PenOnly terminal (terminal.applyRendition code) := by
  unfold applyRendition
  split
  · exact terminal.resetGraphicsRendition_penOnly
  all_goals first
    | exact ⟨⟨rfl, rfl, rfl, rfl, id, rfl, rfl, rfl, rfl⟩, rfl⟩
    | (repeat' split) <;> exact ⟨⟨rfl, rfl, rfl, rfl, id, rfl, rfl, rfl, rfl⟩, rfl⟩

theorem renditionLoop_penOnly :
    ∀ (fuel : Nat) (terminal : Terminal) (index : Nat),
      PenOnly terminal (renditionLoop parameters fuel terminal index) := by
  intro fuel
  induction fuel with
  | zero => exact fun terminal _ => .refl terminal
  | succ fuel ih =>
    intro terminal index
    unfold renditionLoop
    split
    · exact .refl terminal
    · split
      · exact (setExtendedColor_penOnly terminal parameters index _).trans (ih _ _)
      · exact (applyRendition_penOnly terminal _).trans (ih _ _)

end

theorem At.setGraphicsRendition (h : At promise base P terminal) (parameters : CsiParameters) :
    At promise base P (terminal.setGraphicsRendition parameters) := by
  have hpen : PenOnly terminal (terminal.setGraphicsRendition parameters) := by
    unfold Terminal.setGraphicsRendition
    split
    · exact terminal.resetGraphicsRendition_penOnly
    · exact renditionLoop_penOnly parameters _ terminal 0
  exact h.samePen hpen.same hpen.modes

theorem At.setCursorStyle (h : At promise base P terminal) (parameters : CsiParameters) :
    At promise base P (terminal.setCursorStyle parameters) := by
  unfold Terminal.setCursorStyle
  simp only
  split
  · exact h.samePen ⟨rfl, rfl, rfl, rfl, id, rfl, rfl, rfl, rfl⟩ rfl
  · exact h

end Terminal

end FesTerm
