import FesTerm.Core.Proofs.PrintProofs

/-!
# Modes, screens and reports

Switching modes is the one operation that can change the active screen. A sequence either enters the
alternate screen or leaves it, never both, so that a terminal that is still on the alternate screen
after the sequence has not touched the primary one: `Crosses` carries this through the loop over the
modes. Reports only fill the reply queue.
-/

namespace FesTerm

open Checked

namespace Terminal

variable [Platform]

variable {promise : Promise} {base terminal terminal' terminal'' : Terminal} {P : View → Prop}
  {buffer : BufferState}

/-- A terminal between operations with no cluster to extend. -/
structure Quiet (promise : Promise) (terminal : Terminal) : Prop extends Good promise terminal where
  anchorless : ∀ buffer, terminal.activeBuffer = some buffer → buffer.graphemeAnchor = none

/-- What a mode switch in one direction keeps. -/
structure Crosses (enabled : Bool) (terminal terminal' : Terminal) : Prop where
  parser : terminal'.parser = terminal.parser
  utf8 : terminal'.utf8 = terminal.utf8
  stay : terminal.activeScreen = .alternate →
    terminal'.activeScreen = .alternate ∧ terminal'.primary = terminal.primary ∧
        terminal'.scrollback = terminal.scrollback ∨
      enabled = false ∧ terminal'.activeScreen = .primary
  home : enabled = false → terminal.activeScreen = .primary → terminal'.activeScreen = .primary

omit [Platform] in
theorem Crosses.refl (enabled : Bool) (terminal : Terminal) : Crosses enabled terminal terminal :=
  ⟨rfl, rfl, fun h => .inl ⟨h, rfl, rfl⟩, fun _ h => h⟩

omit [Platform] in
theorem Crosses.trans {enabled : Bool} (h : Crosses enabled terminal terminal')
    (h' : Crosses enabled terminal' terminal'') : Crosses enabled terminal terminal'' where
  parser := h'.parser.trans h.parser
  utf8 := h'.utf8.trans h.utf8
  stay halt := by
    rcases h.stay halt with ⟨halt', hprimary, hscrollback⟩ | ⟨hoff, hprimary⟩
    · rcases h'.stay halt' with ⟨halt'', hprimary', hscrollback'⟩ | hleft
      · exact .inl ⟨halt'', hprimary'.trans hprimary, hscrollback'.trans hscrollback⟩
      · exact .inr hleft
    · exact .inr ⟨hoff, h'.home hoff hprimary⟩
  home hoff hprimary := h'.home hoff (h.home hoff hprimary)

theorem At.isolated (h : At promise base P terminal) (halt : base.activeScreen = .alternate) :
    terminal.activeScreen = .alternate ∧ terminal.primary = base.primary ∧
      terminal.scrollback = base.scrollback := by
  have hscreen := h.activeScreen.trans halt
  have hin := h.inactive
  unfold Terminal.inactive at hin
  rw [hscreen, halt] at hin
  exact ⟨hscreen, Option.some.inj hin, h.scrollback halt⟩

theorem At.crosses (h : At promise base P terminal) (enabled : Bool) : Crosses enabled base terminal :=
  ⟨h.parser, h.utf8, fun halt => .inl (h.isolated halt), fun _ hp => h.activeScreen.trans hp⟩

theorem Quiet.calmAt (h : terminal.Quiet promise) : CalmAt promise terminal terminal := by
  obtain ⟨buffer, hb, hg⟩ := h.active
  exact { h.toGood.at with active := ⟨buffer, hb, hg.toSound, hg.wrap, h.anchorless buffer hb⟩ }

theorem CalmAt.quiet (hbase : base.Good promise) (h : CalmAt promise base terminal) :
    terminal.Quiet promise where
  toGood := At.good hbase (h.mono fun _ hv => hv.settled)
  anchorless buffer hb := by
    obtain ⟨buffer', hb', -, hv⟩ := h.active
    cases hb.symm.trans hb'
    exact hv.anchor

omit [Platform] in
theorem sound_markAllDirty {dimensions : Dimensions} (h : buffer.Good promise dimensions) :
    BufferState.Good promise dimensions { buffer with screen := buffer.screen.markAllDirty } where
  toSound := sound_withScreen h.toSound (Screen.markAllDirty_kept h.screen)
  toSettled := ⟨h.wrap, h.anchor_le⟩

omit [Platform] in
theorem clearAlternate_good {dimensions : Dimensions} (h : buffer.Good promise dimensions) {cell : Cell}
    (hf : FillOk cell) : (clearAlternate buffer cell dimensions.rows).Good promise dimensions where
  screen := (Screen.clearAll_kept h.screen hf).good
  dims := (Screen.clearAll_kept h.screen hf).dimensions.trans h.dims
  cursor := BufferState.origin_inGrid dimensions
  top_le := Nat.zero_le _
  bottom_lt := BufferState.last_row dimensions
  left_lt := h.left_lt
  right_lt := h.right_lt
  anchor _ ha := by cases ha
  decSaved := h.decSaved
  ansiSaved := h.ansiSaved
  toSettled := BufferState.settled_of_none rfl rfl

theorem Quiet.primary_good (h : terminal.Quiet promise) (hscreen : terminal.activeScreen = .primary) :
    terminal.primary.Good promise terminal.dimensions ∧ terminal.primary.graphemeAnchor = none ∧
      ∀ buffer ∈ terminal.alternate, buffer.Good promise terminal.dimensions ∧
        buffer.graphemeAnchor = none := by
  have hactive : terminal.activeBuffer = some terminal.primary := by
    rw [Terminal.activeBuffer, hscreen]
  have hinactive := h.inactive
  rw [Terminal.inactive, hscreen] at hinactive
  obtain ⟨buffer, hb, hg⟩ := h.active
  cases hactive.symm.trans hb
  exact ⟨hg, h.anchorless _ hactive, hinactive⟩

theorem Good.alternate_good (h : terminal.Good promise) (hscreen : terminal.activeScreen = .alternate) :
    terminal.primary.Good promise terminal.dimensions ∧ terminal.primary.graphemeAnchor = none ∧
      ∃ buffer, terminal.alternate = some buffer ∧ buffer.Good promise terminal.dimensions := by
  have hinactive := h.inactive
  rw [Terminal.inactive, hscreen] at hinactive
  obtain ⟨hg, ha⟩ := hinactive _ rfl
  obtain ⟨buffer, hb, hgood⟩ := h.active
  rw [Terminal.activeBuffer, hscreen] at hb
  exact ⟨hg, ha, buffer, hb, hgood⟩

theorem Quiet.enterAlternate (h : terminal.Quiet promise) (clear : Bool) :
    Yields (terminal.enterAlternate clear) fun terminal' =>
      terminal'.Quiet promise ∧ Crosses true terminal terminal' := by
  unfold Terminal.enterAlternate
  by_cases hscreen : terminal.activeScreen = .alternate
  · rw [if_pos hscreen]
    exact .some ⟨h, .refl true terminal⟩
  rw [if_neg hscreen]
  have hprimary : terminal.activeScreen = .primary := by
    cases hs : terminal.activeScreen with
    | primary => rfl
    | alternate => exact absurd hs hscreen
  obtain ⟨hg, ha, halternate⟩ := h.primary_good hprimary
  -- the alternate buffer that is shown, before it is marked for drawing
  obtain ⟨shown, hshown, hgood, hanchor⟩ : ∃ shown, (if clear then
      clearAlternate (terminal.dropHyperlink.alternate.getD (.new terminal.dropHyperlink.dimensions))
        terminal.dropHyperlink.eraseCell terminal.dropHyperlink.dimensions.rows
      else terminal.dropHyperlink.alternate.getD (.new terminal.dropHyperlink.dimensions)) = shown ∧
      shown.Good promise terminal.dimensions ∧ shown.graphemeAnchor = none := by
    have hold : (terminal.dropHyperlink.alternate.getD (.new terminal.dropHyperlink.dimensions)).Good
        promise terminal.dimensions ∧
        (terminal.dropHyperlink.alternate.getD (.new terminal.dropHyperlink.dimensions)).graphemeAnchor =
          none := by
      cases hb : terminal.dropHyperlink.alternate with
      | none => exact ⟨BufferState.new_good _, rfl⟩
      | some buffer => exact halternate buffer hb
    refine ⟨_, rfl, ?_⟩
    split
    · exact ⟨clearAlternate_good hold.1 (eraseCell_fillOk _), rfl⟩
    · exact hold
  simp only [hshown]
  refine .some ⟨{
      parser := h.parser
      utf8 := h.utf8
      title := h.title
      title_le := h.title_le
      tabStops := h.tabStops
      hyperlink := fun _ => rfl
      history := h.history
      active := ⟨_, rfl, sound_markAllDirty hgood⟩
      inactive := fun buffer hb => ?_
      anchorless := fun buffer hb => ?_ }, ⟨rfl, rfl, fun halt => absurd halt hscreen, fun hoff => ?_⟩⟩
  · cases hb
    exact ⟨hg, ha⟩
  · cases hb
    exact hanchor
  · cases hoff

theorem Quiet.leaveAlternate (h : terminal.Quiet promise) (reset : Bool) :
    (terminal.leaveAlternate reset).Quiet promise ∧
      Crosses false terminal (terminal.leaveAlternate reset) := by
  -- both buffers are good, whichever is shown
  obtain ⟨hg, ha, halternate⟩ : terminal.primary.Good promise terminal.dimensions ∧
      terminal.primary.graphemeAnchor = none ∧ ∀ buffer ∈ terminal.alternate,
        buffer.Good promise terminal.dimensions ∧ buffer.graphemeAnchor = none := by
    cases hscreen : terminal.activeScreen with
    | primary => exact h.primary_good hscreen
    | alternate =>
      obtain ⟨hg, ha, buffer, hb, hgood⟩ := h.toGood.alternate_good hscreen
      refine ⟨hg, ha, fun buffer' hb' => ?_⟩
      cases hb.symm.trans hb'
      exact ⟨hgood, h.anchorless buffer (by rw [Terminal.activeBuffer, hscreen]; exact hb)⟩
  have hreset : ∀ buffer ∈ (if reset then terminal.alternate.map BufferState.reset
      else terminal.alternate), buffer.Good promise terminal.dimensions ∧
        buffer.graphemeAnchor = none := by
    intro buffer hb
    split at hb
    · obtain ⟨old, hold, rfl⟩ := Option.map_eq_some_iff.mp hb
      exact ⟨BufferState.reset_good (halternate old hold).1.toSound, rfl⟩
    · exact halternate buffer hb
  obtain ⟨primary, generation, hprimary, hanchor, heq⟩ : ∃ primary generation,
      primary.Good promise terminal.dimensions ∧ primary.graphemeAnchor = none ∧
      terminal.leaveAlternate reset = { terminal with
        primary := primary
        alternate := if reset then terminal.alternate.map BufferState.reset else terminal.alternate
        activeScreen := .primary
        screenGeneration := generation
        modes := { terminal.modes with alternateScreen := false }
        currentHyperlink := none
        currentHyperlinkCellsRemaining := 0 } := by
    unfold Terminal.leaveAlternate
    cases hscreen : terminal.activeScreen with
    | primary =>
      refine ⟨terminal.primary, terminal.screenGeneration, hg, ha, ?_⟩
      cases reset <;> simp [dropHyperlink, hscreen]
    | alternate =>
      refine ⟨{ terminal.primary with screen := terminal.primary.screen.markAllDirty },
        terminal.screenGeneration + 1, sound_markAllDirty hg, ha, ?_⟩
      cases reset <;> simp [dropHyperlink, hscreen, advanceScreenGeneration]
  have hdims : primary.screen.dimensions = terminal.dimensions := hprimary.dims
  rw [heq]
  refine ⟨{
      parser := h.parser
      utf8 := h.utf8
      title := h.title
      title_le := h.title_le
      tabStops := by rw [Terminal.dimensions, hdims]; exact h.tabStops
      hyperlink := fun _ => rfl
      history := by rw [Terminal.dimensions, hdims]; exact h.history
      active := ⟨primary, rfl, by rw [Terminal.dimensions, hdims]; exact hprimary⟩
      inactive := fun buffer hb => by rw [Terminal.dimensions, hdims]; exact hreset buffer hb
      anchorless := fun buffer hb => ?_ }, ⟨rfl, rfl, fun _ => .inr ⟨rfl, rfl⟩, fun _ _ => rfl⟩⟩
  cases hb
  exact hanchor

theorem CalmAt.softReset (h : CalmAt promise base terminal) :
    Yields terminal.softReset (CalmAt promise base) := by
  have hd := h.dimensions
  have hmodes : CalmAt promise base (resetGraphicsRendition { terminal with
      modes := { terminal.modes with
        originMode := false
        autoWrap := true
        cursorVisible := true
        applicationCursor := false
        applicationKeypad := false
        leftRightMarginMode := false
        insertMode := false }
      currentProtected := false
      protection := .none }) := h.same ⟨rfl, rfl, rfl, rfl, fun _ _ => rfl, rfl, rfl, rfl, rfl⟩
  refine hmodes.modifyActive fun buffer _ hs hp => ?_
  have hrest := BufferState.rest_good hs.screen hs.dims
  rw [hmodes.dimensions]
  exact .some ⟨{ hs with
    top_le := hrest.top_le
    bottom_lt := hrest.bottom_lt
    left_lt := hrest.left_lt
    right_lt := hrest.right_lt
    decSaved := nofun
    ansiSaved := fun _ hs' => by cases hs' }, View.Anchorless.calm hp.anchor rfl⟩

theorem CalmAt.setMouseTracking (h : CalmAt promise base terminal) (requested : MouseTrackingMode)
    (enabled : Bool) : CalmAt promise base (terminal.setMouseTracking requested enabled) := by
  unfold Terminal.setMouseTracking
  split
  · exact h.same ⟨rfl, rfl, rfl, rfl, id, rfl, rfl, rfl, rfl⟩
  · split
    · exact h.same ⟨rfl, rfl, rfl, rfl, id, rfl, rfl, rfl, rfl⟩
    · exact h

theorem CalmAt.setAnsiMode (h : CalmAt promise base terminal) (enabled : Bool) (mode : Nat) :
    CalmAt promise base (terminal.setAnsiMode enabled mode) := by
  unfold Terminal.setAnsiMode
  split
  · exact h.same ⟨rfl, rfl, rfl, rfl, id, rfl, rfl, rfl, rfl⟩
  · exact h.same ⟨rfl, rfl, rfl, rfl, id, rfl, rfl, rfl, rfl⟩
  · exact h.same ⟨rfl, rfl, rfl, rfl, id, rfl, rfl, rfl, rfl⟩
  · exact h

/-- A step of `set_modes` and the direction it goes in. -/
abbrev Switched (promise : Promise) (enabled : Bool) (terminal terminal' : Terminal) : Prop :=
  terminal'.Quiet promise ∧ Crosses enabled terminal terminal'

theorem Quiet.switched (h : terminal.Quiet promise) (enabled : Bool) {x : Option Terminal}
    (hx : Yields x (CalmAt promise terminal)) : Yields x (Switched promise enabled terminal) :=
  hx.mono fun _ ht => ⟨CalmAt.quiet h.toGood ht, ht.crosses enabled⟩

theorem Quiet.setPrivateMode (h : terminal.Quiet promise) (enabled : Bool) (mode : Nat) :
    Yields (terminal.setPrivateMode enabled mode) (Switched promise enabled terminal) := by
  have hcalm := h.calmAt
  unfold Terminal.setPrivateMode
  split
  case h_2 => -- origin mode
    exact h.switched enabled (LooseAt.homeCursor
      (hcalm.loose.same ⟨rfl, rfl, rfl, rfl, id, rfl, rfl, rfl, rfl⟩))
  case h_3 => -- autowrap
    refine h.switched enabled ?_
    have hmodes : CalmAt promise terminal { terminal with
        modes := { terminal.modes with autoWrap := enabled } } :=
      hcalm.same ⟨rfl, rfl, rfl, rfl, id, rfl, rfl, rfl, rfl⟩
    split
    · exact .some hmodes
    · exact hmodes.loose.clearPendingWrap
  case h_8 => -- left and right margins
    refine h.switched enabled ?_
    have hmodes : CalmAt promise terminal { terminal with
        modes := { terminal.modes with leftRightMarginMode := enabled } } :=
      hcalm.same ⟨rfl, rfl, rfl, rfl, id, rfl, rfl, rfl, rfl⟩
    split
    · exact .some hmodes
    · refine hmodes.modifyActive fun buffer _ hs hp => ?_
      have hrest := BufferState.rest_good hs.screen hs.dims
      rw [hmodes.dimensions]
      exact .some ⟨{ hs with left_lt := hrest.left_lt, right_lt := hrest.right_lt }, hp.wrap, hp.anchor⟩
  case h_9 => exact h.switched enabled (.some (hcalm.setMouseTracking _ _))
  case h_10 => exact h.switched enabled (.some (hcalm.setMouseTracking _ _))
  case h_11 => exact h.switched enabled (.some (hcalm.setMouseTracking _ _))
  case h_12 => exact h.switched enabled (.some (hcalm.setMouseTracking _ _))
  case h_16 => -- 47
    cases enabled with
    | true => exact h.enterAlternate false
    | false => exact .some (h.leaveAlternate false)
  case h_17 => -- 1047
    cases enabled with
    | true => exact h.enterAlternate true
    | false => exact .some (h.leaveAlternate true)
  case h_18 => -- 1048
    cases enabled with
    | true => exact h.switched true hcalm.saveDec
    | false => exact h.switched false hcalm.restoreDec
  case h_19 => -- 1049
    cases enabled with
    | true =>
      refine Yields.bind (h.switched true hcalm.saveDec) fun saved hs => ?_
      exact (hs.1.enterAlternate true).mono fun _ ht => ⟨ht.1, hs.2.trans ht.2⟩
    | false =>
      obtain ⟨hquiet, hcross⟩ := h.leaveAlternate true
      exact (hquiet.switched false hquiet.calmAt.restoreDec).mono fun _ ht => ⟨ht.1, hcross.trans ht.2⟩
  case h_20 => exact .some ⟨h, .refl enabled terminal⟩
  all_goals exact h.switched enabled (.some (hcalm.same ⟨rfl, rfl, rfl, rfl, id, rfl, rfl, rfl, rfl⟩))

theorem Quiet.setModes (h : terminal.Quiet promise) («private» enabled : Bool) (parameters : CsiParameters) :
    Yields (terminal.setModes «private» enabled parameters) (Switched promise enabled terminal) := by
  refine forRange_yields (I := Switched promise enabled terminal) ⟨h, .refl enabled terminal⟩
    fun current index _ _ hcurrent => ?_
  obtain ⟨hquiet, hcross⟩ := hcurrent
  cases parameters.value index with
  | none => exact .some ⟨hquiet, hcross⟩
  | some mode =>
    simp only
    split
    · exact (hquiet.setPrivateMode enabled mode).mono fun _ ht => ⟨ht.1, hcross.trans ht.2⟩
    · exact (hquiet.switched enabled (.some (hquiet.calmAt.setAnsiMode enabled mode))).mono
        fun _ ht => ⟨ht.1, hcross.trans ht.2⟩

theorem At.queueReply (h : At promise base P terminal) (bytes : List UInt8) :
    At promise base P (terminal.queueReply bytes) :=
  h.samePen ⟨rfl, rfl, rfl, rfl, id, rfl, rfl, rfl, rfl⟩ rfl

theorem checksumRegion_lt (h : At promise base P terminal) : Yields terminal.checksumRegion fun region =>
      region.1 < region.2.1 ∧ region.2.2.1 < region.2.2.2 := by
  have hd := h.dimensions
  obtain ⟨buffer, hb, hs, -⟩ := h.active
  obtain ⟨hlt, -⟩ := margins_bounds terminal hs
  have htop := hs.top_le
  have hcolumns := base.dimensions.two_le_columns
  unfold checksumRegion
  simp only [hb, horizontalMargins_eq hb, hd, some_bind]
  split
  · exact .some ⟨by simp only; omega, by simp only; omega⟩
  · exact .some ⟨base.dimensions.one_le_rows, by simp only; omega⟩

theorem At.requestRectangleChecksum (h : At promise base P terminal) (parameters : CsiParameters) :
    Yields (terminal.requestRectangleChecksum parameters) (At promise base P) := by
  obtain ⟨buffer, hb, hs, -⟩ := h.active
  obtain ⟨⟨rowOrigin, rowLimit, columnOrigin, columnLimit⟩, heq, hrow, hcolumn⟩ := checksumRegion_lt h
  simp only at hrow hcolumn
  have h1 := parameterOr_pos parameters 2 (Nat.le_refl 1)
  have h2 := parameterOr_pos parameters 3 (Nat.le_refl 1)
  unfold Terminal.requestRectangleChecksum
  simp only [hb, heq, Option.bind_eq_bind, Option.bind_some,
    sub_eq (Nat.le_trans h1 (Nat.le_add_left _ rowOrigin)),
    sub_eq (Nat.le_trans h2 (Nat.le_add_left _ columnOrigin)),
    sub_eq (Nat.le_of_lt hrow), sub_eq (Nat.le_of_lt hcolumn)]
  refine Yields.bind (Q := fun _ => True) (forRange_yields (I := fun _ => True) trivial
    fun checksum row _ _ _ => forRange_yields (I := fun _ => True) trivial
      fun checksum column _ _ _ => ?_) fun checksum _ => .some (h.queueReply _)
  obtain ⟨cell, hcell⟩ := BufferState.cell_total hs.screen.toShape column row
  rw [hcell, Option.bind_some]
  cases cell with
  | none | some cell => exact .some trivial

theorem At.windowOperation (h : At promise base P terminal) (parameters : CsiParameters) :
    Yields (terminal.windowOperation parameters) (At promise base P) := by
  obtain ⟨buffer, hb, -, -⟩ := h.active
  unfold Terminal.windowOperation
  simp only [hb, some_bind]
  split
  · exact .some (h.queueReply _)
  · exact .some (h.queueReply _)
  · exact .some h

theorem At.deviceStatus (h : At promise base P terminal) (parameters : CsiParameters) :
    Yields (terminal.deviceStatus parameters) (At promise base P) := by
  obtain ⟨buffer, hb, -, -⟩ := h.active
  unfold Terminal.deviceStatus
  simp only [hb, horizontalMargins_eq hb, some_bind]
  split
  · exact .some (h.queueReply _)
  · exact .some (h.queueReply _)
  · exact .some h

theorem At.requestMode (h : At promise base P terminal) («private» : Bool) (parameters : CsiParameters) :
    At promise base P (terminal.requestMode «private» parameters) := by
  unfold Terminal.requestMode
  split
  · exact h
  · exact h.queueReply _

theorem At.decDeviceStatus (h : At promise base P terminal) (parameters : CsiParameters) :
    At promise base P (terminal.decDeviceStatus parameters) := by
  unfold Terminal.decDeviceStatus
  split
  all_goals first | exact h | exact h.queueReply _

theorem At.deviceAttributes (h : At promise base P terminal) (secondary : Bool) :
    At promise base P (terminal.deviceAttributes secondary) := h.queueReply _

end Terminal

end FesTerm
