import FesTerm.Core.Terminal
import FesTerm.Core.Proofs.BufferProofs
import FesTerm.Core.Proofs.ParserProofs

/-!
# A terminal under an operation

`Good` is what holds of a terminal between operations, and `At` what holds of it inside one: the parts
that the operation does not own are those of the terminal it started from, the active buffer is sound,
and a condition on the view of the cursor says how far the operation has come. A step of an operation
leads from one such condition to the next, so the postcondition of an operation is read off its steps.
-/

namespace FesTerm

open Checked

/-- What the placement of a character depends on. -/
structure View where
  column : Nat
  pendingWrap : Bool
  anchor : Option Cursor
  left : Nat
  right : Nat
  modes : TerminalModes

namespace View

def margins (view : View) (columns : Nat) : ColumnSpan :=
  if view.modes.leftRightMarginMode then ⟨view.left, view.right⟩ else ColumnSpan.full columns

def WrapOk (promise : Promise) (dimensions : Dimensions) (view : View) : Prop :=
  promise.wraps = true → view.pendingWrap = true → view.column + 1 = dimensions.columns

structure Settled (promise : Promise) (dimensions : Dimensions) (view : View) : Prop where
  wrap : view.WrapOk promise dimensions
  anchor_le : ∀ anchor ∈ view.anchor, anchor.column ≤ view.column

/-- Settled, with no cluster to extend. -/
structure Calm (promise : Promise) (dimensions : Dimensions) (view : View) : Prop where
  wrap : view.WrapOk promise dimensions
  anchor : view.anchor = none

def Anchorless (view : View) : Prop := view.anchor = none

theorem Calm.settled {promise : Promise} {dimensions : Dimensions} {view : View}
    (h : view.Calm promise dimensions) : view.Settled promise dimensions :=
  ⟨h.wrap, fun anchor ha => by rw [h.anchor] at ha; cases ha⟩

/-- Nothing waits for the next character. -/
structure Rested (view : View) : Prop where
  wrap : view.pendingWrap = false
  anchor : view.anchor = none

theorem Anchorless.calm {promise : Promise} {dimensions : Dimensions} {view : View}
    (h : view.Anchorless) (hwrap : view.pendingWrap = false) : view.Calm promise dimensions :=
  ⟨fun _ hp => absurd (hwrap.symm.trans hp) Bool.false_ne_true, h⟩

end View

namespace Terminal

def view (terminal : Terminal) (buffer : BufferState) : View where
  column := buffer.cursor.column
  pendingWrap := buffer.pendingWrap
  anchor := buffer.graphemeAnchor
  left := buffer.scrollLeft
  right := buffer.scrollRight
  modes := terminal.modes

/-- The buffer behind the active one. -/
def inactive (terminal : Terminal) : Option BufferState :=
  match terminal.activeScreen with
  | .primary => terminal.alternate
  | .alternate => some terminal.primary

variable [Platform]

/-- A terminal between operations. -/
structure Good (promise : Promise) (terminal : Terminal) : Prop where
  parser : terminal.parser.Ok
  utf8 : terminal.utf8.Ok
  title : ∀ character ∈ terminal.title, isControl character = false
  title_le : promise.titles = true → utf8Len terminal.title ≤ 256
  tabStops : terminal.tabStops.length = terminal.dimensions.columns
  hyperlink : terminal.currentHyperlink = none → terminal.currentHyperlinkCellsRemaining = 0
  history : terminal.scrollback.Good promise terminal.dimensions.columns
  active : ∃ buffer, terminal.activeBuffer = some buffer ∧ buffer.Good promise terminal.dimensions
  inactive : ∀ buffer ∈ terminal.inactive, buffer.Good promise terminal.dimensions ∧
    buffer.graphemeAnchor = none

/-- A terminal inside an operation that started from `base`. -/
structure At (promise : Promise) (base : Terminal) (P : View → Prop) (terminal : Terminal) : Prop where
  parser : terminal.parser = base.parser
  utf8 : terminal.utf8 = base.utf8
  title : terminal.title = base.title
  tabStops : terminal.tabStops.length = base.dimensions.columns
  hyperlink : terminal.currentHyperlink = none → terminal.currentHyperlinkCellsRemaining = 0
  activeScreen : terminal.activeScreen = base.activeScreen
  inactive : terminal.inactive = base.inactive
  history : terminal.scrollback.Good promise base.dimensions.columns
  scrollback : base.activeScreen = .alternate → terminal.scrollback = base.scrollback
  active : ∃ buffer, terminal.activeBuffer = some buffer ∧ buffer.Sound promise base.dimensions ∧
    P (terminal.view buffer)

/-- Two terminals with the same contents, up to modes, pen and replies. -/
structure Same (terminal terminal' : Terminal) : Prop where
  parser : terminal'.parser = terminal.parser
  utf8 : terminal'.utf8 = terminal.utf8
  title : terminal'.title = terminal.title
  tabStops : terminal'.tabStops.length = terminal.tabStops.length
  hyperlink : (terminal.currentHyperlink = none → terminal.currentHyperlinkCellsRemaining = 0) →
    terminal'.currentHyperlink = none → terminal'.currentHyperlinkCellsRemaining = 0
  activeScreen : terminal'.activeScreen = terminal.activeScreen
  primary : terminal'.primary = terminal.primary
  alternate : terminal'.alternate = terminal.alternate
  scrollback : terminal'.scrollback = terminal.scrollback

section

variable {promise : Promise} {base terminal terminal' : Terminal} {P Q : View → Prop}
  {buffer buffer' : BufferState}

section

omit [Platform]

theorem setActiveBuffer_activeBuffer (terminal : Terminal) (buffer : BufferState) :
    (terminal.setActiveBuffer buffer).activeBuffer = some buffer := by
  unfold setActiveBuffer activeBuffer
  cases terminal.activeScreen <;> rfl

theorem setActiveBuffer_inactive (terminal : Terminal) (buffer : BufferState) :
    (terminal.setActiveBuffer buffer).inactive = terminal.inactive := by
  unfold setActiveBuffer inactive
  cases terminal.activeScreen <;> rfl

theorem setActiveBuffer_fields (terminal : Terminal) (buffer : BufferState) :
    let changed := terminal.setActiveBuffer buffer
    changed.parser = terminal.parser ∧ changed.utf8 = terminal.utf8 ∧ changed.title = terminal.title ∧
      changed.tabStops = terminal.tabStops ∧ changed.currentHyperlink = terminal.currentHyperlink ∧
      changed.currentHyperlinkCellsRemaining = terminal.currentHyperlinkCellsRemaining ∧
      changed.activeScreen = terminal.activeScreen ∧ changed.scrollback = terminal.scrollback ∧
      changed.modes = terminal.modes := by
  unfold setActiveBuffer
  cases terminal.activeScreen <;> exact ⟨rfl, rfl, rfl, rfl, rfl, rfl, rfl, rfl, rfl⟩

theorem Same.activeBuffer (h : Same terminal terminal') : terminal'.activeBuffer = terminal.activeBuffer := by
  unfold Terminal.activeBuffer
  rw [h.activeScreen, h.primary, h.alternate]

theorem Same.inactive (h : Same terminal terminal') : terminal'.inactive = terminal.inactive := by
  unfold Terminal.inactive
  rw [h.activeScreen, h.primary, h.alternate]

end

theorem Good.at (h : terminal.Good promise) :
    At promise terminal (View.Settled promise terminal.dimensions) terminal where
  parser := rfl
  utf8 := rfl
  title := rfl
  tabStops := h.tabStops
  hyperlink := h.hyperlink
  activeScreen := rfl
  inactive := rfl
  history := h.history
  scrollback _ := rfl
  active := by
    obtain ⟨buffer, hb, hg⟩ := h.active
    exact ⟨buffer, hb, hg.toSound, hg.wrap, hg.anchor_le⟩

theorem At.dimensions (h : At promise base P terminal) : terminal.dimensions = base.dimensions := by
  obtain ⟨buffer, hb, hs, -⟩ := h.active
  unfold Terminal.activeBuffer at hb
  cases hscreen : terminal.activeScreen with
  | primary =>
    rw [hscreen] at hb
    rw [Terminal.dimensions, Option.some.inj hb]
    exact hs.dims
  | alternate =>
    have hbase := h.activeScreen
    have hin := h.inactive
    unfold Terminal.inactive at hin
    rw [hscreen] at hbase hin
    rw [← hbase] at hin
    rw [Terminal.dimensions, Terminal.dimensions, Option.some.inj hin]

theorem At.good (hbase : base.Good promise)
    (h : At promise base (View.Settled promise base.dimensions) terminal) : terminal.Good promise := by
  have hd := h.dimensions
  obtain ⟨buffer, hb, hs, hset⟩ := h.active
  exact {
    parser := by rw [h.parser]; exact hbase.parser
    utf8 := by rw [h.utf8]; exact hbase.utf8
    title := by rw [h.title]; exact hbase.title
    title_le := by rw [h.title]; exact hbase.title_le
    tabStops := by rw [hd]; exact h.tabStops
    hyperlink := h.hyperlink
    history := by rw [hd]; exact h.history
    active := by rw [hd]; exact ⟨buffer, hb, hs, ⟨hset.wrap, hset.anchor_le⟩⟩
    inactive := by rw [hd, h.inactive]; exact hbase.inactive }

theorem At.mono (h : At promise base P terminal) (hpq : ∀ view, P view → Q view) :
    At promise base Q terminal := by
  obtain ⟨buffer, hb, hs, hp⟩ := h.active
  exact { h with active := ⟨buffer, hb, hs, hpq _ hp⟩ }

omit [Platform] in
theorem cursor_eq (hb : terminal.activeBuffer = some buffer) : terminal.cursor = buffer.cursor := by
  unfold Terminal.activeBuffer at hb
  unfold Terminal.cursor
  cases hscreen : terminal.activeScreen with
  | primary =>
    rw [hscreen] at hb
    rw [← Option.some.inj hb]
  | alternate =>
    rw [hscreen] at hb
    rw [show terminal.alternate = some buffer from hb]
    rfl

theorem At.setActiveBuffer (h : At promise base P terminal) (hs : buffer.Sound promise base.dimensions)
    (hq : Q (terminal.view buffer)) : At promise base Q (terminal.setActiveBuffer buffer) := by
  obtain ⟨h1, h2, h3, h4, h5, h6, h7, h8, h9⟩ := terminal.setActiveBuffer_fields buffer
  exact {
    parser := h1.trans h.parser
    utf8 := h2.trans h.utf8
    title := h3.trans h.title
    tabStops := by rw [h4]; exact h.tabStops
    hyperlink := by rw [h5, h6]; exact h.hyperlink
    activeScreen := h7.trans h.activeScreen
    inactive := (terminal.setActiveBuffer_inactive buffer).trans h.inactive
    history := by rw [h8]; exact h.history
    scrollback := by rw [h8]; exact h.scrollback
    active := ⟨buffer, terminal.setActiveBuffer_activeBuffer buffer, hs, by
      rw [show (terminal.setActiveBuffer buffer).view buffer = terminal.view buffer by
        rw [view, h9, view]]
      exact hq⟩ }

theorem At.modifyActive (h : At promise base P terminal) {change : BufferState → Option BufferState}
    (hchange : ∀ buffer, terminal.activeBuffer = some buffer → buffer.Sound promise base.dimensions →
      P (terminal.view buffer) → Yields (change buffer) fun buffer' =>
        buffer'.Sound promise base.dimensions ∧ Q (terminal.view buffer')) :
    Yields (terminal.modifyActive change) (At promise base Q) := by
  obtain ⟨buffer, hb, hs, hp⟩ := h.active
  obtain ⟨buffer', hc, hs', hq⟩ := hchange buffer hb hs hp
  refine ⟨terminal.setActiveBuffer buffer', ?_, h.setActiveBuffer hs' hq⟩
  simp only [Terminal.modifyActive, hb, hc, some_bind]

omit [Platform] in
theorem sound_withScreen {dimensions : Dimensions} {screen : Screen}
    (hs : buffer.Sound promise dimensions) (hk : Screen.Kept promise buffer.screen screen) :
    BufferState.Sound promise dimensions { buffer with screen := screen } :=
  { hs with
    screen := hk.good
    dims := hk.dimensions.trans hs.dims }

theorem At.modifyScreen (h : At promise base P terminal) {change : Screen → Option Screen}
    (hchange : ∀ buffer, terminal.activeBuffer = some buffer → buffer.Sound promise base.dimensions →
      Yields (change buffer.screen) (Screen.Kept promise buffer.screen)) :
    Yields (terminal.modifyScreen change) (At promise base P) :=
  h.modifyActive fun buffer hb hs hp => by
    obtain ⟨screen, hscreen, hk⟩ := hchange buffer hb hs
    exact ⟨{ buffer with screen := screen }, by simp only [hscreen, some_bind],
      sound_withScreen hs hk, hp⟩

theorem At.same (h : At promise base P terminal) (hs : Same terminal terminal')
    (hq : ∀ view, P view → Q { view with modes := terminal'.modes }) : At promise base Q terminal' := by
  obtain ⟨buffer, hb, hsound, hp⟩ := h.active
  exact {
    parser := hs.parser.trans h.parser
    utf8 := hs.utf8.trans h.utf8
    title := hs.title.trans h.title
    tabStops := hs.tabStops.trans h.tabStops
    hyperlink := hs.hyperlink h.hyperlink
    activeScreen := hs.activeScreen.trans h.activeScreen
    inactive := hs.inactive.trans h.inactive
    history := by rw [hs.scrollback]; exact h.history
    scrollback := by rw [hs.scrollback]; exact h.scrollback
    active := ⟨buffer, hs.activeBuffer.trans hb, hsound, hq _ hp⟩ }

theorem At.samePen (h : At promise base P terminal) (hs : Same terminal terminal')
    (hm : terminal'.modes = terminal.modes) : At promise base P terminal' := by
  obtain ⟨buffer, hb, hsound, hp⟩ := h.active
  have hat := h.same (Q := fun _ => True) hs fun _ _ => trivial
  refine { hat with active := ⟨buffer, hs.activeBuffer.trans hb, hsound, ?_⟩ }
  rw [view, hm]
  exact hp

theorem At.withScrollback (h : At promise base P terminal) {scrollback : Scrollback}
    (hg : scrollback.Good promise base.dimensions.columns) (hscreen : base.activeScreen = .primary) :
    At promise base P { terminal with scrollback := scrollback } := by
  obtain ⟨buffer, hb, hs, hp⟩ := h.active
  exact { h with
    history := hg
    scrollback := fun halt => by rw [hscreen] at halt; cases halt
    active := ⟨buffer, hb, hs, hp⟩ }

theorem At.dropHyperlink (h : At promise base P terminal) : At promise base P terminal.dropHyperlink :=
  h.samePen ⟨rfl, rfl, rfl, rfl, fun _ _ => rfl, rfl, rfl, rfl, rfl⟩ rfl

theorem eraseCell_fillOk (terminal : Terminal) : FillOk terminal.eraseCell :=
  ⟨textOk_of_short (by decide) (show utf8Len [' '] ≤ maxGraphemeBytes by decide) rfl
    (show '\n' ∉ [' '] by decide), rfl⟩

section

omit [Platform]

theorem horizontalMargins_eq (hb : terminal.activeBuffer = some buffer) :
    terminal.horizontalMargins = some ((terminal.view buffer).margins terminal.dimensions.columns) := by
  unfold horizontalMargins View.margins
  by_cases hm : terminal.modes.leftRightMarginMode = true
  · simp only [hm, if_true, hb, some_bind, view]
  · simp only [hm, if_false, view, Bool.false_eq_true]

theorem margins_bounds (terminal : Terminal) {dimensions : Dimensions} (hs : buffer.Sound promise dimensions) :
    ((terminal.view buffer).margins dimensions.columns).left <
        ((terminal.view buffer).margins dimensions.columns).right ∧
      ((terminal.view buffer).margins dimensions.columns).right < dimensions.columns := by
  have := dimensions.two_le_columns
  unfold View.margins
  split
  · exact ⟨hs.left_lt, hs.right_lt⟩
  · simp only [ColumnSpan.full]
    omega

theorem margins_fits {dimensions : Dimensions} (hs : buffer.Sound promise dimensions) :
    buffer.screen.Fits ((terminal.view buffer).margins dimensions.columns) := by
  obtain ⟨hlt, hright⟩ := margins_bounds terminal hs
  exact ⟨Nat.le_of_lt hlt, by rw [hs.dims]; exact hright⟩

theorem cursorWithinMargins_eq (hb : terminal.activeBuffer = some buffer) :
    terminal.cursorWithinMargins = some (
      decide (((terminal.view buffer).margins terminal.dimensions.columns).left ≤ buffer.cursor.column) &&
        decide (buffer.cursor.column ≤
          ((terminal.view buffer).margins terminal.dimensions.columns).right)) := by
  unfold cursorWithinMargins
  simp only [horizontalMargins_eq hb, hb, some_bind]

end

theorem At.scrollRegionUp (h : At promise base P terminal) (count : Nat) {span : ColumnSpan}
    (hfits : ∀ buffer, terminal.activeBuffer = some buffer → buffer.screen.Fits span) :
    Yields (terminal.scrollRegionUp count span) (At promise base P) := by
  have hd := h.dimensions
  obtain ⟨buffer, hb, hs, hp⟩ := h.active
  obtain ⟨removed, screen, heq, hk, hrows⟩ := Screen.scrollUp_kept hs.screen hs.top_le
    (by rw [hs.dims]; exact hs.bottom_lt) count terminal.eraseCell_fillOk (hfits buffer hb)
  have hscrolled : At promise base P
      (terminal.setActiveBuffer { buffer with screen := screen }) :=
    h.setActiveBuffer (sound_withScreen hs hk) hp
  unfold Terminal.scrollRegionUp
  simp only [hb, heq, some_bind]
  by_cases hretain : terminal.retainHistory span = true
  · rw [if_pos hretain]
    have hprimary : base.activeScreen = .primary := by
      simp only [retainHistory, Bool.and_eq_true, beq_iff_eq] at hretain
      rw [← h.activeScreen]
      exact hretain.1.1.1.1
    obtain ⟨scrollback, hpush, hgood⟩ := h.history.pushRows fun row hr => by
      have := hrows row hr
      rw [hs.dims] at this
      exact this.retained
    rw [hpush]
    exact .some (hscrolled.withScrollback hgood hprimary)
  · rw [if_neg hretain]
    exact .some hscrolled

theorem At.setCursorRow (h : At promise base P terminal) (hb : terminal.activeBuffer = some buffer)
    {row : Nat} (hrow : row < base.dimensions.rows) :
    At promise base P (terminal.setActiveBuffer { buffer with cursor := ⟨buffer.cursor.column, row⟩ }) := by
  obtain ⟨buffer', hb', hs, hp⟩ := h.active
  cases hb.symm.trans hb'
  exact h.setActiveBuffer { hs with cursor := ⟨hs.cursor.1, hrow⟩ } hp

theorem At.index (h : At promise base P terminal) : Yields terminal.index (At promise base P) := by
  have hd := h.dimensions
  obtain ⟨buffer, hb, hs, -⟩ := h.active
  unfold Terminal.index
  simp only [horizontalMargins_eq hb, cursorWithinMargins_eq hb, hb, Option.bind_eq_bind, Option.bind_some]
  split
  · split
    · refine h.scrollRegionUp 1 fun buffer' hb' => ?_
      cases hb.symm.trans hb'
      rw [hd]
      exact margins_fits hs
    · exact .some h
  · split
    · next hlt =>
      rw [hd] at hlt
      exact .some (h.setCursorRow hb hlt)
    · exact .some h

theorem At.reverseIndex (h : At promise base P terminal) :
    Yields terminal.reverseIndex (At promise base P) := by
  have hd := h.dimensions
  obtain ⟨buffer, hb, hs, -⟩ := h.active
  unfold Terminal.reverseIndex
  simp only [horizontalMargins_eq hb, cursorWithinMargins_eq hb, hb, Option.bind_eq_bind, Option.bind_some]
  split
  · split
    · refine h.modifyScreen fun buffer' hb' hs' => ?_
      cases hb.symm.trans hb'
      rw [hd]
      exact Screen.shiftDown_kept hs.screen hs.top_le (by rw [hs.dims]; exact hs.bottom_lt) 1
        terminal.eraseCell_fillOk (margins_fits hs)
    · exact .some h
  · have := hs.cursor.2
    exact .some (h.setCursorRow hb (by omega))

theorem At.scrollUp (h : At promise base P terminal) (parameters : CsiParameters) :
    Yields (terminal.scrollUp parameters) (At promise base P) := by
  obtain ⟨buffer, hb, hs, -⟩ := h.active
  unfold Terminal.scrollUp
  simp only [horizontalMargins_eq hb, some_bind]
  refine h.scrollRegionUp _ fun buffer' hb' => ?_
  cases hb.symm.trans hb'
  rw [h.dimensions]
  exact margins_fits hs

theorem At.scrollDown (h : At promise base P terminal) (parameters : CsiParameters) :
    Yields (terminal.scrollDown parameters) (At promise base P) := by
  obtain ⟨buffer, hb, hs, -⟩ := h.active
  unfold Terminal.scrollDown
  simp only [horizontalMargins_eq hb, hb, some_bind]
  refine h.modifyScreen fun buffer' hb' hs' => ?_
  cases hb.symm.trans hb'
  rw [h.dimensions]
  exact Screen.shiftDown_kept hs.screen hs.top_le (by rw [hs.dims]; exact hs.bottom_lt) _
    terminal.eraseCell_fillOk (margins_fits hs)

theorem At.lineBreak (h : At promise base P terminal) : Yields terminal.lineBreak (At promise base P) := by
  have hend : Yields terminal.dropHyperlink.endLogicalLine (At promise base P) :=
    h.dropHyperlink.modifyActive fun buffer _ hs hp => by
      obtain ⟨screen, heq, hk⟩ := Screen.setSoftWrapped_kept hs.screen buffer.cursor.row false
      exact ⟨{ buffer with screen := screen }, by rw [Screen.clearSoftWrapped, heq]; rfl,
        sound_withScreen hs hk, hp⟩
  exact hend.bind fun terminal ht => ht.index

theorem At.setCursorColumn (h : At promise base P terminal) {column : Nat}
    (hcolumn : column < base.dimensions.columns)
    (hq : ∀ view, P view → Q { view with column := column }) :
    Yields (terminal.setCursorColumn column) (At promise base Q) :=
  h.modifyActive fun _ _ hs hp =>
    .some ⟨{ hs with cursor := ⟨hcolumn, hs.cursor.2⟩ }, hq _ hp⟩

theorem At.clearPendingWrap (h : At promise base P terminal)
    (hq : ∀ view, P view → Q { view with pendingWrap := false }) :
    Yields terminal.clearPendingWrap (At promise base Q) :=
  h.modifyActive fun _ _ hs hp => .some ⟨{ hs with }, hq _ hp⟩

theorem At.clearGraphemeAnchor (h : At promise base P terminal)
    (hq : ∀ view, P view → Q { view with anchor := none }) :
    Yields terminal.clearGraphemeAnchor (At promise base Q) :=
  h.modifyActive fun _ _ hs hp => .some ⟨{ hs with anchor := fun _ ha => by cases ha }, hq _ hp⟩

end

end Terminal

end FesTerm
