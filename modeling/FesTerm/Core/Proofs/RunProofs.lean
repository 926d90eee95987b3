import FesTerm.Core.Proofs.DispatchProofs

/-!
# Runs

An embedder feeds bytes to a terminal, resizes it, bounds and clears its history, and resets it. Each
event leads from a steady terminal to a steady one as long as its bytes keep the promise, so a run
that keeps its promise is steady throughout. Nothing has to be kept for the empty promise: the program
meets no failing index or subtraction in any run at all.
-/

namespace FesTerm

open Checked Option

variable (dimensions : Dimensions) (limitBytes : ByteLimit)

namespace Terminal

variable [Platform] {promise : Promise} {terminal terminal' : Terminal}

omit [Platform] in
theorem resizedTabStops_length (existing : List Bool) (dimensions : Dimensions) :
    (resizedTabStops existing dimensions).length = dimensions.columns := by
  simp [resizedTabStops]

omit [Platform] in
theorem defaultTabStops_length : (defaultTabStops dimensions).length = dimensions.columns := by
  simp [defaultTabStops]

theorem withScrollbackLimit_steady : (withScrollbackLimit dimensions limitBytes).Steady promise where
  parser := Parser.ok_new
  utf8 := Utf8Decoder.ok_new
  title _ h := by cases h
  title_le _ := Nat.zero_le _
  tabStops := defaultTabStops_length dimensions
  hyperlink _ := rfl
  history := Scrollback.good_new limitBytes
  active := ⟨_, rfl, BufferState.new_good dimensions⟩
  inactive _ h := by cases h
  taken := rfl

theorem Good.buffers (h : terminal.Good promise) : terminal.primary.Good promise terminal.dimensions ∧
      ∀ buffer ∈ terminal.alternate, buffer.Good promise terminal.dimensions := by
  obtain ⟨buffer, hb, hgood⟩ := h.active
  have hinactive := h.inactive
  unfold Terminal.activeBuffer at hb
  unfold Terminal.inactive at hinactive
  cases hscreen : terminal.activeScreen with
  | primary =>
    rw [hscreen] at hb hinactive
    cases hb
    exact ⟨hgood, fun alternate ha => (hinactive alternate ha).1⟩
  | alternate =>
    rw [hscreen] at hb hinactive
    refine ⟨(hinactive _ rfl).1, fun alternate ha => ?_⟩
    rw [mem_def, show terminal.alternate = some buffer from hb] at ha
    cases ha
    exact hgood

theorem Good.resizedAlternate (h : terminal.Good promise) (dimensions : Dimensions) :
    Yields (terminal.resizedAlternate dimensions) fun alternate =>
      (∀ buffer ∈ alternate, buffer.Good promise dimensions) ∧
      (terminal.alternate.isSome → alternate.isSome) ∧
      ((∀ buffer ∈ terminal.alternate, buffer.graphemeAnchor = none) →
        ∀ buffer ∈ alternate, buffer.graphemeAnchor = none) := by
  have hgood := h.buffers.2
  unfold Terminal.resizedAlternate
  cases hd : terminal.alternate with
  | none => exact .some ⟨fun _ hb => (by cases hb), id, fun _ _ hb => (by cases hb)⟩
  | some buffer =>
    obtain ⟨buffer', heq, hgood', hanchor⟩ := BufferState.resized_good (hgood buffer hd) dimensions
    refine ⟨some buffer', by simp only [heq, map_some], ?_, fun _ => rfl, ?_⟩
    · intro b hb
      cases hb
      exact hgood'
    · intro hnone b hb
      cases hb
      exact hanchor (hnone buffer rfl)

theorem Steady.resizeWithContentPositions (h : terminal.Steady promise) (dimensions : Dimensions)
    (positions : List ContentPosition) :
    Yields (terminal.resizeWithContentPositions dimensions positions) fun result =>
      result.1.Steady promise := by
  obtain ⟨primary, kept, moved, heq, hprimary, hanchor, hkept⟩ :=
    BufferState.Sound.reflowed h.buffers.1.toSound h.history dimensions positions
  obtain ⟨alternate, halternate, hgood, hsome, hnone⟩ := h.toGood.resizedAlternate dimensions
  have hdims : primary.screen.dimensions = dimensions := hprimary.dims
  unfold Terminal.resizeWithContentPositions
  simp only [heq, halternate, some_bind]
  refine .some ⟨{
    parser := h.parser
    utf8 := h.utf8
    title := h.title
    title_le := h.title_le
    tabStops := ?_
    hyperlink := h.hyperlink
    history := ?_
    active := ?_
    inactive := ?_ }, h.taken⟩
  · simp only [Terminal.dimensions, hdims]
    exact resizedTabStops_length _ _
  · simp only [Terminal.dimensions, hdims]
    exact hkept
  · simp only [Terminal.dimensions, hdims, Terminal.activeBuffer]
    cases hscreen : terminal.activeScreen with
    | primary => exact ⟨primary, rfl, hprimary⟩
    | alternate =>
      obtain ⟨-, -, buffer, hb, -⟩ := h.toGood.alternate_good hscreen
      obtain ⟨buffer', hb'⟩ := isSome_iff_exists.mp (hsome (by rw [hb]; rfl))
      exact ⟨buffer', hb', hgood buffer' hb'⟩
  · simp only [Terminal.dimensions, hdims, Terminal.inactive]
    have hinactive := h.inactive
    unfold Terminal.inactive at hinactive
    cases hscreen : terminal.activeScreen with
    | primary =>
      rw [hscreen] at hinactive
      exact fun buffer hb => ⟨hgood buffer hb, hnone (fun b hb => (hinactive b hb).2) buffer hb⟩
    | alternate =>
      intro buffer hb
      cases hb
      exact ⟨hprimary, hanchor⟩

theorem Steady.resize (h : terminal.Steady promise) (dimensions : Dimensions) :
    Yields (terminal.resize dimensions) (Steady promise) :=
  Yields.bind (h.resizeWithContentPositions dimensions []) fun _ hs => .some hs

theorem Steady.withScrollback (h : terminal.Steady promise) {scrollback : Scrollback}
    (hgood : scrollback.Good promise terminal.dimensions.columns) :
    Steady promise { terminal with scrollback := scrollback } where
  toGood := { h.toGood with history := hgood }
  taken := h.taken

theorem Steady.setScrollbackLimit (h : terminal.Steady promise) (limitBytes : ByteLimit) :
    Yields (terminal.setScrollbackLimit limitBytes) (Steady promise) := by
  obtain ⟨scrollback, heq, hgood, -⟩ := h.history.setLimitBytes limitBytes
  unfold Terminal.setScrollbackLimit
  rw [heq]
  exact .some (h.withScrollback hgood)

theorem Steady.resetToInitialState (h : terminal.Steady promise) :
    terminal.resetToInitialState.Steady promise where
  parser := Parser.ok_new
  utf8 := Utf8Decoder.ok_new
  title _ hc := by cases hc
  title_le _ := Nat.zero_le _
  tabStops := defaultTabStops_length _
  hyperlink _ := rfl
  history := h.history
  active := ⟨_, rfl, BufferState.reset_good h.buffers.1.toSound⟩
  inactive _ hb := by cases hb
  taken := rfl

theorem Steady.takeDirtyRows (h : terminal.Steady promise) :
    Yields terminal.takeDirtyRows fun result => result.2.Steady promise := by
  obtain ⟨buffer, hb, hgood⟩ := h.active
  unfold Terminal.takeDirtyRows
  rw [hb]
  have hat : SettledAt promise terminal
      (terminal.setActiveBuffer { buffer with screen := buffer.screen.takeDirtyRows.2 }) :=
    At.setActiveBuffer h.toGood.at (sound_withScreen hgood.toSound (Screen.takeDirtyRows_kept hgood.screen))
      ⟨hgood.wrap, hgood.anchor_le⟩
  have htaken := (congrArg Parser.oscAction hat.parser).trans h.taken
  exact .some ⟨At.good h.toGood hat, htaken⟩

theorem Steady.handle (h : terminal.Steady promise) (event : Event)
    (hkeep : terminal.eventKeeps promise event = true) :
    Yields (terminal.handle event) (Steady promise) := by
  cases event with
  | ingest bytes => exact h.ingest bytes hkeep
  | resize dimensions => exact h.resize dimensions
  | setScrollbackLimit limitBytes => exact h.setScrollbackLimit limitBytes
  | clearScrollback => exact .some (h.withScrollback Scrollback.good_clear)
  | resetToInitialState => exact .some h.resetToInitialState
  | takeDirtyRows => exact Yields.bind h.takeDirtyRows fun _ hs => .some hs

theorem Steady.run (h : terminal.Steady promise) (events : List Event)
    (hkeep : terminal.keeps promise events = true) : Yields (terminal.run events) (Steady promise) :=
  foldlM_along (Steady promise) h hkeep fun _ event hs hok => hs.handle event hok

end Terminal

/-- Nothing that depends on the steps of a run. -/
def Promise.nothing : Promise where
  pairs := false
  marks := false
  wraps := false
  titles := false

theorem Line.sparingKeeps_nothing (line : Line) (first last : Nat) (boundaries : List Nat) (cell : Cell)
    (keepMarks : Bool) : line.sparingKeeps .nothing first last boundaries cell keepMarks = true := by
  simp [sparingKeeps, Promise.nothing]

variable (screen : Screen)

theorem Screen.linearKeeps_nothing (start stop : Nat) (cell : Cell) (spare : Bool) :
    screen.linearKeeps .nothing start stop cell spare = true := by
  simp [linearKeeps, Line.sparingKeeps_nothing]

theorem Screen.rectangleKeeps_nothing (rectangle : Rectangle) (cell : Cell)
    (spare : Bool) : screen.rectangleKeeps .nothing rectangle cell spare = true := by
  simp [rectangleKeeps, Line.sparingKeeps_nothing]

namespace Terminal

variable [Platform] {promise : Promise} {terminal terminal' : Terminal}

theorem runKeeps_nothing (terminal : Terminal) (run : Option (Nat × Nat)) (spare : Bool) :
    terminal.runKeeps .nothing run spare = true := by
  unfold runKeeps
  split
  · exact Screen.linearKeeps_nothing _ _ _ _ _
  · rfl

theorem printKeeps_nothing (terminal : Terminal) (character : Char) :
    terminal.printKeeps .nothing character = true := rfl

theorem performKeeps_nothing (terminal : Terminal) (operation : TerminalOp) :
    terminal.performKeeps .nothing operation = true := by
  unfold performKeeps
  split
  · rfl
  · unfold repeatKeeps
    split
    · rfl
    · exact holdsAlong_of_all fun _ _ => rfl
  · exact runKeeps_nothing _ _ _
  · exact runKeeps_nothing _ _ _
  · exact runKeeps_nothing _ _ _
  · exact runKeeps_nothing _ _ _
  · exact runKeeps_nothing _ _ _
  · unfold eraseRectangleKeeps
    split
    · exact Screen.rectangleKeeps_nothing _ _ _ _
    · rfl
  · rfl

theorem parsedKeeps_nothing (terminal : Terminal) (byte : UInt8) :
    terminal.parsedKeeps .nothing byte = true := by
  unfold parsedKeeps
  split
  · split <;> rfl
  · refine Bool.and_eq_true_iff.mpr ⟨rfl, (Option.all_eq_true _ _).mpr fun advanced _ => ?_⟩
    exact (Option.all_eq_true _ _).mpr fun released _ => performKeeps_nothing released _

theorem byteKeeps_nothing (terminal : Terminal) (byte : UInt8) :
    terminal.byteKeeps .nothing byte = true := by
  unfold byteKeeps
  split
  · split
    · rfl
    · exact Bool.and_eq_true_iff.mpr ⟨rfl, (Option.all_eq_true _ _).mpr fun printed _ =>
        parsedKeeps_nothing printed byte⟩
    · rfl
  · exact parsedKeeps_nothing terminal byte

theorem keeps_nothing (terminal : Terminal) (events : List Event) :
    terminal.keeps .nothing events = true := by
  refine holdsAlong_of_all fun terminal event => ?_
  cases event with
  | ingest bytes => exact holdsAlong_of_all byteKeeps_nothing
  | _ => rfl

theorem run_total (events : List Event) :
    Yields ((withScrollbackLimit dimensions limitBytes).run events) (Steady .nothing) :=
  (withScrollbackLimit_steady dimensions limitBytes).run events (keeps_nothing _ events)

theorem steady_of_run {dimensions : Dimensions} {limitBytes : ByteLimit} {events : List Event}
    (hrun : (withScrollbackLimit dimensions limitBytes).run events = some terminal) :
    terminal.Steady .nothing := by
  obtain ⟨reached, heq, hsteady⟩ := run_total dimensions limitBytes events
  cases heq.symm.trans hrun
  exact hsteady

/-- The margins and the saved cursors of a buffer fit the grid. -/
structure UsableBuffer (dimensions : Dimensions) (buffer : BufferState) : Prop where
  dims : buffer.screen.dimensions = dimensions
  decSaved : ∀ saved ∈ buffer.decSaved, saved.cursor.InGrid dimensions
  ansiSaved : ∀ saved ∈ buffer.ansiSaved, saved.cursor.InGrid dimensions
  top_le : buffer.scrollTop ≤ buffer.scrollBottom
  bottom_lt : buffer.scrollBottom < dimensions.rows
  left_le : buffer.scrollLeft ≤ buffer.scrollRight
  right_lt : buffer.scrollRight < dimensions.columns

/-- Cursors and margins lie inside the grid, and the active screen is there. -/
structure Usable (terminal : Terminal) : Prop where
  cursor : terminal.cursor.InGrid terminal.dimensions
  primary : UsableBuffer terminal.dimensions terminal.primary
  alternate : ∀ buffer ∈ terminal.alternate, UsableBuffer terminal.dimensions buffer
  active : terminal.activeScreen = .alternate →
    ∃ buffer, terminal.alternate = some buffer ∧ buffer.screen.dimensions = terminal.primary.screen.dimensions

omit [Platform] in
theorem usableBuffer_of_good {dimensions : Dimensions} {buffer : BufferState}
    (h : buffer.Good promise dimensions) : UsableBuffer dimensions buffer where
  dims := h.dims
  decSaved := h.decSaved
  ansiSaved := h.ansiSaved
  top_le := h.top_le
  bottom_lt := h.bottom_lt
  left_le := Nat.le_of_lt h.left_lt
  right_lt := h.right_lt

theorem Good.usable (h : terminal.Good promise) : terminal.Usable where
  cursor := by
    obtain ⟨buffer, hb, hgood⟩ := h.active
    rw [cursor_eq hb]
    exact hgood.cursor
  primary := usableBuffer_of_good h.buffers.1
  alternate buffer hb := usableBuffer_of_good (h.buffers.2 buffer hb)
  active hscreen := by
    obtain ⟨-, -, buffer, hb, hgood⟩ := h.alternate_good hscreen
    exact ⟨buffer, hb, hgood.dims⟩

/-- Untrusted output cannot bring the terminal down: whatever an embedder does, no index, slice,
`expect` or subtraction fails, and what it reaches is usable. -/
theorem run_usable (dimensions : Dimensions) (limitBytes : ByteLimit) (events : List Event) :
    ∃ terminal, (withScrollbackLimit dimensions limitBytes).run events = some terminal ∧
      terminal.Usable := by
  obtain ⟨terminal, hrun, hsteady⟩ := run_total dimensions limitBytes events
  exact ⟨terminal, hrun, hsteady.toGood.usable⟩

theorem ingest_append (terminal : Terminal) (bytes rest : List UInt8) :
    terminal.ingest (bytes ++ rest) = (terminal.ingest bytes).bind fun reached => reached.ingest rest :=
  List.foldlM_append ..

theorem Steady.ingest_isolated (h : terminal.Steady .nothing) (bytes : List UInt8)
    (halt : terminal.activeScreen = .alternate)
    (hstays : ∀ k ≤ bytes.length, ∀ reached, terminal.ingest (bytes.take k) = some reached →
      reached.activeScreen = .alternate) :
    Yields (terminal.ingest bytes) fun terminal' =>
      terminal'.primary = terminal.primary ∧ terminal'.scrollback = terminal.scrollback := by
  induction bytes generalizing terminal with
  | nil => exact .some ⟨rfl, rfl⟩
  | cons byte rest ih =>
    obtain ⟨fed, hfed, hf⟩ := h.ingestByte byte (byteKeeps_nothing terminal byte)
    have hcons : ∀ more, terminal.ingest (byte :: more) = fed.ingest more := fun more => by
      rw [Terminal.ingest, List.foldlM_cons, hfed]
      rfl
    have hstill : fed.activeScreen = .alternate :=
      hstays 1 (by simp) fed (by rw [List.take_succ_cons, List.take_zero, hcons]; rfl)
    obtain ⟨hprimary, hscrollback⟩ := hf.isolated halt hstill
    obtain ⟨final, hfinal, hprimary', hscrollback'⟩ := ih hf.steady hstill fun k hk reached hreached =>
      hstays (k + 1) (by simpa using hk) reached (by rw [List.take_succ_cons, hcons]; exact hreached)
    exact ⟨final, (hcons rest).trans hfinal, hprimary'.trans hprimary, hscrollback'.trans hscrollback⟩

def sampleGrid : Dimensions := ⟨4, 2, 8, by decide, by decide, by decide, by decide⟩

/-- A full-screen program leaves the shell's screen and history alone. -/
theorem alternate_isolated {dimensions : Dimensions} {limitBytes : ByteLimit} {events : List Event}
    (hrun : (withScrollbackLimit dimensions limitBytes).run events = some terminal)
    (halt : terminal.activeScreen = .alternate) (bytes : List UInt8)
    (hstays : ∀ k ≤ bytes.length, ∀ reached, terminal.ingest (bytes.take k) = some reached →
      reached.activeScreen = .alternate) :
    ∃ terminal', terminal.ingest bytes = some terminal' ∧
      terminal'.primary = terminal.primary ∧ terminal'.scrollback = terminal.scrollback :=
  (steady_of_run hrun).ingest_isolated bytes halt hstays

omit [Platform] in
/-- Six rows of shell output, then a program that scrolls the alternate screen and erases the
display with its history. -/
theorem alternate_isolated_pager :
    letI := Platform.reference
    ∃ terminal terminal',
      (withScrollbackLimit sampleGrid none).run [.ingest (ascii "a\n\n\n\n\nb\x1b[?1049h")] =
        some terminal ∧
      terminal.scrollback.lines.length = 4 ∧
      terminal.ingest (ascii "x\n\n\n\x1b[3J") = some terminal' ∧
      terminal'.primary = terminal.primary ∧ terminal'.scrollback = terminal.scrollback := by
  let _ := Platform.reference
  let start := withScrollbackLimit sampleGrid none
  let shell : List Event := [.ingest (ascii "a\n\n\n\n\nb\x1b[?1049h")]
  let bytes := ascii "x\n\n\n\x1b[3J"
  obtain ⟨terminal, hrun⟩ : ∃ terminal, start.run shell = some terminal :=
    isSome_iff_exists.mp (by decide +kernel)
  have hshape : (start.run shell).map (fun t => (t.activeScreen, t.scrollback.lines.length)) =
      some (.alternate, 4) := by decide +kernel
  have hstays : ∀ k ≤ 8, ((start.run shell).bind fun t => t.ingest (bytes.take k)).all
      (fun t => t.activeScreen == .alternate) = true := by decide +kernel
  rw [hrun, map_some, some.injEq, Prod.mk.injEq] at hshape
  obtain ⟨terminal', hingest, hprimary, hscrollback⟩ :=
    alternate_isolated hrun hshape.1 bytes fun k hk reached hreached => by
      have hk := hstays k hk
      rw [hrun, bind_some, hreached, all_some] at hk
      exact eq_of_beq hk
  exact ⟨terminal, terminal', hrun, hshape.2, hingest, hprimary, hscrollback⟩

end Terminal

end FesTerm
