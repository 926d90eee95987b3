import FesTerm.Core.Proofs.RunProofs

/-!
# What recovery and resizing rely on

Four properties of reachable terminals that the recovery check and the resize path take for granted:
wide cells are whole, visible cells are marked as occupied, a pending wrap waits in the last column,
and the title is short enough. Each holds in every run that keeps the promise of that name. Each fails
in some other run, and a run that breaks it stands beside the theorem.
-/

namespace FesTerm

open Checked Option

namespace Promise

/-- No erase leaves half of a pair. -/
def wholePairs : Promise := { nothing with pairs := true }

/-- No markers are lost of what is shown. -/
def visibleMarks : Promise := { nothing with marks := true }

/-- No title is longer in bytes than its check allows. -/
def shortTitles : Promise := { nothing with titles := true }

/-- Whole pairs, and a pending wrap only where it belongs. -/
def validBuffers : Promise := { nothing with pairs := true, wraps := true }

end Promise

/-- The markers of a row cover what it shows, and its extent ends with the last marker. -/
structure Line.MarksVisible (line : Line) : Prop where
  visible : ∀ i cell, line.cells[i]? = some cell → isStructuralBlank cell = false →
    line.occupiedCells[i]? = some true ∧ i < line.occupiedColumns
  covers : ∀ i, line.occupiedCells[i]? = some true → i < line.occupiedColumns
  last : ∀ n, line.occupiedColumns = n + 1 → line.occupiedCells[n]? = some true

theorem Line.Good.marksVisible {promise : Promise} {columns : Nat} {line : Line}
    (h : line.Good promise columns) (hmarks : promise.marks = true) : line.MarksVisible := by
  have covers : ∀ i, line.occupiedCells[i]? = some true → i < line.occupiedColumns := fun i hi => by
    rw [h.extent]
    exact lt_occupiedExtent hi
  refine ⟨fun i cell hcell hvisible => ?_, covers, fun n hn => ?_⟩
  · obtain ⟨hlt, -⟩ := List.getElem?_eq_some_iff.mp hcell
    rw [h.cells_length] at hlt
    obtain ⟨cell', occupied, he, hok⟩ := h.toLoose.entry_some hlt
    obtain ⟨hc, ho⟩ := Prod.mk.inj he
    cases hc.symm.trans hcell
    rw [hok.marks hmarks hvisible] at ho
    exact ⟨ho, covers i ho⟩
  · rw [h.extent] at hn
    exact occupiedExtent_set hn

namespace Terminal

variable [Platform] {promise : Promise} {terminal : Terminal}

theorem run_steady (promise : Promise) (dimensions : Dimensions) (limitBytes : ByteLimit)
    {events : List Event}
    (hkeep : (withScrollbackLimit dimensions limitBytes).keeps promise events = true) :
    Yields ((withScrollbackLimit dimensions limitBytes).run events) (Steady promise) :=
  (withScrollbackLimit_steady dimensions limitBytes).run events hkeep

/-- In both buffers and in the history, wide cells are whole. -/
structure PairsWhole (terminal : Terminal) : Prop where
  primary : ∀ line ∈ terminal.primary.screen.lines, Paired line.cells
  alternate : ∀ buffer ∈ terminal.alternate, ∀ line ∈ buffer.screen.lines, Paired line.cells
  history : ∀ row ∈ Scrollback.allRows terminal.scrollback.lines, Paired row.cells

theorem Good.pairsWhole (h : terminal.Good promise) (hpairs : promise.pairs = true) :
    terminal.PairsWhole where
  primary line hline := (h.buffers.1.screen.line line hline).paired hpairs
  alternate buffer hb line hline := ((h.buffers.2 buffer hb).screen.line line hline).paired hpairs
  history row hrow := ((h.history.rows row hrow).ok hpairs).pairs.paired

/-- Wide cells are whole in every run in which no selective erase takes one half of a pair or unmarks
a second half that it spares. -/
theorem run_pairsWhole (dimensions : Dimensions) (limitBytes : ByteLimit) (events : List Event)
    (hkeep : (withScrollbackLimit dimensions limitBytes).keeps .wholePairs events = true) :
    ∃ terminal, (withScrollbackLimit dimensions limitBytes).run events = some terminal ∧
      terminal.PairsWhole := by
  obtain ⟨terminal, hrun, hsteady⟩ := run_steady _ dimensions limitBytes hkeep
  exact ⟨terminal, hrun, hsteady.toGood.pairsWhole rfl⟩

section

omit [Platform]

def sparedPair : List UInt8 :=
  ascii "\x1b[1\"q" ++ [0xe7, 0x95, 0x8c] ++ ascii "\x1b[0\"qa\x1b[1;1;1;4$\x7b"

theorem run_pairsWhole_rectangle :
    letI := Platform.reference
    ∃ terminal, (withScrollbackLimit sampleGrid none).run [.ingest sparedPair] = some terminal ∧
      terminal.PairsWhole :=
  letI := Platform.reference
  run_pairsWhole sampleGrid none [.ingest sparedPair] (by decide +kernel)

/-- Two wide characters, the second of them protected. Deleting two columns between them joins the
unprotected first half of the one to the protected second half of the other, which looks like a pair;
a selective erase then takes the half that is not protected. -/
def mismatchedPair : List UInt8 :=
  ascii "\x1b[5G" ++ [0xe7, 0x95, 0x8c] ++ ascii "\x1b[1\"q" ++ [0xe7, 0x95, 0x8c] ++
    ascii "\x1b[0\"q\x1b[6G\x1b[2P\x1b[?2K"

def wideGrid : Dimensions := ⟨10, 1, 10, by decide, by decide, by decide, by decide⟩

/-- A selective erase leaves a second half on its own. -/
theorem pairs_split_by_selective_erase :
    letI := Platform.reference
    ∃ terminal, (withScrollbackLimit wideGrid none).run [.ingest mismatchedPair] = some terminal ∧
      ¬ terminal.PairsWhole := by
  let _ := Platform.reference
  obtain ⟨terminal, hrun⟩ : ∃ terminal,
      (withScrollbackLimit wideGrid none).run [.ingest mismatchedPair] = some terminal :=
    isSome_iff_exists.mp (by decide +kernel)
  have hwidths : ((withScrollbackLimit wideGrid none).run [.ingest mismatchedPair]).map
      (fun t => t.primary.screen.lines.map fun line => (widthAt line.cells 4, widthAt line.cells 5)) =
      some [(some .single, some .continuation)] := by decide +kernel
  refine ⟨terminal, hrun, fun hwhole => ?_⟩
  rw [hrun, map_some, some.injEq] at hwidths
  obtain ⟨line, rest, hlines⟩ : ∃ line rest, terminal.primary.screen.lines = line :: rest := by
    cases hl : terminal.primary.screen.lines with
    | nil => rw [hl] at hwidths; cases hwidths
    | cons line rest => exact ⟨line, rest, rfl⟩
  rw [hlines, List.map_cons, List.cons.injEq, Prod.mk.injEq] at hwidths
  obtain ⟨j, hj, hdouble⟩ := (hwhole.primary line (by rw [hlines]; exact List.mem_cons_self) 5).2
    hwidths.1.2
  obtain rfl : 4 = j := by omega
  rw [hwidths.1.1] at hdouble
  cases hdouble

end

/-- In both buffers the markers cover what the rows show. -/
structure MarksVisible (terminal : Terminal) : Prop where
  primary : ∀ line ∈ terminal.primary.screen.lines, line.MarksVisible
  alternate : ∀ buffer ∈ terminal.alternate, ∀ line ∈ buffer.screen.lines, line.MarksVisible

theorem Good.marksVisible (h : terminal.Good promise) (hmarks : promise.marks = true) :
    terminal.MarksVisible where
  primary line hline := (h.buffers.1.screen.line line hline).marksVisible hmarks
  alternate buffer hb line hline := ((h.buffers.2 buffer hb).screen.line line hline).marksVisible hmarks

/-- No visible content is treated as empty in any run in which no selective erase of a run of cells
passes over a visible protected cell with a blank. -/
theorem run_marksVisible (dimensions : Dimensions) (limitBytes : ByteLimit) (events : List Event)
    (hkeep : (withScrollbackLimit dimensions limitBytes).keeps .visibleMarks events = true) :
    ∃ terminal, (withScrollbackLimit dimensions limitBytes).run events = some terminal ∧
      terminal.MarksVisible := by
  obtain ⟨terminal, hrun, hsteady⟩ := run_steady _ dimensions limitBytes hkeep
  exact ⟨terminal, hrun, hsteady.toGood.marksVisible rfl⟩

section

omit [Platform]

theorem run_marksVisible_rectangle :
    letI := Platform.reference
    ∃ terminal, (withScrollbackLimit sampleGrid none).run [.ingest sparedPair] = some terminal ∧
      terminal.MarksVisible :=
  letI := Platform.reference
  run_marksVisible sampleGrid none [.ingest sparedPair] (by decide +kernel)

def sparedCharacter : List UInt8 := ascii "\x1b[1\"qa\x1b[?2K"

/-- The erase spares the character and unmarks it. -/
theorem marks_lost_by_selective_erase :
    letI := Platform.reference
    ∃ terminal, (withScrollbackLimit sampleGrid none).run [.ingest sparedCharacter] = some terminal ∧
      ¬ terminal.MarksVisible := by
  let _ := Platform.reference
  obtain ⟨terminal, hrun⟩ : ∃ terminal,
      (withScrollbackLimit sampleGrid none).run [.ingest sparedCharacter] = some terminal :=
    isSome_iff_exists.mp (by decide +kernel)
  have hrow : ((withScrollbackLimit sampleGrid none).run [.ingest sparedCharacter]).bind
      (fun t => (t.primary.screen.lines[0]?).map fun line =>
        ((line.cells[0]?).map fun cell => (cell.text, isStructuralBlank cell), line.occupiedCells[0]?)) =
      some (some (['a'], false), some false) := by decide +kernel
  refine ⟨terminal, hrun, fun hvisible => ?_⟩
  rw [hrun, bind_some] at hrow
  obtain ⟨line, hline, hentry⟩ := map_eq_some_iff.mp hrow
  obtain ⟨hcell, hmark⟩ := Prod.mk.inj hentry
  obtain ⟨cell, hcell, hblank⟩ := map_eq_some_iff.mp hcell
  have := (hvisible.primary line (List.mem_of_getElem? hline)).visible 0 cell hcell
    (Prod.mk.inj hblank).2
  rw [hmark] at this
  exact absurd this.1 (by decide)

end

/-- Both screen buffers pass their recovery check in every run in which wide cells stay whole and no
cluster that ends at the wrap limit starts short of the last column. -/
theorem run_buffers_valid (dimensions : Dimensions) (limitBytes : ByteLimit) (events : List Event)
    (hkeep : (withScrollbackLimit dimensions limitBytes).keeps .validBuffers events = true) :
    ∃ terminal, (withScrollbackLimit dimensions limitBytes).run events = some terminal ∧
      terminal.primary.validateRecoveryState = some (.ok ()) ∧
      ∀ buffer ∈ terminal.alternate, buffer.validateRecoveryState = some (.ok ()) := by
  obtain ⟨terminal, hrun, hsteady⟩ := run_steady _ dimensions limitBytes hkeep
  obtain ⟨hprimary, halternate⟩ := hsteady.toGood.buffers
  exact ⟨terminal, hrun, hprimary.validate rfl rfl, fun buffer hb => (halternate buffer hb).validate rfl rfl⟩

omit [Platform] in
/-- A wide character inside the row and a narrow one in its last column, on both screens. -/
theorem run_buffers_valid_full_row :
    letI := Platform.reference
    ∃ terminal, (withScrollbackLimit sampleGrid none).run
        [.ingest (ascii "a" ++ [0xe7, 0x95, 0x8c] ++ ascii "b\x1b[?47hcdefg")] = some terminal ∧
      terminal.primary.validateRecoveryState = some (.ok ()) ∧
      ∀ buffer ∈ terminal.alternate, buffer.validateRecoveryState = some (.ok ()) :=
  letI := Platform.reference
  run_buffers_valid sampleGrid none _ (by decide +kernel)

omit [Platform] in
/-- A wide character that fills the row arms the pending wrap in the column before the last, and the
buffer does not pass its own check. -/
theorem buffer_refused_after_wide_character :
    letI := Platform.reference
    ((withScrollbackLimit sampleGrid none).run [.ingest (ascii "ab" ++ [0xe7, 0x95, 0x8c])]).map
        (fun t => (t.primary.pendingWrap, t.primary.cursor.column,
          t.primary.validateRecoveryState.map (·.isOk))) =
      some (true, 2, some false) := by
  decide +kernel

/-- The states outside the screens that a recovery snapshot checks. -/
structure FieldsValid (terminal : Terminal) : Prop where
  parser : terminal.parser.validateRecoveryState = .ok ()
  utf8 : terminal.utf8.validateRecoveryState = some (.ok ())
  title_le : utf8Len terminal.title ≤ 256
  title : terminal.title.any isControl = false
  hyperlink : terminal.currentHyperlink = none → terminal.currentHyperlinkCellsRemaining = 0
  tabStops : terminal.tabStops.length = terminal.dimensions.columns
  fields : terminal.validateFields = .ok ()

theorem Good.fieldsValid (h : terminal.Good promise) (htitles : promise.titles = true) :
    terminal.FieldsValid where
  parser := h.parser.validate
  utf8 := h.utf8.validate
  title_le := h.title_le htitles
  title := List.any_eq_false.mpr fun character hc => by rw [h.title character hc]; decide
  hyperlink := h.hyperlink
  tabStops := h.tabStops
  fields := by
    have htitle : terminal.title.any isControl = false :=
      List.any_eq_false.mpr fun character hc => by rw [h.title character hc]; decide
    have hle := h.title_le htitles
    have hlink : ¬(terminal.currentHyperlink.isNone = true ∧
        terminal.currentHyperlinkCellsRemaining ≠ 0) :=
      fun hbad => hbad.2 (h.hyperlink (isNone_iff_eq_none.mp hbad.1))
    unfold validateFields
    rw [if_neg (not_not_intro h.tabStops), if_neg, if_neg hlink]
    rintro (hlong | hcontrol)
    · omega
    · rw [htitle] at hcontrol
      cases hcontrol

/-- The states outside the screens pass the recovery check in every run whose titles, cut to their
first 256 characters, take at most 256 bytes. -/
theorem run_fieldsValid (dimensions : Dimensions) (limitBytes : ByteLimit) (events : List Event)
    (hkeep : (withScrollbackLimit dimensions limitBytes).keeps .shortTitles events = true) :
    ∃ terminal, (withScrollbackLimit dimensions limitBytes).run events = some terminal ∧
      terminal.FieldsValid := by
  obtain ⟨terminal, hrun, hsteady⟩ := run_steady _ dimensions limitBytes hkeep
  exact ⟨terminal, hrun, hsteady.toGood.fieldsValid rfl⟩

section

omit [Platform]

def accentedTitle (count : Nat) : List UInt8 :=
  ascii "\x1b]0;" ++ (List.replicate count [0xc3, 0xa9]).flatten ++ [0x07]

theorem run_fieldsValid_accented :
    letI := Platform.reference
    ∃ terminal, (withScrollbackLimit sampleGrid none).run [.ingest (accentedTitle 128), .resize wideGrid] =
        some terminal ∧ terminal.FieldsValid :=
  letI := Platform.reference
  run_fieldsValid sampleGrid none _ (by decide +kernel)

/-- A title of 129 such characters is kept whole and refused. -/
theorem title_refused_when_accented :
    letI := Platform.reference
    ((withScrollbackLimit sampleGrid none).run [.ingest (accentedTitle 129)]).map
        (fun t => (t.title.length, utf8Len t.title, t.validateFields.isOk)) =
      some (129, 258, false) := by
  decide +kernel

end

end Terminal

end FesTerm
