import FesTerm.Core.Grid
import FesTerm.Core.Proofs.ScreenProofs
import FesTerm.Lib.Ring

/-!
# The ring and the plain grid

Every operation of a screen commutes with reading the rows from the top down: `Agrees` says so of one
computation on the screen and one on the grid, also when they stop. The operations are built from
loops and changes of single lines, where `Agrees` is a rule for each. Only a scroll of the whole
screen is different, since the ring rotates where the grid moves its rows; both leave the rows after
the first ones, and cleared rows below them.
-/

namespace FesTerm

open Checked List Option

variable {line' : Line} {promise : Promise}

namespace Line

/-- A line with one cell and one marker for every column. -/
structure Sized (columns : Nat) (line : Line) : Prop where
  cells_length : line.cells.length = columns
  marks_length : line.occupiedCells.length = columns

variable {columns : Nat} {line : Line}

theorem Loose.sized [Platform] (h : line.Loose promise columns) :
    line.Sized columns := ⟨h.cells_length, h.marks_length⟩

theorem writeAt_sized {first : Nat} {cells : List Cell} {marks : List Bool}
    (h : line.Sized columns) (hcells : writeAt line.cells first cells = some line'.cells)
    (hmarks : writeAt line.occupiedCells first marks = some line'.occupiedCells) :
    line'.Sized columns :=
  ⟨(length_of_writeAt hcells).trans h.cells_length, (length_of_writeAt hmarks).trans h.marks_length⟩

theorem setCell_sized (h : line.Sized columns) (column : Nat) (cell : Cell) (occupied : Bool) :
    Ensures (line.setCell column cell occupied) (Sized columns) := by
  refine .bind fun cells hcells => .bind fun marks hmarks => .some ?_
  exact writeAt_sized h hcells hmarks

theorem fill_sized (h : line.Sized columns) (first last : Nat) (cell : Cell) :
    Ensures (line.fill first last cell) (Sized columns) := by
  refine .bind fun cells hcells => .bind fun marks hmarks => .some ?_
  exact ⟨(length_of_fillRange hcells).trans h.cells_length, (length_of_fillRange hmarks).trans h.marks_length⟩

theorem fillSparing_sized (h : line.Sized columns) (first last : Nat) (cell : Cell) :
    Ensures (line.fillSparing first last cell) (Sized columns) := by
  refine .bind fun _ _ => .bind fun cells hcells => .bind fun marks hmarks => .some ?_
  exact ⟨(length_of_writeAt hcells).trans h.cells_length, (length_of_fillRange hmarks).trans h.marks_length⟩

theorem fillSpan_sized (h : line.Sized columns) (first last : Nat) (cell : Cell) (spare : Bool) :
    Ensures (line.fillSpan first last cell spare) (Sized columns) := by
  refine .bind fun _ _ => .bind fun _ _ => .bind fun cells hcells => .bind fun marks hmarks => .some ?_
  exact writeAt_sized h hcells hmarks

theorem recomputeOccupied_sized (h : line.Sized columns) : line.recomputeOccupied.Sized columns :=
  ⟨h.cells_length, h.marks_length⟩

theorem repairCell_cases {width column : Nat} {fill : Cell}
    (h : line.repairCell width column fill = some line') :
    line' = line ∨ line.setCell column fill (!isStructuralBlank fill) = some line' := by
  have hjoin : ∀ invalid : Bool,
      (if invalid then line.setCell column fill (!isStructuralBlank fill) else some line) = some line' →
        line' = line ∨ line.setCell column fill (!isStructuralBlank fill) = some line' := by
    rintro (_ | _) hinvalid
    · exact .inl (some.inj hinvalid).symm
    · exact .inr hinvalid
  obtain ⟨cell, -, h⟩ := bind_eq_some_iff.mp h
  split at h
  · split at h
    · exact hjoin true h
    · obtain ⟨next, -, h⟩ := bind_eq_some_iff.mp h
      exact hjoin (next.width != .continuation) h
  · split at h
    · exact hjoin true h
    · obtain ⟨previous, -, h⟩ := bind_eq_some_iff.mp h
      exact hjoin (previous.width != .double) h
  · exact hjoin false h

theorem repairCell_sized (h : line.Sized columns) (width column : Nat) (fill : Cell) :
    Ensures (line.repairCell width column fill) (Sized columns) := by
  intro line' hline'
  rcases repairCell_cases hline' with rfl | hset
  · exact h
  · exact setCell_sized h column fill _ line' hset

theorem repairNeighborhood_sized (h : line.Sized columns) (width boundary : Nat) (fill : Cell) :
    Ensures (line.repairNeighborhood width boundary fill) (Sized columns) := by
  refine .ite (fun _ => .some h) fun _ => ?_
  exact forRange_ensures h fun current column _ _ hcurrent => repairCell_sized hcurrent width column fill

theorem copyCell_sized (h : line.Sized columns) (source destination : Nat) :
    Ensures (line.copyCell source destination) (Sized columns) := by
  refine .bind fun cell _ => .bind fun occupied _ => ?_
  exact setCell_sized h destination cell occupied

theorem moveCellsWithinRow_sized (h : line.Sized columns) (start stop destination : Nat) :
    Ensures (line.moveCellsWithinRow start stop destination) (Sized columns) := by
  refine .bind fun length _ => .ite (fun _ => ?_) fun _ => ?_
  · exact forRangeRev_ensures h fun _ _ _ _ hcurrent => copyCell_sized hcurrent _ _
  · exact forRange_ensures h fun _ _ _ _ hcurrent => copyCell_sized hcurrent _ _

theorem insertCharacters_sized (h : line.Sized columns) (width column count : Nat) (cell : Cell)
    (span : ColumnSpan) : Ensures (line.insertCharacters width column count cell span) (Sized columns) := by
  refine .ite (fun _ => .some h) fun _ => .bind fun _ _ => .bind fun stop _ => ?_
  refine .bind fun moved hmoved => .bind fun filled hfilled => ?_
  have hm := moveCellsWithinRow_sized h _ _ _ moved hmoved
  have hf := fill_sized hm _ _ _ filled hfilled
  refine .bind fun first hfirst => .bind fun second hsecond => .bind fun third hthird => .some ?_
  have h1 := repairNeighborhood_sized hf _ _ _ first hfirst
  have h2 := repairNeighborhood_sized h1 _ _ _ second hsecond
  exact recomputeOccupied_sized (repairNeighborhood_sized h2 _ _ _ third hthird)

theorem deleteCharacters_sized (h : line.Sized columns) (width column count : Nat) (cell : Cell)
    (span : ColumnSpan) : Ensures (line.deleteCharacters width column count cell span) (Sized columns) := by
  refine .ite (fun _ => .some h) fun _ => .bind fun _ _ => .bind fun moved hmoved => ?_
  refine .bind fun gap _ => .bind fun filled hfilled => ?_
  have hm := moveCellsWithinRow_sized h _ _ _ moved hmoved
  have hf := fill_sized hm _ _ _ filled hfilled
  refine .bind fun first hfirst => .bind fun second hsecond => .bind fun third hthird => .some ?_
  have h1 := repairNeighborhood_sized hf _ _ _ first hfirst
  have h2 := repairNeighborhood_sized h1 _ _ _ second hsecond
  exact recomputeOccupied_sized (repairNeighborhood_sized h2 _ _ _ third hthird)

theorem extendOccupiedOrRecompute_sized (h : line.Sized columns) (column width : Nat) :
    (line.extendOccupiedOrRecompute column width).Sized columns := by
  unfold extendOccupiedOrRecompute
  split
  · exact ⟨h.cells_length, h.marks_length⟩
  · exact recomputeOccupied_sized h

/-- The line of a row filled with one cell. -/
def cleared (columns : Nat) (cell : Cell) : Line where
  cells := List.replicate columns cell
  occupiedCells := List.replicate columns (!isStructuralBlank cell)
  softWrapped := false
  occupiedColumns := if isStructuralBlank cell then 0 else columns

theorem cleared_sized (columns : Nat) (cell : Cell) : (cleared columns cell).Sized columns :=
  ⟨length_replicate, length_replicate⟩

theorem fillRow_eq (h : line.Sized columns) (cell : Cell) :
    line.fillRow columns cell = some (cleared columns cell) := by
  have hcells := fillRange_eq (Nat.zero_le columns) (le_of_eq h.cells_length.symm) cell
  have hmarks := fillRange_eq (Nat.zero_le columns) (le_of_eq h.marks_length.symm)
    (!isStructuralBlank cell)
  simp only [fillRow, fill, hcells, hmarks, splice, bind_eq_bind,
    bind_some, Option.pure_def, cleared, take_zero, nil_append, Nat.sub_zero,
    length_replicate, Nat.zero_add, drop_eq_nil_of_le (le_of_eq h.cells_length),
    drop_eq_nil_of_le (le_of_eq h.marks_length), append_nil]

variable [Platform]

theorem repairSpanEdges_sized (h : line.Sized columns) (width : Nat) (span : ColumnSpan) :
    Ensures (line.repairSpanEdges width span) (Sized columns) := by
  refine .bind fun first hfirst => ?_
  exact repairNeighborhood_sized (repairNeighborhood_sized h _ _ _ first hfirst) _ _ _

theorem replaceCluster_sized (h : line.Sized columns) (width column : Nat) (cell : Cell) :
    Ensures (line.replaceCluster width column cell) (Sized columns) := by
  have hrest : ∀ joined : Line, joined.Sized columns → Ensures (do
      let line ← joined.repairNeighborhood width column blankCell
      let line ← line.repairNeighborhood width (column + cell.width.columns) blankCell
      return line.extendOccupiedOrRecompute column cell.width.columns) (Sized columns) := by
    intro joined hj
    refine .bind fun first hfirst => .bind fun second hsecond => .some ?_
    have h1 := repairNeighborhood_sized hj _ _ _ first hfirst
    exact extendOccupiedOrRecompute_sized (repairNeighborhood_sized h1 _ _ _ second hsecond) _ _
  refine .bind fun placed hplaced => .ite (fun _ => .bind fun joined hjoined => ?_) fun _ => ?_
  · exact hrest joined (setCell_sized (setCell_sized h _ _ _ placed hplaced) _ _ _ joined hjoined)
  · exact hrest placed (setCell_sized h _ _ _ placed hplaced)

theorem fillRowSpan_sized (h : line.Sized columns) (width : Nat) (cell : Cell) (span : ColumnSpan) :
    Ensures (line.fillRowSpan width cell span) (Sized columns) := by
  refine .bind fun _ _ => .bind fun filled hfilled => .bind fun repaired hrepaired => .some ?_
  have hf := fill_sized h _ _ _ filled hfilled
  exact recomputeOccupied_sized (repairSpanEdges_sized hf _ _ repaired hrepaired)

theorem copyRowSpan_sized (h : line.Sized columns) (source : Line) (width : Nat) (span : ColumnSpan) :
    Ensures (line.copyRowSpan source width span) (Sized columns) := by
  refine .bind fun _ _ => .bind fun _ _ => .bind fun cells hcells => .bind fun _ _ => ?_
  refine .bind fun marks hmarks => .bind fun repaired hrepaired => .some ?_
  have hw : Sized columns { line with cells := cells, occupiedCells := marks } :=
    writeAt_sized h hcells hmarks
  exact recomputeOccupied_sized (repairSpanEdges_sized hw _ _ repaired hrepaired)

theorem writeSpan_sized (h : line.Sized columns) (width left : Nat) (cells : List Cell)
    (occupied : List Bool) (span : ColumnSpan) :
    Ensures (Screen.writeSpan line width left cells occupied span) (Sized columns) := by
  refine .bind fun written hwritten => .bind fun marks hmarks => .bind fun repaired hrepaired => .some ?_
  have hw : Sized columns { line with cells := written, occupiedCells := marks } :=
    writeAt_sized h hwritten hmarks
  exact recomputeOccupied_sized (repairSpanEdges_sized hw _ _ repaired hrepaired)

end Line

variable {change : Line → Option Line} {α : Type} {low high : Nat}

namespace Screen

/-- A screen whose arrays have the sizes that its dimensions ask for. -/
structure Sized (screen : Screen) : Prop extends Shape screen where
  line : ∀ line ∈ screen.lines, line.Sized screen.dimensions.columns

/-- A computation on a screen and one on a grid do the same to what they stand for. -/
structure Agrees (x : Option Screen) (y : Option Grid) : Prop where
  grid : x.map toGrid = y
  sized : Ensures x Sized

variable {screen : Screen} {x : Option Screen} {y : Option Grid} {f : Screen → Option Screen}
  {g : Grid → Option Grid}

theorem Good.sized [Platform] (h : screen.Good promise) : screen.Sized where
  toShape := h.toShape
  line line hline := (h.line line hline).toLoose.sized

theorem Agrees.some (h : screen.Sized) : Agrees (some screen) (some screen.toGrid) :=
  ⟨rfl, .some h⟩

theorem Agrees.none : Agrees none none := ⟨rfl, .none⟩

theorem Agrees.bind (h : Agrees x y) (hf : ∀ screen, screen.Sized → Agrees (f screen) (g screen.toGrid)) :
    Agrees (x >>= f) (y >>= g) := by
  obtain ⟨hgrid, hsized⟩ := h
  subst hgrid
  cases x with
  | none => exact .none
  | some screen => exact hf screen (hsized screen rfl)

theorem Agrees.value {v : Option α} {f : α → Option Screen} {g : α → Option Grid}
    (hf : ∀ a, Agrees (f a) (g a)) : Agrees (v >>= f) (v >>= g) := by
  cases v with
  | none => exact .none
  | some a => exact hf a

theorem Agrees.ite {c : Prop} [Decidable c] {x' : Option Screen} {y' : Option Grid}
    (h : c → Agrees x y) (h' : ¬ c → Agrees x' y') :
    Agrees (if c then x else x') (if c then y else y') := by
  by_cases hc : c
  · rw [if_pos hc, if_pos hc]
    exact h hc
  · rw [if_neg hc, if_neg hc]
    exact h' hc

theorem Agrees.foldlM {l : List α} {body : Screen → α → Option Screen}
    {step : Grid → α → Option Grid} (h : screen.Sized)
    (hbody : ∀ (screen : Screen) (a : α), screen.Sized → Agrees (body screen a) (step screen.toGrid a)) :
    Agrees (l.foldlM body screen) (l.foldlM step screen.toGrid) := by
  induction l generalizing screen with
  | nil => exact .some h
  | cons a l ih =>
    rw [foldlM_cons, foldlM_cons]
    exact (hbody screen a h).bind fun screen hs => ih hs

variable {body : Screen → Nat → Option Screen} {step : Grid → Nat → Option Grid}

theorem Agrees.forRange (h : screen.Sized) (hbody : ∀ (screen : Screen) (i : Nat), screen.Sized →
      Agrees (body screen i) (step screen.toGrid i)) :
    Agrees (forRange low high screen body) (forRange low high screen.toGrid step) :=
  .foldlM h hbody

theorem Agrees.forRangeRev (h : screen.Sized) (hbody : ∀ (screen : Screen) (i : Nat), screen.Sized →
      Agrees (body screen i) (step screen.toGrid i)) :
    Agrees (forRangeRev low high screen body) (forRangeRev low high screen.toGrid step) :=
  .foldlM h hbody

theorem Shape.lines_pos (h : screen.Shape) : 0 < screen.lines.length := by
  rw [h.lines_length]
  exact screen.rows_pos

theorem toGrid_line (h : screen.Shape) (row : Nat) : screen.toGrid.line row = screen.line row := by
  have hget := Ring.getElem?_rotate h.lines_pos screen.top row
  rw [h.lines_length] at hget
  exact hget

theorem toGrid_rowIndex (screen : Screen) (row other : Nat) :
    screen.physicalRow row = screen.physicalRow other ↔
      screen.toGrid.rowIndex row = screen.toGrid.rowIndex other :=
  Ring.index_eq_iff screen.top row other

theorem toGrid_set (h : screen.Shape) (row : Nat) (line : Line) :
    toGrid { screen with lines := screen.lines.set (screen.physicalRow row) line } =
      { screen.toGrid with rows := screen.toGrid.rows.set (screen.toGrid.rowIndex row) line } := by
  have hset := Ring.set_rotate h.lines_pos screen.top row line
  rw [h.lines_length] at hset
  exact congrArg (Grid.mk screen.dimensions · screen.dirtyRows) hset

theorem Sized.set (h : screen.Sized) (index : Nat) {line : Line}
    (hline : line.Sized screen.dimensions.columns) :
    Sized { screen with lines := screen.lines.set index line } where
  top_lt := h.top_lt
  lines_length := by rw [length_set]; exact h.lines_length
  dirty_length := h.dirty_length
  line other hother := by
    rcases mem_or_eq_of_mem_set hother with hmem | rfl
    · exact h.line other hmem
    · exact hline

theorem modifyLine_agrees (h : screen.Sized) (row : Nat)
    (hchange : ∀ line : Line, line.Sized screen.dimensions.columns →
      Ensures (change line) (Line.Sized screen.dimensions.columns)) :
    Agrees (screen.modifyLine row change) (screen.toGrid.modifyLine row change) := by
  have hphysical : screen.physicalRow row < screen.lines.length := by
    rw [h.lines_length]
    exact screen.physicalRow_lt row
  have hindex : screen.toGrid.rowIndex row < screen.toGrid.rows.length := by
    rw [toGrid, length_rotate, h.lines_length]
    exact Nat.mod_lt row screen.rows_pos
  unfold modifyLine Grid.modifyLine
  rw [toGrid_line h.toShape]
  cases hline : screen.line row with
  | none => exact .none
  | some line =>
    simp only [bind_eq_bind, bind_some]
    cases hchanged : change line with
    | none => exact .none
    | some changed =>
      have hsized := hchange line (h.line line (line_mem hline)) changed hchanged
      simp only [bind_some, setAt_eq hphysical, setAt_eq hindex,
        splice_singleton hphysical, splice_singleton hindex]
      rw [← toGrid_set h.toShape]
      exact .some (h.set _ hsized)

theorem Sized.withTop (h : screen.Sized) (top : Nat) :
    Sized { screen with top := top % screen.dimensions.rows } where
  top_lt := Nat.mod_lt _ screen.rows_pos
  lines_length := h.lines_length
  dirty_length := h.dirty_length
  line := h.line

theorem Sized.withDirty (h : screen.Sized) {dirtyRows : List Bool}
    (hlen : dirtyRows.length = screen.dirtyRows.length) :
    Sized { screen with dirtyRows := dirtyRows } where
  top_lt := h.top_lt
  lines_length := h.lines_length
  dirty_length := hlen.trans h.dirty_length
  line := h.line

theorem markDirty_agrees (h : screen.Sized) (row : Nat) :
    Agrees (screen.markDirty row) (screen.toGrid.markDirty row) := by
  unfold markDirty Grid.markDirty
  cases hset : setAt screen.dirtyRows row true with
  | none => exact ⟨by rw [toGrid, hset]; rfl, .none⟩
  | some dirtyRows =>
    refine ⟨by rw [toGrid, hset]; rfl, .some (h.withDirty ?_)⟩
    exact length_of_writeAt hset

theorem markDirtyRange_agrees (h : screen.Sized) (first last : Nat) :
    Agrees (screen.markDirtyRange first last) (screen.toGrid.markDirtyRange first last) := by
  unfold markDirtyRange Grid.markDirtyRange
  cases hfill : fillRange screen.dirtyRows first (last + 1) true with
  | none => exact ⟨by rw [toGrid, hfill]; rfl, .none⟩
  | some dirtyRows =>
    refine ⟨by rw [toGrid, hfill]; rfl, .some (h.withDirty ?_)⟩
    exact length_of_fillRange hfill

theorem markAllDirty_agrees (h : screen.Sized) :
    Agrees (some screen.markAllDirty) (some screen.toGrid.markAllDirty) :=
  ⟨rfl, .some (h.withDirty (length_map _))⟩

variable {cell : Cell} {span : ColumnSpan}

theorem replaceCell_agrees (h : screen.Sized) (column row : Nat) (cell : Cell) :
    Agrees (screen.replaceCell column row cell) (screen.toGrid.replaceCell column row cell) := by
  refine .ite (fun _ => .none) fun _ => Agrees.bind (modifyLine_agrees h row fun line hline => ?_)
    fun screen hs => markDirty_agrees hs row
  refine .bind fun written hwritten => .some ?_
  exact Line.recomputeOccupied_sized (Line.setCell_sized hline column cell true written hwritten)

theorem insertCharacters_agrees (h : screen.Sized) (column row count : Nat) (cell : Cell)
    (span : ColumnSpan) : Agrees (screen.insertCharacters column row count cell span)
      (screen.toGrid.insertCharacters column row count cell span) := by
  refine .ite (fun _ => .some h) fun _ => Agrees.bind (modifyLine_agrees h row fun line hline => ?_)
    fun screen hs => markDirty_agrees hs row
  exact Line.insertCharacters_sized hline _ _ _ _ _

theorem deleteCharacters_agrees (h : screen.Sized) (column row count : Nat) (cell : Cell)
    (span : ColumnSpan) : Agrees (screen.deleteCharacters column row count cell span)
      (screen.toGrid.deleteCharacters column row count cell span) := by
  refine .ite (fun _ => .some h) fun _ => Agrees.bind (modifyLine_agrees h row fun line hline => ?_)
    fun screen hs => markDirty_agrees hs row
  exact Line.deleteCharacters_sized hline _ _ _ _ _

theorem setSoftWrapped_agrees (h : screen.Sized) (row : Nat) (softWrapped : Bool) :
    Agrees (screen.modifyLine row fun line => some { line with softWrapped := softWrapped })
      (screen.toGrid.modifyLine row fun line => some { line with softWrapped := softWrapped }) :=
  modifyLine_agrees h row fun _ hline => .some ⟨hline.cells_length, hline.marks_length⟩

theorem fillRow_agrees (h : screen.Sized) (row : Nat) (cell : Cell) :
    Agrees (screen.fillRow row cell) (screen.toGrid.fillRow row cell) := by
  refine modifyLine_agrees h row fun line hline => ?_
  rw [Line.fillRow_eq hline]
  exact .some (Line.cleared_sized _ cell)

theorem copyRow_agrees (h : screen.Sized) (sourceRow destinationRow : Nat) :
    Agrees (screen.copyRow sourceRow destinationRow)
      (screen.toGrid.copyRow sourceRow destinationRow) := by
  unfold copyRow Grid.copyRow
  rw [toGrid_line h.toShape, if_congr (toGrid_rowIndex screen sourceRow destinationRow) rfl rfl]
  refine .ite (fun _ => .some h) fun _ => ?_
  cases hline : screen.line sourceRow with
  | none => exact .none
  | some source =>
    exact modifyLine_agrees h destinationRow fun _ _ => .some (h.line source (line_mem hline))

theorem clear_lines {columns : Nat} {lines : List Line} (h : ∀ line ∈ lines, line.Sized columns)
    (cell : Cell) :
    lines.map (fun line => {
      cells := line.cells.map fun _ => cell
      occupiedCells := line.occupiedCells.map fun _ => !isStructuralBlank cell
      softWrapped := false
      occupiedColumns := if isStructuralBlank cell then 0 else columns }) =
        List.replicate lines.length (Line.cleared columns cell) := by
  rw [eq_replicate_iff]
  refine ⟨length_map _, fun line hline => ?_⟩
  obtain ⟨old, hold, rfl⟩ := List.mem_map.mp hline
  obtain ⟨hcells, hmarks⟩ := h old hold
  simp only [Line.cleared, map_const', hcells, hmarks]

theorem clearAll_agrees (h : screen.Sized) (cell : Cell) :
    Agrees (some (screen.clearAll cell)) (some (screen.toGrid.clearAll cell)) := by
  have hring : ∀ line ∈ screen.lines.rotate screen.top, line.Sized screen.dimensions.columns :=
    fun line hline => h.line line (mem_rotate.mp hline)
  have hlines := clear_lines h.line cell
  refine ⟨?_, .some ?_⟩
  · refine congrArg some (congrArg (Grid.mk screen.dimensions · _) ?_)
    calc List.rotate (screen.clearAll cell).lines 0
      _ = List.replicate screen.lines.length (Line.cleared screen.dimensions.columns cell) := by
        rw [rotate_zero]
        exact hlines
      _ = List.replicate (screen.lines.rotate screen.top).length
          (Line.cleared screen.dimensions.columns cell) := by rw [length_rotate]
      _ = (screen.toGrid.clearAll cell).rows := (clear_lines hring cell).symm
  · exact {
      top_lt := screen.rows_pos
      lines_length := (length_map _).trans h.lines_length
      dirty_length := (length_map _).trans h.dirty_length
      line := fun line hline => by
        rw [show (screen.clearAll cell).lines = _ from hlines] at hline
        rw [eq_of_mem_replicate hline]
        exact Line.cleared_sized _ cell }

theorem fillLinearRow_agrees (h : screen.Sized) (start stop : Nat) (cell : Cell)
    (spareProtected : Bool) (row : Nat) :
    Agrees (screen.fillLinearRow start stop cell spareProtected row)
      (screen.toGrid.fillLinearRow start stop cell spareProtected row) := by
  refine .value fun lastColumn => .ite (fun _ => .some h) fun _ => ?_
  refine modifyLine_agrees h row fun line hline => .ite (fun _ => ?_) fun _ => ?_
  · exact Line.fillSparing_sized hline _ _ cell
  · exact Line.fill_sized hline _ _ cell

theorem fillLinearWith_agrees (h : screen.Sized) (start stop : Nat) (cell : Cell) (spareProtected : Bool) :
    Agrees (screen.fillLinearWith start stop cell spareProtected)
      (screen.toGrid.fillLinearWith start stop cell spareProtected) := by
  refine .ite (fun _ => .some h) fun _ => .value fun lastColumn => ?_
  refine Agrees.bind (.forRange h fun screen row hs =>
    fillLinearRow_agrees hs start stop cell spareProtected row) fun screen hs => ?_
  refine Agrees.bind (markDirtyRange_agrees hs _ _) fun screen hs => ?_
  have hrepair : ∀ {screen : Screen} {columns boundary : Nat} (line : Line),
      line.Sized screen.dimensions.columns →
        Ensures (line.repairNeighborhood columns boundary cell) (Line.Sized screen.dimensions.columns) :=
    fun line hline => Line.repairNeighborhood_sized hline _ _ cell
  refine Agrees.bind (modifyLine_agrees hs _ hrepair) fun screen hs => ?_
  refine Agrees.bind (modifyLine_agrees hs _ hrepair) fun screen hs => ?_
  exact .forRange hs fun screen row hs =>
    modifyLine_agrees hs row fun _ hline => .some (Line.recomputeOccupied_sized hline)

section

variable [Platform]

theorem replaceCluster_agrees (h : screen.Sized) (column row : Nat) (cell : Cell) :
    Agrees (screen.replaceCluster column row cell) (screen.toGrid.replaceCluster column row cell) := by
  refine .ite (fun _ => .none) fun _ => .ite (fun _ => .none) fun _ => ?_
  refine Agrees.bind (modifyLine_agrees h row fun line hline => ?_) fun screen hs => markDirty_agrees hs row
  exact Line.replaceCluster_sized hline _ column cell

theorem fillRectangle_agrees (h : screen.Sized) (rectangle : Rectangle) (cell : Cell)
    (spareProtected : Bool) :
    Agrees (screen.fillRectangle rectangle cell spareProtected)
      (screen.toGrid.fillRectangle rectangle cell spareProtected) := by
  refine Agrees.bind (.forRange h fun screen row hs => modifyLine_agrees hs row fun line hline => ?_)
    fun screen hs => markDirtyRange_agrees hs _ _
  refine .bind fun width _ => .bind fun filled hfilled => .bind fun repaired hrepaired => .some ?_
  have hf := Line.fillSpan_sized hline _ _ _ _ filled hfilled
  exact Line.recomputeOccupied_sized (Line.repairSpanEdges_sized hf _ _ repaired hrepaired)

theorem copyRectangle_agrees (h : screen.Sized) (source : Rectangle) (top left : Nat) :
    Agrees (screen.copyRectangle source top left) (screen.toGrid.copyRectangle source top left) := by
  refine .value fun sourceRows => .value fun rows => .value fun sourceColumns => .value fun columns => ?_
  refine .ite (fun _ => .some h) fun _ => ?_
  simp only [toGrid_line h.toShape]
  refine .value fun copied => Agrees.bind (.forRange h fun screen row hs => ?_)
    fun screen hs => markDirtyRange_agrees hs _ _
  exact .value fun (cells, occupied) => modifyLine_agrees hs (top + row) fun line hline =>
    Line.writeSpan_sized hline _ left cells occupied _

theorem shiftRow_agrees (h : screen.Sized) (sourceRow destinationRow : Nat) (span : ColumnSpan) :
    Agrees (screen.shiftRow sourceRow destinationRow span)
      (screen.toGrid.shiftRow sourceRow destinationRow span) := by
  refine .ite (fun _ => copyRow_agrees h sourceRow destinationRow) fun _ => ?_
  unfold copyRowSpan Grid.copyRowSpan
  rw [toGrid_line h.toShape, if_congr (toGrid_rowIndex screen sourceRow destinationRow) rfl rfl]
  refine .ite (fun _ => .some h) fun _ => .value fun source => ?_
  exact modifyLine_agrees h destinationRow fun line hline =>
    Line.copyRowSpan_sized hline source _ span

theorem clearRow_agrees (h : screen.Sized) (row : Nat) (cell : Cell) (span : ColumnSpan) :
    Agrees (screen.clearRow row cell span) (screen.toGrid.clearRow row cell span) := by
  refine .ite (fun _ => fillRow_agrees h row cell) fun _ => ?_
  exact modifyLine_agrees h row fun line hline => Line.fillRowSpan_sized hline _ cell span

theorem shiftDown_agrees (h : screen.Sized) (top bottom count : Nat) (cell : Cell) (span : ColumnSpan) :
    Agrees (screen.shiftDown top bottom count cell span)
      (screen.toGrid.shiftDown top bottom count cell span) := by
  refine .value fun height => .value fun stop => ?_
  refine Agrees.bind (.forRangeRev h fun screen row hs => shiftRow_agrees hs _ _ span) fun screen hs => ?_
  refine Agrees.bind (.forRange hs fun screen row hs => clearRow_agrees hs row cell span) fun screen hs => ?_
  exact markDirtyRange_agrees hs top bottom

theorem shiftUp_agrees (h : screen.Sized) (top bottom count : Nat) (cell : Cell) (span : ColumnSpan) :
    Agrees (screen.shiftUp top bottom count cell span)
      (screen.toGrid.shiftUp top bottom count cell span) := by
  refine Agrees.bind (.forRange h fun screen row hs => .value fun above =>
    shiftRow_agrees hs row above span) fun screen hs => .value fun gap => ?_
  refine Agrees.bind (.forRange hs fun screen row hs => clearRow_agrees hs row cell span) fun screen hs => ?_
  exact markDirtyRange_agrees hs top bottom

theorem deleteLines_agrees (h : screen.Sized) (row bottom count : Nat) (cell : Cell) (span : ColumnSpan) :
    Agrees (screen.deleteLines row bottom count cell span)
      (screen.toGrid.deleteLines row bottom count cell span) :=
  .value fun _ => shiftUp_agrees h row bottom _ cell span

end

end Screen

variable {bottom : Nat}

namespace Grid

def withRows (grid : Grid) (rows : List Line) : Grid := { grid with rows := rows }

/-- A grid with as many rows as its dimensions ask for, each of them sized. -/
structure Sized (grid : Grid) : Prop where
  rows_length : grid.rows.length = grid.dimensions.rows
  line : ∀ line ∈ grid.rows, line.Sized grid.dimensions.columns

variable {grid : Grid} {cell : Cell}

variable {row : Nat}

theorem line_eq (hrow : row < grid.dimensions.rows) : grid.line row = grid.rows[row]? := by
  rw [line, rowIndex, Nat.mod_eq_of_lt hrow]

theorem modifyLine_eq {line : Line}
    (hrow : row < grid.dimensions.rows) (hlength : grid.rows.length = grid.dimensions.rows)
    (hline : grid.rows[row]? = some line) (hchange : change line = some line') :
    grid.modifyLine row change = some (grid.withRows (grid.rows.set row line')) := by
  have hlt : row < grid.rows.length := by rw [hlength]; exact hrow
  simp only [modifyLine, line_eq hrow, hline, hchange, rowIndex, Nat.mod_eq_of_lt hrow, setAt_eq hlt,
    splice_singleton hlt, some_bind, withRows]

/-- The rows after rows `count`, …, `next - 1` have moved up by `count`. -/
structure MovedUp (rows : List Line) (count next : Nat) (rows' : List Line) : Prop where
  length_eq : rows'.length = rows.length
  row : ∀ k, rows'[k]? = if k + count < next then rows[k + count]? else rows[k]?

/-- The rows after rows `low`, …, `next - 1` have been replaced. -/
structure Replaced (rows : List Line) (blank : Line) (low next : Nat) (rows' : List Line) : Prop where
  length_eq : rows'.length = rows.length
  row : ∀ k, rows'[k]? = if low ≤ k ∧ k < next then some blank else rows[k]?

variable {rows : List Line} {count : Nat} {span : ColumnSpan}

variable {blank : Line} {rows' : List Line}

theorem Replaced.top (h : Replaced rows blank 0 count rows') :
    rows' = List.replicate count blank ++ rows.drop count := by
  apply ext_getElem?
  intro k
  rw [h.row, getElem?_append, length_replicate]
  by_cases hk : k < count
  · rw [if_pos ⟨Nat.zero_le k, hk⟩, if_pos hk, getElem?_replicate, if_pos hk]
  · rw [if_neg (by omega), if_neg hk, getElem?_drop, show count + (k - count) = k by omega]

theorem MovedUp.cleared {moved : List Line} (h : MovedUp rows count rows.length moved)
    (h' : Replaced moved blank (rows.length - count) rows.length rows') (hcount : count ≤ rows.length) :
    rows' = rows.drop count ++ List.replicate count blank := by
  apply ext_getElem?
  intro k
  rw [h'.row, h.row, getElem?_append, length_drop]
  by_cases hk : k < rows.length - count
  · rw [if_neg (by omega), if_pos hk, if_pos (by omega), getElem?_drop, Nat.add_comm]
  · rw [if_neg hk, if_neg (show ¬ k + count < rows.length by omega), getElem?_replicate]
    by_cases hlast : k < rows.length
    · rw [if_pos (by omega), if_pos (by omega)]
    · rw [if_neg (by omega), if_neg (by omega), getElem?_eq_none (by omega)]

theorem MovedUp.sized (h : grid.Sized)
    (hmoved : MovedUp grid.rows count grid.dimensions.rows rows) : (grid.withRows rows).Sized where
  rows_length := hmoved.length_eq.trans h.rows_length
  line line hline := by
    obtain ⟨k, hk⟩ := mem_iff_getElem?.mp hline
    rw [show (grid.withRows rows).rows = rows from rfl, hmoved.row] at hk
    split at hk
    · exact h.line line (mem_of_getElem? hk)
    · exact h.line line (mem_of_getElem? hk)

theorem fillRows_eq (h : grid.Sized) (cell : Cell) (body : Grid → Nat → Option Grid)
    (hle : low ≤ high) (hhigh : high ≤ grid.dimensions.rows)
    (hbody : ∀ rows row, body (grid.withRows rows) row = (grid.withRows rows).fillRow row cell) :
    ∃ rows, forRange low high grid body = some (grid.withRows rows) ∧
      Replaced grid.rows (Line.cleared grid.dimensions.columns cell) low high rows := by
  have hloop : ∃ filled, forRange low high grid body = some filled ∧
      ∃ rows, filled = grid.withRows rows ∧
        Replaced grid.rows (Line.cleared grid.dimensions.columns cell) low high rows := by
    refine forRange_inv (fun next current => ∃ rows, current = grid.withRows rows ∧
      Replaced grid.rows (Line.cleared grid.dimensions.columns cell) low next rows) hle ?_ ?_
    · exact ⟨grid.rows, rfl, rfl, fun k => by rw [if_neg (by omega)]⟩
    · rintro row _ hlow hhi ⟨rows, rfl, hrows⟩
      have hlength : rows.length = grid.dimensions.rows := hrows.length_eq.trans h.rows_length
      have hlt : row < grid.rows.length := by rw [h.rows_length]; omega
      have hold : rows[row]? = some grid.rows[row] := by
        rw [hrows.row, if_neg (by omega), getElem?_eq_getElem hlt]
      have hfill := Line.fillRow_eq (h.line _ (getElem_mem hlt)) cell
      rw [hbody]
      refine ⟨_, modifyLine_eq (show row < grid.dimensions.rows by omega) hlength hold hfill,
        _, rfl, by rw [length_set]; exact hrows.length_eq, fun k => ?_⟩
      show (rows.set row _)[k]? = _
      rw [getElem?_set, hrows.row]
      by_cases hk : row = k
      · rw [if_pos hk, if_pos (by rw [hlength]; omega), if_pos (by omega)]
      · rw [if_neg hk]
        by_cases hin : low ≤ k ∧ k < row
        · rw [if_pos hin, if_pos (by omega)]
        · rw [if_neg hin, if_neg (by omega)]
  obtain ⟨filled, hfilled, rows, rfl, hrows⟩ := hloop
  exact ⟨rows, hfilled, hrows⟩

theorem moveRows_eq [Platform] (h : grid.Sized) (hcount : count ≤ grid.dimensions.rows)
    (hfull : span.isFull grid.dimensions.columns = true) :
    ∃ rows, forRange count grid.dimensions.rows grid (fun grid row => do
      grid.shiftRow row (← sub row count) span) = some (grid.withRows rows) ∧
      MovedUp grid.rows count grid.dimensions.rows rows := by
  have hloop : ∃ moved, forRange count grid.dimensions.rows grid (fun grid row => do
      grid.shiftRow row (← sub row count) span) = some moved ∧
        ∃ rows, moved = grid.withRows rows ∧ MovedUp grid.rows count grid.dimensions.rows rows := by
    refine forRange_inv (fun next current => ∃ rows, current = grid.withRows rows ∧
      MovedUp grid.rows count next rows) hcount ?_ ?_
    · exact ⟨grid.rows, rfl, rfl, fun k => by rw [if_neg (by omega)]⟩
    · rintro row _ hlow hhi ⟨rows, rfl, hrows⟩
      have hlength : rows.length = grid.dimensions.rows := hrows.length_eq.trans h.rows_length
      have hlt : row < rows.length := by rw [hlength]; exact hhi
      have hrow : rows[row]? = grid.rows[row]? := by
        rw [hrows.row]
        split
        · next hle => rw [show row + count = row by omega]
        · rfl
      simp only [sub_eq hlow, some_bind, shiftRow]
      rw [if_pos (show span.isFull (grid.withRows rows).dimensions.columns = true from hfull)]
      unfold copyRow
      rw [rowIndex, rowIndex, show (grid.withRows rows).dimensions = grid.dimensions from rfl,
        Nat.mod_eq_of_lt hhi, Nat.mod_eq_of_lt (show row - count < grid.dimensions.rows by omega)]
      by_cases hzero : row = row - count
      · rw [if_pos hzero]
        refine ⟨_, rfl, rows, rfl, hrows.length_eq, fun k => ?_⟩
        rw [hrows.row]
        have hcount0 : count = 0 ∨ row = 0 := by omega
        rcases hcount0 with rfl | rfl
        · simp
        · rw [if_neg (by omega), show count = 0 by omega]
          simp
      · rw [if_neg hzero, line_eq (show row < (grid.withRows rows).dimensions.rows from hhi)]
        show ∃ s', (rows[row]? >>= _) = _ ∧ _
        rw [getElem?_eq_getElem hlt, some_bind]
        have htarget : row - count < rows.length := by omega
        refine ⟨_, modifyLine_eq (show row - count < grid.dimensions.rows by omega) hlength
          (getElem?_eq_getElem htarget) rfl, _, rfl, ?_, fun k => ?_⟩
        · rw [length_set]
          exact hrows.length_eq
        · show (rows.set (row - count) _)[k]? = _
          rw [getElem?_set]
          by_cases hk : row - count = k
          · rw [if_pos hk, if_pos (by omega), if_pos (by omega), ← getElem?_eq_getElem hlt, hrow,
              show k + count = row by omega]
          · rw [if_neg hk, hrows.row]
            by_cases hin : k + count < row
            · rw [if_pos hin, if_pos (by omega)]
            · rw [if_neg hin, if_neg (by omega)]
  obtain ⟨moved, hmoved, rows, rfl, hrows⟩ := hloop
  exact ⟨rows, hmoved, hrows⟩

theorem scrollUp_shifts [Platform] {top : Nat} {removed : List ScreenRow} {grid' : Grid}
    (h : grid.scrollUp top bottom count cell span = some (removed, grid')) :
    ∃ height, sub bottom top = some height ∧
      grid.shiftUp top bottom (min count (height + 1)) cell span = some grid' := by
  obtain ⟨height, hheight, h⟩ := bind_eq_some_iff.mp h
  refine ⟨height, hheight, ?_⟩
  have hlast : ∀ rows : Option (List ScreenRow), (rows >>= fun rows => do
      return (rows, ← grid.shiftUp top bottom (min count (height + 1)) cell span)) =
        some (removed, grid') →
      grid.shiftUp top bottom (min count (height + 1)) cell span = some grid' := by
    intro rows hrows
    obtain ⟨_, -, hshift⟩ := bind_eq_some_iff.mp hrows
    obtain ⟨shifted, hshifted, heq⟩ := bind_eq_some_iff.mp hshift
    rw [hshifted]
    exact congrArg some (congrArg Prod.snd (some.inj heq))
  by_cases hfull : span.isFull grid.dimensions.columns = true
  · simp only [hfull, if_true] at h
    exact hlast _ h
  · simp only [hfull] at h
    exact hlast _ h

theorem shiftUp_full [Platform] (h : grid.Sized)
    (hbottom : bottom + 1 = grid.dimensions.rows) (hcount : count ≤ grid.dimensions.rows) (cell : Cell)
    (hfull : span.isFull grid.dimensions.columns = true) : grid.shiftUp 0 bottom count cell span =
      (grid.withRows (grid.rows.drop count ++
        List.replicate count (Line.cleared grid.dimensions.columns cell))).markDirtyRange 0 bottom := by
  obtain ⟨moved, hmove, hmoved⟩ := moveRows_eq h hcount hfull
  obtain ⟨rows, hclear, hcleared⟩ := fillRows_eq (hmoved.sized h) cell
    (fun grid row => grid.clearRow row cell span) (Nat.sub_le grid.dimensions.rows count)
    le_rfl fun _ _ => if_pos hfull
  rw [← h.rows_length] at hmoved
  rw [show grid.dimensions.rows = grid.rows.length from h.rows_length.symm] at hcleared
  unfold shiftUp
  rw [Nat.zero_add, hbottom, hmove, some_bind, sub_eq hcount]
  show (forRange _ _ _ _ >>= _) = _
  rw [hclear, hmoved.cleared hcleared (by rw [h.rows_length]; exact hcount)]
  rfl

end Grid

namespace Screen

variable {screen : Screen}

/-- As `Agrees`, with the rows that left. -/
structure Matches (x : Option (List ScreenRow × Screen)) (y : Option (List ScreenRow × Grid)) : Prop where
  grid : x.map (fun result => (result.1, result.2.toGrid)) = y
  sized : Ensures x fun result => result.2.Sized

theorem Matches.value {v : Option α} {f : α → Option (List ScreenRow × Screen)}
    {g : α → Option (List ScreenRow × Grid)} (hf : ∀ a, Matches (f a) (g a)) :
    Matches (v >>= f) (v >>= g) := by
  cases v with
  | none => exact ⟨rfl, .none⟩
  | some a => exact hf a

theorem Agrees.matches {x : Option Screen} {y : Option Grid} (h : Agrees x y)
    (removed : List ScreenRow) : Matches (x.map (removed, ·)) (y.map (removed, ·)) := by
  obtain ⟨rfl, hsized⟩ := h
  cases x with
  | none => exact ⟨rfl, .none⟩
  | some screen => exact ⟨rfl, .some (hsized screen rfl)⟩

theorem Sized.toGrid (h : screen.Sized) : screen.toGrid.Sized where
  rows_length := (length_rotate _ _).trans h.lines_length
  line line hline := h.line line (mem_rotate.mp hline)

/-- Rotating the ring by `count` over cleared rows is moving all rows up by `count`. -/
theorem rotate_agrees [Platform] (h : screen.Sized) {count : Nat}
    (hbottom : bottom + 1 = screen.dimensions.rows) (hcount : count ≤ screen.dimensions.rows)
    (cell : Cell) {span : ColumnSpan} (hfull : span.isFull screen.dimensions.columns = true) :
    Agrees (do
      let screen ← forRange 0 count screen fun screen offset => screen.fillRow offset cell
      markDirtyRange { screen with top := (screen.top + count) % screen.dimensions.rows } 0 bottom)
      (screen.toGrid.shiftUp 0 bottom count cell span) := by
  have hloop : Agrees (forRange 0 count screen fun screen offset => screen.fillRow offset cell)
      (forRange 0 count screen.toGrid fun grid offset => grid.fillRow offset cell) :=
    .forRange h fun screen row hs => fillRow_agrees hs row cell
  obtain ⟨rows, hfill, hrows⟩ := Grid.fillRows_eq h.toGrid cell
    (fun grid offset => grid.fillRow offset cell) (Nat.zero_le count) hcount fun _ _ => rfl
  obtain ⟨hgrid, hsized⟩ := hloop
  rw [hfill] at hgrid
  obtain ⟨filled, hfilled, hshown⟩ := map_eq_some_iff.mp hgrid
  have hs : filled.Sized := hsized filled hfilled
  have hdims : filled.dimensions = screen.dimensions := congrArg Grid.dimensions hshown
  have hlines : filled.lines.rotate filled.top = rows := congrArg Grid.rows hshown
  have hdirty : filled.dirtyRows = screen.dirtyRows := congrArg Grid.dirtyRows hshown
  have hlength : filled.lines.length = filled.dimensions.rows := hs.lines_length
  -- the ring with its first row moved on shows the rotated rows
  have hrotated : toGrid { filled with top := (filled.top + count) % filled.dimensions.rows } =
      screen.toGrid.withRows (screen.toGrid.rows.drop count ++
        List.replicate count (Line.cleared screen.toGrid.dimensions.columns cell)) := by
    have hshift : filled.lines.rotate ((filled.top + count) % filled.dimensions.rows) =
        screen.toGrid.rows.drop count ++
          List.replicate count (Line.cleared screen.toGrid.dimensions.columns cell) := by
      rw [← hlength, Ring.rotate_advance, hlines, hrows.top]
      simpa using rotate_append_length_eq
        (List.replicate count (Line.cleared screen.toGrid.dimensions.columns cell))
        (screen.toGrid.rows.drop count)
    show Grid.mk filled.dimensions (filled.lines.rotate _) filled.dirtyRows = _
    rw [hshift, hdims, hdirty]
    rfl
  rw [Grid.shiftUp_full h.toGrid hbottom hcount cell hfull, ← hrotated, hfilled, bind_eq_bind,
    bind_some]
  exact markDirtyRange_agrees (hs.withTop _) 0 bottom

theorem Agrees.returns {x : Option Screen} {y : Option Grid} (h : Agrees x y) (removed : List ScreenRow) :
    Matches (x >>= fun screen => pure (removed, screen)) (y >>= fun grid => pure (removed, grid)) := by
  obtain ⟨rfl, hsized⟩ := h
  cases x with
  | none => exact ⟨rfl, .none⟩
  | some screen => exact ⟨rfl, .some (hsized screen rfl)⟩

theorem scrollUp_matches [Platform] (h : screen.Sized) (top bottom count : Nat) (cell : Cell)
    (span : ColumnSpan) :
    Matches (screen.scrollUp top bottom count cell span)
      (screen.toGrid.scrollUp top bottom count cell span) := by
  unfold scrollUp Grid.scrollUp
  cases hsub : sub bottom top with
  | none => exact ⟨rfl, .none⟩
  | some height =>
    simp only [some_bind]
    by_cases hfull : span.isFull screen.dimensions.columns = true
    · have hfull' : span.isFull screen.toGrid.dimensions.columns = true := hfull
      simp only [hfull, hfull', toGrid_line h.toShape, Bool.not_true, Bool.false_eq_true, if_false, if_true]
      refine .value fun removed => ?_
      by_cases hwhole : top = 0 ∧ bottom + 1 = screen.dimensions.rows
      · obtain ⟨rfl, hbottom⟩ := hwhole
        have hheight : bottom - 0 = height := (sub_eq_some.mp hsub).2
        have hrotate := rotate_agrees h hbottom (show min count (height + 1) ≤ screen.dimensions.rows by omega)
          cell hfull
        rw [if_pos ⟨rfl, hbottom⟩]
        have hreturns := hrotate.returns removed
        rw [bind_eq_bind, bind_eq_bind, bind_assoc] at hreturns
        exact hreturns
      · rw [if_neg hwhole]
        exact (shiftUp_agrees h top bottom _ cell span).returns removed
    · have hspan : ¬ span.isFull screen.toGrid.dimensions.columns = true := hfull
      rw [if_pos (by simpa using hfull), if_neg hspan]
      exact (shiftUp_agrees h top bottom _ cell span).returns []

theorem perform_matches [Platform] (h : screen.Sized) (operation : ScreenOp) :
    Matches (screen.perform operation) (screen.toGrid.perform operation) := by
  cases operation with
  | replaceCell column row cell => exact (replaceCell_agrees h column row cell).matches []
  | replaceCluster column row cell => exact (replaceCluster_agrees h column row cell).matches []
  | fillRectangle rectangle cell spareProtected =>
    exact (fillRectangle_agrees h rectangle cell spareProtected).matches []
  | copyRectangle source top left => exact (copyRectangle_agrees h source top left).matches []
  | fillLinear start stop cell => exact (fillLinearWith_agrees h start stop cell false).matches []
  | fillLinearSparingProtected start stop cell =>
    exact (fillLinearWith_agrees h start stop cell true).matches []
  | clearAll cell => exact (clearAll_agrees h cell).matches []
  | insertCharacters column row count cell span =>
    exact (insertCharacters_agrees h column row count cell span).matches []
  | deleteCharacters column row count cell span =>
    exact (deleteCharacters_agrees h column row count cell span).matches []
  | insertLines row bottom count cell span =>
    exact (shiftDown_agrees h row bottom count cell span).matches []
  | deleteLines row bottom count cell span =>
    exact (deleteLines_agrees h row bottom count cell span).matches []
  | scrollUp top bottom count cell span => exact scrollUp_matches h top bottom count cell span
  | scrollDown top bottom count cell span =>
    exact (shiftDown_agrees h top bottom count cell span).matches []
  | markSoftWrapped row => exact (setSoftWrapped_agrees h row true).matches []
  | clearSoftWrapped row => exact (setSoftWrapped_agrees h row false).matches []
  | markAllDirty => exact (markAllDirty_agrees h).matches []

theorem performAll_toGrid [Platform] (h : screen.Sized) (operations : List ScreenOp) :
    (screen.performAll operations).map (fun result => (result.1, result.2.toGrid)) =
      screen.toGrid.performAll operations := by
  induction operations generalizing screen with
  | nil => rfl
  | cons operation rest ih =>
    obtain ⟨hgrid, hsized⟩ := perform_matches h operation
    rw [performAll, Grid.performAll, ← hgrid]
    cases hperform : screen.perform operation with
    | none => rfl
    | some result =>
      obtain ⟨removed, next⟩ := result
      have hrest := ih (hsized (removed, next) hperform)
      simp only [map_some, some_bind]
      rw [← hrest]
      cases next.performAll rest with
      | none => rfl
      | some result => rfl

/-- The rotated ring refines the plain grid: after any sequence of operations the cells, markers,
extents, wrap flags and dirty rows read from the top down, and the rows that left the screen on the
way, are those of the same operations on a grid with no rotation, and the one stops where the other
does. In particular a scroll of the whole screen by rotation shows what moving its rows shows. -/
theorem ring_refines_grid [Platform] {screen : Screen} (h : screen.Sized) :
    (∀ operations, (screen.performAll operations).map (fun result => (result.1, result.2.toGrid)) =
      screen.toGrid.performAll operations) ∧
    ∀ count cell removed rotated,
      screen.scrollUp 0 (screen.dimensions.rows - 1) count cell (.full screen.dimensions.columns) =
        some (removed, rotated) →
      ∃ moved, screen.shiftUp 0 (screen.dimensions.rows - 1) (min count screen.dimensions.rows) cell
          (.full screen.dimensions.columns) = some moved ∧ moved.toGrid = rotated.toGrid := by
  refine ⟨performAll_toGrid h, fun count cell removed rotated hscroll => ?_⟩
  have hpos := screen.rows_pos
  have hgrid := (scrollUp_matches h 0 (screen.dimensions.rows - 1) count cell
    (.full screen.dimensions.columns)).grid
  have hshift := (shiftUp_agrees h 0 (screen.dimensions.rows - 1) (min count screen.dimensions.rows) cell
    (.full screen.dimensions.columns)).grid
  rw [hscroll, map_some] at hgrid
  obtain ⟨height, hheight, hmoves⟩ := Grid.scrollUp_shifts hgrid.symm
  obtain ⟨-, rfl⟩ := sub_eq_some.mp hheight
  rw [Nat.sub_zero, Nat.sub_add_cancel hpos] at hmoves
  rw [hmoves] at hshift
  exact map_eq_some_iff.mp hshift

/-- Two scrolls of a grid of two rows, and a fill that crosses from the last physical row to the
first. -/
theorem ring_refines_grid_wrapped :
    letI := Platform.reference
    let screen := Screen.new ⟨4, 2, 8, by decide, by decide, by decide, by decide⟩
    let letter : Cell := { blankCell with text := ['x'] }
    let operations : List ScreenOp := [.replaceCell 0 1 letter, .scrollUp 0 1 1 blankCell ⟨0, 3⟩,
      .fillLinear 2 6 letter, .scrollUp 0 1 2 blankCell ⟨0, 3⟩]
    (screen.performAll operations).map (fun result => (result.1, result.2.toGrid)) =
      screen.toGrid.performAll operations ∧
    ((screen.performAll operations).map fun result => result.1.map List.length) = some [0, 1, 0, 2] := by
  let _ := Platform.reference
  have hgood : (Screen.new ⟨4, 2, 8, by decide, by decide, by decide, by decide⟩).Good
    ⟨true, true, true, true⟩ := new_good _
  refine ⟨(ring_refines_grid hgood.sized).1 _, ?_⟩
  decide +kernel

end Screen

end FesTerm
