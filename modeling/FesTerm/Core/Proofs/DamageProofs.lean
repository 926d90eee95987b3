import FesTerm.Core.Proofs.GridProofs
import FesTerm.Core.Proofs.ReplyProofs

/-!
# Damage tracking

Every operation of the grid marks the rows that it changes. `Rewritten` bounds the rows that the loops
of an operation touch, and `Tracked` is what the operation leaves behind once it has marked them: a row
is marked or still shows the same cells, and no mark is lost. `Tracked` is closed under composition,
so it holds of every sequence of operations, and with it the marks of a terminal cover all that its
moves have changed.
-/

namespace FesTerm

open Checked Option List

variable {row : Nat}

namespace Grid

/-- One row and one mark for every row of the dimensions. -/
structure Framed (grid : Grid) : Prop where
  rows_length : grid.rows.length = grid.dimensions.rows
  dirty_length : grid.dirtyRows.length = grid.dimensions.rows

/-- No row outside of `first` up to `last` has changed, and no mark. -/
structure Rewritten (first last : Nat) (grid grid' : Grid) : Prop where
  dimensions : grid'.dimensions = grid.dimensions
  dirtyRows : grid'.dirtyRows = grid.dirtyRows
  rows_length : grid'.rows.length = grid.rows.length
  row : ∀ k : Nat, (∀ row, first ≤ row → row ≤ last → k ≠ grid.rowIndex row) → grid'.rows[k]? = grid.rows[k]?

/-- Every row is marked or shows what it showed before, and the marked rows stay marked. -/
structure Tracked (grid grid' : Grid) : Prop where
  dimensions : grid'.dimensions = grid.dimensions
  rows_length : grid'.rows.length = grid.rows.length
  dirty_length : grid'.dirtyRows.length = grid.dirtyRows.length
  kept : ∀ k : Nat, grid.dirtyRows[k]? = some true → grid'.dirtyRows[k]? = some true
  row : ∀ k : Nat, k < grid.dimensions.rows → grid'.dirtyRows[k]? = some true ∨
    grid'.rows[k]?.map Line.cells = grid.rows[k]?.map Line.cells

/-- The rows from `first` up to `last` are marked. -/
def Marked (first last : Nat) (grid : Grid) : Prop :=
  ∀ row : Nat, first ≤ row → row ≤ last → grid.dirtyRows[row]? = some true

variable {grid grid' grid'' : Grid} {first last : Nat} {cell : Cell}

theorem Rewritten.refl (first last : Nat) (grid : Grid) : Rewritten first last grid grid :=
  ⟨rfl, rfl, rfl, fun _ _ => rfl⟩

theorem Rewritten.trans (h : Rewritten first last grid grid') (h' : Rewritten first last grid' grid'') :
    Rewritten first last grid grid'' where
  dimensions := h'.dimensions.trans h.dimensions
  dirtyRows := h'.dirtyRows.trans h.dirtyRows
  rows_length := h'.rows_length.trans h.rows_length
  row k hk := by
    have hk' : ∀ row, first ≤ row → row ≤ last → k ≠ grid'.rowIndex row := by
      unfold rowIndex
      rw [h.dimensions]
      exact hk
    exact (h'.row k hk').trans (h.row k hk)

theorem Tracked.refl (grid : Grid) : Tracked grid grid :=
  ⟨rfl, rfl, rfl, fun _ h => h, fun _ _ => .inr rfl⟩

theorem Tracked.trans (h : Tracked grid grid') (h' : Tracked grid' grid'') : Tracked grid grid'' where
  dimensions := h'.dimensions.trans h.dimensions
  rows_length := h'.rows_length.trans h.rows_length
  dirty_length := h'.dirty_length.trans h.dirty_length
  kept k hk := h'.kept k (h.kept k hk)
  row k hk := by
    rcases h'.row k (by rwa [h.dimensions]) with hmark | hsame
    · exact .inl hmark
    · rcases h.row k hk with hmark | hsame'
      · exact .inl (h'.kept k hmark)
      · exact .inr (hsame.trans hsame')

theorem Tracked.framed (h : Tracked grid grid') (hf : grid.Framed) : grid'.Framed where
  rows_length := by rw [h.rows_length, h.dimensions, hf.rows_length]
  dirty_length := by rw [h.dirty_length, h.dimensions, hf.dirty_length]

/-! ## Loops over rows -/

theorem modifyLine_rewritten (hfirst : first ≤ row) (hlast : row ≤ last)
    (change : Line → Option Line) : Ensures (grid.modifyLine row change) (Rewritten first last grid) := by
  refine .bind fun line _ => .bind fun line' _ => .bind fun rows hrows => .some ?_
  obtain ⟨-, hget⟩ := getElem?_of_setAt hrows
  refine ⟨rfl, rfl, length_of_writeAt hrows, fun k hk => ?_⟩
  rw [hget k, if_neg (hk row hfirst hlast)]

variable {body : Grid → Nat → Option Grid} {low high : Nat}

theorem forRange_rewritten (first last : Nat) (hbody : ∀ current row, low ≤ row → row < high →
      Ensures (body current row) (Rewritten first last current)) :
    Ensures (forRange low high grid body) (Rewritten first last grid) := by
  refine forRange_ensures (.refl first last grid) fun current row hlow hhigh h => ?_
  exact (hbody current row hlow hhigh).mono fun _ hnext => h.trans hnext

theorem forRangeRev_rewritten (first last : Nat) (hbody : ∀ current row, low ≤ row → row < high →
      Ensures (body current row) (Rewritten first last current)) :
    Ensures (forRangeRev low high grid body) (Rewritten first last grid) := by
  refine forRangeRev_ensures (.refl first last grid) fun current row hlow hhigh h => ?_
  exact (hbody current row hlow hhigh).mono fun _ hnext => h.trans hnext

theorem Marked.reached (hf : grid.Framed) (hm : Marked first last grid) {k : Nat}
    (hk : ¬ ∀ row, first ≤ row → row ≤ last → k ≠ grid.rowIndex row) : first ≤ k ∧ k ≤ last := by
  push Not at hk
  obtain ⟨row, hfirst, hlast, rfl⟩ := hk
  have hlt : row < grid.dimensions.rows := by
    rw [← hf.dirty_length]
    exact (List.getElem?_eq_some_iff.mp (hm row hfirst hlast)).1
  rw [rowIndex, Nat.mod_eq_of_lt hlt]
  exact ⟨hfirst, hlast⟩

theorem Rewritten.tracked (h : Rewritten first last grid grid') (hf : grid.Framed)
    (hm : Marked first last grid) : Tracked grid grid' where
  dimensions := h.dimensions
  rows_length := h.rows_length
  dirty_length := by rw [h.dirtyRows]
  kept k hk := by rwa [h.dirtyRows]
  row k _ := by
    by_cases hk : ∀ row, first ≤ row → row ≤ last → k ≠ grid.rowIndex row
    · exact .inr (by rw [h.row k hk])
    · obtain ⟨hfirst, hlast⟩ := hm.reached hf hk
      exact .inl (by rw [h.dirtyRows, hm k hfirst hlast])

/-- Marking the rows that a loop has touched. -/
theorem Rewritten.mark (h : Rewritten first last grid grid') (hf : grid.Framed) :
    Ensures (grid'.markDirtyRange first last) fun marked =>
      Tracked grid marked ∧ Marked first last marked := by
  refine .bind fun dirtyRows hdirty => .some ?_
  have hlength := length_of_fillRange hdirty
  obtain ⟨-, hle, hget⟩ := getElem?_of_fillRange hdirty
  have hmarked : Marked first last { grid' with dirtyRows := dirtyRows } := by
    intro row hfirst hlast
    show dirtyRows[row]? = some true
    rw [hget row, if_pos ⟨hfirst, by omega⟩]
  have hframed : Framed { grid' with dirtyRows := dirtyRows } := by
    constructor
    · show grid'.rows.length = grid'.dimensions.rows
      rw [h.rows_length, h.dimensions, hf.rows_length]
    · show dirtyRows.length = grid'.dimensions.rows
      rw [hlength, h.dirtyRows, h.dimensions, hf.dirty_length]
  refine ⟨⟨h.dimensions, h.rows_length, by rw [← h.dirtyRows]; exact hlength, ?_, ?_⟩, hmarked⟩
  · intro k hk
    show dirtyRows[k]? = some true
    rw [hget k, h.dirtyRows, hk, ite_self]
  · intro k _
    by_cases hk : ∀ row, first ≤ row → row ≤ last → k ≠ grid.rowIndex row
    · exact .inr (by rw [h.row k hk])
    · have hk' : ¬ ∀ row, first ≤ row → row ≤ last →
          k ≠ rowIndex { grid' with dirtyRows := dirtyRows } row := by
        unfold rowIndex at hk ⊢
        rwa [show ({ grid' with dirtyRows := dirtyRows } : Grid).dimensions = grid.dimensions from
          h.dimensions]
      obtain ⟨hfirst, hlast⟩ := hmarked.reached hframed hk'
      exact .inl (hmarked k hfirst hlast)

theorem Rewritten.markRow (h : Rewritten row row grid grid') (hf : grid.Framed) :
    Ensures (grid'.markDirty row) (Tracked grid) := by
  refine .bind fun dirtyRows hdirty => .some ?_
  obtain ⟨hrow, hget⟩ := getElem?_of_setAt hdirty
  have hplace : grid.rowIndex row = row := by
    rw [h.dirtyRows, hf.dirty_length] at hrow
    exact Nat.mod_eq_of_lt hrow
  refine ⟨h.dimensions, h.rows_length, ?_, fun k hk => ?_, fun k _ => ?_⟩
  · show dirtyRows.length = grid.dirtyRows.length
    rw [← h.dirtyRows]
    exact length_of_writeAt hdirty
  · show dirtyRows[k]? = some true
    rw [hget k, h.dirtyRows, hk, ite_self]
  · by_cases hk : k = row
    · refine .inl ?_
      show dirtyRows[k]? = some true
      rw [hget k, if_pos hk]
    · refine .inr ?_
      rw [h.row k ?_]
      intro other hfirst hlast
      rwa [show other = row by omega, hplace]

theorem markAllDirty_get (hf : grid.Framed) (hrow : row < grid.dimensions.rows) :
    grid.markAllDirty.dirtyRows[row]? = some true := by
  rw [← hf.dirty_length] at hrow
  show (grid.dirtyRows.map fun _ => true)[row]? = some true
  rw [getElem?_map, getElem?_eq_getElem hrow]
  rfl

theorem Tracked.all {rows : List Line} (hf : grid.Framed) (hlength : rows.length = grid.rows.length) :
    Tracked grid { grid.markAllDirty with rows := rows } where
  dimensions := rfl
  rows_length := hlength
  dirty_length := length_map ..
  kept k hk := by
    refine markAllDirty_get hf ?_
    rw [← hf.dirty_length]
    exact (List.getElem?_eq_some_iff.mp hk).1
  row k hk := .inl (markAllDirty_get hf hk)

/-! ## Operations -/

theorem modifyLine_tracked {change : Line → Line} (hcells : ∀ line, (change line).cells = line.cells) :
    Ensures (grid.modifyLine row fun line => some (change line)) (Tracked grid) := by
  refine .bind fun line hline => .bind fun line' hline' => .bind fun rows hrows => .some ?_
  cases hline'
  obtain ⟨-, hget⟩ := getElem?_of_setAt hrows
  refine ⟨rfl, length_of_writeAt hrows, rfl, fun _ hk => hk, fun k _ => .inr ?_⟩
  show rows[k]?.map Line.cells = grid.rows[k]?.map Line.cells
  rw [hget k]
  by_cases hk : k = grid.rowIndex row
  · rw [if_pos hk, hk, show grid.rows[grid.rowIndex row]? = some line from hline]
    exact congrArg some (hcells line)
  · rw [if_neg hk]

theorem fillLinearRow_rewritten {start stop : Nat} {spareProtected : Bool} (hfirst : first ≤ row)
    (hlast : row ≤ last) :
    Ensures (grid.fillLinearRow start stop cell spareProtected row) (Rewritten first last grid) := by
  refine .bind fun lastColumn _ => .ite (fun _ => .some (.refl first last grid)) fun _ => ?_
  exact modifyLine_rewritten hfirst hlast _

theorem fillLinearWith_tracked (hf : grid.Framed) (start stop : Nat) (cell : Cell) (spare : Bool) :
    Ensures (grid.fillLinearWith start stop cell spare) (Tracked grid) := by
  refine .ite (fun _ => .some (.refl grid)) fun hlt => ?_
  have hle : start / grid.dimensions.columns ≤ (stop - 1) / grid.dimensions.columns :=
    Nat.div_le_div_right (by omega)
  refine .bind fun lastColumn _ => .bind fun filled hfilled => .bind fun marked hmarked => ?_
  have hrows := forRange_rewritten _ _ (fun current row hlow hhigh =>
    fillLinearRow_rewritten hlow (Nat.le_of_lt_succ hhigh)) filled hfilled
  obtain ⟨htracked, hmarks⟩ := hrows.mark hf marked hmarked
  -- the repairs come after the marks, in rows that are marked
  refine .bind fun repaired hrepaired => .bind fun repaired' hrepaired' => ?_
  have hfirst := modifyLine_rewritten le_rfl hle _ repaired hrepaired
  have hlast := modifyLine_rewritten hle le_rfl _ repaired' hrepaired'
  intro done hdone
  have hdone' := forRange_rewritten _ _ (fun current row hlow hhigh =>
    modifyLine_rewritten hlow (Nat.le_of_lt_succ hhigh) _) done hdone
  exact htracked.trans (((hfirst.trans hlast).trans hdone').tracked (htracked.framed hf) hmarks)

theorem insertCharacters_tracked (hf : grid.Framed) (column row count : Nat) (cell : Cell)
    (span : ColumnSpan) :
    Ensures (grid.insertCharacters column row count cell span) (Tracked grid) := by
  refine .ite (fun _ => .some (.refl grid)) fun _ => .bind fun changed hchanged => ?_
  exact (modifyLine_rewritten (le_refl row) (le_refl row) _ changed hchanged).markRow hf

theorem deleteCharacters_tracked (hf : grid.Framed) (column row count : Nat) (cell : Cell)
    (span : ColumnSpan) :
    Ensures (grid.deleteCharacters column row count cell span) (Tracked grid) := by
  refine .ite (fun _ => .some (.refl grid)) fun _ => .bind fun changed hchanged => ?_
  exact (modifyLine_rewritten (le_refl row) (le_refl row) _ changed hchanged).markRow hf

theorem replaceCell_tracked (hf : grid.Framed) (column row : Nat) (cell : Cell) :
    Ensures (grid.replaceCell column row cell) (Tracked grid) := by
  refine .ite (fun _ => .none) fun _ => .bind fun changed hchanged => ?_
  exact (modifyLine_rewritten (le_refl row) (le_refl row) _ changed hchanged).markRow hf

section

variable [Platform]

theorem replaceCluster_tracked (hf : grid.Framed) (column row : Nat) (cell : Cell) :
    Ensures (grid.replaceCluster column row cell) (Tracked grid) := by
  refine .ite (fun _ => .none) fun _ => .ite (fun _ => .none) fun _ => .bind fun changed hchanged => ?_
  exact (modifyLine_rewritten (le_refl row) (le_refl row) _ changed hchanged).markRow hf

omit [Platform] in
theorem forRange_tracked (hf : grid.Framed) (hbody : ∀ current row, low ≤ row → row < high →
      Ensures (body current row) (Rewritten first last current)) :
    Ensures (forRange low high grid body >>= fun grid => grid.markDirtyRange first last)
      (Tracked grid) := by
  refine .bind fun changed hchanged => ?_
  exact ((forRange_rewritten first last hbody changed hchanged).mark hf).mono fun _ h => h.1

theorem fillRectangle_tracked (hf : grid.Framed) (rectangle : Rectangle) (cell : Cell) (spare : Bool) :
    Ensures (grid.fillRectangle rectangle cell spare) (Tracked grid) :=
  forRange_tracked hf fun current row hlow hhigh => modifyLine_rewritten hlow (by omega) _

theorem copyRectangle_tracked (hf : grid.Framed) (source : Rectangle) (top left : Nat) :
    Ensures (grid.copyRectangle source top left) (Tracked grid) := by
  refine .bind fun sourceHeight _ => .bind fun heightLeft _ => ?_
  refine .bind fun sourceWidth _ => .bind fun widthLeft _ => ?_
  refine .ite (fun _ => .some (.refl grid)) fun hsome => .bind fun copied _ => ?_
  refine forRange_tracked hf fun current row _ hhigh => .bind fun cells _ => ?_
  exact modifyLine_rewritten (by omega) (by omega) _

theorem shiftRow_rewritten {sourceRow destinationRow : Nat} (span : ColumnSpan)
    (hfirst : first ≤ destinationRow) (hlast : destinationRow ≤ last) :
    Ensures (grid.shiftRow sourceRow destinationRow span) (Rewritten first last grid) := by
  refine .ite (fun _ => ?_) fun _ => ?_
  · refine .ite (fun _ => .some (.refl first last grid)) fun _ => .bind fun line _ => ?_
    exact modifyLine_rewritten hfirst hlast _
  · refine .ite (fun _ => .some (.refl first last grid)) fun _ => .bind fun line _ => ?_
    exact modifyLine_rewritten hfirst hlast _

theorem clearRow_rewritten (cell : Cell) (span : ColumnSpan) (hfirst : first ≤ row)
    (hlast : row ≤ last) : Ensures (grid.clearRow row cell span) (Rewritten first last grid) :=
  .ite (fun _ => modifyLine_rewritten hfirst hlast _) fun _ => modifyLine_rewritten hfirst hlast _

theorem shiftDown_tracked (hf : grid.Framed) (top bottom count : Nat) (cell : Cell) (span : ColumnSpan) :
    Ensures (grid.shiftDown top bottom count cell span) (Tracked grid) := by
  refine .bind fun height hheight => .bind fun stop hstop => .bind fun shifted hshifted => ?_
  obtain ⟨hle, hheight⟩ := sub_eq_some.mp hheight
  obtain ⟨-, hstop⟩ := sub_eq_some.mp hstop
  have hshift := forRangeRev_rewritten top bottom (fun current row hlow hhigh =>
    shiftRow_rewritten span (by omega) (by omega)) shifted hshifted
  refine .bind fun cleared hcleared => ?_
  have hclear := forRange_rewritten top bottom (fun current row hlow hhigh =>
    clearRow_rewritten cell span hlow (by omega)) cleared hcleared
  exact ((hshift.trans hclear).mark hf).mono fun _ h => h.1

theorem shiftUp_tracked (hf : grid.Framed) {top bottom count : Nat} (hcount : top + count ≤ bottom + 1)
    (cell : Cell) (span : ColumnSpan) :
    Ensures (grid.shiftUp top bottom count cell span) (Tracked grid) := by
  refine .bind fun shifted hshifted => .bind fun gap hgap => .bind fun cleared hcleared => ?_
  obtain ⟨-, hgap⟩ := sub_eq_some.mp hgap
  have hshift := forRange_rewritten top bottom (fun current row hlow hhigh =>
    .bind fun destination hdestination => by
      obtain ⟨-, rfl⟩ := sub_eq_some.mp hdestination
      exact shiftRow_rewritten span (by omega) (by omega)) shifted hshifted
  have hclear := forRange_rewritten top bottom (fun current row hlow hhigh =>
    clearRow_rewritten cell span (by omega) (by omega)) cleared hcleared
  exact ((hshift.trans hclear).mark hf).mono fun _ h => h.1

theorem deleteLines_tracked (hf : grid.Framed) (row bottom count : Nat) (cell : Cell) (span : ColumnSpan) :
    Ensures (grid.deleteLines row bottom count cell span) (Tracked grid) := by
  refine .bind fun height hheight => ?_
  obtain ⟨hle, rfl⟩ := sub_eq_some.mp hheight
  exact shiftUp_tracked hf (by omega) cell span

theorem scrollUp_tracked (hf : grid.Framed) (top bottom count : Nat) (cell : Cell) (span : ColumnSpan) :
    Ensures (grid.scrollUp top bottom count cell span) fun result => Tracked grid result.2 := by
  rintro ⟨removed, scrolled⟩ hscrolled
  obtain ⟨height, hheight, hshift⟩ := scrollUp_shifts hscrolled
  obtain ⟨hle, rfl⟩ := sub_eq_some.mp hheight
  exact shiftUp_tracked hf (by omega) cell span scrolled hshift

omit [Platform] in
theorem Ensures.silent {x : Option Grid} (h : Ensures x (Tracked grid)) :
    Ensures (x.map (([] : List ScreenRow), ·)) fun result => Tracked grid result.2 := by
  intro result hresult
  obtain ⟨grid', hx, rfl⟩ := map_eq_some_iff.mp hresult
  exact h grid' hx

theorem perform_tracked (hf : grid.Framed) (operation : ScreenOp) :
    Ensures (grid.perform operation) fun result => Tracked grid result.2 := by
  cases operation with
  | replaceCell column row cell => exact Ensures.silent (replaceCell_tracked hf column row cell)
  | replaceCluster column row cell => exact Ensures.silent (replaceCluster_tracked hf column row cell)
  | fillRectangle rectangle cell spare =>
    exact Ensures.silent (fillRectangle_tracked hf rectangle cell spare)
  | copyRectangle source top left => exact Ensures.silent (copyRectangle_tracked hf source top left)
  | fillLinear start stop cell => exact Ensures.silent (fillLinearWith_tracked hf start stop cell false)
  | fillLinearSparingProtected start stop cell =>
    exact Ensures.silent (fillLinearWith_tracked hf start stop cell true)
  | clearAll cell => exact .some (.all hf (length_map ..))
  | insertCharacters column row count cell span =>
    exact Ensures.silent (insertCharacters_tracked hf column row count cell span)
  | deleteCharacters column row count cell span =>
    exact Ensures.silent (deleteCharacters_tracked hf column row count cell span)
  | insertLines row bottom count cell span =>
    exact Ensures.silent (shiftDown_tracked hf row bottom count cell span)
  | deleteLines row bottom count cell span =>
    exact Ensures.silent (deleteLines_tracked hf row bottom count cell span)
  | scrollUp top bottom count cell span => exact scrollUp_tracked hf top bottom count cell span
  | scrollDown top bottom count cell span =>
    exact Ensures.silent (shiftDown_tracked hf top bottom count cell span)
  | markSoftWrapped row | clearSoftWrapped row =>
    exact Ensures.silent (modifyLine_tracked fun _ => rfl)
  | markAllDirty => exact .some (.all hf rfl)

end

end Grid

namespace Screen

variable [Platform] {screen screen' : Screen}

omit [Platform] in
theorem Sized.framed (h : screen.Sized) : screen.toGrid.Framed where
  rows_length := (length_rotate ..).trans h.lines_length
  dirty_length := h.dirty_length

theorem perform_tracked (h : screen.Sized) (operation : ScreenOp) :
    Ensures (screen.perform operation) fun result =>
      result.2.Sized ∧ screen.toGrid.Tracked result.2.toGrid := by
  have hmatches := perform_matches h operation
  rintro ⟨removed, result⟩ hresult
  refine ⟨hmatches.sized _ hresult, ?_⟩
  have hgrid := hmatches.grid
  rw [hresult] at hgrid
  exact Grid.perform_tracked h.framed operation _ hgrid.symm

theorem Edited.tracked (h : screen.Sized) (hedit : screen.Edited screen') :
    screen'.Sized ∧ screen.toGrid.Tracked screen'.toGrid := by
  induction hedit with
  | refl => exact ⟨h, .refl _⟩
  | tail _ hstep ih =>
    obtain ⟨operation, removed, hperform⟩ := hstep
    obtain ⟨hsized, htracked⟩ := perform_tracked ih.1 operation _ hperform
    exact ⟨hsized, ih.2.trans htracked⟩

/-- Every row is marked or shows the given cells. -/
structure Covers (shown : Nat → Option (List Cell)) (screen : Screen) : Prop extends Sized screen where
  row : ∀ row, row < screen.dimensions.rows → screen.dirtyRows[row]? = some true ∨
    (screen.line row).map Line.cells = shown row

omit [Platform] in
theorem toGrid_row (h : screen.Sized) (hrow : row < screen.dimensions.rows) :
    screen.toGrid.rows[row]? = screen.line row := by
  rw [← toGrid_line h.toShape, Grid.line_eq hrow]

theorem Covers.edited {shown : Nat → Option (List Cell)} (h : screen.Covers shown)
    (hedit : screen.Edited screen') : screen'.Covers shown := by
  obtain ⟨hsized, htracked⟩ := hedit.tracked h.toSized
  have hdims : screen'.dimensions = screen.dimensions := htracked.dimensions
  refine ⟨hsized, fun row hrow => ?_⟩
  have hrow' : row < screen.dimensions.rows := by rwa [← hdims]
  rcases htracked.row row hrow' with hmark | hsame
  · exact .inl hmark
  rw [toGrid_row hsized hrow, toGrid_row h.toSized hrow'] at hsame
  rcases h.row row hrow' with hmark | hshown
  · exact .inl (htracked.kept row hmark)
  · exact .inr (hsame.trans hshown)

omit [Platform] in
theorem markAllDirty_covers (h : screen.Sized) (shown : Nat → Option (List Cell)) :
    screen.markAllDirty.Covers shown := by
  have hagrees := markAllDirty_agrees h
  exact ⟨hagrees.sized _ rfl, fun row hrow => .inl (Grid.markAllDirty_get h.framed hrow)⟩

omit [Platform] in
theorem mem_takeDirtyRows : row ∈ screen.takeDirtyRows.1 ↔ screen.dirtyRows[row]? = some true := by
  unfold takeDirtyRows
  simp only [List.mem_map, mem_filter, Prod.exists, exists_eq_right, mem_zipIdx_iff_getElem?]

end Screen

namespace Terminal

variable {terminal terminal' : Terminal} {shown : Nat → Option (List Cell)} {size : Dimensions}

/-- The marks of the active screen cover what it no longer shows. -/
structure Covers (size : Dimensions) (shown : Nat → Option (List Cell)) (terminal : Terminal) : Prop where
  dimensions : terminal.dimensions = size
  primary : terminal.primary.screen.Sized
  alternate : ∀ buffer ∈ terminal.alternate, buffer.screen.Sized
  active : ∀ buffer, terminal.activeBuffer = some buffer → buffer.screen.Covers shown

theorem Covers.congr (h : Covers size shown terminal) (hprimary : terminal'.primary = terminal.primary)
    (halternate : terminal'.alternate = terminal.alternate)
    (hactive : terminal'.activeScreen = terminal.activeScreen) : Covers size shown terminal' where
  dimensions := by rw [Terminal.dimensions, hprimary]; exact h.dimensions
  primary := by rw [hprimary]; exact h.primary
  alternate := by rw [halternate]; exact h.alternate
  active := by
    unfold activeBuffer
    rw [hactive, hprimary, halternate]
    exact h.active

variable {buffer : BufferState}

theorem Covers.setActiveBuffer (h : Covers size shown terminal) (hb : buffer.screen.Covers shown)
    (hdims : terminal.activeScreen = .primary → buffer.screen.dimensions = size) :
    Covers size shown (terminal.setActiveBuffer buffer) where
  dimensions := by
    unfold Terminal.setActiveBuffer Terminal.dimensions
    cases hscreen : terminal.activeScreen with
    | primary => exact hdims hscreen
    | alternate => exact h.dimensions
  primary := by
    unfold Terminal.setActiveBuffer
    cases hscreen : terminal.activeScreen with
    | primary => exact hb.toSized
    | alternate => exact h.primary
  alternate := by
    unfold Terminal.setActiveBuffer
    cases hscreen : terminal.activeScreen with
    | primary => exact h.alternate
    | alternate =>
      intro other hother
      rw [← mem_some.mp hother]
      exact hb.toSized
  active other hother := by
    rw [setActiveBuffer_activeBuffer] at hother
    rw [← some.inj hother]
    exact hb

variable [Platform]

theorem Covers.move (h : Covers size shown terminal) (hmove : Move terminal terminal') :
    Covers size shown terminal' := by
  cases hmove with
  | pen hpen => exact h.congr hpen.primary hpen.alternate hpen.activeScreen
  | draw hb hedit =>
    refine h.setActiveBuffer ((h.active _ hb).edited hedit) fun hscreen => ?_
    have hprimary : terminal.activeBuffer = some terminal.primary := by rw [activeBuffer, hscreen]
    rw [hprimary] at hb
    cases hb
    exact (hedit.tracked h.primary).2.dimensions.trans h.dimensions
  | reply hbytes => exact h.congr rfl rfl rfl
  | behind hscreen hedit =>
    refine ⟨h.dimensions, h.primary, ?_, ?_⟩
    · intro buffer hbuffer
      rw [← mem_some.mp hbuffer]
      refine (hedit.tracked ?_).1
      cases halternate : terminal.alternate with
      | none => exact (show (Screen.new terminal.dimensions).Good .nothing from Screen.new_good _).sized
      | some alternate => exact h.alternate alternate halternate
    · intro buffer hbuffer
      rw [activeBuffer, hscreen] at hbuffer
      exact h.active buffer (by rw [activeBuffer, hscreen]; exact hbuffer)
  | enter hscreen hb =>
    have hcovers := Screen.markAllDirty_covers (h.alternate _ hb) shown
    refine ⟨h.dimensions, h.primary, ?_, ?_⟩
    · intro buffer hbuffer
      rw [← mem_some.mp hbuffer]
      exact hcovers.toSized
    · intro buffer hbuffer
      rw [← some.inj hbuffer]
      exact hcovers
  | leave hscreen =>
    have hcovers := Screen.markAllDirty_covers h.primary shown
    refine ⟨h.dimensions, hcovers.toSized, h.alternate, ?_⟩
    intro buffer hbuffer
    rw [← some.inj hbuffer]
    exact hcovers

theorem Covers.moves (h : Covers size shown terminal) (hmoves : Moves terminal terminal') :
    Covers size shown terminal' := by
  induction hmoves with
  | refl => exact h
  | tail _ hmove ih => exact ih.move hmove

theorem Good.covers {promise : Promise} (h : terminal.Good promise)
    (hb : terminal.activeBuffer = some buffer) :
    Covers terminal.dimensions (fun row => (buffer.screen.line row).map Line.cells) terminal := by
  obtain ⟨hprimary, halternate⟩ := h.buffers
  refine ⟨rfl, hprimary.screen.sized, fun other hother => (halternate other hother).screen.sized, ?_⟩
  intro other hother
  cases hb.symm.trans hother
  obtain ⟨active, hactive, hgood⟩ := h.active
  cases hb.symm.trans hactive
  exact ⟨hgood.screen.sized, fun row _ => .inr rfl⟩

omit [Platform] in
theorem cell_eq {screen other : Screen} {column : Nat} (hdims : other.dimensions = screen.dimensions)
    (hline : (other.line row).map Line.cells = (screen.line row).map Line.cells) :
    other.cell column row = screen.cell column row := by
  unfold Screen.cell
  rw [hdims]
  cases hscreen : screen.line row with
  | none =>
    rw [hscreen, map_none, map_eq_none_iff] at hline
    rw [hline]
  | some line =>
    rw [hscreen] at hline
    obtain ⟨line', hline', hcells⟩ := map_eq_some_iff.mp hline
    rw [hline']
    simp only [bind, Option.bind, hcells]

/-- Damage tracking is sound. After a session has taken the dirty rows, whatever bytes the terminal
ingests next, the rows taken then contain every row in which the active screen shows a cell other than
before. -/
theorem damage_is_reported (dimensions : Dimensions) (limitBytes : ByteLimit)
    (events : List SessionEvent) (bytes : List UInt8) :
    ∃ terminal rows before after damaged rest,
      (withScrollbackLimit dimensions limitBytes).serveAll events = some terminal ∧
      terminal.takeDirtyRows = some (rows, before) ∧ before.ingest bytes = some after ∧
      after.takeDirtyRows = some (damaged, rest) ∧
      ∀ column row, after.cell column row ≠ before.cell column row → row ∈ damaged := by
  obtain ⟨terminal, hserve, hsteady⟩ := serveAll_steady dimensions limitBytes events
  obtain ⟨⟨rows, before⟩, htaken, hbefore⟩ := hsteady.takeDirtyRows
  obtain ⟨after, hingest, hafter⟩ := hbefore.ingest bytes (holdsAlong_of_all byteKeeps_nothing)
  obtain ⟨old, hold, hgood⟩ := hbefore.active
  obtain ⟨new, hnew, hgood'⟩ := hafter.active
  refine ⟨terminal, rows, before, after, new.screen.takeDirtyRows.1,
    after.setActiveBuffer { new with screen := new.screen.takeDirtyRows.2 }, hserve, htaken, hingest,
    ?_, ?_⟩
  · unfold Terminal.takeDirtyRows
    rw [hnew]
    rfl
  have hcovers := (hbefore.toGood.covers hold).moves (ingest_moves bytes after hingest)
  have hdims : new.screen.dimensions = old.screen.dimensions := by
    rw [hgood.dims, hgood'.dims, hcovers.dimensions]
  intro column row hdiffers
  rw [Screen.mem_takeDirtyRows]
  have hcells : new.screen.cell column row ≠ old.screen.cell column row := by
    unfold Terminal.cell at hdiffers
    rwa [hnew, hold] at hdiffers
  have hrow : row < new.screen.dimensions.rows := by
    by_contra hrow
    apply hcells
    unfold Screen.cell
    rw [← hdims, if_neg (by simp [hrow]), if_neg (by simp [hrow])]
  rcases (hcovers.active new hnew).row row hrow with hmark | hsame
  · exact hmark
  · exact absurd (cell_eq hdims hsame) hcells

end Terminal

end FesTerm
