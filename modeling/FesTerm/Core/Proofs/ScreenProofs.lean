import FesTerm.Core.Proofs.LineProofs

/-!
# Edits of the grid

Every operation of `screen.rs` keeps the grid in order: it never fails on the arguments the terminal
gives it, and each row stays a good row for the promise that is tracked. Operations that change one
row at a time are described by what holds of each logical row (`RowsAre`), so that the rotation of
the ring plays no part in the arguments about rows.
-/

namespace FesTerm

open Checked List Option

/-- A row that the screen hands to the history. -/
structure ScreenRow.Fits (promise : Promise) (columns : Nat) (row : ScreenRow) : Prop where
  length_le : row.cells.length ≤ columns
  text : ∀ cell ∈ row.cells, cell.TextOk
  pairs : promise.pairs = true → Pairs row.cells

variable {cells : List Cell}

theorem Paired.take (h : Paired cells) {n : Nat}
    (hcut : widthAt cells n ≠ some .continuation) : Paired (cells.take n) := by
  have hget : ∀ k, widthAt (cells.take n) k = if k < n then widthAt cells k else none := fun k => by
    unfold widthAt
    rw [getElem?_take]
    split <;> rfl
  intro k
  by_cases hk : k < n
  · refine ⟨fun hd => ?_, fun hc => ?_⟩
    · rw [hget, if_pos hk] at hd
      have hnext := (h k).1 hd
      have hne : k + 1 ≠ n := fun he => hcut (he ▸ hnext)
      rw [hget, if_pos (by omega), hnext]
    · rw [hget, if_pos hk] at hc
      obtain ⟨j, rfl, hj⟩ := (h k).2 hc
      exact ⟨j, rfl, by rw [hget, if_pos (by omega), hj]⟩
  · exact .of_none (by rw [hget, if_neg hk])

theorem Line.Good.toRow {promise : Promise} {columns : Nat} {line : Line} (hg : line.Good promise columns) :
    line.toRow = some ⟨line.cells.take line.occupiedColumns, line.softWrapped⟩ ∧
      ScreenRow.Fits promise columns ⟨line.cells.take line.occupiedColumns, line.softWrapped⟩ := by
  have hle : line.occupiedColumns ≤ columns := by
    rw [hg.extent, ← hg.marks_length]
    exact occupiedExtent_le _
  refine ⟨?_, by rw [length_take]; omega, fun cell hmem => ?_, fun hpairs => ?_⟩
  · rw [Line.toRow, slice_eq (Nat.zero_le _) (by rw [hg.cells_length]; exact hle)]
    rfl
  · obtain ⟨i, hi⟩ := mem_iff_getElem?.mp (mem_of_mem_take hmem)
    have hlt := (List.getElem?_eq_some_iff.mp hi).1
    rw [hg.cells_length] at hlt
    obtain ⟨c, o, he, hok⟩ := hg.toLoose.entry_some hlt
    cases hi.symm.trans (congrArg Prod.fst he)
    exact hok.text
  · refine paired_iff_pairs.mp ((hg.paired hpairs).take fun hcont => ?_)
    -- a continuation at the cut would be occupied, and so lie before it
    by_cases hlt : line.occupiedColumns < columns
    · obtain ⟨c, o, he, hok⟩ := hg.toLoose.entry_some hlt
      have hc : line.cells[line.occupiedColumns]? = some c := congrArg Prod.fst he
      have hm : line.occupiedCells[line.occupiedColumns]? = some o := congrArg Prod.snd he
      rw [widthAt_of_getElem? hc] at hcont
      rw [hok.pairs hpairs (some.inj hcont)] at hm
      have := lt_occupiedExtent hm
      rw [hg.extent] at this
      exact Nat.lt_irrefl _ this
    · rw [widthAt_eq_none (by rw [hg.cells_length]; omega)] at hcont
      cases hcont

namespace Screen

/-- The sizes of the grid. -/
structure Shape (screen : Screen) : Prop where
  top_lt : screen.top < screen.dimensions.rows
  lines_length : screen.lines.length = screen.dimensions.rows
  dirty_length : screen.dirtyRows.length = screen.dimensions.rows

/-- A grid between operations. -/
structure Good (promise : Promise) (screen : Screen) : Prop extends Shape screen where
  line : ∀ line ∈ screen.lines, line.Good promise screen.dimensions.columns

/-- An operation kept the grid in order. -/
structure Kept (promise : Promise) (screen screen' : Screen) : Prop where
  good : screen'.Good promise
  dimensions : screen'.dimensions = screen.dimensions

section

variable {promise : Promise} {screen screen' screen'' : Screen} {cell : Cell}

theorem Good.kept (h : screen.Good promise) : Kept promise screen screen := ⟨h, rfl⟩

theorem Kept.trans (h : Kept promise screen screen') (h' : Kept promise screen' screen'') :
    Kept promise screen screen'' := ⟨h'.good, h'.dimensions.trans h.dimensions⟩

theorem rows_pos (screen : Screen) : 0 < screen.dimensions.rows := screen.dimensions.one_le_rows

theorem columns_pos (screen : Screen) : 0 < screen.dimensions.columns := by
  have := screen.dimensions.two_le_columns
  omega

/-! ## Logical rows -/

theorem physicalRow_lt (screen : Screen) (row : Nat) :
    screen.physicalRow row < screen.dimensions.rows := Nat.mod_lt _ screen.rows_pos

theorem Shape.line_some (h : screen.Shape) (row : Nat) : ∃ line, screen.line row = some line := by
  have hlt : screen.physicalRow row < screen.lines.length := by
    rw [h.lines_length]
    exact screen.physicalRow_lt row
  exact ⟨_, getElem?_eq_getElem hlt⟩

variable {row columns : Nat} {line : Line} {dimensions : Dimensions} {property : Nat → Line → Prop}
  {change : Line → Option Line} {body : Screen → Nat → Option Screen}

theorem physicalRow_inj {row' : Nat} (hr : row < screen.dimensions.rows)
    (hr' : row' < screen.dimensions.rows) (h : screen.physicalRow row = screen.physicalRow row') :
    row = row' := by
  have hmod : screen.top + row ≡ screen.top + row' [MOD screen.dimensions.rows] := h
  exact Nat.ModEq.eq_of_lt_of_lt (Nat.ModEq.add_left_cancel' _ hmod) hr hr'

variable {index : Nat}

theorem exists_physicalRow (h : screen.Shape) (hi : index < screen.dimensions.rows) :
    ∃ row, row < screen.dimensions.rows ∧ screen.physicalRow row = index := by
  have htop := h.top_lt
  by_cases hle : screen.top ≤ index
  · refine ⟨index - screen.top, by omega, ?_⟩
    rw [physicalRow, show screen.top + (index - screen.top) = index by omega, Nat.mod_eq_of_lt hi]
  · refine ⟨index + screen.dimensions.rows - screen.top, by omega, ?_⟩
    rw [physicalRow, show screen.top + (index + screen.dimensions.rows - screen.top) =
      index + screen.dimensions.rows by omega, Nat.add_mod_right, Nat.mod_eq_of_lt hi]

theorem line_mem (h : screen.line row = some line) : line ∈ screen.lines :=
  mem_of_getElem? h

theorem Good.line_good (h : screen.Good promise)
    (hl : screen.line row = some line) : line.Good promise screen.dimensions.columns :=
  h.line line (line_mem hl)

theorem Shape.good (h : screen.Shape)
    (hrows : ∀ row < screen.dimensions.rows, ∀ line, screen.line row = some line →
      line.Good promise screen.dimensions.columns) : screen.Good promise where
  toShape := h
  line line hmem := by
    obtain ⟨index, hindex⟩ := mem_iff_getElem?.mp hmem
    have hlt := (List.getElem?_eq_some_iff.mp hindex).1
    rw [h.lines_length] at hlt
    obtain ⟨row, hr, hp⟩ := exists_physicalRow h hlt
    exact hrows row hr line (by rw [Screen.line, hp]; exact hindex)

/-- What holds of each logical row of a grid. -/
structure RowsAre (dimensions : Dimensions) (property : Nat → Line → Prop) (screen : Screen) : Prop
    extends Shape screen where
  dims : screen.dimensions = dimensions
  row : ∀ row < dimensions.rows, ∀ line, screen.line row = some line → property row line

theorem RowsAre.mono {property' : Nat → Line → Prop} (h : RowsAre dimensions property screen)
    (hp : ∀ row < dimensions.rows, ∀ line, property row line → property' row line) :
    RowsAre dimensions property' screen :=
  ⟨h.toShape, h.dims, fun row hr line hl => hp row hr line (h.row row hr line hl)⟩

theorem RowsAre.kept (h : RowsAre dimensions property screen') (hd : screen.dimensions = dimensions)
    (hp : ∀ row < dimensions.rows, ∀ line, property row line → line.Good promise dimensions.columns) :
    Kept promise screen screen' where
  good := h.toShape.good fun row hr line hl => by
    rw [h.dims] at hr ⊢
    exact hp row hr line (h.row row hr line hl)
  dimensions := h.dims.trans hd.symm

theorem modifyLine_are {changed : Line → Prop} (h : RowsAre dimensions property screen)
    (hrow : row < dimensions.rows)
    (hchange : ∀ line, property row line → ∃ line', change line = some line' ∧ changed line') :
    ∃ screen', screen.modifyLine row change = some screen' ∧
      RowsAre dimensions (fun r line => if r = row then changed line else property r line) screen' := by
  obtain ⟨line, hl⟩ := h.line_some row
  obtain ⟨line', hc, hrel⟩ := hchange line (h.row row hrow line hl)
  have hlt : screen.physicalRow row < screen.lines.length := by
    rw [h.lines_length]
    exact screen.physicalRow_lt row
  refine ⟨{ screen with lines := splice screen.lines (screen.physicalRow row) [line'] },
    by rw [modifyLine, hl]; simp only [some_bind, hc, setAt_eq hlt],
    ⟨h.top_lt, ?_, h.dirty_length⟩, h.dims, fun r hr line₁ hl₁ => ?_⟩
  · exact (length_splice (by simp only [length_singleton]; omega)).trans h.lines_length
  · have hget : ({ screen with lines := splice screen.lines (screen.physicalRow row) [line'] }).line r =
        if screen.physicalRow r = screen.physicalRow row then some line' else screen.line r :=
      getElem?_splice_singleton hlt line' _
    rw [hget] at hl₁
    by_cases heq : r = row
    · subst heq
      rw [if_pos rfl] at hl₁ ⊢
      cases hl₁
      exact hrel
    · have hne : screen.physicalRow r ≠ screen.physicalRow row := fun hp =>
        heq (physicalRow_inj (by rw [h.dims]; exact hr) (by rw [h.dims]; exact hrow) hp)
      rw [if_neg hne] at hl₁
      rw [if_neg heq]
      exact h.row r hr line₁ hl₁

variable {low high : Nat}

/-- The rule for a loop over rows whose body changes the row it is at. -/
theorem forRange_are {changed : Nat → Line → Prop} (h : RowsAre dimensions property screen) (hle : low ≤ high)
    (hhigh : high ≤ dimensions.rows) {change : Nat → Line → Option Line}
    (hbody : ∀ current row, low ≤ row → row < high → current.dimensions = dimensions →
      body current row = current.modifyLine row (change row))
    (hchange : ∀ row, low ≤ row → row < high → ∀ line, property row line →
      ∃ line', change row line = some line' ∧ changed row line') :
    ∃ screen', forRange low high screen body = some screen' ∧
      RowsAre dimensions (fun row line =>
        if low ≤ row ∧ row < high then changed row line else property row line) screen' := by
  refine forRange_inv (fun i current => RowsAre dimensions (fun row line =>
    if low ≤ row ∧ row < i then changed row line else property row line) current) hle ?_ ?_
  · exact h.mono fun row _ line hp => by rw [if_neg (by omega)]; exact hp
  · intro i current hi hlt hcur
    obtain ⟨next, hnext, hare⟩ := modifyLine_are hcur
      (show i < dimensions.rows by omega) fun line hp => by
        rw [if_neg (by omega)] at hp
        exact hchange i hi hlt line hp
    refine ⟨next, by rw [hbody current i hi hlt hcur.dims]; exact hnext, hare.mono ?_⟩
    intro row _ line hp
    by_cases heq : row = i
    · subst heq
      rw [if_pos rfl] at hp
      rw [if_pos (by omega)]
      exact hp
    · rw [if_neg heq] at hp
      by_cases hin : low ≤ row ∧ row < i
      · rw [if_pos hin] at hp
        rw [if_pos (by omega)]
        exact hp
      · rw [if_neg hin] at hp
        rw [if_neg (by omega)]
        exact hp

/-! ## Single rows and dirty markers -/

theorem modifyLine_kept (h : screen.Good promise) (row : Nat)
    (hchange : ∀ line, line.Good promise screen.dimensions.columns →
      ∃ line', change line = some line' ∧ line'.Good promise screen.dimensions.columns) :
    ∃ screen', screen.modifyLine row change = some screen' ∧ Kept promise screen screen' := by
  obtain ⟨line, hl⟩ := h.line_some row
  obtain ⟨line', hc, hg⟩ := hchange line (h.line_good hl)
  have hlt : screen.physicalRow row < screen.lines.length := by
    rw [h.lines_length]
    exact screen.physicalRow_lt row
  refine ⟨{ screen with lines := splice screen.lines (screen.physicalRow row) [line'] },
    by rw [modifyLine, hl]; simp only [some_bind, hc, setAt_eq hlt],
    ⟨⟨h.top_lt, ?_, h.dirty_length⟩, fun l hmem => ?_⟩, rfl⟩
  · exact (length_splice (by simp only [length_singleton]; omega)).trans h.lines_length
  · rw [splice_singleton hlt] at hmem
    rcases mem_or_eq_of_mem_set hmem with hm | rfl
    · exact h.line l hm
    · exact hg

theorem Good.withDirty (h : screen.Good promise) {dirtyRows : List Bool}
    (hlen : dirtyRows.length = screen.dirtyRows.length) :
    Kept promise screen { screen with dirtyRows := dirtyRows } :=
  ⟨⟨⟨h.top_lt, h.lines_length, hlen.trans h.dirty_length⟩, h.line⟩, rfl⟩

variable {last first : Nat}

theorem markDirtyRange_kept (h : screen.Good promise) (hle : first ≤ last + 1)
    (hlast : last < screen.dimensions.rows) :
    ∃ screen', screen.markDirtyRange first last = some screen' ∧ Kept promise screen screen' := by
  have hlen : last + 1 ≤ screen.dirtyRows.length := by rw [h.dirty_length]; exact hlast
  have hsplice : (splice screen.dirtyRows first (List.replicate (last + 1 - first) true)).length =
      screen.dirtyRows.length := length_splice (by simp only [length_replicate]; omega)
  exact ⟨_, by rw [markDirtyRange, fillRange_eq hle hlen]; rfl, h.withDirty hsplice⟩

theorem markDirty_kept (h : screen.Good promise) (hrow : row < screen.dimensions.rows) :
    ∃ screen', screen.markDirty row = some screen' ∧ Kept promise screen screen' := by
  have hlen : row < screen.dirtyRows.length := by rw [h.dirty_length]; exact hrow
  have hsplice : (splice screen.dirtyRows row [true]).length = screen.dirtyRows.length :=
    length_splice (by simp only [length_singleton]; omega)
  exact ⟨_, by rw [markDirty, setAt_eq hlen]; rfl, h.withDirty hsplice⟩

theorem markAllDirty_kept (h : screen.Good promise) : Kept promise screen screen.markAllDirty :=
  h.withDirty (length_map _)

theorem takeDirtyRows_kept (h : screen.Good promise) : Kept promise screen screen.takeDirtyRows.2 :=
  h.withDirty (length_map _)

theorem modifyLine_markDirty (h : screen.Good promise) (hrow : row < screen.dimensions.rows)
    (hchange : ∀ line, line.Good promise screen.dimensions.columns →
      ∃ line', change line = some line' ∧ line'.Good promise screen.dimensions.columns) :
    ∃ screen', ((screen.modifyLine row change).bind fun screen => screen.markDirty row) = some screen' ∧
      Kept promise screen screen' := by
  obtain ⟨screen1, h1, hk1⟩ := modifyLine_kept h row hchange
  obtain ⟨screen2, h2, hk2⟩ := markDirty_kept hk1.good (by rw [hk1.dimensions]; exact hrow)
  exact ⟨screen2, by rw [h1]; exact h2, hk1.trans hk2⟩

theorem setSoftWrapped_kept (h : screen.Good promise) (row : Nat) (softWrapped : Bool) :
    ∃ screen', (screen.modifyLine row fun line => some { line with softWrapped := softWrapped }) =
      some screen' ∧ Kept promise screen screen' :=
  modifyLine_kept h row fun _ hg =>
    ⟨_, rfl, ⟨⟨hg.cells_length, hg.marks_length, hg.cell⟩, hg.extent, hg.paired⟩⟩

/-! ## Characters -/

variable {column : Nat}

theorem replaceCell_kept (h : screen.Good promise) (hrow : row < screen.dimensions.rows) (htext : cell.TextOk)
    (hwidth : ∀ line, screen.line row = some line → widthAt line.cells column = some cell.width)
    (hcolumn : column < screen.dimensions.columns) :
    ∃ screen', screen.replaceCell column row cell = some screen' ∧ Kept promise screen screen' := by
  have hare : RowsAre screen.dimensions (fun r line => line.Good promise screen.dimensions.columns ∧
      (r = row → widthAt line.cells column = some cell.width)) screen :=
    ⟨h.toShape, rfl, fun r _ line hl => ⟨h.line_good hl, fun hr => hwidth line (hr ▸ hl)⟩⟩
  have hchange : ∀ line : Line, line.Good promise screen.dimensions.columns ∧
      (row = row → widthAt line.cells column = some cell.width) →
        ∃ line' : Line, (do
          let line ← line.setCell column cell true
          return line.recomputeOccupied) = some line' ∧ line'.Good promise screen.dimensions.columns :=
    fun line hp => by
      obtain ⟨line', hset, hg⟩ := Line.replaceCell_good hp.1 (hp.2 rfl) htext
      exact ⟨_, by rw [hset]; rfl, hg⟩
  obtain ⟨screen1, h1, hare1⟩ := modifyLine_are hare hrow hchange
  have hk1 : Kept promise screen screen1 := hare1.kept rfl fun r _ line hp => by
    split at hp
    · exact hp
    · exact hp.1
  obtain ⟨screen2, h2, hk2⟩ := markDirty_kept hk1.good (by rw [hk1.dimensions]; exact hrow)
  refine ⟨screen2, ?_, hk1.trans hk2⟩
  rw [replaceCell, if_neg (by simp [hrow, hcolumn])]
  simp only [bind_eq_bind, Option.pure_def] at h1 ⊢
  rw [h1]
  exact h2

section

variable [Platform]

theorem replaceCluster_kept (h : screen.Good promise) {row : Nat} (hrow : row < screen.dimensions.rows)
    (hfit : column + cell.width.columns ≤ screen.dimensions.columns)
    (hcw : cell.width ≠ .continuation) (htext : cell.TextOk) :
    ∃ screen', screen.replaceCluster column row cell = some screen' ∧ Kept promise screen screen' := by
  have hpos : 0 < cell.width.columns := by
    cases hc : cell.width with
    | continuation => exact absurd hc hcw
    | single | double => decide
  obtain ⟨screen', h', hk⟩ := modifyLine_markDirty h hrow
    fun line hg => Line.replaceCluster_good hg hfit hcw htext
  refine ⟨screen', ?_, hk⟩
  rw [replaceCluster, if_neg (by simp only [not_not]; omega), if_neg (by omega)]
  exact h'

end

theorem insertCharacters_kept (h : screen.Good promise) (column : Nat)
    (hrow : row < screen.dimensions.rows) (count : Nat) (hf : FillOk cell) (span : ColumnSpan) :
    ∃ screen', screen.insertCharacters column row count cell span = some screen' ∧
      Kept promise screen screen' := by
  unfold insertCharacters
  split
  · exact ⟨screen, rfl, h.kept⟩
  · exact modifyLine_markDirty h hrow fun line hg =>
      Line.insertCharacters_good hg screen.columns_pos column count hf span

theorem deleteCharacters_kept (h : screen.Good promise) (column : Nat)
    (hrow : row < screen.dimensions.rows) (count : Nat) (hf : FillOk cell) (span : ColumnSpan) :
    ∃ screen', screen.deleteCharacters column row count cell span = some screen' ∧
      Kept promise screen screen' := by
  unfold deleteCharacters
  split
  · exact ⟨screen, rfl, h.kept⟩
  · exact modifyLine_markDirty h hrow fun line hg =>
      Line.deleteCharacters_good hg screen.columns_pos column count hf span

/-! ## Moving rows -/

theorem copyRow_kept (h : screen.Good promise) (sourceRow destinationRow : Nat) :
    ∃ screen', screen.copyRow sourceRow destinationRow = some screen' ∧ Kept promise screen screen' := by
  unfold copyRow
  split
  · exact ⟨screen, rfl, h.kept⟩
  · obtain ⟨source, hs⟩ := h.line_some sourceRow
    rw [hs]
    exact modifyLine_kept h destinationRow fun _ _ => ⟨source, rfl, h.line_good hs⟩

theorem fillRow_kept (h : screen.Good promise) (row : Nat) (hf : FillOk cell) :
    ∃ screen', screen.fillRow row cell = some screen' ∧ Kept promise screen screen' :=
  modifyLine_kept h row fun _ hg => Line.fillRow_good hg hf

/-- A span of columns inside the grid. -/
structure Fits (screen : Screen) (span : ColumnSpan) : Prop where
  left_le : span.left ≤ span.right
  right_lt : span.right < screen.dimensions.columns

theorem Kept.fits {span : ColumnSpan} (h : Kept promise screen screen') (hfits : screen.Fits span) :
    screen'.Fits span := ⟨hfits.left_le, by rw [h.dimensions]; exact hfits.right_lt⟩

theorem forRange_kept (h : screen.Good promise) (hle : low ≤ high)
    (hbody : ∀ current i, low ≤ i → i < high → Kept promise screen current →
      ∃ next, body current i = some next ∧ Kept promise current next) :
    ∃ screen', forRange low high screen body = some screen' ∧ Kept promise screen screen' :=
  forRange_inv (fun _ current => Kept promise screen current) hle h.kept fun i current hi hlt hk => by
    obtain ⟨next, hnext, hk'⟩ := hbody current i hi hlt hk
    exact ⟨next, hnext, hk.trans hk'⟩

theorem forRangeRev_kept (h : screen.Good promise) (hle : low ≤ high)
    (hbody : ∀ current i, low ≤ i → i < high → Kept promise screen current →
      ∃ next, body current i = some next ∧ Kept promise current next) :
    ∃ screen', forRangeRev low high screen body = some screen' ∧ Kept promise screen screen' :=
  forRangeRev_inv (fun _ current => Kept promise screen current) hle h.kept fun i current hi hlt hk => by
    obtain ⟨next, hnext, hk'⟩ := hbody current i hi hlt hk
    exact ⟨next, hnext, hk.trans hk'⟩

variable {top bottom : Nat}

section

variable [Platform] {span : ColumnSpan}

theorem shiftRow_kept (h : screen.Good promise) (sourceRow destinationRow : Nat) (hfits : screen.Fits span) :
    ∃ screen', screen.shiftRow sourceRow destinationRow span = some screen' ∧
      Kept promise screen screen' := by
  unfold shiftRow
  split
  · exact copyRow_kept h sourceRow destinationRow
  · unfold copyRowSpan
    split
    · exact ⟨screen, rfl, h.kept⟩
    · obtain ⟨source, hs⟩ := h.line_some sourceRow
      rw [hs]
      exact modifyLine_kept h destinationRow fun line hg =>
        Line.copyRowSpan_good hg (h.line_good hs) screen.columns_pos hfits.left_le hfits.right_lt

theorem clearRow_kept (h : screen.Good promise) (row : Nat) (hf : FillOk cell) (hfits : screen.Fits span) :
    ∃ screen', screen.clearRow row cell span = some screen' ∧ Kept promise screen screen' := by
  unfold clearRow
  split
  · exact fillRow_kept h row hf
  · exact modifyLine_kept h row fun line hg =>
      Line.fillRowSpan_good hg screen.columns_pos hf hfits.left_le hfits.right_lt

theorem shiftDown_kept (h : screen.Good promise) (htb : top ≤ bottom)
    (hbottom : bottom < screen.dimensions.rows) (count : Nat) (hf : FillOk cell)
    (hfits : screen.Fits span) :
    ∃ screen', screen.shiftDown top bottom count cell span = some screen' ∧
      Kept promise screen screen' := by
  unfold shiftDown
  simp only [bind_eq_bind, sub_eq htb, bind_some]
  generalize hn : min count (bottom - top + 1) = n
  rw [sub_eq (show n ≤ bottom + 1 by omega), bind_some]
  obtain ⟨screen1, h1, hk1⟩ := forRangeRev_kept h (show top ≤ bottom + 1 - n by omega)
    fun current i _ _ hk => shiftRow_kept hk.good i (i + n) (hk.fits hfits)
  obtain ⟨screen2, h2, hk2⟩ := forRange_kept hk1.good (show top ≤ top + n by omega)
    fun current i _ _ hk => clearRow_kept hk.good i hf ((hk1.trans hk).fits hfits)
  have hk12 := hk1.trans hk2
  obtain ⟨screen3, h3, hk3⟩ := markDirtyRange_kept hk2.good (show top ≤ bottom + 1 by omega)
    (by rw [hk12.dimensions]; exact hbottom)
  exact ⟨screen3, by rw [h1, bind_some, h2, bind_some, h3], hk12.trans hk3⟩

theorem shiftUp_kept (h : screen.Good promise) {count : Nat}
    (hcount : top + count ≤ bottom + 1) (hbottom : bottom < screen.dimensions.rows) (hf : FillOk cell)
    (hfits : screen.Fits span) (htb : top ≤ bottom) :
    ∃ screen', screen.shiftUp top bottom count cell span = some screen' ∧
      Kept promise screen screen' := by
  unfold shiftUp
  simp only [bind_eq_bind, sub_eq (show count ≤ bottom + 1 by omega)]
  obtain ⟨screen1, h1, hk1⟩ := forRange_kept h hcount fun current i hi _ hk =>
    show ∃ next, ((sub i count).bind fun r => current.shiftRow i r span) = some next ∧
        Kept promise current next by
      rw [sub_eq (show count ≤ i by omega)]
      exact shiftRow_kept hk.good i (i - count) (hk.fits hfits)
  obtain ⟨screen2, h2, hk2⟩ := forRange_kept hk1.good (show bottom + 1 - count ≤ bottom + 1 by omega)
    fun current i _ _ hk => clearRow_kept hk.good i hf ((hk1.trans hk).fits hfits)
  have hk12 := hk1.trans hk2
  obtain ⟨screen3, h3, hk3⟩ := markDirtyRange_kept hk2.good (show top ≤ bottom + 1 by omega)
    (by rw [hk12.dimensions]; exact hbottom)
  refine ⟨screen3, ?_, hk12.trans hk3⟩
  rw [h1, bind_some, bind_some, h2, bind_some, h3]

theorem deleteLines_kept (h : screen.Good promise) {row : Nat} (hle : row ≤ bottom)
    (hbottom : bottom < screen.dimensions.rows) (count : Nat) (hf : FillOk cell)
    (hfits : screen.Fits span) :
    ∃ screen', screen.deleteLines row bottom count cell span = some screen' ∧
      Kept promise screen screen' := by
  unfold deleteLines
  simp only [bind_eq_bind, sub_eq hle, bind_some]
  exact shiftUp_kept h (by omega) hbottom hf hfits hle

end

/-! ## Erasing -/

theorem clearAll_kept (h : screen.Good promise) (hf : FillOk cell) :
    Kept promise screen (screen.clearAll cell) where
  good := by
    refine ⟨⟨screen.rows_pos, ?_, ?_⟩, fun line hmem => ?_⟩
    · rw [clearAll, length_map]
      exact h.lines_length
    · simp only [clearAll, markAllDirty, length_map]
      exact h.dirty_length
    · obtain ⟨old, hold, rfl⟩ := List.mem_map.mp hmem
      have hg := h.line old hold
      rw [map_const', map_const', hg.cells_length, hg.marks_length]
      exact Line.uniform_good hf _ _
  dimensions := rfl

/-- The columns of a row that `fill_linear_with` erases, and the boundaries it repairs in it. -/
def linearStart (columns start row : Nat) : Nat := if row = start / columns then start % columns else 0

def linearEnd (columns stop row : Nat) : Nat :=
  if row = (stop - 1) / columns then stop - (stop - 1) / columns * columns else columns

def linearBoundaries (columns start stop row : Nat) : List Nat :=
  (if row = start / columns then [start % columns] else []) ++
    if row = (stop - 1) / columns then [stop - (stop - 1) / columns * columns] else []

/-- A selective erase in reading order keeps the promise. -/
def linearKeeps (promise : Promise) (screen : Screen) (start stop : Nat) (cell : Cell)
    (spareProtected : Bool) : Bool :=
  let columns := screen.dimensions.columns
  !spareProtected || decide (stop ≤ start) ||
    (List.range' (start / columns) ((stop - 1) / columns + 1 - start / columns)).all fun row =>
      (screen.line row).all fun line => line.sparingKeeps promise (linearStart columns start row)
        (linearEnd columns stop row) (linearBoundaries columns start stop row) cell false

/-- A selective erase of a rectangle keeps the promise. -/
def rectangleKeeps (promise : Promise) (screen : Screen) (rectangle : Rectangle) (cell : Cell)
    (spareProtected : Bool) : Bool :=
  !spareProtected ||
    (List.range' rectangle.top (rectangle.bottom + 1 - rectangle.top)).all fun row =>
      (screen.line row).all fun line => line.sparingKeeps promise rectangle.left
        (rectangle.right + 1) [rectangle.left, rectangle.right + 1] cell true

/-- A row that waits for repairs around some boundaries. -/
structure Broken (promise : Promise) (columns : Nat) (boundaries : List Nat) (line : Line) : Prop where
  loose : line.Loose promise columns
  paired : promise.pairs = true → ∀ k, (∀ b ∈ boundaries, ¬ Line.Near b k) → PairedAt line.cells k

theorem Broken.repair {boundary : Nat} {boundaries : List Nat}
    (h : Broken promise columns (boundary :: boundaries) line) (hpos : 0 < columns) (hf : FillOk cell) :
    ∃ line', line.repairNeighborhood columns boundary cell = some line' ∧
      Broken promise columns boundaries line' := by
  obtain ⟨line', h', hr, hp⟩ := Line.repairNeighborhood_spec h.loose hpos boundary hf
  refine ⟨line', h', hr.loose h.loose hf, fun hpairs k hfar => ?_⟩
  by_cases hnear : Line.Near boundary k
  · exact hp k hnear.1 hnear.2
  · refine hr.paired (h.paired hpairs k fun b hb => ?_)
    rcases mem_cons.mp hb with rfl | hb
    · exact hnear
    · exact hfar b hb

variable {stop : Nat}

theorem linear_bounds {rows start : Nat} (hpos : 0 < columns) (hlt : start < stop)
    (hstop : stop ≤ columns * rows) : start / columns ≤ (stop - 1) / columns ∧ (stop - 1) / columns < rows ∧
      (stop - 1) / columns * columns < stop ∧ stop - (stop - 1) / columns * columns ≤ columns ∧
      start % columns < columns ∧
      ∀ row, start / columns ≤ row → row ≤ (stop - 1) / columns →
        linearStart columns start row < linearEnd columns stop row := by
  have hdiv : start / columns ≤ (stop - 1) / columns := Nat.div_le_div_right (by omega)
  have hlast : (stop - 1) / columns < rows :=
    (Nat.div_lt_iff_lt_mul hpos).mpr (by rw [Nat.mul_comm]; omega)
  have hm := Nat.div_add_mod (stop - 1) columns
  have hml := Nat.mod_lt (stop - 1) hpos
  have hs := Nat.div_add_mod start columns
  have hsl := Nat.mod_lt start hpos
  rw [Nat.mul_comm] at hm hs
  refine ⟨hdiv, hlast, by omega, by omega, hsl, fun row hrow hrow' => ?_⟩
  unfold linearStart linearEnd
  by_cases h1 : row = start / columns
  · by_cases h2 : row = (stop - 1) / columns
    · rw [if_pos h1, if_pos h2]
      have heq : start / columns = (stop - 1) / columns := h1.symm.trans h2
      rw [heq] at hs
      omega
    · rw [if_pos h1, if_neg h2]
      exact hsl
  · by_cases h2 : row = (stop - 1) / columns
    · rw [if_neg h1, if_pos h2]
      omega
    · rw [if_neg h1, if_neg h2]
      exact hpos

theorem linearStart_mem (columns start stop row : Nat) :
    linearStart columns start row ∈ linearBoundaries columns start stop row ∨
      linearStart columns start row = 0 := by
  unfold linearStart linearBoundaries
  by_cases h : row = start / columns
  · rw [if_pos h, if_pos h]
    exact .inl (by simp)
  · rw [if_neg h, if_neg h]
    exact .inr rfl

theorem linearEnd_mem (columns start stop row : Nat) :
    linearEnd columns stop row ∈ linearBoundaries columns start stop row ∨
      linearEnd columns stop row = columns := by
  unfold linearEnd linearBoundaries
  by_cases h : row = (stop - 1) / columns
  · rw [if_pos h, if_pos h]
    exact .inl (by simp)
  · rw [if_neg h, if_neg h]
    exact .inr rfl

theorem RowsAre.markDirtyRange (h : RowsAre dimensions property screen) (hle : first ≤ last + 1)
    (hlast : last < dimensions.rows) : ∃ screen', screen.markDirtyRange first last = some screen' ∧
      RowsAre dimensions property screen' := by
  have hlen : last + 1 ≤ screen.dirtyRows.length := by rw [h.dirty_length, h.dims]; exact hlast
  refine ⟨{ screen with
      dirtyRows := splice screen.dirtyRows first (List.replicate (last + 1 - first) true) },
    by rw [Screen.markDirtyRange, fillRange_eq hle hlen]; rfl, ⟨h.top_lt, h.lines_length, ?_⟩, h.dims, h.row⟩
  exact (length_splice (by simp only [length_replicate]; omega)).trans h.dirty_length

/-- The second half of `fill_linear_with`: the rows from `first` to `last` wait for repairs, the first
and the last one around the ends of the erased run. -/
theorem repairEnds_kept {firstColumn lastColumn : Nat}
    (hd : screen.dimensions = dimensions) (hcols : dimensions.columns = columns) (hfl : first ≤ last)
    (hlast : last < dimensions.rows) (hf : FillOk cell)
    (h : RowsAre dimensions (fun row line => if first ≤ row ∧ row < last + 1
      then Broken promise columns ((if row = first then [firstColumn] else []) ++
        if row = last then [lastColumn] else []) line
      else line.Good promise columns) screen') :
    ∃ screen'', ((screen'.markDirtyRange first last).bind fun screen =>
        (screen.modifyLine first fun line => line.repairNeighborhood columns firstColumn cell).bind
          fun screen => (screen.modifyLine last fun line =>
            line.repairNeighborhood columns lastColumn cell).bind fun screen =>
              forRange first (last + 1) screen fun screen row =>
                screen.modifyLine row fun line => some line.recomputeOccupied) = some screen'' ∧
      Kept promise screen screen'' := by
  have hpos : 0 < columns := by rw [← hcols, ← hd]; exact screen.columns_pos
  obtain ⟨screen1, h1, hare1⟩ := h.markDirtyRange (show first ≤ last + 1 by omega) hlast
  obtain ⟨screen2, h2, hare2⟩ := modifyLine_are hare1 (show first < dimensions.rows by omega)
    fun line hp => by
      rw [if_pos (by omega), if_pos rfl] at hp
      exact hp.repair hpos hf
  obtain ⟨screen3, h3, hare3⟩ := modifyLine_are hare2
    hlast fun line hp => by
      by_cases heq : last = first
      · rw [if_pos heq, if_pos heq.symm] at hp
        exact hp.repair hpos hf
      · rw [if_neg heq, if_pos (by omega), if_neg heq, if_pos rfl] at hp
        exact hp.repair hpos hf
  obtain ⟨screen4, h4, hare4⟩ := forRange_are hare3 (show first ≤ last + 1 by omega) hlast
    (fun _ _ _ _ _ => rfl)
    fun row hrow hrow' line hp => by
      have hb : Broken promise columns [] line := by
        by_cases hrl : row = last
        · rw [if_pos hrl] at hp
          exact hp
        · rw [if_neg hrl] at hp
          by_cases hrf : row = first
          · rw [if_pos hrf, if_neg (by omega)] at hp
            exact hp
          · rw [if_neg hrf, if_pos ⟨hrow, hrow'⟩, if_neg hrf, if_neg hrl] at hp
            exact hp
      exact ⟨_, rfl, hb.loose.recomputeOccupied fun hpairs k => hb.paired hpairs k (by simp)⟩
  refine ⟨screen4, by rw [h1, bind_some, h2, bind_some, h3, bind_some, h4],
    hare4.kept hd fun row hrow line hp => ?_⟩
  rw [hcols]
  by_cases hin : first ≤ row ∧ row < last + 1
  · rw [if_pos hin] at hp
    exact hp
  · rw [if_neg hin, if_neg (by omega), if_neg (by omega), if_neg hin] at hp
    exact hp

/-- The first half: the rows of the run are erased. -/
theorem eraseRows_are (h : screen.Good promise) {start : Nat} (hlt : start < stop)
    (hstop : stop ≤ screen.dimensions.columns * screen.dimensions.rows) (hf : FillOk cell)
    (spareProtected : Bool)
    (hkeep : linearKeeps promise screen start stop cell spareProtected = true) :
    ∃ screen', forRange (start / screen.dimensions.columns) ((stop - 1) / screen.dimensions.columns + 1)
        screen (fun screen row => screen.fillLinearRow start stop cell spareProtected row) =
          some screen' ∧
      RowsAre screen.dimensions (fun row line =>
        if start / screen.dimensions.columns ≤ row ∧ row < (stop - 1) / screen.dimensions.columns + 1
        then Broken promise screen.dimensions.columns
          (linearBoundaries screen.dimensions.columns start stop row) line
        else line.Good promise screen.dimensions.columns) screen' := by
  have hpos := screen.columns_pos
  obtain ⟨hfl, hlast, hlastStart, hlastEnd, -, hrange⟩ := linear_bounds hpos hlt hstop
  generalize hcols : screen.dimensions.columns = columns at *
  have hbody : ∀ (current : Screen) (row : Nat), start / columns ≤ row → row < (stop - 1) / columns + 1 →
      current.dimensions = screen.dimensions →
      current.fillLinearRow start stop cell spareProtected row = current.modifyLine row fun line =>
        if spareProtected
        then line.fillSparing (linearStart columns start row) (linearEnd columns stop row) cell
        else line.fill (linearStart columns start row) (linearEnd columns stop row) cell := by
    intro current row hrow hrow' hdims
    have hne := hrange row hrow (by omega)
    unfold linearStart linearEnd at hne
    simp only [fillLinearRow, hdims, hcols, sub_eq (Nat.le_of_lt hlastStart), bind_eq_bind,
      bind_some, Option.pure_def]
    rw [if_neg (by omega)]
    rfl
  have hare : RowsAre screen.dimensions (fun row line => line.Good promise columns ∧
      (start / columns ≤ row → row < (stop - 1) / columns + 1 → spareProtected = true →
        line.sparingKeeps promise (linearStart columns start row) (linearEnd columns stop row)
          (linearBoundaries columns start stop row) cell false = true)) screen := by
    refine ⟨h.toShape, rfl, fun row _ line hl => ⟨hcols ▸ h.line_good hl, fun hrow hrow' hs => ?_⟩⟩
    simp only [linearKeeps, hs, Bool.not_true, Bool.false_or, Bool.or_eq_true, decide_eq_true_eq,
      List.all_eq_true, mem_range'_1, hcols] at hkeep
    rcases hkeep with hle | hall
    · omega
    · have := hall row (by omega)
      rw [hl] at this
      exact this
  obtain ⟨screen1, h1, hare1⟩ := forRange_are hare (by omega) hlast hbody
    fun row hrow hrow' line hp => show ∃ line', _ = some line' ∧
        Broken promise columns (linearBoundaries columns start stop row) line' by
      have hle : linearEnd columns stop row ≤ columns := by
        unfold linearEnd
        split
        · exact hlastEnd
        · exact le_rfl
      obtain ⟨line', h', hw⟩ := Line.eraseLinear_spec hp.1.toLoose
        (Nat.le_of_lt (hrange row hrow (by omega))) hle cell spareProtected
      have hk := hp.2 hrow hrow'
      exact ⟨line', h', hw.loose hp.1.toLoose (hp.1.toLoose.erased hf hk), fun hpairs k hfar =>
        Line.erased_paired hp.1 hpairs hf hw (linearStart_mem columns start stop row)
          (linearEnd_mem columns start stop row) hk hfar⟩
  refine ⟨screen1, h1, hare1.mono fun row _ line hp => ?_⟩
  split at hp
  · rw [if_pos (by assumption)]
    exact hp
  · rw [if_neg (by assumption)]
    exact hp.1

theorem fillLinearWith_kept (h : screen.Good promise) (start : Nat)
    (hstop : stop ≤ screen.dimensions.columns * screen.dimensions.rows) (hf : FillOk cell)
    (spareProtected : Bool)
    (hkeep : linearKeeps promise screen start stop cell spareProtected = true) :
    ∃ screen', screen.fillLinearWith start stop cell spareProtected = some screen' ∧
      Kept promise screen screen' := by
  unfold fillLinearWith
  simp only [Option.pure_def, bind_eq_bind]
  by_cases hempty : start ≥ stop
  · rw [if_pos hempty]
    exact ⟨screen, rfl, h.kept⟩
  have hlt : start < stop := by omega
  obtain ⟨hfl, hlast, hlastStart, -, -, -⟩ := linear_bounds screen.columns_pos hlt hstop
  rw [if_neg hempty, sub_eq (Nat.le_of_lt hlastStart), bind_some]
  obtain ⟨screen1, h1, hare1⟩ := eraseRows_are h hlt hstop hf spareProtected hkeep
  rw [h1, bind_some]
  exact repairEnds_kept rfl rfl hfl hlast hf hare1

section

variable [Platform]

/-- A rectangle inside the grid. -/
structure FitsRectangle (screen : Screen) (rectangle : Rectangle) : Prop where
  top_le : rectangle.top ≤ rectangle.bottom
  bottom_lt : rectangle.bottom < screen.dimensions.rows
  left_le : rectangle.left ≤ rectangle.right
  right_lt : rectangle.right < screen.dimensions.columns

theorem fillRectangle_kept (h : screen.Good promise) {rectangle : Rectangle}
    (hfits : screen.FitsRectangle rectangle) (hf : FillOk cell) (spareProtected : Bool)
    (hkeep : rectangleKeeps promise screen rectangle cell spareProtected = true) :
    ∃ screen', screen.fillRectangle rectangle cell spareProtected = some screen' ∧
      Kept promise screen screen' := by
  obtain ⟨htb, hbottom, hlr, hright⟩ := hfits
  have hwidth : ColumnSpan.width ⟨rectangle.left, rectangle.right⟩ =
      some (rectangle.right + 1 - rectangle.left) :=
    sub_eq (show rectangle.left ≤ rectangle.right + 1 by omega)
  have hare : RowsAre screen.dimensions (fun row line =>
      line.Good promise screen.dimensions.columns ∧
      (rectangle.top ≤ row → row < rectangle.bottom + 1 → spareProtected = true →
        line.sparingKeeps promise rectangle.left (rectangle.right + 1)
          [rectangle.left, rectangle.right + 1] cell true = true)) screen := by
    refine ⟨h.toShape, rfl, fun row _ line hl => ⟨h.line_good hl, fun hrow hrow' hs => ?_⟩⟩
    simp only [rectangleKeeps, hs, Bool.not_true, Bool.false_or, List.all_eq_true, mem_range'_1] at hkeep
    have := hkeep row (by omega)
    rw [hl] at this
    exact this
  obtain ⟨screen1, h1, hare1⟩ := forRange_are hare (show rectangle.top ≤ rectangle.bottom + 1 by omega)
    hbottom (fun current row _ _ _ => show current.modifyLine row (fun line =>
      (ColumnSpan.width ⟨rectangle.left, rectangle.right⟩).bind fun width =>
        (line.fillSpan rectangle.left (rectangle.left + width) cell spareProtected).bind fun line =>
          (line.repairSpanEdges screen.dimensions.columns ⟨rectangle.left, rectangle.right⟩).bind
            fun line => some line.recomputeOccupied) = _ from rfl) fun row hrow hrow' line hp => by
      have hspan : (⟨rectangle.left, rectangle.right⟩ : ColumnSpan).left ≤
          (⟨rectangle.left, rectangle.right⟩ : ColumnSpan).right := hlr
      obtain ⟨line1, line2, h1, h2, hg⟩ := Line.fillSpan_good hp.1 screen.columns_pos hf
        hspan hright spareProtected (hp.2 hrow hrow')
      refine ⟨_, ?_, hg⟩
      rw [hwidth, bind_some,
        show rectangle.left + (rectangle.right + 1 - rectangle.left) = rectangle.right + 1 by omega, h1,
        bind_some, h2, bind_some]
  have hk1 : Kept promise screen screen1 := hare1.kept rfl fun row _ line hp => by
    split at hp
    · exact hp
    · exact hp.1
  obtain ⟨screen2, h2, hk2⟩ := markDirtyRange_kept hk1.good
    (show rectangle.top ≤ rectangle.bottom + 1 by omega) (by rw [hk1.dimensions]; exact hbottom)
  refine ⟨screen2, ?_, hk1.trans hk2⟩
  unfold fillRectangle
  simp only [bind_eq_bind, Option.pure_def]
  rw [h1]
  exact h2

theorem copyRectangle_kept (h : screen.Good promise) {source : Rectangle}
    (hfits : screen.FitsRectangle source) {left : Nat} (htop : top < screen.dimensions.rows)
    (hleft : left < screen.dimensions.columns) :
    ∃ screen', screen.copyRectangle source top left = some screen' ∧ Kept promise screen screen' := by
  obtain ⟨htb, hbottom, hlr, hright⟩ := hfits
  unfold copyRectangle
  simp only [bind_eq_bind, Option.pure_def,
    sub_eq (show source.top ≤ source.bottom + 1 by omega), sub_eq (Nat.le_of_lt htop),
    sub_eq (show source.left ≤ source.right + 1 by omega), sub_eq (Nat.le_of_lt hleft),
    bind_some]
  generalize hheight : min (source.bottom + 1 - source.top) (screen.dimensions.rows - top) = height
  generalize hwidth : min (source.right + 1 - source.left) (screen.dimensions.columns - left) = width
  rw [if_neg (by omega)]
  -- what is copied is a span of a good row
  have hcopied : ∃ copied : List (List Cell × List Bool), ((List.range height).mapM fun row =>
      (screen.line (source.top + row)).bind fun line =>
        (slice line.cells source.left (source.left + width)).bind fun cells =>
          (slice line.occupiedCells source.left (source.left + width)).bind fun occupied =>
            some (cells, occupied)) = some copied ∧
      ∀ row < height, ∃ line : Line, line.Good promise screen.dimensions.columns ∧
        copied[row]? = some ((line.cells.drop source.left).take width,
          (line.occupiedCells.drop source.left).take width) := by
    have hline : ∀ row, ∃ line, screen.line (source.top + row) = some line := fun row =>
      h.line_some _
    choose line hl using hline
    refine ⟨_, mapM_eq_map (g := fun row => (((line row).cells.drop source.left).take width,
      ((line row).occupiedCells.drop source.left).take width)) fun row _ => ?_, fun row hrow =>
      ⟨line row, h.line_good (hl row), ?_⟩⟩
    · have hg := h.line_good (hl row)
      have hc := hg.cells_length
      have hm := hg.marks_length
      rw [hl, bind_some, slice_eq (by omega) (by omega), bind_some,
        slice_eq (by omega) (by omega), bind_some, Nat.add_sub_cancel_left]
    · rw [getElem?_map, getElem?_range hrow, map_some]
  obtain ⟨copied, hmap, hrows⟩ := hcopied
  obtain ⟨screen1, h1, hk1⟩ := forRange_kept h (Nat.zero_le _) fun current row _ hrow hk =>
    show ∃ next, ((copied[row]?).bind fun x => current.modifyLine (top + row) fun line =>
        writeSpan line screen.dimensions.columns left x.1 x.2 ⟨left, left + width - 1⟩) = some next ∧
          Kept promise current next by
      obtain ⟨line, hg, hc⟩ := hrows row hrow
      rw [hc, bind_some]
      exact modifyLine_kept hk.good (top + row) fun line' hg' => by
        rw [hk.dimensions] at hg' ⊢
        exact Line.writeSpan_good hg' hg screen.columns_pos (by omega) (by omega) (by omega)
  obtain ⟨screen2, h2, hk2⟩ := markDirtyRange_kept hk1.good
    (show top ≤ top + height - 1 + 1 by omega) (by rw [hk1.dimensions]; omega)
  refine ⟨screen2, ?_, hk1.trans hk2⟩
  rw [hmap, bind_some, h1, bind_some, h2]

end

/-! ## Scrolling -/

section

variable [Platform] {span : ColumnSpan}

omit [Platform] in
theorem toRow_mapM (h : screen.Good promise) (rows : List Nat) :
    ∃ removed, (rows.mapM fun row => (screen.line row).bind Line.toRow) = some removed ∧
      ∀ row ∈ removed, ScreenRow.Fits promise screen.dimensions.columns row := by
  have hline : ∀ row, ∃ line, screen.line row = some line := h.line_some
  choose line hl using hline
  refine ⟨_, mapM_eq_map (g := fun row =>
    ⟨(line row).cells.take (line row).occupiedColumns, (line row).softWrapped⟩) fun row _ => ?_, ?_⟩
  · rw [hl, bind_some]
    exact (h.line_good (hl row)).toRow.1
  · intro removed hmem
    obtain ⟨row, -, rfl⟩ := List.mem_map.mp hmem
    exact (h.line_good (hl row)).toRow.2

theorem scrollUp_kept (h : screen.Good promise) (htb : top ≤ bottom)
    (hbottom : bottom < screen.dimensions.rows) (count : Nat) (hf : FillOk cell)
    (hfits : screen.Fits span) :
    ∃ removed screen', screen.scrollUp top bottom count cell span = some (removed, screen') ∧
      Kept promise screen screen' ∧
      ∀ row ∈ removed, ScreenRow.Fits promise screen.dimensions.columns row := by
  unfold scrollUp
  simp only [bind_eq_bind, Option.pure_def, sub_eq htb, bind_some]
  generalize hn : min count (bottom - top + 1) = n
  obtain ⟨shifted, hshift, hkShift⟩ := shiftUp_kept h (show top + n ≤ bottom + 1 by omega) hbottom hf hfits htb
  by_cases hfull : span.isFull screen.dimensions.columns = true
  · rw [if_neg (by simp [hfull])]
    obtain ⟨removed, hremoved, hrows⟩ := toRow_mapM h (List.range' top n)
    rw [hremoved, bind_some]
    split
    · next hwhole =>
      obtain ⟨screen1, h1, hk1⟩ := forRange_kept h (Nat.zero_le _)
        fun current i _ _ hk => fillRow_kept hk.good i hf
      have hk2 : Kept promise screen1
          { screen1 with top := (screen1.top + n) % screen1.dimensions.rows } :=
        ⟨⟨⟨Nat.mod_lt _ screen1.rows_pos, hk1.good.lines_length, hk1.good.dirty_length⟩, hk1.good.line⟩, rfl⟩
      obtain ⟨screen2, h2, hk3⟩ := markDirtyRange_kept hk2.good
        (show top ≤ bottom + 1 by omega) (by rw [hk2.dimensions, hk1.dimensions]; exact hbottom)
      refine ⟨removed, screen2, ?_, (hk1.trans hk2).trans hk3, hrows⟩
      rw [h1, bind_some, h2, bind_some]
    · exact ⟨removed, shifted, by rw [hshift, bind_some], hkShift, hrows⟩
  · rw [if_pos (by simp [hfull])]
    exact ⟨[], shifted, by rw [hshift, bind_some], hkShift, by simp⟩

/-! ## Construction and resizing -/

theorem new_good (dimensions : Dimensions) : (new dimensions).Good promise where
  top_lt := dimensions.one_le_rows
  lines_length := length_replicate
  dirty_length := length_replicate
  line line hmem := by
    rw [eq_of_mem_replicate hmem]
    exact Line.blank_good _

variable {dimensions : Dimensions} {columns : Nat}

theorem repairWideCells_kept
    (h : RowsAre dimensions (fun _ line => line.Loose promise dimensions.columns) screen) :
    ∃ screen', screen.repairWideCells = some screen' ∧ Kept promise screen screen' := by
  have hd := h.dims
  obtain ⟨screen', h', hare⟩ := forRange_are h (Nat.zero_le _)
    le_rfl
    (fun current row _ _ hc => show (current.modifyLine row fun line =>
      line.repairRow current.dimensions.columns) = _ by rw [hc]) fun row _ _ line hl => Line.repairRow_good hl
  refine ⟨screen', by rw [repairWideCells, hd]; exact h', hare.kept hd fun row hr line hp => ?_⟩
  rw [if_pos ⟨Nat.zero_le _, hr⟩] at hp
  exact hp

theorem padded_loose {marks : List Bool} {softWrapped : Bool}
    {occupiedColumns : Nat} (hlen : marks.length = cells.length) (hle : cells.length ≤ columns)
    (hok : ∀ {i : Nat} {c o}, cells[i]? = some c → marks[i]? = some o → CellOk promise c o) :
    Line.Loose promise columns {
      cells := cells ++ List.replicate (columns - cells.length) blankCell
      occupiedCells := marks ++ List.replicate (columns - cells.length) false
      softWrapped := softWrapped
      occupiedColumns := occupiedColumns } where
  cells_length := by simp only [length_append, length_replicate]; omega
  marks_length := by simp only [length_append, length_replicate]; omega
  cell {i c o} he := by
    simp only [Line.entry, getElem?_append, hlen, Prod.mk.injEq] at he
    by_cases hi : i < cells.length
    · rw [if_pos hi, if_pos hi] at he
      exact hok he.1 he.2
    · rw [if_neg hi, if_neg hi, getElem?_replicate, getElem?_replicate] at he
      split at he
      · obtain ⟨rfl, rfl⟩ : blankCell = c ∧ false = o := by simpa using he
        have hb : CellOk promise blankCell _ := .of_fill blankCell_fillOk
        rw [Line.isStructuralBlank_blankCell] at hb
        exact hb
      · cases he.1

theorem rowLine_loose {row : ScreenRow} (htext : ∀ cell ∈ row.cells, cell.TextOk) :
    (rowLine columns row).Loose promise columns := by
  have hlen : (row.cells.take (min row.cells.length columns)).length = min row.cells.length columns := by
    rw [length_take]
    omega
  have hmarks : (List.replicate (min row.cells.length columns) true).length =
      (row.cells.take (min row.cells.length columns)).length := by rw [length_replicate, hlen]
  have h : Line.Loose promise columns {
      cells := row.cells.take (min row.cells.length columns) ++
        List.replicate (columns - (row.cells.take (min row.cells.length columns)).length) blankCell
      occupiedCells := List.replicate (min row.cells.length columns) true ++
        List.replicate (columns - (row.cells.take (min row.cells.length columns)).length) false
      softWrapped := row.softWrapped
      occupiedColumns := min row.cells.length columns } :=
    padded_loose hmarks (by omega) fun {i c o} hc ho => by
      rw [getElem?_replicate] at ho
      split at ho
      · cases ho
        exact .of_occupied (htext c (mem_of_mem_take (mem_of_getElem? hc)))
      · cases ho
  rw [hlen] at h
  exact h

/-- A grid under construction: every row is still to be repaired. -/
structure Unrepaired (promise : Promise) (dimensions : Dimensions) (screen : Screen) : Prop
    extends Shape screen where
  dims : screen.dimensions = dimensions
  line : ∀ line ∈ screen.lines, line.Loose promise dimensions.columns

theorem Unrepaired.new (dimensions : Dimensions) : Unrepaired promise dimensions (Screen.new dimensions) where
  toShape := (show (Screen.new dimensions).Good promise from new_good dimensions).toShape
  dims := rfl
  line line hmem := ((new_good dimensions).line line hmem).toLoose

omit [Platform] in
theorem Unrepaired.setLine (h : Unrepaired promise dimensions screen) (hi : index < dimensions.rows)
    {line : Line} (hl : line.Loose promise dimensions.columns) :
    ∃ screen', ((setAt screen.lines index line).bind fun lines =>
        some { screen with lines := lines }) = some screen' ∧
      Unrepaired promise dimensions screen' := by
  have hlt : index < screen.lines.length := by rw [h.lines_length, h.dims]; exact hi
  refine ⟨{ screen with lines := splice screen.lines index [line] }, by rw [setAt_eq hlt]; rfl,
    ⟨h.top_lt, ?_, h.dirty_length⟩, h.dims, fun line' hmem => ?_⟩
  · exact (length_splice (by simp only [length_singleton]; omega)).trans h.lines_length
  · rw [splice_singleton hlt] at hmem
    rcases mem_or_eq_of_mem_set hmem with hm | rfl
    · exact h.line line' hm
    · exact hl

theorem Unrepaired.repair (h : Unrepaired promise dimensions screen) :
    ∃ screen', screen.repairWideCells = some screen' ∧ screen'.Good promise ∧
      screen'.dimensions = dimensions := by
  obtain ⟨screen', h', hk⟩ := repairWideCells_kept
    ⟨h.toShape, h.dims, fun row _ line hl => h.line line (line_mem hl)⟩
  exact ⟨screen', h', hk.good, hk.dimensions.trans h.dims⟩

theorem fromRows_good (dimensions : Dimensions) {rows : List ScreenRow}
    (htext : ∀ row ∈ rows, ∀ cell ∈ row.cells, cell.TextOk) :
    ∃ screen', fromRows dimensions rows = some screen' ∧ screen'.Good promise ∧
      screen'.dimensions = dimensions := by
  obtain ⟨screen1, h1, hu⟩ := foldlM_inv (l := (rows.take dimensions.rows).zipIdx)
    (f := fun (screen : Screen) (x : ScreenRow × Nat) =>
      (setAt screen.lines x.2 (rowLine dimensions.columns x.1)).bind fun lines =>
        some { screen with lines := lines })
    (s := new dimensions) (fun _ screen => Unrepaired promise dimensions screen) 0
    (.new dimensions) fun i screen x hx hu => by
      rw [getElem?_zipIdx] at hx
      obtain ⟨row, hrow, rfl⟩ := map_eq_some_iff.mp hx
      have hi := (List.getElem?_eq_some_iff.mp hrow).1
      rw [length_take] at hi
      exact hu.setLine (show 0 + i < dimensions.rows by omega)
        (rowLine_loose (htext row (mem_of_mem_take (mem_of_getElem? hrow))))
  obtain ⟨screen2, h2, hg, hd⟩ := hu.repair
  refine ⟨screen2.markAllDirty, ?_, (markAllDirty_kept hg).good, hd⟩
  unfold fromRows
  simp only [bind_eq_bind, Option.pure_def] at h1 ⊢
  rw [h1, bind_some, h2, bind_some]

theorem resizedLine_loose {oldColumns : Nat} {line : Line} (hl : line.Loose promise oldColumns) :
    ∃ line', resizedLine line oldColumns columns = some line' ∧ line'.Loose promise columns := by
  have hc := hl.cells_length
  have hm := hl.marks_length
  have hclen : (line.cells.take (min oldColumns columns)).length = min oldColumns columns := by
    rw [length_take]
    omega
  have hmlen : (line.occupiedCells.take (min oldColumns columns)).length = min oldColumns columns := by
    rw [length_take]
    omega
  have hp : Line.Loose promise columns {
      cells := line.cells.take (min oldColumns columns) ++
        List.replicate (columns - (line.cells.take (min oldColumns columns)).length) blankCell
      occupiedCells := line.occupiedCells.take (min oldColumns columns) ++
        List.replicate (columns - (line.cells.take (min oldColumns columns)).length) false
      softWrapped := line.softWrapped && min oldColumns columns == oldColumns
      occupiedColumns := min line.occupiedColumns (min oldColumns columns) } :=
    padded_loose (by rw [hclen, hmlen]) (by omega) fun {i c o} hi ho => by
      rw [getElem?_take] at hi ho
      split at hi
      · rw [if_pos (by assumption)] at ho
        exact hl.cell (by rw [Line.entry, hi, ho])
      · cases hi
  rw [hclen] at hp
  refine ⟨_, ?_, hp⟩
  simp only [resizedLine, slice_eq (Nat.zero_le _) (show min oldColumns columns ≤ line.cells.length by omega),
    slice_eq (Nat.zero_le _) (show min oldColumns columns ≤ line.occupiedCells.length by omega),
    some_bind, drop_zero, Nat.sub_zero]

theorem resized_good (h : screen.Good promise) (dimensions : Dimensions) :
    ∃ screen', screen.resized dimensions = some screen' ∧ screen'.Good promise ∧
      screen'.dimensions = dimensions := by
  obtain ⟨screen1, h1, hu⟩ := forRange_inv (s := new dimensions)
    (fun _ resized => Unrepaired promise dimensions resized)
    (Nat.zero_le (min screen.dimensions.rows dimensions.rows)) (.new dimensions)
    fun row resized _ hrow hu => show ∃ next, ((screen.line row).bind fun line =>
        (resizedLine line screen.dimensions.columns dimensions.columns).bind fun line =>
          (setAt resized.lines row line).bind fun lines => some { resized with lines := lines }) =
            some next ∧ Unrepaired promise dimensions next by
      obtain ⟨line, hl⟩ := h.line_some row
      obtain ⟨line', h', hloose⟩ := resizedLine_loose
        (h.line_good hl).toLoose
      rw [hl, bind_some, h', bind_some]
      exact hu.setLine (by omega) hloose
  obtain ⟨screen2, h2, hg, hd⟩ := hu.repair
  refine ⟨screen2, ?_, hg, hd⟩
  unfold resized
  simp only [bind_eq_bind]
  rw [h1, bind_some, h2]

end

/-! ## Recovery validation -/

theorem firstError_ok {check : Nat → Option (Except String Unit)} {indices : List Nat}
    (h : ∀ i ∈ indices, check i = some (.ok ())) : firstError check indices = some (.ok ()) := by
  induction indices with
  | nil => rfl
  | cons i rest ih =>
    rw [firstError, h i (by simp)]
    exact ih fun j hj => h j (by simp [hj])

theorem validateCell_ok (hg : line.Good promise columns)
    (hpairs : promise.pairs = true) (row : Nat) (hc : column < columns) :
    validateCell line columns row column = some (.ok ()) := by
  obtain ⟨cell, occupied, he, hok⟩ := hg.toLoose.entry_some hc
  have hcell : line.cells[column]? = some cell := congrArg Prod.fst he
  have hwidth := widthAt_of_getElem? hcell
  have hpaired := hg.paired hpairs column
  unfold validateCell
  simp only [hcell, bind_eq_bind, bind_some,
    Cell.validateRecoveryState_ok.mpr hok.text.toTextFits, Option.pure_def]
  cases hw : cell.width with
  | single => rfl
  | double =>
    obtain ⟨trail, htrail, htw⟩ := map_eq_some_iff.mp (hpaired.1 (by rw [hwidth, hw]))
    have hlt := (List.getElem?_eq_some_iff.mp htrail).1
    rw [hg.cells_length] at hlt
    simp only
    rw [if_neg (by omega), htrail, bind_some, if_neg (by simp [htw])]
  | continuation =>
    obtain ⟨j, rfl, hj⟩ := hpaired.2 (by rw [hwidth, hw])
    obtain ⟨lead, hlead, hlw⟩ := map_eq_some_iff.mp hj
    simp only
    rw [if_neg (by omega), Nat.add_sub_cancel, hlead, bind_some, if_neg (by simp [hlw])]

theorem sum_lengths {lines : List Line} {length : Line → Nat}
    (hlen : lines.length = dimensions.rows) (h : ∀ line ∈ lines, length line = dimensions.columns) :
    (lines.map length).sum = dimensions.cellCount := by
  rw [map_congr_left h, map_const', sum_replicate_nat, hlen, dimensions.cellCount_eq,
    Nat.mul_comm]

theorem Good.validate (h : screen.Good promise) (hpairs : promise.pairs = true) :
    screen.validateRecoveryState = some (.ok ()) := by
  have hcells := sum_lengths h.lines_length fun line hl => (h.line line hl).cells_length
  have hmarks := sum_lengths h.lines_length fun line hl => (h.line line hl).marks_length
  unfold validateRecoveryState
  simp only [Option.pure_def, hcells, hmarks]
  rw [if_neg (by have := h.top_lt; omega), if_neg (by simp), if_neg (by simp),
    if_neg (by simp [h.dirty_length]), if_neg (by simp [h.lines_length])]
  refine firstError_ok fun row _ => ?_
  obtain ⟨line, hl⟩ := h.line_some row
  have hg := h.line_good hl
  have hle : line.occupiedColumns ≤ screen.dimensions.columns := by
    rw [hg.extent, ← hg.marks_length]
    exact occupiedExtent_le _
  unfold validateLine
  simp only [hl, some_bind, Option.pure_def]
  rw [if_neg (by omega), if_neg (by simp [hg.extent])]
  exact firstError_ok fun column hc => validateCell_ok hg hpairs row (mem_range.mp hc)

end

end Screen

end FesTerm
