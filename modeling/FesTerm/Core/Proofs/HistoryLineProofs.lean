import FesTerm.Core.Proofs.WrapProofs

/-!
# Logical lines: well-formedness, trimming and splitting

The bookkeeping of a single logical line. `LogicalLine.Ok` ties the row ends, the capacities and the
charge of a line to its cells. Trimming drops a prefix of its physical rows (`dropRows`), and
`split_off_tail` keeps one (`takeRows`); both keep the line well formed.
-/

namespace FesTerm

open Checked List Option

/-- The bookkeeping of a retained line agrees with its cells. -/
structure LogicalLine.Ok [Platform] (line : LogicalLine) : Prop where
  rows_pos : 1 ≤ line.physicalRows
  ends_len : line.rowEnds.length = line.physicalRows
  ends_mono : line.rowEnds.Pairwise (· ≤ ·)
  ends_last : line.rowEnds.getLast? = some line.cells.length
  cell_cap : line.cells.length ≤ line.cellCapacity
  ends_cap : line.rowEnds.length ≤ line.rowEndCapacity
  owned : line.cellOwnedBytes = ownedCharge line.cells
  charge : line.chargedBytes =
    compactLineCharge line.cellCapacity line.rowEndCapacity line.cellOwnedBytes

theorem ownedCharge_append (xs ys : List Cell) :
    ownedCharge (xs ++ ys) = ownedCharge xs + ownedCharge ys := by
  simp [ownedCharge]

variable (cells : List Cell)

theorem ownedCharge_take_add_drop (n : Nat) :
    ownedCharge (cells.take n) + ownedCharge (cells.drop n) = ownedCharge cells := by
  rw [← ownedCharge_append, take_append_drop]

theorem ownedCharge_take_add_slice {a b : Nat} (hab : a ≤ b) :
    ownedCharge (cells.take a) + ownedCharge ((cells.drop a).take (b - a)) =
      ownedCharge (cells.take b) := by
  rw [← ownedCharge_append, show b = a + (b - a) by omega, take_add, Nat.add_sub_cancel_left]

section

variable [Platform]

theorem compactLineCharge_mono {c c' r r' o o' : Nat} (hc : c ≤ c') (hr : r ≤ r') (ho : o ≤ o') :
    compactLineCharge c r o ≤ compactLineCharge c' r' o' := by
  have h1 := Nat.mul_le_mul_left Platform.sizeOfCell hc
  have h2 := Nat.mul_le_mul_left Platform.sizeOfUsize hr
  unfold compactLineCharge
  omega

theorem compactLineCharge_pos (c r o : Nat) : 0 < compactLineCharge c r o := by
  have := Platform.sizeOfLogicalLine_pos
  unfold compactLineCharge
  omega

namespace LogicalLine

variable {line : LogicalLine}

theorem Ok.charge_pos (h : line.Ok) : 0 < line.chargedBytes := by
  rw [h.charge]; exact compactLineCharge_pos _ _ _

omit [Platform] in
theorem rowStart_succ (line : LogicalLine) (row : Nat) :
    line.rowStart (row + 1) = (line.rowEnds[row]?).getD 0 := rfl

variable {i j k : Nat}

theorem Ok.rowEnds_getElem? (h : line.Ok) (hr : i < line.physicalRows) :
    line.rowEnds[i]? = some (line.rowStart (i + 1)) := by
  rw [rowStart_succ, getElem?_eq_getElem (by rw [h.ends_len]; exact hr)]
  rfl

theorem Ok.rowStart_all (h : line.Ok) : line.rowStart line.physicalRows = line.cells.length := by
  have hpos := h.rows_pos
  have hlast := h.ends_last
  rw [getLast?_eq_getElem?, h.ends_len] at hlast
  rw [show line.physicalRows = (line.physicalRows - 1) + 1 by omega, rowStart_succ, hlast]
  rfl

theorem Ok.rowStart_le_succ (h : line.Ok) (hr : i < line.physicalRows) :
    line.rowStart i ≤ line.rowStart (i + 1) := by
  cases i with
  | zero => exact Nat.zero_le _
  | succ i =>
    have hm := pairwise_iff_getElem.mp h.ends_mono i (i + 1)
      (by rw [h.ends_len]; omega) (by rw [h.ends_len]; omega) (by omega)
    rw [rowStart_succ, rowStart_succ, getElem?_eq_getElem (by rw [h.ends_len]; omega),
      getElem?_eq_getElem (by rw [h.ends_len]; omega)]
    exact hm

theorem Ok.rowStart_mono (h : line.Ok) (hij : i ≤ j) (hj : j ≤ line.physicalRows) :
    line.rowStart i ≤ line.rowStart j := by
  induction j with
  | zero => rw [Nat.le_zero.mp hij]
  | succ j ih =>
    rcases Nat.lt_or_ge i (j + 1) with hlt | hge
    · exact (ih (by omega) (by omega)).trans (h.rowStart_le_succ (by omega))
    · rw [show i = j + 1 by omega]

theorem Ok.rowStart_le (h : line.Ok) (hr : i ≤ line.physicalRows) : line.rowStart i ≤ line.cells.length := by
  rw [← h.rowStart_all]; exact h.rowStart_mono hr le_rfl

def rowCells (line : LogicalLine) (row : Nat) : List Cell :=
  (line.cells.drop (line.rowStart row)).take (line.rowStart (row + 1) - line.rowStart row)

variable {row : Nat}

theorem Ok.slice_row (h : line.Ok) (hr : row < line.physicalRows) :
    slice line.cells (line.rowStart row) (line.rowStart (row + 1)) = some (line.rowCells row) :=
  slice_eq (h.rowStart_le_succ hr) (h.rowStart_le hr)

theorem Ok.physicalRow (h : line.Ok) (hr : row < line.physicalRows) :
    line.physicalRow row = some (some (line.rowCells row)) := by
  unfold LogicalLine.physicalRow
  rw [h.rowEnds_getElem? hr]
  simp [h.slice_row hr]

theorem Ok.length_rowCells (h : line.Ok) (hr : i < line.physicalRows) :
    (line.rowCells i).length = line.rowStart (i + 1) - line.rowStart i := by
  have h1 := h.rowStart_le_succ hr
  have h2 := h.rowStart_le (i := i + 1) hr
  simp only [rowCells, length_take, length_drop]
  omega

/-- The physical rows of a line, as they would leave it for the screen. -/
def screenRows (line : LogicalLine) : List ScreenRow :=
  (List.range line.physicalRows).map fun row =>
    ⟨line.rowCells row, row + 1 ≠ line.physicalRows ∨ !line.hardBreak⟩

omit [Platform] in
@[simp] theorem length_screenRows (line : LogicalLine) :
    line.screenRows.length = line.physicalRows := by simp [screenRows]

omit [Platform] in
theorem screenRows_getElem? (hr : row < line.physicalRows) : line.screenRows[row]? =
      some ⟨line.rowCells row, row + 1 ≠ line.physicalRows ∨ !line.hardBreak⟩ := by
  simp [screenRows, getElem?_range hr]

theorem Ok.take_rowStart (h : line.Ok) {n : Nat} (hn : n ≤ line.physicalRows) :
    line.cells.take (line.rowStart n) = ((List.range n).map line.rowCells).flatten := by
  induction n with
  | zero => simp [LogicalLine.rowStart]
  | succ n ih =>
    have hle := h.rowStart_le_succ (i := n) hn
    rw [range_succ, map_append, flatten_append, ← ih (by omega),
      show line.rowStart (n + 1) = line.rowStart n + (line.rowStart (n + 1) - line.rowStart n) by omega,
      take_add]
    simp [rowCells]

theorem Ok.cells_eq (h : line.Ok) : line.cells = (line.screenRows.map (·.cells)).flatten := by
  have := h.take_rowStart le_rfl
  rw [h.rowStart_all, take_length] at this
  rw [this, screenRows, List.map_map]
  rfl

/-- The condition under which the trimming loop stops before dropping another row. -/
def TrimStops (line : LogicalLine) (targetBytes k : Nat) : Prop :=
  compactLineCharge (line.cells.length - line.rowStart k) (line.rowEnds.length - k)
      (line.cellOwnedBytes - ownedCharge (line.cells.take (line.rowStart k))) ≤ targetBytes ∧
    (0 < k ∨ line.chargedBytes ≤ targetBytes)

/-- The trimming loop finds the first row boundary at which it may stop, or the end of the line. -/
theorem Ok.trimScan_eq (h : line.Ok) (targetBytes n : Nat) : ∀ rows, rows + n = line.physicalRows →
      ∃ k, rows ≤ k ∧ k ≤ line.physicalRows ∧
        line.trimScan targetBytes rows (line.rowStart rows)
            (ownedCharge (line.cells.take (line.rowStart rows))) n =
          some (k, line.rowStart k, ownedCharge (line.cells.take (line.rowStart k))) ∧
        (k < line.physicalRows → line.TrimStops targetBytes k) ∧
        ∀ j, rows ≤ j → j < k → ¬ line.TrimStops targetBytes j := by
  induction n with
  | zero =>
    intro rows hn
    exact ⟨rows, le_rfl, by omega, rfl, fun hk => by omega, fun j hj hk => by omega⟩
  | succ n ih =>
    intro rows hn
    rw [LogicalLine.trimScan]
    split
    · rename_i hstop
      exact ⟨rows, le_rfl, by omega, rfl, fun _ => hstop, fun j hj hk => by omega⟩
    · rename_i hstop
      obtain ⟨k, hk1, hk2, hk3, hk4, hk5⟩ := ih (rows + 1) (by omega)
      refine ⟨k, by omega, hk2, ?_, hk4, fun j hj hjk => ?_⟩
      · rw [h.rowEnds_getElem? (by omega)]
        simp only [bind_eq_bind, bind_some]
        rw [h.slice_row (by omega)]
        simp only [bind_some, rowCells]
        rw [ownedCharge_take_add_slice _ (h.rowStart_le_succ (by omega))]
        exact hk3
      · by_cases hj' : j = rows
        · subst hj'; exact hstop
        · exact hk5 j (by omega) hjk

/-- The line without its first `k` physical rows, as trimming leaves it. -/
def dropRows (line : LogicalLine) (k : Nat) : LogicalLine :=
  LogicalLine.recalculateCharge { line with
    cells := line.cells.drop (line.rowStart k)
    cellCapacity := line.cells.length - line.rowStart k
    rowEnds := (line.rowEnds.drop k).map (· - line.rowStart k)
    rowEndCapacity := line.rowEnds.length - k
    physicalRows := line.physicalRows - k
    cellOwnedBytes := line.cellOwnedBytes - ownedCharge (line.cells.take (line.rowStart k))
    trimmedOffset := line.trimmedOffset + line.rowStart k }

theorem Ok.rowStart_le_of_mem_drop (h : line.Ok) {e : Nat} (hk : k ≤ line.physicalRows)
    (he : e ∈ line.rowEnds.drop k) : line.rowStart k ≤ e := by
  obtain ⟨i, hi, rfl⟩ := getElem_of_mem he
  simp only [length_drop, h.ends_len] at hi
  rw [getElem_drop]
  have h1 := h.rowEnds_getElem? (i := k + i) (by omega)
  rw [getElem?_eq_getElem (by rw [h.ends_len]; omega)] at h1
  rw [some.inj h1]
  exact h.rowStart_mono (by omega) (by omega)

theorem Ok.trimOldestPhysicalRowsTo_eq (h : line.Ok) (targetBytes : Nat) : ∃ k ≤ line.physicalRows,
      line.trimOldestPhysicalRowsTo targetBytes =
        some (if k = 0 then line else line.dropRows k, k) ∧
      (k < line.physicalRows → line.TrimStops targetBytes k) ∧
      ∀ j < k, ¬ line.TrimStops targetBytes j := by
  obtain ⟨k, -, hk2, hk3, hk4, hk5⟩ := h.trimScan_eq targetBytes line.physicalRows 0 (by omega)
  refine ⟨k, hk2, ?_, hk4, fun j hj => hk5 j (Nat.zero_le _) hj⟩
  have hscan : line.trimScan targetBytes 0 0 0 line.physicalRows =
      some (k, line.rowStart k, ownedCharge (line.cells.take (line.rowStart k))) := hk3
  have hends : (line.rowEnds.drop k).mapM (fun rowEnd => sub rowEnd (line.rowStart k)) =
      some ((line.rowEnds.drop k).map (· - line.rowStart k)) :=
    mapM_eq_map fun e he => sub_eq (h.rowStart_le_of_mem_drop hk2 he)
  unfold LogicalLine.trimOldestPhysicalRowsTo
  rw [hscan]
  simp only [some_bind]
  by_cases hk0 : k = 0
  · simp [hk0]
  · rw [if_neg hk0, if_neg hk0, slice_eq (Nat.zero_le _) (h.rowStart_le hk2),
      slice_eq (Nat.zero_le _) (by rw [h.ends_len]; exact hk2), hends]
    simp [dropRows, LogicalLine.shrinkToFit]

theorem Ok.rowStart_dropRows (h : line.Ok) (hj : k + j ≤ line.physicalRows) :
    (line.dropRows k).rowStart j = line.rowStart (k + j) - line.rowStart k := by
  cases j with
  | zero => simp [LogicalLine.rowStart]
  | succ j =>
    have : (line.dropRows k).rowEnds[j]? = some (line.rowStart (k + j + 1) - line.rowStart k) := by
      simp only [dropRows, LogicalLine.recalculateCharge, getElem?_map, getElem?_drop]
      rw [h.rowEnds_getElem? (by omega)]
      rfl
    rw [rowStart_succ, this]
    rfl

theorem Ok.dropRows (h : line.Ok) (hk : k < line.physicalRows) : (line.dropRows k).Ok where
  rows_pos := by
    simp only [LogicalLine.dropRows, LogicalLine.recalculateCharge]; omega
  ends_len := by
    simp [LogicalLine.dropRows, LogicalLine.recalculateCharge, h.ends_len]
  ends_mono := by
    simp only [LogicalLine.dropRows, LogicalLine.recalculateCharge]
    refine List.Pairwise.map _ (fun a b hab => Nat.sub_le_sub_right hab _) ?_
    exact h.ends_mono.sublist (drop_sublist _ _)
  ends_last := by
    simp only [LogicalLine.dropRows, LogicalLine.recalculateCharge, getLast?_map, getLast?_drop]
    rw [if_neg (by rw [h.ends_len]; omega), h.ends_last]
    simp
  cell_cap := by simp [LogicalLine.dropRows, LogicalLine.recalculateCharge]
  ends_cap := by simp [LogicalLine.dropRows, LogicalLine.recalculateCharge]
  owned := by
    have := ownedCharge_take_add_drop line.cells (line.rowStart k)
    simp only [LogicalLine.dropRows, LogicalLine.recalculateCharge, h.owned]
    omega
  charge := rfl

omit [Platform] in
theorem rowCells_eq_of_rowStart {l l' : LogicalLine} {r r' : Nat} {a : Nat}
    (hc : l'.cells = l.cells.drop a) (h0 : l'.rowStart r' = l.rowStart r - a)
    (h1 : l'.rowStart (r' + 1) = l.rowStart (r + 1) - a) (ha : a ≤ l.rowStart r)
    (ha' : a ≤ l.rowStart (r + 1)) : l'.rowCells r' = l.rowCells r := by
  unfold rowCells
  rw [hc, h0, h1, drop_drop]
  congr 1
  · omega
  · congr 1; omega

theorem Ok.rowCells_dropRows (h : line.Ok) (hj : k + j < line.physicalRows) :
    (line.dropRows k).rowCells j = line.rowCells (k + j) :=
  rowCells_eq_of_rowStart rfl (h.rowStart_dropRows (by omega))
    (h.rowStart_dropRows (by omega)) (h.rowStart_mono (by omega) (by omega))
    (h.rowStart_mono (by omega) (by omega))

theorem Ok.screenRows_dropRows (h : line.Ok) (k : Nat) :
    (line.dropRows k).screenRows = line.screenRows.drop k := by
  apply ext_getElem?
  intro j
  have hrows : (line.dropRows k).physicalRows = line.physicalRows - k := rfl
  rw [getElem?_drop]
  by_cases hj : k + j < line.physicalRows
  · rw [screenRows_getElem? (by omega), screenRows_getElem? hj, h.rowCells_dropRows hj, hrows]
    have hlast : j + 1 ≠ line.physicalRows - k ↔ k + j + 1 ≠ line.physicalRows := by omega
    simp only [hlast]
    rfl
  · rw [getElem?_eq_none (by simp only [length_screenRows]; omega),
      getElem?_eq_none (by simp only [length_screenRows]; omega)]

theorem Ok.charge_dropRows (h : line.Ok) (k : Nat) : (line.dropRows k).chargedBytes ≤ line.chargedBytes := by
  rw [h.charge]
  refine compactLineCharge_mono ?_ ?_ (Nat.sub_le _ _)
  · exact (Nat.sub_le _ _).trans h.cell_cap
  · exact (Nat.sub_le _ _).trans h.ends_cap

theorem trimStops_iff {targetBytes : Nat} (hk : 0 < k) :
    line.TrimStops targetBytes k ↔ (line.dropRows k).chargedBytes ≤ targetBytes := by
  simp [TrimStops, LogicalLine.dropRows, LogicalLine.recalculateCharge, hk]

/-- The first `k` physical rows of a line, left open, as `split_off_tail` keeps them. -/
def takeRows (line : LogicalLine) (k : Nat) : LogicalLine :=
  LogicalLine.recalculateCharge { line with
    cells := line.cells.take (line.rowStart k)
    cellCapacity := line.rowStart k
    rowEnds := line.rowEnds.take k
    rowEndCapacity := k
    physicalRows := k
    hardBreak := false
    cellOwnedBytes := line.cellOwnedBytes - ownedCharge (line.cells.drop (line.rowStart k)) }

theorem Ok.keepPrefix_eq (h : line.Ok) (hk0 : 0 < k) (hk : k ≤ line.physicalRows) :
    Scrollback.keepPrefix line k = some (line.takeRows k) := by
  have hle := h.rowStart_le hk
  have hlen := h.ends_len
  have hget : line.rowEnds[k - 1]? = some (line.rowStart k) := by
    rw [h.rowEnds_getElem? (by omega), show k - 1 + 1 = k by omega]
  unfold Scrollback.keepPrefix
  rw [sub_eq hk0]
  simp only [bind_eq_bind, bind_some]
  rw [hget]
  simp only [bind_some]
  rw [slice_eq hle le_rfl, ← length_drop, take_length]
  simp [LogicalLine.takeRows, LogicalLine.shrinkToFit, hle, hlen, hk]

theorem Ok.rowStart_takeRows (h : line.Ok) (hj : j ≤ k) (hk : k ≤ line.physicalRows) :
    (line.takeRows k).rowStart j = line.rowStart j := by
  cases j with
  | zero => rfl
  | succ j =>
    have : (line.takeRows k).rowEnds[j]? = some (line.rowStart (j + 1)) := by
      simp only [takeRows, LogicalLine.recalculateCharge]
      rw [getElem?_take_of_lt (by omega), h.rowEnds_getElem? (by omega)]
    rw [rowStart_succ, this]
    rfl

theorem Ok.takeRows (h : line.Ok) (hk0 : 0 < k) (hk : k ≤ line.physicalRows) : (line.takeRows k).Ok where
  rows_pos := hk0
  ends_len := by
    simp only [LogicalLine.takeRows, LogicalLine.recalculateCharge, length_take, h.ends_len]
    omega
  ends_mono := h.ends_mono.sublist (take_sublist _ _)
  ends_last := by
    have hlen : (line.rowEnds.take k).length = k := by
      rw [length_take, h.ends_len]; omega
    simp only [LogicalLine.takeRows, LogicalLine.recalculateCharge]
    rw [getLast?_eq_getElem?, hlen, getElem?_take_of_lt (by omega),
      h.rowEnds_getElem? (by omega), show k - 1 + 1 = k by omega, length_take,
      Nat.min_eq_left (h.rowStart_le hk)]
  cell_cap := by
    simp only [LogicalLine.takeRows, LogicalLine.recalculateCharge, length_take]; omega
  ends_cap := by
    simp only [LogicalLine.takeRows, LogicalLine.recalculateCharge, length_take]; omega
  owned := by
    have := ownedCharge_take_add_drop line.cells (line.rowStart k)
    simp only [LogicalLine.takeRows, LogicalLine.recalculateCharge, h.owned]
    omega
  charge := rfl

theorem Ok.rowCells_takeRows (h : line.Ok) (hj : j < k) (hk : k ≤ line.physicalRows) :
    (line.takeRows k).rowCells j = line.rowCells j := by
  unfold rowCells
  rw [h.rowStart_takeRows (by omega) hk, h.rowStart_takeRows (by omega) hk]
  simp only [LogicalLine.takeRows, LogicalLine.recalculateCharge, drop_take, take_take]
  congr 1
  have := h.rowStart_mono (i := j + 1) (j := k) (by omega) hk
  omega

theorem Ok.screenRows_takeRows (h : line.Ok) (hk : k < line.physicalRows) :
    (line.takeRows k).screenRows = line.screenRows.take k := by
  apply ext_getElem?
  intro j
  have hrows : (line.takeRows k).physicalRows = k := rfl
  have hbreak : (line.takeRows k).hardBreak = false := rfl
  by_cases hj : j < k
  · rw [getElem?_take_of_lt hj, screenRows_getElem? (by omega), screenRows_getElem? (by omega),
      h.rowCells_takeRows hj (by omega), hbreak]
    simp [show j + 1 ≠ line.physicalRows by omega]
  · rw [getElem?_eq_none (by simp only [length_screenRows]; omega),
      getElem?_eq_none (by simp only [length_take, length_screenRows]; omega)]

theorem Ok.tailRows (h : line.Ok) (first : Nat) :
    Scrollback.tailRows line first = some (line.screenRows.drop first) := by
  unfold Scrollback.tailRows screenRows
  rw [mapM_eq_map (g := fun row =>
    (⟨line.rowCells row, row + 1 ≠ line.physicalRows ∨ !line.hardBreak⟩ : ScreenRow))]
  · rw [← map_drop, range_eq_range', drop_range', Nat.zero_add, Nat.mul_one]
  · intro row hrow
    rw [mem_range'_1] at hrow
    rw [h.physicalRow (by omega)]
    rfl

/-- The bookkeeping of a line that may still have no row: what `push_row` appends to. -/
structure Growing (line : LogicalLine) : Prop where
  ends_len : line.rowEnds.length = line.physicalRows
  ends_mono : line.rowEnds.Pairwise (· ≤ ·)
  ends_le : ∀ e ∈ line.rowEnds, e ≤ line.cells.length
  last_eq : line.rowStart line.physicalRows = line.cells.length
  cell_cap : line.cells.length ≤ line.cellCapacity
  ends_cap : line.rowEnds.length ≤ line.rowEndCapacity
  owned : line.cellOwnedBytes = ownedCharge line.cells
  charge : line.chargedBytes =
    compactLineCharge line.cellCapacity line.rowEndCapacity line.cellOwnedBytes

theorem Ok.growing (h : line.Ok) : line.Growing where
  ends_len := h.ends_len
  ends_mono := h.ends_mono
  ends_le e he := by
    obtain ⟨i, hi, rfl⟩ := getElem_of_mem he
    have h1 := h.rowEnds_getElem? (i := i) (by rw [← h.ends_len]; exact hi)
    rw [getElem?_eq_getElem hi] at h1
    rw [some.inj h1]
    exact h.rowStart_le (by rw [← h.ends_len]; exact hi)
  last_eq := h.rowStart_all
  cell_cap := h.cell_cap
  ends_cap := h.ends_cap
  owned := h.owned
  charge := h.charge

theorem appendRow_shape (line : LogicalLine) (limitBytes : ByteLimit) (active : Option Nat) (row : ScreenRow) :
    ∃ c r, (Scrollback.appendRow limitBytes active line row) =
        LogicalLine.recalculateCharge { line with
          cellOwnedBytes := line.cellOwnedBytes + ownedCharge row.cells
          cells := line.cells ++ row.cells
          cellCapacity := c
          rowEnds := line.rowEnds ++ [(line.cells ++ row.cells).length]
          rowEndCapacity := r
          physicalRows := line.physicalRows + 1
          hardBreak := !row.softWrapped } ∧
      (line.cells ++ row.cells).length ≤ c ∧
      (line.rowEnds ++ [(line.cells ++ row.cells).length]).length ≤ r := by
  unfold Scrollback.appendRow
  simp only
  split
  · exact ⟨_, _, rfl, le_rfl, le_rfl⟩
  · exact ⟨_, _, rfl, le_reserve _ _, le_reserve _ _⟩

theorem Growing.appendRow (h : line.Growing) (limitBytes : ByteLimit) (active : Option Nat)
    (row : ScreenRow) : (Scrollback.appendRow limitBytes active line row).Ok := by
  obtain ⟨c, r, heq, hc, hr⟩ := appendRow_shape line limitBytes active row
  rw [heq]
  exact {
    rows_pos := Nat.le_add_left _ _
    ends_len := by simp [LogicalLine.recalculateCharge, h.ends_len]
    ends_mono := by
      simp only [LogicalLine.recalculateCharge]
      refine pairwise_append.mpr ⟨h.ends_mono, pairwise_singleton _ _, ?_⟩
      intro a ha b hb
      have := h.ends_le a ha
      simp only [mem_singleton, length_append] at hb
      omega
    ends_last := by simp [LogicalLine.recalculateCharge]
    cell_cap := hc
    ends_cap := hr
    owned := by
      simp only [LogicalLine.recalculateCharge, ownedCharge_append, h.owned]
    charge := rfl }

theorem Growing.rowStart_appendRow (h : line.Growing) (limitBytes : ByteLimit) (active : Option Nat)
    (row : ScreenRow) (hj : j ≤ line.physicalRows) :
    (Scrollback.appendRow limitBytes active line row).rowStart j = line.rowStart j := by
  obtain ⟨c, r, heq, -, -⟩ := appendRow_shape line limitBytes active row
  rw [heq]
  cases j with
  | zero => rfl
  | succ j =>
    simp only [rowStart_succ, LogicalLine.recalculateCharge]
    rw [getElem?_append_left (by rw [h.ends_len]; omega)]

theorem Growing.rowCells_appendRow (h : line.Growing) (limitBytes : ByteLimit)
    (active : Option Nat) (row : ScreenRow) (hj : j ≤ line.physicalRows) :
    (Scrollback.appendRow limitBytes active line row).rowCells j =
      if j = line.physicalRows then row.cells else line.rowCells j := by
  obtain ⟨c, r, heq, -, -⟩ := appendRow_shape line limitBytes active row
  have hcells : (Scrollback.appendRow limitBytes active line row).cells = line.cells ++ row.cells := by
    rw [heq]; rfl
  have hends : (Scrollback.appendRow limitBytes active line row).rowEnds =
      line.rowEnds ++ [(line.cells ++ row.cells).length] := by
    rw [heq]; rfl
  have hstart := h.rowStart_appendRow limitBytes active row hj
  by_cases hlast : j = line.physicalRows
  · subst hlast
    have hstop : (Scrollback.appendRow limitBytes active line row).rowStart (line.physicalRows + 1) =
        (line.cells ++ row.cells).length := by
      rw [rowStart_succ, hends, ← h.ends_len]
      simp
    rw [if_pos rfl]
    unfold rowCells
    rw [hstop, hstart, hcells, h.last_eq]
    simp
  · have hstop := h.rowStart_appendRow limitBytes active row (j := j + 1) (by omega)
    rw [if_neg hlast]
    unfold rowCells
    rw [hstop, hstart, hcells]
    have hmem : line.rowStart (j + 1) ≤ line.cells.length := by
      rw [rowStart_succ, getElem?_eq_getElem (by rw [h.ends_len]; omega)]
      exact h.ends_le _ (getElem_mem _)
    by_cases hle : line.rowStart j ≤ line.cells.length
    · rw [drop_append_of_le_length hle, take_append_of_le_length]
      simp only [length_drop]
      omega
    · rw [show line.rowStart (j + 1) - line.rowStart j = 0 by omega]
      simp

theorem Growing.screenRows_appendRow (h : line.Growing) (hopen : line.hardBreak = false)
    (limitBytes : ByteLimit) (active : Option Nat) (row : ScreenRow) :
    (Scrollback.appendRow limitBytes active line row).screenRows = line.screenRows ++ [row] := by
  obtain ⟨c, r, heq, -, -⟩ := appendRow_shape line limitBytes active row
  have hrows : (Scrollback.appendRow limitBytes active line row).physicalRows =
      line.physicalRows + 1 := by rw [heq]; rfl
  have hbreak : (Scrollback.appendRow limitBytes active line row).hardBreak = !row.softWrapped := by
    rw [heq]; rfl
  apply ext_getElem?
  intro j
  rcases Nat.lt_trichotomy j line.physicalRows with hj | hj | hj
  · rw [screenRows_getElem? (by omega), getElem?_append_left (by simpa using hj),
      screenRows_getElem? hj, h.rowCells_appendRow _ _ _ (by omega), if_neg (by omega), hrows, hopen]
    simp [show j ≠ line.physicalRows by omega]
  · subst hj
    rw [screenRows_getElem? (by omega), h.rowCells_appendRow _ _ _ le_rfl, if_pos rfl, hrows, hbreak]
    simp
  · rw [getElem?_eq_none (by simp only [length_screenRows]; omega),
      getElem?_eq_none (by simp; omega)]

theorem emptyLine_growing (id trimmedOffset : Nat) : (Scrollback.emptyLine id trimmedOffset).Growing where
  ends_len := rfl
  ends_mono := List.Pairwise.nil
  ends_le := by simp [Scrollback.emptyLine]
  last_eq := rfl
  cell_cap := le_rfl
  ends_cap := le_rfl
  owned := rfl
  charge := by simp [Scrollback.emptyLine, compactLineCharge]

theorem Ok.reflow (h : line.Ok) (columns : Nat) : (line.reflow columns).Ok := by
  obtain ⟨hlast, hmono⟩ := wrapRows_spec (max columns 1) line.cells
  exact {
    rows_pos := by
      simp only [LogicalLine.reflow, LogicalLine.recalculateCharge]
      rcases hends : wrapRows (max columns 1) line.cells 0 0 with _ | ⟨a, l⟩
      · rw [hends] at hlast; cases hlast
      · simp
    ends_len := rfl
    ends_mono := hmono
    ends_last := hlast
    cell_cap := h.cell_cap
    ends_cap := le_pushedCapacity _
    owned := h.owned
    charge := rfl }

end LogicalLine

end

end FesTerm
