import FesTerm.Core.Proofs.HistoryProofs

/-!
# Rows and anchors of the scrollback

A retained row is found by a binary search over the first rows of the lines, and a position in it is
anchored to an offset in the cells of its line. Both directions are total on every scrollback that
keeps its layout, and an anchor of a cell leads back to the same cell of the same line after its rows
have been wrapped again.
-/

namespace FesTerm

open Checked List Option

/-! ## The search -/

variable {index : Nat}

namespace Scrollback

/-- `r` is the partition point of the first rows by a target row. -/
def Splits (starts : List Nat) (target r : Nat) : Prop :=
  ∀ (i start : Nat), starts[i]? = some start → (start ≤ target ↔ i < r)

theorem searchRowStarts_spec {starts : List Nat} (target : Nat) (hmono : starts.Pairwise (· ≤ ·)) :
    ∀ (fuel low high : Nat), low ≤ high → high ≤ starts.length → high - low ≤ fuel →
      (∀ i start, starts[i]? = some start → i < low → start ≤ target) →
      (∀ i start, starts[i]? = some start → high ≤ i → target < start) →
      ∃ r, searchRowStarts starts target fuel low high = some r ∧ r ≤ starts.length ∧
        Splits starts target r := by
  intro fuel
  induction fuel with
  | zero =>
    intro low high hle hhigh hfuel hlow hup
    obtain rfl : low = high := by omega
    refine ⟨low, rfl, hhigh, fun i start hi => ⟨fun hs => ?_, hlow i start hi⟩⟩
    by_contra hge
    have := hup i start hi (by omega)
    omega
  | succ fuel ih =>
    intro low high hle hhigh hfuel hlow hup
    rw [searchRowStarts]
    by_cases hlt : low < high
    · rw [if_pos hlt]
      have hmid : low + (high - low) / 2 < starts.length := by omega
      simp only [getElem?_eq_getElem hmid, some_bind]
      by_cases hm : starts[low + (high - low) / 2] ≤ target
      · rw [if_pos hm]
        refine ih _ _ (by omega) hhigh (by omega) (fun i start hi hlt' => ?_) hup
        obtain ⟨hil, rfl⟩ := List.getElem?_eq_some_iff.mp hi
        rcases Nat.lt_or_eq_of_le (Nat.le_of_lt_succ hlt') with hi' | hi'
        · exact Nat.le_trans (pairwise_iff_getElem.mp hmono i _ hil hmid hi') hm
        · simp only [hi']
          exact hm
      · rw [if_neg hm]
        refine ih _ _ (by omega) (by omega) (by omega) hlow fun i start hi hge => ?_
        obtain ⟨hil, rfl⟩ := List.getElem?_eq_some_iff.mp hi
        rcases Nat.lt_or_eq_of_le hge with hi' | hi'
        · have := pairwise_iff_getElem.mp hmono _ i hmid hil hi'
          omega
        · simp only [← hi']
          omega
    · rw [if_neg hlt]
      obtain rfl : low = high := by omega
      refine ⟨low, rfl, hhigh, fun i start hi => ⟨fun hs => ?_, hlow i start hi⟩⟩
      by_contra hge
      have := hup i start hi (by omega)
      omega

variable {lines : List LogicalLine}

theorem rowStarts_ge {origin : Nat} {start : Nat}
    (h : start ∈ rowStarts origin lines) : origin ≤ start := by
  induction lines generalizing origin with
  | nil => cases h
  | cons line lines ih =>
    rcases mem_cons.mp h with rfl | h
    · exact le_rfl
    · have := ih h
      omega

theorem rowStarts_mono (origin : Nat) (lines : List LogicalLine) :
    (rowStarts origin lines).Pairwise (· ≤ ·) := by
  induction lines generalizing origin with
  | nil => exact List.Pairwise.nil
  | cons line lines ih =>
    refine List.Pairwise.cons (fun start hs => ?_) (ih _)
    have := rowStarts_ge hs
    omega

/-- A row of a line: its index among the lines, the line, and its index in it. -/
structure RowAt (lines : List LogicalLine) (row index : Nat) (line : LogicalLine) (localRow : Nat) :
    Prop where
  getElem : lines[index]? = some line
  row_eq : totalRows (lines.take index) + localRow = row
  within : localRow < line.physicalRows ∨ index + 1 = lines.length

theorem totalRows_take_succ {line : LogicalLine}
    (h : lines[index]? = some line) :
    totalRows (lines.take (index + 1)) = totalRows (lines.take index) + line.physicalRows := by
  rw [take_add_one, h, totalRows_append]
  rfl

variable [Platform] {sb : Scrollback}

/-- The line that holds a row; past the last row it is the last line. -/
theorem Layout.lineAt (h : sb.Layout) (row : Nat) : sb.lines = [] ∧ sb.lineAt row = some none ∨
      ∃ index line localRow, sb.lineAt row = some (some (index, line, localRow)) ∧
        RowAt sb.lines row index line localRow := by
  have hlen : sb.lineRowStarts.length = sb.lines.length := by rw [h.starts, length_rowStarts]
  by_cases hnil : sb.lines = []
  · left
    have hempty : sb.lineRowStarts = [] := length_eq_zero_iff.mp (by rw [hlen, hnil]; rfl)
    exact ⟨hnil, by simp [Scrollback.lineAt, lineIndexForAbsoluteRow, hempty]⟩
  right
  have hpos : 0 < sb.lines.length := length_pos_iff.mpr hnil
  obtain ⟨r, hr, hrle, hsplit⟩ := searchRowStarts_spec
    (sb.contentRowOrigin + row) (by rw [h.starts]; exact rowStarts_mono _ _)
    sb.lineRowStarts.length 0 sb.lineRowStarts.length (Nat.zero_le _) le_rfl (by omega)
    (fun i start _ hi => absurd hi (Nat.not_lt_zero i))
    (fun i start hi hge => by
      have := (List.getElem?_eq_some_iff.mp hi).1
      omega)
  have hstart : ∀ i, i < sb.lines.length →
      sb.lineRowStarts[i]? = some (sb.contentRowOrigin + totalRows (sb.lines.take i)) := fun i hi => by
    rw [h.starts]
    exact getElem?_rowStarts _ _ hi
  -- the first line starts at the origin, so the partition point is not at the front
  have hr0 : 0 < r := (hsplit 0 _ (hstart 0 hpos)).mp (by simp)
  obtain ⟨index, rfl⟩ : ∃ index, r = index + 1 := ⟨r - 1, by omega⟩
  have hlt : index < sb.lines.length := by omega
  have hle := (hsplit index _ (hstart index hlt)).mpr (Nat.lt_succ_self index)
  have hsub : Checked.sub (sb.contentRowOrigin + row) (sb.contentRowOrigin + totalRows (sb.lines.take index)) =
      some (row - totalRows (sb.lines.take index)) := by
    rw [sub_eq hle]
    congr 1
    omega
  refine ⟨index, sb.lines[index], row - totalRows (sb.lines.take index), ?_,
    getElem?_eq_getElem hlt, by omega, ?_⟩
  · have hne : sb.lineRowStarts.isEmpty = false := by
      rw [isEmpty_eq_false_iff, ← length_pos_iff, hlen]
      exact hpos
    simp only [Scrollback.lineAt, lineIndexForAbsoluteRow, hne, Bool.false_eq_true, if_false, hr,
      some_bind, Nat.add_sub_cancel, getElem?_eq_getElem hlt,
      hstart index hlt, hsub, Nat.succ_ne_zero]
  · by_cases hlast : index + 1 = sb.lines.length
    · exact .inr hlast
    · left
      have hnext := hstart (index + 1) (by omega)
      rw [totalRows_take_succ (getElem?_eq_getElem hlt)] at hnext
      have hgt := mt (hsplit (index + 1) _ hnext).mp (Nat.lt_irrefl _)
      omega

theorem Layout.lineAt_of_lt (h : sb.Layout) {row : Nat} (hrow : row < totalRows sb.lines) :
    ∃ index line localRow, sb.lineAt row = some (some (index, line, localRow)) ∧
      RowAt sb.lines row index line localRow ∧ localRow < line.physicalRows := by
  rcases h.lineAt row with ⟨hnil, -⟩ | ⟨index, line, localRow, heq, hat⟩
  · rw [hnil] at hrow
    exact absurd hrow (Nat.not_lt_zero _)
  · refine ⟨index, line, localRow, heq, hat, ?_⟩
    rcases hat.within with hlt | hlast
    · exact hlt
    · have hsum := totalRows_take_succ hat.getElem
      rw [hlast, take_length] at hsum
      have := hat.row_eq
      omega

theorem Layout.lineAndOffsetAt (h : sb.Layout) (row column : Nat) :
    ∃ anchor, sb.lineAndOffsetAt row column = some anchor := by
  unfold Scrollback.lineAndOffsetAt
  rcases h.lineAt row with ⟨-, heq⟩ | ⟨index, line, localRow, heq, -⟩
  · rw [heq]
    exact ⟨none, rfl⟩
  · rw [heq]
    simp only [some_bind]
    split
    · exact ⟨_, rfl⟩
    · exact ⟨_, rfl⟩

end Scrollback

/-! ## Offsets -/

namespace LogicalLine

variable {line : LogicalLine}

variable {p : Nat → Bool}

theorem takeWhile_row (ends : List Nat) {i : Nat}
    (hi : i < (ends.takeWhile p).length) : ∃ stop, ends[i]? = some stop ∧ p stop = true := by
  induction ends generalizing i with
  | nil => simp at hi
  | cons a ends ih =>
    by_cases ha : p a = true
    · rw [takeWhile_cons_of_pos ha, length_cons] at hi
      cases i with
      | zero => exact ⟨a, rfl, ha⟩
      | succ i => exact ih (Nat.lt_of_succ_lt_succ hi)
    · rw [takeWhile_cons_of_neg ha] at hi
      exact absurd hi (Nat.not_lt_zero i)

theorem takeWhile_stop {ends : List Nat} {stop : Nat}
    (hstop : ends[(ends.takeWhile p).length]? = some stop) : p stop = false := by
  induction ends with
  | nil => simp at hstop
  | cons a ends ih =>
    by_cases ha : p a = true
    · rw [takeWhile_cons_of_pos ha] at hstop
      exact ih hstop
    · rw [takeWhile_cons_of_neg ha] at hstop
      simp only [length_nil, getElem?_cons_zero, some.injEq] at hstop
      rw [← hstop]
      simpa using ha

variable [Platform]

/-- Where an offset lies in the rows of a line: in the row that holds the cell, when there is one. -/
theorem Ok.locateOffset (h : line.Ok) {offset : Nat} (hoff : line.trimmedOffset ≤ offset)
    (endBoundary : Bool) :
    ∃ row column, line.locateOffset offset endBoundary = some (some (row, column)) ∧
      row < line.physicalRows ∧
      line.rowStart row + column = min (offset - line.trimmedOffset) line.cells.length ∧
      line.rowStart row + column ≤ line.rowStart (row + 1) ∧
      (endBoundary = false → offset - line.trimmedOffset < line.cells.length →
        line.rowStart row + column < line.rowStart (row + 1)) := by
  generalize hcut : min (offset - line.trimmedOffset) line.cells.length = cut
  generalize hp : (fun stop => if endBoundary then decide (stop < cut) else decide (stop ≤ cut)) = p
  generalize hrow : min (line.rowEnds.takeWhile p).length (line.rowEnds.length - 1) = row
  have hpos := h.rows_pos
  have hlen := h.ends_len
  have hstart : line.rowStart row ≤ cut := by
    cases row with
    | zero => exact Nat.zero_le _
    | succ previous =>
      obtain ⟨stop, hstop, hps⟩ := takeWhile_row line.rowEnds (p := p) (i := previous)
        (by omega)
      rw [rowStart_succ, hstop, getD_some]
      rw [← hp] at hps
      cases endBoundary with
      | true => simp only [if_true, decide_eq_true_eq] at hps; omega
      | false => simp only [Bool.false_eq_true, if_false, decide_eq_true_eq] at hps; exact hps
  have hlt' : row < line.physicalRows := by omega
  have hnext := h.rowEnds_getElem? hlt'
  -- the row's end does not satisfy the search predicate, or it is the end of the cells
  have hend : line.rowStart (row + 1) = line.cells.length ∨ p (line.rowStart (row + 1)) = false := by
    by_cases hmin : (line.rowEnds.takeWhile p).length ≤ line.rowEnds.length - 1
    · right
      have hk : (line.rowEnds.takeWhile p).length = row := by omega
      exact takeWhile_stop (by rw [hk]; exact hnext)
    · left
      rw [show row + 1 = line.physicalRows by omega]
      exact h.rowStart_all
  refine ⟨row, cut - line.rowStart row, ?_, by omega, by omega, ?_, fun hopen hlt => ?_⟩
  · unfold LogicalLine.locateOffset
    rw [if_neg (by omega)]
    simp only [hcut, hp, hrow, sub_eq hstart, some_bind]
  · rcases hend with hall | hstop
    · omega
    · rw [← hp] at hstop
      cases endBoundary with
      | true => simp only [if_true, decide_eq_false_iff_not] at hstop; omega
      | false => simp only [Bool.false_eq_true, if_false, decide_eq_false_iff_not] at hstop; omega
  · subst hopen
    rcases hend with hall | hstop
    · omega
    · simp only [← hp, Bool.false_eq_true, if_false, decide_eq_false_iff_not] at hstop
      omega

end LogicalLine

namespace Scrollback

variable {sb : Scrollback}

theorem anchorLineIndex_some {anchor : LogicalAnchor}
    (h : sb.anchorLineIndex anchor = some index) :
    ∃ line, sb.lines[index]? = some line ∧ line.id = anchor.lineId := by
  have hscan : ∀ {i}, sb.lines.findIdx? (fun line => line.id == anchor.lineId) = some i →
      ∃ line, sb.lines[i]? = some line ∧ line.id = anchor.lineId := fun {i} hi => by
    obtain ⟨hlt, hid, -⟩ := findIdx?_eq_some_iff_getElem.mp hi
    exact ⟨_, getElem?_eq_getElem hlt, beq_iff_eq.mp hid⟩
  unfold anchorLineIndex at h
  split at h
  · next line hl =>
    split at h
    · next hid =>
      cases h
      exact ⟨line, hl, hid⟩
    · exact hscan h
  · exact hscan h

variable [Platform]

theorem Layout.resolveAnchor (h : sb.Layout) (anchor : LogicalAnchor) :
    ∃ position, sb.resolveAnchor anchor = some position := by
  unfold Scrollback.resolveAnchor
  split
  · exact ⟨none, rfl⟩
  · next index hindex =>
    obtain ⟨line, hline, -⟩ := anchorLineIndex_some hindex
    have hlt := (List.getElem?_eq_some_iff.mp hline).1
    have hok := h.lines_ok line (mem_of_getElem? hline)
    simp only [hline, bind_eq_bind, bind_some]
    split
    · exact ⟨none, rfl⟩
    · by_cases hoff : anchor.offset < line.trimmedOffset
      · simp only [LogicalLine.locateOffset, if_pos hoff, bind_some]
        exact ⟨none, rfl⟩
      · obtain ⟨row, column, heq, -⟩ := hok.locateOffset (Nat.le_of_not_lt hoff) anchor.endBoundary
        have hstart : sb.lineRowStarts[index]? =
            some (sb.contentRowOrigin + totalRows (sb.lines.take index)) := by
          rw [h.starts]
          exact getElem?_rowStarts _ _ hlt
        simp only [heq, bind_some, hstart]
        split
        · exact ⟨none, rfl⟩
        · exact ⟨_, rfl⟩

end Scrollback

end FesTerm
