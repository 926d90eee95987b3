import FesTerm.Core.Proofs.ReflowProofs

/-!
# The text of a snapshot

A snapshot pushes cells and newlines into an accumulator. The sequence it pushes for the history and the
primary screen is the list of logical lines with newlines between them, so two terminals with the same
logical content have the same text.
-/

namespace FesTerm

open Checked List Option

namespace SnapshotAccumulator

/-! ## Snapshots by tokens -/

/-- Push a cell, or the newline between two lines. -/
def pushToken (target : SnapshotAccumulator) : Option Cell → Except SnapshotRefusal SnapshotAccumulator
  | none => target.pushNewline
  | some cell => target.pushCell cell

def pushTokens (target : SnapshotAccumulator) (tokens : List (Option Cell)) :
    Except SnapshotRefusal SnapshotAccumulator := tokens.foldlM pushToken target

variable (target : SnapshotAccumulator)

theorem pushTokens_append (tokens tokens' : List (Option Cell)) :
    target.pushTokens (tokens ++ tokens') = target.pushTokens tokens >>= (·.pushTokens tokens') :=
  foldlM_append

theorem pushCellsText_eq (cells : List Cell) :
    target.pushCellsText cells = target.pushTokens (cells.map some) := by
  rw [pushCellsText, pushTokens, foldlM_map]
  rfl

theorem pushNewline_trailing {target target' : SnapshotAccumulator} (h : target.pushNewline = .ok target') :
    target'.trailingNewline = true := by
  rw [pushNewline] at h
  cases hresume : target.resume with
  | error refusal => rw [hresume] at h; cases h
  | ok resumed =>
    rw [hresume] at h
    simp only [bind, Except.bind] at h
    split at h
    · cases h
    · rw [← Except.ok.inj h]

end SnapshotAccumulator

open SnapshotAccumulator

def rowTokens (row : ScreenRow) : List (Option Cell) := row.cells.map some

namespace Terminal

variable [Platform]

def openEnd (lines : List LogicalLine) : Bool := (lines.getLast?).any fun line => !line.hardBreak

theorem terminated_screenRows {line : LogicalLine} (h : line.Ok) :
    SoftWrap.terminated rowTokens ScreenRow.softWrapped none line.screenRows =
      line.cells.map some ++ if line.hardBreak then [none] else [] := by
  have hne := h.screenRows_ne_nil
  obtain ⟨last, hlast, hwrap⟩ := h.screenRows_last
  have hsplit : line.screenRows = line.screenRows.dropLast ++ [last] := by
    conv_lhs => rw [← dropLast_append_getLast hne]
    rw [getLast?_eq_some_getLast hne] at hlast
    rw [some.inj hlast]
  have hfront : line.screenRows.dropLast.flatMap
      (fun row => rowTokens row ++ if row.softWrapped then [] else [none]) =
        line.screenRows.dropLast.flatMap rowTokens :=
    flatMap_congr fun row hrow => by simp [line.screenRows_wrap row hrow]
  have hcells : line.cells.map some = line.screenRows.flatMap rowTokens := by
    rw [h.cells_eq, ← flatMap_def, map_flatMap]
    rfl
  rw [SoftWrap.terminated, hcells, hsplit, flatMap_append, hfront, flatMap_append]
  cases hbreak : line.hardBreak <;> simp [hwrap, hbreak]

variable {lines : List LogicalLine}

theorem pushHistory_eq (hok : ∀ line ∈ lines, line.Ok) (text : SnapshotAccumulator) :
    pushHistory text lines = (text.pushTokens (SoftWrap.terminated rowTokens ScreenRow.softWrapped none
      (Scrollback.allRows lines))).map fun text => (text, openEnd lines) := by
  induction lines using List.reverseRecOn with
  | nil => rfl
  | append_singleton lines line ih =>
    have hline := terminated_screenRows (hok line (by simp))
    rw [pushHistory, foldlM_append]
    rw [pushHistory] at ih
    rw [ih fun l hl => hok l (mem_append_left _ hl), Scrollback.allRows_append,
      Scrollback.allRows_singleton, SoftWrap.terminated_append, hline, pushTokens_append]
    cases hbefore : text.pushTokens (SoftWrap.terminated rowTokens ScreenRow.softWrapped none
        (Scrollback.allRows lines)) with
    | error refusal => rfl
    | ok text =>
      simp only [Except.map, bind, Except.bind, foldlM_cons, foldlM_nil, pushCellsText_eq]
      rw [show openEnd (lines ++ [line]) = !line.hardBreak by simp [openEnd]]
      cases hbreak : line.hardBreak with
      | false =>
        rw [if_neg (by decide), append_nil]
        cases text.pushTokens (line.cells.map some) <;> rfl
      | true =>
        rw [if_pos rfl, pushTokens_append]
        cases hcells : text.pushTokens (line.cells.map some) with
        | error refusal => rfl
        | ok text =>
          simp only [bind, Except.bind, pushTokens, foldlM_cons, foldlM_nil, pushToken]
          cases text.pushNewline <;> rfl

omit [Platform] in
/-- After a history that ends in a hard break a newline is pending. -/
theorem pushHistory_trailing {text text' : SnapshotAccumulator}
    {continuing : Bool} (h : pushHistory text lines = .ok (text', continuing)) (hne : lines ≠ [])
    (hclosed : continuing = false) : text'.trailingNewline = true := by
  obtain ⟨before, line, rfl⟩ : ∃ before line, lines = before ++ [line] :=
    ⟨_, _, (dropLast_append_getLast hne).symm⟩
  rw [pushHistory, foldlM_append] at h
  change (pushHistory text before >>= _) = _ at h
  match hbefore : pushHistory text before with
  | .error refusal => rw [hbefore] at h; cases h
  | .ok (mid, _) =>
    rw [hbefore] at h
    simp only [bind, Except.bind, foldlM_cons, foldlM_nil] at h
    cases hcells : mid.pushCellsText line.cells with
    | error refusal => rw [hcells] at h; cases h
    | ok cells =>
      rw [hcells] at h
      simp only at h
      cases hbreak : line.hardBreak with
      | false =>
        rw [hbreak] at h
        cases h
        cases hclosed
      | true =>
        rw [hbreak] at h
        simp only [if_true] at h
        cases hnewline : cells.pushNewline with
        | error refusal => rw [hnewline] at h; cases h
        | ok text =>
          rw [hnewline] at h
          cases h
          exact pushNewline_trailing hnewline

variable {rows : List ScreenRow}

omit [Platform] in
/-- What the rows of the screen below the first add to a snapshot. -/
theorem appendRows_eq {screen : Screen} (h : screen.Shows rows) (m : Nat) :
    ∀ (k : Nat) (target : SnapshotAccumulator) (continuing : Bool), k + 1 + m ≤ rows.length →
      screen.appendRows target continuing (List.range' (k + 1) m) = some (target.pushTokens
        (SoftWrap.followed rowTokens ScreenRow.softWrapped none continuing
          ((rows.drop (k + 1)).take m))) := by
  induction m with
  | zero =>
    intro k target continuing _
    rw [take_zero]
    rfl
  | succ m ih =>
    intro k target continuing hle
    have hlt : k + 1 < rows.length := by omega
    have hrow := getElem?_eq_getElem hlt
    have hbreak : target.breakBefore continuing (k + 1) =
        target.pushTokens (if continuing then [] else [none]) := by
      cases continuing with
      | true => rfl
      | false =>
        rw [SnapshotAccumulator.breakBefore, if_pos ⟨rfl, .inl (Nat.succ_pos k)⟩]
        simp only [Bool.false_eq_true, if_false, pushTokens, foldlM_cons, foldlM_nil, pushToken]
        cases target.pushNewline <;> rfl
    rw [range'_succ, Screen.appendRows, hbreak, drop_eq_getElem_cons hlt, take_succ_cons,
      SoftWrap.followed, pushTokens_append]
    cases hfirst : target.pushTokens (if continuing then [] else [none]) with
    | error refusal => rfl
    | ok target =>
      simp only [h.cells _ _ hrow, pushCellsText_eq, bind_some, bind, Except.bind,
        h.softWrapped _ _ hrow, getD_some]
      rw [show ∀ tokens, target.pushTokens (rowTokens rows[k + 1] ++ tokens) =
        target.pushTokens (rowTokens rows[k + 1]) >>= (·.pushTokens tokens) from
          fun tokens => pushTokens_append _ _ _]
      rw [show rows[k + 1].cells.map some = rowTokens rows[k + 1] from rfl]
      cases hcells : target.pushTokens (rowTokens rows[k + 1]) with
      | error refusal => rfl
      | ok target => exact ih (k + 1) target _ (by omega)

/-- The lines of the primary screen with its history, soft wraps joined. -/
def logicalContent (terminal : Terminal) : Option (List (List Cell)) :=
  (terminal.primary.content terminal.scrollback).map logicalLines

def lineTokens (lines : List (List Cell)) : List (Option Cell) :=
  List.intercalate [none] (lines.map (List.map some))

omit [Platform] in
theorem separated_rowTokens (rows : List ScreenRow) :
    SoftWrap.separated rowTokens ScreenRow.softWrapped none rows = lineTokens (logicalLines rows) := by
  rw [SoftWrap.separated_eq, lineTokens, logicalLines, ← SoftWrap.lines_map]
  rfl

omit [Platform] in
/-- The text on the screen continues that of the history. -/
theorem appendVisibleText_eq {buffer : BufferState} {n : Nat}
    (h : buffer.screen.Shows rows) (hn : buffer.contentRows = some n) (hpos : 0 < n)
    (hle : n ≤ rows.length) (target : SnapshotAccumulator) (continuing : Bool) :
    buffer.screen.appendVisibleText target buffer.cursor.row continuing =
      some (target.breakBefore continuing 0 >>=
        (·.pushTokens (SoftWrap.separated rowTokens ScreenRow.softWrapped none (rows.take n)))) := by
  obtain ⟨n, rfl⟩ : ∃ m, n = m + 1 := ⟨n - 1, by omega⟩
  have hcount : buffer.screen.occupiedRowCount.bind (fun occupied =>
      some (min (max occupied (buffer.cursor.row + 1)) buffer.screen.dimensions.rows)) = some (n + 1) := by
    rw [← hn, BufferState.contentRows]
    exact congrArg _ (funext fun occupied => by rw [Nat.min_comm])
  obtain ⟨occupied, hoccupied, hrows⟩ := bind_eq_some_iff.mp hcount
  have hlt : 0 < rows.length := by omega
  have hrow := getElem?_eq_getElem hlt
  rw [Screen.appendVisibleText, hoccupied]
  simp only [some_bind, some.inj hrows]
  have htail := appendRows_eq h n 0
  rw [Nat.zero_add] at htail
  conv_rhs => rw [← drop_zero (l := rows), drop_eq_getElem_cons hlt]
  rw [range_eq_range', range'_succ, Nat.zero_add, Screen.appendRows, take_succ_cons,
    SoftWrap.separated_cons]
  cases target.breakBefore continuing 0 with
  | error refusal => rfl
  | ok target =>
    simp only [h.cells _ _ hrow, pushCellsText_eq, some_bind, h.softWrapped _ _ hrow, getD_some]
    rw [show rows[0].cells.map some = rowTokens rows[0] from rfl]
    show _ = some (target.pushTokens (rowTokens rows[0] ++ _))
    rw [pushTokens_append]
    cases target.pushTokens (rowTokens rows[0]) with
    | error refusal => rfl
    | ok target => exact htail target _ (by omega)

/-- The snapshot of the primary screen is made of the logical content. -/
theorem snapshot_eq {promise : Promise} {dimensions : Dimensions} {terminal : Terminal}
    (hprimary : terminal.primary.Sound promise dimensions) (hhistory : terminal.scrollback.Inv)
    (hactive : terminal.modes.alternateScreen = false) {start : SnapshotAccumulator}
    (hstart : start.bytes = 0) :
    ∃ lines, terminal.logicalContent = some lines ∧ terminal.snapshotWithAccumulator start =
      some ((start.pushTokens (lineTokens lines)).map fun text =>
        ⟨text.text, .primary, terminal.scrollback.evictedLines⟩) := by
  obtain ⟨rows, hshows⟩ := hprimary.screen.shows
  obtain ⟨n, hn, hle, hcursor, -, -⟩ := BufferState.contentRows_of_shows hshows
    (by rw [hprimary.dims]; exact hprimary.cursor.2)
  have htake : rows.take n ≠ [] := ne_nil_of_length_pos (by rw [length_take]; omega)
  refine ⟨logicalLines (Scrollback.allRows terminal.scrollback.lines ++ rows.take n), ?_, ?_⟩
  · rw [logicalContent, BufferState.content, hn, hshows.toRows]
    rfl
  rw [snapshotWithAccumulator, ← separated_rowTokens, SoftWrap.separated_append _ _ htake, pushTokens_append]
  have hpush := pushHistory_eq hhistory.lines_ok start
  cases hhist : start.pushTokens (SoftWrap.terminated rowTokens
      ScreenRow.softWrapped none (Scrollback.allRows terminal.scrollback.lines)) with
  | error refusal =>
    rw [hhist] at hpush
    rw [hpush]
    rfl
  | ok text =>
    rw [hhist] at hpush
    rw [hpush]
    -- no newline is due before the first row of the screen
    have hfirst : text.breakBefore (openEnd terminal.scrollback.lines) 0 = .ok text := by
      refine if_neg ?_
      rintro ⟨hclosed, hpending⟩
      have hclosed : openEnd terminal.scrollback.lines = false := by simpa using hclosed
      rcases hpending with hzero | ⟨hbytes, htrailing⟩
      · exact absurd hzero (Nat.lt_irrefl 0)
      by_cases hnil : terminal.scrollback.lines = []
      · rw [hnil] at hhist
        rw [← Except.ok.inj hhist, hstart] at hbytes
        exact absurd hbytes (Nat.lt_irrefl 0)
      · have := pushHistory_trailing hpush hnil hclosed
        rw [this] at htrailing
        cases htrailing
    simp only [Except.map, hactive, Bool.false_eq_true, if_false, bind_eq_bind]
    rw [appendVisibleText_eq hshows hn (by omega) hle, hfirst]
    rfl

end Terminal

end FesTerm
