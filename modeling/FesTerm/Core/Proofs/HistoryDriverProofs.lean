import FesTerm.Core.Proofs.HistoryRecoveryProofs

/-!
# The scrollback as the terminal drives it

A terminal retains rows of its own width, changes the limit, clears, and resizes: it lifts the limit,
folds the screen into the scrollback, rewraps when the width changes, splits the new screen back off
and restores the limit. `Driven` collects the scrollbacks these moves reach.

The record of an oversize line is right as long as the line it names is retained. Two steps can lose
that line and keep the record: trimming it to no row at all (`lostAt`), and splitting it off whole.
`HistoryMove.keeps` excludes them.
-/

namespace FesTerm

open Checked List Option

variable [Platform]

/-- The charge of the last physical row of a line on its own. -/
def LogicalLine.lastRowCharge (line : LogicalLine) : Nat :=
  compactLineCharge (line.rowCells (line.physicalRows - 1)).length 1
    (ownedCharge (line.rowCells (line.physicalRows - 1)))

/-- Enforcing the limit trims this line, still open, to no row at all. -/
def LogicalLine.lostAt (line : LogicalLine) (limitBytes : ByteLimit) : Bool :=
  !line.hardBreak && limitBytes.exceededBy line.chargedBytes &&
    (line.physicalRows == 1 || decide (limitBytes.half < line.lastRowCharge))

namespace Scrollback

/-- The last line with a row appended to it. -/
def appended (sb : Scrollback) (row : ScreenRow) : Option LogicalLine :=
  let sb := if sb.lines.getLast?.all (·.hardBreak) then sb.openLine else sb
  sb.lines.getLast?.map fun line =>
    appendRow sb.limitBytes (sb.activeOversizeLine.map Prod.fst) line row

def keepsOpenLine (sb : Scrollback) (limitBytes : ByteLimit) : Bool :=
  sb.lines.getLast?.all fun line => !line.lostAt limitBytes

/-- Pushing the row does not lose the line it continues. -/
def keepsRow (sb : Scrollback) (row : ScreenRow) : Bool :=
  sb.limitBytes == some 0 || !row.softWrapped ||
    (sb.appended row).all fun line => !line.lostAt sb.limitBytes

def keepsRows (sb : Scrollback) : List ScreenRow → Bool
  | [] => true
  | row :: rows => sb.keepsRow row && (sb.pushRow row).all fun sb => sb.keepsRows rows

/-- The part of a resize before the new screen is split off. -/
def combine (sb : Scrollback) (oldColumns columns : Nat) (screen : List ScreenRow) : Option Scrollback := do
  let combined ← sb.setLimitBytes none
  let combined ← combined.pushRows screen
  return if columns ≠ oldColumns then combined.reflow columns else combined

def resize (sb : Scrollback) (oldColumns : Nat) (dimensions : Dimensions)
    (screen : List ScreenRow) : Option Scrollback := do
  let combined ← sb.combine oldColumns dimensions.columns screen
  let (kept, _) ← combined.splitOffTail dimensions.rows
  kept.setLimitBytes sb.limitBytes

def keepsSplit (sb : Scrollback) (rows : Nat) : Bool :=
  sb.activeOversizeLine.isNone || decide (rows < sb.totalPhysicalRows)

end Scrollback

/-- What a terminal does to its scrollback. -/
inductive HistoryMove where
  | retain (rows : List ScreenRow)
  | setLimit (limitBytes : ByteLimit)
  | clear
  | resize (dimensions : Dimensions) (screen : List ScreenRow)

namespace HistoryMove

/-- A move on a scrollback and the width of the screen before it. -/
def run (sb : Scrollback) (columns : Nat) : HistoryMove → Option (Scrollback × Nat)
  | retain rows => do return (← sb.pushRows rows, columns)
  | setLimit limitBytes => do return (← sb.setLimitBytes limitBytes, columns)
  | clear => some (sb.clear, columns)
  | resize dimensions screen => do return (← sb.resize columns dimensions screen, dimensions.columns)

/-- The rows of a move fit the screen and are paired. -/
def Fits (columns : Nat) : HistoryMove → Prop
  | retain rows => ∀ row ∈ rows, RowOk columns row.cells
  | resize _ screen => ∀ row ∈ screen, RowOk columns row.cells
  | setLimit _ | clear => True

/-- The move loses no open line. -/
def keeps (sb : Scrollback) (columns : Nat) : HistoryMove → Bool
  | retain rows => sb.keepsRows rows
  | setLimit limitBytes => sb.keepsOpenLine limitBytes
  | clear => true
  | resize dimensions screen =>
    (sb.combine columns dimensions.columns screen).all fun combined =>
      combined.keepsSplit dimensions.rows &&
        (combined.splitOffTail dimensions.rows).all fun split => split.1.keepsOpenLine sb.limitBytes

end HistoryMove

/-- The scrollbacks, with their widths, that a terminal reaches without losing an open line. -/
inductive Driven : Scrollback → Nat → Prop
  | new (limitBytes : ByteLimit) (columns : Nat) : Driven (Scrollback.new limitBytes) columns
  | step {sb sb' : Scrollback} {columns columns' : Nat} (move : HistoryMove) (h : Driven sb columns)
      (hfits : move.Fits columns) (hkeeps : move.keeps sb columns = true)
      (hrun : move.run sb columns = some (sb', columns')) : Driven sb' columns'

namespace Scrollback

/-- A recorded oversize line is the only line, still open, at the offset recorded for it. -/
def ActiveOk (sb : Scrollback) : Prop :=
  ∀ active ∈ sb.activeOversizeLine, ∃ line, sb.lines = [line] ∧ line.id = active.1 ∧
    line.trimmedOffset = active.2 ∧ line.hardBreak = false

/-- What the recovery validator asks of a scrollback. -/
structure Recoverable (columns : Nat) (sb : Scrollback) : Prop extends Inv sb where
  respects : sb.limitBytes.Respects sb.chargedBytes
  rows_ok : ∀ row ∈ allRows sb.lines, RowOk columns row.cells
  active : sb.ActiveOk

/-! ## The validator -/

variable {columns : Nat} {sb : Scrollback}

theorem tallyLines_eq (sb : Scrollback) (lines : List LogicalLine)
    (hlines : ∀ line ∈ lines, line.validateRecoveryState columns = .ok ()) (tally : Tally) :
    ∃ active, sb.tallyLines columns lines tally = .ok {
      expectedStarts := tally.expectedStarts ++ rowStarts tally.cursor lines
      cursor := tally.cursor + totalRows lines
      totalCharged := tally.totalCharged + totalCharge lines
      activeLine := active } := by
  induction lines generalizing tally with
  | nil => exact ⟨tally.activeLine, by simp [tallyLines]⟩
  | cons line lines ih =>
    rw [tallyLines, hlines line (by simp)]
    obtain ⟨active, heq⟩ := ih (fun l hl => hlines l (by simp [hl])) {
      expectedStarts := tally.expectedStarts ++ [tally.cursor]
      cursor := tally.cursor + line.physicalRows
      totalCharged := tally.totalCharged + line.chargedBytes
      activeLine :=
        if some line.id = sb.activeOversizeLine.map Prod.fst then some line else tally.activeLine }
    exact ⟨active, by simp only [heq]; simp [Nat.add_assoc]⟩

theorem Recoverable.line_validate (h : sb.Recoverable columns) :
    ∀ line ∈ sb.lines, line.validateRecoveryState columns = .ok () := by
  intro line hl
  refine (h.lines_ok line hl).validate fun row hrow => h.rows_ok row ?_
  exact mem_flatMap.mpr ⟨line, hl, hrow⟩

theorem Recoverable.validate (h : sb.Recoverable columns) : sb.validateRecoveryState columns = .ok () := by
  have hlen : sb.lineRowStarts.length = sb.lines.length := by rw [h.starts, length_rowStarts]
  have hresp := h.respects
  unfold Scrollback.validateRecoveryState
  rw [if_neg (by simp [hlen])]
  cases hactive : sb.activeOversizeLine with
  | none =>
    obtain ⟨active, htally⟩ := sb.tallyLines_eq sb.lines h.line_validate ⟨[], sb.contentRowOrigin, 0, none⟩
    rw [htally]
    simp [← h.starts, ← h.screen, ← h.charged, show sb.limitBytes.exceededBy sb.chargedBytes = false
      from hresp]
  | some active =>
    obtain ⟨line, hlines, hid, hoff, -⟩ := h.active active hactive
    have hvalid := h.line_validate line (by rw [hlines]; simp)
    have hstarts := h.starts
    have hscreen := h.screen
    have hcharged := h.charged
    rw [hlines] at hstarts hscreen hcharged ⊢
    simp only [rowStarts_cons, rowStarts_nil, totalRows_cons, totalRows_nil, totalCharge_cons,
      totalCharge_nil, Nat.add_zero] at hstarts hscreen hcharged
    simp only [tallyLines, hvalid, hactive, map_some, hid, if_true, Nat.zero_add, nil_append]
    simp [hstarts, hscreen, ← hcharged, hoff, show sb.limitBytes.exceededBy sb.chargedBytes = false
      from hresp]

/-! ## Steps -/

theorem lastRowCharge_eq {line : LogicalLine} (h : line.Ok) :
    (line.dropRows (line.physicalRows - 1)).chargedBytes = line.lastRowCharge := by
  have hpos := h.rows_pos
  have hlen := h.length_rowCells (i := line.physicalRows - 1) (by omega)
  have hcells : line.rowCells (line.physicalRows - 1) =
      line.cells.drop (line.rowStart (line.physicalRows - 1)) := by
    unfold LogicalLine.rowCells
    rw [show line.physicalRows - 1 + 1 = line.physicalRows by omega, h.rowStart_all,
      take_of_length_le (by simp)]
  have howned := ownedCharge_take_add_drop line.cells (line.rowStart (line.physicalRows - 1))
  unfold LogicalLine.lastRowCharge
  simp only [LogicalLine.dropRows, LogicalLine.recalculateCharge, h.ends_len, h.owned, hcells,
    length_drop]
  congr 1
  · omega
  · omega

/-- A line that is not lost keeps the record right when the limit is enforced. -/
theorem EnforcedTo.activeOk {sb' : Scrollback} (h : sb.Layout) (ha : sb.ActiveOk)
    (hk : sb.keepsOpenLine sb.limitBytes = true) (he : EnforcedTo sb sb') : sb'.ActiveOk := by
  have henf := he.enforced
  unfold ActiveOk
  generalize sb'.lines = lines, sb'.activeOversizeLine = active at henf
  cases henf with
  | evicted j hj hbreak =>
    intro a hactive
    obtain ⟨line, hlines, hid, hoff, hopen⟩ := ha a hactive
    rw [hlines] at hbreak hj
    have hj0 : j = 0 := by
      rcases j with - | j
      · rfl
      · have := hbreak line (by simp)
        rw [hopen] at this
        cases this
    subst hj0
    exact ⟨line, by simpa using hlines, hid, hoff, hopen⟩
  | trimmed line k hlast hopen hover hk0 hk =>
    intro a hactive
    obtain rfl := mem_some.mp hactive
    exact ⟨line.dropRows k, rfl, rfl, rfl, hopen⟩
  | lost line hlast hopen hover hsmall =>
    exfalso
    obtain ⟨before, hlines⟩ := getLast?_eq_some_iff.mp hlast
    have hok := h.lines_ok line (by rw [hlines]; simp)
    have hpos := hok.rows_pos
    simp only [keepsOpenLine, hlast, all_some, LogicalLine.lostAt, hopen, hover, Bool.not_false,
      Bool.true_and, Bool.not_or, Bool.and_eq_true, Bool.not_eq_true', beq_eq_false_iff_ne,
      decide_eq_false_iff_not] at hk
    have := hsmall (line.physicalRows - 1) (by omega) (by omega)
    rw [lastRowCharge_eq hok] at this
    exact hk.2 this

theorem keepsOpenLine_none (sb : Scrollback) : sb.keepsOpenLine none = true := by
  unfold keepsOpenLine
  cases sb.lines.getLast? <;> simp [LogicalLine.lostAt, ByteLimit.exceededBy]

theorem Recoverable.enforced {sb' : Scrollback} (h : sb.Layout)
    (hscreen : sb.screenRowOrigin = sb.contentRowOrigin + totalRows sb.lines)
    (hrows : ∀ row ∈ allRows sb.lines, RowOk columns row.cells) (ha : sb.ActiveOk)
    (hk : sb.keepsOpenLine sb.limitBytes = true) (he : EnforcedTo sb sb') : sb'.Recoverable columns := by
  obtain ⟨dropped, hdrop⟩ := he.allRows_suffix h
  exact {
    toInv := he.inv hscreen
    respects := he.respects
    rows_ok := fun row hrow => hrows row (by rw [hdrop]; simp [hrow])
    active := he.activeOk h ha hk }

theorem Recoverable.setLimitBytes (h : sb.Recoverable columns)
    (limitBytes : ByteLimit) (hk : sb.keepsOpenLine limitBytes = true) :
    ∃ sb', sb.setLimitBytes limitBytes = some sb' ∧ sb'.Recoverable columns ∧
      sb'.limitBytes = limitBytes := by
  obtain ⟨sb', heq, he, -⟩ := h.toInv.setLimitBytes limitBytes
  exact ⟨sb', heq, Recoverable.enforced (h.withLimit limitBytes) h.screen h.rows_ok h.active hk he,
    he.limitBytes⟩

theorem Opens.appended_eq {before : List LogicalLine} {line : LogicalLine}
    {nextId : Nat} {active : Option (Nat × Nat)} (ho : Opens sb before line nextId active) (row : ScreenRow) :
    sb.appended row = some (appendRow sb.limitBytes (active.map Prod.fst) line row) := by
  unfold appended
  cases ho with
  | continued _ _ hlines hopen => simp [hlines, hopen]
  | resumed id off hlines hactive => simp [hlines, hactive, openLine]
  | fresh hbreaks hactive =>
    have hall : sb.lines.getLast?.all (·.hardBreak) = true := by
      cases hlast : sb.lines.getLast? with
      | none => rfl
      | some line => exact hbreaks line (mem_of_getLast? hlast)
    rw [if_pos hall]
    by_cases hnil : sb.lines = []
    · simp [openLine, hnil, hactive hnil]
    · simp [openLine, hnil]

theorem Recoverable.pushRow (h : sb.Recoverable columns)
    {row : ScreenRow} (hrow : RowOk columns row.cells) (hk : sb.keepsRow row = true) :
    ∃ sb', sb.pushRow row = some sb' ∧ sb'.Recoverable columns ∧ sb'.limitBytes = sb.limitBytes := by
  obtain ⟨sb', heq, hp⟩ := h.toInv.pushRow row
  obtain ⟨hkept, hresp⟩ := hp.kept h.toInv
  refine ⟨sb', heq, ?_, hkept.limitBytes⟩
  cases hp with
  | unretained hzero =>
    have hnil := h.unlimited_or_empty hzero
    refine ⟨hkept.inv, hresp, by simp [hnil, allRows], fun a ha => ?_⟩
    simp only at ha
    split at ha
    · cases ha
    · obtain ⟨line, hlines, -⟩ := h.active a ha
      rw [hnil] at hlines
      cases hlines
  | grown before line nextId active hlimit ho mid he =>
    have hrows : ∀ r ∈ allRows (sb.grow before line nextId active row).lines,
        RowOk columns r.cells := by
      intro r hr
      rw [ho.allRows_grow h.toInv row] at hr
      rcases mem_append.mp hr with hr | hr
      · exact h.rows_ok r hr
      · rw [mem_singleton.mp hr]
        exact hrow
    have hmid := hkept.inv
    by_cases hsoft : row.softWrapped = true
    · simp only [hsoft, Bool.not_true, Bool.false_eq_true, if_false]
      obtain ⟨c, r, hshape, -, -⟩ := LogicalLine.appendRow_shape line sb.limitBytes
        (active.map Prod.fst) row
      -- a recorded line is the one the row continues
      have hactive : (sb.grow before line nextId active row).ActiveOk := by
        intro a ha
        cases ho with
        | continued _ _ hlines hopen =>
          obtain ⟨line', hlines', hid, hoff, -⟩ := h.active a ha
          rw [hlines] at hlines'
          obtain ⟨rfl, rfl⟩ : before = [] ∧ line = line' := by
            cases before with
            | nil => simpa using hlines'
            | cons b before => simp at hlines'
          refine ⟨_, rfl, ?_, ?_, ?_⟩
          · rw [hshape]; exact hid
          · rw [hshape]; exact hoff
          · rw [hshape]; simp [LogicalLine.recalculateCharge, hsoft]
        | resumed id off hlines hactive =>
          obtain ⟨line', hlines', -⟩ := h.active a ha
          rw [hlines] at hlines'
          cases hlines'
        | fresh => cases ha
      have hkeep : (sb.grow before line nextId active row).keepsOpenLine sb.limitBytes = true := by
        simp only [keepsRow, hsoft, Bool.not_true, Bool.or_false, Bool.or_eq_true, beq_iff_eq,
          ho.appended_eq, all_some] at hk
        simp only [keepsOpenLine, grow, getLast?_concat, all_some]
        rcases hk with hk | hk
        · exact absurd hk hlimit
        · exact hk
      exact Recoverable.enforced (ho.grow_layout h.toInv row) (ho.grow_screen h.toInv row) hrows
        hactive hkeep he
    · rw [Bool.not_eq_true] at hsoft
      simp only [hsoft, Bool.not_false, if_true] at hmid hresp ⊢
      obtain ⟨dropped, hdrop⟩ := he.allRows_suffix (ho.grow_layout h.toInv row)
      exact ⟨hmid, hresp, fun r hr => hrows r (by rw [hdrop]; simp [show r ∈ allRows mid.lines from hr]),
        by rintro _ ⟨⟩⟩

theorem Recoverable.pushRows (h : sb.Recoverable columns)
    {rows : List ScreenRow} (hrows : ∀ row ∈ rows, RowOk columns row.cells) (hk : sb.keepsRows rows = true) :
    ∃ sb', sb.pushRows rows = some sb' ∧ sb'.Recoverable columns ∧
      sb'.limitBytes = sb.limitBytes := by
  induction rows generalizing sb with
  | nil => exact ⟨sb, rfl, h, rfl⟩
  | cons row rows ih =>
    simp only [keepsRows, Bool.and_eq_true] at hk
    obtain ⟨mid, heq, hmid, hlimit⟩ := h.pushRow (hrows row (by simp)) hk.1
    have hk' := hk.2
    rw [heq, all_some] at hk'
    obtain ⟨sb', heq', hsb', hlimit'⟩ := ih hmid (fun r hr => hrows r (by simp [hr])) hk'
    refine ⟨sb', ?_, hsb', hlimit'.trans hlimit⟩
    rw [Scrollback.pushRows, foldlM_cons, heq]
    exact heq'

theorem keepsRow_none (hlimit : sb.limitBytes = none) (row : ScreenRow) : sb.keepsRow row = true := by
  simp only [keepsRow, hlimit, Bool.or_eq_true]
  right
  cases sb.appended row <;> simp [LogicalLine.lostAt, ByteLimit.exceededBy]

theorem keepsRows_none (h : sb.Inv) (hlimit : sb.limitBytes = none)
    (rows : List ScreenRow) : sb.keepsRows rows = true := by
  induction rows generalizing sb with
  | nil => rfl
  | cons row rows ih =>
    obtain ⟨mid, heq, hp⟩ := h.pushRow row
    obtain ⟨hkept, -⟩ := hp.kept h
    rw [keepsRows, keepsRow_none hlimit, heq]
    exact ih hkept.inv (hkept.limitBytes.trans hlimit)

theorem Recoverable.reflow {old : Nat} (h : sb.Recoverable old)
    (hcols : 2 ≤ columns) (hlimit : sb.limitBytes = none) : (sb.reflow columns).Recoverable columns := by
  have hinv := h.toInv.reflow columns
  rw [h.reflow_eq] at hinv ⊢
  refine ⟨hinv, by simp only [hlimit]; rfl, ?_, ?_⟩
  · intro row hrow
    obtain ⟨line', hline', hrow⟩ := mem_flatMap.mp hrow
    obtain ⟨line, hline, rfl⟩ := List.mem_map.mp hline'
    refine (h.lines_ok line hline).reflow_rows hcols (fun r hr => h.rows_ok r ?_) row hrow
    exact mem_flatMap.mpr ⟨line, hline, hr⟩
  · intro a ha
    obtain ⟨line, hlines, hid, hoff, hopen⟩ := h.active a ha
    exact ⟨line.reflow columns, by simp [hlines], hid, hoff, hopen⟩

theorem Recoverable.splitOffTail (h : sb.Recoverable columns)
    (hlimit : sb.limitBytes = none) {n : Nat} (hk : sb.keepsSplit n = true) :
    ∃ sb' removed, sb.splitOffTail n = some (sb', removed) ∧ sb'.Recoverable columns := by
  obtain ⟨sb', mid, mid', removed, heq, hs, he, rfl, hinv⟩ := h.toInv.splitOffTail n
  refine ⟨_, removed, heq, ?_⟩
  have hmidLimit : mid.limitBytes = none := hs.limitBytes.trans hlimit
  have hactive : mid.ActiveOk := by
    intro a ha
    rw [hs.active] at ha
    obtain ⟨line, hlines, hid, hoff, hopen⟩ := h.active a ha
    have hlt : n < totalRows sb.lines := by
      have hscreen := h.screen
      rw [keepsSplit, totalPhysicalRows, show sb.activeOversizeLine = some a from ha,
        isNone_some, Bool.false_or, decide_eq_true_eq] at hk
      omega
    have hsplit := hs.lines
    have hrows := congrArg List.length hs.rows
    rw [length_append, length_allRows, length_allRows, hs.count, Nat.min_eq_left
      (Nat.le_of_lt hlt)] at hrows
    rw [hlines] at hsplit hlt hrows
    generalize mid.lines = kept at hsplit hrows ⊢
    cases hsplit with
    | whole i =>
      cases i with
      | zero => simp at hrows hlt; omega
      | succ i => exact ⟨line, by simp, hid, hoff, hopen⟩
    | cut i line' k hi hk0 hk =>
      cases i with
      | zero =>
        obtain rfl : line = line' := by simpa using hi
        exact ⟨line.takeRows k, by simp, hid, hoff, rfl⟩
      | succ i => simp at hi
  obtain ⟨dropped, hdrop⟩ := he.allRows_suffix hs.layout
  refine ⟨hinv, he.respects, fun row hrow => h.rows_ok row ?_, ?_⟩
  · rw [hs.rows, hdrop]
    simp [show row ∈ allRows mid'.lines from hrow]
  · have := he.activeOk hs.layout hactive (by rw [hmidLimit]; exact keepsOpenLine_none mid)
    exact this

theorem Recoverable.combine {old : Nat} (h : sb.Recoverable old)
    (hcols : 2 ≤ columns) {screen : List ScreenRow} (hrows : ∀ row ∈ screen, RowOk old row.cells) :
    ∃ combined, sb.combine old columns screen = some combined ∧ combined.Recoverable columns ∧
      combined.limitBytes = none := by
  obtain ⟨lifted, hlift, hlifted, hlimit⟩ := h.setLimitBytes none sb.keepsOpenLine_none
  obtain ⟨folded, hfold, hfolded, hlimit'⟩ := hlifted.pushRows hrows
    (keepsRows_none hlifted.toInv hlimit screen)
  rw [hlimit] at hlimit'
  unfold Scrollback.combine
  rw [hlift]
  simp only [bind_eq_bind, bind_some]
  rw [hfold]
  simp only [bind_some, Option.pure_def]
  by_cases hne : columns ≠ old
  · refine ⟨_, rfl, ?_, ?_⟩
    · rw [if_pos hne]
      exact hfolded.reflow hcols hlimit'
    · rw [if_pos hne, hfolded.reflow_eq]
      exact hlimit'
  · rw [if_neg hne]
    obtain rfl : columns = old := not_not.mp hne
    exact ⟨folded, rfl, hfolded, hlimit'⟩

theorem Recoverable.move (h : sb.Recoverable columns)
    {move : HistoryMove} (hfits : move.Fits columns) (hk : move.keeps sb columns = true) :
    ∃ sb' columns', move.run sb columns = some (sb', columns') ∧ sb'.Recoverable columns' := by
  cases move with
  | retain rows =>
    obtain ⟨sb', heq, hsb', -⟩ := h.pushRows hfits hk
    exact ⟨sb', columns, by simp [HistoryMove.run, heq], hsb'⟩
  | setLimit limitBytes =>
    obtain ⟨sb', heq, hsb', -⟩ := h.setLimitBytes limitBytes hk
    exact ⟨sb', columns, by simp [HistoryMove.run, heq], hsb'⟩
  | clear =>
    exact ⟨_, columns, rfl, sb.clear_inv, respects_zero _, by simp [clear, allRows],
      by simp [ActiveOk, clear]⟩
  | resize dimensions screen =>
    obtain ⟨combined, hcomb, hcombined, hlimit⟩ := h.combine dimensions.two_le_columns hfits
    simp only [HistoryMove.keeps, hcomb, all_some, Bool.and_eq_true] at hk
    obtain ⟨kept, removed, hsplit, hkept⟩ := hcombined.splitOffTail hlimit hk.1
    have hk' := hk.2
    rw [hsplit, all_some] at hk'
    obtain ⟨sb', heq, hsb', -⟩ := hkept.setLimitBytes sb.limitBytes hk'
    refine ⟨sb', dimensions.columns, ?_, hsb'⟩
    simp [HistoryMove.run, Scrollback.resize, hcomb, hsplit, heq]

theorem recoverable_new (limitBytes : ByteLimit) (columns : Nat) : (new limitBytes).Recoverable columns :=
  ⟨inv_new limitBytes, respects_zero _, by simp [new, allRows], by simp [ActiveOk, new]⟩

end Scrollback

theorem Driven.recoverable {sb : Scrollback} {columns : Nat} (h : Driven sb columns) :
    sb.Recoverable columns := by
  induction h with
  | new limitBytes columns => exact Scrollback.recoverable_new limitBytes columns
  | step move h hfits hkeeps hrun ih =>
    obtain ⟨sb', columns', heq, hsb'⟩ := ih.move hfits hkeeps
    rw [hrun] at heq
    cases heq
    exact hsb'

/-- The validator accepts every scrollback that moves reach without losing an open line, its record
of an oversize line names a retained line, and no move is stuck. -/
theorem driven_validate {sb : Scrollback} {columns : Nat} (h : Driven sb columns) :
    sb.validateRecoveryState columns = .ok () ∧
      (∀ active ∈ sb.activeOversizeLine, ∃ line ∈ sb.lines, line.id = active.1 ∧
        line.trimmedOffset = active.2) ∧
      ∀ move : HistoryMove, move.Fits columns → move.keeps sb columns = true →
        (move.run sb columns).isSome = true := by
  have hrec := h.recoverable
  refine ⟨hrec.validate, fun active ha => ?_, fun move hfits hkeeps => ?_⟩
  · obtain ⟨line, hlines, hid, hoff, -⟩ := hrec.active active ha
    exact ⟨line, by rw [hlines]; simp, hid, hoff⟩
  · obtain ⟨sb', columns', heq, -⟩ := hrec.move hfits hkeeps
    rw [heq]
    rfl

def sampleRow : ScreenRow := ⟨[blankCell, blankCell], true⟩

theorem sampleRow_ok : RowOk 2 (sampleRow).cells where
  pairs := .single rfl (.single rfl .nil)
  fits := le_rfl
  text cell hc := by
    have : cell = blankCell := by simpa [sampleRow] using hc
    rw [this]
    exact blankCell_textOk

omit [Platform] in
/-- Three soft-wrapped rows in a limit of two and a bit: the open line is trimmed to its last row and
recorded, and the validator accepts the result. -/
theorem driven_validate_trimmed :
    letI := Platform.reference
    ((Scrollback.new (some 600)).pushRows [sampleRow, sampleRow, sampleRow]).map
        (fun sb => (sb.activeOversizeLine, (sb.validateRecoveryState 2).isOk)) =
      some (some (0, 4), true) := by
  let _ := Platform.reference
  obtain ⟨sb, hsb⟩ : ∃ sb, (Scrollback.new (some 600)).pushRows [sampleRow, sampleRow, sampleRow] =
      some sb := isSome_iff_exists.mp (by decide)
  have hactive : ((Scrollback.new (some 600)).pushRows [sampleRow, sampleRow, sampleRow]).map
      (·.activeOversizeLine) = some (some (0, 4)) := by decide
  have hdriven : Driven sb 2 := by
    refine Driven.step (.retain [sampleRow, sampleRow, sampleRow]) (Driven.new (some 600) 2) ?_
      (by decide) (by simp [HistoryMove.run, hsb])
    intro row hrow
    have : row = sampleRow := by simpa using hrow
    rw [this]
    exact sampleRow_ok
  rw [hsb, map_some, some.injEq] at hactive
  rw [hsb, map_some, hactive, (driven_validate hdriven).1]
  rfl

omit [Platform] in
/-- Dropping the limit to nothing while a line is open loses the line but keeps its record, and the
validator refuses the scrollback. -/
theorem validate_lost_line :
    letI := Platform.reference
    ((Scrollback.new none).run [.pushRows [sampleRow], .setLimitBytes (some 0)]).map
        (fun sb => (sb.activeOversizeLine, sb.lines, (sb.validateRecoveryState 2).isOk)) =
      some (some (0, 2), [], false) := by
  decide

end FesTerm
