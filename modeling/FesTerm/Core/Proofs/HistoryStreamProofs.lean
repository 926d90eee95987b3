import FesTerm.Core.Proofs.HistoryContentProofs

/-!
# History is the end of what was written

Beside a scrollback stands an archive of all that was pushed into it and not taken back since it was last
cleared. However often the lines are laid out anew, what is retained is the end of the archive.
-/

namespace FesTerm

open GreedyWrap List

/-- The cells of rows in order, with a mark where a logical line ends. -/
def stream (rows : List ScreenRow) : List (Option Cell) :=
  rows.flatMap fun row => row.cells.map some ++ if row.softWrapped then [] else [none]

theorem stream_append (rows rows' : List ScreenRow) :
    stream (rows ++ rows') = stream rows ++ stream rows' := flatMap_append

theorem stream_of_wrapped {rows : List ScreenRow} (h : ∀ row ∈ rows, row.softWrapped = true) :
    stream rows = (rows.map (·.cells)).flatten.map some := by
  induction rows with
  | nil => rfl
  | cons row rows ih =>
    have hrow := h row mem_cons_self
    have hrest := ih fun row' hrow' => h row' (mem_cons_of_mem _ hrow')
    rw [stream, flatMap_cons, if_pos hrow, append_nil, ← stream, hrest]
    simp

variable [Platform]

theorem LogicalLine.Ok.stream_screenRows {line : LogicalLine} (h : line.Ok) :
    stream line.screenRows = line.cells.map some ++ if line.hardBreak then [none] else [] := by
  obtain ⟨last, hlast, hwrapped⟩ := h.screenRows_last
  have hrows := dropLast_append_getLast? last hlast
  have hcells := h.cells_eq
  rw [← hrows, map_append, flatten_append] at hcells
  rw [← hrows, stream_append, stream_of_wrapped line.screenRows_wrap, hcells, map_append,
    append_assoc]
  congr 1
  simp only [stream, flatMap_cons, flatMap_nil, hwrapped]
  cases line.hardBreak <;> simp

namespace Scrollback

variable {sb sb' : Scrollback}

def written (sb : Scrollback) : List (Option Cell) := stream (allRows sb.lines)

theorem stream_allRows {lines : List LogicalLine} (hok : ∀ line ∈ lines, line.Ok) :
    stream (allRows lines) =
      lines.flatMap fun line => line.cells.map some ++ if line.hardBreak then [none] else [] := by
  rw [allRows, stream, flatMap_assoc]
  exact flatMap_congr fun line hline => (hok line hline).stream_screenRows

theorem Layout.written_reflow (h : sb.Layout) (columns : Nat) : (sb.reflow columns).written = sb.written := by
  have hok : ∀ line ∈ sb.lines.map (·.reflow columns), line.Ok := by
    intro line hline
    obtain ⟨old, hold, rfl⟩ := List.mem_map.mp hline
    exact (h.lines_ok old hold).reflow columns
  rw [written, written, h.reflow_eq, stream_allRows hok, stream_allRows h.lines_ok, flatMap_map]
  rfl

theorem EnforcedTo.written_suffix (h : sb.Layout) (he : EnforcedTo sb sb') : sb'.written <:+ sb.written := by
  obtain ⟨dropped, hrows⟩ := he.allRows_suffix h
  exact ⟨stream dropped, by rw [written, written, hrows, stream_append]⟩

theorem Pushed.written_suffix {row : ScreenRow} (h : sb.Inv) (hp : Pushed sb row sb') :
    sb'.written <:+ sb.written ++ stream [row] := by
  cases hp with
  | unretained hzero =>
    -- nothing was retained before either
    have hnone : sb.lines = [] := h.unlimited_or_empty hzero
    rw [written, hnone]
    exact nil_suffix
  | grown before line nextId active hlimit ho mid he =>
    have hmid := he.written_suffix (ho.grow_layout h row)
    rw [written, written, ho.allRows_grow h row, stream_append] at hmid
    split <;> exact hmid

theorem Inv.pushRows_suffix (h : sb.Inv) (rows : List ScreenRow) :
    ∃ sb', sb.pushRows rows = some sb' ∧ sb'.Inv ∧ sb'.written <:+ sb.written ++ stream rows := by
  induction rows generalizing sb with
  | nil => exact ⟨sb, rfl, h, by simp [stream]⟩
  | cons row rows ih =>
    obtain ⟨mid, hrow, hp⟩ := h.pushRow row
    obtain ⟨sb', hrows, hinv, hsuffix⟩ := ih (hp.kept h).1.inv
    obtain ⟨dropped, hdropped⟩ := hp.written_suffix h
    refine ⟨sb', ?_, hinv, hsuffix.trans ⟨dropped, ?_⟩⟩
    · rw [Scrollback.pushRows, foldlM_cons, hrow]
      exact hrows
    · rw [← append_assoc, hdropped, append_assoc, ← stream_append]
      rfl

def archived (sb : Scrollback) (archive : List (Option Cell)) : HistoryOp → List (Option Cell)
  | .pushRows rows => archive ++ stream rows
  | .splitOffTail rows =>
    match sb.splitOffTail rows with
    | some (_, removed) => archive.take (archive.length - (stream removed).length)
    | none => archive
  | .clear => []
  | .setLimitBytes _ | .reflow _ => archive

def archiving (state : Scrollback × List (Option Cell)) (op : HistoryOp) :
    Option (Scrollback × List (Option Cell)) :=
  (op.run state.1).map fun sb => (sb, archived state.1 state.2 op)

/-- What is retained is the end of the archive. -/
structure Holds (sb : Scrollback) (archive : List (Option Cell)) : Prop where
  inv : sb.Inv
  held : sb.written <:+ archive

variable {archive : List (Option Cell)}

theorem Holds.taken (h : Holds sb archive) (n : Nat) :
    ∃ sb' removed, sb.splitOffTail n = some (sb', removed) ∧ sb'.Inv ∧
      removed.length = min n (totalRows sb.lines) ∧
      ∃ kept, archive = kept ++ stream removed ∧ sb'.written <:+ kept := by
  obtain ⟨sb', mid, mid', removed, heq, hsplit, he, rfl, hinv⟩ := h.inv.splitOffTail n
  obtain ⟨older, rfl⟩ := h.held
  refine ⟨_, removed, heq, hinv, hsplit.count, older ++ mid.written, ?_, ?_⟩
  · rw [append_assoc, written, written, hsplit.rows, stream_append]
  · exact (he.written_suffix hsplit.layout).trans (suffix_append _ _)

theorem Holds.step (h : Holds sb archive) (op : HistoryOp) :
    Checked.Yields (archiving (sb, archive) op) fun state => Holds state.1 state.2 := by
  cases op with
  | pushRows rows =>
    obtain ⟨sb', heq, hinv, hsuffix⟩ := h.inv.pushRows_suffix rows
    obtain ⟨older, rfl⟩ := h.held
    refine ⟨_, by rw [archiving, HistoryOp.run, heq]; rfl, hinv, hsuffix.trans ⟨older, ?_⟩⟩
    exact (append_assoc ..).symm
  | setLimitBytes limitBytes =>
    obtain ⟨sb', heq, he, hinv⟩ := h.inv.setLimitBytes limitBytes
    refine ⟨_, by rw [archiving, HistoryOp.run, heq]; rfl, hinv, ?_⟩
    exact (he.written_suffix (h.inv.withLimit limitBytes)).trans h.held
  | reflow columns =>
    refine ⟨_, rfl, h.inv.reflow columns, ?_⟩
    rw [h.inv.written_reflow]
    exact h.held
  | splitOffTail n =>
    obtain ⟨sb', removed, heq, hinv, -, kept, rfl, hkept⟩ := h.taken n
    refine ⟨_, by rw [archiving, HistoryOp.run, heq]; rfl, hinv, ?_⟩
    show sb'.written <:+ archived sb _ (.splitOffTail n)
    simp only [archived, heq, length_append, Nat.add_sub_cancel, take_left']
    exact hkept
  | clear => exact ⟨_, rfl, sb.clear_inv, nil_suffix⟩

/-- Every run of operations succeeds, what is retained after it is the end of what was written, and what
can be taken back is the last that was written. -/
theorem history_is_the_end_of_the_archive (limitBytes : ByteLimit) (ops : List HistoryOp) :
    ∃ sb archive, ops.foldlM archiving (new limitBytes, []) = some (sb, archive) ∧
      sb.written <:+ archive ∧
      ∀ n, ∃ sb' removed, sb.splitOffTail n = some (sb', removed) ∧
        removed.length = min n (totalRows sb.lines) ∧
        ∃ kept, archive = kept ++ stream removed ∧ sb'.written <:+ kept := by
  obtain ⟨⟨sb, archive⟩, heq, h⟩ := Checked.foldlM_yields (f := archiving) (l := ops)
    (I := fun state => Holds state.1 state.2) (s := (new limitBytes, []))
    ⟨inv_new limitBytes, nil_suffix⟩ fun _ op _ hstate => hstate.step op
  refine ⟨sb, archive, heq, h.held, fun n => ?_⟩
  obtain ⟨sb', removed, hsplit, -, hcount, hkept⟩ := h.taken n
  exact ⟨sb', removed, hsplit, hcount, hkept⟩

/-- Of the layouts that fit, `reflow` has the fewest rows, and a wider one has no more than a narrower one. -/
theorem history_takes_fewest_rows (limitBytes : ByteLimit) (ops : List HistoryOp) :
    ∃ sb, (new limitBytes).run ops = some sb ∧ ∀ columns,
      (∀ line ∈ sb.lines, ∀ rows : List (List (List Cell)), rows.flatten = LogicalLine.units line.cells →
        (∀ row ∈ rows, Fits List.length (max columns 1) row) → (line.reflow columns).physicalRows ≤ max 1 rows.length) ∧
      ∀ more, (sb.reflow (columns + more)).totalPhysicalRows ≤ (sb.reflow columns).totalPhysicalRows := by
  obtain ⟨sb, heq, h⟩ := (inv_new limitBytes).run ops
  refine ⟨sb, heq, fun columns => ⟨fun line _ rows => line.physicalRows_reflow_le columns, fun more => ?_⟩⟩
  simp only [totalPhysicalRows, h.reflow_eq, Nat.add_sub_cancel_left, totalRows, List.map_map]
  refine sum_le_sum fun line hline => ?_
  have hfits := (LogicalLine.greedy_wrapped (max columns 1) line.cells).fits
  refine (line.physicalRows_reflow_le _ (LogicalLine.flatten_wrapped (max columns 1) line.cells) fun row hrow =>
    (hfits row hrow).imp_left (le_trans · (by omega))).trans
      (max_le ((h.lines_ok line hline).reflow columns).rows_pos ?_)
  show _ ≤ (LogicalLine.wrapRows (max columns 1) line.cells 0 0).length
  rw [LogicalLine.wrapRows_start, length_ends]

end Scrollback

end FesTerm
