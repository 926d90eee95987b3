import FesTerm.Core.Proofs.HistoryProofs

/-!
# Runs of scrollback operations

Any sequence of the operations of `Scrollback`, from an empty one with any limit, runs to its end and
keeps the redundant counters in step with the retained lines. The charge respects the limit after
every operation that enforces it. `reflow` does not, since a narrower width needs more row ends, and
neither does pushing no row at all.
-/

namespace FesTerm

open Checked

variable [Platform]

/-- The mutating operations of `Scrollback`. -/
inductive HistoryOp where
  | pushRows (rows : List ScreenRow)
  | setLimitBytes (limitBytes : ByteLimit)
  | reflow (columns : Nat)
  | splitOffTail (rows : Nat)
  | clear

/-- What an operation makes of the history. -/
def HistoryOp.run (sb : Scrollback) : HistoryOp → Option Scrollback
  | pushRows rows => sb.pushRows rows
  | setLimitBytes limitBytes => sb.setLimitBytes limitBytes
  | reflow columns => some (sb.reflow columns)
  | splitOffTail rows => (sb.splitOffTail rows).map Prod.fst
  | clear => some sb.clear

/-- The operations after which the charge is within the limit. -/
def HistoryOp.Bounds : HistoryOp → Prop
  | pushRows rows => rows ≠ []
  | reflow _ => False
  | setLimitBytes _ | splitOffTail _ | clear => True

namespace Scrollback

/-- Operations in order; none where one panics. -/
def run (sb : Scrollback) (ops : List HistoryOp) : Option Scrollback := ops.foldlM HistoryOp.run sb

omit [Platform] in
/-- The counters of a scrollback agree with its lines. -/
structure Consistent (sb : Scrollback) : Prop where
  starts_len : sb.lineRowStarts.length = sb.lines.length
  starts : ∀ i < sb.lines.length,
    sb.lineRowStarts[i]? = some (sb.contentRowOrigin + totalRows (sb.lines.take i))
  screen : sb.screenRowOrigin = sb.contentRowOrigin + totalRows sb.lines
  charged : sb.chargedBytes = totalCharge sb.lines
  rows : ∀ line ∈ sb.lines, 1 ≤ line.physicalRows ∧ line.rowEnds.length = line.physicalRows ∧
    line.rowEnds.Pairwise (· ≤ ·) ∧ line.rowEnds.getLast? = some line.cells.length
  breaks : ∀ line ∈ sb.lines.dropLast, line.hardBreak = true
  ids : (sb.lines.map (·.id)).Nodup

variable {sb : Scrollback}

theorem Inv.consistent (h : sb.Inv) : sb.Consistent where
  starts_len := by rw [h.starts, length_rowStarts]
  starts i hi := by rw [h.starts, getElem?_rowStarts _ _ hi]
  screen := h.screen
  charged := h.charged
  rows line hl :=
    have hok := h.lines_ok line hl
    ⟨hok.rows_pos, hok.ends_len, hok.ends_mono, hok.ends_last⟩
  breaks := h.breaks
  ids := h.ids_nodup

theorem inv_new (limitBytes : ByteLimit) : (new limitBytes).Inv where
  lines_ok := by simp [new]
  starts := rfl
  charged := rfl
  breaks := by simp [new]
  ids_nodup := by simp [new]
  ids_lt := by simp [new]
  active_lt := by simp [new]
  screen := rfl
  unlimited_or_empty _ := rfl

theorem Inv.run_op (h : sb.Inv) (op : HistoryOp) :
    ∃ sb', op.run sb = some sb' ∧ sb'.Inv ∧ sb.contentRowOrigin ≤ sb'.contentRowOrigin ∧
      (op.Bounds → sb'.limitBytes.Respects sb'.chargedBytes) := by
  cases op with
  | pushRows rows =>
    obtain ⟨sb', heq, hkept, hresp⟩ := h.pushRows rows
    exact ⟨sb', heq, hkept.inv, hkept.content_le, hresp⟩
  | setLimitBytes limitBytes =>
    obtain ⟨sb', heq, he, hinv⟩ := h.setLimitBytes limitBytes
    exact ⟨sb', heq, hinv, he.content_le, fun _ => he.respects⟩
  | reflow columns =>
    refine ⟨_, rfl, h.reflow columns, ?_, False.elim⟩
    rw [h.reflow_eq]
  | splitOffTail n =>
    obtain ⟨sb', mid, mid', removed, heq, hs, he, rfl, hinv⟩ := h.splitOffTail n
    refine ⟨_, ?_, hinv, ?_, fun _ => he.respects⟩
    · rw [HistoryOp.run, heq]
      rfl
    · have := he.content_le
      rwa [hs.contentRowOrigin] at this
  | clear =>
    refine ⟨_, rfl, sb.clear_inv, ?_, fun _ => respects_zero _⟩
    have := h.screen
    simp only [Scrollback.clear]
    omega

theorem Inv.run (h : sb.Inv) (ops : List HistoryOp) :
    ∃ sb', sb.run ops = some sb' ∧ sb'.Inv := by
  induction ops generalizing sb with
  | nil => exact ⟨sb, rfl, h⟩
  | cons op ops ih =>
    obtain ⟨mid, heq, hinv, -, -⟩ := h.run_op op
    obtain ⟨sb', heq', hinv'⟩ := ih hinv
    refine ⟨sb', ?_, hinv'⟩
    rw [Scrollback.run, List.foldlM_cons, heq]
    exact heq'

/-- Every run of operations succeeds and leaves the counters consistent, and every further operation
keeps them so, without moving the content origin back and within the limit if it enforces it. -/
theorem run_consistent (limitBytes : ByteLimit) (ops : List HistoryOp) :
    ∃ sb, (new limitBytes).run ops = some sb ∧ sb.Consistent ∧
      ∀ op : HistoryOp, ∃ sb', op.run sb = some sb' ∧ sb'.Consistent ∧
        sb.contentRowOrigin ≤ sb'.contentRowOrigin ∧
        (op.Bounds → sb'.limitBytes.Respects sb'.chargedBytes) := by
  obtain ⟨sb, heq, hinv⟩ := (inv_new limitBytes).run ops
  refine ⟨sb, heq, hinv.consistent, fun op => ?_⟩
  obtain ⟨sb', heq', hinv', hcontent, hresp⟩ := hinv.run_op op
  exact ⟨sb', heq', hinv'.consistent, hcontent, hresp⟩

omit [Platform] in
/-- A line that fills the limit exactly exceeds it when it is rewrapped to a narrower width, and a
push of no row leaves it so. -/
theorem run_pushRows_nil_over_limit :
    letI := Platform.reference
    ((new (some 472)).run [.pushRows [⟨List.replicate 4 blankCell, false⟩], .reflow 2,
      .pushRows []]).map (fun sb => sb.limitBytes.exceededBy sb.chargedBytes) = some true := by
  decide

end Scrollback

end FesTerm
