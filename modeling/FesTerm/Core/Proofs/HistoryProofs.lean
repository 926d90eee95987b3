import FesTerm.Core.Proofs.HistoryLineProofs

/-!
# The scrollback invariant

`Scrollback.Layout` is the part of the invariant that every intermediate state of an operation keeps:
well-formed lines, row starts and charge in step with the lines, hard breaks everywhere but at the
end, and fresh line ids. `Scrollback.Inv` adds the screen origin, which lags behind while rows are
being split off. Each operation gets one specification; `Enforced` says what enforcing the limit can
do to the lines.
-/

namespace FesTerm

open Checked List

def totalRows (lines : List LogicalLine) : Nat := (lines.map (·.physicalRows)).sum

def totalCharge (lines : List LogicalLine) : Nat := (lines.map (·.chargedBytes)).sum

/-- The row starts of consecutive lines. -/
def rowStarts : Nat → List LogicalLine → List Nat
  | _, [] => []
  | origin, line :: lines => origin :: rowStarts (origin + line.physicalRows) lines

@[simp] theorem totalRows_nil : totalRows [] = 0 := rfl

@[simp] theorem totalRows_cons (line : LogicalLine) (lines : List LogicalLine) :
    totalRows (line :: lines) = line.physicalRows + totalRows lines := rfl

variable (origin : Nat) (lines l l' : List LogicalLine)

@[simp] theorem totalRows_append :
    totalRows (l ++ l') = totalRows l + totalRows l' := by simp [totalRows]

@[simp] theorem totalCharge_nil : totalCharge [] = 0 := rfl

@[simp] theorem totalCharge_cons (line : LogicalLine) (lines : List LogicalLine) :
    totalCharge (line :: lines) = line.chargedBytes + totalCharge lines := rfl

@[simp] theorem totalCharge_append :
    totalCharge (l ++ l') = totalCharge l + totalCharge l' := by simp [totalCharge]

@[simp] theorem rowStarts_nil : rowStarts origin [] = [] := rfl

@[simp] theorem rowStarts_cons (line : LogicalLine) (lines : List LogicalLine) :
    rowStarts origin (line :: lines) = origin :: rowStarts (origin + line.physicalRows) lines := rfl

@[simp] theorem rowStarts_append :
    rowStarts origin (l ++ l') = rowStarts origin l ++ rowStarts (origin + totalRows l) l' := by
  induction l generalizing origin with
  | nil => simp
  | cons line l ih => simp [ih, Nat.add_assoc]

@[simp] theorem length_rowStarts :
    (rowStarts origin lines).length = lines.length := by
  induction lines generalizing origin with
  | nil => rfl
  | cons line lines ih => simp [ih]

theorem getElem?_rowStarts {i : Nat} (hi : i < lines.length) :
    (rowStarts origin lines)[i]? = some (origin + totalRows (lines.take i)) := by
  have hsplit : lines = lines.take i ++ lines.drop i := (take_append_drop i lines).symm
  obtain ⟨line, rest, hdrop⟩ : ∃ line rest, lines.drop i = line :: rest :=
    exists_cons_of_ne_nil (by simpa using hi)
  conv_lhs => rw [hsplit, rowStarts_append, hdrop, rowStarts_cons]
  rw [getElem?_append_right (by rw [length_rowStarts, length_take]; omega)]
  simp [length_take, Nat.min_eq_left (Nat.le_of_lt hi)]

theorem mem_dropLast_of_mem_drop {α : Type} {l : List α} {j : Nat} {x : α}
    (h : x ∈ (l.drop j).dropLast) : x ∈ l.dropLast := by
  rcases Nat.lt_or_ge j l.length with hj | hj
  · rw [dropLast_eq_take, take_drop, length_drop,
      show j + (l.length - j - 1) = l.length - 1 by omega, ← dropLast_eq_take] at h
    exact mem_of_mem_drop h
  · rw [drop_of_length_le hj] at h
    cases h

namespace Scrollback

variable [Platform]

/-- What every step of an operation keeps. -/
structure Layout (sb : Scrollback) : Prop where
  lines_ok : ∀ line ∈ sb.lines, line.Ok
  starts : sb.lineRowStarts = rowStarts sb.contentRowOrigin sb.lines
  charged : sb.chargedBytes = totalCharge sb.lines
  breaks : ∀ line ∈ sb.lines.dropLast, line.hardBreak = true
  ids_nodup : (sb.lines.map (·.id)).Nodup
  ids_lt : ∀ line ∈ sb.lines, line.id < sb.nextId
  active_lt : ∀ active ∈ sb.activeOversizeLine, active.1 < sb.nextId

/-- The representation invariant of a scrollback between operations. -/
structure Inv (sb : Scrollback) : Prop extends Layout sb where
  screen : sb.screenRowOrigin = sb.contentRowOrigin + totalRows sb.lines
  unlimited_or_empty : sb.limitBytes = some 0 → sb.lines = []

/-! ## Eviction -/

/-- The scrollback without its first `j` lines, as eviction leaves it. -/
def dropLines (sb : Scrollback) (j : Nat) : Scrollback :=
  { sb with
    lines := sb.lines.drop j
    lineRowStarts := sb.lineRowStarts.drop j
    chargedBytes := sb.chargedBytes - totalCharge (sb.lines.take j)
    evictedLines := sb.evictedLines + j
    contentRowOrigin := sb.contentRowOrigin + totalRows (sb.lines.take j) }

omit [Platform] in
/-- Eviction removes complete lines from the front until the rest fits or an open line is in front. -/
theorem evictLoop_eq (sb : Scrollback) (lines : List LogicalLine) (hlines : sb.lines = lines) :
    ∃ j ≤ lines.length, sb.evictLoop lines = sb.dropLines j ∧
      (∀ line ∈ lines.take j, line.hardBreak = true) ∧
      (sb.limitBytes.exceededBy (sb.dropLines j).chargedBytes = true →
        ∀ line ∈ (lines.drop j).head?, line.hardBreak = false) := by
  induction lines generalizing sb with
  | nil =>
    refine ⟨0, le_rfl, ?_, by simp, by simp⟩
    cases sb
    subst hlines
    simp [evictLoop, dropLines]
  | cons line rest ih =>
    rw [evictLoop]
    split
    · rename_i hevict
      obtain ⟨j, hj, heq, hbreak, hopen⟩ := ih { sb with
        lines := rest
        lineRowStarts := sb.lineRowStarts.tail
        chargedBytes := sb.chargedBytes - line.chargedBytes
        evictedLines := sb.evictedLines + 1
        contentRowOrigin := sb.contentRowOrigin + line.physicalRows } rfl
      have hdrop : ({ sb with
          lines := rest
          lineRowStarts := sb.lineRowStarts.tail
          chargedBytes := sb.chargedBytes - line.chargedBytes
          evictedLines := sb.evictedLines + 1
          contentRowOrigin := sb.contentRowOrigin + line.physicalRows } : Scrollback).dropLines j =
          sb.dropLines (j + 1) := by
        simp only [dropLines, hlines, drop_succ_cons, take_succ_cons, totalRows_cons,
          totalCharge_cons, Nat.sub_sub, Nat.add_assoc, Nat.add_comm 1 j, drop_tail]
      refine ⟨j + 1, by simpa using hj, ?_, ?_, ?_⟩
      · rw [← hdrop, ← heq]
      · intro l hl
        rw [take_succ_cons, mem_cons] at hl
        rcases hl with rfl | hl
        · exact hevict.2
        · exact hbreak l hl
      · rw [← hdrop]
        simpa using hopen
    · rename_i hstay
      refine ⟨0, Nat.zero_le _, ?_, by simp, ?_⟩
      · simp [dropLines]
      · intro hover l hl
        have hover' : sb.limitBytes.exceededBy sb.chargedBytes = true := by
          simpa [dropLines] using hover
        obtain rfl : line = l := by simpa using hl
        simpa [hover'] using hstay

variable {sb sb' : Scrollback} {line : LogicalLine} {before : List LogicalLine}

theorem Layout.dropLines (h : sb.Layout) (j : Nat) : (sb.dropLines j).Layout where
  lines_ok line hl := h.lines_ok line (mem_of_mem_drop hl)
  starts := by
    simp only [Scrollback.dropLines, h.starts]
    conv_lhs => rw [← take_append_drop j sb.lines, rowStarts_append]
    rw [drop_append, drop_of_length_le (by rw [length_rowStarts, length_take]; omega), nil_append]
    simp only [length_rowStarts, length_take]
    rcases Nat.le_total j sb.lines.length with hj | hj
    · rw [Nat.min_eq_left hj, Nat.sub_self, drop_zero]
    · rw [drop_of_length_le hj]; simp
  charged := by
    simp only [Scrollback.dropLines, h.charged]
    conv_lhs => rw [← take_append_drop j sb.lines, totalCharge_append]
    simp
  breaks line hl := by
    refine h.breaks line ?_
    exact mem_dropLast_of_mem_drop hl
  ids_nodup := by
    simp only [Scrollback.dropLines, map_drop]
    exact h.ids_nodup.sublist (drop_sublist _ _)
  ids_lt line hl := h.ids_lt line (mem_of_mem_drop hl)
  active_lt := h.active_lt

/-! ## Trimming -/

/-- One round of trimming suffices: it leaves a line within the target, or none of its rows. -/
theorem trimLoop_eq (h : line.Ok) {targetBytes : Nat}
    (hover : targetBytes < line.chargedBytes) (charged : Nat) : ∃ k, 0 < k ∧ k ≤ line.physicalRows ∧
      trimLoop targetBytes line.physicalRows line charged 0 =
        some (line.dropRows k, charged - (line.chargedBytes - (line.dropRows k).chargedBytes), k) ∧
      (k < line.physicalRows → (line.dropRows k).chargedBytes ≤ targetBytes) ∧
      ∀ j, 0 < j → j < k → targetBytes < (line.dropRows j).chargedBytes := by
  obtain ⟨k, hk, htrim, hstop, hgo⟩ := h.trimOldestPhysicalRowsTo_eq targetBytes
  have hpos := h.rows_pos
  have hk0 : 0 < k := by
    rcases Nat.eq_zero_or_pos k with rfl | hk0
    · obtain ⟨-, h0 | hfit⟩ := hstop hpos
      · omega
      · omega
    · exact hk0
  have hfit : k < line.physicalRows → (line.dropRows k).chargedBytes ≤ targetBytes := fun hlt =>
    (LogicalLine.trimStops_iff hk0).mp (hstop hlt)
  refine ⟨k, hk0, hk, ?_, hfit, fun j hj0 hjk => ?_⟩
  · obtain ⟨n, hn⟩ : ∃ n, line.physicalRows = n + 1 := ⟨line.physicalRows - 1, by omega⟩
    -- the second test of the loop fails: the line fits, or it has no row left
    have hdone : ∀ n charged removed, trimLoop targetBytes n (line.dropRows k) charged removed =
        some (line.dropRows k, charged, removed) := by
      intro n charged removed
      cases n with
      | zero => rfl
      | succ n =>
        rw [trimLoop, if_neg]
        rintro ⟨hbig, hrows⟩
        have hrows' : 0 < line.physicalRows - k := hrows
        have := hfit (by omega)
        omega
    rw [hn, trimLoop, if_pos ⟨hover, by omega⟩, htrim]
    simp only [some_bind]
    rw [if_neg (by omega), if_neg (by omega), hdone, Nat.zero_add]
  · have := hgo j hjk
    rw [LogicalLine.trimStops_iff hj0] at this
    omega

/-! ## Enforcing the limit -/

/-- What enforcing the limit can do to the lines and to the record of an oversize line: evict
complete lines, or trim the last line, left alone and still open, or trim it away. -/
inductive Enforced (sb : Scrollback) : List LogicalLine → Option (Nat × Nat) → Prop
  | evicted (j : Nat) (hj : j ≤ sb.lines.length)
      (hbreak : ∀ line ∈ sb.lines.take j, line.hardBreak = true) :
      Enforced sb (sb.lines.drop j) sb.activeOversizeLine
  | trimmed (line : LogicalLine) (k : Nat) (hlast : sb.lines.getLast? = some line)
      (hopen : line.hardBreak = false)
      (hover : sb.limitBytes.exceededBy line.chargedBytes = true)
      (hk0 : 0 < k) (hk : k < line.physicalRows) :
      Enforced sb [line.dropRows k] (some (line.id, line.trimmedOffset + line.rowStart k))
  | lost (line : LogicalLine) (hlast : sb.lines.getLast? = some line)
      (hopen : line.hardBreak = false)
      (hover : sb.limitBytes.exceededBy line.chargedBytes = true)
      (hsmall : ∀ j, 0 < j → j < line.physicalRows →
        sb.limitBytes.half < (line.dropRows j).chargedBytes) :
      Enforced sb [] (some (line.id, line.trimmedOffset + line.cells.length))

/-- The specification of `enforce_limit`. -/
structure EnforcedTo (sb sb' : Scrollback) : Prop where
  enforced : Enforced sb sb'.lines sb'.activeOversizeLine
  layout : sb'.Layout
  respects : sb'.limitBytes.Respects sb'.chargedBytes
  limitBytes : sb'.limitBytes = sb.limitBytes
  nextId : sb'.nextId = sb.nextId
  screenRowOrigin : sb'.screenRowOrigin = sb.screenRowOrigin
  content_le : sb.contentRowOrigin ≤ sb'.contentRowOrigin
  rows : sb'.contentRowOrigin + totalRows sb'.lines = sb.contentRowOrigin + totalRows sb.lines

section

omit [Platform]

variable {limit : ByteLimit}

theorem respects_half {charged n : Nat} (hover : limit.exceededBy n = true)
    (h : charged ≤ limit.half) : limit.Respects charged := by
  cases limit with
  | none => cases hover
  | some n =>
    simp only [ByteLimit.Respects, ByteLimit.exceededBy, ByteLimit.half, decide_eq_false_iff_not] at *
    omega

theorem half_lt_of_exceeded {n : Nat} (hover : limit.exceededBy n = true) :
    limit.half < n := by
  cases limit with
  | none => cases hover
  | some m =>
    simp only [ByteLimit.exceededBy, ByteLimit.half, decide_eq_true_eq] at *
    omega

theorem respects_zero (limit : ByteLimit) : limit.Respects 0 := by
  cases limit <;> simp [ByteLimit.Respects, ByteLimit.exceededBy]

end

theorem Layout.open_front (h : sb.Layout)
    {rest : List LogicalLine} (hl : sb.lines = line :: rest) (hopen : line.hardBreak = false) : rest = [] := by
  cases rest with
  | nil => rfl
  | cons next rest =>
    have := h.breaks line (by rw [hl]; simp)
    rw [hopen] at this
    cases this

theorem Layout.enforceLimit (h : sb.Layout) : ∃ sb', sb.enforceLimit = some sb' ∧ EnforcedTo sb sb' := by
  obtain ⟨j, hj, hevict, hbreak, hopen⟩ := evictLoop_eq sb sb.lines rfl
  have hlay := h.dropLines j
  have hrows : totalRows (sb.lines.take j) + totalRows (sb.lines.drop j) = totalRows sb.lines := by
    rw [← totalRows_append, take_append_drop]
  unfold Scrollback.enforceLimit Scrollback.evictCompleteLines
  rw [hevict]
  simp only
  have hlimit : (sb.dropLines j).limitBytes = sb.limitBytes := rfl
  rw [hlimit]
  by_cases hover : sb.limitBytes.exceededBy (sb.dropLines j).chargedBytes = true
  · rw [if_pos hover]
    cases hrest : sb.lines.drop j with
    | nil =>
      -- nothing is retained, so nothing is charged
      have hzero : (sb.dropLines j).chargedBytes = 0 := by
        rw [hlay.charged]
        simp [Scrollback.dropLines, hrest]
      have := respects_zero sb.limitBytes
      rw [hzero, this] at hover
      cases hover
    | cons line rest =>
      have hlines : (sb.dropLines j).lines = line :: rest := hrest
      have hfront : line.hardBreak = false := hopen hover line (by rw [hrest]; rfl)
      obtain rfl : rest = [] := hlay.open_front hlines hfront
      have hok : line.Ok := hlay.lines_ok line (by rw [hlines]; simp)
      have hcharge : (sb.dropLines j).chargedBytes = line.chargedBytes := by
        rw [hlay.charged, hlines]; simp
      have hstarts : (sb.dropLines j).lineRowStarts = [(sb.dropLines j).contentRowOrigin] := by
        rw [hlay.starts, hlines]; rfl
      have hlast : sb.lines.getLast? = some line := by
        rw [← take_append_drop j sb.lines, hrest]; simp
      rw [hcharge] at hover
      obtain ⟨k, hk0, hk, htrim, hfit, hbig⟩ :=
        trimLoop_eq hok (half_lt_of_exceeded hover) line.chargedBytes
      have hle := hok.charge_dropRows k
      have hkrows : (line.dropRows k).physicalRows = line.physicalRows - k := rfl
      have hid := hlay.ids_lt line (by rw [hlines]; simp)
      rw [hlines]
      simp only
      rw [hcharge, htrim]
      simp only [some_bind]
      rw [if_pos hk0, hstarts]
      rcases Nat.lt_or_ge k line.physicalRows with hlt | hge
      · rw [if_neg (by rw [hkrows]; omega)]
        refine ⟨_, rfl, ?_⟩
        exact {
          enforced := Enforced.trimmed line k hlast hfront hover hk0 hlt
          layout := {
            lines_ok := by
              intro l hl
              obtain rfl := mem_singleton.mp hl
              exact hok.dropRows hlt
            starts := by simp
            charged := by simp; omega
            breaks := by simp
            ids_nodup := by simp
            ids_lt := by
              intro l hl
              obtain rfl := mem_singleton.mp hl
              exact hid
            active_lt := by
              intro a ha
              obtain rfl := Option.mem_some.mp ha
              exact hid }
          respects := by
            refine respects_half hover ?_
            have := hfit hlt
            simp only
            omega
          limitBytes := rfl
          nextId := rfl
          screenRowOrigin := rfl
          content_le := by simp only [Scrollback.dropLines]; omega
          rows := by
            rw [hrest] at hrows
            simp only [totalRows_cons, totalRows_nil] at hrows ⊢
            simp only [Scrollback.dropLines, hkrows]
            omega }
      · obtain rfl : k = line.physicalRows := by omega
        rw [if_pos (by rw [hkrows]; omega)]
        refine ⟨_, rfl, ?_⟩
        have hempty : line.chargedBytes -
            (line.chargedBytes - (line.dropRows line.physicalRows).chargedBytes) -
            (line.dropRows line.physicalRows).chargedBytes = 0 := by omega
        exact {
          enforced := by
            have := Enforced.lost line hlast hfront hover hbig
            rw [← hok.rowStart_all] at this
            exact this
          layout := {
            lines_ok := by simp
            starts := by simp
            charged := hempty
            breaks := by simp
            ids_nodup := by simp
            ids_lt := by simp
            active_lt := by
              intro a ha
              obtain rfl := Option.mem_some.mp ha
              exact hid }
          respects := by
            simp only [hempty]
            exact respects_zero _
          limitBytes := rfl
          nextId := rfl
          screenRowOrigin := rfl
          content_le := by simp only [Scrollback.dropLines]; omega
          rows := by
            rw [hrest] at hrows
            simp only [totalRows_cons, totalRows_nil] at hrows ⊢
            simp only [Scrollback.dropLines]
            omega }
  · rw [if_neg hover]
    refine ⟨_, rfl, ?_⟩
    exact {
      enforced := Enforced.evicted j hj hbreak
      layout := hlay
      respects := by simpa [ByteLimit.Respects, hlimit] using hover
      limitBytes := rfl
      nextId := rfl
      screenRowOrigin := rfl
      content_le := Nat.le_add_right _ _
      rows := by
        simp only [Scrollback.dropLines]
        omega }

theorem Layout.lines_nil (h : sb.Layout) (hr : sb.limitBytes.Respects sb.chargedBytes)
    (hzero : sb.limitBytes = some 0) : sb.lines = [] := by
  cases hl : sb.lines with
  | nil => rfl
  | cons line rest =>
    have hpos := (h.lines_ok line (by rw [hl]; simp)).charge_pos
    rw [hzero, h.charged, hl, totalCharge_cons] at hr
    simp only [ByteLimit.Respects, ByteLimit.exceededBy, decide_eq_false_iff_not] at hr
    omega

theorem EnforcedTo.inv (he : EnforcedTo sb sb')
    (hscreen : sb.screenRowOrigin = sb.contentRowOrigin + totalRows sb.lines) : sb'.Inv where
  toLayout := he.layout
  screen := by rw [he.screenRowOrigin, he.rows, hscreen]
  unlimited_or_empty := he.layout.lines_nil he.respects

theorem Layout.withLimit (h : sb.Layout) (limitBytes : ByteLimit) :
    ({ sb with limitBytes := limitBytes } : Scrollback).Layout :=
  ⟨h.lines_ok, h.starts, h.charged, h.breaks, h.ids_nodup, h.ids_lt, h.active_lt⟩

theorem Inv.setLimitBytes (h : sb.Inv) (limitBytes : ByteLimit) :
    ∃ sb', sb.setLimitBytes limitBytes = some sb' ∧
      EnforcedTo { sb with limitBytes := limitBytes } sb' ∧ sb'.Inv := by
  obtain ⟨sb', heq, he⟩ := (h.withLimit limitBytes).enforceLimit
  exact ⟨sb', heq, he, he.inv h.screen⟩

/-! ## Pushing rows -/

/-- The line a row is appended to, the lines before it, and the id counter and oversize record that
go with it. -/
inductive Opens (sb : Scrollback) :
    List LogicalLine → LogicalLine → Nat → Option (Nat × Nat) → Prop
  | continued (before : List LogicalLine) (line : LogicalLine) (hlines : sb.lines = before ++ [line])
      (hopen : line.hardBreak = false) : Opens sb before line sb.nextId sb.activeOversizeLine
  | resumed (id trimmedOffset : Nat) (hlines : sb.lines = [])
      (hactive : sb.activeOversizeLine = some (id, trimmedOffset)) :
      Opens sb [] (emptyLine id trimmedOffset) sb.nextId sb.activeOversizeLine
  | fresh (hbreaks : ∀ line ∈ sb.lines, line.hardBreak = true)
      (hactive : sb.lines = [] → sb.activeOversizeLine = none) :
      Opens sb sb.lines (emptyLine sb.nextId 0) (sb.nextId + 1) none

/-- The scrollback with a row appended, before the limit is enforced. -/
def grow (sb : Scrollback) (before : List LogicalLine) (line : LogicalLine) (nextId : Nat)
    (active : Option (Nat × Nat)) (row : ScreenRow) : Scrollback :=
  let lines := before ++ [appendRow sb.limitBytes (active.map Prod.fst) line row]
  { sb with
    screenRowOrigin := sb.screenRowOrigin + 1
    lines := lines
    lineRowStarts := rowStarts sb.contentRowOrigin lines
    chargedBytes := totalCharge lines
    nextId := nextId
    activeOversizeLine := active }

section

variable {sb : Scrollback} {before : List LogicalLine} {line : LogicalLine} {nextId : Nat}
  {active : Option (Nat × Nat)}

theorem Opens.hardBreak (ho : Opens sb before line nextId active) : line.hardBreak = false := by
  cases ho with
  | continued _ _ _ hopen => exact hopen
  | resumed | fresh => rfl

theorem Opens.growing (h : sb.Inv) (ho : Opens sb before line nextId active) : line.Growing := by
  cases ho with
  | continued _ _ hlines _ => exact (h.lines_ok line (by rw [hlines]; simp)).growing
  | resumed | fresh => exact LogicalLine.emptyLine_growing _ _

theorem Opens.before_breaks (h : sb.Inv) (ho : Opens sb before line nextId active) :
    ∀ l ∈ before, l ∈ sb.lines ∧ l.hardBreak = true := by
  intro l hl
  cases ho with
  | continued _ _ hlines _ =>
    exact ⟨by rw [hlines]; simp [hl], h.breaks l (by rw [hlines, dropLast_concat]; exact hl)⟩
  | resumed => cases hl
  | fresh hbreaks _ => exact ⟨hl, hbreaks l hl⟩

theorem Opens.rows (ho : Opens sb before line nextId active) :
    totalRows before + line.physicalRows = totalRows sb.lines := by
  cases ho with
  | continued _ _ hlines _ => rw [hlines]; simp
  | resumed id off hlines _ => rw [hlines]; rfl
  | fresh => rfl

theorem Opens.ids (h : sb.Inv) (ho : Opens sb before line nextId active) :
    ((before.map (·.id)) ++ [line.id]).Nodup ∧ (∀ l ∈ before, l.id < nextId) ∧ line.id < nextId ∧
      ∀ a ∈ active, a.1 < nextId := by
  cases ho with
  | continued _ _ hlines _ =>
    have hnodup := h.ids_nodup
    rw [hlines, map_append] at hnodup
    exact ⟨hnodup, fun l hl => h.ids_lt l (by rw [hlines]; simp [hl]),
      h.ids_lt line (by rw [hlines]; simp), h.active_lt⟩
  | resumed id off hlines hactive =>
    exact ⟨by simp, by simp, h.active_lt _ hactive, h.active_lt⟩
  | fresh =>
    refine ⟨?_, fun l hl => (h.ids_lt l hl).trans (Nat.lt_succ_self _), Nat.lt_succ_self _, by simp⟩
    refine nodup_append.mpr ⟨h.ids_nodup, by simp, ?_⟩
    intro a ha b hb
    obtain ⟨l, hl, rfl⟩ := List.mem_map.mp ha
    have := h.ids_lt l hl
    rw [mem_singleton] at hb
    subst hb
    exact Nat.ne_of_lt this

theorem Opens.grow_layout (h : sb.Inv) (ho : Opens sb before line nextId active) (row : ScreenRow) :
    (sb.grow before line nextId active row).Layout := by
  obtain ⟨hnodup, hbefore, hline, hactive⟩ := ho.ids h
  obtain ⟨c, r, hshape, -, -⟩ := LogicalLine.appendRow_shape line sb.limitBytes
    (active.map Prod.fst) row
  have hid : (appendRow sb.limitBytes (active.map Prod.fst) line row).id = line.id := by
    rw [hshape]; rfl
  exact {
    lines_ok := by
      intro l hl
      rcases mem_append.mp hl with hl | hl
      · exact h.lines_ok l (ho.before_breaks h l hl).1
      · rw [mem_singleton.mp hl]
        exact (ho.growing h).appendRow _ _ _
    starts := rfl
    charged := rfl
    breaks := by
      intro l hl
      simp only [grow, dropLast_concat] at hl
      exact (ho.before_breaks h l hl).2
    ids_nodup := by simpa [grow, hid] using hnodup
    ids_lt := by
      intro l hl
      rcases mem_append.mp hl with hl | hl
      · exact hbefore l hl
      · rw [mem_singleton.mp hl, hid]
        exact hline
    active_lt := hactive }

theorem Opens.grow_screen (h : sb.Inv) (ho : Opens sb before line nextId active) (row : ScreenRow) :
    (sb.grow before line nextId active row).screenRowOrigin =
      (sb.grow before line nextId active row).contentRowOrigin +
        totalRows (sb.grow before line nextId active row).lines := by
  obtain ⟨c, r, hshape, -, -⟩ := LogicalLine.appendRow_shape line sb.limitBytes
    (active.map Prod.fst) row
  have hrows : (appendRow sb.limitBytes (active.map Prod.fst) line row).physicalRows =
      line.physicalRows + 1 := by rw [hshape]; rfl
  have := ho.rows
  simp only [grow, h.screen, totalRows_append, totalRows_cons, totalRows_nil, hrows]
  omega

end

/-- What `push_row` can do. -/
inductive Pushed (sb : Scrollback) (row : ScreenRow) : Scrollback → Prop
  | unretained (hzero : sb.limitBytes = some 0) : Pushed sb row
      { sb with
        screenRowOrigin := sb.screenRowOrigin + 1
        contentRowOrigin := sb.screenRowOrigin + 1
        activeOversizeLine := if !row.softWrapped then none else sb.activeOversizeLine }
  | grown (before : List LogicalLine) (line : LogicalLine) (nextId : Nat)
      (active : Option (Nat × Nat)) (hlimit : sb.limitBytes ≠ some 0)
      (ho : Opens sb before line nextId active) (mid : Scrollback)
      (he : EnforcedTo (sb.grow before line nextId active row) mid) :
      Pushed sb row (if !row.softWrapped then { mid with activeOversizeLine := none } else mid)

/-- The two shapes of the state that `push_row` hands to `enforce_limit`. -/
theorem Inv.pushRow_grow (h : sb.Inv) (hlimit : sb.limitBytes ≠ some 0) (row : ScreenRow) :
    ∃ before line nextId active, Opens sb before line nextId active ∧
      sb.pushRow row = (enforceLimit (sb.grow before line nextId active row)).bind fun mid =>
        some (if !row.softWrapped then { mid with activeOversizeLine := none } else mid) := by
  unfold Scrollback.pushRow
  simp only
  rw [if_neg hlimit]
  rcases eq_nil_or_concat sb.lines with hlines | ⟨before, line, hlines⟩
  · -- nothing is retained: the row opens a line, which may continue one that was trimmed away
    rw [hlines]
    simp only [getLast?_nil, Option.all_none, if_true]
    cases hactive : sb.activeOversizeLine with
    | none =>
      refine ⟨sb.lines, emptyLine sb.nextId 0, sb.nextId + 1, none,
        Opens.fresh (by simp [hlines]) (fun _ => hactive), ?_⟩
      simp [openLine, hlines, grow, h.charged, h.starts, h.screen, emptyLine]
    | some active =>
      obtain ⟨id, off⟩ := active
      refine ⟨[], emptyLine id off, sb.nextId, sb.activeOversizeLine, Opens.resumed id off hlines hactive, ?_⟩
      simp [openLine, hlines, hactive, grow, h.charged, h.starts, h.screen, emptyLine]
  · rw [concat_eq_append] at hlines
    have hlast : sb.lines.getLast? = some line := by rw [hlines]; simp
    have hne : sb.lines ≠ [] := by rw [hlines]; simp
    rw [hlast]
    simp only [Option.all_some]
    by_cases hbreak : line.hardBreak = true
    · refine ⟨sb.lines, emptyLine sb.nextId 0, sb.nextId + 1, none, Opens.fresh ?_ ?_, ?_⟩
      · intro l hl
        rw [hlines, mem_append, mem_singleton] at hl
        rcases hl with hl | rfl
        · exact h.breaks l (by rw [hlines, dropLast_concat]; exact hl)
        · exact hbreak
      · exact fun hnil => absurd hnil hne
      · simp [openLine, hbreak, hne, grow, h.charged, h.starts, h.screen, emptyLine]
    · rw [if_neg hbreak]
      refine ⟨before, line, sb.nextId, sb.activeOversizeLine,
        Opens.continued before line hlines (Bool.eq_false_iff.mpr hbreak), ?_⟩
      simp [hlines, grow, h.charged, h.starts]

theorem Inv.pushRow (h : sb.Inv) (row : ScreenRow) : ∃ sb', sb.pushRow row = some sb' ∧ Pushed sb row sb' := by
  by_cases hzero : sb.limitBytes = some 0
  · refine ⟨_, ?_, Pushed.unretained hzero⟩
    simp [Scrollback.pushRow, hzero]
  · obtain ⟨before, line, nextId, active, ho, heq⟩ := h.pushRow_grow hzero row
    obtain ⟨mid, hmid, he⟩ := (ho.grow_layout h row).enforceLimit
    refine ⟨_, ?_, Pushed.grown before line nextId active hzero ho mid he⟩
    rw [heq, hmid]
    rfl

/-- What every push guarantees. -/
structure Kept (sb sb' : Scrollback) : Prop where
  inv : sb'.Inv
  limitBytes : sb'.limitBytes = sb.limitBytes
  content_le : sb.contentRowOrigin ≤ sb'.contentRowOrigin

theorem Pushed.kept {row : ScreenRow} (h : sb.Inv) (hp : Pushed sb row sb') :
    Kept sb sb' ∧ sb'.limitBytes.Respects sb'.chargedBytes := by
  cases hp with
  | unretained hzero =>
    have hnil := h.unlimited_or_empty hzero
    have hcharged : sb.chargedBytes = 0 := by rw [h.charged, hnil]; rfl
    have hscreen := h.screen
    refine ⟨⟨⟨⟨h.lines_ok, ?_, h.charged, h.breaks, h.ids_nodup, h.ids_lt, ?_⟩, ?_, fun _ => hnil⟩, rfl,
      ?_⟩, ?_⟩
    · rw [h.starts]
      simp [hnil]
    · intro a ha
      simp only at ha
      split at ha
      · cases ha
      · exact h.active_lt a ha
    · simp [hnil]
    · simp only
      omega
    · rw [show ({ sb with
        screenRowOrigin := sb.screenRowOrigin + 1
        contentRowOrigin := sb.screenRowOrigin + 1
        activeOversizeLine := if !row.softWrapped then none else sb.activeOversizeLine } :
          Scrollback).chargedBytes = 0 from hcharged]
      exact respects_zero _
  | grown before line nextId active hlimit ho mid he =>
    have hmid := he.inv (ho.grow_screen h row)
    split
    · exact ⟨⟨⟨⟨hmid.lines_ok, hmid.starts, hmid.charged, hmid.breaks, hmid.ids_nodup, hmid.ids_lt,
        by simp⟩, hmid.screen, hmid.unlimited_or_empty⟩, he.limitBytes, he.content_le⟩, he.respects⟩
    · exact ⟨⟨hmid, he.limitBytes, he.content_le⟩, he.respects⟩

theorem Kept.refl (h : sb.Inv) : Kept sb sb := ⟨h, rfl, le_rfl⟩

theorem Kept.trans {a b c : Scrollback} (h : Kept a b) (h' : Kept b c) : Kept a c :=
  ⟨h'.inv, h'.limitBytes.trans h.limitBytes, h.content_le.trans h'.content_le⟩

theorem Inv.pushRows (h : sb.Inv) (rows : List ScreenRow) : ∃ sb', sb.pushRows rows = some sb' ∧ Kept sb sb' ∧
      (rows ≠ [] → sb'.limitBytes.Respects sb'.chargedBytes) := by
  induction rows generalizing sb with
  | nil => exact ⟨sb, rfl, Kept.refl h, by simp⟩
  | cons row rows ih =>
    obtain ⟨mid, heq, hp⟩ := h.pushRow row
    obtain ⟨hkept, hresp⟩ := hp.kept h
    obtain ⟨sb', heq', hkept', hresp'⟩ := ih hkept.inv
    refine ⟨sb', ?_, hkept.trans hkept', fun _ => ?_⟩
    · rw [Scrollback.pushRows, foldlM_cons, heq]
      exact heq'
    · cases rows with
      | nil =>
        obtain rfl : mid = sb' := Option.some.inj heq'
        exact hresp
      | cons row' rows => exact hresp' (by simp)

/-! ## Clearing and rewrapping -/

theorem clear_inv (sb : Scrollback) : sb.clear.Inv where
  lines_ok := by simp [Scrollback.clear]
  starts := rfl
  charged := rfl
  breaks := by simp [Scrollback.clear]
  ids_nodup := by simp [Scrollback.clear]
  ids_lt := by simp [Scrollback.clear]
  active_lt := by simp [Scrollback.clear]
  screen := rfl
  unlimited_or_empty _ := rfl

theorem reflowLoop_eq (columns : Nat) (lines : List LogicalLine) (starts : List Nat)
    (extra cursor : Nat) (hlen : starts.length = lines.length) :
    reflowLoop columns lines starts (extra + totalCharge lines) cursor =
      (lines.map (·.reflow columns), rowStarts cursor (lines.map (·.reflow columns)),
        extra + totalCharge (lines.map (·.reflow columns)),
        cursor + totalRows (lines.map (·.reflow columns))) := by
  induction lines generalizing starts extra cursor with
  | nil =>
    obtain rfl : starts = [] := length_eq_zero_iff.mp hlen
    rfl
  | cons line lines ih =>
    cases starts with
    | nil => cases hlen
    | cons start starts =>
      have hcharge : extra + totalCharge (line :: lines) - line.chargedBytes +
          (line.reflow columns).chargedBytes =
          (extra + (line.reflow columns).chargedBytes) + totalCharge lines := by
        rw [totalCharge_cons]; omega
      rw [reflowLoop, hcharge, ih _ _ _ (by simpa using hlen)]
      simp [Nat.add_assoc]

theorem Layout.reflow_eq (h : sb.Layout) (columns : Nat) : sb.reflow columns = { sb with
      lines := sb.lines.map (·.reflow columns)
      lineRowStarts := rowStarts sb.contentRowOrigin (sb.lines.map (·.reflow columns))
      chargedBytes := totalCharge (sb.lines.map (·.reflow columns))
      screenRowOrigin := sb.contentRowOrigin + totalRows (sb.lines.map (·.reflow columns)) } := by
  have := reflowLoop_eq columns sb.lines sb.lineRowStarts 0 sb.contentRowOrigin
    (by rw [h.starts]; simp)
  rw [Nat.zero_add, Nat.zero_add, ← h.charged] at this
  simp only [Scrollback.reflow, this]

theorem Inv.reflow (h : sb.Inv) (columns : Nat) : (sb.reflow columns).Inv := by
  rw [h.reflow_eq]
  exact {
    lines_ok := by
      intro l hl
      obtain ⟨line, hline, rfl⟩ := List.mem_map.mp hl
      exact (h.lines_ok line hline).reflow columns
    starts := rfl
    charged := rfl
    breaks := by
      intro l hl
      rw [← map_dropLast] at hl
      obtain ⟨line, hline, rfl⟩ := List.mem_map.mp hl
      exact h.breaks line hline
    ids_nodup := by
      rw [List.map_map]
      exact h.ids_nodup
    ids_lt := by
      intro l hl
      obtain ⟨line, hline, rfl⟩ := List.mem_map.mp hl
      exact h.ids_lt line hline
    active_lt := h.active_lt
    screen := rfl
    unlimited_or_empty := by
      intro hzero
      simp only [h.unlimited_or_empty hzero, map_nil] }

/-! ## Splitting off the tail -/

def allRows (lines : List LogicalLine) : List ScreenRow := lines.flatMap (·.screenRows)

section

omit [Platform]

@[simp] theorem allRows_append : allRows (l ++ l') = allRows l ++ allRows l' := by
  simp [allRows]

@[simp] theorem allRows_singleton (line : LogicalLine) : allRows [line] = line.screenRows := by
  simp [allRows]

@[simp] theorem length_allRows : (allRows lines).length = totalRows lines := by
  induction lines with
  | nil => rfl
  | cons line lines ih =>
    rw [show line :: lines = [line] ++ lines from rfl, allRows_append, length_append, ih]
    simp

end

theorem EnforcedTo.allRows_suffix (h : sb.Layout) (he : EnforcedTo sb sb') :
    ∃ dropped, allRows sb.lines = dropped ++ allRows sb'.lines := by
  have henf := he.enforced
  generalize sb'.lines = lines, sb'.activeOversizeLine = active at henf
  cases henf with
  | evicted j _ _ =>
    refine ⟨allRows (sb.lines.take j), ?_⟩
    rw [← allRows_append, take_append_drop]
  | trimmed line k hlast _ _ _ _ =>
    obtain ⟨before, hlines⟩ := getLast?_eq_some_iff.mp hlast
    have hok := h.lines_ok line (by rw [hlines]; simp)
    refine ⟨allRows before ++ line.screenRows.take k, ?_⟩
    rw [hlines, allRows_append, allRows_singleton, allRows_singleton, hok.screenRows_dropRows,
      append_assoc, take_append_drop]
  | lost line _ _ _ _ => exact ⟨allRows sb.lines, by simp [allRows]⟩

theorem Opens.allRows_grow {nextId : Nat} {active : Option (Nat × Nat)} (h : sb.Inv)
    (ho : Opens sb before line nextId active) (row : ScreenRow) :
    allRows (sb.grow before line nextId active row).lines = allRows sb.lines ++ [row] := by
  have happ := (ho.growing h).screenRows_appendRow ho.hardBreak sb.limitBytes
    (active.map Prod.fst) row
  have hbefore : allRows before ++ line.screenRows = allRows sb.lines := by
    cases ho with
    | continued _ _ hlines _ => rw [hlines]; simp
    | resumed id off hlines _ => rw [hlines]; rfl
    | fresh => simp [LogicalLine.screenRows, emptyLine]
  simp only [grow, allRows_append, allRows_singleton]
  rw [happ, ← hbefore, append_assoc]

/-- The lines left when rows are split off the end: whole lines, and perhaps the first rows of one. -/
inductive SplitLines (lines : List LogicalLine) : List LogicalLine → Prop
  | whole (i : Nat) : SplitLines lines (lines.take i)
  | cut (i : Nat) (line : LogicalLine) (k : Nat) (hi : lines[i]? = some line) (hk0 : 0 < k)
      (hk : k < line.physicalRows) : SplitLines lines (lines.take i ++ [line.takeRows k])

theorem SplitLines.concat {lines kept : List LogicalLine} (line : LogicalLine) (h : SplitLines lines kept) :
    SplitLines (lines ++ [line]) kept := by
  cases h with
  | whole i =>
    rcases Nat.le_total i lines.length with hi | hi
    · have : SplitLines (lines ++ [line]) _ := SplitLines.whole i
      rwa [take_append_of_le_length hi] at this
    · have : SplitLines (lines ++ [line]) _ := SplitLines.whole lines.length
      rw [take_append_of_le_length le_rfl, take_length] at this
      rwa [take_of_length_le hi]
  | cut i l k hi hk0 hk =>
    have hlt : i < lines.length := (List.getElem?_eq_some_iff.mp hi).1
    have : SplitLines (lines ++ [line]) _ := SplitLines.cut i l k
      (by rw [getElem?_append_left hlt]; exact hi) hk0 hk
    rwa [take_append_of_le_length (Nat.le_of_lt hlt)] at this

/-- The specification of the loop of `split_off_tail`. -/
structure SplitTo (sb sb' : Scrollback) (n : Nat) (removed : List ScreenRow) : Prop where
  lines : SplitLines sb.lines sb'.lines
  layout : sb'.Layout
  rows : allRows sb.lines = allRows sb'.lines ++ removed
  count : removed.length = min n (totalRows sb.lines)
  limitBytes : sb'.limitBytes = sb.limitBytes
  active : sb'.activeOversizeLine = sb.activeOversizeLine
  nextId : sb'.nextId = sb.nextId
  contentRowOrigin : sb'.contentRowOrigin = sb.contentRowOrigin
  screenRowOrigin : sb'.screenRowOrigin = sb.screenRowOrigin

theorem SplitTo.zero (h : sb.Layout) : SplitTo sb sb 0 [] where
  lines := by
    have : SplitLines sb.lines _ := SplitLines.whole sb.lines.length
    rwa [take_length] at this
  layout := h
  rows := by simp
  count := by simp
  limitBytes := rfl
  active := rfl
  nextId := rfl
  contentRowOrigin := rfl
  screenRowOrigin := rfl

/-- The scrollback without its last line. -/
def popLine (sb : Scrollback) (line : LogicalLine) : Scrollback :=
  { sb with
    lines := sb.lines.dropLast
    lineRowStarts := sb.lineRowStarts.dropLast
    chargedBytes := sb.chargedBytes - line.chargedBytes }

theorem Layout.popLine (h : sb.Layout) (hlines : sb.lines = before ++ [line]) : (sb.popLine line).Layout where
  lines_ok l hl := h.lines_ok l (dropLast_subset _ hl)
  starts := by
    simp only [Scrollback.popLine, h.starts, hlines, rowStarts_append, rowStarts_cons, rowStarts_nil,
      dropLast_concat]
  charged := by simp [Scrollback.popLine, h.charged, hlines]
  breaks l hl := h.breaks l (dropLast_subset _ hl)
  ids_nodup := by
    simp only [Scrollback.popLine, map_dropLast]
    exact h.ids_nodup.sublist (dropLast_sublist _)
  ids_lt l hl := h.ids_lt l (dropLast_subset _ hl)
  active_lt := h.active_lt

theorem Layout.cutLine (h : sb.Layout) (hlines : sb.lines = before ++ [line]) {k : Nat} (hk0 : 0 < k)
    (hk : k ≤ line.physicalRows) : ({ sb with
      chargedBytes := totalCharge before + (line.takeRows k).chargedBytes
      lines := before ++ [line.takeRows k]
      lineRowStarts := rowStarts sb.contentRowOrigin (before ++ [line]) } : Scrollback).Layout where
  lines_ok l hl := by
    rcases mem_append.mp hl with hl | hl
    · exact h.lines_ok l (by rw [hlines]; simp [hl])
    · rw [mem_singleton.mp hl]
      exact (h.lines_ok line (by rw [hlines]; simp)).takeRows hk0 hk
  starts := by simp
  charged := by simp
  breaks l hl := h.breaks l (by
    rw [hlines, dropLast_concat]
    simpa using hl)
  ids_nodup := by
    have := h.ids_nodup
    rw [hlines, map_append] at this
    rw [map_append]
    exact this
  ids_lt l hl := by
    rcases mem_append.mp hl with hl | hl
    · exact h.ids_lt l (by rw [hlines]; simp [hl])
    · rw [mem_singleton.mp hl]
      exact h.ids_lt line (by rw [hlines]; simp)
  active_lt := h.active_lt

theorem Layout.splitLoop (h : sb.Layout) (fuel : Nat)
    (hfuel : sb.lines.length ≤ fuel) (n : Nat) (rows : List ScreenRow) :
    ∃ sb' removed, Scrollback.splitLoop fuel sb n rows = some (sb', removed ++ rows) ∧
      SplitTo sb sb' n removed := by
  induction fuel generalizing sb n rows with
  | zero =>
    have hnil : sb.lines = [] := length_eq_zero_iff.mp (by omega)
    refine ⟨sb, [], rfl, ?_⟩
    exact { SplitTo.zero h with count := by simp [hnil] }
  | succ fuel ih =>
    rw [Scrollback.splitLoop]
    by_cases hn : n = 0
    · subst hn
      rw [if_pos rfl]
      exact ⟨sb, [], rfl, SplitTo.zero h⟩
    rw [if_neg hn]
    rcases eq_nil_or_concat sb.lines with hnil | ⟨before, line, hlines⟩
    · rw [hnil]
      exact ⟨sb, [], rfl, { SplitTo.zero h with count := by simp [hnil] }⟩
    rw [concat_eq_append] at hlines
    have hok : line.Ok := h.lines_ok line (by rw [hlines]; simp)
    have hlast : sb.lines.getLast? = some line := by rw [hlines]; simp
    have hpop := h.popLine hlines
    have hpoplines : (sb.popLine line).lines = before := by simp [Scrollback.popLine, hlines]
    rw [hlast]
    simp only
    by_cases hle : line.physicalRows ≤ n
    · -- the whole line leaves
      obtain ⟨sb', removed, heq, hs⟩ := ih hpop
        (by rw [hpoplines]; rw [hlines] at hfuel; simp at hfuel; omega)
        (n - line.physicalRows) (line.screenRows ++ rows)
      refine ⟨sb', removed ++ line.screenRows, ?_, ?_⟩
      · rw [if_pos hle, hok.tailRows, append_assoc]
        exact heq
      · have hlines' := hs.lines
        have hrows := hs.rows
        have hcount := hs.count
        rw [hpoplines] at hlines' hrows hcount
        exact {
          lines := by rw [hlines]; exact hlines'.concat line
          layout := hs.layout
          rows := by rw [hlines, allRows_append, hrows]; simp
          count := by
            rw [hlines, length_append, hcount]
            simp
            omega
          limitBytes := hs.limitBytes
          active := hs.active
          nextId := hs.nextId
          contentRowOrigin := hs.contentRowOrigin
          screenRowOrigin := hs.screenRowOrigin }
    · -- the line is cut
      have hk0 : 0 < line.physicalRows - n := by omega
      have hk : line.physicalRows - n < line.physicalRows := by omega
      have hstart : sb.lineRowStarts = rowStarts sb.contentRowOrigin before ++
          [sb.contentRowOrigin + totalRows before] := by rw [h.starts, hlines]; simp
      refine ⟨{ sb with
        chargedBytes := totalCharge before + (line.takeRows (line.physicalRows - n)).chargedBytes
        lines := before ++ [line.takeRows (line.physicalRows - n)]
        lineRowStarts := rowStarts sb.contentRowOrigin (before ++ [line]) },
        line.screenRows.drop (line.physicalRows - n), ?_, ?_⟩
      · rw [if_neg hle, hok.tailRows, hok.keepPrefix_eq hk0 (by omega), hstart]
        simp [h.charged, hlines]
      · exact {
          lines := by
            have : SplitLines sb.lines _ := SplitLines.cut before.length line (line.physicalRows - n)
              (by rw [hlines]; simp) hk0 hk
            rw [hlines, take_left] at this
            rw [hlines]
            exact this
          layout := h.cutLine hlines hk0 (by omega)
          rows := by
            rw [hlines]
            simp only [allRows_append, allRows_singleton, hok.screenRows_takeRows hk, append_assoc,
              take_append_drop]
          count := by
            rw [hlines]
            simp
            omega
          limitBytes := rfl
          active := rfl
          nextId := rfl
          contentRowOrigin := rfl
          screenRowOrigin := rfl }

theorem Inv.splitOffTail (h : sb.Inv) (n : Nat) :
    ∃ sb' mid mid' removed, sb.splitOffTail n = some (sb', removed) ∧ SplitTo sb mid n removed ∧
      EnforcedTo mid mid' ∧
      sb' = { mid' with screenRowOrigin := mid'.screenRowOrigin - removed.length } ∧ sb'.Inv := by
  obtain ⟨mid, removed, hloop, hs⟩ := h.splitLoop sb.lines.length le_rfl n []
  obtain ⟨mid', henf, he⟩ := hs.layout.enforceLimit
  refine ⟨_, mid, mid', removed, ?_, hs, he, rfl, ?_⟩
  · unfold Scrollback.splitOffTail
    rw [hloop]
    simp only [some_bind]
    rw [henf]
    simp
  · have hlen : totalRows sb.lines = totalRows mid.lines + removed.length := by
      rw [← length_allRows, hs.rows, length_append, length_allRows]
    have hlay := he.layout
    refine ⟨⟨hlay.lines_ok, hlay.starts, hlay.charged, hlay.breaks, hlay.ids_nodup, hlay.ids_lt,
      hlay.active_lt⟩, ?_, hlay.lines_nil he.respects⟩
    have hrows := he.rows
    rw [hs.contentRowOrigin] at hrows
    simp only
    rw [he.screenRowOrigin, hs.screenRowOrigin, h.screen, hrows]
    omega

end Scrollback

end FesTerm
