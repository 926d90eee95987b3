import FesTerm.Core.History
import FesTerm.Lib.GreedyWrap

/-!
# `reflow` is the greedy wrap

The units of a line are its wide pairs and its other cells. The rows of a rewrapped line are those of the greedy
wrap of the units.
-/

namespace FesTerm.LogicalLine

open GreedyWrap List

/-- The cells as they are kept in one row. -/
def units : List Cell → List (List Cell)
  | [] => []
  | [cell] => [[cell]]
  | cell :: next :: rest =>
    if cell.width = .double ∧ next.width = .continuation then [cell, next] :: units rest
    else [cell] :: units (next :: rest)

theorem flatten_units (cells : List Cell) : (units cells).flatten = cells := by
  induction cells using units.induct with
  | case1 | case2 cell => rfl
  | case3 cell next rest hpair ih => rw [units, if_pos hpair, flatten_cons, ih]; rfl
  | case4 cell next rest hpair ih => rw [units, if_neg hpair, flatten_cons, ih]; rfl

/-- What follows a unit does not begin with the second half of a pair whose first half is in it. -/
theorem units_spec {cells unit : List Cell} {front back : List (List Cell)} (h : units cells = front ++ unit :: back) :
    (∃ lead trail, unit = [lead, trail] ∧ lead.width = .double ∧ trail.width = .continuation) ∨
      ∃ cell, unit = [cell] ∧ ∀ next ∈ back.flatten.head?, ¬ (cell.width = .double ∧ next.width = .continuation) := by
  induction cells using units.induct generalizing front with
  | case1 => cases front <;> cases h
  | case2 cell =>
    cases front with
    | nil =>
      cases h
      exact .inr ⟨cell, rfl, by simp⟩
    | cons first front => cases front <;> cases (List.cons.inj h).2
  | case3 cell next rest hpair ih =>
    rw [units, if_pos hpair] at h
    cases front with
    | nil =>
      cases h
      exact .inl ⟨cell, next, rfl, hpair⟩
    | cons first front => exact ih (List.cons.inj h).2
  | case4 cell next rest hpair ih =>
    rw [units, if_neg hpair] at h
    cases front with
    | nil =>
      cases h
      refine .inr ⟨cell, rfl, fun other hother => ?_⟩
      rw [flatten_units, head?_cons] at hother
      cases hother
      exact hpair
    | cons first front => exact ih (List.cons.inj h).2

section

variable {columns index used : Nat} {row : List (List Cell)}

/-- The next unit stands alone in the row behind the open one. -/
theorem ends_wrap_full (unit : List Cell) (units : List (List Cell)) (hused : total List.length row = used)
    (hempty : row ≠ [] ↔ 0 < used) (hle : used ≤ index) (hfull : 0 < used ∧ columns < used + unit.length) :
    ends List.length (index - used) (wrap List.length columns row (unit :: units)) =
      index :: ends List.length (index + unit.length - unit.length) (wrap List.length columns [unit] units) := by
  subst hused
  rw [wrap, if_pos ⟨hempty.mpr hfull.1, hfull.2⟩, ends, Nat.sub_add_cancel hle, Nat.add_sub_cancel]

/-- The open row has grown by the next unit. -/
theorem ends_wrap_room (unit : List Cell) (units : List (List Cell)) (hused : total List.length row = used)
    (hempty : row ≠ [] ↔ 0 < used) (hfits : ¬ (0 < used ∧ columns < used + unit.length)) :
    ends List.length (index - used) (wrap List.length columns row (unit :: units)) =
      ends List.length (index + unit.length - (used + unit.length))
        (wrap List.length columns (row ++ [unit]) units) := by
  subst hused
  rw [wrap, if_neg (fun hfull => hfits ⟨hempty.mp hfull.1, hfull.2⟩), Nat.add_sub_add_right]

end

/-- The loop of `reflow` behind the units of its open row. -/
theorem wrapRows_eq (columns : Nat) (cells : List Cell) (index used : Nat) (row : List (List Cell))
    (hused : total List.length row = used) (hempty : row ≠ [] ↔ 0 < used) (hle : used ≤ index) :
    wrapRows columns cells index used =
      ends List.length (index - used) (wrap List.length columns row (units cells)) := by
  induction cells, index, used using wrapRows.induct columns generalizing row with
  | case1 index used => rw [wrapRows, units, wrap, ends, ends, hused, Nat.sub_add_cancel hle]
  | case2 cell index used hfull =>
    rw [wrapRows, if_pos hfull, units, ends_wrap_full [cell] _ hused hempty hle hfull, Nat.add_sub_cancel]
    rfl
  | case3 cell index used hfits =>
    rw [wrapRows, if_neg hfits, units, ends_wrap_room [cell] _ hused hempty hfits, length_singleton,
      Nat.add_sub_add_right, wrap,
      ends, ends, total_append, hused, total_singleton, length_singleton, ← Nat.add_assoc,
      Nat.sub_add_cancel hle]
  | case4 cell next rest index used hpair hfull ih =>
    rw [wrapRows, if_pos hpair, if_pos hfull, units, if_pos hpair, ends_wrap_full [cell, next] _ hused hempty hle hfull]
    exact congrArg _ (ih [[cell, next]] rfl (by simp) (Nat.le_add_left _ _))
  | case5 cell next rest index used hpair hfits ih =>
    rw [wrapRows, if_pos hpair, if_neg hfits, units, if_pos hpair, ends_wrap_room [cell, next] _ hused hempty hfits]
    exact ih (row ++ [[cell, next]]) (by simp [hused]) (by simp) (Nat.add_le_add_right hle _)
  | case6 cell next rest index used hpair hfull ih =>
    rw [wrapRows, if_neg hpair, if_pos hfull, units, if_neg hpair, ends_wrap_full [cell] _ hused hempty hle hfull]
    exact congrArg _ (ih [[cell]] rfl (by simp) (Nat.le_add_left _ _))
  | case7 cell next rest index used hpair hfits ih =>
    rw [wrapRows, if_neg hpair, if_neg hfits, units, if_neg hpair, ends_wrap_room [cell] _ hused hempty hfits]
    exact ih (row ++ [[cell]]) (by simp [hused]) (by simp) (Nat.add_le_add_right hle _)

/-- The rows that `reflow` lays the units of a line out in. -/
def wrapped (columns : Nat) (cells : List Cell) : List (List (List Cell)) :=
  wrap List.length columns [] (units cells)

theorem wrapRows_start (columns : Nat) (cells : List Cell) :
    wrapRows columns cells 0 0 = ends List.length 0 (wrapped columns cells) :=
  wrapRows_eq columns cells 0 0 [] rfl (by simp) le_rfl

theorem flatten_wrapped (columns : Nat) (cells : List Cell) : (wrapped columns cells).flatten = units cells := by
  rw [wrapped, flatten_wrap, nil_append]

theorem greedy_wrapped (columns : Nat) (cells : List Cell) : Greedy List.length columns (wrapped columns cells) :=
  greedy_wrap (.inl (Nat.zero_le _)) _

/-- The row ends ascend to the end of the cells. -/
theorem wrapRows_spec (columns : Nat) (cells : List Cell) :
    (wrapRows columns cells 0 0).getLast? = some cells.length ∧ (wrapRows columns cells 0 0).Pairwise (· ≤ ·) := by
  rw [wrapRows_start]
  refine ⟨?_, pairwise_ends _ _⟩
  obtain ⟨more, rows, hrows⟩ := wrap_eq_cons List.length columns [] (units cells)
  have hne : wrapped columns cells ≠ [] := by
    rw [wrapped, hrows]
    exact cons_ne_nil _ _
  rw [getLast?_ends 0 hne, Nat.zero_add, flatten_wrapped, total, ← length_flatten, flatten_units]

/-! ## The rows of cells -/

/-- How many cells at the front are kept in one row. -/
def unitLength : List Cell → Nat
  | lead :: trail :: _ => if lead.width = .double ∧ trail.width = .continuation then 2 else 1
  | _ => 1

/-- Row ends that cut the cells into rows, each as full as it can be. -/
structure GreedyRows (columns : Nat) (cells : List Cell) (rowEnds : List Nat) (rows : List (List Cell)) : Prop where
  partition : rows.flatten = cells
  ends : rowEnds = rows.inits.tail.map fun front => front.flatten.length
  filled : cells ≠ [] → ∀ row ∈ rows, row ≠ []
  fits : ∀ row ∈ rows, row.length ≤ max columns 1 ∨
    columns ≤ 1 ∧ ∃ lead trail, row = [lead, trail] ∧ lead.width = .double ∧ trail.width = .continuation
  unsplit : ∀ front lead trail back, cells = front ++ lead :: trail :: back → lead.width = .double →
    trail.width = .continuation → front.length + 1 ∉ rowEnds
  maximal : ∀ i row next, rows[i]? = some row → rows[i + 1]? = some next →
    max columns 1 < row.length + unitLength next
  empty : cells = [] → rowEnds = [0]

theorem length_flatten_row (row : List (List Cell)) : row.flatten.length = total List.length row := by
  rw [total, length_flatten]

theorem unit_cases {cells unit : List Cell} (h : unit ∈ units cells) :
    (∃ lead trail, unit = [lead, trail] ∧ lead.width = .double ∧ trail.width = .continuation) ∨
      ∃ cell, unit = [cell] := by
  obtain ⟨front, back, hunits⟩ := append_of_mem h
  rcases units_spec hunits with hpair | ⟨cell, hcell, -⟩
  · exact .inl hpair
  · exact .inr ⟨cell, hcell⟩

theorem mem_units_of_row {columns : Nat} {cells unit : List Cell} {row : List (List Cell)}
    (hrow : row ∈ wrapped columns cells) (hunit : unit ∈ row) : unit ∈ units cells := by
  rw [← flatten_wrapped columns cells]
  exact mem_flatten_of_mem hrow hunit

/-- The cells that a row begins with are the first unit of the row. -/
theorem unitLength_row {columns : Nat} {cells unit : List Cell} {more : List (List Cell)}
    (hrow : unit :: more ∈ wrapped columns cells) : unitLength (unit :: more).flatten = unit.length := by
  obtain ⟨front, back, hrows⟩ := append_of_mem hrow
  have hunits := flatten_wrapped columns cells
  rw [hrows, flatten_append, flatten_cons, cons_append] at hunits
  rcases units_spec hunits.symm with ⟨lead, trail, rfl, hpair⟩ | ⟨cell, rfl, halone⟩
  · exact if_pos hpair
  · cases hmore : more.flatten with
    | nil => simp [hmore, unitLength]
    | cons next rest =>
      rw [flatten_append, hmore] at halone
      rw [flatten_cons, hmore]
      exact if_neg (halone next rfl)

theorem unsplit_wrapped {columns : Nat} {cells front back : List Cell} {lead trail : Cell}
    (hcells : cells = front ++ lead :: trail :: back) (hlead : lead.width = .double)
    (htrail : trail.width = .continuation) : front.length + 1 ∉ wrapRows columns cells 0 0 := by
  rw [wrapRows_start]
  intro hend
  obtain ⟨before, row, after, hrows, hstop⟩ := mem_ends.mp hend
  have hunits := flatten_wrapped columns cells
  have hsplit : (before ++ [row]).flatten ++ after.flatten = units cells := by
    rw [← hunits, hrows]
    simp
  generalize (before ++ [row]).flatten = above at hstop hsplit
  -- The cells above the end are those of the front, and the lead.
  have hjoin : above.flatten ++ after.flatten.flatten = (front ++ [lead]) ++ trail :: back := by
    rw [← flatten_append, hsplit, flatten_units, hcells, append_assoc, singleton_append]
  have hlength : above.flatten.length = (front ++ [lead]).length := by
    rw [length_flatten_row, length_append, length_singleton]
    omega
  obtain ⟨habove, hbelow⟩ := append_inj hjoin hlength
  rcases eq_nil_or_concat above with rfl | ⟨others, unit, rfl⟩
  · simp at habove
  · rw [concat_eq_append, append_assoc, singleton_append] at hsplit
    rw [concat_eq_append, flatten_append, flatten_singleton] at habove
    rcases units_spec hsplit.symm with ⟨first, second, rfl, -, hsecond⟩ | ⟨cell, rfl, halone⟩
    · have hlast := congrArg List.getLast? habove
      rw [getLast?_append, getLast?_append] at hlast
      obtain rfl : second = lead := by simpa using hlast
      rw [hlead] at hsecond
      cases hsecond
    · have hlast := (append_inj' habove rfl).2
      rw [(List.cons.inj hlast).1, hbelow] at halone
      exact halone trail rfl ⟨hlead, htrail⟩

theorem greedyRows_wrapped (columns : Nat) (cells : List Cell) :
    GreedyRows columns cells (wrapRows (max columns 1) cells 0 0)
      ((wrapped (max columns 1) cells).map List.flatten) where
  partition := by rw [← flatten_flatten, flatten_wrapped, flatten_units]
  ends := by
    rw [wrapRows_start, ends_eq_inits, map_inits, ← map_tail, List.map_map]
    refine map_congr_left fun front _ => ?_
    rw [Nat.zero_add, ← length_flatten_row, flatten_flatten]
    rfl
  filled hcells row hrow := by
    obtain ⟨units', hunits', rfl⟩ := List.mem_map.mp hrow
    have hne : units cells ≠ [] := by
      intro hnone
      rw [← flatten_units cells, hnone] at hcells
      exact hcells rfl
    have hgreedy := greedy_wrapped (max columns 1) cells
    cases units' with
    | nil => exact absurd rfl (hgreedy.ne_nil (by rwa [flatten_wrapped]) _ hunits')
    | cons unit more =>
      rcases unit_cases (mem_units_of_row hunits' mem_cons_self) with ⟨lead, trail, rfl, -⟩ | ⟨cell, rfl⟩
      · simp
      · simp
  fits row hrow := by
    obtain ⟨units', hunits', rfl⟩ := List.mem_map.mp hrow
    rcases (greedy_wrapped (max columns 1) cells).fits units' hunits' with hroom | hone
    · rw [length_flatten_row]
      exact .inl hroom
    · match units', hone with
      | [], _ => exact .inl (Nat.zero_le _)
      | [unit], _ =>
        rw [flatten_singleton]
        rcases unit_cases (mem_units_of_row hunits' mem_cons_self) with ⟨lead, trail, rfl, hpair⟩ | ⟨cell, rfl⟩
        · by_cases hcolumns : columns ≤ 1
          · exact .inr ⟨hcolumns, lead, trail, rfl, hpair⟩
          · exact .inl (le_max_of_le_left (Nat.lt_of_not_le hcolumns))
        · exact .inl (le_max_right _ _)
  unsplit _ _ _ _ := unsplit_wrapped
  maximal i row next hrow hnext := by
    rw [getElem?_map] at hrow hnext
    obtain ⟨rowUnits, hrow', rfl⟩ := Option.map_eq_some_iff.mp hrow
    obtain ⟨nextUnits, hnext', rfl⟩ := Option.map_eq_some_iff.mp hnext
    obtain ⟨unit, more, rfl, hfull⟩ := (greedy_wrapped (max columns 1) cells).full hrow' hnext'
    rw [length_flatten_row, unitLength_row (mem_of_getElem? hnext')]
    exact hfull
  empty := by
    rintro rfl
    rfl

theorem physicalRows_reflow_le [Platform] (line : LogicalLine) (columns : Nat) {rows : List (List (List Cell))}
    (hunits : rows.flatten = units line.cells) (hfits : ∀ row ∈ rows, Fits List.length (max columns 1) row) :
    (line.reflow columns).physicalRows ≤ max 1 rows.length := by
  show (wrapRows (max columns 1) line.cells 0 0).length ≤ _
  rw [wrapRows_start, length_ends]
  by_cases hnone : units line.cells = []
  · simp [wrapped, hnone, wrap]
  · have hother : rows.flatten = [] ++ (wrapped (max columns 1) line.cells).flatten := by
      rw [flatten_wrapped, hunits, nil_append]
    exact le_max_of_le_right ((greedy_wrapped _ _).length_le (by rwa [flatten_wrapped]) hother hfits)

/-- `reflow` is the greedy wrap of the cells, whatever the line looked like before. -/
theorem reflow_is_greedy_wrap [Platform] (line : LogicalLine) (columns : Nat) :
    (line.reflow columns).cells = line.cells ∧
      (line.reflow columns).physicalRows = (line.reflow columns).rowEnds.length ∧
      (∃ rows, GreedyRows columns line.cells (line.reflow columns).rowEnds rows) ∧
      ∀ other, ((line.reflow other).reflow columns).rowEnds = (line.reflow columns).rowEnds ∧
        (((line.reflow columns).reflow other).reflow columns).rowEnds = (line.reflow columns).rowEnds :=
  ⟨rfl, rfl, ⟨_, greedyRows_wrapped columns line.cells⟩, fun _ => ⟨rfl, rfl⟩⟩

end FesTerm.LogicalLine
