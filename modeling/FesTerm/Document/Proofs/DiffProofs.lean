import FesTerm.Document.Diff
import FesTerm.Lib.Subsequences

/-!
# Line comparison proofs

The table holds the length of a longest common subsequence of every two suffixes, the walk over it
is an edit script that keeps that many lines, the script is laid out as pairs, and the pairs are
folded into rows. `Script` and `Aligned` say of a script and of pairs where they start and end in
the two lists of lines.
-/

namespace FesTerm.Document

open Checked Subsequences List Option

/-! ## The table -/

variable {k index : Nat}

section Table

variable {mine source : List Text}

variable {row column : Nat} {table : List Nat}

theorem tableIndex_inj {row' column' : Nat} (hcolumn : column ≤ source.length)
    (hcolumn' : column' ≤ source.length) (h : tableIndex source row column = tableIndex source row' column') :
    row = row' ∧ column = column' := by
  unfold tableIndex at h
  rcases Nat.lt_trichotomy row row' with hlt | rfl | hgt
  · have := Nat.mul_le_mul_right (source.length + 1) (Nat.succ_le_of_lt hlt)
    rw [Nat.succ_mul] at this
    omega
  · omega
  · have := Nat.mul_le_mul_right (source.length + 1) (Nat.succ_le_of_lt hgt)
    rw [Nat.succ_mul] at this
    omega

theorem tableIndex_lt (hrow : row ≤ mine.length) (hcolumn : column ≤ source.length) :
    tableIndex source row column < (mine.length + 1) * (source.length + 1) := by
  have := Nat.mul_le_mul_right (source.length + 1) hrow
  unfold tableIndex
  rw [Nat.succ_mul]
  omega

/-- A table in which the cells that meet a condition are filled. -/
structure Filled (mine source : List Text) (done : Nat → Nat → Prop) (table : List Nat) : Prop where
  length : table.length = (mine.length + 1) * (source.length + 1)
  cell : ∀ row column, row ≤ mine.length → column ≤ source.length → done row column →
    ∃ n, table[tableIndex source row column]? = some n ∧
      IsLongest n (mine.drop row) (source.drop column)

theorem Filled.mono {done done' : Nat → Nat → Prop} (h : Filled mine source done table)
    (hdone : ∀ row column, row ≤ mine.length → column ≤ source.length → done' row column →
      done row column) : Filled mine source done' table :=
  ⟨h.length, fun row column hrow hcolumn hd =>
    h.cell row column hrow hcolumn (hdone row column hrow hcolumn hd)⟩

theorem drop_of_getElem? {lines : List Text} {line : Text}
    (h : lines[index]? = some line) : lines.drop index = line :: lines.drop (index + 1) := by
  obtain ⟨hlt, rfl⟩ := List.getElem?_eq_some_iff.mp h
  exact drop_eq_getElem_cons hlt

theorem isLongest_drop {m n : Nat} {here there : Text} (hhere : mine[row]? = some here)
    (hthere : source[column]? = some there)
    (hboth : IsLongest k (mine.drop (row + 1)) (source.drop (column + 1)))
    (hbelow : IsLongest m (mine.drop (row + 1)) (source.drop column))
    (hbeside : IsLongest n (mine.drop row) (source.drop (column + 1))) :
    IsLongest (if here = there then k + 1 else max m n) (mine.drop row) (source.drop column) := by
  rw [drop_of_getElem? hthere] at hbelow
  rw [drop_of_getElem? hhere] at hbeside
  rw [drop_of_getElem? hhere, drop_of_getElem? hthere]
  split
  · rename_i hsame
    rw [hsame]
    exact hboth.cons_same there
  · rename_i hne
    exact hbelow.cons_ne hne hbeside

theorem fillCell_spec (hrow : row < mine.length) (hcolumn : column < source.length) (h : Filled mine source
      (fun r c => row + 1 ≤ r ∨ r = row ∧ column + 1 ≤ c ∨ c = source.length) table) :
    ∃ table', fillCell mine source row table column = some table' ∧
      Filled mine source (fun r c => row + 1 ≤ r ∨ r = row ∧ column ≤ c ∨ c = source.length)
        table' := by
  obtain ⟨k, hk, hboth⟩ := h.cell (row + 1) (column + 1) hrow hcolumn (.inl le_rfl)
  obtain ⟨m, hm, hbelow⟩ := h.cell (row + 1) column hrow (by omega) (.inl le_rfl)
  obtain ⟨n, hn, hbeside⟩ := h.cell row (column + 1) (by omega) hcolumn (.inr (.inl ⟨rfl, le_rfl⟩))
  have hhere := getElem?_eq_getElem hrow
  have hthere := getElem?_eq_getElem hcolumn
  have hlongest := isLongest_drop hhere hthere hboth hbelow hbeside
  have hindex : tableIndex source row column < table.length := by
    rw [h.length]
    exact tableIndex_lt (by omega) (by omega)
  refine ⟨splice table (tableIndex source row column)
    [if mine[row] = source[column] then k + 1 else max m n], ?_, ?_, ?_⟩
  · unfold fillCell
    rw [hhere, hthere, hk, hm, hn]
    simp only [some_bind, Option.pure_def]
    rw [← setAt_eq hindex]
    split <;> rfl
  · rw [length_splice (by rw [length_singleton]; omega), h.length]
  · intro r c hr hc hdone
    rw [getElem?_splice_singleton hindex]
    by_cases hsame : tableIndex source r c = tableIndex source row column
    · obtain ⟨rfl, rfl⟩ := tableIndex_inj hc (by omega) hsame
      rw [if_pos rfl]
      exact ⟨_, rfl, hlongest⟩
    · rw [if_neg hsame]
      refine h.cell r c hr hc ?_
      -- the only cell that is filled anew is the one at the index
      rcases hdone with hrow | ⟨rfl, hcolumn⟩ | hlast
      · exact .inl hrow
      · rcases Nat.eq_or_lt_of_le hcolumn with rfl | hlt
        · exact absurd rfl hsame
        · exact .inr (.inl ⟨rfl, hlt⟩)
      · exact .inr (.inr hlast)

theorem fillRow_spec (hrow : row < mine.length)
    (h : Filled mine source (fun r c => row + 1 ≤ r ∨ c = source.length) table) :
    ∃ table', forRangeRev 0 source.length table (fillCell mine source row) = some table' ∧
      Filled mine source (fun r c => row ≤ r ∨ c = source.length) table' := by
  have hloop : ∃ table', forRangeRev 0 source.length table (fillCell mine source row) = some table' ∧
      Filled mine source (fun r c => row + 1 ≤ r ∨ r = row ∧ 0 ≤ c ∨ c = source.length) table' := by
    refine forRangeRev_inv
      (fun column => Filled mine source
        (fun r c => row + 1 ≤ r ∨ r = row ∧ column ≤ c ∨ c = source.length))
      (Nat.zero_le _) (h.mono fun r c _ hc hdone => ?_) ?_
    · omega
    · intro column table _ hcolumn h
      exact fillCell_spec hrow hcolumn h
  obtain ⟨table', htable, hfilled⟩ := hloop
  refine ⟨table', htable, hfilled.mono fun r c _ _ hdone => ?_⟩
  omega

theorem fillTable_spec :
    ∃ table, fillTable mine source = some table ∧ Filled mine source (fun _ _ => True) table := by
  have hstart : Filled mine source (fun r c => mine.length ≤ r ∨ c = source.length)
      (List.replicate ((mine.length + 1) * (source.length + 1)) 0) := by
    refine ⟨length_replicate, fun r c hr hc hdone => ⟨0, ?_, ?_⟩⟩
    · rw [getElem?_replicate, if_pos (tableIndex_lt hr hc)]
    · rcases hdone with hrow | rfl
      · rw [drop_of_length_le hrow]
        exact isLongest_nil_left _
      · rw [drop_length]
        exact isLongest_nil_right _
  have hloop : ∃ table, fillTable mine source = some table ∧
      Filled mine source (fun r c => 0 ≤ r ∨ c = source.length) table :=
    forRangeRev_inv (fun row => Filled mine source (fun r c => row ≤ r ∨ c = source.length))
      (Nat.zero_le _) hstart fun row table _ hrow h => fillRow_spec hrow h
  obtain ⟨table, htable, hfilled⟩ := hloop
  exact ⟨table, htable, hfilled.mono fun _ _ _ _ _ => .inl (Nat.zero_le _)⟩

end Table

/-! ## The edit script -/

/-- An edit script from a place in the two lists of lines to another. -/
inductive Script (mine source : List Text) (mineStop sourceStop : Nat) :
    Nat → Nat → List Step → Prop
  | done : Script mine source mineStop sourceStop mineStop sourceStop []
  | keep {i j : Nat} {line : Text} {steps : List Step} (hmine : mine[i]? = some line)
      (hsource : source[j]? = some line)
      (hrest : Script mine source mineStop sourceStop (i + 1) (j + 1) steps) :
      Script mine source mineStop sourceStop i j (.keep i j :: steps)
  | remove {i j : Nat} {line : Text} {steps : List Step} (hmine : mine[i]? = some line)
      (hrest : Script mine source mineStop sourceStop (i + 1) j steps) :
      Script mine source mineStop sourceStop i j (.remove i :: steps)
  | add {i j : Nat} {line : Text} {steps : List Step} (hsource : source[j]? = some line)
      (hrest : Script mine source mineStop sourceStop i (j + 1) steps) :
      Script mine source mineStop sourceStop i j (.add j :: steps)

def Step.isKeep : Step → Bool
  | .keep _ _ => true
  | _ => false

variable {mine source : List Text} {mineStop sourceStop : Nat}

theorem script_removals {j : Nat} {rest : List Step} (hmine : mineStop ≤ mine.length) :
    ∀ {count i : Nat}, i + count = mineStop → Script mine source mineStop sourceStop mineStop j rest →
      Script mine source mineStop sourceStop i j ((List.range' i count).map .remove ++ rest) := by
  intro count
  induction count with
  | zero =>
    rintro i rfl h
    exact h
  | succ count ih =>
    intro i hi h
    have hget := getElem?_eq_getElem (show i < mine.length by omega)
    exact .remove hget (ih (by omega) h)

theorem script_additions (hsource : sourceStop ≤ source.length) : ∀ {count j : Nat}, j + count = sourceStop →
      Script mine source mineStop sourceStop mineStop j ((List.range' j count).map .add) := by
  intro count
  induction count with
  | zero =>
    rintro j rfl
    exact .done
  | succ count ih =>
    intro j hj
    have hget := getElem?_eq_getElem (show j < source.length by omega)
    exact .add hget (ih (by omega))

theorem script_remaining {i j : Nat}
    (hmine : mineStop ≤ mine.length) (hsource : sourceStop ≤ source.length) (hi : i ≤ mineStop)
    (hj : j ≤ sourceStop) : Script mine source mineStop sourceStop i j
      ((List.range' i (mineStop - i)).map .remove ++ (List.range' j (sourceStop - j)).map .add) :=
  script_removals hmine (by omega) (script_additions hsource (by omega))

theorem countP_remaining (removed added : List Nat) :
    (removed.map Step.remove ++ added.map Step.add).countP Step.isKeep = 0 := by
  rw [countP_eq_zero]
  intro step hstep
  rcases mem_append.mp hstep with hmem | hmem <;>
  · obtain ⟨index, -, rfl⟩ := List.mem_map.mp hmem
    exact Bool.false_ne_true

section Walk

variable {mine source : List Text} {start mineStop sourceStop : Nat}

section Region

variable {lines lines' : List Text} (hmine : start + lines.length ≤ mine.length)
  (hsource : start + lines'.length ≤ source.length)

include hmine hsource

theorem remainingSteps_spec {row column : Nat} (hrow : row ≤ lines.length)
    (hcolumn : column ≤ lines'.length) (hend : row = lines.length ∨ column = lines'.length) :
    Script mine source (start + lines.length) (start + lines'.length) (start + row) (start + column)
        (remainingSteps lines lines' start start row column) ∧
      IsLongest ((remainingSteps lines lines' start start row column).countP Step.isKeep)
        (lines.drop row) (lines'.drop column) := by
  have hsteps : remainingSteps lines lines' start start row column =
      (List.range' (start + row) (start + lines.length - (start + row))).map .remove ++
        (List.range' (start + column) (start + lines'.length - (start + column))).map .add := by
    unfold remainingSteps
    rw [← map_add_range', ← map_add_range', List.map_map, List.map_map,
      Nat.add_sub_add_left, Nat.add_sub_add_left]
    rfl
  rw [hsteps]
  refine ⟨script_remaining hmine hsource (by omega) (by omega), ?_⟩
  rw [countP_remaining]
  rcases hend with rfl | rfl
  · rw [drop_length]
    exact isLongest_nil_left _
  · rw [drop_length]
    exact isLongest_nil_right _

/-- The walk over the table keeps as many lines as a longest common subsequence has. -/
theorem walkTable_spec {table : List Nat} (hlines : ∀ k, k < lines.length → mine[start + k]? = lines[k]?)
    (hlines' : ∀ k, k < lines'.length → source[start + k]? = lines'[k]?)
    (h : Filled lines lines' (fun _ _ => True) table) :
    ∀ (moves row column : Nat), row ≤ lines.length → column ≤ lines'.length →
      (lines.length - row) + (lines'.length - column) ≤ moves →
      ∃ steps, walkTable lines lines' table start start moves row column = some steps ∧
        Script mine source (start + lines.length) (start + lines'.length) (start + row)
          (start + column) steps ∧
        IsLongest (steps.countP Step.isKeep) (lines.drop row) (lines'.drop column) := by
  intro moves
  induction moves with
  | zero =>
    intro row column hrow hcolumn hmoves
    exact ⟨_, rfl, remainingSteps_spec hmine hsource hrow hcolumn (by omega)⟩
  | succ moves ih =>
    intro row column hrow hcolumn hmoves
    unfold walkTable
    by_cases hboth : row < lines.length ∧ column < lines'.length
    · obtain ⟨hlt, hlt'⟩ := hboth
      have hhere := getElem?_eq_getElem hlt
      have hthere := getElem?_eq_getElem hlt'
      have hgetMine := (hlines row hlt).trans hhere
      have hgetSource := (hlines' column hlt').trans hthere
      obtain ⟨m, hm, hbelow⟩ := h.cell (row + 1) column hlt hcolumn trivial
      obtain ⟨n, hn, hbeside⟩ := h.cell row (column + 1) hrow hlt' trivial
      rw [if_pos ⟨hlt, hlt'⟩, hhere, hthere, hm, hn]
      simp only [some_bind, Option.pure_def]
      by_cases hsame : lines[row] = lines'[column]
      · obtain ⟨steps, hsteps, hscript, hlongest⟩ := ih (row + 1) (column + 1) hlt hlt' (by omega)
        rw [if_pos hsame, hsteps]
        refine ⟨_, rfl, .keep hgetMine (hsame ▸ hgetSource) hscript, ?_⟩
        rw [countP_cons, drop_of_getElem? hhere, drop_of_getElem? hthere, hsame]
        exact hlongest.cons_same _
      · have hmax : IsLongest (max m n) (lines.drop row) (lines'.drop column) := by
          rw [drop_of_getElem? hhere] at hbeside ⊢
          rw [drop_of_getElem? hthere] at hbelow ⊢
          exact hbelow.cons_ne hsame hbeside
        rw [if_neg hsame]
        by_cases hle : m ≥ n
        · obtain ⟨steps, hsteps, hscript, hlongest⟩ := ih (row + 1) column hlt hcolumn (by omega)
          rw [if_pos hle, hsteps]
          refine ⟨_, rfl, .remove hgetMine hscript, ?_⟩
          rwa [countP_cons, hlongest.unique hbelow, ← Nat.max_eq_left hle]
        · obtain ⟨steps, hsteps, hscript, hlongest⟩ := ih row (column + 1) hrow hlt' (by omega)
          rw [if_neg hle, hsteps]
          refine ⟨_, rfl, .add hgetSource hscript, ?_⟩
          rwa [countP_cons, hlongest.unique hbeside, ← Nat.max_eq_right (by omega : m ≤ n)]
    · rw [if_neg hboth]
      exact ⟨_, rfl, remainingSteps_spec hmine hsource hrow hcolumn (by omega)⟩

theorem longestCommonSubsequence_spec (hlines : ∀ k, k < lines.length → mine[start + k]? = lines[k]?)
    (hlines' : ∀ k, k < lines'.length → source[start + k]? = lines'[k]?) :
    ∃ steps, longestCommonSubsequence lines lines' start start = some steps ∧
      Script mine source (start + lines.length) (start + lines'.length) start start steps ∧
      IsLongest (steps.countP Step.isKeep) lines lines' := by
  obtain ⟨table, htable, hfilled⟩ := @fillTable_spec lines lines'
  unfold longestCommonSubsequence
  rw [htable]
  exact walkTable_spec hmine hsource hlines hlines' hfilled _ 0 0 (Nat.zero_le _) (Nat.zero_le _)
    (by omega)

end Region

end Walk

/-! ## Pairs -/

def marked (index : Nat) (line : Text) (change : LineChange) : DiffLine := ⟨index + 1, line, change⟩

/-- Lines of one side, one behind the other and all marked alike. -/
inductive Waiting (lines : List Text) (change : LineChange) : Nat → List DiffLine → Nat → Prop
  | nil (i : Nat) : Waiting lines change i [] i
  | cons {i j : Nat} {line : Text} {rest : List DiffLine} (hline : lines[i]? = some line)
      (hrest : Waiting lines change (i + 1) rest j) :
      Waiting lines change i (marked i line change :: rest) j

theorem Waiting.snoc {lines : List Text} {change : LineChange} {i j : Nat}
    {waiting : List DiffLine} {line : Text} (h : Waiting lines change i waiting j)
    (hline : lines[j]? = some line) :
    Waiting lines change i (waiting ++ [marked j line change]) (j + 1) := by
  induction h with
  | nil i => exact .cons hline (.nil _)
  | cons hget _ ih => exact .cons hget (ih hline)

/-- Pairs that show both lists of lines from one place to another. -/
inductive Aligned (mine source : List Text) : Nat → Nat → List Pair → Nat → Nat → Prop
  | nil (i j : Nat) : Aligned mine source i j [] i j
  | same {i j i' j' : Nat} {line : Text} {pairs : List Pair} (hmine : mine[i]? = some line)
      (hsource : source[j]? = some line)
      (hrest : Aligned mine source (i + 1) (j + 1) pairs i' j') :
      Aligned mine source i j
        ((some (marked i line .unchanged), some (marked j line .unchanged)) :: pairs) i' j'
  | both {i j i' j' : Nat} {line line' : Text} {pairs : List Pair} (hmine : mine[i]? = some line)
      (hsource : source[j]? = some line')
      (hrest : Aligned mine source (i + 1) (j + 1) pairs i' j') :
      Aligned mine source i j
        ((some (marked i line .removed), some (marked j line' .added)) :: pairs) i' j'
  | left {i j i' j' : Nat} {line : Text} {pairs : List Pair} (hmine : mine[i]? = some line)
      (hrest : Aligned mine source (i + 1) j pairs i' j') :
      Aligned mine source i j ((some (marked i line .removed), none) :: pairs) i' j'
  | right {i j i' j' : Nat} {line : Text} {pairs : List Pair} (hsource : source[j]? = some line)
      (hrest : Aligned mine source i (j + 1) pairs i' j') :
      Aligned mine source i j ((none, some (marked j line .added)) :: pairs) i' j'

/-- How many rows do not differ. -/
def countUnchanged (pairs : List Pair) : Nat := pairs.countP fun pair => !isChanged pair.1 pair.2

def countChanged (pairs : List Pair) : Nat := pairs.countP fun pair => isChanged pair.1 pair.2

variable (pair : Pair)

theorem countUnchanged_cons (pairs : List Pair) : countUnchanged (pair :: pairs) =
      countUnchanged pairs + if isChanged pair.1 pair.2 then 0 else 1 := by
  unfold countUnchanged
  rw [countP_cons]
  cases isChanged pair.1 pair.2 <;> rfl

theorem countChanged_cons (pairs : List Pair) :
    countChanged (pair :: pairs) = countChanged pairs + if isChanged pair.1 pair.2 then 1 else 0 :=
  countP_cons

@[simp] theorem isChanged_same (i j : Nat) (line line' : Text) :
    isChanged (some (marked i line .unchanged)) (some (marked j line' .unchanged)) = false := rfl

@[simp] theorem isChanged_left (i : Nat) (line : Text) (right : Option DiffLine) :
    isChanged (some (marked i line .removed)) right = true := rfl

@[simp] theorem isChanged_right (j : Nat) (line : Text) :
    isChanged none (some (marked j line .added)) = true := rfl

variable {pairs' : List Pair}

section Pairs

variable {mine source : List Text}

theorem Aligned.append {i j i' j' i'' j'' : Nat} {pairs : List Pair}
    (h : Aligned mine source i j pairs i' j') (h' : Aligned mine source i' j' pairs' i'' j'') :
    Aligned mine source i j (pairs ++ pairs') i'' j'' := by
  induction h with
  | nil => exact h'
  | same hmine hsource _ ih => exact .same hmine hsource (ih h')
  | both hmine hsource _ ih => exact .both hmine hsource (ih h')
  | left hmine _ ih => exact .left hmine (ih h')
  | right hsource _ ih => exact .right hsource (ih h')

theorem countUnchanged_append (pairs pairs' : List Pair) :
    countUnchanged (pairs ++ pairs') = countUnchanged pairs + countUnchanged pairs' :=
  countP_append

/-- The rows that `drainPending` lays. -/
def beside (removals additions : List DiffLine) : List Pair :=
  (List.range (max removals.length additions.length)).map fun row =>
    (removals[row]?, additions[row]?)

variable (x y : DiffLine) (xs ys : List DiffLine)

theorem beside_cons_cons :
    beside (x :: xs) (y :: ys) = (some x, some y) :: beside xs ys := by
  have hrows : max (xs.length + 1) (ys.length + 1) = max xs.length ys.length + 1 := by omega
  simp [beside, hrows, range_succ_eq_map]

theorem beside_cons_nil :
    beside (x :: xs) [] = (some x, none) :: beside xs [] := by
  simp [beside, range_succ_eq_map]

theorem beside_nil_cons :
    beside [] (y :: ys) = (none, some y) :: beside [] ys := by
  simp [beside, range_succ_eq_map]

theorem aligned_beside : ∀ {removals additions : List DiffLine} {i j i' j' : Nat},
    Waiting mine .removed i removals i' → Waiting source .added j additions j' →
      Aligned mine source i j (beside removals additions) i' j' ∧
        countUnchanged (beside removals additions) = 0 := by
  intro removals
  induction removals with
  | nil =>
    intro additions
    induction additions with
    | nil =>
      rintro i j i' j' ⟨⟩ ⟨⟩
      exact ⟨.nil _ _, rfl⟩
    | cons y ys ih =>
      rintro i j i' j' ⟨⟩ (_ | ⟨hline, hrest⟩)
      rw [beside_nil_cons]
      obtain ⟨haligned, hcount⟩ := ih (.nil i) hrest
      exact ⟨.right hline haligned, hcount⟩
  | cons x xs ih =>
    rintro (_ | ⟨y, ys⟩) i j i' j' (_ | ⟨hline, hrest⟩) hadditions
    · rw [beside_cons_nil]
      cases hadditions
      obtain ⟨haligned, hcount⟩ := ih hrest (.nil j)
      exact ⟨.left hline haligned, hcount⟩
    · rw [beside_cons_cons]
      cases hadditions with
      | cons hline' hrest' =>
        obtain ⟨haligned, hcount⟩ := ih hrest hrest'
        exact ⟨.both hline hline' haligned, hcount⟩

/-- The state of the loop over the script, when it is at a place in the two lists. -/
structure Laid (mine source : List Text) (kept i j : Nat) (state : Alignment) : Prop where
  pairs : ∃ i₀ j₀, Aligned mine source 0 0 state.pairs i₀ j₀ ∧
    Waiting mine .removed i₀ state.pendingRemovals i ∧
    Waiting source .added j₀ state.pendingAdditions j
  count : countUnchanged state.pairs = kept

theorem Laid.drain {kept i j : Nat} {state : Alignment} (h : Laid mine source kept i j state) :
    Aligned mine source 0 0 (drainPending state).pairs i j ∧
      countUnchanged (drainPending state).pairs = kept := by
  obtain ⟨i₀, j₀, haligned, hremovals, hadditions⟩ := h.pairs
  obtain ⟨hbeside, hcount⟩ := aligned_beside hremovals hadditions
  refine ⟨haligned.append hbeside, ?_⟩
  change countUnchanged (state.pairs ++ beside _ _) = kept
  rw [countUnchanged_append, hcount, h.count, Nat.add_zero]

theorem unchangedPair_eq {i j : Nat} {line line' : Text} (hmine : mine[i]? = some line)
    (hsource : source[j]? = some line') : unchangedPair mine source i j =
      some (some (marked i line .unchanged), some (marked j line' .unchanged)) := by
  unfold unchangedPair
  rw [hmine, hsource]
  rfl

section Step

variable {kept i j : Nat} {state : Alignment} {line : Text} (h : Laid mine source kept i j state)

include h

theorem Laid.keep (hmine : mine[i]? = some line) (hsource : source[j]? = some line) :
    ∃ state', layStep mine source state (.keep i j) = some state' ∧
      Laid mine source (kept + 1) (i + 1) (j + 1) state' := by
  obtain ⟨haligned, hcount⟩ := h.drain
  refine ⟨{ drainPending state with
    pairs := (drainPending state).pairs ++
      [(some (marked i line .unchanged), some (marked j line .unchanged))] }, ?_, ?_, ?_⟩
  · simp [layStep, unchangedPair_eq hmine hsource]
  · exact ⟨i + 1, j + 1, haligned.append (.same hmine hsource (.nil _ _)), .nil _, .nil _⟩
  · rw [countUnchanged_append, hcount]
    rfl

theorem Laid.remove (hmine : mine[i]? = some line) :
    ∃ state', layStep mine source state (.remove i) = some state' ∧
      Laid mine source kept (i + 1) j state' := by
  obtain ⟨i₀, j₀, haligned, hremovals, hadditions⟩ := h.pairs
  refine ⟨{ state with pendingRemovals := state.pendingRemovals ++ [marked i line .removed] }, ?_,
    ⟨i₀, j₀, haligned, hremovals.snoc hmine, hadditions⟩, h.count⟩
  simp [layStep, hmine, marked]

theorem Laid.add (hsource : source[j]? = some line) :
    ∃ state', layStep mine source state (.add j) = some state' ∧
      Laid mine source kept i (j + 1) state' := by
  obtain ⟨i₀, j₀, haligned, hremovals, hadditions⟩ := h.pairs
  refine ⟨{ state with pendingAdditions := state.pendingAdditions ++ [marked j line .added] }, ?_,
    ⟨i₀, j₀, haligned, hremovals, hadditions.snoc hsource⟩, h.count⟩
  simp [layStep, hsource, marked]

end Step

/-- The loop over a script lays its steps out. -/
theorem layScript_spec {mineStop sourceStop i j : Nat} {steps : List Step}
    (hscript : Script mine source mineStop sourceStop i j steps) :
    ∀ {kept : Nat} {state : Alignment}, Laid mine source kept i j state →
      ∃ state', steps.foldlM (layStep mine source) state = some state' ∧
        Laid mine source (kept + steps.countP Step.isKeep) mineStop sourceStop state' := by
  induction hscript with
  | done => exact fun h => ⟨_, rfl, h⟩
  | keep hmine hsource _ ih =>
    intro kept state h
    obtain ⟨next, hnext, hlaid⟩ := h.keep hmine hsource
    obtain ⟨state', hstate, hfinal⟩ := ih hlaid
    refine ⟨state', ?_, ?_⟩
    · rw [foldlM_cons, hnext]
      exact hstate
    · rw [countP_cons_of_pos (by rfl), Nat.add_comm _ 1, ← Nat.add_assoc]
      exact hfinal
  | remove hmine _ ih =>
    intro kept state h
    obtain ⟨next, hnext, hlaid⟩ := h.remove hmine
    obtain ⟨state', hstate, hfinal⟩ := ih hlaid
    refine ⟨state', ?_, hfinal⟩
    rw [foldlM_cons, hnext]
    exact hstate
  | add hsource _ ih =>
    intro kept state h
    obtain ⟨next, hnext, hlaid⟩ := h.add hsource
    obtain ⟨state', hstate, hfinal⟩ := ih hlaid
    refine ⟨state', ?_, hfinal⟩
    rw [foldlM_cons, hnext]
    exact hstate

theorem unchangedRun_spec : ∀ {count i j : Nat}, (∀ k, k < count → ∃ line,
      mine[i + k]? = some line ∧ source[j + k]? = some line) →
    ∃ pairs, ((List.range count).mapM fun k => unchangedPair mine source (i + k) (j + k)) =
        some pairs ∧
      Aligned mine source i j pairs (i + count) (j + count) ∧ countUnchanged pairs = count := by
  intro count
  induction count with
  | zero => exact fun _ => ⟨[], rfl, .nil _ _, rfl⟩
  | succ count ih =>
    intro i j h
    obtain ⟨pairs, hpairs, haligned, hcount⟩ := ih fun k hk => h k (by omega)
    obtain ⟨line, hmine, hsource⟩ := h count (by omega)
    refine ⟨pairs ++ [(some (marked (i + count) line .unchanged),
      some (marked (j + count) line .unchanged))], ?_,
      haligned.append (.same hmine hsource (.nil _ _)), ?_⟩
    · rw [range_succ, mapM_append, hpairs]
      simp [unchangedPair_eq hmine hsource]
    · rw [countUnchanged_append, hcount]
      rfl

end Pairs

/-! ## Alignment -/

section Affixes

variable (left right : List Text)

theorem commonPrefix_spec : ∃ front back back', left = front ++ back ∧ right = front ++ back' ∧
    front.length = commonPrefix left right := by
  induction left generalizing right with
  | nil => exact ⟨[], [], right, rfl, rfl, rfl⟩
  | cons line left ih =>
    cases right with
    | nil => exact ⟨[], line :: left, [], rfl, rfl, rfl⟩
    | cons line' right =>
      unfold commonPrefix at ih ⊢
      rw [zip_cons_cons, takeWhile_cons]
      by_cases hsame : line = line'
      · obtain ⟨front, back, back', hleft, hright, hlen⟩ := ih right
        subst hsame
        refine ⟨line :: front, back, back', congrArg _ hleft, congrArg _ hright, ?_⟩
        simp only [beq_self_eq_true, if_true, length_cons, hlen]
      · exact ⟨[], line :: left, line' :: right, rfl, rfl, by simp [hsame]⟩

theorem commonPrefix_self : commonPrefix left left = left.length := by
  induction left with
  | nil => rfl
  | cons line left ih =>
    unfold commonPrefix at ih ⊢
    rw [zip_cons_cons, takeWhile_cons]
    simp only [beq_self_eq_true, if_true, length_cons, ih]

theorem commonSuffix_eq : commonSuffix left right = commonPrefix left.reverse right.reverse := rfl

theorem commonSuffix_spec : ∃ front front' back, left = front ++ back ∧ right = front' ++ back ∧
    back.length = commonSuffix left right := by
  obtain ⟨back, front, front', hleft, hright, hlen⟩ :=
    commonPrefix_spec left.reverse right.reverse
  refine ⟨front.reverse, front'.reverse, back.reverse, ?_, ?_, ?_⟩
  · rw [← reverse_append, ← hleft, reverse_reverse]
  · rw [← reverse_append, ← hright, reverse_reverse]
  · rw [length_reverse, hlen, commonSuffix_eq]

end Affixes

theorem script_replacement {start count count' : Nat}
    (hmine : start + count ≤ mine.length) (hsource : start + count' ≤ source.length) :
    Script mine source (start + count) (start + count') start start
      ((List.range count).map (fun index => .remove (start + index)) ++
        (List.range count').map fun index => .add (start + index)) := by
  have hshift : ∀ n, (List.range' 0 n).map (start + ·) = List.range' start n := fun n => by
    rw [map_add_range', Nat.add_zero]
  have hscript := script_remaining hmine hsource (Nat.le_add_right start count)
    (Nat.le_add_right start count')
  rw [Nat.add_sub_cancel_left, Nat.add_sub_cancel_left, ← hshift, ← hshift, List.map_map,
    List.map_map, ← range_eq_range', ← range_eq_range'] at hscript
  exact hscript

section Align

variable (front middle middle' back : List Text)

theorem getElem?_middle (hk : k < middle.length) :
    (front ++ (middle ++ back))[front.length + k]? = middle[k]? := by
  rw [getElem?_append_right (by omega), Nat.add_sub_cancel_left, getElem?_append_left hk]

theorem getElem?_front (rest rest' : List Text) (hk : k < front.length) :
    ∃ line, (front ++ rest)[0 + k]? = some line ∧ (front ++ rest')[0 + k]? = some line := by
  rw [Nat.zero_add, getElem?_append_left hk, getElem?_append_left hk]
  exact ⟨front[k], getElem?_eq_getElem hk, getElem?_eq_getElem hk⟩

theorem getElem?_back (hk : k < back.length) : ∃ line,
    (front ++ (middle ++ back))[front.length + middle.length + k]? = some line ∧
      (front ++ (middle' ++ back))[front.length + middle'.length + k]? = some line := by
  refine ⟨back[k], ?_, ?_⟩
  · rw [← append_assoc, getElem?_append_right (by simp), length_append,
      Nat.add_sub_cancel_left]
    exact getElem?_eq_getElem hk
  · rw [← append_assoc, getElem?_append_right (by simp), length_append,
      Nat.add_sub_cancel_left]
    exact getElem?_eq_getElem hk

theorem slice_middle : slice (front ++ (middle ++ back)) front.length
    (front.length + middle.length) = some middle := by
  rw [slice_eq (by omega) (by simp only [length_append]; omega), drop_left,
    Nat.add_sub_cancel_left, take_left]

theorem sub_middle : sub (front ++ (middle ++ back)).length (front.length + middle.length) =
    some back.length := by
  rw [sub_eq (by simp only [length_append]; omega)]
  simp only [length_append, some.injEq]
  omega

theorem alignScript_spec : ∃ steps, (if decide (middle.length > LineComparison.maxAlignedLines) ||
          decide (middle'.length > LineComparison.maxAlignedLines) then
        some ((List.range middle.length).map (fun index => Step.remove (front.length + index)) ++
          (List.range middle'.length).map fun index => Step.add (front.length + index))
      else longestCommonSubsequence middle middle' front.length front.length) = some steps ∧
      Script (front ++ (middle ++ back)) (front ++ (middle' ++ back))
        (front.length + middle.length) (front.length + middle'.length) front.length front.length
        steps ∧
      ((decide (middle.length > LineComparison.maxAlignedLines) ||
          decide (middle'.length > LineComparison.maxAlignedLines)) = false →
        IsLongest (steps.countP Step.isKeep) middle middle') := by
  have hmine : front.length + middle.length ≤ (front ++ (middle ++ back)).length := by
    simp only [length_append]
    omega
  have hsource : front.length + middle'.length ≤ (front ++ (middle' ++ back)).length := by
    simp only [length_append]
    omega
  cases hlarge : decide (middle.length > LineComparison.maxAlignedLines) ||
      decide (middle'.length > LineComparison.maxAlignedLines) with
  | true => exact ⟨_, rfl, script_replacement hmine hsource, nofun⟩
  | false =>
    obtain ⟨steps, hsteps, hscript, hlongest⟩ := longestCommonSubsequence_spec hmine hsource
      (fun k hk => getElem?_middle front middle back hk)
      (fun k hk => getElem?_middle front middle' back hk)
    exact ⟨steps, hsteps, hscript, fun _ => hlongest⟩

/-- The alignment of two lists that share their beginning and their end. -/
theorem align_spec : ∃ pairs, align (front ++ (middle ++ back)) (front ++ (middle' ++ back)) front.length
        (front.length + middle.length) (front.length + middle'.length) =
      some (pairs, decide (middle.length > LineComparison.maxAlignedLines) ||
        decide (middle'.length > LineComparison.maxAlignedLines)) ∧
      Aligned (front ++ (middle ++ back)) (front ++ (middle' ++ back)) 0 0 pairs
        (front ++ (middle ++ back)).length (front ++ (middle' ++ back)).length ∧
      ((decide (middle.length > LineComparison.maxAlignedLines) ||
          decide (middle'.length > LineComparison.maxAlignedLines)) = false →
        IsLongest (countUnchanged pairs) (front ++ (middle ++ back))
          (front ++ (middle' ++ back))) := by
  obtain ⟨steps, hsteps, hscript, hlongest⟩ := alignScript_spec front middle middle' back
  obtain ⟨first, hfirst, haligned, hcount⟩ :=
    unchangedRun_spec fun k hk => getElem?_front front (middle ++ back) (middle' ++ back) hk
  obtain ⟨last, hlast, haligned', hcount'⟩ :=
    unchangedRun_spec fun k hk => getElem?_back front middle middle' back hk
  have hlaid : Laid (front ++ (middle ++ back)) (front ++ (middle' ++ back)) front.length
      front.length front.length ⟨first, [], []⟩ := by
    refine ⟨⟨front.length, front.length, ?_, .nil _, .nil _⟩, hcount⟩
    rwa [Nat.zero_add] at haligned
  obtain ⟨state, hstate, hfinal⟩ := layScript_spec hscript hlaid
  obtain ⟨hdrained, hkept⟩ := hfinal.drain
  refine ⟨(drainPending state).pairs ++ last, ?_, ?_, ?_⟩
  · simp only [Nat.zero_add] at hfirst
    unfold align
    rw [hfirst, slice_middle, slice_middle]
    simp only [bind_eq_bind, bind_some, Option.pure_def, sub_middle, hlast]
    split at hsteps
    · rename_i hlarge
      cases hsteps
      rw [if_pos hlarge, hstate]
      rfl
    · rename_i hsmall
      rw [if_neg hsmall, hsteps, bind_some, hstate]
      rfl
  · have hall := hdrained.append haligned'
    simpa [Nat.add_assoc] using hall
  · intro hsmall
    rw [countUnchanged_append, hkept, hcount', Nat.add_assoc]
    exact ((hlongest hsmall).append_right back).append_left front

end Align

/-! ## What the pairs show -/

section Shown

variable {mine source : List Text} {i j i' j' : Nat} {pairs : List Pair}

/-- Lines with their numbers, the first one after `index`. -/
def numberedFrom (index : Nat) (lines : List Text) : List (Nat × Text) :=
  (lines.zipIdx (index + 1)).map fun (line, number) => (number, line)

/-- What one side of the comparison shows. -/
def shown (side : Pair → Option DiffLine) (pairs : List Pair) : List (Nat × Text) :=
  (pairs.filterMap side).map fun line => (line.number, line.text)

theorem Aligned.le (h : Aligned mine source i j pairs i' j') : i ≤ i' ∧ j ≤ j' := by
  induction h with
  | nil => exact ⟨le_rfl, le_rfl⟩
  | same _ _ _ ih | both _ _ _ ih | left _ _ ih | right _ _ ih => omega

theorem take_step {lines : List Text} {stop : Nat} {line : Text}
    (hline : lines[index]? = some line) (hle : index + 1 ≤ stop) :
    (lines.drop index).take (stop - index) =
      line :: (lines.drop (index + 1)).take (stop - (index + 1)) := by
  have hcount : stop - index = stop - (index + 1) + 1 := by omega
  rw [drop_of_getElem? hline, hcount, take_succ_cons]

theorem numberedFrom_cons (index : Nat) (line : Text) (lines : List Text) :
    numberedFrom index (line :: lines) = (index + 1, line) :: numberedFrom (index + 1) lines := rfl

theorem Aligned.shown (h : Aligned mine source i j pairs i' j') :
    shown Prod.fst pairs = numberedFrom i ((mine.drop i).take (i' - i)) ∧
      shown Prod.snd pairs = numberedFrom j ((source.drop j).take (j' - j)) := by
  induction h with
  | nil => simp [FesTerm.Document.shown, numberedFrom]
  | same hmine hsource hrest ih | both hmine hsource hrest ih =>
    obtain ⟨hi, hj⟩ := hrest.le
    rw [take_step hmine hi, take_step hsource hj, numberedFrom_cons, numberedFrom_cons]
    exact ⟨congrArg _ ih.1, congrArg _ ih.2⟩
  | left hmine hrest ih =>
    obtain ⟨hi, -⟩ := hrest.le
    rw [take_step hmine hi, numberedFrom_cons]
    exact ⟨congrArg _ ih.1, ih.2⟩
  | right hsource hrest ih =>
    obtain ⟨-, hj⟩ := hrest.le
    rw [take_step hsource hj, numberedFrom_cons]
    exact ⟨ih.1, congrArg _ ih.2⟩

theorem Aligned.equal (h : Aligned mine source i j pairs i' j') {left right : Option DiffLine}
    (hpair : (left, right) ∈ pairs) (hchange : isChanged left right = false) :
    ∃ a b, left = some a ∧ right = some b ∧ a.text = b.text := by
  induction h with
  | nil => cases hpair
  | same hmine hsource hrest ih =>
    rcases mem_cons.mp hpair with heq | hmem
    · cases heq
      exact ⟨_, _, rfl, rfl, rfl⟩
    · exact ih hmem
  | both _ _ _ ih | left _ _ ih | right _ _ ih =>
    rcases mem_cons.mp hpair with heq | hmem
    · cases heq
      cases hchange
    · exact ih hmem

theorem Aligned.changes (h : Aligned mine source i j pairs i' j') :
    ∃ removed added, i' = i + countUnchanged pairs + removed ∧
      j' = j + countUnchanged pairs + added ∧ countChanged pairs ≤ removed + added := by
  induction h with
  | nil => exact ⟨0, 0, rfl, rfl, Nat.le_refl 0⟩
  | same _ _ _ ih =>
    obtain ⟨removed, added, hi, hj, hle⟩ := ih
    simp only [countUnchanged_cons, countChanged_cons, isChanged_same, Bool.false_eq_true, if_false]
    exact ⟨removed, added, by omega, by omega, hle⟩
  | both _ _ _ ih =>
    obtain ⟨removed, added, hi, hj, hle⟩ := ih
    simp only [countUnchanged_cons, countChanged_cons, isChanged_left, if_true]
    exact ⟨removed + 1, added + 1, by omega, by omega, by omega⟩
  | left _ _ ih =>
    obtain ⟨removed, added, hi, hj, hle⟩ := ih
    simp only [countUnchanged_cons, countChanged_cons, isChanged_left, if_true]
    exact ⟨removed + 1, added, by omega, by omega, by omega⟩
  | right _ _ ih =>
    obtain ⟨removed, added, hi, hj, hle⟩ := ih
    simp only [countUnchanged_cons, countChanged_cons, isChanged_right, if_true]
    exact ⟨removed, added + 1, by omega, by omega, by omega⟩

theorem Aligned.eq_of_unchanged (h : Aligned mine source i j pairs i' j') (hnone : countChanged pairs = 0) :
    (mine.drop i).take (i' - i) = (source.drop j).take (j' - j) := by
  induction h with
  | nil i j => rw [Nat.sub_self, Nat.sub_self, take_zero, take_zero]
  | same hmine hsource hrest ih =>
    rw [countChanged_cons, isChanged_same] at hnone
    obtain ⟨hi, hj⟩ := hrest.le
    rw [take_step hmine hi, take_step hsource hj, ih hnone]
  | both _ _ _ ih | left _ _ ih | right _ _ ih =>
    simp [countChanged_cons] at hnone

end Shown

/-! ## Rows -/

/-- The rows with what they hide put back from the two lists of lines. -/
def restored (mine source : List Text) : Nat → Nat → List LineComparisonRow → Option (List Pair)
  | _, _, [] => some []
  | i, j, .pair left right :: rows => do
    let rest ← restored mine source (i + left.toList.length) (j + right.toList.length) rows
    return (left, right) :: rest
  | i, j, .collapsed count :: rows => do
    let hidden ← (List.range count).mapM fun k => unchangedPair mine source (i + k) (j + k)
    let rest ← restored mine source (i + count) (j + count) rows
    return hidden ++ rest

def pairRow (pair : Pair) : LineComparisonRow := .pair pair.1 pair.2

section Rows

variable {mine source : List Text}

/-- Rows that stand for the pairs from one place to another. -/
structure Shows (mine source : List Text) (i j : Nat) (rows : List LineComparisonRow)
    (pairs : List Pair) (i' j' : Nat) : Prop where
  aligned : Aligned mine source i j pairs i' j'
  restored : ∀ rows' pairs', restored mine source i' j' rows' = some pairs' →
    FesTerm.Document.restored mine source i j (rows ++ rows') = some (pairs ++ pairs')

variable {i j i' j' : Nat} {pairs : List Pair}

theorem Shows.append {i'' j'' : Nat} {rows rows' : List LineComparisonRow} (h : Shows mine source i j rows pairs i' j')
    (h' : Shows mine source i' j' rows' pairs' i'' j'') :
    Shows mine source i j (rows ++ rows') (pairs ++ pairs') i'' j'' := by
  refine ⟨h.aligned.append h'.aligned, fun rows'' pairs'' hrest => ?_⟩
  rw [append_assoc, append_assoc]
  exact h.restored _ _ (h'.restored _ _ hrest)

theorem shows_pairs (h : Aligned mine source i j pairs i' j') :
    Shows mine source i j (pairs.map pairRow) pairs i' j' := by
  refine ⟨h, ?_⟩
  induction h with
  | nil => exact fun _ _ hrest => hrest
  | same _ _ _ ih | both _ _ _ ih | left _ _ ih | right _ _ ih =>
    intro rows' pairs' hrest
    have hnext := ih rows' pairs' hrest
    rw [map_cons, cons_append, pairRow, restored]
    simp only [toList_some, toList_none, length_singleton, length_nil,
      Nat.add_zero, hnext, some_bind, Option.pure_def, cons_append]

theorem Aligned.hidden (h : Aligned mine source i j pairs i' j') (hnone : countChanged pairs = 0) :
    i' = i + pairs.length ∧ j' = j + pairs.length ∧
      ((List.range pairs.length).mapM fun k => unchangedPair mine source (i + k) (j + k)) =
        some pairs := by
  induction h with
  | nil => exact ⟨rfl, rfl, rfl⟩
  | @same i j i' j' line pairs hmine hsource hrest ih =>
    rw [countChanged_cons, isChanged_same] at hnone
    obtain ⟨hi, hj, hpairs⟩ := ih hnone
    rw [length_cons]
    refine ⟨by omega, by omega, ?_⟩
    have hshift : ∀ k, unchangedPair mine source (i + (k + 1)) (j + (k + 1)) =
        unchangedPair mine source (i + 1 + k) (j + 1 + k) := fun k => by
      rw [Nat.add_right_comm i, Nat.add_right_comm j]
      rfl
    rw [range_succ_eq_map, mapM_cons, Nat.add_zero, Nat.add_zero,
      unchangedPair_eq hmine hsource, mapM_map]
    simp only [Function.comp_def, Nat.succ_eq_add_one, hshift, hpairs, bind_eq_bind,
      bind_some, Option.pure_def]
  | both _ _ _ ih | left _ _ ih | right _ _ ih =>
    simp [countChanged_cons] at hnone

theorem shows_collapsed (h : Aligned mine source i j pairs i' j') (hnone : countChanged pairs = 0) :
    Shows mine source i j [.collapsed pairs.length] pairs i' j' := by
  obtain ⟨rfl, rfl, hpairs⟩ := h.hidden hnone
  refine ⟨h, fun rows' pairs' hrest => ?_⟩
  rw [singleton_append, restored, hpairs, hrest]
  rfl

theorem Aligned.split : ∀ {i j i' j' : Nat},
    Aligned mine source i j (pairs ++ pairs') i' j' →
    ∃ i₁ j₁, Aligned mine source i j pairs i₁ j₁ ∧ Aligned mine source i₁ j₁ pairs' i' j' := by
  induction pairs with
  | nil => exact fun h => ⟨_, _, .nil _ _, h⟩
  | cons pair pairs ih =>
    intro i j i' j' h
    rw [cons_append] at h
    cases h with
    | same hmine hsource hrest =>
      obtain ⟨i₁, j₁, hfront, hback⟩ := ih hrest
      exact ⟨i₁, j₁, .same hmine hsource hfront, hback⟩
    | both hmine hsource hrest =>
      obtain ⟨i₁, j₁, hfront, hback⟩ := ih hrest
      exact ⟨i₁, j₁, .both hmine hsource hfront, hback⟩
    | left hmine hrest =>
      obtain ⟨i₁, j₁, hfront, hback⟩ := ih hrest
      exact ⟨i₁, j₁, .left hmine hfront, hback⟩
    | right hsource hrest =>
      obtain ⟨i₁, j₁, hfront, hback⟩ := ih hrest
      exact ⟨i₁, j₁, .right hsource hfront, hback⟩

theorem countChanged_append (pairs pairs' : List Pair) :
    countChanged (pairs ++ pairs') = countChanged pairs + countChanged pairs' :=
  countP_append

/-- Whether a row is a change. -/
def LineComparisonRow.isChange : LineComparisonRow → Bool
  | .pair left right => isChanged left right
  | .collapsed _ => false

theorem countP_pairRow (pairs : List Pair) :
    (pairs.map pairRow).countP LineComparisonRow.isChange = countChanged pairs := by
  rw [countP_map]
  rfl

/-- Folding a run away loses none of it. -/
theorem foldRun_spec {run : List Pair}
    (h : Aligned mine source i j run i' j') (hnone : countChanged run = 0) (leading : Bool) :
    ∃ rows, foldRun (run.map pairRow) leading = some rows ∧
      Shows mine source i j rows run i' j' ∧ rows.countP LineComparisonRow.isChange = 0 := by
  unfold foldRun
  rw [length_map]
  by_cases hshort : run.length ≤ LineComparison.contextLines * 2 + 1
  · refine ⟨run.map pairRow, if_pos hshort, shows_pairs h, ?_⟩
    rw [countP_pairRow, hnone]
  · have hlong : LineComparison.contextLines ≤ run.length := by
      unfold LineComparison.contextLines at hshort ⊢
      omega
    -- the run is cut in front of its last lines or behind its first ones
    have hcut : ∀ at', run = run.take at' ++ run.drop at' := fun at' =>
      (take_append_drop at' run).symm
    have hparts : ∀ at', ∃ i₁ j₁, Aligned mine source i j (run.take at') i₁ j₁ ∧
        Aligned mine source i₁ j₁ (run.drop at') i' j' ∧ countChanged (run.take at') = 0 ∧
        countChanged (run.drop at') = 0 := by
      intro at'
      rw [hcut at'] at h hnone
      rw [countChanged_append] at hnone
      obtain ⟨i₁, j₁, hfront, hback⟩ := h.split
      exact ⟨i₁, j₁, hfront, hback, by omega, by omega⟩
    cases leading with
    | true =>
      obtain ⟨i₁, j₁, hfront, hback, hnone₁, hnone₂⟩ :=
        hparts (run.length - LineComparison.contextLines)
      have hshows := (shows_collapsed hfront hnone₁).append (shows_pairs hback)
      rw [← hcut] at hshows
      refine ⟨_, ?_, hshows, ?_⟩
      · simp only [if_neg hshort, if_true, sub_eq hlong, some_bind,
          splitAt_eq, ← map_take, ← map_drop, length_map]
        rfl
      · rw [countP_append, countP_pairRow, hnone₂]
        rfl
    | false =>
      obtain ⟨i₁, j₁, hfront, hback, hnone₁, hnone₂⟩ := hparts LineComparison.contextLines
      have hshows := (shows_pairs hfront).append (shows_collapsed hback hnone₂)
      rw [← hcut] at hshows
      refine ⟨_, ?_, hshows, ?_⟩
      · simp only [if_neg hshort, Bool.false_eq_true, if_false, bind_eq_bind,
          bind_some, splitAt_eq, ← map_take, ← map_drop, length_map]
        rfl
      · rw [countP_append, countP_pairRow, hnone₁]
        rfl

/-- What the loop over the pairs has done with those it has seen. -/
structure Rendered (mine source : List Text) (i j : Nat) (seen : List Pair) (state : Rendering) :
    Prop where
  parts : ∃ front run i₀ j₀, seen = front ++ run ∧ Shows mine source 0 0 state.rows front i₀ j₀ ∧
    Aligned mine source i₀ j₀ run i j ∧ countChanged run = 0 ∧
    state.unchangedRun = run.map pairRow
  count : state.changeCount = countChanged seen
  rows : state.rows.countP LineComparisonRow.isChange = countChanged seen

theorem Rendered.step {seen : List Pair} {state : Rendering} {pair : Pair}
    (h : Rendered mine source i j seen state) (hpair : Aligned mine source i j [pair] i' j') :
    ∃ state', renderPair state pair = some state' ∧
      Rendered mine source i' j' (seen ++ [pair]) state' := by
  obtain ⟨front, run, i₀, j₀, rfl, hshows, hrun, hnone, hunchanged⟩ := h.parts
  unfold renderPair
  cases hchange : isChanged pair.1 pair.2 with
  | true =>
    have hone : countChanged [pair] = 1 := by rw [countChanged_cons, hchange]; rfl
    obtain ⟨rows, hrows, hfolded, hzero⟩ := foldRun_spec hrun hnone true
    refine ⟨⟨state.rows ++ rows ++ [.pair pair.1 pair.2], state.changeCount + 1, []⟩, ?_, ?_, ?_, ?_⟩
    · rw [hunchanged, hrows]
      rfl
    · exact ⟨front ++ run ++ [pair], [], i', j', (append_nil _).symm,
        (hshows.append hfolded).append (shows_pairs hpair), .nil _ _, rfl, rfl⟩
    · rw [countChanged_append, hone, h.count]
    · rw [countP_append, countP_append, h.rows, hzero, countChanged_append _ [pair], hone,
        countP_singleton]
      exact congrArg _ (if_pos hchange)
  | false =>
    have hzero : countChanged [pair] = 0 := by rw [countChanged_cons, hchange]; rfl
    refine ⟨{ state with unchangedRun := state.unchangedRun ++ [.pair pair.1 pair.2] }, rfl, ?_, ?_,
      ?_⟩
    · refine ⟨front, run ++ [pair], i₀, j₀, append_assoc _ _ _, hshows, hrun.append hpair, ?_, ?_⟩
      · rw [countChanged_append, hnone, hzero]
      · rw [map_append, hunchanged]
        rfl
    · rw [countChanged_append, hzero, h.count]
      rfl
    · rw [countChanged_append, hzero, h.rows]
      rfl

theorem render_spec : ∀ {i j i' j' : Nat} {seen : List Pair}
    {state : Rendering}, Rendered mine source i j seen state → Aligned mine source i j pairs i' j' →
    ∃ state', pairs.foldlM renderPair state = some state' ∧
      Rendered mine source i' j' (seen ++ pairs) state' := by
  induction pairs with
  | nil =>
    rintro i j i' j' seen state h ⟨⟩
    exact ⟨state, rfl, by rwa [append_nil]⟩
  | cons pair pairs ih =>
    intro i j i' j' seen state h hpairs
    have hcons : Aligned mine source i j ([pair] ++ pairs) i' j' := hpairs
    obtain ⟨i₁, j₁, hfirst, hrest⟩ := hcons.split
    obtain ⟨next, hnext, hrendered⟩ := h.step hfirst
    obtain ⟨state', hstate, hfinal⟩ := ih hrendered hrest
    refine ⟨state', ?_, ?_⟩
    · rw [foldlM_cons, hnext]
      exact hstate
    · rwa [append_assoc] at hfinal

end Rows

/-! ## The comparison -/

namespace LineComparison

theorem length_changeRows (comparison : LineComparison) :
    comparison.changeRows.length = comparison.rows.countP LineComparisonRow.isChange := by
  have hrows : ∀ (changeAt : LineComparisonRow × Nat → Option Nat),
      (∀ row index, (changeAt (row, index)).isSome = row.isChange) →
      ∀ (rows : List LineComparisonRow) (index : Nat),
        ((rows.zipIdx index).filterMap changeAt).length =
          rows.countP LineComparisonRow.isChange := by
    intro changeAt hchange rows
    induction rows with
    | nil => exact fun _ => rfl
    | cons row rows ih =>
      intro index
      rw [zipIdx_cons, filterMap_cons, countP_cons, ← hchange row index]
      cases changeAt (row, index) with
      | none => simp [ih]
      | some place => simp [ih]
  refine hrows _ (fun row index => ?_) comparison.rows 0
  cases row with
  | pair left right =>
    cases hchange : isChanged left right <;> simp [hchange, LineComparisonRow.isChange]
  | collapsed count => simp [LineComparisonRow.isChange]

/-- The comparison of two lists of lines that are split where they differ. -/
theorem new_spec (mine source : Text) : ∃ comparison pairs, LineComparison.new mine source = some comparison ∧
      Shows (lines mine) (lines source) 0 0 comparison.rows pairs (lines mine).length
        (lines source).length ∧
      comparison.changeCount = countChanged pairs ∧
      comparison.rows.countP LineComparisonRow.isChange = countChanged pairs ∧
      (lines mine = lines source → comparison.truncated = false) ∧
      (comparison.truncated = false →
        IsLongest (countUnchanged pairs) (lines mine) (lines source)) := by
  obtain ⟨front, rest, rest', hmine, hsource, hstart⟩ :=
    commonPrefix_spec (lines mine) (lines source)
  obtain ⟨middle, middle', back, hmiddle, hmiddle', hstop⟩ := commonSuffix_spec rest rest'
  have hdrop : (lines mine).drop front.length = rest := by rw [hmine, drop_left]
  have hdrop' : (lines source).drop front.length = rest' := by rw [hsource, drop_left]
  have hequal : lines mine = lines source → middle = [] ∧ middle' = [] := by
    intro heq
    rw [heq, commonPrefix_self, ← heq] at hstart
    have hlen := congrArg List.length hmine
    have hlen' := congrArg List.length hsource
    rw [← heq] at hlen'
    rw [hmiddle] at hlen
    rw [hmiddle'] at hlen'
    simp only [length_append] at hlen hlen'
    exact ⟨length_eq_zero_iff.mp (by omega), length_eq_zero_iff.mp (by omega)⟩
  rw [hmiddle] at hmine
  rw [hmiddle'] at hsource
  have hsub : sub (lines mine).length back.length = some (front.length + middle.length) := by
    rw [hmine, sub_eq (by simp only [length_append]; omega)]
    simp only [length_append, some.injEq]
    omega
  have hsub' : sub (lines source).length back.length = some (front.length + middle'.length) := by
    rw [hsource, sub_eq (by simp only [length_append]; omega)]
    simp only [length_append, some.injEq]
    omega
  obtain ⟨pairs, hpairs, haligned, hlongest⟩ := align_spec front middle middle' back
  rw [← hmine, ← hsource] at hpairs haligned hlongest
  have hstartState : Rendered (lines mine) (lines source) 0 0 [] ⟨[], 0, []⟩ :=
    ⟨⟨[], [], 0, 0, rfl, shows_pairs (.nil 0 0), .nil 0 0, rfl, rfl⟩, rfl, rfl⟩
  obtain ⟨state, hstate, hrendered⟩ := render_spec hstartState haligned
  rw [nil_append] at hrendered
  obtain ⟨before, run, i, j, hseen, hshows, hrun, hnone, hunchanged⟩ := hrendered.parts
  obtain ⟨rows, hrows, hfolded, hzero⟩ := foldRun_spec hrun hnone false
  refine ⟨⟨state.rows ++ rows, state.changeCount, decide (middle.length > maxAlignedLines) ||
    decide (middle'.length > maxAlignedLines)⟩, pairs, ?_, ?_, hrendered.count, ?_, ?_, hlongest⟩
  · unfold LineComparison.new
    simp only [← hstart, hdrop, hdrop', ← hstop, hsub, hsub', hpairs, hstate, hunchanged, hrows,
      some_bind, Option.pure_def]
  · rw [hseen]
    exact hshows.append hfolded
  · rw [countP_append, hrendered.rows, hzero, Nat.add_zero]
  · intro heq
    obtain ⟨rfl, rfl⟩ := hequal heq
    rfl

end LineComparison

/-- The comparison shows both versions whole: with what its folded rows hide put back, each side has
all its lines under their numbers, what is not a change pairs equal lines, the changes are counted,
and unless the middle was too large to align no other pairing keeps more lines. -/
theorem line_comparison_is_faithful (mine source : Text) :
    ∃ comparison pairs, LineComparison.new mine source = some comparison ∧
      restored (lines mine) (lines source) 0 0 comparison.rows = some pairs ∧
      shown Prod.fst pairs = numberedFrom 0 (lines mine) ∧
      shown Prod.snd pairs = numberedFrom 0 (lines source) ∧
      (∀ left right, (left, right) ∈ pairs → isChanged left right = false →
        ∃ a b, left = some a ∧ right = some b ∧ a.text = b.text) ∧
      comparison.changeCount = comparison.changeRows.length ∧
      (comparison.isIdentical = true ↔ lines mine = lines source) ∧
      (comparison.truncated = false →
        IsLongest (countUnchanged pairs) (lines mine) (lines source)) := by
  obtain ⟨comparison, pairs, hnew, hshows, hcount, hrows, hsmall, hlongest⟩ :=
    LineComparison.new_spec mine source
  have haligned := hshows.aligned
  obtain ⟨hleft, hright⟩ := haligned.shown
  simp only [drop_zero, Nat.sub_zero, take_length] at hleft hright
  refine ⟨comparison, pairs, hnew, ?_, hleft, hright, fun left right hmem hchange =>
    haligned.equal hmem hchange, ?_, ?_, hlongest⟩
  · have hrestored := hshows.restored [] [] rfl
    rwa [append_nil, append_nil] at hrestored
  · rw [comparison.length_changeRows, hrows, hcount]
  · rw [LineComparison.isIdentical, beq_iff_eq, hcount]
    constructor
    · intro hnone
      have heq := haligned.eq_of_unchanged hnone
      simpa only [drop_zero, Nat.sub_zero, take_length] using heq
    · -- equal lists have a common subsequence as long as they are, which leaves no change
      intro heq
      obtain ⟨removed, added, hmine, hsource, hle⟩ := haligned.changes
      have hbound := (hlongest (hsmall heq)).bound (lines mine) (List.Sublist.refl _)
        (by rw [heq])
      have hlen := congrArg List.length heq
      omega

end FesTerm.Document
