import FesTerm.Document.Text

/-!
# The line comparison

`diff.rs`: the line-oriented comparison that a person reads to decide which whole version to keep.
Equal lines at both ends are set aside, the differing middle is aligned by a longest common
subsequence, and long runs of equal lines are folded away.

An index past the end of a list of lines or of the table stops the program, which is `none`.
-/

namespace FesTerm.Document

open Checked

/-- How one line differs. -/
inductive LineChange
  | unchanged
  | removed
  | added
deriving DecidableEq

/-- One line on one side of the comparison. -/
structure DiffLine where
  number : Nat
  text : Text
  change : LineChange
deriving DecidableEq

/-- The lines that stand beside each other. -/
abbrev Pair := Option DiffLine × Option DiffLine

/-- One row of the two-pane comparison. -/
inductive LineComparisonRow
  | pair (left right : Option DiffLine)
  | collapsed (lines : Nat)
deriving DecidableEq

/-- The whole comparison, ready to render. -/
structure LineComparison where
  rows : List LineComparisonRow
  changeCount : Nat
  truncated : Bool
deriving DecidableEq

namespace LineComparison

def contextLines : Nat := 2

def maxAlignedLines : Nat := 2000

end LineComparison

def commonPrefix (left right : List Text) : Nat :=
  ((left.zip right).takeWhile fun (one, other) => one == other).length

def commonSuffix (left right : List Text) : Nat :=
  ((left.reverse.zip right.reverse).takeWhile fun (one, other) => one == other).length

/-- The function `unchanged`. -/
def unchanged (index : Nat) (text : Text) : DiffLine where
  number := index + 1
  text := text
  change := .unchanged

inductive Step
  | keep (mine source : Nat)
  | remove (index : Nat)
  | add (index : Nat)
deriving DecidableEq

section Table

variable (mine source : List Text)

/-- The closure `at`. -/
def tableIndex (row column : Nat) : Nat := row * (source.length + 1) + column

/-- The body of the loop that fills the table. -/
def fillCell (row : Nat) (table : List Nat) (column : Nat) : Option (List Nat) := do
  let value ←
    if (← mine[row]?) = (← source[column]?) then
      pure ((← table[tableIndex source (row + 1) (column + 1)]?) + 1)
    else
      pure (max (← table[tableIndex source (row + 1) column]?)
        (← table[tableIndex source row (column + 1)]?))
  setAt table (tableIndex source row column) value

/-- The table over the differing middle, from its last row and column back. -/
def fillTable : Option (List Nat) :=
  forRangeRev 0 mine.length (List.replicate ((mine.length + 1) * (source.length + 1)) 0)
    fun table row => forRangeRev 0 source.length table (fillCell mine source row)

/-- What is left on both sides when one of them ends. -/
def remainingSteps (mineOffset sourceOffset row column : Nat) : List Step :=
  (List.range' row (mine.length - row)).map (fun index => .remove (mineOffset + index)) ++
    (List.range' column (source.length - column)).map fun index => .add (sourceOffset + index)

/-- The walk over the table, for at most so many moves. -/
def walkTable (table : List Nat) (mineOffset sourceOffset : Nat) : Nat → Nat → Nat → Option (List Step)
  | 0, row, column => some (remainingSteps mine source mineOffset sourceOffset row column)
  | moves + 1, row, column => do
    if row < mine.length ∧ column < source.length then
      if (← mine[row]?) = (← source[column]?) then
        let steps ← walkTable table mineOffset sourceOffset moves (row + 1) (column + 1)
        return .keep (mineOffset + row) (sourceOffset + column) :: steps
      else if (← table[tableIndex source (row + 1) column]?) ≥
          (← table[tableIndex source row (column + 1)]?) then
        let steps ← walkTable table mineOffset sourceOffset moves (row + 1) column
        return .remove (mineOffset + row) :: steps
      else
        let steps ← walkTable table mineOffset sourceOffset moves row (column + 1)
        return .add (sourceOffset + column) :: steps
    else return remainingSteps mine source mineOffset sourceOffset row column

def longestCommonSubsequence (mineOffset sourceOffset : Nat) : Option (List Step) := do
  walkTable mine source (← fillTable mine source) mineOffset sourceOffset
    (mine.length + source.length) 0 0

end Table

/-- The rows laid so far, and the lines that wait to be laid beside each other. -/
structure Alignment where
  pairs : List Pair
  pendingRemovals : List DiffLine
  pendingAdditions : List DiffLine

/-- `drain_pending`: lays removals beside additions so a changed line reads as one row. -/
def drainPending (state : Alignment) : Alignment where
  pairs := state.pairs ++
    (List.range (max state.pendingRemovals.length state.pendingAdditions.length)).map fun row =>
      (state.pendingRemovals[row]?, state.pendingAdditions[row]?)
  pendingRemovals := []
  pendingAdditions := []

/-- The row of two equal lines. -/
def unchangedPair (mine source : List Text) (mineIndex sourceIndex : Nat) : Option Pair := do
  return (some (unchanged mineIndex (← mine[mineIndex]?)),
    some (unchanged sourceIndex (← source[sourceIndex]?)))

/-- The body of the loop over the edit script. -/
def layStep (mine source : List Text) (state : Alignment) : Step → Option Alignment
  | .remove index => do
    let line := ⟨index + 1, ← mine[index]?, .removed⟩
    return { state with pendingRemovals := state.pendingRemovals ++ [line] }
  | .add index => do
    let line := ⟨index + 1, ← source[index]?, .added⟩
    return { state with pendingAdditions := state.pendingAdditions ++ [line] }
  | .keep mineIndex sourceIndex => do
    let state := drainPending state
    return { state with pairs := state.pairs ++ [← unchangedPair mine source mineIndex sourceIndex] }

/-- `align`: the middles end where `mineStop` and `sourceStop` say. -/
def align (mine source : List Text) (start mineStop sourceStop : Nat) : Option (List Pair × Bool) := do
  let first ← (List.range start).mapM fun index => unchangedPair mine source index index
  let mineMiddle ← slice mine start mineStop
  let sourceMiddle ← slice source start sourceStop
  let tooLarge := decide (mineMiddle.length > LineComparison.maxAlignedLines) ||
    decide (sourceMiddle.length > LineComparison.maxAlignedLines)
  let script ←
    if tooLarge then
      some ((List.range mineMiddle.length).map (fun index => .remove (start + index)) ++
        (List.range sourceMiddle.length).map fun index => .add (start + index))
    else longestCommonSubsequence mineMiddle sourceMiddle start start
  let state := drainPending (← script.foldlM (layStep mine source) ⟨first, [], []⟩)
  let last ← (List.range (← sub mine.length mineStop)).mapM fun index =>
    unchangedPair mine source (mineStop + index) (sourceStop + index)
  return (state.pairs ++ last, tooLarge)

/-- `fold`: folds a long run of unchanged rows into a single collapsed row. -/
def foldRun (run : List LineComparisonRow) (leading : Bool) : Option (List LineComparisonRow) := do
  let context := LineComparison.contextLines
  if run.length ≤ context * 2 + 1 then return run
  else
    let at' ← if leading then sub run.length context else some context
    let (head, tail) := run.splitAt at'
    if leading then return .collapsed head.length :: tail
    else return head ++ [.collapsed tail.length]

/-- One of the two is removed or added. -/
def isChanged (left right : Option DiffLine) : Bool :=
  left.any (·.change == .removed) || right.any (·.change == .added)

/-- What the loop over the pairs carries. -/
structure Rendering where
  rows : List LineComparisonRow
  changeCount : Nat
  unchangedRun : List LineComparisonRow

/-- The body of the loop over the pairs. -/
def renderPair (state : Rendering) (pair : Pair) : Option Rendering := do
  if isChanged pair.1 pair.2 then
    let folded ← foldRun state.unchangedRun true
    return ⟨state.rows ++ folded ++ [.pair pair.1 pair.2], state.changeCount + 1, []⟩
  else return { state with unchangedRun := state.unchangedRun ++ [.pair pair.1 pair.2] }

namespace LineComparison

/-- The comparison: common ends, alignment of the middle, long runs folded. -/
def new (mine source : Text) : Option LineComparison := do
  let mineLines := lines mine
  let sourceLines := lines source
  let start := commonPrefix mineLines sourceLines
  let stop := commonSuffix (mineLines.drop start) (sourceLines.drop start)
  let (pairs, truncated) ← align mineLines sourceLines start (← sub mineLines.length stop)
    (← sub sourceLines.length stop)
  let state ← pairs.foldlM renderPair ⟨[], 0, []⟩
  return ⟨state.rows ++ (← foldRun state.unchangedRun false), state.changeCount, truncated⟩

/-- No row differs. -/
def isIdentical (comparison : LineComparison) : Bool := comparison.changeCount == 0

/-- The places of the rows that differ. -/
def changeRows (comparison : LineComparison) : List Nat :=
  comparison.rows.zipIdx.filterMap fun (row, index) =>
    match row with
    | .pair left right => if isChanged left right then some index else none
    | .collapsed _ => none

end LineComparison

end FesTerm.Document
