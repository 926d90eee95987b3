import Mathlib.Data.Finset.Card

/-!
# Pane trees

`festerm-config/src/panes.rs`: the tree in which a group of panes divides a window. A leaf carries
the identity of its pane and the view shown there, a split divides its area between two trees.
`PaneTree::validate` admits what a saved workspace may hold, the other operations are the edits of
the pane commands.

A `String` is the list of its characters, a `HashSet` a finite set, and a method that changes its
receiver returns the changed tree.
-/

namespace FesTerm.Config

abbrev Text := List Char

/-- `str::as_bytes`. -/
def utf8Bytes (text : Text) : List UInt8 := text.flatMap String.utf8EncodeChar

def maxGroupPanes : Nat := 4

def ratioScale : Nat := 10000

inductive PaneAxis where
  | x
  | y
  deriving DecidableEq, Repr

inductive PaneSide where
  | left
  | right
  | above
  | below
  deriving DecidableEq, Repr

inductive PanePreset where
  | columns
  | rows
  | grid
  deriving DecidableEq, Repr

def PaneSide.axis : PaneSide → PaneAxis
  | .left | .right => .x
  | .above | .below => .y

def PaneSide.first : PaneSide → Bool
  | .left | .above => true
  | .right | .below => false

/-- The ratio of a split is its first tree's share, out of `ratioScale`. -/
inductive PaneTree (V : Type) where
  | leaf (paneId : Text) (view : V)
  | split (axis : PaneAxis) (ratio : Nat) (first second : PaneTree V)
  deriving DecidableEq, Repr

namespace PaneTree

variable {V W : Type} [DecidableEq V]

def views : PaneTree V → List V
  | leaf _ view => [view]
  | split _ _ first second => first.views ++ second.views

def contains : PaneTree V → V → Bool
  | leaf _ view, target => decide (view = target)
  | split _ _ first second, target => first.contains target || second.contains target

/-- The bytes of a pane's identity: letters and digits of ASCII, and the hyphen. -/
def isPaneIdByte (byte : UInt8) : Bool :=
  decide (48 ≤ byte ∧ byte ≤ 57) || decide (65 ≤ byte ∧ byte ≤ 90) ||
    decide (97 ≤ byte ∧ byte ≤ 122) || decide (byte = 45)

/-- The identities that `validate` accepts. -/
def validPaneId (paneId : Text) : Bool :=
  !paneId.isEmpty && decide ((utf8Bytes paneId).length ≤ 64) && (utf8Bytes paneId).all isPaneIdByte

def tooDeep : Text := "Pane tree is too deep".toList

def invalidPlacement : Text := "Invalid, duplicated or excessive pane placement".toList

def ratioOutOfBounds : Text := "Pane ratio is out of bounds".toList

/-- `walk`, local to `PaneTree::validate`. The views and the panes seen so far go through the whole
tree. -/
def walk : PaneTree V → Nat → Finset V → Finset Text → Except Text (Finset V × Finset Text)
  | leaf paneId view, depth, views, panes =>
    if maxGroupPanes ≤ depth then .error tooDeep
    else if !validPaneId paneId || decide (paneId ∈ panes) || decide (view ∈ views) ||
        decide (maxGroupPanes < (insert view views).card) then
      .error invalidPlacement
    else .ok (insert view views, insert paneId panes)
  | split _ ratio first second, depth, views, panes =>
    if maxGroupPanes ≤ depth then .error tooDeep
    else if ¬ (500 ≤ ratio ∧ ratio ≤ 9500) then .error ratioOutOfBounds
    else do
      let (views, panes) ← first.walk (depth + 1) views panes
      second.walk (depth + 1) views panes

/-- The tree is within its bounds, and no view or pane is in it twice. -/
def validate (tree : PaneTree V) : Except Text Unit := do
  let _ ← tree.walk 0 ∅ ∅
  return ()

/-- `PaneTree::split`: the tree afterwards, and whether the target was found. -/
def splitAt : PaneTree V → V → PaneTree V → PaneSide → PaneTree V × Bool
  | leaf paneId view, target, newLeaf, side =>
    if view = target then
      let original := leaf paneId view
      let (first, second) := if side.first then (newLeaf, original) else (original, newLeaf)
      (split side.axis (ratioScale / 2) first second, true)
    else (leaf paneId view, false)
  | split axis ratio first second, target, newLeaf, side =>
    if first.contains target then
      let (first, found) := first.splitAt target newLeaf side
      (split axis ratio first second, found)
    else
      let (second, found) := second.splitAt target newLeaf side
      (split axis ratio first second, found)

/-- `PaneTree::remove`. A split that loses one of its trees is replaced by the other. -/
def remove : PaneTree V → V → Option (PaneTree V)
  | leaf paneId view, target => if view = target then none else some (leaf paneId view)
  | split axis ratio first second, target =>
    match first.remove target, second.remove target with
    | some first, some second => some (split axis ratio first second)
    | remaining, none => remaining
    | none, remaining => remaining

/-- `PaneTree::leaf`. -/
def leafOf : PaneTree V → V → Option (PaneTree V)
  | leaf paneId view, target => if view = target then some (leaf paneId view) else none
  | split _ _ first second, target => (first.leafOf target).or (second.leafOf target)

/-- The text with which `preset` turns a group of the wrong size down. -/
def presetMismatch : Text :=
  ("Two-column/row presets need two views; the 2×2 preset needs four. " ++
    "Move existing views into the group first.").toList

/-- `PaneTree::preset`. Without a result, the lookup of a view's leaf has failed and the source
panics. -/
def preset (tree : PaneTree V) (preset : PanePreset) : Option (Except Text (PaneTree V)) := do
  let leaves ← tree.views.mapM tree.leafOf
  let pair axis first second := split axis 5000 first second
  return match preset, leaves with
    | .columns, [first, second] => .ok (pair .x first second)
    | .rows, [first, second] => .ok (pair .y first second)
    | .grid, [a, b, c, d] => .ok (pair .x (pair .y a b) (pair .y c d))
    | _, _ => .error presetMismatch

def equalize : PaneTree V → PaneTree V
  | leaf paneId view => leaf paneId view
  | split axis _ first second => split axis (ratioScale / 2) first.equalize second.equalize

def map (convert : V → Option W) : PaneTree V → Option (PaneTree W)
  | leaf paneId view => (convert view).map (leaf paneId)
  | split axis ratio first second =>
    match first.map convert, second.map convert with
    | some first, some second => some (split axis ratio first second)
    | remaining, none => remaining
    | none, remaining => remaining

end PaneTree

end FesTerm.Config
