import FesTerm.Config.Panes
import Mathlib.Data.Nat.SuccPred

/-!
# The edits of a pane tree

A tree is described by its leaves in order and by its ratios: `Valid` says what `validate` accepts in
these terms. The depth limit is no condition of its own, for a tree is never as deep as it has
leaves. Every edit is then a change of the list of leaves, and `remove` is the `map` that drops one
view.
-/

namespace FesTerm.Config

open List

namespace PaneTree

variable {V W : Type}

/-- The leaves in order: each pane's identity, and the view it shows. -/
def leaves : PaneTree V → List (Text × V)
  | leaf paneId view => [(paneId, view)]
  | split _ _ first second => first.leaves ++ second.leaves

/-- The leaves of a tree that an edit may have removed altogether. -/
def leavesOf : Option (PaneTree V) → List (Text × V)
  | none => []
  | some tree => tree.leaves

def paneIds (tree : PaneTree V) : List Text := tree.leaves.map Prod.fst

/-- How many splits lie above the deepest leaf. -/
def height : PaneTree V → Nat
  | leaf _ _ => 0
  | split _ _ first second => max first.height second.height + 1

/-- Every split leaves both of its trees a share. -/
def RatiosOk : PaneTree V → Prop
  | leaf _ _ => True
  | split _ ratio first second => (500 ≤ ratio ∧ ratio ≤ 9500) ∧ first.RatiosOk ∧ second.RatiosOk

@[simp] theorem views_leaf (paneId : Text) (view : V) : (leaf paneId view).views = [view] := rfl

variable (axis : PaneAxis) (ratio : Nat) (first second : PaneTree V)

@[simp] theorem views_split :
    (split axis ratio first second).views = first.views ++ second.views := rfl

@[simp] theorem leaves_leaf (paneId : Text) (view : V) : (leaf paneId view).leaves = [(paneId, view)] := rfl

@[simp] theorem leaves_split :
    (split axis ratio first second).leaves = first.leaves ++ second.leaves := rfl

@[simp] theorem paneIds_leaf (paneId : Text) (view : V) : (leaf paneId view).paneIds = [paneId] := rfl

@[simp] theorem paneIds_split :
    (split axis ratio first second).paneIds = first.paneIds ++ second.paneIds := by
  simp [paneIds]

theorem views_eq (tree : PaneTree V) : tree.views = tree.leaves.map Prod.snd := by
  induction tree with
  | leaf paneId view => rfl
  | split axis ratio first second ihfirst ihsecond => simp [ihfirst, ihsecond]

theorem leaves_ne_nil (tree : PaneTree V) : tree.leaves ≠ [] := by
  induction tree with
  | leaf paneId view => simp
  | split axis ratio first second ihfirst ihsecond => simp [ihfirst]

theorem height_lt (tree : PaneTree V) : tree.height < tree.leaves.length := by
  induction tree with
  | leaf paneId view => simp [height]
  | split axis ratio first second ihfirst ihsecond =>
    have hfirst := length_pos_iff.mpr first.leaves_ne_nil
    have hsecond := length_pos_iff.mpr second.leaves_ne_nil
    simp only [height, leaves_split, length_append]
    omega

variable [DecidableEq V]

variable {tree : PaneTree V} {views : Finset V} {panes : Finset Text}

theorem contains_iff {target : V} : tree.contains target = true ↔ target ∈ tree.views := by
  induction tree with
  | leaf paneId view => simp [contains, eq_comm]
  | split axis ratio first second ihfirst ihsecond => simp [contains, ihfirst, ihsecond]

/-- A tree that `validate` accepts. -/
structure Valid (tree : PaneTree V) : Prop where
  ids : ∀ paneId ∈ tree.paneIds, validPaneId paneId = true
  idsNodup : tree.paneIds.Nodup
  viewsNodup : tree.views.Nodup
  fits : tree.leaves.length ≤ maxGroupPanes
  ratios : tree.RatiosOk

/-- What `walk` asks of a tree at a depth, after the views and the panes seen before it. -/
structure Walks (tree : PaneTree V) (depth : Nat) (views : Finset V) (panes : Finset Text) : Prop
    where
  ids : ∀ paneId ∈ tree.paneIds, validPaneId paneId = true
  idsNodup : tree.paneIds.Nodup
  newPanes : ∀ paneId ∈ tree.paneIds, paneId ∉ panes
  viewsNodup : tree.views.Nodup
  newViews : ∀ view ∈ tree.views, view ∉ views
  fits : views.card + tree.leaves.length ≤ maxGroupPanes
  ratios : tree.RatiosOk
  depth : depth + tree.height < maxGroupPanes

theorem card_union_views (hnodup : tree.views.Nodup) (hnew : ∀ view ∈ tree.views, view ∉ views) :
    (views ∪ tree.views.toFinset).card = views.card + tree.leaves.length := by
  rw [Finset.card_union_of_disjoint, toFinset_card_of_nodup hnodup, views_eq, length_map]
  rw [Finset.disjoint_right]
  intro view hview
  exact hnew view (List.mem_toFinset.mp hview)

variable {depth : Nat}

omit [DecidableEq V] in
theorem walks_leaf {paneId : Text} {view : V} : (leaf paneId view).Walks depth views panes ↔
      depth < maxGroupPanes ∧ validPaneId paneId = true ∧ paneId ∉ panes ∧ view ∉ views ∧
        views.card + 1 ≤ maxGroupPanes := by
  constructor
  · intro h
    exact ⟨by simpa [height] using h.depth, h.ids _ (by simp), h.newPanes _ (by simp),
      h.newViews _ (by simp), by simpa using h.fits⟩
  · rintro ⟨hdepth, hid, hpane, hview, hfits⟩
    exact ⟨by simpa using hid, by simp, by simpa using hpane, by simp, by simpa using hview,
      by simpa using hfits, trivial, by simpa [height] using hdepth⟩

/-- A split is walked through if its trees are, the second after the first. -/
theorem walks_split {axis : PaneAxis} {ratio : Nat} {first second : PaneTree V} :
    (split axis ratio first second).Walks depth views panes ↔
      (500 ≤ ratio ∧ ratio ≤ 9500) ∧ first.Walks (depth + 1) views panes ∧
        second.Walks (depth + 1) (views ∪ first.views.toFinset) (panes ∪ first.paneIds.toFinset) := by
  constructor
  · intro h
    have hpanes := h.idsNodup
    have hviews := h.viewsNodup
    rw [paneIds_split, nodup_append] at hpanes
    rw [views_split, nodup_append] at hviews
    have hfits := h.fits
    have hdepth := h.depth
    simp only [leaves_split, length_append] at hfits
    simp only [height] at hdepth
    have hnew : ∀ view ∈ first.views, view ∉ views := fun view hview =>
      h.newViews view (by simp [hview])
    refine ⟨h.ratios.1, ⟨fun paneId hid => h.ids paneId (by simp [hid]), hpanes.1,
      fun paneId hid => h.newPanes paneId (by simp [hid]), hviews.1, hnew, by omega, h.ratios.2.1,
      by omega⟩, ⟨fun paneId hid => h.ids paneId (by simp [hid]), hpanes.2.1, ?_, hviews.2.1, ?_, ?_,
      h.ratios.2.2, by omega⟩⟩
    · intro paneId hid
      simp only [Finset.mem_union, List.mem_toFinset, not_or]
      exact ⟨h.newPanes paneId (by simp [hid]), fun hfirst => hpanes.2.2 _ hfirst _ hid rfl⟩
    · intro view hview
      simp only [Finset.mem_union, List.mem_toFinset, not_or]
      exact ⟨h.newViews view (by simp [hview]), fun hfirst => hviews.2.2 _ hfirst _ hview rfl⟩
    · rw [card_union_views hviews.1 hnew]
      omega
  · rintro ⟨hratio, hfirst, hsecond⟩
    have hfits := hsecond.fits
    have hdepth := hfirst.depth
    have hdepth' := hsecond.depth
    rw [card_union_views hfirst.viewsNodup hfirst.newViews] at hfits
    have hnewPanes := hsecond.newPanes
    have hnewViews := hsecond.newViews
    simp only [Finset.mem_union, List.mem_toFinset, not_or] at hnewPanes hnewViews
    refine ⟨?_, ?_, ?_, ?_, ?_, ?_, ⟨hratio, hfirst.ratios, hsecond.ratios⟩, ?_⟩
    · intro paneId hid
      rcases mem_append.mp (paneIds_split axis ratio first second ▸ hid) with hid | hid
      · exact hfirst.ids paneId hid
      · exact hsecond.ids paneId hid
    · rw [paneIds_split]
      refine nodup_append.mpr ⟨hfirst.idsNodup, hsecond.idsNodup, ?_⟩
      rintro a ha b hb rfl
      exact (hnewPanes a hb).2 ha
    · intro paneId hid
      rcases mem_append.mp (paneIds_split axis ratio first second ▸ hid) with hid | hid
      · exact hfirst.newPanes paneId hid
      · exact (hnewPanes paneId hid).1
    · rw [views_split]
      refine nodup_append.mpr ⟨hfirst.viewsNodup, hsecond.viewsNodup, ?_⟩
      rintro a ha b hb rfl
      exact (hnewViews a hb).2 ha
    · intro view hview
      rcases mem_append.mp (views_split axis ratio first second ▸ hview) with hview | hview
      · exact hfirst.newViews view hview
      · exact (hnewViews view hview).1
    · simp only [leaves_split, length_append]
      omega
    · simp only [height]
      omega

theorem walk_eq_ok {seen : Finset V × Finset Text} : tree.walk depth views panes = .ok seen ↔
      tree.Walks depth views panes ∧
        seen = (views ∪ tree.views.toFinset, panes ∪ tree.paneIds.toFinset) := by
  induction tree generalizing depth views panes seen with
  | leaf paneId view =>
    have hseen : (views ∪ (leaf paneId view).views.toFinset,
        panes ∪ (leaf paneId view).paneIds.toFinset) = (insert view views, insert paneId panes) := by
      rw [Finset.insert_eq, Finset.insert_eq, Finset.union_comm {view}, Finset.union_comm {paneId}]
      rfl
    rw [walks_leaf, hseen, walk]
    by_cases hdepth : maxGroupPanes ≤ depth
    · simp [hdepth]
    by_cases hview : view ∈ views
    · simp [hview, hdepth]
    by_cases hpane : paneId ∈ panes
    · simp [hpane, hdepth]
    by_cases hid : validPaneId paneId = true
    · by_cases hfits : maxGroupPanes ≤ views.card
      · simp [hdepth, hview, hpane, hid, hfits, hfits.not_gt, Finset.card_insert_of_notMem hview]
      · simp [hdepth, hview, hpane, hid, hfits, Finset.card_insert_of_notMem hview, eq_comm]
        omega
    · simp [hid, hdepth]
  | split axis ratio first second ihfirst ihsecond =>
    rw [walks_split, walk]
    by_cases hdepth : maxGroupPanes ≤ depth
    · have hno : ¬ first.Walks (depth + 1) views panes := by
        intro h
        have := h.depth
        omega
      simp [hdepth, hno]
    by_cases hratio : 500 ≤ ratio ∧ ratio ≤ 9500
    · rw [if_neg hdepth, if_neg (not_not_intro hratio)]
      have hviews : views ∪ (split axis ratio first second).views.toFinset =
          views ∪ first.views.toFinset ∪ second.views.toFinset := by
        rw [views_split, toFinset_append, Finset.union_assoc]
      have hpanes : panes ∪ (split axis ratio first second).paneIds.toFinset =
          panes ∪ first.paneIds.toFinset ∪ second.paneIds.toFinset := by
        rw [paneIds_split, toFinset_append, Finset.union_assoc]
      rw [hviews, hpanes]
      constructor
      · intro h
        cases hwalk : first.walk (depth + 1) views panes with
        | error text =>
          rw [hwalk] at h
          cases h
        | ok between =>
          rw [hwalk] at h
          obtain ⟨hfirst, hbetween⟩ := ihfirst.mp hwalk
          rw [hbetween] at h
          obtain ⟨hsecond, hseen⟩ := ihsecond.mp h
          exact ⟨⟨hratio, hfirst, hsecond⟩, hseen⟩
      · rintro ⟨⟨-, hfirst, hsecond⟩, hseen⟩
        rw [ihfirst.mpr ⟨hfirst, rfl⟩]
        exact ihsecond.mpr ⟨hsecond, hseen⟩
    · simp [hdepth, hratio]

omit [DecidableEq V] in
theorem walks_iff_valid : tree.Walks 0 ∅ ∅ ↔ tree.Valid := by
  constructor
  · intro h
    exact ⟨h.ids, h.idsNodup, h.viewsNodup, by simpa using h.fits, h.ratios⟩
  · intro h
    have hheight := tree.height_lt
    have hfits := h.fits
    exact ⟨h.ids, h.idsNodup, by simp, h.viewsNodup, by simp, by simpa using h.fits, h.ratios, by omega⟩

theorem validate_iff : tree.validate = .ok () ↔ tree.Valid := by
  rw [← walks_iff_valid]
  constructor
  · intro h
    cases hwalk : tree.walk 0 ∅ ∅ with
    | error text =>
      rw [validate, hwalk] at h
      cases h
    | ok seen => exact (walk_eq_ok.mp hwalk).1
  · intro h
    rw [validate, walk_eq_ok.mpr ⟨h, rfl⟩]
    rfl

omit [DecidableEq V] in
theorem Valid.congr {tree' : PaneTree V} (h : tree.Valid) (hleaves : tree'.leaves = tree.leaves)
    (hratios : tree'.RatiosOk) : tree'.Valid := by
  have hids : tree'.paneIds = tree.paneIds := by rw [paneIds, paneIds, hleaves]
  have hviews : tree'.views = tree.views := by rw [views_eq, views_eq, hleaves]
  exact ⟨hids ▸ h.ids, hids ▸ h.idsNodup, hviews ▸ h.viewsNodup, hleaves ▸ h.fits, hratios⟩

section Split

variable {tree : PaneTree V} {target view : V} {paneId : Text} {side : PaneSide}

def placed (side : PaneSide) (new old : Text × V) : List (Text × V) :=
  if side.first then [new, old] else [old, new]

/-- The leaves of a tree that contains the target, around the new leaf. -/
theorem splitAt_spec (htarget : target ∈ tree.views) (hratios : tree.RatiosOk) :
    ∃ before after old tree', tree.leaves = before ++ (old, target) :: after ∧
      tree.splitAt target (leaf paneId view) side = (tree', true) ∧
      tree'.leaves = before ++ placed side (paneId, view) (old, target) ++ after ∧
      tree'.RatiosOk := by
  induction tree with
  | leaf old shown =>
    obtain rfl : target = shown := by simpa using htarget
    refine ⟨[], [], old, _, rfl, by rw [splitAt, if_pos rfl], ?_, ?_⟩
    · cases hside : side.first <;> simp [placed, hside]
    · cases hside : side.first <;> simp [RatiosOk, ratioScale]
  | split axis ratio first second ihfirst ihsecond =>
    obtain ⟨hratio, hfirst, hsecond⟩ := hratios
    by_cases hin : target ∈ first.views
    · obtain ⟨before, after, old, tree', hleaves, hsplit, hafter, hok⟩ := ihfirst hin hfirst
      refine ⟨before, after ++ second.leaves, old, .split axis ratio tree' second, ?_, ?_, ?_,
        hratio, hok, hsecond⟩
      · simp [hleaves]
      · rw [splitAt, if_pos (contains_iff.mpr hin), hsplit]
      · simp [hafter]
    · have hin' : target ∈ second.views := by
        rcases mem_append.mp htarget with h | h
        · exact absurd h hin
        · exact h
      obtain ⟨before, after, old, tree', hleaves, hsplit, hafter, hok⟩ := ihsecond hin' hsecond
      refine ⟨first.leaves ++ before, after, old, .split axis ratio first tree', ?_, ?_, ?_,
        hratio, hfirst, hok⟩
      · simp [hleaves]
      · rw [splitAt, if_neg (fun h => hin (contains_iff.mp h)), hsplit]
      · simp [hafter]

theorem remove_of_notMem (h : view ∉ tree.views) : tree.remove view = some tree := by
  induction tree with
  | leaf old shown =>
    have hne : shown ≠ view := by
      rintro rfl
      exact h (by simp)
    rw [remove, if_neg hne]
  | split axis ratio first second ihfirst ihsecond =>
    simp only [views_split, mem_append, not_or] at h
    rw [remove, ihfirst h.1, ihsecond h.2]

theorem remove_splitAt (htarget : target ∈ tree.views) (hnew : view ∉ tree.views) :
    (tree.splitAt target (leaf paneId view) side).1.remove view = some tree := by
  induction tree with
  | leaf old shown =>
    obtain rfl : target = shown := by simpa using htarget
    have hne : target ≠ view := by
      rintro rfl
      exact hnew (by simp)
    cases hside : side.first <;> simp [splitAt, hside, remove, hne]
  | split axis ratio first second ihfirst ihsecond =>
    simp only [views_split, mem_append, not_or] at hnew
    by_cases hin : target ∈ first.views
    · have hremove := ihfirst hin hnew.1
      simp only [splitAt, if_pos (contains_iff.mpr hin), remove, hremove, remove_of_notMem hnew.2]
    · have hin' : target ∈ second.views := by
        rcases mem_append.mp htarget with h | h
        · exact absurd h hin
        · exact h
      have hremove := ihsecond hin' hnew.2
      simp only [splitAt, if_neg (fun h => hin (contains_iff.mp h)), remove, hremove, remove_of_notMem hnew.1]

end Split

def kept (convert : V → Option W) (leaves : List (Text × V)) : List (Text × W) :=
  leaves.filterMap fun leaf => (convert leaf.2).map (Prod.mk leaf.1)

variable (convert : V → Option W)

omit [DecidableEq V] in
theorem kept_append (first second : List (Text × V)) :
    kept convert (first ++ second) = kept convert first ++ kept convert second :=
  filterMap_append

theorem kept_dropping (target : V) (leaves : List (Text × V)) :
    kept (fun view => if view = target then none else some view) leaves =
      leaves.filter fun leaf => decide (leaf.2 ≠ target) := by
  induction leaves with
  | nil => rfl
  | cons leaf leaves ih =>
    rw [kept] at ih ⊢
    by_cases hview : leaf.2 = target
    · simp [hview, ih]
    · simp [hview, ih]

omit [DecidableEq V] in
theorem map_spec (tree : PaneTree V) :
    leavesOf (tree.map convert) = kept convert tree.leaves ∧
      (tree.RatiosOk → ∀ tree', tree.map convert = some tree' → tree'.RatiosOk) := by
  induction tree with
  | leaf paneId view => cases hview : convert view <;> simp [map, kept, leavesOf, hview, RatiosOk]
  | split axis ratio first second ihfirst ihsecond =>
    rw [leaves_split, kept_append, ← ihfirst.1, ← ihsecond.1, map]
    cases hfirst : first.map convert with
    | none =>
      cases hsecond : second.map convert with
      | none => exact ⟨rfl, nofun⟩
      | some second' => exact ⟨rfl, fun hratios tree' h => ihsecond.2 hratios.2.2 tree' (hsecond.trans h)⟩
    | some first' =>
      cases hsecond : second.map convert with
      | none =>
        exact ⟨by simp [leavesOf], fun hratios tree' h => ihfirst.2 hratios.2.1 tree' (hfirst.trans h)⟩
      | some second' =>
        refine ⟨rfl, fun hratios tree' h => ?_⟩
        cases h
        exact ⟨hratios.1, ihfirst.2 hratios.2.1 _ hfirst, ihsecond.2 hratios.2.2 _ hsecond⟩

theorem remove_eq_map (tree : PaneTree V) (target : V) :
    tree.remove target = tree.map fun view => if view = target then none else some view := by
  induction tree with
  | leaf paneId view =>
    rw [remove, map]
    split <;> rfl
  | split axis ratio first second ihfirst ihsecond => rw [remove, map, ihfirst, ihsecond]

theorem leavesOf_remove (tree : PaneTree V) (target : V) :
    leavesOf (tree.remove target) = tree.leaves.filter fun leaf => decide (leaf.2 ≠ target) := by
  rw [remove_eq_map, (map_spec _ tree).1, kept_dropping]

theorem Valid.remove {tree' : PaneTree V} {target : V} (h : tree.Valid)
    (hremove : tree.remove target = some tree') : tree'.Valid := by
  have hleaves := leavesOf_remove tree target
  rw [hremove, leavesOf] at hleaves
  have hsub : List.Sublist tree'.leaves tree.leaves := hleaves ▸ filter_sublist
  have hids : List.Sublist tree'.paneIds tree.paneIds := hsub.map _
  have hviews : List.Sublist tree'.views tree.views := by
    rw [views_eq, views_eq]
    exact hsub.map _
  refine ⟨fun paneId hid => h.ids paneId (hids.subset hid), h.idsNodup.sublist hids,
    h.viewsNodup.sublist hviews, hsub.length_le.trans h.fits, ?_⟩
  rw [remove_eq_map] at hremove
  exact (map_spec _ tree).2 h.ratios tree' hremove

omit [DecidableEq V] in
theorem equalize_leaves (tree : PaneTree V) : tree.equalize.leaves = tree.leaves := by
  induction tree with
  | leaf paneId view => rfl
  | split axis ratio first second ihfirst ihsecond => simp [equalize, ihfirst, ihsecond]

omit [DecidableEq V] in
theorem equalize_ratios (tree : PaneTree V) : tree.equalize.RatiosOk := by
  induction tree with
  | leaf paneId view => trivial
  | split axis ratio first second ihfirst ihsecond =>
    exact ⟨by simp [ratioScale], ihfirst, ihsecond⟩

theorem leafOf_eq_none {target : V} (h : target ∉ tree.views) : tree.leafOf target = none := by
  induction tree with
  | leaf paneId view =>
    have hne : view ≠ target := by
      rintro rfl
      exact h (by simp)
    rw [leafOf, if_neg hne]
  | split axis ratio first second ihfirst ihsecond =>
    simp only [views_split, mem_append, not_or] at h
    rw [leafOf, ihfirst h.1, ihsecond h.2]
    rfl

theorem leafOf_eq_some (hviews : tree.views.Nodup) {place : Text × V}
    (h : place ∈ tree.leaves) : tree.leafOf place.2 = some (leaf place.1 place.2) := by
  induction tree with
  | leaf paneId view =>
    obtain rfl : place = (paneId, view) := by simpa using h
    rw [leafOf, if_pos rfl]
  | split axis ratio first second ihfirst ihsecond =>
    rw [views_split, nodup_append] at hviews
    rw [leaves_split, mem_append] at h
    rcases h with h | h
    · rw [leafOf, ihfirst hviews.1 h, Option.some_or]
    · have hmem : place.2 ∈ second.views := by
        rw [views_eq]
        exact List.mem_map_of_mem h
      have hno : place.2 ∉ first.views := fun hfirst => hviews.2.2 _ hfirst _ hmem rfl
      rw [leafOf, leafOf_eq_none hno, Option.none_or]
      exact ihsecond hviews.2.1 h

theorem mapM_leafOf (hviews : tree.views.Nodup) :
    tree.views.mapM tree.leafOf = some (tree.leaves.map fun place => leaf place.1 place.2) := by
  have hpart : ∀ part : List (Text × V), part ⊆ tree.leaves →
      (part.map Prod.snd).mapM tree.leafOf =
        some (part.map fun place => leaf place.1 place.2) := by
    intro part
    induction part with
    | nil => exact fun _ => rfl
    | cons place part ih =>
      intro hsub
      rw [map_cons, mapM_cons, leafOf_eq_some hviews (hsub mem_cons_self),
        ih (fun _ h => hsub (mem_cons_of_mem _ h))]
      rfl
  rw [views_eq]
  exact hpart tree.leaves (List.Subset.refl _)

theorem preset_spec (hviews : tree.views.Nodup) (preset : PanePreset) :
    ∃ answer, tree.preset preset = some answer ∧
      ∀ tree', answer = .ok tree' → tree'.leaves = tree.leaves ∧ tree'.RatiosOk := by
  have hmapM := mapM_leafOf hviews
  generalize htrees : tree.leaves.map (fun place => leaf place.1 place.2) = trees at hmapM
  have hleaves : trees.flatMap leaves = tree.leaves := by
    rw [← htrees, flatMap_map]
    exact flatMap_singleton' tree.leaves
  have hratios : ∀ part ∈ trees, part.RatiosOk := by
    rw [← htrees]
    intro part hpart
    obtain ⟨place, -, rfl⟩ := List.mem_map.mp hpart
    trivial
  have hhalf : 500 ≤ 5000 ∧ 5000 ≤ 9500 := by decide
  refine ⟨_, by rw [PaneTree.preset, hmapM]; rfl, fun tree' h => ?_⟩
  rw [← hleaves]
  split at h
  · cases h
    exact ⟨by simp, hhalf, hratios _ (by simp), hratios _ (by simp)⟩
  · cases h
    exact ⟨by simp, hhalf, hratios _ (by simp), hratios _ (by simp)⟩
  · cases h
    exact ⟨by simp, hhalf, ⟨hhalf, hratios _ (by simp), hratios _ (by simp)⟩,
      ⟨hhalf, hratios _ (by simp), hratios _ (by simp)⟩⟩
  · cases h

/-- What the edits do with a tree: where a new leaf goes and that its removal undoes the split,
which leaves are dropped, and that what comes out is accepted again. A split keeps to the rules
exactly when the new leaf does, and when it is not the fifth. -/
structure EditsExactly (tree : PaneTree V) : Prop where
  splitAt : ∀ target view paneId side, target ∈ tree.views → view ∉ tree.views →
    paneId ∉ tree.paneIds → ∃ tree', tree.splitAt target (leaf paneId view) side = (tree', true) ∧
      (∃ before after, tree.views = before ++ target :: after ∧
        tree'.views = before ++ (if side.first then [view, target] else [target, view]) ++ after) ∧
      tree'.remove view = some tree ∧
      (tree'.validate = .ok () ↔ tree.views.length ≤ 3 ∧ (leaf paneId view).validate = .ok ())
  remove : ∀ target, leavesOf (tree.remove target) =
    tree.leaves.filter fun leaf => decide (leaf.2 ≠ target)
  map : ∀ {W : Type} (convert : V → Option W),
    leavesOf (tree.map convert) = kept convert tree.leaves
  removeValid : ∀ target tree', tree.remove target = some tree' → tree'.validate = .ok ()
  equalizeValid : tree.equalize.validate = .ok ()
  presetValid : ∀ preset, ∃ answer, tree.preset preset = some answer ∧
    ∀ tree', answer = .ok tree' → tree'.leaves = tree.leaves ∧ tree'.validate = .ok ()

section Split

variable {tree tree' : PaneTree V} {target view : V} {paneId old : Text} {side : PaneSide}
  {before after : List (Text × V)}

section

omit [DecidableEq V]

theorem perm_placed (side : PaneSide) (new old : Text × V) (before after : List (Text × V)) :
    (before ++ placed side new old ++ after).Perm (new :: (before ++ old :: after)) := by
  cases hside : side.first with
  | true =>
    rw [placed, hside]
    simp
  | false =>
    have hmiddle : (before ++ new :: old :: after).Perm (new :: (before ++ old :: after)) :=
      perm_middle
    have hswap : (old :: new :: after).Perm (new :: old :: after) := List.Perm.swap _ _ _
    simpa [placed, hside] using (hswap.append_left before).trans hmiddle

theorem valid_leaf_iff : (leaf paneId view : PaneTree V).Valid ↔ validPaneId paneId = true := by
  constructor
  · intro h
    exact h.ids paneId (by simp)
  · intro h
    exact ⟨by simpa using h, by simp, by simp, by simp [maxGroupPanes], trivial⟩

theorem Valid.splitAt_iff (h : tree.Valid) (hview : view ∉ tree.views)
    (hpane : paneId ∉ tree.paneIds) (hleaves : tree.leaves = before ++ (old, target) :: after)
    (hafter : tree'.leaves = before ++ placed side (paneId, view) (old, target) ++ after)
    (hratios : tree'.RatiosOk) :
    tree'.Valid ↔ tree.views.length ≤ 3 ∧ (leaf paneId view : PaneTree V).Valid := by
  have hperm : tree'.leaves.Perm ((paneId, view) :: tree.leaves) := by
    rw [hafter, hleaves]
    exact perm_placed side _ _ before after
  have hids : tree'.paneIds.Perm (paneId :: tree.paneIds) := hperm.map Prod.fst
  have hviews : tree'.views.Perm (view :: tree.views) := by
    rw [views_eq, views_eq]
    exact hperm.map Prod.snd
  have hlength : tree'.leaves.length = tree.views.length + 1 := by
    rw [hperm.length_eq, length_cons, views_eq, length_map]
  rw [valid_leaf_iff]
  constructor
  · intro h'
    have hfits := h'.fits
    rw [hlength, maxGroupPanes] at hfits
    exact ⟨by omega, h'.ids paneId (hids.mem_iff.mpr mem_cons_self)⟩
  · rintro ⟨hroom, hid⟩
    refine ⟨fun other hother => ?_, hids.nodup_iff.mpr (nodup_cons.mpr ⟨hpane, h.idsNodup⟩),
      hviews.nodup_iff.mpr (nodup_cons.mpr ⟨hview, h.viewsNodup⟩), ?_, hratios⟩
    · rcases mem_cons.mp (hids.mem_iff.mp hother) with rfl | hother
      · exact hid
      · exact h.ids other hother
    · rw [hlength, maxGroupPanes]
      omega

end

end Split

/-- The edits of an accepted tree are exact. -/
theorem edits_are_exact (tree : PaneTree V) (h : tree.validate = .ok ()) : tree.EditsExactly := by
  have hvalid := validate_iff.mp h
  refine ⟨?_, tree.leavesOf_remove, fun convert => (map_spec convert tree).1, ?_, ?_, ?_⟩
  · intro target view paneId side htarget hview hpane
    obtain ⟨before, after, old, tree', hleaves, hsplit, hafter, hratios⟩ :=
      @splitAt_spec V _ tree target view paneId side htarget hvalid.ratios
    have hremove := @remove_splitAt V _ tree target view paneId side htarget hview
    rw [hsplit] at hremove
    refine ⟨tree', hsplit, ⟨before.map Prod.snd, after.map Prod.snd, ?_, ?_⟩, hremove, ?_⟩
    · rw [views_eq, hleaves, map_append, map_cons]
    · cases hside : side.first <;> simp [views_eq, hafter, placed, hside]
    · rw [validate_iff, validate_iff]
      exact hvalid.splitAt_iff hview hpane hleaves hafter hratios
  · intro target tree' hremove
    exact validate_iff.mpr (hvalid.remove hremove)
  · exact validate_iff.mpr (hvalid.congr tree.equalize_leaves tree.equalize_ratios)
  · intro preset
    obtain ⟨answer, hpreset, hanswer⟩ := preset_spec hvalid.viewsNodup preset
    refine ⟨answer, hpreset, fun tree' htree' => ?_⟩
    obtain ⟨hleaves, hratios⟩ := hanswer tree' htree'
    exact ⟨hleaves, validate_iff.mpr (hvalid.congr hleaves hratios)⟩

def sampleTree : PaneTree Nat :=
  .split .x 5000 (.leaf "pane-1".toList 1) (.leaf "pane-2".toList 2)

theorem edits_are_exact_sample : sampleTree.validate = .ok () ∧ sampleTree.EditsExactly := by
  have h : sampleTree.validate = .ok () := by decide
  exact ⟨h, edits_are_exact sampleTree h⟩

end PaneTree

end FesTerm.Config
