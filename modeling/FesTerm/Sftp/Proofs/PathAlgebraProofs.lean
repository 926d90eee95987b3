import FesTerm.Sftp.Proofs.PathProofs

/-!
# Proofs: the algebra of paths

Normalizing keeps the place that a path denotes, gives a path of plain components and changes it no more.
Parent and last component undo a join. Sizes are counted with one separator after each component.
-/

namespace FesTerm.FilePath

open List

/-- The place that one component leads to; nothing leads above the root. -/
def visit (place : List FilePath) (part : FilePath) : List FilePath :=
  if part = [] ∨ part = ['.'] then place
  else if part = ['.', '.'] then place.dropLast
  else place ++ [part]

/-- Where a path leads from a directory. -/
def place (base : List FilePath) (path : FilePath) : List FilePath :=
  (path.splitOn '/').foldl visit (if path.head? == some '/' then [] else base)

def components (path : FilePath) : List FilePath :=
  if path.head? == some '/' then path.tail.splitOn '/' else path.splitOn '/'

/-- No component is empty or made of dots. -/
def Clean (path : FilePath) : Prop :=
  ∀ part ∈ path.components, part ≠ [] ∧ part ≠ ['.'] ∧ part ≠ ['.', '.']

/-- A path that is not too long and not too deep. -/
def WithinLimits (path : FilePath) : Prop :=
  path.utf8Length ≤ maxPathBytes ∧
    ((path.splitOn '/').filter fun part => part ≠ [] ∧ part ≠ ['.']).length ≤ maxPathDepth

variable {absolute : Bool} {parts pieces : List FilePath} {path path' name : FilePath}

theorem visit_plain (h : path.Plain) (place : List FilePath) : visit place path = place ++ [path] := by
  obtain ⟨hempty, hdot, hdots, -, -⟩ := h
  rw [visit, if_neg (by simp [hempty, hdot]), if_neg hdots]

variable {parts' : List FilePath} {part directory : FilePath}

/-- Components that are accepted one by one lead from any base to the same place; an absolute path has no
base but the root. -/
theorem foldl_visit {base : List FilePath} (hbase : absolute = true → base = [])
    (h : pieces.foldlM (normalizePart absolute) parts = .ok parts') :
    pieces.foldl visit (base ++ parts) = base ++ parts' := by
  induction pieces generalizing parts with
  | nil =>
    cases h
    rfl
  | cons piece pieces ih =>
    obtain ⟨middle, hpiece, h⟩ := Procedure.foldlM_cons_eq_ok.mp h
    rw [foldl_cons, ← ih h]
    congr 1
    unfold normalizePart at hpiece
    unfold visit
    split at hpiece
    · next hskip =>
      rw [if_pos hskip, Except.ok.inj hpiece]
    · next hskip =>
      rw [if_neg hskip]
      split at hpiece
      · next hdots =>
        rw [if_pos hdots]
        split at hpiece
        · cases hpiece
        · next hescapes =>
          rw [← Except.ok.inj hpiece]
          by_cases hempty : parts = []
          · have habsolute : absolute = true := by
              cases absolute with
              | true => rfl
              | false => exact absurd ⟨hempty, rfl⟩ hescapes
            rw [hbase habsolute, hempty]
            rfl
          · rw [dropLast_append_of_ne_nil hempty]
      · next hdots =>
        rw [if_neg hdots]
        split at hpiece
        · cases hpiece
        · rw [← Except.ok.inj hpiece, append_assoc]

def spread (parts : List FilePath) : Nat := (parts.map fun part => part.utf8Length + 1).sum

theorem spread_append (parts pieces : List FilePath) : spread (parts ++ pieces) = spread parts + spread pieces := by
  rw [spread, map_append, sum_append, spread, spread]

theorem spread_cons (part : FilePath) (parts : List FilePath) :
    spread (part :: parts) = part.utf8Length + 1 + spread parts := by
  rw [spread, map_cons, sum_cons, spread]

theorem utf8Length_append (path other : FilePath) :
    utf8Length (path ++ other) = path.utf8Length + other.utf8Length := by
  rw [utf8Length, map_append, sum_append, utf8Length, utf8Length]

theorem utf8Length_intercalate (hne : parts ≠ []) :
    utf8Length (['/'].intercalate parts) + 1 = spread parts := by
  induction parts with
  | nil => exact absurd rfl hne
  | cons first parts ih =>
    cases parts with
    | nil => simp [List.intercalate, spread]
    | cons second parts =>
      rw [intercalate_cons_cons, utf8Length_append, utf8Length_append, spread_cons,
        ← ih (cons_ne_nil _ _)]
      have hslash : utf8Length ['/'] = 1 := rfl
      omega

theorem spread_splitOn (path : FilePath) : spread (path.splitOn '/') = path.utf8Length + 1 := by
  rw [← utf8Length_intercalate (splitOn_ne_nil _ _), intercalate_splitOn]

theorem spread_sublist {parts pieces : List FilePath} (h : parts.Sublist pieces) : spread parts ≤ spread pieces :=
  (h.map _).sum_le_sum fun _ _ => Nat.zero_le _

theorem normalizePart_spread (h : normalizePart absolute parts part = .ok parts') :
    spread parts' ≤ spread parts + (part.utf8Length + 1) := by
  unfold normalizePart at h
  split at h
  · rw [Except.ok.inj h]
    exact Nat.le_add_right _ _
  · split at h
    · split at h
      · cases h
      · rw [← Except.ok.inj h]
        exact (spread_sublist (dropLast_sublist parts)).trans (Nat.le_add_right _ _)
    · split at h
      · cases h
      · rw [← Except.ok.inj h, spread_append, spread_cons]
        exact le_rfl

theorem foldlM_spread (h : pieces.foldlM (normalizePart absolute) parts = .ok parts') :
    spread parts' ≤ spread parts + spread pieces := by
  induction pieces generalizing parts with
  | nil =>
    cases h
    exact Nat.le_add_right _ _
  | cons piece pieces ih =>
    obtain ⟨middle, hpiece, h⟩ := Procedure.foldlM_cons_eq_ok.mp h
    have hmiddle := normalizePart_spread hpiece
    have hrest := ih h
    rw [spread_cons]
    omega

theorem mem_intercalate {c : Char} (hpart : part ∈ parts) (hc : c ∈ part) : c ∈ ['/'].intercalate parts := by
  induction parts with
  | nil => cases hpart
  | cons first parts ih =>
    cases parts with
    | nil =>
      rw [mem_singleton.mp hpart] at hc
      simpa [List.intercalate] using hc
    | cons second parts =>
      rw [intercalate_cons_cons, mem_append, mem_append]
      rcases mem_cons.mp hpart with rfl | hpart
      · exact .inl (.inl hc)
      · exact .inr (ih hpart)

theorem of_mem_intercalate {c : Char} (h : c ∈ ['/'].intercalate parts) : c = '/' ∨ ∃ part ∈ parts, c ∈ part := by
  induction parts with
  | nil => cases h
  | cons first parts ih =>
    cases parts with
    | nil => exact .inr ⟨first, mem_cons_self, by simpa [List.intercalate] using h⟩
    | cons second parts =>
      rw [intercalate_cons_cons, mem_append, mem_append, mem_singleton] at h
      rcases h with (h | h) | h
      · exact .inr ⟨first, mem_cons_self, h⟩
      · exact .inl h
      · rcases ih h with hslash | ⟨part, hpart, hc⟩
        · exact .inl hslash
        · exact .inr ⟨part, mem_cons_of_mem _ hpart, hc⟩

theorem mem_of_mem_splitOn {c : Char} (hpart : part ∈ path.splitOn '/') (hc : c ∈ part) : c ∈ path := by
  have hmem := mem_intercalate hpart hc
  rwa [intercalate_splitOn] at hmem

theorem filter_splitOn_of_all (h : path.all (· = '/') = true) :
    ((path.splitOn '/').filter fun part => part ≠ [] ∧ part ≠ ['.']) = [] := by
  refine filter_eq_nil_iff.mpr fun part hpart hkept => ?_
  refine (of_decide_eq_true hkept).1 (eq_nil_iff_forall_not_mem.mpr fun c hc => ?_)
  have hslash : c = '/' := of_decide_eq_true (List.all_eq_true.mp h c (mem_of_mem_splitOn hpart hc))
  exact not_mem_splitOn path part hpart (hslash ▸ hc)

theorem forM_validateName : (parts.forM validateName : Except SftpError Unit) = .ok () ↔
    ∀ part ∈ parts, part.validateName = .ok () := by
  induction parts with
  | nil => simp [pure, Except.pure]
  | cons part parts ih =>
    rw [forall_mem_cons, ← ih]
    change (do part.validateName; parts.forM validateName) = _ ↔ _
    cases hpart : part.validateName with
    | error error => simp [bind, Except.bind]
    | ok => simp [bind, Except.bind]

/-- What a path in the sandbox has to meet to be accepted. -/
theorem localComponents_eq_ok : path.localComponents = .ok parts ↔ path.utf8Length ≤ maxPathBytes ∧
      parts = ((path.splitOn '/').filter fun part => part ≠ [] ∧ part ≠ ['.']) ∧
      (∀ part ∈ parts, part.validateName = .ok ()) ∧ parts.length ≤ maxPathDepth := by
  unfold localComponents
  by_cases hlong : path.utf8Length > maxPathBytes
  · rw [if_pos hlong]
    exact ⟨fun h => (by cases h), fun h => absurd h.1 (Nat.not_le.mpr hlong)⟩
  rw [if_neg hlong]
  by_cases hroot : path.head? = some '/' ∧ path.all (· = '/')
  · rw [if_pos hroot, filter_splitOn_of_all hroot.2]
    constructor
    · intro h
      obtain rfl : [] = parts := Except.ok.inj h
      exact ⟨Nat.not_lt.mp hlong, rfl, fun part hpart => (by cases hpart), Nat.zero_le _⟩
    · rintro ⟨-, rfl, -⟩
      rfl
  rw [if_neg hroot]
  generalize ((path.splitOn '/').filter fun part => part ≠ [] ∧ part ≠ ['.']) = found
  dsimp only
  cases hvalid : (found.forM validateName : Except SftpError Unit) with
  | error error =>
    refine ⟨fun h => (by cases h), ?_⟩
    rintro ⟨-, rfl, hparts, -⟩
    rw [forM_validateName.mpr hparts] at hvalid
    cases hvalid
  | ok =>
    change (if found.length > maxPathDepth then _ else _) = _ ↔ _
    by_cases hdeep : found.length > maxPathDepth
    · rw [if_pos hdeep]
      refine ⟨fun h => (by cases h), ?_⟩
      rintro ⟨-, rfl, -, hdepth⟩
      exact absurd hdepth (Nat.not_le.mpr hdeep)
    · rw [if_neg hdeep]
      constructor
      · intro h
        obtain rfl : found = parts := Except.ok.inj h
        exact ⟨Nat.not_lt.mp hlong, rfl, forM_validateName.mp hvalid, Nat.not_lt.mp hdeep⟩
      · rintro ⟨-, rfl, -⟩
        rfl

theorem normalizeLocal_eq_ok : path.normalizeLocal = .ok path' ↔
    ∃ parts, path.localComponents = .ok parts ∧ path' = ['/'].intercalate parts := by
  unfold normalizeLocal
  cases hparts : path.localComponents with
  | error error =>
    refine ⟨fun h => (by cases h), ?_⟩
    rintro ⟨parts, hnone, -⟩
    cases hnone
  | ok parts =>
    constructor
    · intro h
      exact ⟨parts, rfl, (Except.ok.inj h).symm⟩
    · rintro ⟨parts', hsame, rfl⟩
      rw [Except.ok.inj hsame]
      rfl

/-- Nothing is kept that was not given. -/
theorem mem_of_foldlM (h : pieces.foldlM (normalizePart absolute) parts = .ok parts')
    (hpart : part ∈ parts') : part ∈ parts ∨ part ∈ pieces := by
  induction pieces generalizing parts with
  | nil =>
    cases h
    exact .inl hpart
  | cons piece pieces ih =>
    obtain ⟨middle, hpiece, h⟩ := Procedure.foldlM_cons_eq_ok.mp h
    rcases ih h with hmiddle | hrest
    · unfold normalizePart at hpiece
      split at hpiece
      · rw [Except.ok.inj hpiece]
        exact .inl hmiddle
      · split at hpiece
        · split at hpiece
          · cases hpiece
          · rw [← Except.ok.inj hpiece] at hmiddle
            exact .inl (mem_of_mem_dropLast hmiddle)
        · split at hpiece
          · cases hpiece
          · rw [← Except.ok.inj hpiece] at hmiddle
            rcases mem_append.mp hmiddle with hmiddle | hmiddle
            · exact .inl hmiddle
            · exact .inr (mem_singleton.mp hmiddle ▸ mem_cons_self)
    · exact .inr (mem_cons_of_mem _ hrest)

theorem of_mem_render {c : Char} (h : c ∈ render absolute parts) : c = '/' ∨ c = '.' ∨ ∃ part ∈ parts, c ∈ part := by
  unfold render at h
  split at h
  · rcases mem_cons.mp h with h | h
    · exact .inl h
    · rcases of_mem_intercalate h with hslash | hpart
      · exact .inl hslash
      · exact .inr (.inr hpart)
  · split at h
    · exact .inr (.inl (mem_singleton.mp h))
    · rcases of_mem_intercalate h with hslash | hpart
      · exact .inl hslash
      · exact .inr (.inr hpart)

theorem foldlM_render (hparts : ∀ part ∈ parts, part.Plain) :
    ((render absolute parts).splitOn '/').foldlM (normalizePart absolute) [] = .ok parts := by
  have hskip : ∀ pieces : List FilePath,
      ([] :: pieces).foldlM (normalizePart absolute) [] = pieces.foldlM (normalizePart absolute) [] := by
    intro pieces
    rw [foldlM_cons]
    rfl
  rw [splitOn_render absolute hparts]
  by_cases hempty : parts = []
  · subst hempty
    cases absolute with
    | true | false => rfl
  · rw [if_neg hempty, if_neg hempty]
    have hplain : parts.foldlM (normalizePart absolute) [] = .ok parts := foldlM_of_plain hparts
    split
    · exact (hskip parts).trans hplain
    · exact hplain

theorem head?_render' (hparts : ∀ part ∈ parts, part.Plain) :
    ((render absolute parts).head? == some '/') = absolute := by
  have hhead := @head?_render absolute parts hparts []
  rwa [append_nil] at hhead

theorem render_ne_nil (hparts : ∀ part ∈ parts, part.Plain) : render absolute parts ≠ [] := by
  intro h
  have hfold := @foldlM_render absolute parts hparts
  have hhead := @head?_render' absolute parts hparts
  rw [h] at hhead
  have habsolute : absolute = false := hhead.symm
  subst habsolute
  unfold render at h
  rw [if_neg Bool.false_ne_true] at h
  split at h
  · cases h
  · next hne =>
    have hsize := utf8Length_intercalate hne
    rw [h] at hsize
    cases parts with
    | nil => exact hne rfl
    | cons first parts =>
      have hfirst := (hparts first mem_cons_self).1
      cases first with
      | nil => exact hfirst rfl
      | cons c first =>
        have hpos := c.utf8Size_pos
        rw [spread_cons] at hsize
        simp only [utf8Length, map_cons, sum_cons, map_nil, sum_nil] at hsize
        omega

theorem normalizeRemote_parts (h : path.normalizeRemote = .ok path') :
    ∃ parts, (path.splitOn '/').foldlM (normalizePart (path.head? == some '/')) [] = .ok parts ∧
      (∀ part ∈ parts, part.Plain) ∧ parts.length ≤ maxPathDepth ∧ path' = render (path.head? == some '/') parts := by
  obtain ⟨-, -, -, parts, hfold, hdepth, hpath'⟩ := normalizeRemote_eq_ok.mp h
  exact ⟨parts, hfold, foldlM_plain (not_mem_splitOn path) (fun _ hmem => absurd hmem not_mem_nil) hfold,
    hdepth, hpath'⟩

/-- A normal path is not longer than the path that it comes from. -/
theorem utf8Length_normalizeRemote (h : path.normalizeRemote = .ok path') : path'.utf8Length ≤ path.utf8Length := by
  obtain ⟨hne, -, -, parts, hfold, -, rfl⟩ := normalizeRemote_eq_ok.mp h
  have hspread := foldlM_spread hfold
  rw [spread_splitOn] at hspread
  have hpositive : 1 ≤ path.utf8Length := by
    cases path with
    | nil => exact absurd rfl hne
    | cons c path =>
      have hpos := c.utf8Size_pos
      rw [utf8Length, map_cons, sum_cons]
      omega
  have hnil : spread [] = 0 := rfl
  rw [hnil] at hspread
  unfold render
  split
  · next habsolute =>
    -- The separator of an absolute path stands before a component that is dropped.
    cases path with
    | nil => exact absurd rfl hne
    | cons c rest =>
      obtain rfl : c = '/' := by simpa using habsolute
      have hsplit : ('/' :: rest).splitOn '/' = [] :: rest.splitOn '/' := splitOn_append_cons_self [] _
      rw [hsplit, foldlM_cons] at hfold
      have hdropped : (rest.splitOn '/').foldlM (normalizePart true) [] = .ok parts := hfold
      have hrest := foldlM_spread hdropped
      rw [hnil, spread_splitOn] at hrest
      have hslash : ∀ path : FilePath, utf8Length ('/' :: path) = 1 + path.utf8Length := fun path => by
        rw [utf8Length, map_cons, sum_cons]
        rfl
      rw [hslash, hslash]
      by_cases hempty : parts = []
      · rw [hempty]
        exact Nat.le_add_right _ _
      · have hsize := utf8Length_intercalate hempty
        omega
  · split
    · exact hpositive
    · next hempty =>
      have hsize := utf8Length_intercalate hempty
      omega

theorem normalizeRemote_idempotent (h : path.normalizeRemote = .ok path') : path'.normalizeRemote = .ok path' := by
  have hlength := utf8Length_normalizeRemote h
  obtain ⟨parts, hfold, hparts, hdepth, rfl⟩ := normalizeRemote_parts h
  obtain ⟨-, hlong, hnul, -⟩ := normalizeRemote_eq_ok.mp h
  refine normalizeRemote_eq_ok.mpr ⟨render_ne_nil hparts, hlength.trans hlong, ?_, parts, ?_, hdepth, ?_⟩
  · intro hmem
    rcases of_mem_render hmem with hc | hc | ⟨part, hpart, hc⟩
    · cases hc
    · cases hc
    · rcases mem_of_foldlM hfold hpart with hnone | hpiece
      · cases hnone
      · exact hnul (mem_of_mem_splitOn hpiece hc)
  · rw [head?_render' hparts]
    exact foldlM_render hparts
  · rw [head?_render' hparts]

theorem place_normalizeRemote (h : path.normalizeRemote = .ok path') (base : List FilePath) :
    place base path' = place base path := by
  obtain ⟨parts, hfold, hparts, -, rfl⟩ := normalizeRemote_parts h
  unfold place
  rw [head?_render' hparts]
  generalize (path.head? == some '/') = absolute at hfold ⊢
  have hbase : absolute = true → (if absolute = true then [] else base) = [] := fun habsolute => if_pos habsolute
  have hgiven := foldl_visit hbase hfold
  have hnormal := foldl_visit hbase (foldlM_render hparts)
  rw [append_nil] at hgiven hnormal
  rw [hgiven, hnormal]

theorem components_render (hparts : ∀ part ∈ parts, part.Plain) (hne : parts ≠ []) :
    (render absolute parts).components = parts := by
  have hsplit := splitOn_render absolute hparts
  unfold components
  rw [head?_render' hparts]
  cases absolute with
  | true =>
    rw [if_pos rfl]
    exact splitOn_intercalate _ (fun part hmem => (hparts part hmem).2.2.2.1) hne
  | false =>
    rw [if_neg Bool.false_ne_true, hsplit, if_neg Bool.false_ne_true, if_neg hne]

theorem clean_normalizeRemote (h : path.normalizeRemote = .ok path') :
    path' = ['.'] ∨ path' = ['/'] ∨ path'.Clean := by
  obtain ⟨parts, -, hparts, -, rfl⟩ := normalizeRemote_parts h
  by_cases hne : parts = []
  · subst hne
    generalize (path.head? == some '/') = absolute
    cases absolute with
    | true => exact .inr (.inl rfl)
    | false => exact .inl rfl
  · refine .inr (.inr fun part hpart => ?_)
    rw [components_render hparts hne] at hpart
    obtain ⟨hempty, hdot, hdots, -, -⟩ := hparts part hpart
    exact ⟨hempty, hdot, hdots⟩

theorem lastComponent_of_not_mem (h : '/' ∉ name) : name.lastComponent = name := by
  unfold lastComponent
  rw [takeWhile_eq_self_iff.mpr, reverse_reverse]
  intro c hc
  rw [mem_reverse] at hc
  exact decide_eq_true fun hslash => h (hslash ▸ hc)

theorem lastComponent_append (h : '/' ∉ name) (start : FilePath) : lastComponent (start ++ '/' :: name) = name := by
  unfold lastComponent
  rw [reverse_append, reverse_cons, append_assoc, singleton_append,
    takeWhile_append_of_pos, takeWhile_cons_of_neg (by simp), append_nil, reverse_reverse]
  intro c hc
  rw [mem_reverse] at hc
  exact decide_eq_true fun hslash => h (hslash ▸ hc)

/-- The last component of a normal path and what precedes it. -/
theorem split_render (hparts : ∀ part ∈ parts, part.Plain) (hname : name.Plain) :
    (render absolute (parts ++ [name])).lastComponent = name ∧
      (render absolute (parts ++ [name])).beforeLast = render absolute parts := by
  have hslash : '/' ∉ name := hname.2.2.2.1
  have hbefore : ∀ start : FilePath, beforeLast (start ++ '/' :: name) = if start = [] then ['/'] else start := by
    intro start
    have hlength : (start ++ '/' :: name).length = start.length + (name.length + 1) := by
      rw [length_append, length_cons]
    have hindex : (start ++ '/' :: name).length - name.length - 1 = start.length := by omega
    unfold beforeLast
    rw [lastComponent_append hslash, if_neg (by omega), hindex]
    dsimp only
    rw [take_left]
    by_cases hempty : start = []
    · rw [if_pos hempty, if_pos (length_eq_zero_iff.mpr hempty)]
    · rw [if_neg hempty, if_neg (length_eq_zero_iff.not.mpr hempty)]
  by_cases hempty : parts = []
  · subst hempty
    rw [nil_append]
    have hsingle : ['/'].intercalate [name] = name := by simp [List.intercalate]
    cases absolute with
    | true =>
      have hrender : render true [name] = [] ++ '/' :: name := by
        rw [render, if_pos rfl, hsingle, nil_append]
      rw [hrender, hbefore, if_pos rfl]
      exact ⟨lastComponent_append hslash _, rfl⟩
    | false =>
      have hrender : render false [name] = name := by
        rw [render, if_neg Bool.false_ne_true, if_neg (cons_ne_nil _ _), hsingle]
      rw [hrender, beforeLast, lastComponent_of_not_mem hslash, if_pos rfl]
      exact ⟨rfl, rfl⟩
  · rw [render_concat name hempty, hbefore, if_neg (render_ne_nil hparts)]
    exact ⟨lastComponent_append hslash _, rfl⟩

theorem parent_joinRemote (h : joinRemote directory name = .ok path) (hlimits : path.WithinLimits) :
    ∃ directory', directory.normalizeRemote = .ok directory' ∧ path.parentRemote = some directory' ∧
      path.fileNameRemote = .ok name := by
  obtain ⟨hname, directory', hdirectory, hpath⟩ := joinRemote_ok h
  have hplain := validateName_plain hname
  obtain ⟨parts, -, hparts, -, hrender⟩ := normalizeRemote_parts hdirectory
  have hdirectory' := normalizeRemote_idempotent hdirectory
  obtain ⟨-, -, hnul, -⟩ := normalizeRemote_eq_ok.mp hdirectory'
  refine ⟨directory', hdirectory, ?_⟩
  generalize (directory.head? == some '/') = absolute at hrender
  subst hrender
  obtain ⟨hhead, hfold, hfilter⟩ := join_parts hparts hplain hpath
  have hne : path ≠ [] := by
    rw [hpath]
    split
    · exact append_ne_nil_of_left_ne_nil (render_ne_nil hparts) _
    · exact append_ne_nil_of_left_ne_nil (render_ne_nil hparts) _
  have hnone : Char.ofNat 0 ∉ path := by
    have hnot := (validateName_ok hname).2
    rw [hpath]
    split
    · exact not_mem_append hnul hnot
    · exact not_mem_append hnul (not_mem_cons_of_ne_of_not_mem (by decide) hnot)
  have hdepth : (parts ++ [name]).length ≤ maxPathDepth := hfilter ▸ hlimits.2
  have hnormal : path.normalizeRemote = .ok (render absolute (parts ++ [name])) := by
    refine normalizeRemote_eq_ok.mpr ⟨hne, hlimits.1, hnone, parts ++ [name], ?_, hdepth, ?_⟩
    · rw [hhead]
      exact hfold
    · rw [hhead]
  obtain ⟨hlast, hbefore⟩ := @split_render absolute parts _ hparts hplain
  have hall : ∀ part ∈ parts ++ [name], part.Plain := by
    intro part hpart
    rcases mem_append.mp hpart with hpart | hpart
    · exact hparts part hpart
    · exact mem_singleton.mp hpart ▸ hplain
  constructor
  · -- A path with a component is neither the root nor the base.
    have hnotRoot : ¬(render absolute (parts ++ [name]) = ['/'] ∨ render absolute (parts ++ [name]) = ['.']) := by
      rintro (hroot | hbase)
      · have hcomponent := hlast
        rw [hroot] at hcomponent
        exact hplain.1 (hcomponent.symm.trans rfl)
      · have hcomponent := hlast
        rw [hbase] at hcomponent
        exact hplain.2.1 (hcomponent.symm.trans rfl)
    rw [parentRemote, hnormal]
    simp only
    rw [if_neg hnotRoot, hbefore]
  · rw [fileNameRemote, hnormal]
    change (do let _ ← validateName (lastComponent (render absolute (parts ++ [name]))); _) = _
    simp only [hlast]
    rw [hname]
    rfl

theorem localComponents_intercalate (hvalid : ∀ part ∈ parts, part.validateName = .ok ())
    (hlength : utf8Length (['/'].intercalate parts) ≤ maxPathBytes) (hdepth : parts.length ≤ maxPathDepth) :
    localComponents (['/'].intercalate parts) = .ok parts := by
  have hplain : ∀ part ∈ parts, part.Plain := fun part hpart => validateName_plain (hvalid part hpart)
  refine localComponents_eq_ok.mpr ⟨hlength, ?_, hvalid, hdepth⟩
  by_cases hempty : parts = []
  · rw [hempty]
    rfl
  · rw [splitOn_intercalate _ (fun part hpart => (hplain part hpart).2.2.2.1) hempty, filter_plain hplain]

theorem normalizeLocal_idempotent (h : path.normalizeLocal = .ok path') : path'.normalizeLocal = .ok path' := by
  obtain ⟨parts, hparts, rfl⟩ := normalizeLocal_eq_ok.mp h
  obtain ⟨hlong, hfilter, hvalid, hdepth⟩ := localComponents_eq_ok.mp hparts
  refine normalizeLocal_eq_ok.mpr ⟨parts, localComponents_intercalate hvalid ?_ hdepth, rfl⟩
  have hspread : spread parts ≤ path.utf8Length + 1 := by
    rw [← spread_splitOn, hfilter]
    exact spread_sublist filter_sublist
  by_cases hempty : parts = []
  · rw [hempty]
    exact Nat.zero_le _
  · have hsize := utf8Length_intercalate hempty
    omega

theorem clean_normalizeLocal (h : path.normalizeLocal = .ok path') : path' = [] ∨ path'.Clean := by
  obtain ⟨parts, hparts, rfl⟩ := normalizeLocal_eq_ok.mp h
  obtain ⟨-, -, hvalid, -⟩ := localComponents_eq_ok.mp hparts
  have hplain : ∀ part ∈ parts, part.Plain := fun part hpart => validateName_plain (hvalid part hpart)
  by_cases hempty : parts = []
  · rw [hempty]
    exact .inl rfl
  · refine .inr fun part hpart => ?_
    have hrender : ['/'].intercalate parts = render false parts := by
      rw [render, if_neg Bool.false_ne_true, if_neg hempty]
    rw [hrender, components_render hplain hempty] at hpart
    obtain ⟨hne, hdot, hdots, -, -⟩ := hplain part hpart
    exact ⟨hne, hdot, hdots⟩

theorem place_localComponents (h : path.localComponents = .ok parts) : place [] path = parts := by
  obtain ⟨-, hfilter, hvalid, -⟩ := localComponents_eq_ok.mp h
  have hvisit : ∀ (pieces place : List FilePath),
      (∀ part ∈ pieces.filter (fun part => part ≠ [] ∧ part ≠ ['.']), Plain part) →
      pieces.foldl visit place = place ++ pieces.filter fun part => part ≠ [] ∧ part ≠ ['.'] := by
    intro pieces
    induction pieces with
    | nil => exact fun place _ => (append_nil place).symm
    | cons part pieces ih =>
      intro place hplain
      by_cases hkept : part ≠ [] ∧ part ≠ ['.']
      · have hfiltered : ((part :: pieces).filter fun part => part ≠ [] ∧ part ≠ ['.']) =
            part :: pieces.filter fun part => part ≠ [] ∧ part ≠ ['.'] := by
          simp [hkept.1, hkept.2]
        rw [hfiltered] at hplain ⊢
        rw [foldl_cons, visit_plain (hplain part mem_cons_self),
          ih _ fun other hother => hplain other (mem_cons_of_mem _ hother), append_assoc,
          singleton_append]
      · have hskip : part = [] ∨ part = ['.'] := by
          by_contra hnot
          exact hkept (not_or.mp hnot)
        have hfiltered : ((part :: pieces).filter fun part => part ≠ [] ∧ part ≠ ['.']) =
            pieces.filter fun part => part ≠ [] ∧ part ≠ ['.'] :=
          filter_cons_of_neg fun h => hkept (of_decide_eq_true h)
        rw [hfiltered] at hplain ⊢
        rw [foldl_cons, visit, if_pos hskip, ih _ hplain]
  unfold place
  rw [ite_self, hvisit _ _ fun part hpart => validateName_plain (hvalid part (hfilter ▸ hpart)), nil_append,
    hfilter]

theorem place_normalizeLocal (h : path.normalizeLocal = .ok path') : place [] path' = place [] path := by
  obtain ⟨parts, hparts, rfl⟩ := normalizeLocal_eq_ok.mp h
  obtain ⟨parts', hparts', hsame⟩ := normalizeLocal_eq_ok.mp (normalizeLocal_idempotent h)
  rw [place_localComponents hparts, place_localComponents hparts']
  obtain ⟨-, -, hvalid, -⟩ := localComponents_eq_ok.mp hparts
  obtain ⟨-, hfilter', -, -⟩ := localComponents_eq_ok.mp hparts'
  have hplain : ∀ part ∈ parts, part.Plain := fun part hpart => validateName_plain (hvalid part hpart)
  by_cases hempty : parts = []
  · rw [hempty] at hfilter' ⊢
    exact hfilter'
  · rw [splitOn_intercalate _ (fun part hpart => (hplain part hpart).2.2.2.1) hempty,
      filter_plain hplain] at hfilter'
    exact hfilter'

theorem parent_joinLocal (h : joinLocal directory name = .ok path) (hlimits : path.WithinLimits) :
    ∃ directory' parts, directory.normalizeLocal = .ok directory' ∧ path.parentLocal = some directory' ∧
      path.localComponents = .ok parts ∧ parts.getLast? = some name := by
  obtain ⟨⟨⟩, hname, h⟩ := Procedure.bind_eq_ok.mp h
  obtain ⟨directory', hdirectory, h⟩ := Procedure.bind_eq_ok.mp h
  have hpath : (if directory' = [] then name else directory' ++ '/' :: name) = path := Except.ok.inj h
  obtain ⟨parts, hparts, hjoined⟩ := normalizeLocal_eq_ok.mp hdirectory
  obtain ⟨-, -, hvalid, -⟩ := localComponents_eq_ok.mp hparts
  have hplain : ∀ part ∈ parts, part.Plain := fun part hpart => validateName_plain (hvalid part hpart)
  have hall : ∀ part ∈ parts ++ [name], part.validateName = .ok () := by
    intro part hpart
    rcases mem_append.mp hpart with hpart | hpart
    · exact hvalid part hpart
    · exact mem_singleton.mp hpart ▸ hname
  have hempty : directory' = [] ↔ parts = [] := by
    constructor
    · intro hnil
      by_contra hne
      have hrender : render false parts = directory' := by
        rw [hjoined, render, if_neg Bool.false_ne_true, if_neg hne]
      exact render_ne_nil hplain (hrender.trans hnil)
    · intro hnil
      rw [hjoined, hnil]
      rfl
  have hrendered : path = ['/'].intercalate (parts ++ [name]) := by
    rw [← hpath]
    by_cases hnil : directory' = []
    · rw [if_pos hnil, hempty.mp hnil]
      simp [List.intercalate]
    · rw [if_neg hnil, intercalate_concat name (hempty.not.mp hnil), hjoined]
  have hfilter : ((path.splitOn '/').filter fun part => part ≠ [] ∧ part ≠ ['.']) = parts ++ [name] := by
    rw [hrendered, splitOn_intercalate _
      (fun part hpart => (validateName_plain (hall part hpart)).2.2.2.1) (by simp)]
    exact filter_plain fun part hpart => validateName_plain (hall part hpart)
  have hcomponents : path.localComponents = .ok (parts ++ [name]) :=
    localComponents_eq_ok.mpr ⟨hlimits.1, hfilter.symm, hall, hfilter ▸ hlimits.2⟩
  refine ⟨directory', parts ++ [name], hdirectory, ?_, hcomponents, getLast?_concat⟩
  rw [parentLocal, hcomponents]
  simp only
  rw [if_neg (by simp), dropLast_concat, hjoined]

/-- A path that is normalized is clean, denotes the same place and is normal; and a join within the limits
is taken apart by parent and last component. -/
theorem paths_are_consistent : (∀ path path', normalizeRemote path = .ok path' →
      (path' = ['.'] ∨ path' = ['/'] ∨ path'.Clean) ∧ normalizeRemote path' = .ok path' ∧
        ∀ base, place base path' = place base path) ∧
    (∀ path path', normalizeLocal path = .ok path' →
      (path' = [] ∨ path'.Clean) ∧ normalizeLocal path' = .ok path' ∧ place [] path' = place [] path) ∧
    (∀ directory name path, joinRemote directory name = .ok path → path.WithinLimits →
      ∃ directory', normalizeRemote directory = .ok directory' ∧ parentRemote path = some directory' ∧
        fileNameRemote path = .ok name) ∧
    ∀ directory name path, joinLocal directory name = .ok path → path.WithinLimits →
      ∃ directory' parts, normalizeLocal directory = .ok directory' ∧ parentLocal path = some directory' ∧
        localComponents path = .ok parts ∧ parts.getLast? = some name := by
  refine ⟨fun path path' h => ?_, fun path path' h => ?_, fun directory name path h hlimits => ?_,
    fun directory name path h hlimits => ?_⟩
  · exact ⟨clean_normalizeRemote h, normalizeRemote_idempotent h, place_normalizeRemote h⟩
  · exact ⟨clean_normalizeLocal h, normalizeLocal_idempotent h, place_normalizeLocal h⟩
  · exact parent_joinRemote h hlimits
  · exact parent_joinLocal h hlimits

/-- An absolute path that rises above the root and a relative one that returns to its base. -/
theorem rising_paths_are_consistent : (place [['h']] "/b/c".toList = place [['h']] "/a/../../b/./c".toList) ∧
      place [['h']] ".".toList = place [['h']] "a/..".toList :=
  ⟨(paths_are_consistent.1 "/a/../../b/./c".toList "/b/c".toList (by decide +kernel)).2.2 [['h']],
    (paths_are_consistent.1 "a/..".toList ".".toList (by decide +kernel)).2.2 [['h']]⟩

end FesTerm.FilePath
