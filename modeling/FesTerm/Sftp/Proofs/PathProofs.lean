import FesTerm.Lib.Procedure
import FesTerm.Sftp.Model

/-!
# Proofs: a joined path is normal up to a leading dot

Joining a name to a directory normalizes the directory first, so that normalizing the result again can
drop no more than the `.` that stands for an empty relative directory.
-/

namespace FesTerm.FilePath

open List

def Plain (part : FilePath) : Prop :=
  part ≠ [] ∧ part ≠ ['.'] ∧ part ≠ ['.', '.'] ∧ '/' ∉ part ∧ part.utf8Length ≤ maxNameBytes

/-- A normal path with its components. -/
def render (absolute : Bool) (parts : List FilePath) : FilePath :=
  if absolute then '/' :: ['/'].intercalate parts
  else if parts = [] then ['.'] else ['/'].intercalate parts

theorem Plain.normalizePart {part : FilePath} (h : part.Plain) (absolute : Bool) (parts : List FilePath) :
    normalizePart absolute parts part = .ok (parts ++ [part]) := by
  obtain ⟨hempty, hdot, hdots, _, hlength⟩ := h
  unfold FilePath.normalizePart
  rw [if_neg (by simp [hempty, hdot]), if_neg hdots, if_neg (Nat.not_lt.mpr hlength)]

variable {absolute : Bool} {parts : List FilePath} {path path' directory name : FilePath}

theorem normalizePart_plain {parts' : List FilePath} {part : FilePath}
    (hparts : ∀ part ∈ parts, part.Plain) (hpart : '/' ∉ part)
    (h : normalizePart absolute parts part = .ok parts') : ∀ part ∈ parts', part.Plain := by
  unfold normalizePart at h
  split at h
  · cases h
    exact hparts
  · next hnotDot =>
    split at h
    · split at h
      · cases h
      · cases h
        exact fun part hmem => hparts part (mem_of_mem_dropLast hmem)
    · next hnotDots =>
      split at h
      · cases h
      · next hlength =>
        cases h
        intro other hmem
        rcases mem_append.mp hmem with hmem | hmem
        · exact hparts other hmem
        · rw [mem_singleton.mp hmem]
          rw [not_or] at hnotDot
          exact ⟨hnotDot.1, hnotDot.2, hnotDots, hpart, Nat.not_lt.mp hlength⟩

theorem foldlM_plain {pieces parts' : List FilePath}
    (hpieces : ∀ piece ∈ pieces, '/' ∉ piece) (hparts : ∀ part ∈ parts, part.Plain)
    (h : pieces.foldlM (normalizePart absolute) parts = .ok parts') : ∀ part ∈ parts', part.Plain := by
  induction pieces generalizing parts with
  | nil =>
    cases h
    exact hparts
  | cons piece pieces ih =>
    obtain ⟨middle, hpiece, h⟩ := Procedure.foldlM_cons_eq_ok.mp h
    refine ih (fun piece hmem => hpieces piece (mem_cons_of_mem _ hmem)) ?_ h
    exact normalizePart_plain hparts (hpieces piece mem_cons_self) hpiece

theorem foldlM_of_plain {pieces : List FilePath} (hpieces : ∀ piece ∈ pieces, piece.Plain) :
    pieces.foldlM (normalizePart absolute) parts = .ok (parts ++ pieces) := by
  induction pieces generalizing parts with
  | nil => rw [append_nil]; rfl
  | cons piece pieces ih =>
    rw [foldlM_cons, (hpieces piece mem_cons_self).normalizePart]
    exact (ih fun piece hmem => hpieces piece (mem_cons_of_mem _ hmem)).trans
      (by rw [append_assoc, singleton_append])

theorem not_mem_splitOn (path : FilePath) : ∀ piece ∈ path.splitOn '/', '/' ∉ piece := by
  induction path with
  | nil => simp [splitOn_nil]
  | cons c path ih =>
    rw [splitOn_cons_eq_if_modifyHead]
    by_cases hc : c == '/'
    · rw [if_pos hc]
      intro piece hmem
      rcases mem_cons.mp hmem with rfl | hmem
      · exact not_mem_nil
      · exact ih piece hmem
    · rw [if_neg hc]
      cases hsplit : path.splitOn '/' with
      | nil => exact absurd hsplit (splitOn_ne_nil _ _)
      | cons first rest =>
        rw [hsplit] at ih
        intro piece hmem
        rcases mem_cons.mp hmem with rfl | hmem
        · refine not_mem_cons_of_ne_of_not_mem ?_ (ih first mem_cons_self)
          rintro rfl
          exact hc rfl
        · exact ih piece (mem_cons_of_mem _ hmem)

/-- What a path has to meet to be normalized. -/
theorem normalizeRemote_eq_ok : path.normalizeRemote = .ok path' ↔
    path ≠ [] ∧ path.utf8Length ≤ maxPathBytes ∧ Char.ofNat 0 ∉ path ∧
      ∃ parts, (path.splitOn '/').foldlM (normalizePart (path.head? == some '/')) [] = .ok parts ∧
        parts.length ≤ maxPathDepth ∧ path' = render (path.head? == some '/') parts := by
  unfold normalizeRemote
  by_cases hempty : path = []
  · rw [if_pos hempty]
    exact ⟨fun h => (by cases h), fun h => absurd hempty h.1⟩
  rw [if_neg hempty]
  by_cases hlong : path.utf8Length > maxPathBytes
  · rw [if_pos hlong]
    exact ⟨fun h => (by cases h), fun h => absurd h.2.1 (Nat.not_le.mpr hlong)⟩
  rw [if_neg hlong]
  by_cases hnul : Char.ofNat 0 ∈ path
  · rw [if_pos hnul]
    exact ⟨fun h => (by cases h), fun h => absurd hnul h.2.2.1⟩
  rw [if_neg hnul]
  cases hparts : (path.splitOn '/').foldlM (normalizePart (path.head? == some '/')) [] with
  | error error =>
    dsimp only
    rw [hparts]
    refine ⟨fun h => (by cases h), ?_⟩
    rintro ⟨-, -, -, parts, hfold, -⟩
    cases hfold
  | ok parts =>
    dsimp only
    rw [hparts]
    change (if parts.length > maxPathDepth then _ else _) = _ ↔ _
    by_cases hdeep : parts.length > maxPathDepth
    · rw [if_pos hdeep]
      refine ⟨fun h => (by cases h), ?_⟩
      rintro ⟨-, -, -, parts', hfold, hdepth, -⟩
      rw [← Except.ok.inj hfold] at hdepth
      exact absurd hdepth (Nat.not_le.mpr hdeep)
    · rw [if_neg hdeep]
      constructor
      · intro h
        exact ⟨hempty, Nat.not_lt.mp hlong, hnul, parts, rfl, Nat.not_lt.mp hdeep, (Except.ok.inj h).symm⟩
      · rintro ⟨-, -, -, parts', hfold, -, rfl⟩
        rw [← Except.ok.inj hfold]
        rfl

theorem normalizeRemote_render (h : path.normalizeRemote = .ok path') :
    ∃ absolute parts, (∀ part ∈ parts, part.Plain) ∧ path' = render absolute parts := by
  obtain ⟨-, -, -, parts, hfold, -, hrender⟩ := normalizeRemote_eq_ok.mp h
  exact ⟨_, parts, foldlM_plain (not_mem_splitOn path) (fun _ hmem => absurd hmem not_mem_nil) hfold, hrender⟩

theorem validateName_ok (h : name.validateName = .ok ()) : name.Plain ∧ Char.ofNat 0 ∉ name := by
  unfold validateName at h
  cases hproblem : name.nameProblem with
  | some reason =>
    rw [hproblem] at h
    cases h
  | none =>
    unfold nameProblem at hproblem
    by_cases hempty : name = []
    · rw [if_pos hempty] at hproblem
      cases hproblem
    rw [if_neg hempty] at hproblem
    by_cases hdots : name = ['.'] ∨ name = ['.', '.']
    · rw [if_pos hdots] at hproblem
      cases hproblem
    rw [if_neg hdots] at hproblem
    by_cases hlong : name.utf8Length > maxNameBytes
    · rw [if_pos hlong] at hproblem
      cases hproblem
    rw [if_neg hlong] at hproblem
    by_cases hnul : Char.ofNat 0 ∈ name
    · rw [if_pos hnul] at hproblem
      cases hproblem
    rw [if_neg hnul] at hproblem
    by_cases hseparator : '/' ∈ name ∨ '\\' ∈ name
    · rw [if_pos hseparator] at hproblem
      cases hproblem
    rw [not_or] at hdots hseparator
    exact ⟨⟨hempty, hdots.1, hdots.2, hseparator.1, Nat.not_lt.mp hlong⟩, hnul⟩

theorem validateName_plain (h : name.validateName = .ok ()) : name.Plain := (validateName_ok h).1

theorem splitOn_render (absolute : Bool) (hparts : ∀ part ∈ parts, part.Plain) :
    (render absolute parts).splitOn '/' =
      if absolute then [] :: (if parts = [] then [[]] else parts)
      else if parts = [] then [['.']] else parts := by
  have hsplit : parts ≠ [] → (['/'].intercalate parts).splitOn '/' = parts := fun hne =>
    splitOn_intercalate _ (fun part hmem => (hparts part hmem).2.2.2.1) hne
  unfold render
  cases absolute with
  | false =>
    rw [if_neg Bool.false_ne_true, if_neg Bool.false_ne_true]
    by_cases hempty : parts = []
    · rw [if_pos hempty, if_pos hempty]
      rfl
    · rw [if_neg hempty, if_neg hempty]
      exact hsplit hempty
  | true =>
    rw [if_pos rfl, if_pos rfl]
    have happend : ('/' :: ['/'].intercalate parts).splitOn '/' =
        [] :: (['/'].intercalate parts).splitOn '/' := splitOn_append_cons_self [] _
    rw [happend]
    by_cases hempty : parts = []
    · rw [if_pos hempty, hempty]
      rfl
    · rw [if_neg hempty, hsplit hempty]

theorem getLast?_render (hparts : ∀ part ∈ parts, part.Plain)
    (h : (render absolute parts).getLast? = some '/') : absolute = true ∧ parts = [] := by
  obtain ⟨start, hstart⟩ := getLast?_eq_some_iff.mp h
  have hsplit := splitOn_render absolute hparts
  rw [hstart, splitOn_append_cons_self] at hsplit
  have hlast : (start.splitOn '/' ++ [[]]).getLast? = some [] := getLast?_concat
  rw [show List.splitOn '/' ([] : FilePath) = [[]] from rfl] at hsplit
  rw [hsplit] at hlast
  by_cases hempty : parts = []
  · cases absolute with
    | true => exact ⟨rfl, hempty⟩
    | false => simp [hempty] at hlast
  · exfalso
    have hmem : [] ∈ parts := by
      cases absolute with
      | true =>
        rw [if_pos rfl, if_neg hempty, getLast?_cons_of_ne_nil hempty] at hlast
        exact mem_of_getLast? hlast
      | false =>
        rw [if_neg Bool.false_ne_true, if_neg hempty] at hlast
        exact mem_of_getLast? hlast
    exact (hparts [] hmem).1 rfl

theorem intercalate_concat (name : FilePath) (hne : parts ≠ []) :
    ['/'].intercalate (parts ++ [name]) = ['/'].intercalate parts ++ '/' :: name := by
  induction parts with
  | nil => exact absurd rfl hne
  | cons first parts ih =>
    cases parts with
    | nil =>
      rw [singleton_append, intercalate_cons_cons]
      simp [List.intercalate]
    | cons second parts =>
      rw [cons_append, cons_append, intercalate_cons_cons, ← cons_append,
        ih (cons_ne_nil _ _), intercalate_cons_cons]
      simp only [append_assoc]

theorem render_concat (name : FilePath) (hne : parts ≠ []) :
    render absolute (parts ++ [name]) = render absolute parts ++ '/' :: name := by
  unfold render
  cases absolute with
  | true => rw [if_pos rfl, if_pos rfl, intercalate_concat name hne, cons_append]
  | false =>
    rw [if_neg Bool.false_ne_true, if_neg Bool.false_ne_true, if_neg hne, if_neg (by simp),
      intercalate_concat name hne]

theorem head?_render (hparts : ∀ part ∈ parts, part.Plain)
    (rest : FilePath) : ((render absolute parts ++ rest).head? == some '/') = absolute := by
  unfold render
  cases absolute with
  | true => rfl
  | false =>
    rw [if_neg Bool.false_ne_true]
    cases parts with
    | nil => rfl
    | cons first parts =>
      obtain ⟨hempty, _, _, hseparator, _⟩ := hparts first mem_cons_self
      cases first with
      | nil => exact absurd rfl hempty
      | cons c first =>
        have hc : c ≠ '/' := fun h => hseparator (h ▸ mem_cons_self)
        cases parts with
        | nil => simpa [List.intercalate] using hc
        | cons second parts =>
          rw [if_neg (cons_ne_nil _ _), intercalate_cons_cons]
          simpa using hc

theorem joinRemote_ok (h : joinRemote directory name = .ok path) :
    name.validateName = .ok () ∧ ∃ directory', directory.normalizeRemote = .ok directory' ∧
      path = if directory'.getLast? = some '/' then directory' ++ name else directory' ++ '/' :: name := by
  obtain ⟨⟨⟩, hname, h⟩ := Procedure.bind_eq_ok.mp h
  obtain ⟨directory', hdirectory, h⟩ := Procedure.bind_eq_ok.mp h
  exact ⟨hname, directory', hdirectory, (Except.ok.inj h).symm⟩

theorem filter_plain (hparts : ∀ part ∈ parts, part.Plain) :
    (parts.filter fun part => part ≠ [] ∧ part ≠ ['.']) = parts := by
  refine filter_eq_self.mpr fun part hpart => ?_
  obtain ⟨hempty, hdot, -⟩ := hparts part hpart
  exact decide_eq_true ⟨hempty, hdot⟩

/-- The components of a joined path are those of the directory with the name after them. -/
theorem join_parts (hparts : ∀ part ∈ parts, part.Plain) (hname : name.Plain)
    (hpath : path = if (render absolute parts).getLast? = some '/' then render absolute parts ++ name
      else render absolute parts ++ '/' :: name) :
    (path.head? == some '/') = absolute ∧
      (path.splitOn '/').foldlM (normalizePart absolute) [] = .ok (parts ++ [name]) ∧
      ((path.splitOn '/').filter fun part => part ≠ [] ∧ part ≠ ['.']) = parts ++ [name] := by
  have hsingle : name.splitOn '/' = [name] := splitOn_eq_singleton hname.2.2.2.1
  have hall : ∀ part ∈ parts ++ [name], part.Plain := by
    intro part hpart
    rcases mem_append.mp hpart with hpart | hpart
    · exact hparts part hpart
    · exact mem_singleton.mp hpart ▸ hname
  -- Both ways to join leave an empty component or a dot before the name of a child of the root or the base.
  have hsplit : ∃ skipped : List FilePath, (∀ part ∈ skipped, part = [] ∨ part = ['.']) ∧
      path.splitOn '/' = skipped ++ (parts ++ [name]) := by
    by_cases hroot : (render absolute parts).getLast? = some '/'
    · obtain ⟨rfl, rfl⟩ := getLast?_render hparts hroot
      rw [if_pos hroot] at hpath
      refine ⟨[[]], by simp, ?_⟩
      rw [hpath]
      exact (splitOn_append_cons_self [] name).trans (congrArg _ hsingle)
    · rw [if_neg hroot] at hpath
      have happend : path.splitOn '/' = (render absolute parts).splitOn '/' ++ [name] := by
        rw [hpath]
        exact (splitOn_append_cons_self _ _).trans (congrArg _ hsingle)
      rw [happend, splitOn_render absolute hparts]
      by_cases hempty : parts = []
      · subst hempty
        cases absolute with
        | true => exact absurd rfl hroot
        | false => exact ⟨[['.']], by simp, rfl⟩
      · rw [if_neg hempty, if_neg hempty]
        cases absolute with
        | true => exact ⟨[[]], by simp, rfl⟩
        | false => exact ⟨[], by simp, rfl⟩
  obtain ⟨skipped, hskipped, hsplit⟩ := hsplit
  have hfold : skipped.foldlM (normalizePart absolute) [] = .ok [] := by
    clear hsplit
    induction skipped with
    | nil => rfl
    | cons part skipped ih =>
      rw [foldlM_cons, normalizePart, if_pos (hskipped part mem_cons_self)]
      exact ih fun part hpart => hskipped part (mem_cons_of_mem _ hpart)
  have hfiltered : (skipped.filter fun part => part ≠ [] ∧ part ≠ ['.']) = [] := by
    refine filter_eq_nil_iff.mpr fun part hpart hkept => ?_
    rcases hskipped part hpart with hempty | hdot
    · exact (of_decide_eq_true hkept).1 hempty
    · exact (of_decide_eq_true hkept).2 hdot
  refine ⟨?_, ?_, ?_⟩
  · rw [hpath]
    split
    · exact head?_render hparts _
    · exact head?_render hparts _
  · rw [hsplit, foldlM_append, hfold]
    exact foldlM_of_plain hall
  · rw [hsplit, filter_append, hfiltered, nil_append, filter_plain hall]

/-- Normalizing a joined path again drops at most a leading `./`. -/
theorem normalizeRemote_joinRemote (hjoin : joinRemote directory name = .ok path)
    (h : path.normalizeRemote = .ok path') : path = path' ∨ path = '.' :: '/' :: path' := by
  obtain ⟨hname, directory', hdirectory, hpath⟩ := joinRemote_ok hjoin
  have hplain := validateName_plain hname
  obtain ⟨absolute, parts, hparts, rfl⟩ := normalizeRemote_render hdirectory
  obtain ⟨hhead, hfold, -⟩ := join_parts hparts hplain hpath
  obtain ⟨-, -, -, parts', hfold', -, rfl⟩ := normalizeRemote_eq_ok.mp h
  rw [hhead] at hfold' ⊢
  cases hfold.symm.trans hfold'
  by_cases hempty : parts = []
  · subst hempty
    rw [hpath]
    cases absolute with
    | true => exact .inl (by simp [render, List.intercalate])
    | false => exact .inr (by simp [render, List.intercalate])
  · left
    rw [render_concat name hempty, hpath, if_neg fun hroot => hempty (getLast?_render hparts hroot).2]

end FesTerm.FilePath
