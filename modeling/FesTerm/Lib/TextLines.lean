import Mathlib

/-!
# Lines of a text

A text is a list of any type in which one value separates lines. A separator at the end of a text starts
no further line, so a text that grows by words and separators grows by lines in a way that can be counted
as it is written.
-/

namespace TextLines

open List

variable {α : Type} [DecidableEq α] (sep : α)

/-- The lines of a text. -/
def lines : List α → List (List α)
  | [] => []
  | a :: text =>
    if a = sep then [] :: lines text
    else
      match lines text with
      | [] => [[a]]
      | line :: more => (a :: line) :: more

def Closed (text : List α) : Prop := ∀ a ∈ text.getLast?, a = sep

variable {sep} {text more word : List α} {a : α}

theorem lines_nil : lines sep [] = [] := rfl

theorem lines_sep (text : List α) : lines sep (sep :: text) = [] :: lines sep text := if_pos rfl

theorem lines_cons (ha : a ≠ sep) (text : List α) : lines sep (a :: text) =
      match lines sep text with
      | [] => [[a]]
      | line :: more => (a :: line) :: more := if_neg ha

theorem lines_cons_of_nil (ha : a ≠ sep) (h : lines sep text = []) : lines sep (a :: text) = [[a]] := by
  rw [lines_cons ha, h]

variable {line : List α}

theorem lines_cons_of_cons {rest : List (List α)} (ha : a ≠ sep)
    (h : lines sep text = line :: rest) : lines sep (a :: text) = (a :: line) :: rest := by
  rw [lines_cons ha, h]

omit [DecidableEq α] in
theorem closed_concat (text : List α) : Closed sep (text ++ [sep]) := by
  intro a ha
  rw [getLast?_append_of_ne_nil _ (cons_ne_nil _ _)] at ha
  exact (Option.some.inj ha).symm

theorem lines_ne_nil (h : text ≠ []) : lines sep text ≠ [] := by
  cases text with
  | nil => exact absurd rfl h
  | cons a text =>
    by_cases ha : a = sep
    · rw [ha, lines_sep]
      exact cons_ne_nil _ _
    · cases hl : lines sep text with
      | nil =>
        rw [lines_cons_of_nil ha hl]
        exact cons_ne_nil _ _
      | cons line rest =>
        rw [lines_cons_of_cons ha hl]
        exact cons_ne_nil _ _

theorem lines_append (h : Closed sep text) (more : List α) :
    lines sep (text ++ more) = lines sep text ++ lines sep more := by
  induction text with
  | nil => rfl
  | cons a text ih =>
    cases text with
    | nil =>
      have ha : a = sep := h a rfl
      rw [ha, singleton_append, lines_sep, lines_sep, lines_nil, singleton_append]
    | cons b text =>
      have ih := ih fun c hc => h c (by rwa [getLast?_cons_cons])
      rw [cons_append]
      by_cases ha : a = sep
      · rw [ha, lines_sep, lines_sep, ih, cons_append]
      · obtain ⟨line, rest, hl⟩ := exists_cons_of_ne_nil
          (show lines sep (b :: text) ≠ [] from lines_ne_nil (cons_ne_nil b text))
        rw [hl] at ih
        rw [lines_cons_of_cons ha ih, lines_cons_of_cons ha hl]
        rfl

theorem lines_word (hne : word ≠ []) (hsep : sep ∉ word) : lines sep word = [word] := by
  induction word with
  | nil => exact absurd rfl hne
  | cons a word ih =>
    rw [mem_cons, not_or] at hsep
    have ha : a ≠ sep := fun h => hsep.1 h.symm
    cases word with
    | nil => exact lines_cons_of_nil ha rfl
    | cons b word => exact lines_cons_of_cons ha (ih (cons_ne_nil _ _) hsep.2)

theorem lines_word_sep (hsep : sep ∉ word) : lines sep (word ++ [sep]) = [word] := by
  induction word with
  | nil => exact lines_sep []
  | cons a word ih =>
    rw [mem_cons, not_or] at hsep
    exact lines_cons_of_cons (fun h => hsep.1 h.symm) (ih hsep.2)

/-- As a text grows its lines stay where they are, and only grow. -/
theorem getElem?_lines_append {i : Nat} (more : List α)
    (h : (lines sep text)[i]? = some line) :
    ∃ line', (lines sep (text ++ more))[i]? = some line' ∧ line <+: line' := by
  induction text generalizing i line with
  | nil => cases h
  | cons a text ih =>
    rw [cons_append]
    by_cases ha : a = sep
    · rw [ha, lines_sep] at h ⊢
      cases i with
      | zero => exact ⟨[], rfl, by rw [← Option.some.inj h]⟩
      | succ i => exact ih h
    · cases hl : lines sep text with
      | nil =>
        -- the first line of what follows is begun by `a`
        have htext : text = [] := by
          by_contra hne
          exact lines_ne_nil hne hl
        rw [lines_cons_of_nil ha hl] at h
        rw [htext, nil_append]
        cases i with
        | succ i => cases h
        | zero =>
          cases h
          cases hm : lines sep more with
          | nil => exact ⟨[a], by rw [lines_cons_of_nil ha hm]; rfl, prefix_refl _⟩
          | cons first rest =>
            exact ⟨a :: first, by rw [lines_cons_of_cons ha hm]; rfl, prefix_append [a] first⟩
      | cons first rest =>
        rw [lines_cons_of_cons ha hl] at h
        obtain ⟨first', hfirst, hgrows⟩ := ih (by rw [hl]; exact getElem?_cons_zero)
        obtain ⟨rest', hrest⟩ : ∃ rest', lines sep (text ++ more) = first' :: rest' := by
          cases hall : lines sep (text ++ more) with
          | nil => rw [hall] at hfirst; cases hfirst
          | cons line rest' =>
            rw [hall] at hfirst
            exact ⟨rest', by rw [Option.some.inj hfirst]⟩
        rw [lines_cons_of_cons ha hrest]
        cases i with
        | zero =>
          cases h
          exact ⟨a :: first', rfl, (prefix_cons_inj a).mpr hgrows⟩
        | succ i =>
          have hi : (lines sep text)[i + 1]? = some line := by rw [hl]; exact h
          obtain ⟨line', hline', hle⟩ := ih hi
          rw [hrest] at hline'
          exact ⟨line', hline', hle⟩

theorem length_lines_append (text more : List α) :
    (lines sep text).length ≤ (lines sep (text ++ more)).length := by
  by_contra hlt
  have hlt : (lines sep (text ++ more)).length < (lines sep text).length := by omega
  obtain ⟨line, hline, -⟩ := getElem?_lines_append more (getElem?_eq_getElem hlt)
  have := (List.getElem?_eq_some_iff.mp hline).1
  omega

theorem length_lines_le (text : List α) : (lines sep text).length ≤ text.length := by
  induction text with
  | nil => exact le_rfl
  | cons a text ih =>
    by_cases ha : a = sep
    · rw [ha, lines_sep, length_cons, length_cons]
      omega
    · cases hl : lines sep text with
      | nil =>
        rw [lines_cons_of_nil ha hl, length_cons, length_cons]
        simp
      | cons line rest =>
        rw [hl, length_cons] at ih
        rw [lines_cons_of_cons ha hl, length_cons, length_cons]
        omega

end TextLines
