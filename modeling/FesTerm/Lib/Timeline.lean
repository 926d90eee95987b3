import Mathlib

/-!
# Timelines

A timeline is a list of positions joined by entries: entry `i` leads from position `i` to position
`i + 1`. A history that forgets its oldest entries keeps an end of its timeline, one that discards
what was undone keeps a beginning, and a new entry is joined to the last position.

`Labelled log labels positions` says that a log gives each label the position it stands at.
-/

namespace Timeline

open List

variable {α ε τ : Type}

/-- Entry `i` leads from position `i` to position `i + 1`. -/
structure Trail (step : ε → α → α → Prop) (positions : List α) (entries : List ε) : Prop where
  length : positions.length = entries.length + 1
  steps : ∀ i entry, entries[i]? = some entry →
    ∃ before after, positions[i]? = some before ∧ positions[i + 1]? = some after ∧
      step entry before after

section Trails

variable {step : ε → α → α → Prop} {positions : List α} {entries : List ε}

theorem Trail.single (position : α) : Trail step [position] [] :=
  ⟨rfl, by simp⟩

theorem Trail.take (h : Trail step positions entries) {n : Nat} (hn : n ≤ entries.length) :
    Trail step (positions.take (n + 1)) (entries.take n) := by
  constructor
  · have := h.length
    simp only [length_take]
    omega
  · intro i entry hi
    have hlt : i < n := by
      have := (List.getElem?_eq_some_iff.mp hi).1
      simp only [length_take] at this
      omega
    rw [getElem?_take_of_lt hlt] at hi
    rw [getElem?_take_of_lt (by omega), getElem?_take_of_lt (by omega)]
    exact h.steps i entry hi

theorem Trail.drop (h : Trail step positions entries) {n : Nat} (hn : n ≤ entries.length) :
    Trail step (positions.drop n) (entries.drop n) := by
  constructor
  · have := h.length
    simp only [length_drop]
    omega
  · intro i entry hi
    rw [getElem?_drop] at hi
    rw [getElem?_drop, getElem?_drop, ← Nat.add_assoc]
    exact h.steps (n + i) entry hi

theorem Trail.snoc (h : Trail step positions entries) {before after : α} {entry : ε}
    (hlast : positions.getLast? = some before) (hstep : step entry before after) :
    Trail step (positions ++ [after]) (entries ++ [entry]) := by
  have hlen := h.length
  constructor
  · simp only [length_append, length_singleton]
    omega
  · intro i e hi
    rcases Nat.lt_or_ge i entries.length with hlt | hge
    · rw [getElem?_append_left hlt] at hi
      rw [getElem?_append_left (by omega), getElem?_append_left (by omega)]
      exact h.steps i e hi
    · have hi' : i = entries.length := by
        have := (List.getElem?_eq_some_iff.mp hi).1
        simp only [length_append, length_singleton] at this
        omega
      subst hi'
      rw [getElem?_append_right le_rfl, Nat.sub_self] at hi
      obtain rfl : entry = e := by simpa using hi
      refine ⟨before, after, ?_, ?_, hstep⟩
      · rw [getElem?_append_left (by omega), ← hlast, getLast?_eq_getElem?, hlen]
        rfl
      · rw [getElem?_append_right (by omega), hlen]
        simp

theorem Trail.congr {entries' : List ε} (h : Trail step positions entries)
    (hlen : entries'.length = entries.length)
    (hsame : ∀ (i : Nat) entry', entries'[i]? = some entry' →
      ∃ entry, entries[i]? = some entry ∧ ∀ before after, step entry before after →
        step entry' before after) :
    Trail step positions entries' := by
  constructor
  · rw [h.length, hlen]
  · intro i entry' hi
    obtain ⟨entry, hentry, himp⟩ := hsame i entry' hi
    obtain ⟨before, after, hb, ha, hstep⟩ := h.steps i entry hentry
    exact ⟨before, after, hb, ha, himp _ _ hstep⟩

end Trails

def Labelled (log : τ → Option α) (labels : List τ) (positions : List α) : Prop :=
  Forall₂ (fun label position => log label = some position) labels positions

def Extends (log log' : τ → Option α) : Prop := ∀ label position,
  log label = some position → log' label = some position

section Labels

variable {log log' : τ → Option α} {labels : List τ} {positions : List α}

theorem Extends.refl (log : τ → Option α) : Extends log log := fun _ _ h => h

theorem Extends.trans {log'' : τ → Option α} (h : Extends log log') (h' : Extends log' log'') :
    Extends log log'' := fun label position hl => h' label position (h label position hl)

theorem extends_update [DecidableEq τ] {label : τ} (hfresh : log label = none) (position : α) :
    Extends log (Function.update log label (some position)) := by
  intro other position' h
  have hne : other ≠ label := by
    rintro rfl
    rw [hfresh] at h
    cases h
  rw [Function.update_of_ne hne]
  exact h

theorem Labelled.mono (h : Labelled log labels positions) (hext : Extends log log') :
    Labelled log' labels positions :=
  Forall₂.imp (fun label position hl => hext label position hl) h

theorem Labelled.get (h : Labelled log labels positions) {i : Nat} {label : τ} {position : α}
    (hl : labels[i]? = some label) (hp : positions[i]? = some position) :
    log label = some position := by
  obtain ⟨hi, rfl⟩ := List.getElem?_eq_some_iff.mp hl
  obtain ⟨hi', rfl⟩ := List.getElem?_eq_some_iff.mp hp
  exact (forall₂_iff_get.mp h).2 i hi hi'

theorem Labelled.take (h : Labelled log labels positions) (n : Nat) :
    Labelled log (labels.take n) (positions.take n) :=
  forall₂_take n h

theorem Labelled.drop (h : Labelled log labels positions) (n : Nat) :
    Labelled log (labels.drop n) (positions.drop n) :=
  forall₂_drop n h

theorem Labelled.snoc (h : Labelled log labels positions) {label : τ} {position : α}
    (hlog : log label = some position) : Labelled log (labels ++ [label]) (positions ++ [position]) :=
  rel_append h (.cons hlog .nil)

end Labels

end Timeline
