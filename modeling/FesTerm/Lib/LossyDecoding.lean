import FesTerm.Lib.PrefixCode

/-!
# Lossy decoding

A text need not be a concatenation of codes. `Decodes` says what reading it leniently gives: each code
is read as what it stands for, each maximal ill-formed part as one replacement, and a beginning of a code
at the very end is held back. For a code that is read back from the front of a text the result is
determined (`Decodes.unique`).

A reader that sees one symbol at a time uses three rules. It holds the beginning of a code;
a symbol extends it, completes a code (`Decodes.code`), or fits none. Then the held symbols are one
ill-formed part (`Decodes.broken`), and a symbol that begins nothing is a part (`Decodes.stray`).
-/

namespace LossyDecoding

open PrefixCode List

variable {α σ : Type} {code : α → List σ} {replacement : α}

def Begins (code : α → List σ) (word : List σ) : Prop :=
  word ≠ [] ∧ ∃ a more, more ≠ [] ∧ code a = word ++ more

/-- The word is the beginning of a code. -/
def Fits (code : α → List σ) (word : List σ) : Prop := ∃ a more, code a = word ++ more

/-- A maximal ill-formed part at the front of a text: the longest beginning of a code that the text
starts with, or else the first symbol alone. -/
structure MaximalSubpart (code : α → List σ) (text sub : List σ) : Prop where
  atFront : sub <+: text
  shape : Begins code sub ∨ sub.length = 1
  longest : ∀ word, word <+: text → sub.length < word.length → ¬ Fits code word

/-- The text reads as the decoded values, with its last symbols held back. -/
inductive Decodes (code : α → List σ) (replacement : α) : List σ → List α → List σ → Prop where
  /-- Nothing is left. -/
  | done : Decodes code replacement [] [] []
  /-- What is left begins a code. -/
  | held {text : List σ} (h : Begins code text) : Decodes code replacement text [] text
  /-- A code is read as its value. -/
  | code {a : α} {rest held : List σ} {values : List α} (h : Decodes code replacement rest values held) :
      Decodes code replacement (code a ++ rest) (a :: values) held
  /-- The text begins with no code and is not the beginning of one: its first maximal part is
  replaced. -/
  | replaced {sub rest held : List σ} {values : List α} (hopen : ¬ Begins code (sub ++ rest))
      (hcode : ∀ a, ¬ code a <+: sub ++ rest) (hsub : MaximalSubpart code (sub ++ rest) sub)
      (h : Decodes code replacement rest values held) :
      Decodes code replacement (sub ++ rest) (replacement :: values) held

variable {word rest other : List σ} {values : List α}

theorem Begins.fits (h : Begins code word) : Fits code word := by
  obtain ⟨-, a, more, -, hcode⟩ := h
  exact ⟨a, more, hcode⟩

theorem Fits.of_prefix {longer : List σ} (h : Fits code longer) (hp : word <+: longer) : Fits code word := by
  obtain ⟨a, more, hcode⟩ := h
  obtain ⟨rest, rfl⟩ := hp
  exact ⟨a, rest ++ more, by rw [hcode, append_assoc]⟩

theorem not_begins_of_code (hcode : ReadsBack code) {a : α} : ¬ Begins code (code a ++ rest) := by
  rintro ⟨-, b, more, hmore, hb⟩
  rw [append_assoc, ← append_nil (code b)] at hb
  obtain ⟨-, hrest⟩ := hcode b a [] (rest ++ more) hb
  exact hmore (append_eq_nil_iff.mp hrest.symm).2

variable {text : List σ}

theorem MaximalSubpart.length_le {sub : List σ} (h : MaximalSubpart code text sub)
    (hother : MaximalSubpart code text other) : other.length ≤ sub.length := by
  by_contra hlt
  have hnot := h.longest other hother.atFront (by omega)
  rcases hother.shape with hbegins | hone
  · exact hnot hbegins.fits
  · rcases h.shape with hbegins | hsub
    · have := length_pos_iff.mpr hbegins.1
      omega
    · omega

theorem MaximalSubpart.unique {sub : List σ} (h : MaximalSubpart code text sub)
    (hother : MaximalSubpart code text other) : sub = other := by
  have hle := h.length_le hother
  have hge := hother.length_le h
  rw [prefix_iff_eq_take.mp h.atFront, prefix_iff_eq_take.mp hother.atFront,
    show sub.length = other.length by omega]

variable {held : List σ}

/-- The reading of a text is determined. -/
theorem Decodes.unique (hcode : ReadsBack code) (hne : ∀ a, code a ≠ [])
    (h : Decodes code replacement text values held) :
    ∀ {values' : List α} {held' : List σ}, Decodes code replacement text values' held' →
      values' = values ∧ held' = held := by
  induction h with
  | done =>
    intro values' held' h'
    generalize htext : ([] : List σ) = text at h'
    cases h' with
    | done => exact ⟨rfl, rfl⟩
    | held hbegins => exact absurd htext.symm hbegins.1
    | code => exact absurd (append_eq_nil_iff.mp htext.symm).1 (hne _)
    | replaced hopen hno hsub =>
      have hnil := (append_eq_nil_iff.mp htext.symm).1
      rcases hsub.shape with hbegins | hone
      · exact absurd hnil hbegins.1
      · rw [hnil] at hone
        cases hone
  | @held text hbegins =>
    intro values' held' h'
    cases h' with
    | done => exact absurd rfl hbegins.1
    | held => exact ⟨rfl, rfl⟩
    | code => exact absurd hbegins (not_begins_of_code hcode)
    | replaced hopen => exact absurd hbegins hopen
  | @code a rest held values _ ih =>
    intro values' held' h'
    generalize htext : code a ++ rest = text at h'
    cases h' with
    | done => exact absurd (append_eq_nil_iff.mp htext).1 (hne _)
    | held hbegins =>
      rw [← htext] at hbegins
      exact absurd hbegins (not_begins_of_code hcode)
    | code h' =>
      obtain ⟨rfl, rfl⟩ := hcode _ _ _ _ htext
      obtain ⟨rfl, rfl⟩ := ih h'
      exact ⟨rfl, rfl⟩
    | replaced hopen hno =>
      rw [← htext] at hno
      exact absurd (prefix_append _ _) (hno a)
  | @replaced sub rest held values hopen hno hsub _ ih =>
    intro values' held' h'
    generalize htext : sub ++ rest = text at h'
    cases h' with
    | done =>
      rw [htext] at hsub
      have hnil := (append_eq_nil_iff.mp htext).1
      rcases hsub.shape with hbegins | hone
      · exact absurd hnil hbegins.1
      · rw [hnil] at hone
        cases hone
    | held hbegins =>
      rw [← htext] at hbegins
      exact absurd hbegins hopen
    | code h' =>
      rw [htext] at hno
      exact absurd (prefix_append _ _) (hno _)
    | replaced hopen' hno' hsub' h' =>
      rw [htext] at hsub
      obtain rfl := hsub.unique hsub'
      obtain rfl := append_cancel_left htext
      obtain ⟨rfl, rfl⟩ := ih h'
      exact ⟨rfl, rfl⟩

variable {symbol : σ}

theorem not_fits_longer (hno : ¬ Fits code (word ++ [symbol]))
    (hp : other <+: word ++ symbol :: rest) (hlen : word.length < other.length) : ¬ Fits code other := by
  intro hfits
  refine hno (hfits.of_prefix ?_)
  have hfront : word ++ [symbol] <+: word ++ symbol :: rest := ⟨rest, by simp⟩
  refine prefix_of_prefix_length_le hfront hp ?_
  simp only [length_append, length_singleton]
  omega

theorem Decodes.broken (hcode : ReadsBack code)
    (hbegins : Begins code word) (hno : ¬ Fits code (word ++ [symbol]))
    (h : Decodes code replacement (symbol :: rest) values held) :
    Decodes code replacement (word ++ symbol :: rest) (replacement :: values) held := by
  have hlonger : ∀ other, other <+: word ++ symbol :: rest → word.length < other.length →
      ¬ Fits code other := fun other hp hlen => not_fits_longer hno hp hlen
  refine .replaced ?_ ?_ ⟨prefix_append _ _, .inl hbegins, hlonger⟩ h
  · intro htext
    exact hlonger _ prefix_rfl (by simp) htext.fits
  · intro a ha
    rcases Nat.lt_or_ge word.length (code a).length with hlt | hge
    · exact hlonger _ ha hlt ⟨a, [], by simp⟩
    · -- a code inside the held symbols would begin another code
      obtain ⟨tail, htail⟩ := prefix_of_prefix_length_le ha (prefix_append _ _) hge
      rw [← htail] at hbegins
      exact not_begins_of_code hcode hbegins

theorem Decodes.stray (hne : ∀ a, code a ≠ [])
    (hno : ¬ Fits code [symbol]) (h : Decodes code replacement rest values held) :
    Decodes code replacement (symbol :: rest) (replacement :: values) held := by
  have hany : ∀ word, word <+: symbol :: rest → word ≠ [] → ¬ Fits code word := by
    intro word hp hword hfits
    refine hno (hfits.of_prefix ?_)
    refine prefix_of_prefix_length_le ⟨rest, rfl⟩ hp ?_
    exact length_pos_iff.mpr hword
  have hsub : MaximalSubpart code ([symbol] ++ rest) [symbol] := by
    refine ⟨prefix_append _ _, .inr rfl, ?_⟩
    intro word hp hlen
    refine hany word hp ?_
    rintro rfl
    cases hlen
  show Decodes code replacement ([symbol] ++ rest) (replacement :: values) held
  refine .replaced ?_ ?_ hsub h
  · intro htext
    exact hany _ prefix_rfl (by simp) htext.fits
  · intro a ha
    exact hany _ ha (hne a) ⟨a, [], by simp⟩

end LossyDecoding
