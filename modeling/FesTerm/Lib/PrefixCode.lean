import Mathlib

/-!
# Reading a concatenation back

A formatted text is a concatenation of codes. `ReadsBack code` says that a code is recovered from the
front of any text that begins with it; formatted records are told apart field by field.

Two ways of writing a field have this property: a word closed by a symbol that none of its symbols
is (`word_reads_back`), and a sequence of codes closed by a symbol that no code begins with
(`ReadsBack.sequence`). Two fields joined by a separator that may occur in the fields do not have
it; `joined_eq_iff` says exactly which pairs of fields give the same joined text.
-/

namespace PrefixCode

open List

variable {α σ : Type}

def ReadsBack (code : α → List σ) : Prop :=
  ∀ a b rest rest', code a ++ rest = code b ++ rest' → a = b ∧ rest = rest'

/-- The code of `a` begins with a symbol other than `close`. -/
def Opens (code : α → List σ) (close : σ) : Prop :=
  ∀ a, ∃ head tail, code a = head :: tail ∧ head ≠ close

theorem ReadsBack.sequence {code : α → List σ} {close : σ} (h : ReadsBack code) (hopen : Opens code close) :
    ReadsBack fun word : List α => word.flatMap code ++ [close] := by
  intro word
  induction word with
  | nil =>
    intro other rest rest' heq
    cases other with
    | nil => simpa using heq
    | cons b other =>
      obtain ⟨head, tail, hcode, hne⟩ := hopen b
      simp only [flatMap_nil, flatMap_cons, hcode, nil_append, cons_append,
        List.cons.injEq] at heq
      exact absurd heq.1.symm hne
  | cons a word ih =>
    intro other rest rest' heq
    cases other with
    | nil =>
      obtain ⟨head, tail, hcode, hne⟩ := hopen a
      simp only [flatMap_nil, flatMap_cons, hcode, nil_append, cons_append,
        List.cons.injEq] at heq
      exact absurd heq.1 hne
    | cons b other =>
      simp only [flatMap_cons, append_assoc] at heq
      obtain ⟨rfl, htail⟩ := h a b _ _ heq
      obtain ⟨rfl, hrest⟩ := ih other rest rest' (by simpa using htail)
      exact ⟨rfl, hrest⟩

theorem word_reads_back {p : σ → Prop} : ∀ {word other : List σ} {c d : σ} {rest rest' : List σ},
      (∀ a ∈ word, p a) → (∀ a ∈ other, p a) → ¬ p c → ¬ p d →
      word ++ c :: rest = other ++ d :: rest' →
      word = other ∧ c :: rest = d :: rest' := by
  intro word
  induction word with
  | nil =>
    intro other c d rest rest' _ hother hc _ heq
    cases other with
    | nil => exact ⟨rfl, heq⟩
    | cons b other =>
      simp only [nil_append, cons_append, List.cons.injEq] at heq
      exact absurd (heq.1 ▸ hother b (by simp)) hc
  | cons a word ih =>
    intro other c d rest rest' hword hother hc hd heq
    cases other with
    | nil =>
      simp only [nil_append, cons_append, List.cons.injEq] at heq
      exact absurd (heq.1 ▸ hword a (by simp)) hd
    | cons b other =>
      simp only [cons_append, List.cons.injEq] at heq
      obtain ⟨rfl, htail⟩ := heq
      obtain ⟨rfl, hrest⟩ := ih (fun x hx => hword x (by simp [hx]))
        (fun x hx => hother x (by simp [hx])) hc hd htail
      exact ⟨rfl, hrest⟩

def Unbordered (sep : List σ) : Prop :=
  ∀ head border tail, sep = head ++ border → sep = border ++ tail → head = [] ∨ border = []

def Shifted (sep : List σ) (left right left' right' : List σ) : Prop :=
  ∃ mid, left' = left ++ sep ++ mid ∧ right = mid ++ sep ++ right'

theorem shifted_of_longer {sep left right right' extra : List σ} (hsep : Unbordered sep)
    (heq : sep ++ right = extra ++ (sep ++ right')) :
    (extra = [] ∧ right = right') ∨ Shifted sep left right (left ++ extra) right' := by
  rcases append_eq_append_iff.mp heq with ⟨mid, rfl, hright⟩ | ⟨border, hsplit, hborder⟩
  · right
    exact ⟨mid, by simp, by simpa using hright⟩
  · -- the two separators overlap in `border`, so one of the two parts is empty
    rcases append_eq_append_iff.mp hborder with ⟨tail, htail, hrest⟩ | ⟨tail, htail, hrest⟩
    · have hlen := congrArg List.length hsplit
      have hlen' := congrArg List.length htail
      simp only [length_append] at hlen hlen'
      have hextra : extra = [] := eq_nil_of_length_eq_zero (by omega)
      have hnil : tail = [] := eq_nil_of_length_eq_zero (by omega)
      subst hextra hnil
      left
      exact ⟨rfl, by simpa using hrest.symm⟩
    · rcases hsep extra border tail hsplit htail with rfl | rfl
      · left
        have hnil : tail = [] := by
          have hlen := congrArg List.length (hsplit.symm.trans htail)
          simp only [nil_append, length_append] at hlen
          exact eq_nil_of_length_eq_zero (by omega)
        subst hnil
        exact ⟨rfl, by simpa using hrest⟩
      · right
        simp only [append_nil] at hsplit
        subst hsplit
        exact ⟨[], by simp, by simpa using hborder.symm⟩

theorem joined_eq_iff {sep left right left' right' : List σ} (hsep : Unbordered sep) :
    left ++ sep ++ right = left' ++ sep ++ right' ↔
      (left = left' ∧ right = right') ∨ Shifted sep left right left' right' ∨
        Shifted sep left' right' left right := by
  constructor
  · intro heq
    rw [append_assoc, append_assoc] at heq
    rcases append_eq_append_iff.mp heq with ⟨extra, rfl, hrest⟩ | ⟨extra, rfl, hrest⟩
    · rcases shifted_of_longer hsep hrest with ⟨rfl, rfl⟩ | h
      · exact .inl ⟨by simp, rfl⟩
      · exact .inr (.inl h)
    · rcases shifted_of_longer hsep hrest with ⟨rfl, rfl⟩ | h
      · exact .inl ⟨by simp, rfl⟩
      · exact .inr (.inr h)
  · rintro (⟨rfl, rfl⟩ | ⟨mid, rfl, rfl⟩ | ⟨mid, rfl, rfl⟩) <;> simp

end PrefixCode
