import Mathlib

/-!
# Checked machine operations

Unsigned subtraction, element access and slices of a program that stops on underflow and on an index
out of bounds. Each operation returns `none` exactly where the program would stop, so a computation
written in the `Option` monad returns `some` precisely when none of its steps fails.

`splice` is the pure update behind every write: it replaces the elements from a position on by a
given list.
-/

namespace Checked

open List

variable {α β σ : Type}

/-- `a - b` on unsigned integers. -/
def sub (a b : Nat) : Option Nat := if b ≤ a then some (a - b) else none

/-- The list `l` with the elements from `a` on replaced by `xs`. -/
def splice (l : List α) (a : Nat) (xs : List α) : List α :=
  l.take a ++ xs ++ l.drop (a + xs.length)

/-- Write `xs` over `l[a..a + xs.len()]`. -/
def writeAt (l : List α) (a : Nat) (xs : List α) : Option (List α) :=
  if a + xs.length ≤ l.length then some (splice l a xs) else none

/-- `l[i] = x`. -/
def setAt (l : List α) (i : Nat) (x : α) : Option (List α) := writeAt l i [x]

/-- The slice `&l[a..b]`. -/
def slice (l : List α) (a b : Nat) : Option (List α) :=
  if a ≤ b ∧ b ≤ l.length then some ((l.drop a).take (b - a)) else none

/-- `l[a..b].fill(x)`. -/
def fillRange (l : List α) (a b : Nat) (x : α) : Option (List α) :=
  if a ≤ b then writeAt l a (List.replicate (b - a) x) else none

/-- `for i in lo..hi`, threading a state through a body that can fail. -/
def forRange (lo hi : Nat) (s : σ) (body : σ → Nat → Option σ) : Option σ :=
  (List.range' lo (hi - lo)).foldlM body s

/-- `for i in (lo..hi).rev()`. -/
def forRangeRev (lo hi : Nat) (s : σ) (body : σ → Nat → Option σ) : Option σ :=
  (List.range' lo (hi - lo)).reverse.foldlM body s

/-- Every step of a loop over a list meets a condition on the state before it. -/
def holdsAlong (f : σ → α → Option σ) (ok : σ → α → Bool) : σ → List α → Bool
  | _, [] => true
  | s, a :: l => ok s a && (f s a).all fun s' => holdsAlong f ok s' l

theorem some_bind (a : α) (f : α → Option β) : (some a >>= f) = f a := rfl

abbrev Yields (x : Option α) (Q : α → Prop) : Prop := ∃ a, x = some a ∧ Q a

variable {Q : α → Prop} {x : Option α} {a b lo hi : Nat} {l xs l' : List α} {f : σ → α → Option σ} {s : σ}
  {body : σ → Nat → Option σ} {I : σ → Prop}

theorem Yields.some {a : α} (h : Q a) : Yields (some a) Q := ⟨a, rfl, h⟩

variable {R : β → Prop}

theorem Yields.bind {f : α → Option β} (h : Yields x Q)
    (hf : ∀ a, Q a → Yields (f a) R) : Yields (x >>= f) R := by
  obtain ⟨a, rfl, hq⟩ := h
  exact hf a hq

theorem Yields.mono {R : α → Prop} (h : Yields x Q) (hqr : ∀ a, Q a → R a) : Yields x R := by
  obtain ⟨a, hx, hq⟩ := h
  exact ⟨a, hx, hqr a hq⟩

abbrev Ensures (x : Option α) (Q : α → Prop) : Prop := ∀ a, x = some a → Q a

theorem Ensures.some {a : α} (h : Q a) : Ensures (some a) Q := by
  rintro _ ⟨⟩
  exact h

theorem Ensures.none : Ensures none Q := by
  rintro _ ⟨⟩

theorem Ensures.bind {f : α → Option β}
    (hf : ∀ a, x = Option.some a → Ensures (f a) R) : Ensures (x >>= f) R := by
  intro b hb
  obtain ⟨a, ha, hfa⟩ := Option.bind_eq_some_iff.mp hb
  exact hf a ha b hfa

theorem Ensures.mono {R : α → Prop} (h : Ensures x Q) (hqr : ∀ a, Q a → R a) : Ensures x R := fun a ha => hqr a (h a ha)

theorem Ensures.ite {c : Prop} [Decidable c] {y : Option α} (hx : c → Ensures x Q)
    (hy : ¬ c → Ensures y Q) : Ensures (if c then x else y) Q := by
  by_cases hc : c
  · rw [if_pos hc]
    exact hx hc
  · rw [if_neg hc]
    exact hy hc

theorem sub_eq (h : b ≤ a) : sub a b = some (a - b) := by simp [sub, h]

theorem sub_eq_some {c : Nat} : sub a b = some c ↔ b ≤ a ∧ a - b = c := by
  unfold sub
  split
  · simp [*]
  · simp only [reduceCtorEq, false_iff, not_and]; omega

theorem length_splice (h : a + xs.length ≤ l.length) : (splice l a xs).length = l.length := by
  simp only [splice, length_append, length_take, length_drop]; omega

theorem getElem?_splice (h : a + xs.length ≤ l.length) (i : Nat) :
    (splice l a xs)[i]? = if a ≤ i ∧ i < a + xs.length then xs[i - a]? else l[i]? := by
  have hta : (l.take a).length = a := by simp only [length_take]; omega
  unfold splice
  rw [append_assoc, getElem?_append, hta]
  by_cases h1 : i < a
  · rw [if_pos h1, if_neg (by omega), getElem?_take_of_lt h1]
  · rw [if_neg h1, getElem?_append]
    by_cases h2 : i - a < xs.length
    · rw [if_pos h2, if_pos (by omega)]
    · rw [if_neg h2, if_neg (by omega), getElem?_drop]
      congr 1; omega

theorem writeAt_eq (h : a + xs.length ≤ l.length) : writeAt l a xs = some (splice l a xs) := by simp [writeAt, h]

variable {i : Nat}

theorem setAt_eq (h : i < l.length) (x : α) : setAt l i x = some (splice l i [x]) :=
  writeAt_eq (by simp only [length_singleton]; omega)

theorem getElem?_splice_singleton (h : i < l.length) (x : α) (j : Nat) :
    (splice l i [x])[j]? = if j = i then some x else l[j]? := by
  rw [getElem?_splice (by simp only [length_singleton]; omega)]
  by_cases hj : j = i
  · subst hj; simp
  · rw [if_neg (by simp only [length_singleton]; omega), if_neg hj]

theorem take_splice_succ {n : Nat} (h : n < l.length) (x : α) :
    (splice l n [x]).take (n + 1) = l.take n ++ [x] := by
  refine take_left' ?_
  simp only [length_append, length_take, length_singleton]
  omega

theorem splice_singleton (h : i < l.length) (x : α) : splice l i [x] = l.set i x := by
  apply ext_getElem?
  intro j
  rw [getElem?_splice_singleton h, getElem?_set]
  by_cases hj : j = i
  · subst hj; simp [h]
  · simp [hj, Ne.symm hj]

theorem fillRange_eq (hab : a ≤ b) (hb : b ≤ l.length) (x : α) :
    fillRange l a b x = some (splice l a (List.replicate (b - a) x)) := by
  unfold fillRange
  rw [if_pos hab, writeAt_eq (by simp only [length_replicate]; omega)]

theorem length_of_writeAt (h : writeAt l a xs = some l') : l'.length = l.length := by
  unfold writeAt at h
  split at h
  · next hle => rw [← Option.some.inj h, length_splice hle]
  · cases h

theorem length_of_fillRange {x : α} (h : fillRange l a b x = some l') : l'.length = l.length := by
  unfold fillRange at h
  split at h
  · exact length_of_writeAt h
  · cases h

theorem getElem?_of_writeAt (h : writeAt l a xs = some l') : a + xs.length ≤ l.length ∧
      ∀ i, l'[i]? = if a ≤ i ∧ i < a + xs.length then xs[i - a]? else l[i]? := by
  unfold writeAt at h
  split at h
  · next hle => exact ⟨hle, fun i => by rw [← Option.some.inj h, getElem?_splice hle]⟩
  · cases h

theorem getElem?_of_setAt {x : α} (h : setAt l i x = some l') :
    i < l.length ∧ ∀ j, l'[j]? = if j = i then some x else l[j]? := by
  have hi : i < l.length := (getElem?_of_writeAt h).1
  rw [setAt_eq hi] at h
  exact ⟨hi, fun j => by rw [← Option.some.inj h, getElem?_splice_singleton hi]⟩

theorem getElem?_of_fillRange {x : α} (h : fillRange l a b x = some l') :
    a ≤ b ∧ b ≤ l.length ∧ ∀ i, l'[i]? = if a ≤ i ∧ i < b then some x else l[i]? := by
  unfold fillRange at h
  split at h
  · next hab =>
    obtain ⟨hle, hget⟩ := getElem?_of_writeAt h
    rw [length_replicate] at hle hget
    refine ⟨hab, by omega, fun i => ?_⟩
    rw [hget i, show a + (b - a) = b by omega]
    by_cases hi : a ≤ i ∧ i < b
    · rw [if_pos hi, if_pos hi, getElem?_replicate_of_lt (by omega)]
    · rw [if_neg hi, if_neg hi]
  · cases h

theorem slice_eq (hab : a ≤ b) (hb : b ≤ l.length) :
    slice l a b = some ((l.drop a).take (b - a)) := by
  simp [slice, hab, hb]

theorem foldlM_inv (I : Nat → σ → Prop) (k : Nat) (h0 : I k s)
    (hstep : ∀ i s a, l[i]? = some a → I (k + i) s → ∃ s', f s a = some s' ∧ I (k + i + 1) s') :
    ∃ s', l.foldlM f s = some s' ∧ I (k + l.length) s' := by
  induction l generalizing s k with
  | nil => exact ⟨s, rfl, h0⟩
  | cons a l ih =>
    obtain ⟨s1, hs1, h1⟩ := hstep 0 s a rfl h0
    obtain ⟨s2, hs2, h2⟩ := ih (k + 1) h1 (fun i s b hb hI => by
      have := hstep (i + 1) s b (by simpa using hb)
      rw [show k + (i + 1) = k + 1 + i by omega] at this
      exact this hI)
    refine ⟨s2, ?_, ?_⟩
    · simp [foldlM_cons, hs1, hs2]
    · rw [length_cons, show k + (l.length + 1) = k + 1 + l.length by omega]; exact h2

theorem forRange_inv (I : Nat → σ → Prop) (hle : lo ≤ hi) (h0 : I lo s)
    (hstep : ∀ i s, lo ≤ i → i < hi → I i s → ∃ s', body s i = some s' ∧ I (i + 1) s') :
    ∃ s', forRange lo hi s body = some s' ∧ I hi s' := by
  unfold forRange
  obtain ⟨s', hs', hI⟩ := foldlM_inv (l := List.range' lo (hi - lo)) (f := body) I lo h0 (by
    intro i s a ha hI
    obtain ⟨hi', hia⟩ := List.getElem?_eq_some_iff.mp ha
    simp only [length_range'] at hi'
    simp only [getElem_range', Nat.one_mul] at hia
    subst hia
    exact hstep (lo + i) s (by omega) (by omega) hI)
  refine ⟨s', hs', ?_⟩
  rw [length_range', show lo + (hi - lo) = hi by omega] at hI
  exact hI

theorem foldlM_yields (h0 : I s) (hstep : ∀ s, ∀ a ∈ l, I s → Yields (f s a) I) : Yields (l.foldlM f s) I :=
  foldlM_inv (fun _ s => I s) 0 h0 fun _ s a ha hI => hstep s a (mem_of_getElem? ha) hI

theorem forRange_yields (h0 : I s)
    (hstep : ∀ s i, lo ≤ i → i < hi → I s → Yields (body s i) I) : Yields (forRange lo hi s body) I := by
  by_cases hle : lo ≤ hi
  · exact forRange_inv (fun _ s => I s) hle h0 fun i s hlo hhi hi => hstep s i hlo hhi hi
  · refine ⟨s, ?_, h0⟩
    rw [forRange, show hi - lo = 0 by omega]
    rfl

theorem foldlM_ensures (h0 : I s)
    (hstep : ∀ s, ∀ a ∈ l, I s → Ensures (f s a) I) : Ensures (l.foldlM f s) I := by
  induction l generalizing s with
  | nil => exact .some h0
  | cons a l ih =>
    rw [foldlM_cons]
    refine .bind fun s' hs' => ?_
    exact ih (hstep s a mem_cons_self h0 s' hs') fun s b hb => hstep s b (mem_cons_of_mem a hb)

theorem forRange_ensures (h0 : I s) (hstep : ∀ s i, lo ≤ i → i < hi → I s → Ensures (body s i) I) :
    Ensures (forRange lo hi s body) I := by
  refine foldlM_ensures h0 fun s i hi hs => ?_
  rw [mem_range'_1] at hi
  exact hstep s i hi.1 (by omega) hs

theorem forRangeRev_ensures (h0 : I s) (hstep : ∀ s i, lo ≤ i → i < hi → I s → Ensures (body s i) I) :
    Ensures (forRangeRev lo hi s body) I := by
  refine foldlM_ensures h0 fun s i hi hs => ?_
  rw [mem_reverse, mem_range'_1] at hi
  exact hstep s i hi.1 (by omega) hs

theorem forRangeRev_inv (I : Nat → σ → Prop) (hle : lo ≤ hi) (h0 : I hi s)
    (hstep : ∀ i s, lo ≤ i → i < hi → I (i + 1) s → ∃ s', body s i = some s' ∧ I i s') :
    ∃ s', forRangeRev lo hi s body = some s' ∧ I lo s' := by
  unfold forRangeRev
  obtain ⟨s', hs', hI⟩ := foldlM_inv (l := (List.range' lo (hi - lo)).reverse) (f := body)
    (fun i s => I (hi - i) s) 0 (by simpa using h0) (by
    intro i s a ha hI
    obtain ⟨hi', hia⟩ := List.getElem?_eq_some_iff.mp ha
    simp only [length_reverse, length_range'] at hi'
    simp only [getElem_reverse, getElem_range', length_range', Nat.one_mul] at hia
    obtain ⟨s', hb, hI'⟩ := hstep a s (by omega) (by omega)
      (by rw [show a + 1 = hi - (0 + i) by omega]; exact hI)
    exact ⟨s', hb, by rw [show hi - (0 + i + 1) = a by omega]; exact hI'⟩)
  refine ⟨s', hs', ?_⟩
  simp only [length_reverse, length_range'] at hI
  rw [show hi - (0 + (hi - lo)) = lo by omega] at hI
  exact hI

variable {ok : σ → α → Bool}

theorem holdsAlong_of_all (h : ∀ s a, ok s a = true) : holdsAlong f ok s l = true := by
  induction l generalizing s with
  | nil => rfl
  | cons a l ih =>
    rw [holdsAlong, h s a, Bool.true_and]
    exact (Option.all_eq_true _ _).mpr fun s' _ => ih

theorem foldlM_along (I : σ → Prop) (h0 : I s) (hok : holdsAlong f ok s l = true)
    (hstep : ∀ s a, I s → ok s a = true → ∃ s', f s a = some s' ∧ I s') :
    ∃ s', l.foldlM f s = some s' ∧ I s' := by
  induction l generalizing s with
  | nil => exact ⟨s, rfl, h0⟩
  | cons a l ih =>
    rw [holdsAlong, Bool.and_eq_true] at hok
    obtain ⟨s1, hs1, h1⟩ := hstep s a h0 hok.1
    obtain ⟨s2, hs2, h2⟩ := ih h1 (by simpa [hs1] using hok.2)
    exact ⟨s2, by rw [foldlM_cons, hs1]; exact hs2, h2⟩

theorem mapM_eq_map {f : α → Option β} {g : α → β} (h : ∀ a ∈ l, f a = some (g a)) :
    l.mapM f = some (l.map g) := by
  induction l with
  | nil => rfl
  | cons a l ih =>
    rw [mapM_cons, h a (by simp), ih (fun b hb => h b (by simp [hb]))]
    rfl

end Checked
