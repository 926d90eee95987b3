import FesTerm.Document.Vi.Motions
import FesTerm.Document.Vi.Proofs.BufferProofs

/-!
# Scanning proofs

Word scanning is written once over an interface that both the text and the buffer view offer. The
text counts bytes and the buffer characters; `At` says when a position and a caret are the same
place, and every loop and every motion of the interface leads from the same place to the same place.
-/

namespace FesTerm.Document.Vi

open Checked Splicing List

/-- A position of the buffer view and the caret that stands there. -/
structure At (text : Text) (i caret : Nat) : Prop where
  le : i ≤ text.length
  eq : caret = offset text i

def Both (R : α → β → Prop) (a : Option α) (b : Option β) : Prop :=
  ∃ x y, a = some x ∧ b = some y ∧ R x y

variable {R : α → β → Prop}

theorem Both.some {x : α} {y : β} (h : R x y) : Both R (some x) (some y) :=
  ⟨x, y, rfl, rfl, h⟩

variable {b : Option β} {a : Option α}

theorem Both.bind {S : γ → δ → Prop} {f : α → Option γ} {g : β → Option δ} (h : Both R a b)
    (hrest : ∀ x y, R x y → Both S (f x) (g y)) : Both S (a >>= f) (b >>= g) := by
  obtain ⟨x, y, rfl, rfl, hxy⟩ := h
  exact hrest x y hxy

theorem Both.mono {S : α → β → Prop} (h : Both R a b) (hrs : ∀ x y, R x y → S x y) : Both S a b := by
  obtain ⟨x, y, rfl, rfl, hxy⟩ := h
  exact ⟨x, y, rfl, rfl, hrs x y hxy⟩

/-! ## Loops -/

variable {advance : Nat → Option Nat} {position : Nat}

theorem loop_stays {goesOn : Nat → Option Bool} (h : goesOn position = some false) (moves : Nat) :
    loop goesOn advance moves position = some position := by
  cases moves with
  | zero => rfl
  | succ moves => simp [loop, h]

theorem loop_moves {goesOn : Nat → Option Bool} {next : Nat}
    (h : goesOn position = some true) (hadvance : advance position = some next) (moves : Nat) :
    loop goesOn advance (moves + 1) position = loop goesOn advance moves next := by
  simp [loop, h, hadvance]

/-- Related loops end related, if what is left of the first falls with every move and both may make
that many moves. -/
theorem both_loop {R : Nat → Nat → Prop} {goesOn goesOn' : Nat → Option Bool}
    {advance' : Nat → Option Nat} (left : Nat → Nat)
    (hgoes : ∀ i c, R i c → Both Eq (goesOn i) (goesOn' c))
    (hadvance : ∀ i c, R i c → goesOn i = some true →
      Both (fun j c' => R j c' ∧ left j < left i) (advance i) (advance' c)) :
    ∀ moves moves' i c, R i c → left i ≤ moves → left i ≤ moves' →
      Both R (loop goesOn advance moves i) (loop goesOn' advance' moves' c) := by
  -- with nothing left neither loop goes on, whatever moves it has
  have hstop : ∀ i c, R i c → left i = 0 → goesOn i = some false ∧ goesOn' c = some false := by
    intro i c hic hzero
    obtain ⟨b, b', hb, hb', rfl⟩ := hgoes i c hic
    cases b with
    | false => exact ⟨hb, hb'⟩
    | true =>
      obtain ⟨_, _, -, -, -, hlt⟩ := hadvance i c hic hb
      omega
  intro moves
  induction moves with
  | zero =>
    intro moves' i c hic hm hm'
    obtain ⟨-, hfalse⟩ := hstop i c hic (by omega)
    rw [loop_stays hfalse]
    exact .some hic
  | succ moves ih =>
    intro moves' i c hic hm hm'
    cases moves' with
    | zero =>
      obtain ⟨hfalse, -⟩ := hstop i c hic (by omega)
      rw [loop_stays hfalse]
      exact .some hic
    | succ moves' =>
      obtain ⟨b, b', hb, hb', rfl⟩ := hgoes i c hic
      cases b with
      | false =>
        rw [loop_stays hb, loop_stays hb']
        exact .some hic
      | true =>
        obtain ⟨j, c', hj, hc', hR, hlt⟩ := hadvance i c hic hb
        rw [loop_moves hb hj, loop_moves hb' hc']
        exact ih moves' j c' hR (by omega) (by omega)

/-! ## The text at an offset -/

section Text

variable {text : Text} {i caret : Nat} (h : At text i caret)

include h

theorem At.cutText_eq : cutText text caret = some (text.take i, text.drop i) := by
  have hcut := cut_append Char.utf8Size_pos (text.take i) (text.drop i)
  rw [take_append_drop] at hcut
  rw [h.eq]
  exact hcut

theorem At.sliceFrom_eq : sliceFrom text caret = some (text.drop i) := by
  rw [sliceFrom, h.cutText_eq]
  rfl

theorem At.textCharacter_eq : textCharacter text caret = some text[i]? := by
  rw [textCharacter, h.sliceFrom_eq, Option.map_some, head?_drop]

theorem At.lt_iff : caret < utf8Len text ↔ i < text.length := by
  rw [h.eq, ← offset_length]
  exact offset_lt_iff h.le le_rfl

theorem At.pos_iff : 0 < caret ↔ 0 < i := by
  rw [h.eq, ← offset_zero text]
  exact offset_lt_iff (Nat.zero_le _) h.le

theorem At.next : Both (At text) (some (min (i + 1) text.length)) (textNext text caret) := by
  refine ⟨_, offset text (min (i + 1) text.length), rfl, ?_, by omega, rfl⟩
  unfold textNext
  rw [h.textCharacter_eq]
  rcases Nat.lt_or_ge i text.length with hlt | hge
  · have hget := getElem?_eq_getElem hlt
    rw [Nat.min_eq_left hlt, offset_succ hget, hget, h.eq]
    rfl
  · rw [getElem?_eq_none hge, Nat.min_eq_right (by omega), offset_length]
    rfl

theorem At.previous : Both (At text) (some (i - 1)) (textPrevious text caret) := by
  refine ⟨_, offset text (i - 1), rfl, ?_, by have := h.le; omega, rfl⟩
  have hlen : (text.take i).length = i := by rw [length_take, Nat.min_eq_left h.le]
  unfold textPrevious
  rw [h.cutText_eq]
  simp only [some_bind, Option.pure_def]
  rw [dropLast_eq_take, hlen, take_take, Nat.min_eq_left (by omega), offset]

end Text

theorem at_position {text : Text} {i : Nat} (hi : i ≤ text.length) : At text i (offset text i) :=
  ⟨hi, rfl⟩

theorem at_stop (text : Text) : At text text.length (utf8Len text) :=
  ⟨le_rfl, (offset_length text).symm⟩

theorem At.left_le {text : Text} {i caret : Nat} (h : At text i caret) :
    text.length - i ≤ utf8Len text - caret := by
  have hrest := length_le_utf8Len (text.drop i)
  have hsplit := utf8Len_append (text.take i) (text.drop i)
  rw [take_append_drop] at hsplit
  rw [length_drop] at hrest
  rw [h.eq, offset]
  omega

theorem At.le_caret {text : Text} {i caret : Nat} (h : At text i caret) : i ≤ caret := by
  induction i generalizing caret with
  | zero => exact Nat.zero_le _
  | succ i ih =>
    have hle := h.le
    have hprev := ih (at_position (show i ≤ text.length by omega))
    have hlt := offset_lt_succ (show i < text.length by omega)
    rw [h.eq]
    omega

/-! ## Word scanning -/

section Words

variable [Unicode] {text : Text} {i caret : Nat}

theorem At.classAt (h : At text i caret) (hlt : i < text.length) :
    Both Eq ((Buffer.new text).motionText.classAt i) ((textMotion text).classAt caret) := by
  have hget := getElem?_eq_getElem hlt
  have hbuf : (Buffer.new text).motionText.character i = some (some text[i]) := congrArg some hget
  have htext : (textMotion text).character caret = some (some text[i]) :=
    h.textCharacter_eq.trans (congrArg some hget)
  refine ⟨charClass text[i], _, ?_, ?_, rfl⟩
  · simp [MotionText.classAt, hbuf]
  · simp [MotionText.classAt, htext]

theorem At.goesOn (h : At text i caret) (p : Class → Bool) : Both Eq
      (if i < (Buffer.new text).motionText.stop then
        (do return p (← (Buffer.new text).motionText.classAt i)) else some false)
      (if caret < (textMotion text).stop then
        (do return p (← (textMotion text).classAt caret)) else some false) := by
  change Both Eq (if i < text.length then _ else _) (if caret < utf8Len text then _ else _)
  rcases Nat.lt_or_ge i text.length with hlt | hge
  · rw [if_pos hlt, if_pos (h.lt_iff.mpr hlt)]
    exact (h.classAt hlt).bind fun x y hxy => .some (congrArg p hxy)
  · rw [if_neg (by omega), if_neg (h.lt_iff.not.mpr (by omega))]
    exact .some rfl

omit [Unicode] in
theorem At.forward (h : At text i caret) (hlt : i < text.length) :
    Both (fun j c => At text j c ∧ text.length - j < text.length - i)
      ((Buffer.new text).motionText.next i) ((textMotion text).next caret) := by
  obtain ⟨j, c, hj, hc, hat⟩ := h.next
  refine ⟨j, c, hj, hc, hat, ?_⟩
  cases hj
  omega

theorem At.passWord (h : At text i caret) (big : Bool) (start : Class) :
    Both (At text) ((Buffer.new text).motionText.passWord big start i)
      ((textMotion text).passWord big start caret) := by
  refine both_loop (fun j => text.length - j) (fun j c hat => hat.goesOn _) ?_ _ _ i caret h
    le_rfl h.left_le
  intro j c hat hgoes
  refine hat.forward ?_
  by_contra hge
  simp [Buffer.motionText, Buffer.new, Buffer.nchars, hge] at hgoes

omit [Unicode] in
theorem At.onEmptyLine (h : At text i caret) :
    Both Eq ((Buffer.new text).motionText.onEmptyLine i) ((textMotion text).onEmptyLine caret) := by
  unfold MotionText.onEmptyLine
  have hbuf : ∀ j, (Buffer.new text).motionText.character j = some text[j]? := fun _ => rfl
  have htext : (textMotion text).character caret = some text[i]? := h.textCharacter_eq
  obtain ⟨j, c, hj, hc, hat⟩ := h.previous
  have hprevious : (Buffer.new text).motionText.previous i = some j := hj
  have hback : (textMotion text).previous caret = some c := hc
  have hchar : (textMotion text).character c = some text[j]? := hat.textCharacter_eq
  have hzero : caret = 0 ↔ i = 0 := by
    have := h.pos_iff
    omega
  simp only [hbuf, htext, hprevious, hback, hchar, some_bind, hzero]
  split
  · split <;> exact .some rfl
  · exact .some rfl

theorem At.passBlanks (h : At text i caret) : Both (At text) ((Buffer.new text).motionText.passBlanks i)
      ((textMotion text).passBlanks caret) := by
  refine both_loop (fun j => text.length - j) (fun j c hat => ?_) ?_ _ _ i caret h le_rfl
    h.left_le
  · change Both Eq (if j < text.length then _ else _) (if c < utf8Len text then _ else _)
    rcases Nat.lt_or_ge j text.length with hlt | hge
    · rw [if_pos hlt, if_pos (hat.lt_iff.mpr hlt)]
      refine (hat.classAt hlt).bind ?_
      rintro x _ rfl
      by_cases hx : x = .blank
      · rw [if_pos hx, if_pos hx]
        exact hat.onEmptyLine.bind fun b b' hb => .some (congrArg not hb)
      · rw [if_neg hx, if_neg hx]
        exact .some rfl
    · rw [if_neg (by omega), if_neg (hat.lt_iff.not.mpr (by omega))]
      exact .some rfl
  · intro j c hat hgoes
    refine hat.forward ?_
    by_contra hge
    simp [Buffer.motionText, Buffer.new, Buffer.nchars, hge] at hgoes

theorem At.wordForwardOnce (h : At text i caret) (hlt : i < text.length) (big : Bool) :
    Both (At text) ((Buffer.new text).motionText.wordForwardOnce big i)
      ((textMotion text).wordForwardOnce big caret) := by
  refine (h.classAt hlt).bind ?_
  rintro start _ rfl
  dsimp only
  split
  · exact (h.passWord big start).bind fun j c hat => hat.passBlanks
  · exact h.passBlanks

variable (big : Bool)

theorem At.wordForward : ∀ (count : Nat) {i caret : Nat}, At text i caret →
    Both (At text) ((Buffer.new text).motionText.wordForward big count i)
      ((textMotion text).wordForward big count caret) := by
  intro count
  induction count with
  | zero =>
    intro i caret h
    have hmin : min caret (utf8Len text) = caret := by
      rw [h.eq, ← offset_length text]
      exact Nat.min_eq_left (offset_mono h.le)
    refine ⟨_, _, congrArg some (Nat.min_eq_left h.le), congrArg some hmin, h⟩
  | succ count ih =>
    intro i caret h
    unfold MotionText.wordForward
    rcases Nat.lt_or_ge i text.length with hlt | hge
    · have hcaret := h.lt_iff.mpr hlt
      have hbuf : ¬ i ≥ (Buffer.new text).motionText.stop := Nat.not_le.mpr hlt
      have htext : ¬ caret ≥ (textMotion text).stop := Nat.not_le.mpr hcaret
      rw [if_neg hbuf, if_neg htext]
      refine (h.wordForwardOnce hlt big).bind fun j c hat => ?_
      have hsame : j = i ↔ c = caret := by
        rw [hat.eq, h.eq]
        exact ⟨fun e => by rw [e], offset_inj hat.le h.le⟩
      by_cases hji : j = i
      · rw [if_pos hji, if_pos (hsame.mp hji)]
        have hmin : min c (utf8Len text) = c := by
          rw [hat.eq, ← offset_length text]
          exact Nat.min_eq_left (offset_mono hat.le)
        exact ⟨_, _, congrArg some (Nat.min_eq_left hat.le), congrArg some hmin, hat⟩
      · rw [if_neg hji, if_neg (hsame.not.mp hji)]
        exact ih hat
    · have hcaret : ¬ caret < utf8Len text := h.lt_iff.not.mpr (by omega)
      have htext : caret ≥ (textMotion text).stop := Nat.le_of_not_lt hcaret
      rw [if_pos (show i ≥ (Buffer.new text).motionText.stop from hge), if_pos htext]
      exact .some (at_stop text)

theorem At.passToEnd (h : At text i caret) (big : Bool) (start : Class) :
    Both (At text) ((Buffer.new text).motionText.passToEnd big start i)
      ((textMotion text).passToEnd big start caret) := by
  refine both_loop (fun j => text.length - j) (fun j c hat => ?_) ?_ _ _ i caret h le_rfl
    h.left_le
  · exact hat.next.bind fun k c' hnext => hnext.goesOn _
  · intro j c hat hgoes
    refine hat.forward ?_
    by_contra hge
    have hstop : ¬ j + 1 < text.length := by omega
    simp [Buffer.motionText, Buffer.new, Buffer.nchars, hstop] at hgoes

theorem At.skipBlanks (h : At text i caret) : Both (At text) ((Buffer.new text).motionText.skipBlanks i)
      ((textMotion text).skipBlanks caret) := by
  refine both_loop (fun j => text.length - j) (fun j c hat => hat.goesOn _) ?_ _ _ i caret h
    le_rfl h.left_le
  intro j c hat hgoes
  refine hat.forward ?_
  by_contra hge
  simp [Buffer.motionText, Buffer.new, Buffer.nchars, hge] at hgoes

theorem At.wordEndOnce (h : At text i caret) (big : Bool) :
    Both (Option.Rel (At text)) ((Buffer.new text).motionText.wordEndOnce big i)
      ((textMotion text).wordEndOnce big caret) := by
  refine h.next.bind fun j c hat => ?_
  rcases Nat.lt_or_ge j text.length with hlt | hge
  · have htext : ¬ c ≥ utf8Len text := Nat.not_le.mpr (hat.lt_iff.mpr hlt)
    rw [if_neg (show ¬ j ≥ (Buffer.new text).motionText.stop from Nat.not_le.mpr hlt),
      if_neg (show ¬ c ≥ (textMotion text).stop from htext)]
    refine hat.skipBlanks.bind fun k c' hat' => ?_
    rcases Nat.lt_or_ge k text.length with hlt' | hge'
    · have htext' : ¬ c' ≥ utf8Len text := Nat.not_le.mpr (hat'.lt_iff.mpr hlt')
      rw [if_neg (show ¬ k ≥ (Buffer.new text).motionText.stop from Nat.not_le.mpr hlt'),
        if_neg (show ¬ c' ≥ (textMotion text).stop from htext')]
      refine (hat'.classAt hlt').bind ?_
      rintro start _ rfl
      exact (hat'.passToEnd big start).bind fun m c'' hend => .some (.some hend)
    · have htext' : c' ≥ utf8Len text := Nat.le_of_not_lt (hat'.lt_iff.not.mpr (by omega))
      rw [if_pos (show k ≥ (Buffer.new text).motionText.stop from hge'),
        if_pos (show c' ≥ (textMotion text).stop from htext')]
      exact .some .none
  · have htext : c ≥ utf8Len text := Nat.le_of_not_lt (hat.lt_iff.not.mpr (by omega))
    rw [if_pos (show j ≥ (Buffer.new text).motionText.stop from hge),
      if_pos (show c ≥ (textMotion text).stop from htext)]
    exact .some .none

theorem At.wordEnd : ∀ (count : Nat) {i caret : Nat}, At text i caret →
    Both (At text) ((Buffer.new text).motionText.wordEnd big count i)
      ((textMotion text).wordEnd big count caret) := by
  intro count
  induction count with
  | zero =>
    intro i caret h
    refine (at_stop text).previous.bind fun j c hat => ⟨_, _, rfl, rfl, ?_, ?_⟩
    · have := h.le
      omega
    · rw [h.eq, hat.eq]
      rcases Nat.le_total i j with hij | hji
      · rw [Nat.min_eq_left hij, Nat.min_eq_left (offset_mono hij)]
      · rw [Nat.min_eq_right hji, Nat.min_eq_right (offset_mono hji)]
  | succ count ih =>
    intro i caret h
    refine (h.wordEndOnce big).bind ?_
    rintro _ _ (hat | -)
    · exact ih hat
    · exact (at_stop text).previous

omit [Unicode] in
theorem At.backward (h : At text i caret) (hpos : 0 < i) :
    Both (fun j c => (At text j c ∧ j < text.length) ∧ j < i)
      ((Buffer.new text).motionText.previous i) ((textMotion text).previous caret) := by
  obtain ⟨j, c, hj, hc, hat⟩ := h.previous
  refine ⟨j, c, hj, hc, ⟨hat, ?_⟩, ?_⟩ <;>
  · cases hj
    have := h.le
    omega

theorem At.skipBlanksBack (h : At text i caret) (hlt : i < text.length) :
    Both (fun j c => At text j c ∧ j < text.length) ((Buffer.new text).motionText.skipBlanksBack i)
      ((textMotion text).skipBlanksBack caret) := by
  refine both_loop (fun j => j) (fun j c hat => ?_) ?_ _ _ i caret ⟨h, hlt⟩ le_rfl h.le_caret
  · by_cases hj : j > 0
    · rw [if_pos hj, if_pos (hat.1.pos_iff.mpr hj)]
      exact (hat.1.classAt hat.2).bind fun x y hxy => .some (by rw [hxy])
    · rw [if_neg hj, if_neg (hat.1.pos_iff.not.mpr hj)]
      exact .some rfl
  · intro j c hat hgoes
    refine hat.1.backward ?_
    by_contra hzero
    simp [hzero] at hgoes

theorem At.passToStart (h : At text i caret) (hlt : i < text.length) (big : Bool) (start : Class) :
    Both (At text) ((Buffer.new text).motionText.passToStart big start i)
      ((textMotion text).passToStart big start caret) := by
  have hloop : Both (fun j c => At text j c ∧ j < text.length)
      ((Buffer.new text).motionText.passToStart big start i)
      ((textMotion text).passToStart big start caret) := by
    refine both_loop (fun j => j) (fun j c hat => ?_) ?_ _ _ i caret ⟨h, hlt⟩ le_rfl h.le_caret
    · by_cases hj : j > 0
      · rw [if_pos hj, if_pos (hat.1.pos_iff.mpr hj)]
        refine (hat.1.backward hj).bind fun k c' hback => ?_
        exact (hback.1.1.classAt hback.1.2).bind fun x y hxy => .some (by rw [hxy])
      · rw [if_neg hj, if_neg (hat.1.pos_iff.not.mpr hj)]
        exact .some rfl
    · intro j c hat hgoes
      refine hat.1.backward ?_
      by_contra hzero
      simp [hzero] at hgoes
  exact hloop.mono fun j c hat => hat.1

theorem At.wordBackOnce (h : At text i caret) (big : Bool) :
    Both (Option.Rel (At text)) ((Buffer.new text).motionText.wordBackOnce big i)
      ((textMotion text).wordBackOnce big caret) := by
  unfold MotionText.wordBackOnce
  rcases Nat.eq_zero_or_pos i with hzero | hpos
  · have hcaret : caret = 0 := by
      have := h.pos_iff
      omega
    rw [if_pos hzero, if_pos hcaret]
    exact .some .none
  · have hcaret : ¬ caret = 0 := by
      have := h.pos_iff
      omega
    rw [if_neg (by omega), if_neg hcaret]
    refine (h.backward hpos).bind fun j c hback => ?_
    refine (hback.1.1.skipBlanksBack hback.1.2).bind fun k c' hat => ?_
    refine (hat.1.classAt hat.2).bind ?_
    rintro start _ rfl
    by_cases hblank : start = .blank
    · rw [if_pos hblank, if_pos hblank]
      exact .some .none
    · rw [if_neg hblank, if_neg hblank]
      exact (hat.1.passToStart hat.2 big start).bind fun m c'' hend => .some (.some hend)

theorem At.wordBack : ∀ (count : Nat) {i caret : Nat}, At text i caret →
    Both (At text) ((Buffer.new text).motionText.wordBack big count i)
      ((textMotion text).wordBack big count caret) := by
  intro count
  induction count with
  | zero => exact fun h => .some h
  | succ count ih =>
    intro i caret h
    refine (h.wordBackOnce big).bind ?_
    rintro _ _ (hat | -)
    · exact ih hat
    · exact .some (at_position (Nat.zero_le _))

end Words

end FesTerm.Document.Vi
