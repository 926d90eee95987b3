import FesTerm.Document.Vi.Buffer
import FesTerm.Document.Proofs.TextProofs

/-!
# Buffer proofs

A position of the buffer is a number of characters and a caret a number of bytes; `offset` leads
from the one to the other. `LineAt` names a line of a text by what stands before and behind it, and
every query of the buffer about lines is one of the lengths of its pieces.
-/

namespace FesTerm.Document.Vi

open Checked Splicing List

/-! ## Machine words -/

theorem usize_eq [Build] {result : Nat} (h : result < 2 ^ 64) : usize result = some result := by
  rw [usize, if_pos h]

variable {result : Int}

theorem isize_eq [Build] (hlow : -2 ^ 63 ≤ result) (hhigh : result < 2 ^ 63) :
    isize result = some result := by
  rw [isize, if_pos ⟨hlow, hhigh⟩]

theorem isize_wraps [Build] (hlow : 2 ^ 63 ≤ result) (hhigh : result < 2 ^ 64) :
    isize result = if Build.overflowChecks then none else some (result - 2 ^ 64) := by
  have hback : Int.bmod (result - 2 ^ 64) (2 ^ 64) = result - 2 ^ 64 := by
    refine Int.bmod_eq_of_le ?_ ?_ <;>
    · norm_num
      omega
  have hsame := Int.sub_bmod_right result (2 ^ 64)
  rw [isize, if_neg (by omega)]
  norm_num at hback hsame ⊢
  rw [← hsame, hback]

theorem asIsize_eq {n : Nat} (h : n < 2 ^ 63) : asIsize n = n := by
  have hlow : (0 : Int) ≤ n := Int.natCast_nonneg n
  have hhigh : (n : Int) < 2 ^ 63 := by exact_mod_cast h
  refine Int.bmod_eq_of_le ?_ ?_
  · norm_num
  · norm_num
    omega

/-! ## Offsets -/

def offset (text : Text) (i : Nat) : Nat := utf8Len (text.take i)

variable (front back : Text)

theorem offset_append : offset (front ++ back) front.length = utf8Len front := by
  rw [offset, take_left]

theorem offset_zero (text : Text) : offset text 0 = 0 := rfl

theorem offset_length (text : Text) : offset text text.length = utf8Len text := by
  rw [offset, take_length]

theorem length_le_utf8Len (text : Text) : text.length ≤ utf8Len text := by
  induction text with
  | nil => exact Nat.zero_le _
  | cons c text ih =>
    have := Char.utf8Size_pos c
    rw [length_cons, utf8Len_cons]
    omega

variable {text before body after : Text} {i line : Nat}

theorem split_at (hi : i ≤ text.length) : text = text.take i ++ text.drop i ∧ (text.take i).length = i := by
  refine ⟨(take_append_drop i text).symm, ?_⟩
  rw [length_take]
  omega

theorem offset_succ {c : Char} (h : text[i]? = some c) : offset text (i + 1) = offset text i + c.utf8Size := by
  rw [offset, offset, take_add_one, h, utf8Len_append]
  simp

theorem offset_lt_succ (h : i < text.length) : offset text i < offset text (i + 1) := by
  have hget := getElem?_eq_getElem h
  have hpos := Char.utf8Size_pos text[i]
  rw [offset_succ hget]
  omega

variable {j : Nat}

theorem offset_mono (hij : i ≤ j) : offset text i ≤ offset text j := by
  rw [offset, offset, ← Nat.min_eq_left hij, ← take_take]
  conv_rhs => rw [← take_append_drop i (text.take j), utf8Len_append]
  omega

theorem offset_lt_iff (hi : i ≤ text.length) (hj : j ≤ text.length) :
    offset text i < offset text j ↔ i < j := by
  constructor
  · intro h
    by_contra hle
    have : offset text j ≤ offset text i := offset_mono (by omega)
    omega
  · intro h
    have hnext := offset_lt_succ (show i < text.length by omega)
    have hrest : offset text (i + 1) ≤ offset text j := offset_mono h
    omega

theorem offset_inj (hi : i ≤ text.length) (hj : j ≤ text.length)
    (h : offset text i = offset text j) : i = j := by
  have hlt := offset_lt_iff hi hj
  have hgt := offset_lt_iff hj hi
  omega

theorem floorCharBoundary_offset (text : Text) (caret : Nat) :
    ∃ i ≤ text.length, floorCharBoundary text caret = offset text i := by
  obtain ⟨hboundary, -⟩ := floorCharBoundary_boundary text caret
  obtain ⟨front, back, rfl, hlen⟩ := isCharBoundary_iff.mp hboundary
  refine ⟨front.length, by simp, ?_⟩
  rw [← hlen, offset_append]

variable {ci : Nat}

namespace Buffer

variable (buf : Buffer)

theorem getElem?_startsOf (text : Text) : ∀ (byte i : Nat), i ≤ text.length →
    (startsOf byte text)[i]? = some (byte + offset text i) := by
  induction text with
  | nil =>
    intro byte i hi
    obtain rfl : i = 0 := Nat.le_zero.mp hi
    simp [startsOf, offset]
  | cons c rest ih =>
    intro byte i hi
    cases i with
    | zero => simp [startsOf, offset]
    | succ i =>
      rw [startsOf, getElem?_cons_succ, ih _ i (by simpa using hi)]
      simp only [offset, take_succ_cons, utf8Len_cons, Nat.add_assoc]

theorem byte_eq (ci : Nat) : buf.byte ci = offset buf.chars (min ci buf.chars.length) := by
  have hget := getElem?_startsOf buf.chars 0 (min ci buf.chars.length) (by omega)
  rw [Nat.zero_add, ← buf.starts] at hget
  exact Option.some.inj ((getElem?_eq_getElem _).symm.trans hget)

theorem byte_of_le (h : ci ≤ buf.chars.length) : buf.byte ci = offset buf.chars ci := by
  rw [byte_eq buf, Nat.min_eq_left h]

theorem findIdx?_startsOf : ∀ byte,
    (startsOf byte (front ++ back)).findIdx? (· == byte + utf8Len front) = some front.length := by
  induction front with
  | nil =>
    intro byte
    cases back <;> simp [startsOf, findIdx?_cons]
  | cons c front ih =>
    intro byte
    have hpos := Char.utf8Size_pos c
    have hne : (byte == byte + (c.utf8Size + utf8Len front)) = false := by
      rw [beq_eq_false_iff_ne]
      omega
    have hrest := ih (byte + c.utf8Size)
    rw [Nat.add_assoc] at hrest
    rw [cons_append, startsOf, utf8Len_cons, findIdx?_cons, hne, hrest]
    rfl

theorem ciOfByte_offset {i : Nat} (hi : i ≤ buf.chars.length) : buf.ciOfByte (offset buf.chars i) = i := by
  obtain ⟨hsplit, hlen⟩ := split_at hi
  have hfind := findIdx?_startsOf (buf.chars.take i) (buf.chars.drop i) 0
  rw [Nat.zero_add, ← hsplit, hlen, ← buf.starts] at hfind
  rw [ciOfByte, offset, hfind]

theorem slice_eq {start stop : Nat} (hle : start ≤ stop) (hstop : stop ≤ buf.chars.length) :
    buf.slice start stop = some ((buf.chars.drop start).take (stop - start)) := by
  rw [slice, nchars, Nat.min_eq_left (by omega), Nat.min_eq_left hstop]
  exact Checked.slice_eq hle hstop

theorem slice_append {front middle back : Text} (h : buf.chars = front ++ (middle ++ back)) :
    buf.slice front.length (front.length + middle.length) = some middle := by
  rw [slice_eq buf (by omega) (by rw [h]; simp only [length_append]; omega), h, drop_left,
    Nat.add_sub_cancel_left, take_left]

end Buffer

/-! ## Lines -/

/-- A line of a text: what is in front of it ends with a line feed, what is behind it begins with
one, and it has none itself. -/
structure LineAt (text : Text) (line : Nat) (before body after : Text) : Prop where
  text_eq : text = before ++ (body ++ after)
  count : before.count '\n' = line
  closed : before = [] ∨ ∃ init, before = init ++ ['\n']
  plain : '\n' ∉ body
  opens : after = [] ∨ ∃ rest, after = '\n' :: rest

theorem not_mem_takeWhile_lineFeed (text : Text) : '\n' ∉ text.takeWhile (· != '\n') := by
  intro hmem
  have := mem_takeWhile_imp hmem
  simp at this

theorem dropWhile_lineFeed (text : Text) :
    text.dropWhile (· != '\n') = [] ∨ ∃ rest, text.dropWhile (· != '\n') = '\n' :: rest := by
  induction text with
  | nil => exact .inl rfl
  | cons c rest ih =>
    rw [dropWhile_cons]
    by_cases hc : c = '\n'
    · subst hc
      exact .inr ⟨rest, rfl⟩
    · rw [if_pos (by simpa using hc)]
      exact ih

theorem lineAt_zero (text : Text) :
    LineAt text 0 [] (text.takeWhile (· != '\n')) (text.dropWhile (· != '\n')) := by
  refine ⟨?_, rfl, .inl rfl, not_mem_takeWhile_lineFeed text, dropWhile_lineFeed text⟩
  rw [nil_append, takeWhile_append_dropWhile]

theorem lineAt_around : ∃ before left right after, front = before ++ left ∧ back = right ++ after ∧
      LineAt (front ++ back) (front.count '\n') before (left ++ right) after := by
  have hfront : front = (front.reverse.dropWhile (· != '\n')).reverse ++
      (front.reverse.takeWhile (· != '\n')).reverse := by
    rw [← reverse_append, takeWhile_append_dropWhile, reverse_reverse]
  have hleft : '\n' ∉ (front.reverse.takeWhile (· != '\n')).reverse := by
    rw [mem_reverse]
    exact not_mem_takeWhile_lineFeed _
  have hclosed : (front.reverse.dropWhile (· != '\n')).reverse = [] ∨
      ∃ init, (front.reverse.dropWhile (· != '\n')).reverse = init ++ ['\n'] := by
    rcases dropWhile_lineFeed front.reverse with hnil | ⟨rest, hrest⟩
    · exact .inl (by rw [hnil]; rfl)
    · exact .inr ⟨rest.reverse, by rw [hrest, reverse_cons]⟩
  generalize (front.reverse.dropWhile (· != '\n')).reverse = before at hfront hclosed
  generalize (front.reverse.takeWhile (· != '\n')).reverse = left at hfront hleft
  refine ⟨before, left, back.takeWhile (· != '\n'), back.dropWhile (· != '\n'), hfront,
    (takeWhile_append_dropWhile).symm, ?_, ?_, hclosed, ?_, dropWhile_lineFeed back⟩
  · rw [hfront]
    simp only [append_assoc, takeWhile_append_dropWhile]
  · rw [hfront, count_append, count_eq_zero_of_not_mem hleft]
    rfl
  · intro hmem
    rcases mem_append.mp hmem with hmem | hmem
    · exact hleft hmem
    · exact not_mem_takeWhile_lineFeed back hmem

theorem exists_lineAt : ∀ {line : Nat}, line < text.count '\n' + 1 →
    ∃ before body after, LineAt text line before body after := by
  induction text with
  | nil =>
    intro line hline
    obtain rfl : line = 0 := by simpa using hline
    exact ⟨[], _, _, lineAt_zero []⟩
  | cons c rest ih =>
    intro line hline
    cases line with
    | zero => exact ⟨[], _, _, lineAt_zero (c :: rest)⟩
    | succ line =>
      by_cases hc : c = '\n'
      · subst hc
        rw [count_cons_self] at hline
        obtain ⟨before, body, after, h⟩ := ih (show line < rest.count '\n' + 1 by omega)
        refine ⟨'\n' :: before, body, after, congrArg _ h.text_eq, ?_, ?_, h.plain, h.opens⟩
        · rw [count_cons_self, h.count]
        · rcases h.closed with rfl | ⟨init, rfl⟩
          · exact .inr ⟨[], rfl⟩
          · exact .inr ⟨'\n' :: init, rfl⟩
      · rw [count_cons_of_ne hc] at hline
        obtain ⟨before, body, after, h⟩ := ih hline
        refine ⟨c :: before, body, after, congrArg _ h.text_eq, ?_, ?_, h.plain, h.opens⟩
        · rw [count_cons_of_ne hc, h.count]
        · rcases h.closed with rfl | ⟨init, rfl⟩
          · cases h.count
          · exact .inr ⟨c :: init, rfl⟩

theorem LineAt.next {rest : Text} (h : LineAt text line before body ('\n' :: rest)) :
    ∃ body' after', rest = body' ++ after' ∧
      LineAt text (line + 1) (before ++ (body ++ ['\n'])) body' after' := by
  refine ⟨_, _, (takeWhile_append_dropWhile).symm, ?_, ?_, ?_,
    not_mem_takeWhile_lineFeed rest, dropWhile_lineFeed rest⟩
  · rw [h.text_eq, takeWhile_append_dropWhile]
    simp
  · rw [count_append, count_append, h.count, count_eq_zero_of_not_mem h.plain]
    rfl
  · exact .inr ⟨before ++ body, by simp⟩

theorem LineAt.previous {init : Text} (h : LineAt text line (init ++ ['\n']) body after) :
    ∃ before' body', init = before' ++ body' ∧
      LineAt text (line - 1) before' body' ('\n' :: (body ++ after)) := by
  obtain ⟨before', left, right, after', hinit, hnil, hat⟩ := lineAt_around init []
  obtain ⟨rfl, rfl⟩ := append_eq_nil_iff.mp hnil.symm
  simp only [append_nil] at hat
  refine ⟨before', left, hinit, ?_, ?_, hat.closed, hat.plain, .inr ⟨_, rfl⟩⟩
  · rw [h.text_eq, hinit]
    simp
  · have hcount := h.count
    rw [count_append] at hcount
    simp only [count_singleton_self] at hcount
    rw [hat.count]
    omega

theorem LineAt.number_le (h : LineAt text line before body after) : line ≤ text.count '\n' := by
  rw [h.text_eq, count_append, h.count]
  omega

theorem LineAt.last_iff (h : LineAt text line before body after) : line = text.count '\n' ↔ after = [] := by
  rw [h.text_eq, count_append, count_append, h.count, count_eq_zero_of_not_mem h.plain]
  rcases h.opens with rfl | ⟨rest, rfl⟩
  · simp
  · simp only [count_cons_self, reduceCtorEq, iff_false]
    omega

theorem LineAt.first_iff (h : LineAt text line before body after) : line = 0 ↔ before = [] := by
  constructor
  · intro hzero
    rcases h.closed with hnil | ⟨init, rfl⟩
    · exact hnil
    · have hcount := h.count
      rw [count_append, hzero] at hcount
      simp at hcount
  · rintro rfl
    exact h.count.symm

namespace Buffer

variable (buf : Buffer)

theorem passLines_append (init rest : Text) : ∀ line, init.count '\n' + 1 = line →
    passLines line (init ++ '\n' :: rest) = init.length + 1 := by
  induction init with
  | nil =>
    rintro line rfl
    rfl
  | cons c init ih =>
    rintro line rfl
    by_cases hc : c = '\n'
    · subst hc
      rw [cons_append, passLines, if_pos rfl, count_cons_self, if_neg (by omega), ih _ (by omega)]
      rfl
    · rw [cons_append, passLines, if_neg hc, count_cons_of_ne hc, ih _ rfl]
      rfl

section Line

variable {before body after : Text} {line : Nat} (h : LineAt buf.chars line before body after)

include h

theorem nthLineStart_eq : buf.nthLineStart line = before.length := by
  unfold nthLineStart
  split
  · rename_i hzero
    rw [h.first_iff.mp hzero]
    rfl
  · rename_i hline
    rcases h.closed with rfl | ⟨init, rfl⟩
    · exact absurd h.count.symm hline
    · have hcount := h.count
      rw [count_append, count_singleton_self] at hcount
      rw [h.text_eq, append_assoc, singleton_append, passLines_append init _ _ hcount]
      simp

variable {left right : Text}

theorem lineEnd_eq (hbody : body = left ++ right) :
    buf.lineEnd (before.length + left.length) = before.length + body.length := by
  have hlen := congrArg List.length h.text_eq
  simp only [hbody, length_append] at hlen
  have hdrop : buf.chars.drop (before.length + left.length) = right ++ after := by
    rw [h.text_eq, hbody, ← length_append, append_assoc, ← append_assoc before, drop_left]
  have hright : (right ++ after).takeWhile (· != '\n') = right := by
    have hplain : ∀ c ∈ right, (c != '\n') = true := fun c hc => by
      have := h.plain
      rw [hbody] at this
      simp only [bne_iff_ne]
      rintro rfl
      exact this (mem_append_right _ hc)
    rw [takeWhile_append_of_pos hplain]
    rcases h.opens with rfl | ⟨rest, rfl⟩ <;> simp
  simp only [lineEnd, nchars]
  rw [Nat.min_eq_left (by omega), hdrop, hright, hbody, length_append]
  omega

theorem lineEnd_start : buf.lineEnd before.length = before.length + body.length :=
  lineEnd_eq buf h (show body = [] ++ body from rfl)

theorem lineEndByLine_eq : buf.lineEndByLine line = before.length + body.length := by
  rw [lineEndByLine, nthLineStart_eq buf h, lineEnd_start buf h]

theorem lineStart_eq (hbody : body = left ++ right) :
    buf.lineStart (before.length + left.length) = before.length := by
  have hlen := congrArg List.length h.text_eq
  simp only [hbody, length_append] at hlen
  have htake : buf.chars.take (before.length + left.length) = before ++ left := by
    rw [h.text_eq, hbody, ← length_append, append_assoc, ← append_assoc before, take_left]
  have hleft : (left.reverse ++ before.reverse).takeWhile (· != '\n') = left.reverse := by
    have hplain : ∀ c ∈ left.reverse, (c != '\n') = true := fun c hc => by
      have := h.plain
      rw [hbody] at this
      simp only [bne_iff_ne]
      rintro rfl
      exact this (mem_append_left _ (mem_reverse.mp hc))
    rw [takeWhile_append_of_pos hplain]
    rcases h.closed with rfl | ⟨init, rfl⟩ <;> simp
  simp only [lineStart, nchars]
  rw [Nat.min_eq_left (by omega), htake, reverse_append, hleft, length_reverse]
  omega

theorem lineIndex_eq (hbody : body = left ++ right) : buf.lineIndex (before.length + left.length) = line := by
  have hlen := congrArg List.length h.text_eq
  simp only [hbody, length_append] at hlen
  have htake : buf.chars.take (before.length + left.length) = before ++ left := by
    rw [h.text_eq, hbody, ← length_append, append_assoc, ← append_assoc before, take_left]
  have hplain : '\n' ∉ left := fun hmem => h.plain (by rw [hbody]; exact mem_append_left _ hmem)
  simp only [lineIndex, nchars]
  rw [Nat.min_eq_left (by omega), htake, count_append, count_eq_zero_of_not_mem hplain,
    h.count, Nat.add_zero]

theorem firstNonBlank_eq :
    buf.firstNonBlank before.length = before.length + (body.takeWhile isBlank).length := by
  have htake : (buf.chars.take (before.length + body.length)).drop before.length = body := by
    rw [h.text_eq, ← append_assoc, ← length_append, take_left, drop_left]
  rw [firstNonBlank, lineEnd_start buf h, htake]

end Line

theorem exists_line_of_position (hci : ci ≤ buf.chars.length) :
    ∃ before left right after, ci = before.length + left.length ∧
      LineAt buf.chars (buf.lineIndex ci) before (left ++ right) after := by
  obtain ⟨hsplit, hlen⟩ := split_at hci
  obtain ⟨before, left, right, after, hfront, -, hat⟩ :=
    lineAt_around (buf.chars.take ci) (buf.chars.drop ci)
  have hpos : ci = before.length + left.length := by
    rw [← hlen, hfront, length_append]
  rw [← hsplit] at hat
  refine ⟨before, left, right, after, hpos, ?_⟩
  have hindex := lineIndex_eq buf hat rfl
  rw [← hpos] at hindex
  rwa [hindex]

end Buffer

end FesTerm.Document.Vi
