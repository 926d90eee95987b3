import Mathlib

/-!
# Reading items off a stream

A reader takes items off the front of what it has read as soon as they are complete. `Take.Lawful`
says what makes this independent of how the stream is cut into reads: an item that is taken is a
definite first part of what is held, whatever follows, and a refusal stays a refusal when more
arrives. Then reading piece by piece gives the items of the whole stream (`reads_eq`), a stream of
codes is read back exactly (`drains_codes`), and every item that is taken stands for a part of the
stream (`drain_parts`).

The lengths in front of the items are numbers in big-endian order; `ofBytes_toBytes` reads them back.
-/

namespace Framing

open List

variable {σ β ε : Type}

abbrev Take (σ β ε : Type) := List σ → Except ε (Option (β × List σ))

/-- Take items until none is complete: the items, and what is left or why the next one was refused. -/
def drainWithin (take : Take σ β ε) : Nat → List σ → List β × Except ε (List σ)
  | 0, held => ([], .ok held)
  | fuel + 1, held =>
    match take held with
    | .error error => ([], .error error)
    | .ok none => ([], .ok held)
    | .ok (some (item, rest)) =>
      let (items, result) := drainWithin take fuel rest
      (item :: items, result)

def drain (take : Take σ β ε) (held : List σ) : List β × Except ε (List σ) :=
  drainWithin take (held.length + 1) held

/-- Read piece by piece, and stop at a refusal. -/
def reads (take : Take σ β ε) : List σ → List (List σ) → List β × Except ε (List σ)
  | held, [] => ([], .ok held)
  | held, piece :: pieces =>
    match drain take (held ++ piece) with
    | (items, .error error) => (items, .error error)
    | (items, .ok held) =>
      let (more, result) := reads take held pieces
      (items ++ more, result)

structure Take.Lawful (take : Take σ β ε) : Prop where
  /-- An item is the meaning of the symbols that it uses. -/
  cut : ∀ {held item rest}, take held = .ok (some (item, rest)) →
    ∃ used, used ≠ [] ∧ held = used ++ rest ∧ ∀ more, take (used ++ more) = .ok (some (item, more))
  /-- What is refused is refused whatever follows. -/
  refuse : ∀ {held error} (more : List σ), take held = .error error → take (held ++ more) = .error error

variable {take : Take σ β ε} {held rest more : List σ} {item : β} {items : List β} {error : ε}
  {result : Except ε (List σ)}

/-- What taking items until none is complete comes to. -/
inductive Drains (take : Take σ β ε) : List σ → List β → Except ε (List σ) → Prop
  | waits {held : List σ} (h : take held = .ok none) : Drains take held [] (.ok held)
  | refuses {held : List σ} {error : ε} (h : take held = .error error) :
    Drains take held [] (.error error)
  | takes {held rest : List σ} {item : β} {items : List β} {result : Except ε (List σ)}
    (h : take held = .ok (some (item, rest))) (hrest : Drains take rest items result) :
    Drains take held (item :: items) result

variable {result' : Except ε (List σ)} {items' : List β}

theorem Drains.unique (h : Drains take held items result)
    (h' : Drains take held items' result') : items = items' ∧ result = result' := by
  induction h generalizing items' result' with
  | waits hwait =>
    cases h' with
    | waits => exact ⟨rfl, rfl⟩
    | refuses hother => cases hwait.symm.trans hother
    | takes hother => cases hwait.symm.trans hother
  | refuses hrefuse =>
    cases h' with
    | waits hother => cases hrefuse.symm.trans hother
    | refuses hother => cases hrefuse.symm.trans hother; exact ⟨rfl, rfl⟩
    | takes hother => cases hrefuse.symm.trans hother
  | takes htake _ ih =>
    cases h' with
    | waits hother => cases htake.symm.trans hother
    | refuses hother => cases htake.symm.trans hother
    | takes hother hrest =>
      cases htake.symm.trans hother
      obtain ⟨rfl, rfl⟩ := ih hrest
      exact ⟨rfl, rfl⟩

theorem drainWithin_drains (hlaw : take.Lawful) {fuel : Nat} (hfuel : held.length < fuel) :
    Drains take held (drainWithin take fuel held).1 (drainWithin take fuel held).2 := by
  induction fuel generalizing held with
  | zero => omega
  | succ fuel ih =>
    unfold drainWithin
    split
    · next hrefuse => exact .refuses hrefuse
    · next hwait => exact .waits hwait
    · next item rest htake =>
      obtain ⟨used, hne, rfl, -⟩ := hlaw.cut htake
      have hpos := length_pos_iff.mpr hne
      rw [length_append] at hfuel
      exact .takes htake (ih (by omega))

theorem drain_drains (hlaw : take.Lawful) (held : List σ) :
    Drains take held (drain take held).1 (drain take held).2 :=
  drainWithin_drains hlaw (Nat.lt_succ_self _)

theorem Drains.drain_eq (hlaw : take.Lawful) (h : Drains take held items result) :
    drain take held = (items, result) := by
  obtain ⟨hitems, hresult⟩ := (drain_drains hlaw held).unique h
  exact Prod.ext hitems hresult

theorem Drains.waiting (h : Drains take held items (.ok rest)) : take rest = .ok none := by
  generalize hresult : (Except.ok rest : Except ε (List σ)) = result at h
  induction h with
  | waits hwait =>
    cases hresult
    exact hwait
  | refuses => cases hresult
  | takes _ _ ih => exact ih hresult

theorem take_append (hlaw : take.Lawful) (h : take held = .ok (some (item, rest))) (more : List σ) :
    take (held ++ more) = .ok (some (item, rest ++ more)) := by
  obtain ⟨used, -, rfl, hused⟩ := hlaw.cut h
  rw [append_assoc]
  exact hused (rest ++ more)

theorem Drains.append (hlaw : take.Lawful)
    (h : Drains take held items (.ok rest)) (h' : Drains take (rest ++ more) items' result') :
    Drains take (held ++ more) (items ++ items') result' := by
  generalize hresult : (Except.ok rest : Except ε (List σ)) = result at h
  induction h with
  | waits hwait =>
    cases hresult
    exact h'
  | refuses => cases hresult
  | takes htake _ ih => exact .takes (take_append hlaw htake more) (ih hresult)

theorem Drains.append_error (hlaw : take.Lawful) (h : Drains take held items (.error error))
    (more : List σ) : Drains take (held ++ more) items (.error error) := by
  generalize hresult : (Except.error error : Except ε (List σ)) = result at h
  induction h with
  | waits => cases hresult
  | refuses hrefuse =>
    cases hresult
    exact .refuses (hlaw.refuse more hrefuse)
  | takes htake _ ih => exact .takes (take_append hlaw htake more) (ih hresult)

theorem reads_eq (hlaw : take.Lawful) (hheld : take held = .ok none) (pieces : List (List σ)) :
    reads take held pieces = drain take (held ++ pieces.flatten) := by
  induction pieces generalizing held with
  | nil =>
    rw [flatten_nil, append_nil, (Drains.waits hheld).drain_eq hlaw]
    rfl
  | cons piece pieces ih =>
    rw [flatten_cons, ← append_assoc]
    unfold reads
    have hdrains := drain_drains hlaw (held ++ piece)
    split
    · next items error hdrain =>
      rw [hdrain] at hdrains
      rw [(hdrains.append_error hlaw pieces.flatten).drain_eq hlaw]
    · next items rest hdrain =>
      rw [hdrain] at hdrains
      rw [ih hdrains.waiting, (hdrains.append hlaw (drain_drains hlaw (rest ++ pieces.flatten))).drain_eq hlaw]

theorem Drains.parts (hlaw : take.Lawful) (h : Drains take held items result) :
    ∃ parts rest, held = parts.flatten ++ rest ∧
      Forall₂ (fun part item => ∀ more, take (part ++ more) = .ok (some (item, more))) parts items ∧
      ∀ left, result = .ok left → left = rest := by
  induction h with
  | @waits held hwait => exact ⟨[], held, rfl, .nil, fun left hleft => (Except.ok.inj hleft).symm⟩
  | @refuses held error hrefuse => exact ⟨[], held, rfl, .nil, nofun⟩
  | takes htake _ ih =>
    obtain ⟨used, -, rfl, hused⟩ := hlaw.cut htake
    obtain ⟨parts, left, rfl, hparts, hresult⟩ := ih
    refine ⟨used :: parts, left, ?_, .cons hused hparts, hresult⟩
    rw [flatten_cons, append_assoc]

theorem drains_codes {items : List β} {codes : List (List σ)} (hwait : take [] = .ok none)
    (h : Forall₂ (fun item code => ∀ rest, take (code ++ rest) = .ok (some (item, rest))) items codes) :
    Drains take codes.flatten items (.ok []) := by
  induction h with
  | nil => exact .waits hwait
  | cons hcode _ ih => exact .takes (hcode _) ih

variable {all : List β}

theorem Drains.of_prefix (hlaw : take.Lawful) (h : Drains take held items (.ok rest))
    (hall : Drains take (held ++ more) all result) :
    ∃ others, all = items ++ others ∧ Drains take (rest ++ more) others result := by
  have hmore := drain_drains hlaw (rest ++ more)
  obtain ⟨rfl, rfl⟩ := (h.append hlaw hmore).unique hall
  exact ⟨_, rfl, hmore⟩

theorem Drains.ok_of_prefix (hlaw : take.Lawful) {left : List σ}
    (h : Drains take held items result) (hall : Drains take (held ++ more) all (.ok left)) :
    ∃ rest, result = .ok rest := by
  rcases result with error | rest
  · obtain ⟨-, hresult⟩ := (h.append_error hlaw more).unique hall
    cases hresult
  · exact ⟨rest, rfl⟩

/-- The low `count` bytes of a number, the highest first. -/
def toBytes : Nat → Nat → List UInt8
  | 0, _ => []
  | count + 1, value => UInt8.ofNat (value / 256 ^ count) :: toBytes count value

def ofBytes (bytes : List UInt8) : Nat := bytes.foldl (fun value byte => 256 * value + byte.toNat) 0

variable (count value : Nat)

@[simp] theorem length_toBytes : (toBytes count value).length = count := by
  induction count with
  | zero => rfl
  | succ count ih => rw [toBytes, length_cons, ih]

theorem foldl_toBytes (start : Nat) :
    (toBytes count value).foldl (fun value byte => 256 * value + byte.toNat) start =
      start * 256 ^ count + value % 256 ^ count := by
  induction count generalizing start with
  | zero => simp [toBytes, Nat.mod_one]
  | succ count ih =>
    rw [toBytes, foldl_cons, ih]
    have hdigit : (UInt8.ofNat (value / 256 ^ count)).toNat = value / 256 ^ count % 256 := by
      simp
    rw [hdigit, pow_succ, Nat.mod_mul]
    ring

theorem ofBytes_toBytes {count value : Nat} (h : value < 256 ^ count) :
    ofBytes (toBytes count value) = value := by
  rw [ofBytes, foldl_toBytes, Nat.zero_mul, Nat.zero_add, Nat.mod_eq_of_lt h]

variable (bytes : List UInt8)

theorem ofBytes_append (more : List UInt8) :
    ofBytes (bytes ++ more) = more.foldl (fun value byte => 256 * value + byte.toNat) (ofBytes bytes) := by
  rw [ofBytes, foldl_append]
  rfl

theorem ofBytes_concat (byte : UInt8) :
    ofBytes (bytes ++ [byte]) = 256 * ofBytes bytes + byte.toNat := by
  rw [ofBytes_append, foldl_cons, foldl_nil]

theorem ofBytes_lt : ofBytes bytes < 256 ^ bytes.length := by
  induction bytes using List.reverseRecOn with
  | nil => exact Nat.one_pos
  | append_singleton bytes byte ih =>
    have hbyte : byte.toNat < 256 := byte.toNat_lt
    rw [ofBytes_concat, length_append, length_singleton, pow_succ]
    omega

theorem toBytes_concat : toBytes (count + 1) value = toBytes count (value / 256) ++ [UInt8.ofNat value] := by
  induction count with
  | zero => simp [toBytes]
  | succ count ih =>
    rw [toBytes, ih, toBytes, cons_append, Nat.div_div_eq_div_mul, pow_succ, Nat.mul_comm 256]

theorem toBytes_ofBytes : toBytes bytes.length (ofBytes bytes) = bytes := by
  induction bytes using List.reverseRecOn with
  | nil => rfl
  | append_singleton bytes byte ih =>
    have hbyte : byte.toNat < 256 := byte.toNat_lt
    rw [length_append, length_singleton, toBytes_concat, ofBytes_concat]
    rw [show (256 * ofBytes bytes + byte.toNat) / 256 = ofBytes bytes by omega, ih]
    congr 2
    apply UInt8.toNat_inj.mp
    rw [UInt8.toNat_ofNat']
    omega

end Framing
