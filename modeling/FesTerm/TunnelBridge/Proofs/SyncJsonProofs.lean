import FesTerm.TunnelBridge.SyncJson

/-!
# The published JSON is read back

`Spells` says which numbers a text stands for. A text is put together from literals without digits and numbers, and
the numbers of its parts follow one another.
-/

namespace FesTerm.TunnelBridge.SyncJson

open List

/-- The text stands for the numbers, unless a digit follows it. -/
def Spells (text : List UInt8) (numbers : List Nat) : Prop :=
  ∀ byte rest, isDigit byte = false →
    numbersFrom none (text ++ byte :: rest) = numbers ++ numbersFrom none (byte :: rest)

def Literal (text : List UInt8) : Prop := ∀ byte ∈ text, isDigit byte = false

variable {byte : UInt8}

theorem numbersFrom_digit (h : isDigit byte = true) (current : Option Nat) (rest : List UInt8) :
    numbersFrom current (byte :: rest) =
      numbersFrom (some (10 * current.getD 0 + (byte.toNat - 0x30))) rest := if_pos h

theorem numbersFrom_other (h : isDigit byte = false) (current : Option Nat) (rest : List UInt8) :
    numbersFrom current (byte :: rest) = current.toList ++ numbersFrom none rest :=
  if_neg (by rw [h]; decide)

variable {text : List UInt8}

theorem literal_skipped (h : Literal text) (rest : List UInt8) :
    numbersFrom none (text ++ rest) = numbersFrom none rest := by
  induction text with
  | nil => rfl
  | cons byte text ih =>
    have hbyte : isDigit byte = false := h byte (mem_cons_self ..)
    rw [cons_append, numbersFrom_other hbyte, ih fun other hother =>
      h other (mem_cons_of_mem _ hother)]
    rfl

theorem Literal.spells (h : Literal text) : Spells text [] :=
  fun byte rest _ => literal_skipped h (byte :: rest)

variable {more : List UInt8}

theorem Spells.append {numbers others : List Nat} {first : UInt8}
    (h : Spells text numbers) (hmore : Spells more others) (hfirst : more.head? = some first)
    (hdigit : isDigit first = false) : Spells (text ++ more) (numbers ++ others) := by
  intro byte rest hbyte
  obtain ⟨tail, rfl⟩ : ∃ tail, more = first :: tail := ⟨more.tail, (cons_head?_tail hfirst).symm⟩
  have hfollows : numbersFrom none (text ++ first :: (tail ++ byte :: rest)) =
      numbers ++ numbersFrom none (first :: (tail ++ byte :: rest)) := h first _ hdigit
  rw [append_assoc, cons_append, hfollows, ← cons_append, hmore byte rest hbyte, append_assoc]

theorem Spells.literal_append {numbers : List Nat} (h : Literal text)
    (hmore : Spells more numbers) : Spells (text ++ more) numbers := by
  intro byte rest hbyte
  rw [append_assoc, literal_skipped h]
  exact hmore byte rest hbyte

theorem isDigit_of_char {c : Char} (h : c.isDigit) :
    isDigit (UInt8.ofNat c.toNat) = true ∧ (UInt8.ofNat c.toNat).toNat = c.toNat := by
  rw [Char.isDigit, Bool.and_eq_true, decide_eq_true_eq, decide_eq_true_eq] at h
  obtain ⟨hlow, hhigh⟩ := h
  rw [ge_iff_le, UInt32.le_iff_toNat_le] at hlow
  rw [UInt32.le_iff_toNat_le] at hhigh
  have hlow' : 48 ≤ c.toNat := hlow
  have hhigh' : c.toNat ≤ 57 := hhigh
  have hvalue : (UInt8.ofNat c.toNat).toNat = c.toNat := UInt8.toNat_ofNat_of_lt' (by show c.toNat < 256; omega)
  refine ⟨?_, hvalue⟩
  rw [isDigit, inRange, Bool.and_eq_true, decide_eq_true_eq, decide_eq_true_eq, UInt8.le_iff_toNat_le,
    UInt8.le_iff_toNat_le, hvalue]
  exact ⟨hlow', hhigh'⟩

theorem numbersFrom_digits {digits : List Char} (h : ∀ c ∈ digits, c.isDigit) (value : Nat) (rest : List UInt8) :
    numbersFrom (some value) (digits.map (fun c => UInt8.ofNat c.toNat) ++ rest) =
      numbersFrom (some (Nat.ofDigitChars 10 digits value)) rest := by
  induction digits generalizing value with
  | nil => simp
  | cons c digits ih =>
    obtain ⟨hdigit, hvalue⟩ := isDigit_of_char (h c (mem_cons_self ..))
    rw [map_cons, cons_append, numbersFrom_digit hdigit, ih fun other hother =>
      h other (mem_cons_of_mem _ hother), Nat.ofDigitChars_cons, hvalue]
    rfl

variable (n : Nat)

theorem spells_decimal : Spells (decimal n) [n] := by
  intro byte rest hbyte
  have hdigits : ∀ c ∈ Nat.toDigits 10 n, c.isDigit := fun c hc =>
    Nat.isDigit_of_mem_toDigits (by decide) (by decide) hc
  -- the first digit begins a number
  have hbegins : numbersFrom none (decimal n ++ byte :: rest) = numbersFrom (some 0) (decimal n ++ byte :: rest) := by
    have hne : Nat.toDigits 10 n ≠ [] := Nat.toDigits_ne_nil
    obtain ⟨first, others, hcons⟩ := exists_cons_of_ne_nil hne
    obtain ⟨hfirst, -⟩ := isDigit_of_char (hdigits first (by rw [hcons]; exact mem_cons_self ..))
    rw [decimal, hcons, map_cons, cons_append, numbersFrom_digit hfirst, numbersFrom_digit hfirst]
    rfl
  have hvalue : numbersFrom (some 0) (decimal n ++ byte :: rest) = numbersFrom (some n) (byte :: rest) := by
    rw [decimal, numbersFrom_digits hdigits, Nat.ofDigitChars_ten_toDigits]
  rw [hbegins, hvalue, numbersFrom_other hbyte, numbersFrom_other hbyte]
  rfl

/-- The texts between the numbers. -/
def literalTexts : List String :=
  [",", "\x7b\"red\":", ",\"green\":", ",\"blue\":", "\x7d", "\x7b\"foreground\":", ",\"background\":",
    ",\"cursor\":", ",\"ansi\":[", "]\x7d", "\x7b\"Scrollback\":", "\x7b\"Colors\":", "\x7b\"Bytes\":["]

theorem literal_literalTexts : ∀ text ∈ literalTexts, Literal (ascii text) := by
  simp only [literalTexts, forall_mem_cons, Literal, ascii]
  simp [isDigit, inRange]

theorem literal_of {text : String} (h : text ∈ literalTexts) : Literal (ascii text) := literal_literalTexts text h

theorem spells_joined {items : List (List UInt8)} {numbers : List (List Nat)} (h : Forall₂ Spells items numbers) :
    Spells (joined items) numbers.flatten := by
  induction h with
  | nil => exact Literal.spells (forall_mem_nil _)
  | @cons item first items others hitem hitems ih =>
    cases hitems with
    | nil =>
      rw [joined, flatten_cons, flatten_nil, append_nil]
      exact hitem
    | cons hnext hlater =>
      rw [joined, flatten_cons, append_assoc]
      · exact hitem.append (Spells.literal_append (literal_of (by simp [literalTexts])) ih)
          (show _ = some 0x2c from rfl) (by decide)
      · intro hnil
        cases hnil

theorem literals_of_colors :
    Literal (ascii "\x7b\"red\":") ∧ Literal (ascii ",\"green\":") ∧ Literal (ascii ",\"blue\":") ∧
      Literal (ascii "\x7d") := by
  refine ⟨?_, ?_, ?_, ?_⟩
  all_goals exact literal_of (by simp [literalTexts])

theorem spells_color (color : Rgb) :
    Spells (colorText color) [color.red.toNat, color.green.toNat, color.blue.toNat] := by
  obtain ⟨hred, hgreen, hblue, hclose⟩ := literals_of_colors
  have hlast : Spells (ascii ",\"blue\":" ++ decimal color.blue.toNat ++ ascii "\x7d") [color.blue.toNat] :=
    ((spells_decimal _).literal_append hblue).append hclose.spells (show _ = some 0x7d from rfl) (by decide)
  have hmiddle : Spells (ascii ",\"green\":" ++ decimal color.green.toNat ++
      (ascii ",\"blue\":" ++ decimal color.blue.toNat ++ ascii "\x7d")) [color.green.toNat, color.blue.toNat] :=
    ((spells_decimal _).literal_append hgreen).append hlast (show _ = some 0x2c from rfl) (by decide)
  exact ((spells_decimal _).literal_append hred).append hmiddle (show _ = some 0x2c from rfl) (by decide)

theorem literals_of_scheme :
    Literal (ascii "\x7b\"foreground\":") ∧ Literal (ascii ",\"background\":") ∧ Literal (ascii ",\"cursor\":") ∧
      Literal (ascii ",\"ansi\":[") ∧ Literal (ascii "]\x7d") := by
  refine ⟨?_, ?_, ?_, ?_, ?_⟩
  all_goals exact literal_of (by simp [literalTexts])

theorem spells_colors (colors : List Rgb) :
    Spells (joined (colors.map colorText)) ((colors.flatMap Bincode.colorBytes).map UInt8.toNat) := by
  have hall : Forall₂ Spells (colors.map colorText)
      (colors.map fun color => [color.red.toNat, color.green.toNat, color.blue.toNat]) := by
    induction colors with
    | nil => exact .nil
    | cons color colors ih => exact .cons (spells_color color) ih
  have hflat : (colors.flatMap Bincode.colorBytes).map UInt8.toNat =
      (colors.map fun color => [color.red.toNat, color.green.toNat, color.blue.toNat]).flatten := by
    rw [List.flatMap, map_flatten, List.map_map]
    rfl
  rw [hflat]
  exact spells_joined hall

variable (scheme : ColorScheme)

theorem spells_scheme : Spells (schemeText scheme) ((Bincode.schemeBytes scheme).map UInt8.toNat) := by
  obtain ⟨hforeground, hbackground, hcursor, hansi, hclose⟩ := literals_of_scheme
  have hlast := ((spells_colors scheme.ansi).literal_append hansi).append hclose.spells
    (show _ = some 0x5d from rfl) (by decide)
  have hthird := ((spells_color scheme.cursor).literal_append hcursor).append hlast
    (show _ = some 0x2c from rfl) (by decide)
  have hsecond := ((spells_color scheme.background).literal_append hbackground).append hthird
    (show _ = some 0x2c from rfl)
    (by decide)
  have hall := ((spells_color scheme.foreground).literal_append hforeground).append hsecond
    (show _ = some 0x2c from rfl)
    (by decide)
  rw [append_nil] at hall
  exact hall

variable (data : List UInt8)

theorem spells_bytes : Spells (joined (data.map fun byte => decimal byte.toNat)) (data.map UInt8.toNat) := by
  have hflat : (data.map fun byte => [byte.toNat]).flatten = data.map UInt8.toNat := by
    induction data with
    | nil => rfl
    | cons byte data ih =>
      rw [map_cons, flatten_cons, ih]
      rfl
  have hall : Forall₂ Spells (data.map fun byte => decimal byte.toNat) (data.map fun byte => [byte.toNat]) := by
    clear hflat
    induction data with
    | nil => exact .nil
    | cons byte data ih => exact .cons (spells_decimal _) ih
  rw [← hflat]
  exact spells_joined hall

theorem Spells.numbers {numbers : List Nat} (h : Spells text numbers)
    (hdigit : isDigit byte = false) (hmore : Literal (byte :: more)) :
    numbersFrom none (text ++ byte :: more) = numbers := by
  have hrest : numbersFrom none (byte :: more) = [] := by
    have hskipped := literal_skipped hmore []
    rwa [append_nil] at hskipped
  rw [h byte more hdigit, hrest, append_nil]

theorem ofNat_toNat : (data.map UInt8.toNat).map UInt8.ofNat = data := by
  rw [List.map_map]
  have hbyte : UInt8.ofNat ∘ UInt8.toNat = id := funext fun byte => UInt8.ofNat_toNat
  rw [hbyte, List.map_id]

theorem literals_of_sync :
    Literal (ascii "\x7b\"Scrollback\":") ∧ Literal (ascii "\x7b\"Colors\":") ∧ Literal (ascii "\x7b\"Bytes\":[") ∧
      Literal (ascii "]\x7d") ∧ Literal (ascii "\x7d") := by
  refine ⟨?_, ?_, ?_, ?_, ?_⟩
  all_goals exact literal_of (by simp [literalTexts])

theorem readSync_scrollback (value : Nat) :
    readSync (ascii "\x7b\"Scrollback\":" ++ decimal value ++ ascii "\x7d") =
      .ok (.scrollback (if value = usizeMax then none else some value)) := by
  obtain ⟨hliteral, -, -, -, hclose⟩ := literals_of_sync
  have hnumbers : numbersFrom none (ascii "\x7b\"Scrollback\":" ++ decimal value ++ ascii "\x7d") = [value] :=
    ((spells_decimal value).literal_append hliteral).numbers (by decide) hclose
  have hvariant : (ascii "\x7b\"Scrollback\":" ++ decimal value ++ ascii "\x7d")[2]? = some 0x53 := by
    rw [append_assoc]
    rfl
  rw [readSync, if_pos hvariant, hnumbers]

theorem readSync_colors :
    readSync (ascii "\x7b\"Colors\":" ++ schemeText scheme ++ ascii "\x7d") = .ok (.colors scheme) := by
  obtain ⟨-, hliteral, -, -, hclose⟩ := literals_of_sync
  have hnumbers : numbersFrom none (ascii "\x7b\"Colors\":" ++ schemeText scheme ++ ascii "\x7d") =
      (Bincode.schemeBytes scheme).map UInt8.toNat :=
    ((spells_scheme scheme).literal_append hliteral).numbers (by decide) hclose
  have hvariant : (ascii "\x7b\"Colors\":" ++ schemeText scheme ++ ascii "\x7d")[2]? = some 0x43 := by
    rw [append_assoc]
    rfl
  rw [readSync, if_neg (by rw [hvariant]; decide), if_pos hvariant, hnumbers, ofNat_toNat,
    Bincode.schemeOf_schemeBytes]

theorem readSync_bytes :
    readSync (ascii "\x7b\"Bytes\":[" ++ joined (data.map fun byte => decimal byte.toNat) ++ ascii "]\x7d") =
      .ok (.bytes data) := by
  obtain ⟨-, -, hliteral, hclose, -⟩ := literals_of_sync
  have hnumbers : numbersFrom none
      (ascii "\x7b\"Bytes\":[" ++ joined (data.map fun byte => decimal byte.toNat) ++ ascii "]\x7d") =
        data.map UInt8.toNat :=
    ((spells_bytes data).literal_append hliteral).numbers (by decide) hclose
  have hvariant : (ascii "\x7b\"Bytes\":[" ++ joined (data.map fun byte => decimal byte.toNat) ++
      ascii "]\x7d")[2]? = some 0x42 := by
    rw [append_assoc]
    rfl
  rw [readSync, if_neg (by rw [hvariant]; decide), if_neg (by rw [hvariant]; decide), if_pos hvariant, hnumbers,
    ofNat_toNat]

theorem reference_roundTrips :
    letI := reference
    RoundTrips := by
  intro sync payload h
  change writeSync sync = .ok payload at h
  show readSync payload = .ok sync
  cases sync with
  | scrollback limitBytes =>
    rcases limitBytes with _ | limit
    · cases h
      rw [readSync_scrollback, if_pos rfl]
    · simp only [writeSync] at h
      by_cases hlimit : limit < usizeMax
      · rw [if_pos hlimit] at h
        cases h
        rw [readSync_scrollback, if_neg (by omega)]
      · rw [if_neg hlimit] at h
        cases h
  | colors scheme =>
    cases h
    exact readSync_colors scheme
  | bytes data =>
    cases h
    exact readSync_bytes data
  | reset =>
    cases h
    decide +kernel

theorem length_decimal : 1 ≤ (decimal n).length := by
  rw [decimal, length_map]
  exact Nat.length_toDigits_pos

theorem length_joined : 2 * data.length ≤ (joined (data.map fun byte => decimal byte.toNat)).length + 1 := by
  induction data with
  | nil => exact Nat.zero_le _
  | cons byte data ih =>
    have hfirst := length_decimal byte.toNat
    cases data with
    | nil =>
      simp only [map_cons, map_nil, joined, length_cons, length_nil]
      omega
    | cons next data =>
      simp only [map_cons, joined, length_append, length_cons] at ih ⊢
      have hcomma : (ascii ",").length = 1 := by decide
      omega

theorem length_writeSync_bytes {data payload : List UInt8} (h : writeSync (.bytes data) = .ok payload) :
    2 * data.length < payload.length := by
  have hjoined := length_joined data
  have hclose : (ascii "]\x7d").length = 2 := by decide
  cases h
  rw [length_append, length_append, hclose]
  omega

end FesTerm.TunnelBridge.SyncJson
