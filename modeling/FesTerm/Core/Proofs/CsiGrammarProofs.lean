import FesTerm.Core.CsiGrammar
import FesTerm.Core.Proofs.ParserProofs

/-!
# The parser accepts the grammar of control sequences

After every byte string behind `ESC [` the parser either holds exactly what the string writes, or
ignores the rest of the sequence because the string is no beginning of an accepted one. Both ways end
at the same byte, with nothing of the sequence left in the parser.
-/

namespace FesTerm

open Checked List Option

variable {next : ParameterSeparator} {field : ParameterSeparator × List UInt8} {rest : List UInt8}

namespace Csi

/-! ## Fields -/

def Separates (byte : UInt8) (separator : ParameterSeparator) : Prop :=
  byte = 0x3b ∧ separator = .semicolon ∨ byte = 0x3a ∧ separator = .colon

variable {byte : UInt8} {bytes : List UInt8}

theorem fieldsFrom_cons_separator (h : Separates byte next)
    (separator : ParameterSeparator) (rest : List UInt8) :
    fieldsFrom separator (byte :: rest) = (separator, []) :: fieldsFrom next rest := by
  rcases h with ⟨rfl, rfl⟩ | ⟨rfl, rfl⟩ <;> simp [fieldsFrom]

variable {digits : List UInt8}

theorem fieldsFrom_cons_digit (h : ∀ separator, ¬ Separates byte separator)
    {separator first : ParameterSeparator}
    {more : List (ParameterSeparator × List UInt8)}
    (hrest : fieldsFrom separator rest = (first, digits) :: more) :
    fieldsFrom separator (byte :: rest) = (first, byte :: digits) :: more := by
  have hsemicolon : byte ≠ 0x3b := fun hb => h .semicolon (.inl ⟨hb, rfl⟩)
  have hcolon : byte ≠ 0x3a := fun hb => h .colon (.inr ⟨hb, rfl⟩)
  rw [fieldsFrom, if_neg hsemicolon, if_neg hcolon, hrest]

theorem fieldsFrom_cons (separator : ParameterSeparator) (bytes : List UInt8) :
    ∃ digits more, fieldsFrom separator bytes = (separator, digits) :: more := by
  induction bytes generalizing separator with
  | nil => exact ⟨[], [], rfl⟩
  | cons byte rest ih =>
    by_cases h : ∃ next, Separates byte next
    · obtain ⟨next, hnext⟩ := h
      exact ⟨[], _, fieldsFrom_cons_separator hnext separator rest⟩
    · obtain ⟨digits, more, hrest⟩ := ih separator
      exact ⟨_, _, fieldsFrom_cons_digit (fun next hnext => h ⟨next, hnext⟩) hrest⟩

theorem fieldsFrom_snoc_separator (h : Separates byte next)
    (separator : ParameterSeparator) (bytes : List UInt8) :
    fieldsFrom separator (bytes ++ [byte]) = fieldsFrom separator bytes ++ [(next, [])] := by
  induction bytes generalizing separator with
  | nil => exact fieldsFrom_cons_separator h separator []
  | cons head rest ih =>
    by_cases hhead : ∃ other, Separates head other
    · obtain ⟨other, hother⟩ := hhead
      rw [cons_append, fieldsFrom_cons_separator hother, fieldsFrom_cons_separator hother, ih,
        cons_append]
    · have hdigit := fun other hother => hhead ⟨other, hother⟩
      obtain ⟨digits, more, hrest⟩ := fieldsFrom_cons separator rest
      have hsnoc := ih separator
      rw [hrest, cons_append] at hsnoc
      rw [cons_append, fieldsFrom_cons_digit hdigit hsnoc, fieldsFrom_cons_digit hdigit hrest,
        cons_append]

theorem fieldsFrom_snoc_digit (h : ∀ next, ¬ Separates byte next)
    (separator : ParameterSeparator) (bytes : List UInt8) :
    ∃ front last digits, fieldsFrom separator bytes = front ++ [(last, digits)] ∧
      fieldsFrom separator (bytes ++ [byte]) = front ++ [(last, digits ++ [byte])] := by
  induction bytes generalizing separator with
  | nil =>
    exact ⟨[], separator, [], rfl,
      fieldsFrom_cons_digit h (show fieldsFrom separator [] = [(separator, [])] from rfl)⟩
  | cons head rest ih =>
    by_cases hhead : ∃ other, Separates head other
    · obtain ⟨other, hother⟩ := hhead
      obtain ⟨front, last, digits, hrest, hsnoc⟩ := ih other
      refine ⟨(separator, []) :: front, last, digits, ?_, ?_⟩
      · rw [fieldsFrom_cons_separator hother, hrest, cons_append]
      · rw [cons_append, fieldsFrom_cons_separator hother, hsnoc, cons_append]
    · have hdigit := fun other hother => hhead ⟨other, hother⟩
      obtain ⟨front, last, digits, hrest, hsnoc⟩ := ih separator
      cases front with
      | nil =>
        exact ⟨[], last, head :: digits, fieldsFrom_cons_digit hdigit hrest,
          fieldsFrom_cons_digit hdigit hsnoc⟩
      | cons field front =>
        obtain ⟨first, word⟩ := field
        exact ⟨(first, head :: word) :: front, last, digits, fieldsFrom_cons_digit hdigit hrest,
          fieldsFrom_cons_digit hdigit hsnoc⟩

theorem decimal_snoc (digits : List UInt8) (byte : UInt8) :
    decimal (digits ++ [byte]) = decimal digits * 10 + (byte.toNat - 0x30) := by
  simp [decimal]

theorem fields_eq (bytes : List UInt8) : bytes = [] ∧ fields bytes = [] ∨
    bytes ≠ [] ∧ fields bytes = fieldsFrom .start bytes := by
  cases bytes with
  | nil => exact .inl ⟨rfl, rfl⟩
  | cons byte rest => exact .inr ⟨by simp, rfl⟩

/-! ## One more byte -/

theorem splitMarker_snoc (h : bytes = [] → byte ≠ 0x3f ∧ byte ≠ 0x3e) :
    splitMarker (bytes ++ [byte]) = ((splitMarker bytes).1, (splitMarker bytes).2 ++ [byte]) := by
  cases bytes with
  | nil =>
    obtain ⟨hprivate, hsecondary⟩ := h rfl
    simp [splitMarker, hprivate, hsecondary]
  | cons head rest =>
    simp only [splitMarker, cons_append]
    split
    · rfl
    split
    · rfl
    · rfl

theorem snoc_parameter (h : bytes = [] → byte ≠ 0x3f ∧ byte ≠ 0x3e) (hbyte : isParameterByte byte = true)
    (htail : intermediateBytes bytes = []) : parameterBytes (bytes ++ [byte]) = parameterBytes bytes ++ [byte] ∧
      intermediateBytes (bytes ++ [byte]) = [] := by
  unfold intermediateBytes at htail
  rw [dropWhile_eq_nil_iff] at htail
  unfold parameterBytes intermediateBytes
  rw [splitMarker_snoc h]
  have hall : ∀ other ∈ (splitMarker bytes).2 ++ [byte], isParameterByte other = true := by
    simp only [mem_append, mem_singleton]
    rintro other (hother | rfl)
    · exact htail other hother
    · exact hbyte
  rw [takeWhile_eq_self_iff.mpr hall, takeWhile_eq_self_iff.mpr htail,
    dropWhile_eq_nil_iff.mpr hall]
  exact ⟨rfl, rfl⟩

theorem snoc_tail (h : bytes = [] → byte ≠ 0x3f ∧ byte ≠ 0x3e)
    (hbyte : isParameterByte byte = false ∨ intermediateBytes bytes ≠ []) :
    parameterBytes (bytes ++ [byte]) = parameterBytes bytes ∧
      intermediateBytes (bytes ++ [byte]) = intermediateBytes bytes ++ [byte] := by
  unfold parameterBytes intermediateBytes at *
  rw [splitMarker_snoc h]
  simp only [takeWhile_append, dropWhile_append]
  by_cases htail : (splitMarker bytes).2.dropWhile isParameterByte = []
  · have hbyte := hbyte.resolve_right (fun hne => hne htail)
    simp [htail, hbyte, takeWhile_eq_self_iff.mpr (dropWhile_eq_nil_iff.mp htail)]
  · have hlen : ((splitMarker bytes).2.takeWhile isParameterByte).length ≠
        (splitMarker bytes).2.length := by
      intro heq
      have hsplit := congrArg List.length
        (@takeWhile_append_dropWhile _ isParameterByte (splitMarker bytes).2)
      rw [length_append] at hsplit
      exact htail (length_eq_zero_iff.mp (by omega))
    simp [htail, hlen]

/-- The fields are within the parser's bounds. -/
structure Bounded (all : List (ParameterSeparator × List UInt8)) : Prop where
  count : all.length ≤ maxCsiParameters
  digits : ∀ field ∈ all, field.2.length ≤ 5
  values : ∀ field ∈ all, decimal field.2 ≤ 65535

theorem bounded_nil : Bounded [] :=
  ⟨Nat.zero_le _, fun _ h => absurd h not_mem_nil, fun _ h => absurd h not_mem_nil⟩

variable {front : List (ParameterSeparator × List UInt8)}

theorem bounded_snoc :
    Bounded (front ++ [field]) ↔ Bounded front ∧ front.length < maxCsiParameters ∧ field.2.length ≤ 5 ∧
      decimal field.2 ≤ 65535 := by
  constructor
  · intro h
    have hcount := h.count
    rw [length_append, length_singleton] at hcount
    refine ⟨⟨by omega, fun other hother => ?_, fun other hother => ?_⟩, hcount, ?_, ?_⟩
    · exact h.digits other (mem_append_left _ hother)
    · exact h.values other (mem_append_left _ hother)
    · exact h.digits field (mem_append_right _ mem_cons_self)
    · exact h.values field (mem_append_right _ mem_cons_self)
  · rintro ⟨h, hcount, hdigits, hvalue⟩
    refine ⟨by simpa using hcount, ?_, ?_⟩
    · simpa [or_imp, forall_and] using ⟨fun first word => h.digits (first, word), hdigits⟩
    · simpa [or_imp, forall_and] using ⟨fun first word => h.values (first, word), hvalue⟩

theorem Bounded.of_digit {last : ParameterSeparator} (h : Bounded (front ++ [(last, digits ++ [byte])])) :
    Bounded (front ++ [(last, digits)]) := by
  obtain ⟨hfront, hcount, hdigits, hvalue⟩ := bounded_snoc.mp h
  simp only [length_append, length_singleton, decimal_snoc] at hdigits hvalue
  exact bounded_snoc.mpr ⟨hfront, hcount, show digits.length ≤ 5 by omega, show decimal digits ≤ 65535 by omega⟩

theorem fields_snoc (bytes : List UInt8) (byte : UInt8) :
    fields (bytes ++ [byte]) = fieldsFrom .start (bytes ++ [byte]) := by
  rcases fields_eq (bytes ++ [byte]) with ⟨hnil, -⟩ | ⟨-, h⟩
  · simp at hnil
  · exact h

theorem bounded_of_snoc (h : Bounded (fields (bytes ++ [byte]))) : Bounded (fields bytes) := by
  rw [fields_snoc] at h
  rcases fields_eq bytes with ⟨-, hnil⟩ | ⟨-, heq⟩
  · rw [hnil]
    exact bounded_nil
  · rw [heq]
    by_cases hsep : ∃ next, Separates byte next
    · obtain ⟨next, hnext⟩ := hsep
      rw [fieldsFrom_snoc_separator hnext] at h
      exact (bounded_snoc.mp h).1
    · obtain ⟨front, last, digits, hbytes, hsnoc⟩ :=
        fieldsFrom_snoc_digit (fun next hnext => hsep ⟨next, hnext⟩) .start bytes
      rw [hsnoc] at h
      rw [hbytes]
      exact h.of_digit

theorem Accepts.bounded (h : Accepts bytes) : Bounded (fields (parameterBytes bytes)) :=
  ⟨h.parameters, h.digits, h.values⟩

theorem accepts_of_bounded (h : Bounded (fields (parameterBytes bytes)))
    (horder : ∀ byte ∈ intermediateBytes bytes, isIntermediateByte byte = true)
    (hcount : (intermediateBytes bytes).length ≤ maxCsiIntermediates) : Accepts bytes :=
  ⟨horder, h.count, h.digits, h.values, hcount⟩

theorem accepts_nil : Accepts [] :=
  accepts_of_bounded bounded_nil (fun _ h => absurd h not_mem_nil) (Nat.zero_le _)

theorem Accepts.of_snoc (h : Accepts (bytes ++ [byte])) : Accepts bytes := by
  by_cases hmarker : bytes = [] → byte ≠ 0x3f ∧ byte ≠ 0x3e
  · by_cases hbyte : isParameterByte byte = true ∧ intermediateBytes bytes = []
    · obtain ⟨hparameters, htail⟩ := snoc_parameter hmarker hbyte.1 hbyte.2
      have hbounded := h.bounded
      rw [hparameters] at hbounded
      refine accepts_of_bounded (bounded_of_snoc hbounded) ?_ ?_
      · rw [hbyte.2]
        exact fun _ hother => absurd hother not_mem_nil
      · rw [hbyte.2]
        exact Nat.zero_le _
    · obtain ⟨hparameters, htail⟩ := snoc_tail hmarker (by
        rw [not_and_or] at hbyte
        exact hbyte.imp Bool.eq_false_iff.mpr id)
      have hbounded := h.bounded
      have horder := h.order
      have hcount := h.intermediates
      rw [hparameters] at hbounded
      rw [htail] at horder hcount
      refine accepts_of_bounded hbounded (fun other hother => ?_) ?_
      · exact horder other (mem_append_left _ hother)
      · rw [length_append] at hcount
        omega
  · obtain ⟨hnil, -⟩ := Classical.not_imp.mp hmarker
    rw [hnil]
    exact accepts_nil

end Csi

/-! ## The parser behind `ESC [` -/

namespace Parser

open Csi

def outside (parser : Parser) : Parser :=
  { parser.clearCsi with state := .ground, intermediates := [] }

/-- The bytes that only a control sequence's own states look at. -/
structure Passive (byte : UInt8) : Prop where
  control : c0Operation byte = none
  cancel : byte ≠ 0x18 ∧ byte ≠ 0x1a
  escape : byte ≠ 0x1b
  shifts : byte ≠ 0x0e ∧ byte ≠ 0x0f

instance (byte : UInt8) : Decidable (Passive byte) :=
  decidable_of_iff ((c0Operation byte).isNone = true ∧ (byte ≠ 0x18 ∧ byte ≠ 0x1a) ∧ byte ≠ 0x1b ∧
      (byte ≠ 0x0e ∧ byte ≠ 0x0f))
    ⟨fun ⟨hcontrol, hcancel, hescape, hshifts⟩ =>
      ⟨isNone_iff_eq_none.mp hcontrol, hcancel, hescape, hshifts⟩,
    fun h => ⟨isNone_iff_eq_none.mpr h.control, h.cancel, h.escape, h.shifts⟩⟩

def fieldValue (field : ParameterSeparator × List UInt8) : UInt16 × ParameterSeparator :=
  (UInt16.ofNat (decimal field.2), field.1)

def stateAfter (bytes : List UInt8) : ParserState :=
  if intermediateBytes bytes ≠ [] then .csiIntermediate
  else if parameterBytes bytes ≠ [] then .csiParam
  else .csiEntry

/-- The parser holds what the bytes write. -/
structure Scanned (base : Parser) (bytes : List UInt8) (parser : Parser) : Prop where
  accepts : Accepts bytes
  outside : parser.outside = base.outside
  state : parser.state = stateAfter bytes
  «private» : parser.private = (marker bytes == .private)
  secondary : parser.secondary = (marker bytes == .secondary)
  entries : parser.parameters.entries = (fields (parameterBytes bytes)).map fieldValue
  digits : ∀ front last word, fieldsFrom .start (parameterBytes bytes) = front ++ [(last, word)] →
    parser.parameterDigits = word.length
  stored : parser.intermediates.length = maxCsiIntermediates
  count : parser.intermediateLength = (intermediateBytes bytes).length
  intermediates : parser.intermediates.take parser.intermediateLength = intermediateBytes bytes

/-- The parser skips to the end of a sequence that is not accepted. -/
structure Dropped (base : Parser) (bytes : List UInt8) (parser : Parser) : Prop where
  refuses : ¬ Accepts bytes
  outside : parser.outside = base.outside
  state : parser.state = .csiIgnore
  cleared : parser.clearCsi = parser

variable {parser base : Parser} {bytes : List UInt8} {byte : UInt8}

theorem Passive.advance [Platform] (h : Passive byte) (parser : Parser) :
    (parser.state = .csiEntry → parser.advance byte = parser.advanceCsiEntry byte) ∧
      (parser.state = .csiParam → parser.advance byte = parser.advanceCsiParam byte) ∧
      (parser.state = .csiIntermediate → parser.advance byte = parser.advanceCsiIntermediate byte) := by
  obtain ⟨hcan, hsub⟩ := h.cancel
  obtain ⟨hso, hsi⟩ := h.shifts
  refine ⟨fun hs => ?_, fun hs => ?_, fun hs => ?_⟩
  all_goals simp [Parser.advance, hs, hcan, hsub, h.escape, hso, hsi, h.control]

theorem Scanned.ignore (h : Scanned base bytes parser) (hno : ¬ Accepts (bytes ++ [byte])) :
    Dropped base (bytes ++ [byte]) parser.ignoreCsi.1 :=
  ⟨hno, h.outside, rfl, rfl⟩

theorem Scanned.opened (h : Scanned base bytes parser) :
    ∃ parameters, (if parser.parameters.isEmpty then parser.parameters.begin .start
        else some parser.parameters) = some parameters ∧
      parameters.entries = (fieldsFrom .start (parameterBytes bytes)).map fieldValue := by
  have hentries := h.entries
  rcases fields_eq (parameterBytes bytes) with ⟨hnil, hfields⟩ | ⟨-, hfields⟩
  · rw [hfields, map_nil] at hentries
    refine ⟨⟨[(0, .start)], by decide⟩, ?_, ?_⟩
    · simp [CsiParameters.isEmpty, CsiParameters.begin, hentries, maxCsiParameters]
    · rw [hnil]
      rfl
  · rw [hfields] at hentries
    refine ⟨parser.parameters, if_neg ?_, hentries⟩
    obtain ⟨digits, more, hcons⟩ := fieldsFrom_cons .start (parameterBytes bytes)
    simp [CsiParameters.isEmpty, hentries, hcons]

theorem toNat_fieldValue (h : decimal field.2 ≤ 65535) : (fieldValue field).1.toNat = decimal field.2 := by
  simp only [fieldValue, UInt16.toNat_ofNat']
  omega

theorem Scanned.bounded (h : Scanned base bytes parser) :
    Bounded (fieldsFrom .start (parameterBytes bytes)) := by
  have hbounded := h.accepts.bounded
  rcases fields_eq (parameterBytes bytes) with ⟨hnil, -⟩ | ⟨-, hfields⟩
  · rw [hnil]
    exact ⟨by decide, by simp [fieldsFrom], by simp [fieldsFrom, decimal]⟩
  · rwa [hfields] at hbounded

theorem not_marker_of_parameter (h : isParameterByte byte = true) : byte ≠ 0x3f ∧ byte ≠ 0x3e := by
  refine ⟨?_, ?_⟩ <;> rintro rfl <;> exact absurd h (by decide)

theorem marker_snoc (hmarker : bytes = [] → byte ≠ 0x3f ∧ byte ≠ 0x3e) :
    marker (bytes ++ [byte]) = marker bytes := by
  rw [marker, splitMarker_snoc hmarker]
  rfl

theorem stateAfter_parameter (hbyte : isParameterByte byte = true) (htail : intermediateBytes bytes = []) :
    stateAfter (bytes ++ [byte]) = .csiParam := by
  obtain ⟨hparameters, htail⟩ := snoc_parameter (fun _ => not_marker_of_parameter hbyte) hbyte htail
  rw [stateAfter, htail, hparameters]
  simp

variable {parameters opened : CsiParameters} {parser' : Parser}

/-- A parameter byte that is taken in. -/
theorem Scanned.parameter (h : Scanned base bytes parser) (hbyte : isParameterByte byte = true)
    (htail : intermediateBytes bytes = []) {digits : Nat}
    (hbounded : Bounded (fieldsFrom .start (parameterBytes bytes ++ [byte]))) (hentries : parameters.entries =
      (fieldsFrom .start (parameterBytes bytes ++ [byte])).map fieldValue)
    (hdigits : ∀ front last word, fieldsFrom .start (parameterBytes bytes ++ [byte]) =
      front ++ [(last, word)] → digits = word.length) : Scanned base (bytes ++ [byte])
      { parser with parameters := parameters, parameterDigits := digits, state := .csiParam } := by
  have hmarker := fun _ : bytes = [] => not_marker_of_parameter hbyte
  obtain ⟨hparameters, htail'⟩ := snoc_parameter hmarker hbyte htail
  have hcount := h.count
  have hstored := h.intermediates
  rw [htail] at hcount hstored
  refine ⟨accepts_of_bounded ?_ ?_ ?_, h.outside, (stateAfter_parameter hbyte htail).symm, ?_, ?_, ?_,
    ?_, h.stored, ?_, ?_⟩
  · rwa [hparameters, fields_snoc]
  · rw [htail']
    exact fun _ hother => absurd hother not_mem_nil
  · rw [htail']
    exact Nat.zero_le _
  · rw [marker_snoc hmarker]
    exact h.private
  · rw [marker_snoc hmarker]
    exact h.secondary
  · rw [hparameters, fields_snoc]
    exact hentries
  · rw [hparameters]
    exact hdigits
  · rw [htail']
    exact hcount
  · rw [htail']
    exact hstored

theorem appendDigit_opened (digit : Nat)
    (hopened : (if parameters.isEmpty then parameters.begin .start else some parameters) = some opened) :
    parameters.appendDigit digit = (opened.entries.getLast?).bind fun (last, separator) =>
      (CsiParameters.pushDigit last digit).bind fun last =>
        some ⟨opened.entries.set (opened.entries.length - 1) (last, separator), by
          rw [length_set]
          exact opened.length_le⟩ := by
  unfold CsiParameters.appendDigit
  by_cases hempty : parameters.isEmpty = true
  · rw [if_pos hempty] at hopened
    simp only [hempty, if_true, hopened, bind_eq_bind, bind_some]
  · rw [if_neg hempty] at hopened
    cases hopened
    simp only [hempty, if_false, bind_eq_bind, bind_some, Bool.false_eq_true]

theorem appendDigit_eq {front : List (UInt16 × ParameterSeparator)}
    {value : UInt16} {separator : ParameterSeparator} {digit : Nat}
    (hopened : (if parameters.isEmpty then parameters.begin .start else some parameters) = some opened)
    (hentries : opened.entries = front ++ [(value, separator)]) :
    (CsiParameters.pushDigit value digit = none → parameters.appendDigit digit = none) ∧
      ∀ next, CsiParameters.pushDigit value digit = some next →
        ∃ appended, parameters.appendDigit digit = some appended ∧
          appended.entries = front ++ [(next, separator)] := by
  have hlast : opened.entries.getLast? = some (value, separator) := by
    rw [hentries, getLast?_append, getLast?_singleton]
    rfl
  rw [appendDigit_opened digit hopened, hlast, bind_some]
  refine ⟨fun hnone => ?_, fun next hnext => ?_⟩
  · simp only [hnone, bind_none]
  · simp only [hnext, bind_some]
    refine ⟨_, rfl, ?_⟩
    simp only [hentries, length_append, length_singleton, Nat.add_sub_cancel]
    rw [set_append_right _ _ le_rfl, Nat.sub_self]
    rfl

theorem Scanned.digit (h : Scanned base bytes parser) (hdigit : isDigit byte = true)
    (htail : intermediateBytes bytes = []) :
    ∃ parser', parser.appendCsiDigit byte = some (parser', .ignored) ∧
      (Scanned base (bytes ++ [byte]) parser' ∨ Dropped base (bytes ++ [byte]) parser') := by
  have hbyte : isParameterByte byte = true := by simp [isParameterByte, hdigit]
  have hseparates : ∀ next, ¬ Separates byte next := by
    rintro next (⟨rfl, -⟩ | ⟨rfl, -⟩)
    · exact absurd hdigit (by decide)
    · exact absurd hdigit (by decide)
  have hge : 0x30 ≤ byte.toNat := by
    simp only [isDigit, inRange, Bool.and_eq_true, decide_eq_true_eq] at hdigit
    exact UInt8.le_iff_toNat_le.mp hdigit.1
  obtain ⟨hparameters, -⟩ := snoc_parameter (fun _ => not_marker_of_parameter hbyte) hbyte htail
  obtain ⟨front, last, word, hfields, hsnoc⟩ :=
    fieldsFrom_snoc_digit hseparates .start (parameterBytes bytes)
  obtain ⟨opened, hopened, hentries⟩ := h.opened
  have hbounded := h.bounded
  have hcounted := h.digits front last word hfields
  rw [hfields] at hbounded
  obtain ⟨hfront, hcount, hword, hvalue⟩ := bounded_snoc.mp hbounded
  rw [hfields, map_append, map_singleton] at hentries
  have hpush : CsiParameters.pushDigit (fieldValue (last, word)).1 (byte.toNat - 0x30) =
      if decimal (word ++ [byte]) ≤ 65535 then some (fieldValue (last, word ++ [byte])).1 else none := by
    rw [CsiParameters.pushDigit, toNat_fieldValue hvalue, fieldValue, decimal_snoc]
  have happend := @appendDigit_eq _ _ _ _ _ (byte.toNat - 0x30) hopened hentries
  obtain ⟨hfails, happends⟩ := happend
  -- the field with its new digit is one of the fields that the bounds speak of
  have hrefuse : ¬ (word.length + 1 ≤ 5 ∧ decimal (word ++ [byte]) ≤ 65535) →
      ¬ Accepts (bytes ++ [byte]) := by
    intro hout haccepts
    have hall := haccepts.bounded
    rw [hparameters, fields_snoc, hsnoc] at hall
    obtain ⟨-, -, hlen, hfits⟩ := bounded_snoc.mp hall
    rw [length_append, length_singleton] at hlen
    exact hout ⟨hlen, hfits⟩
  unfold Parser.appendCsiDigit
  rw [hcounted]
  dsimp only
  by_cases hfive : min 255 (word.length + 1) > 5
  · rw [if_pos hfive]
    refine ⟨_, rfl, .inr ⟨hrefuse ?_, h.outside, rfl, rfl⟩⟩
    omega
  · rw [if_neg hfive, sub_eq hge]
    simp only [some_bind]
    by_cases hfits : decimal (word ++ [byte]) ≤ 65535
    · rw [if_pos hfits] at hpush
      obtain ⟨appended, happended, hentries'⟩ := happends _ hpush
      rw [happended]
      refine ⟨_, rfl, .inl ?_⟩
      have hnew : Bounded (front ++ [(last, word ++ [byte])]) := by
        refine bounded_snoc.mpr ⟨hfront, hcount, ?_, hfits⟩
        rw [length_append, length_singleton]
        omega
      have hscanned := h.parameter hbyte htail (by rwa [hsnoc])
        (show appended.entries = _ by rw [hsnoc, hentries', map_append]; rfl)
        (show ∀ front last word', _ = _ → word.length + 1 = _ by
          intro front' last' word' heq
          rw [hsnoc] at heq
          obtain ⟨-, hpair⟩ := append_inj' heq rfl
          rw [singleton_inj, Prod.mk.injEq] at hpair
          rw [← hpair.2, length_append, length_singleton])
      rwa [show min 255 (word.length + 1) = word.length + 1 by omega]
    · rw [if_neg hfits] at hpush
      rw [hfails hpush]
      exact ⟨_, rfl, .inr ⟨hrefuse fun hboth => hfits hboth.2, h.outside, rfl, rfl⟩⟩

theorem appendSeparator_opened (next : ParameterSeparator)
    (hopened : (if parameters.isEmpty then parameters.begin .start else some parameters) = some opened) :
    parameters.appendSeparator next = opened.begin next := by
  unfold CsiParameters.appendSeparator
  by_cases hempty : parameters.isEmpty = true
  · rw [if_pos hempty] at hopened
    simp only [hempty, if_true, hopened, some_bind]
  · rw [if_neg hempty] at hopened
    cases hopened
    simp only [hempty, if_false, some_bind, Bool.false_eq_true]

theorem Scanned.separator (h : Scanned base bytes parser)
    (hseparates : Separates byte next) (htail : intermediateBytes bytes = []) :
    ∃ parser', parser.appendCsiSeparator next = (parser', .ignored) ∧
      (Scanned base (bytes ++ [byte]) parser' ∨ Dropped base (bytes ++ [byte]) parser') := by
  have hbyte : isParameterByte byte = true := by
    rcases hseparates with ⟨rfl, -⟩ | ⟨rfl, -⟩ <;> decide
  obtain ⟨hparameters, -⟩ := snoc_parameter (fun _ => not_marker_of_parameter hbyte) hbyte htail
  have hsnoc := fieldsFrom_snoc_separator hseparates .start (parameterBytes bytes)
  obtain ⟨opened, hopened, hentries⟩ := h.opened
  have hbounded := h.bounded
  have hlen : opened.entries.length = (fieldsFrom .start (parameterBytes bytes)).length := by
    rw [hentries, length_map]
  have happend := appendSeparator_opened next hopened
  unfold Parser.appendCsiSeparator
  rw [happend]
  by_cases hfull : opened.entries.length = maxCsiParameters
  · rw [CsiParameters.begin, dif_pos hfull]
    refine ⟨_, rfl, .inr (h.ignore fun haccepts => ?_)⟩
    have hcount := haccepts.bounded.count
    rw [hparameters, fields_snoc, hsnoc, length_append, length_singleton] at hcount
    omega
  · rw [CsiParameters.begin, dif_neg hfull]
    have hcount := hbounded.count
    refine ⟨_, rfl, .inl (h.parameter hbyte htail ?_ ?_ ?_)⟩
    · rw [hsnoc]
      exact bounded_snoc.mpr ⟨hbounded, by omega, Nat.zero_le _, Nat.zero_le _⟩
    · simp only [hsnoc, map_append, hentries]
      rfl
    · intro front last word heq
      rw [hsnoc] at heq
      obtain ⟨-, hpair⟩ := append_inj' heq rfl
      rw [singleton_inj, Prod.mk.injEq] at hpair
      rw [← hpair.2]
      rfl

theorem not_accepts_tail (hmarker : bytes = [] → byte ≠ 0x3f ∧ byte ≠ 0x3e)
    (hbyte : isParameterByte byte = false ∨ intermediateBytes bytes ≠ [])
    (hno : isIntermediateByte byte = false) : ¬ Accepts (bytes ++ [byte]) := by
  intro haccepts
  obtain ⟨-, htail⟩ := snoc_tail hmarker hbyte
  have horder := haccepts.order byte
  rw [htail] at horder
  have := horder (mem_append_right _ (mem_singleton_self byte))
  rw [hno] at this
  cases this

theorem not_parameter_of_intermediate (h : isIntermediateByte byte = true) :
    isParameterByte byte = false := by
  simp only [isIntermediateByte, inRange, Bool.and_eq_true, decide_eq_true_eq,
    UInt8.le_iff_toNat_le, UInt8.reduceToNat] at h
  have hsemicolon : byte ≠ 0x3b := by
    rintro rfl
    exact absurd h.2 (by decide)
  have hcolon : byte ≠ 0x3a := by
    rintro rfl
    exact absurd h.2 (by decide)
  simp only [isParameterByte, isDigit, inRange, Bool.or_eq_false_iff, Bool.and_eq_false_imp,
    decide_eq_true_eq, decide_eq_false_iff_not, UInt8.le_iff_toNat_le, UInt8.reduceToNat, beq_eq_false_iff_ne]
  exact ⟨⟨fun _ => by omega, hsemicolon⟩, hcolon⟩

theorem Scanned.intermediate (h : Scanned base bytes parser) (hbyte : isIntermediateByte byte = true) :
    ∃ parser', parser.appendCsiIntermediate byte = some (parser', .ignored) ∧
      (Scanned base (bytes ++ [byte]) parser' ∨ Dropped base (bytes ++ [byte]) parser') := by
  have hmarker : bytes = [] → byte ≠ 0x3f ∧ byte ≠ 0x3e := by
    refine fun _ => ⟨?_, ?_⟩ <;> rintro rfl <;> exact absurd hbyte (by decide)
  obtain ⟨hparameters, htail⟩ := snoc_tail hmarker (.inl (not_parameter_of_intermediate hbyte))
  have hcount := h.count
  have hle := h.accepts.intermediates
  have hstored := h.stored
  unfold Parser.appendCsiIntermediate
  by_cases hfull : parser.intermediateLength = maxCsiIntermediates
  · rw [if_pos hfull]
    refine ⟨_, rfl, .inr (h.ignore fun haccepts => ?_)⟩
    have := haccepts.intermediates
    rw [htail, length_append, length_singleton] at this
    omega
  · have hlt : parser.intermediateLength < parser.intermediates.length := by omega
    have hfits : parser.intermediateLength + [byte].length ≤ parser.intermediates.length := by
      rw [length_singleton]
      omega
    rw [if_neg hfull, setAt_eq hlt]
    refine ⟨_, rfl, .inl ⟨accepts_of_bounded ?_ ?_ ?_, h.outside, ?_, ?_, ?_, ?_, ?_, ?_, ?_, ?_⟩⟩
    · rw [hparameters]
      exact h.accepts.bounded
    · rw [htail]
      simp only [mem_append, mem_singleton]
      rintro other (hother | rfl)
      · exact h.accepts.order other hother
      · exact hbyte
    · rw [htail, length_append, length_singleton]
      omega
    · rw [stateAfter, htail, if_pos (by simp)]
    · rw [marker_snoc hmarker]
      exact h.private
    · rw [marker_snoc hmarker]
      exact h.secondary
    · rw [hparameters]
      exact h.entries
    · rw [hparameters]
      exact h.digits
    · exact (length_splice hfits).trans hstored
    · rw [htail, length_append, length_singleton, ← hcount]
    · rw [htail, ← h.intermediates]
      exact take_splice_succ hlt byte

/-! ## Runs -/

def Scans (base : Parser) (bytes : List UInt8) (parser : Parser) : Prop :=
  Scanned base bytes parser ∨ Dropped base bytes parser

/-- The marker of an empty sequence. -/
theorem Scanned.takeMarker (h : Scanned base [] parser)
    (hsplit : ∃ found, splitMarker [byte] = (found, []) ∧ parser' =
      { parser with
        «private» := found == Marker.private
        secondary := found == Marker.secondary }) :
    Scanned base ([] ++ [byte]) parser' := by
  obtain ⟨found, hsplit, rfl⟩ := hsplit
  have hparameters : parameterBytes [byte] = [] := by rw [parameterBytes, hsplit]; rfl
  have htail : intermediateBytes [byte] = [] := by rw [intermediateBytes, hsplit]; rfl
  have hmarker : Csi.marker [byte] = found := by rw [Csi.marker, hsplit]
  rw [nil_append]
  refine ⟨accepts_of_bounded ?_ ?_ ?_, h.outside, ?_, ?_, ?_, ?_, ?_, h.stored, ?_, ?_⟩
  · rw [hparameters]
    exact bounded_nil
  · rw [htail]
    exact fun _ hother => absurd hother not_mem_nil
  · rw [htail]
    exact Nat.zero_le _
  · rw [stateAfter, hparameters, htail]
    exact h.state
  · rw [hmarker]
  · rw [hmarker]
  · rw [hparameters]
    exact h.entries
  · rw [hparameters]
    exact h.digits
  · rw [htail]
    exact h.count
  · rw [htail]
    exact h.intermediates

theorem Scanned.tail (h : Scanned base bytes parser) (hfinal : isFinalByte byte = false)
    (hmarker : bytes = [] → byte ≠ 0x3f ∧ byte ≠ 0x3e)
    (hbyte : isParameterByte byte = false ∨ intermediateBytes bytes ≠ []) :
    ∃ parser', parser.advanceCsiIntermediate byte = some (parser', .ignored) ∧
      Scans base (bytes ++ [byte]) parser' := by
  unfold Parser.advanceCsiIntermediate
  by_cases hintermediate : isIntermediateByte byte = true
  · rw [if_pos (show inRange 0x20 0x2f byte = true from hintermediate)]
    exact h.intermediate hintermediate
  · rw [if_neg (show ¬ inRange 0x20 0x2f byte = true from hintermediate),
      if_neg (show ¬ inRange 0x40 0x7e byte = true from Bool.eq_false_iff.mp hfinal)]
    exact ⟨_, rfl, .inr (h.ignore (not_accepts_tail hmarker hbyte (Bool.eq_false_iff.mpr hintermediate)))⟩

theorem Scanned.param (h : Scanned base bytes parser) (hfinal : isFinalByte byte = false)
    (hmarker : bytes = [] → byte ≠ 0x3f ∧ byte ≠ 0x3e) (htail : intermediateBytes bytes = []) :
    ∃ parser', parser.advanceCsiParam byte = some (parser', .ignored) ∧
      Scans base (bytes ++ [byte]) parser' := by
  unfold Parser.advanceCsiParam
  by_cases hdigit : isDigit byte = true
  · rw [if_pos hdigit]
    exact h.digit hdigit htail
  rw [if_neg hdigit]
  by_cases hsemicolon : byte = 0x3b
  · rw [if_pos hsemicolon]
    obtain ⟨parser', hadvance, hscans⟩ := h.separator (.inl ⟨hsemicolon, rfl⟩) htail
    exact ⟨parser', by rw [hadvance], hscans⟩
  rw [if_neg hsemicolon]
  by_cases hcolon : byte = 0x3a
  · rw [if_pos hcolon]
    obtain ⟨parser', hadvance, hscans⟩ := h.separator (.inr ⟨hcolon, rfl⟩) htail
    exact ⟨parser', by rw [hadvance], hscans⟩
  rw [if_neg hcolon]
  refine h.tail hfinal hmarker (.inl ?_)
  simp [isParameterByte, hdigit, hsemicolon, hcolon]

/-- A byte right behind `ESC [` and the marker. -/
theorem Scanned.entry (h : Scanned base bytes parser) (hfinal : isFinalByte byte = false)
    (hparameters : parameterBytes bytes = []) (htail : intermediateBytes bytes = []) :
    ∃ parser', parser.advanceCsiEntry byte = some (parser', .ignored) ∧
      Scans base (bytes ++ [byte]) parser' := by
  have hrest : (splitMarker bytes).2 = [] := by
    have happend := @takeWhile_append_dropWhile _ isParameterByte (splitMarker bytes).2
    rw [← parameterBytes, ← intermediateBytes, hparameters, htail] at happend
    exact happend.symm
  have hempty : parser.parameters.isEmpty = true := by
    rw [CsiParameters.isEmpty, h.entries, hparameters]
    rfl
  unfold Parser.advanceCsiEntry
  rw [h.private, h.secondary, hempty]
  cases bytes with
  | nil =>
    by_cases hprivate : byte = 0x3f
    · rw [if_pos ⟨hprivate, rfl, rfl, rfl⟩]
      refine ⟨_, rfl, .inl (h.takeMarker ⟨.private, ?_, ?_⟩)⟩
      · rw [splitMarker, if_pos hprivate]
      · rfl
    rw [if_neg (fun hall => hprivate hall.1)]
    by_cases hsecondary : byte = 0x3e
    · rw [if_pos ⟨hsecondary, rfl, rfl, rfl⟩]
      refine ⟨_, rfl, .inl (h.takeMarker ⟨.secondary, ?_, ?_⟩)⟩
      · rw [splitMarker, if_neg hprivate, if_pos hsecondary]
      · rfl
    rw [if_neg (fun hall => hsecondary hall.1)]
    exact h.param hfinal (fun _ => ⟨hprivate, hsecondary⟩) htail
  | cons head rest =>
    -- a string that is only a marker does not take another one
    have hmarked : Csi.marker (head :: rest) = .private ∨ Csi.marker (head :: rest) = .secondary := by
      simp only [Csi.marker, splitMarker] at hrest ⊢
      by_cases hprivate : head = 0x3f
      · rw [if_pos hprivate]
        exact .inl rfl
      rw [if_neg hprivate] at hrest ⊢
      by_cases hsecondary : head = 0x3e
      · rw [if_pos hsecondary]
        exact .inr rfl
      rw [if_neg hsecondary] at hrest
      cases hrest
    have hno : ∀ c : Prop, ¬ (c ∧ (!(Csi.marker (head :: rest) == Marker.private)) = true ∧
        (!(Csi.marker (head :: rest) == Marker.secondary)) = true ∧ true = true) := by
      rintro c ⟨-, hprivate, hsecondary, -⟩
      rcases hmarked with hmarked | hmarked
      · rw [hmarked] at hprivate
        cases hprivate
      · rw [hmarked] at hsecondary
        cases hsecondary
    rw [if_neg (hno _), if_neg (hno _)]
    exact h.param hfinal nofun htail

variable [Platform]

theorem Scans.advance (h : Scans base bytes parser) (hpassive : Passive byte)
    (hfinal : isFinalByte byte = false) :
    ∃ parser', parser.advance byte = some (parser', .ignored) ∧ Scans base (bytes ++ [byte]) parser' := by
  obtain ⟨hentry, hparam, hintermediate⟩ := hpassive.advance parser
  rcases h with h | h
  · by_cases htail : intermediateBytes bytes = []
    · by_cases hparameters : parameterBytes bytes = []
      · rw [hentry (by rw [h.state, stateAfter, htail, hparameters]; rfl)]
        exact h.entry hfinal hparameters htail
      · have hmarker : bytes = [] → byte ≠ 0x3f ∧ byte ≠ 0x3e := by
          rintro rfl
          exact absurd rfl hparameters
        rw [hparam (by rw [h.state, stateAfter, htail, if_neg (by simp), if_pos hparameters])]
        exact h.param hfinal hmarker htail
    · have hmarker : bytes = [] → byte ≠ 0x3f ∧ byte ≠ 0x3e := by
        rintro rfl
        exact absurd rfl htail
      rw [hintermediate (by rw [h.state, stateAfter, if_pos htail])]
      exact h.tail hfinal hmarker (.inr htail)
  · obtain ⟨hcan, hsub⟩ := hpassive.cancel
    obtain ⟨hso, hsi⟩ := hpassive.shifts
    have hskip : parser.advance byte = some (parser, .ignored) := by
      have hrange : inRange 0x40 0x7e byte = false := hfinal
      simp [Parser.advance, h.state, hcan, hsub, hpassive.escape, hso, hsi, hpassive.control, hrange]
    exact ⟨parser, hskip, .inr ⟨fun haccepts => h.refuses haccepts.of_snoc, h.outside, h.state, h.cleared⟩⟩

omit [Platform] in
theorem clear_eq (h : parser'.outside = base.outside)
    (hstate : parser'.state = .ground) (hcleared : parser'.clearCsi = parser') :
    parser' = { base.clearCsi with state := .ground, intermediates := parser'.intermediates } := by
  have hrestore : parser' = { parser'.outside with intermediates := parser'.intermediates } := by
    calc parser' = parser'.clearCsi := hcleared.symm
      _ = { parser'.clearCsi with state := parser'.state, intermediates := parser'.intermediates } := rfl
      _ = { parser'.outside with intermediates := parser'.intermediates } := by rw [hstate]; rfl
  rw [h] at hrestore
  exact hrestore

omit [Platform] in
theorem Scanned.completed (h : Scanned base bytes parser) (finalByte : UInt8) :
    parser.completedOperation finalByte = some (operation bytes parser.parameters finalByte) := by
  have hcount := h.count
  have hstored := h.intermediates
  unfold Parser.completedOperation operation
  cases htail : intermediateBytes bytes with
  | nil =>
    rw [htail, length_nil] at hcount
    rw [if_neg (by rw [hcount]; simp), h.private, h.secondary]
    cases marker bytes with
    | none => split <;> rfl
    | «private» => split <;> rfl
    | secondary => split <;> rfl
  | cons intermediate rest =>
    rw [htail, length_cons] at hcount
    have hfirst : parser.intermediates[0]? = some intermediate := by
      rw [htail] at hstored
      have hget := congrArg (·[0]?) hstored
      rwa [getElem?_take_of_lt (by omega)] at hget
    rw [if_pos (by omega), hfirst, h.private, hcount]
    rfl

/-- Operations that carry no parameters but these, and print nothing. -/
def Carries (parameters : CsiParameters) (operation : TerminalOp) : Prop :=
  (∀ carried, operation.parameters = some carried → carried = parameters) ∧
    ∀ character, operation ≠ .print character

section

omit [Platform]

theorem Carries.ite {c : Prop} [Decidable c] {yes no : TerminalOp}
    (hyes : Carries parameters yes) (hno : Carries parameters no) :
    Carries parameters (if c then yes else no) := by
  split
  · exact hyes
  · exact hno

theorem intermediateOperation_carries («private» : Bool) (count : Nat) (intermediate finalByte : UInt8)
    (parameters : CsiParameters) :
    Carries parameters (intermediateOperation «private» count intermediate finalByte parameters) := by
  unfold intermediateOperation
  repeat' apply Carries.ite
  all_goals exact ⟨(fun carried h => by cases h <;> rfl), nofun⟩

variable (finalByte : UInt8)

theorem privateOperation_carries (parameters : CsiParameters) :
    Carries parameters (privateOperation finalByte parameters) := by
  unfold privateOperation
  repeat' apply Carries.ite
  all_goals exact ⟨(fun carried h => by cases h <;> rfl), nofun⟩

theorem csiOperation_carries (parameters : CsiParameters) :
    Carries parameters (csiOperation finalByte parameters) := by
  unfold csiOperation
  repeat' apply Carries.ite
  all_goals exact ⟨(fun carried h => by cases h <;> rfl), nofun⟩

theorem ignored_carries (parameters : CsiParameters) : Carries parameters .ignored :=
  ⟨nofun, nofun⟩

theorem operation_carries (bytes : List UInt8) (parameters : CsiParameters) (finalByte : UInt8) :
    Carries parameters (operation bytes parameters finalByte) := by
  unfold operation
  split
  · exact intermediateOperation_carries _ _ _ _ _
  · refine .ite (ignored_carries parameters) ?_
    split
    · exact privateOperation_carries _ _
    · exact .ite ⟨nofun, nofun⟩ (ignored_carries parameters)
    · exact csiOperation_carries _ _

theorem isFinalByte_ne (hfinal : isFinalByte byte = true) :
    0x40 ≤ byte.toNat ∧ ∀ n : UInt8, n.toNat < 0x40 → byte ≠ n := by
  simp only [isFinalByte, inRange, Bool.and_eq_true, decide_eq_true_eq] at hfinal
  have hlow : 0x40 ≤ byte.toNat := UInt8.le_iff_toNat_le.mp hfinal.1
  refine ⟨hlow, ?_⟩
  rintro n hn rfl
  omega

theorem completes_final (parser : Parser) (hfinal : isFinalByte byte = true) :
    parser.advanceCsiIntermediate byte = parser.completeCsi byte ∧
      parser.advanceCsiParam byte = parser.completeCsi byte ∧
      parser.advanceCsiEntry byte = parser.completeCsi byte := by
  have hrange : inRange 0x40 0x7e byte = true := hfinal
  obtain ⟨hlow, hother⟩ := isFinalByte_ne hfinal
  have hlower : ∀ low high : UInt8, high.toNat < 0x40 → inRange low high byte = false := by
    intro low high hhigh
    simp only [inRange, Bool.and_eq_false_imp, decide_eq_true_eq, decide_eq_false_iff_not,
      UInt8.le_iff_toNat_le]
    omega
  have hintermediate : parser.advanceCsiIntermediate byte = parser.completeCsi byte := by
    rw [Parser.advanceCsiIntermediate, hlower 0x20 0x2f (by decide), if_neg (by decide), if_pos hrange]
  have hparam : parser.advanceCsiParam byte = parser.completeCsi byte := by
    rw [Parser.advanceCsiParam, isDigit, hlower 0x30 0x39 (by decide), if_neg (by decide),
      if_neg (hother 0x3b (by decide)), if_neg (hother 0x3a (by decide)), hintermediate]
  refine ⟨hintermediate, hparam, ?_⟩
  rw [Parser.advanceCsiEntry, if_neg (fun h => hother 0x3f (by decide) h.1),
    if_neg (fun h => hother 0x3e (by decide) h.1), hparam]

theorem passive_final (hfinal : isFinalByte byte = true) : Passive byte := by
  have hother := (isFinalByte_ne hfinal).2
  refine ⟨?_, ⟨hother _ (by decide), hother _ (by decide)⟩, hother _ (by decide),
    hother _ (by decide), hother _ (by decide)⟩
  simp [c0Operation, hother]

end

/-- What the final byte gives. -/
theorem Scans.final (h : Scans base bytes parser) (hfinal : isFinalByte byte = true) :
    ∃ parser' result, parser.advance byte = some (parser', result) ∧
      parser' = { base.clearCsi with state := .ground, intermediates := parser'.intermediates } ∧
      (Accepts bytes → ∃ parameters : CsiParameters, parameters.entries = written bytes ∧
        result = operation bytes parameters byte) ∧
      (¬ Accepts bytes → result = .ignored) := by
  have hpassive := passive_final hfinal
  rcases h with h | h
  · obtain ⟨hentry, hparam, hintermediate⟩ := hpassive.advance parser
    obtain ⟨hintermediate', hparam', hentry'⟩ := completes_final parser hfinal
    have hadvance : parser.advance byte = parser.completeCsi byte := by
      have hstate := h.state
      unfold stateAfter at hstate
      split at hstate
      · rw [hintermediate hstate, hintermediate']
      split at hstate
      · rw [hparam hstate, hparam']
      · rw [hentry hstate, hentry']
    have hcomplete : parser.completeCsi byte =
        some ({ parser with state := .ground }.clearCsi, operation bytes parser.parameters byte) := by
      rw [Parser.completeCsi, h.completed byte]
      rfl
    refine ⟨_, _, hadvance.trans hcomplete, clear_eq h.outside rfl rfl, fun _ => ?_, fun hno => ?_⟩
    · exact ⟨parser.parameters, h.entries, rfl⟩
    · exact absurd h.accepts hno
  · obtain ⟨hcan, hsub⟩ := hpassive.cancel
    obtain ⟨hso, hsi⟩ := hpassive.shifts
    have hrange : inRange 0x40 0x7e byte = true := hfinal
    have hskip : parser.advance byte = some ({ parser with state := .ground }.clearCsi, .ignored) := by
      simp [Parser.advance, h.state, hcan, hsub, hpassive.escape, hso, hsi, hpassive.control, hrange]
    refine ⟨_, _, hskip, clear_eq h.outside rfl rfl, fun haccepts => ?_, fun _ => rfl⟩
    exact absurd haccepts h.refuses

theorem Scans.feed (h : Scans base bytes parser)
    (hpassive : ∀ byte ∈ rest, Passive byte) (hinner : ∀ byte ∈ rest, isFinalByte byte = false) :
    ∃ parser', parser.feed rest = some (parser', List.replicate rest.length .ignored) ∧
      Scans base (bytes ++ rest) parser' := by
  induction rest generalizing bytes parser with
  | nil => exact ⟨parser, rfl, by rwa [append_nil]⟩
  | cons byte rest ih =>
    obtain ⟨middle, hadvance, hmiddle⟩ :=
      h.advance (hpassive byte mem_cons_self) (hinner byte mem_cons_self)
    obtain ⟨parser', hfeed, hscans⟩ := ih hmiddle
      (fun other hother => hpassive other (mem_cons_of_mem byte hother))
      (fun other hother => hinner other (mem_cons_of_mem byte hother))
    refine ⟨parser', ?_, ?_⟩
    · rw [Parser.feed, hadvance]
      simp only [some_bind, hfeed]
      rfl
    · rwa [← append_cons] at hscans

theorem feed_append {middle : Parser} {front back : List UInt8}
    {operations more : List TerminalOp} (h : parser.feed front = some (middle, operations))
    (hback : middle.feed back = some (parser', more)) :
    parser.feed (front ++ back) = some (parser', operations ++ more) := by
  induction front generalizing parser operations with
  | nil =>
    cases h
    exact hback
  | cons byte front ih =>
    obtain ⟨⟨next, operation⟩, hadvance, hrest⟩ := bind_eq_some_iff.mp h
    obtain ⟨⟨last, rest⟩, hfront, hpair⟩ := bind_eq_some_iff.mp hrest
    cases hpair
    rw [cons_append, Parser.feed, hadvance]
    simp only [some_bind, ih hfront]
    rfl

theorem feed_introducer (hground : parser.state = .ground)
    (hstored : parser.intermediates.length = maxCsiIntermediates) :
    ∃ parser', parser.feed [0x1b, 0x5b] = some (parser', [.ignored, .ignored]) ∧
      Scans parser [] parser' := by
  let escaped : Parser := { parser with state := .escape }.clearCsi
  have hescape : parser.advance 0x1b = some (escaped, .ignored) := by
    simp [Parser.advance, hground, escaped]
  have hbracket : escaped.advance 0x5b = some ({ escaped.clearCsi with state := .csiEntry }, .ignored) := by
    simp [Parser.advance, escaped, Parser.clearCsi, c0Operation, Parser.advanceEscape, escapeOperation]
  refine ⟨{ escaped.clearCsi with state := .csiEntry }, ?_, .inl ⟨accepts_nil, rfl, rfl, rfl, rfl, rfl, ?_,
    hstored, rfl, rfl⟩⟩
  · rw [Parser.feed, hescape]
    simp only [some_bind, Parser.feed, hbracket]
  · intro front last word heq
    have heq : [] ++ [(ParameterSeparator.start, [])] = front ++ [(last, word)] := heq
    obtain ⟨-, hpair⟩ := append_inj' heq rfl
    rw [singleton_inj, Prod.mk.injEq] at hpair
    rw [← hpair.2]
    rfl

/-- A control sequence from the ground state, with any bytes up to its final byte that no other state
of the parser looks at. Only the final byte gives an operation; it is the one the bytes write where
the grammar accepts them, carries their parameters and prints nothing, and there is none where the
grammar does not accept them. The parser is back in its ground state with nothing of the sequence. The
array of the intermediates has two places. -/
theorem csi_follows_grammar (hground : parser.state = .ground)
    (hstored : parser.intermediates.length = maxCsiIntermediates) {bytes : List UInt8} {finalByte : UInt8}
    (hpassive : ∀ byte ∈ bytes, Passive byte) (hinner : ∀ byte ∈ bytes, isFinalByte byte = false)
    (hfinal : isFinalByte finalByte = true) :
    ∃ parser' result,
      parser.feed (0x1b :: 0x5b :: (bytes ++ [finalByte])) =
        some (parser', List.replicate (bytes.length + 2) .ignored ++ [result]) ∧
      parser' = { parser.clearCsi with state := .ground, intermediates := parser'.intermediates } ∧
      (Accepts bytes → ∃ parameters : CsiParameters, parameters.entries = written bytes ∧
        result = operation bytes parameters finalByte) ∧
      (¬ Accepts bytes → result = .ignored) ∧
      (∀ carried, result.parameters = some carried → carried.entries = written bytes) ∧
      ∀ character, result ≠ .print character := by
  obtain ⟨opened, hopen, hscans⟩ := feed_introducer hground hstored
  obtain ⟨middle, hfeed, hmiddle⟩ := hscans.feed hpassive hinner
  rw [nil_append] at hmiddle
  obtain ⟨parser', result, hadvance, hleft, hyes, hno⟩ := hmiddle.final hfinal
  have hlast : middle.feed [finalByte] = some (parser', [result]) := by
    rw [Parser.feed, hadvance]
    rfl
  refine ⟨parser', result, ?_, hleft, hyes, hno, ?_, ?_⟩
  · have hall := feed_append hopen (feed_append hfeed hlast)
    rw [show bytes.length + 2 = 2 + bytes.length by omega, replicate_add, append_assoc]
    exact hall
  · intro carried hcarried
    by_cases haccepts : Accepts bytes
    · obtain ⟨parameters, hwritten, rfl⟩ := hyes haccepts
      rw [(operation_carries bytes parameters finalByte).1 carried hcarried, hwritten]
    · rw [hno haccepts] at hcarried
      cases hcarried
  · intro character
    by_cases haccepts : Accepts bytes
    · obtain ⟨parameters, -, rfl⟩ := hyes haccepts
      exact (operation_carries bytes parameters finalByte).2 character
    · rw [hno haccepts]
      exact nofun

omit [Platform] in
/-- A private mode set with two parameters. -/
theorem csi_follows_grammar_mode :
    letI := Platform.reference
    ∃ parser' parameters,
      Parser.new.feed [0x1b, 0x5b, 0x3f, 0x37, 0x3b, 0x32, 0x35, 0x68] =
        some (parser', List.replicate 7 .ignored ++ [.setModes true true parameters]) ∧
      parameters.entries = [(7, .start), (25, .semicolon)] := by
  let _ := Platform.reference
  have hpassive : ∀ byte ∈ ([0x3f, 0x37, 0x3b, 0x32, 0x35] : List UInt8), Passive byte := by
    decide +kernel
  have hinner : ∀ byte ∈ ([0x3f, 0x37, 0x3b, 0x32, 0x35] : List UInt8), isFinalByte byte = false := by
    decide +kernel
  obtain ⟨parser', result, hfeed, -, hyes, -⟩ :=
    csi_follows_grammar (show Parser.new.state = .ground from rfl) rfl hpassive hinner
      (show isFinalByte 0x68 = true by decide)
  obtain ⟨parameters, hwritten, rfl⟩ := hyes
    ⟨by decide +kernel, by decide +kernel, by decide +kernel, by decide +kernel, by decide +kernel⟩
  have hcolon : parameters.hasColon = false := by
    rw [CsiParameters.hasColon, hwritten]
    decide
  have hoperation : operation [0x3f, 0x37, 0x3b, 0x32, 0x35] parameters 0x68 =
      .setModes true true parameters := by
    have htail : intermediateBytes [0x3f, 0x37, 0x3b, 0x32, 0x35] = [] := by decide
    have hmarker : marker [0x3f, 0x37, 0x3b, 0x32, 0x35] = .private := by decide
    simp [operation, htail, hmarker, hcolon, privateOperation]
  rw [hoperation] at hfeed
  exact ⟨parser', parameters, hfeed, hwritten⟩

end Parser

end FesTerm
