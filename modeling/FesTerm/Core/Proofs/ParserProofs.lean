import FesTerm.Core.Parser

/-!
# The parser and the decoder between bytes

Every byte leads the parser from a well-formed state to a well-formed one, and so it does the UTF-8
decoder. Both are accepted by their recovery validators: the bounds that are enforced when bytes are
stored are the ones that are checked.
-/

namespace FesTerm

open Checked List Option

/-- A string state counts at least the bytes that are buffered for it. -/
def ParserState.Ok (payload : Nat) : ParserState → Prop
  | .string _ bytes | .stringEscape _ bytes => bytes < maxStringBytes ∧ payload ≤ bytes
  | _ => True

namespace Parser

structure Ok (parser : Parser) : Prop where
  digits : parser.parameterDigits ≤ 5
  intermediates : parser.intermediates.length = maxCsiIntermediates
  intermediateLength : parser.intermediateLength ≤ maxCsiIntermediates
  payload : parser.stringPayload.length ≤ maxStringBytes
  state : parser.state.Ok parser.stringPayload.length

theorem ok_new : new.Ok where
  digits := Nat.zero_le _
  intermediates := rfl
  intermediateLength := Nat.zero_le _
  payload := Nat.zero_le _
  state := trivial

variable {parser : Parser}

theorem Ok.withState (h : parser.Ok) (state : ParserState)
    (hs : state.Ok parser.stringPayload.length) : ({ parser with state := state } : Parser).Ok :=
  ⟨h.digits, h.intermediates, h.intermediateLength, h.payload, hs⟩

theorem Ok.clearCsi (h : parser.Ok) : parser.clearCsi.Ok :=
  ⟨Nat.zero_le _, h.intermediates, Nat.zero_le _, h.payload, h.state⟩

theorem Ok.ignoreCsi (h : parser.Ok) : parser.ignoreCsi.1.Ok := (h.withState .csiIgnore trivial).clearCsi

theorem Ok.startString (h : parser.Ok) (kind : StringKind) : (parser.startString kind).Ok :=
  ⟨h.digits, h.intermediates, h.intermediateLength, Nat.zero_le _, show 0 < maxStringBytes ∧ 0 ≤ 0 by decide⟩

theorem Ok.advanceEscape (h : parser.Ok) (byte : UInt8) : (parser.advanceEscape byte).1.Ok := by
  unfold Parser.advanceEscape
  dsimp only
  split
  · exact h.clearCsi.withState _ trivial
  split
  · exact h.startString _
  split
  · exact h.startString _
  split
  · exact h.startString _
  split
  · exact h.withState _ trivial
  split
  · exact h.withState _ trivial
  split
  · exact h.withState _ trivial
  · exact h.withState _ trivial

theorem Ok.appendCsiDigit (h : parser.Ok) {byte : UInt8} (hb : isDigit byte = true) :
    ∃ parser' op, parser.appendCsiDigit byte = some (parser', op) ∧ parser'.Ok := by
  have hge : 0x30 ≤ byte.toNat := by
    simp only [isDigit, inRange, Bool.and_eq_true, decide_eq_true_eq] at hb
    exact UInt8.le_iff_toNat_le.mp hb.1
  unfold Parser.appendCsiDigit
  dsimp only
  split
  · refine ⟨_, _, rfl, ?_⟩
    exact ⟨Nat.zero_le _, h.intermediates, Nat.zero_le _, h.payload, trivial⟩
  · rename_i hdigits
    rw [sub_eq hge]
    simp only [some_bind]
    split
    · refine ⟨_, _, rfl, ?_⟩
      exact ⟨Nat.zero_le _, h.intermediates, Nat.zero_le _, h.payload, trivial⟩
    · refine ⟨_, _, rfl, ?_⟩
      exact ⟨by simp only; omega, h.intermediates, h.intermediateLength, h.payload, trivial⟩

theorem Ok.appendCsiSeparator (h : parser.Ok) (separator : ParameterSeparator) :
    (parser.appendCsiSeparator separator).1.Ok := by
  unfold Parser.appendCsiSeparator
  split
  · exact h.ignoreCsi
  · exact ⟨Nat.zero_le _, h.intermediates, h.intermediateLength, h.payload, trivial⟩

theorem Ok.appendCsiIntermediate (h : parser.Ok) (byte : UInt8) :
    ∃ parser' op, parser.appendCsiIntermediate byte = some (parser', op) ∧ parser'.Ok := by
  unfold Parser.appendCsiIntermediate
  split
  · exact ⟨_, _, rfl, h.ignoreCsi⟩
  · rename_i hlen
    have hle := h.intermediateLength
    have hlt : parser.intermediateLength < parser.intermediates.length := by
      rw [h.intermediates]; omega
    rw [setAt_eq hlt]
    refine ⟨_, _, rfl, h.digits, ?_, ?_, h.payload, trivial⟩
    · rw [← h.intermediates]
      exact length_splice (by simp only [length_singleton]; omega)
    · simp only
      omega

theorem Ok.completeCsi (h : parser.Ok) (byte : UInt8) :
    ∃ parser' op, parser.completeCsi byte = some (parser', op) ∧ parser'.Ok := by
  have hop : ∃ op, parser.completedOperation byte = some op := by
    unfold Parser.completedOperation
    split
    · obtain ⟨intermediate, hget⟩ : ∃ intermediate, parser.intermediates[0]? = some intermediate :=
        ⟨_, getElem?_eq_getElem (by rw [h.intermediates]; decide)⟩
      rw [hget]
      exact ⟨_, rfl⟩
    split
    · exact ⟨_, rfl⟩
    split
    · exact ⟨_, rfl⟩
    split
    · exact ⟨_, rfl⟩
    · exact ⟨_, rfl⟩
  obtain ⟨op, hop⟩ := hop
  refine ⟨_, op, ?_, (h.withState .ground trivial).clearCsi⟩
  unfold Parser.completeCsi
  rw [hop]
  rfl

theorem Ok.advanceCsiIntermediate (h : parser.Ok) (byte : UInt8) :
    ∃ parser' op, parser.advanceCsiIntermediate byte = some (parser', op) ∧ parser'.Ok := by
  unfold Parser.advanceCsiIntermediate
  split
  · exact h.appendCsiIntermediate byte
  split
  · exact h.completeCsi byte
  · exact ⟨_, _, rfl, h.ignoreCsi⟩

theorem Ok.advanceCsiParam (h : parser.Ok) (byte : UInt8) :
    ∃ parser' op, parser.advanceCsiParam byte = some (parser', op) ∧ parser'.Ok := by
  unfold Parser.advanceCsiParam
  split
  · exact h.appendCsiDigit ‹_›
  split
  · exact ⟨_, _, rfl, h.appendCsiSeparator _⟩
  split
  · exact ⟨_, _, rfl, h.appendCsiSeparator _⟩
  · exact h.advanceCsiIntermediate byte

theorem Ok.advanceCsiEntry (h : parser.Ok) (byte : UInt8) :
    ∃ parser' op, parser.advanceCsiEntry byte = some (parser', op) ∧ parser'.Ok := by
  unfold Parser.advanceCsiEntry
  split
  · exact ⟨_, _, rfl, h.digits, h.intermediates, h.intermediateLength, h.payload, h.state⟩
  split
  · exact ⟨_, _, rfl, h.digits, h.intermediates, h.intermediateLength, h.payload, h.state⟩
  · exact h.advanceCsiParam byte

theorem Ok.advanceStringPayload (h : parser.Ok) {kind : StringKind} {bytes : Nat} (byte : UInt8)
    (hs : bytes < maxStringBytes ∧ parser.stringPayload.length ≤ bytes) :
    (parser.advanceStringPayload kind bytes [byte]).Ok := by
  have hmax : maxStringBytes < usizeMax := by decide
  unfold Parser.advanceStringPayload
  rw [if_neg (by simp only [length_singleton]; omega)]
  simp only [length_singleton]
  have hstate : ∀ n, n ≤ bytes + 1 →
      ParserState.Ok n (if bytes + 1 ≥ maxStringBytes then .ground else .string kind (bytes + 1)) := by
    intro n hn
    split
    · trivial
    · exact ⟨by omega, hn⟩
  by_cases hk : kind = .osc ∨ kind = .dcs
  · simp only [if_pos hk]
    refine ⟨h.digits, h.intermediates, h.intermediateLength, ?_, hstate _ ?_⟩
    · simp only [length_append, length_singleton]; omega
    · simp only [length_append, length_singleton]; omega
  · simp only [if_neg hk]
    exact ⟨h.digits, h.intermediates, h.intermediateLength, h.payload, hstate _ (Nat.le_succ_of_le hs.2)⟩

variable [Platform]

theorem Ok.finishString (h : parser.Ok) (hs : parser.state = .ground) (kind : StringKind)
    (terminator : StringTerminator) : (parser.finishString kind terminator).1.Ok := by
  cases kind <;>
    exact ⟨h.digits, h.intermediates, h.intermediateLength, Nat.zero_le _, by
      simp only [Parser.finishString, hs]; trivial⟩

theorem Ok.advanceString (h : parser.Ok) (byte : UInt8)
    (hs : ∃ kind bytes, parser.state = .string kind bytes ∨ parser.state = .stringEscape kind bytes) :
    ∃ parser' op, parser.advanceString byte = some (parser', op) ∧ parser'.Ok := by
  have habandon : parser.abandonString.Ok :=
    ⟨Nat.zero_le _, h.intermediates, Nat.zero_le _, Nat.zero_le _, trivial⟩
  have hground := h.withState .ground trivial
  have hstate := h.state
  unfold Parser.advanceString
  obtain ⟨kind, bytes, hs | hs⟩ := hs
  · rw [hs] at hstate ⊢
    dsimp only
    split
    · exact ⟨_, _, rfl, hground.finishString rfl kind .bell⟩
    split
    · exact ⟨_, _, rfl, h.withState _ hstate⟩
    · exact ⟨_, _, rfl, h.advanceStringPayload byte hstate⟩
  · rw [hs]
    dsimp only
    split
    · exact ⟨_, _, rfl, hground.finishString rfl kind .string⟩
    split
    · exact ⟨_, _, rfl, habandon⟩
    · exact ⟨_, _, rfl, habandon.advanceEscape byte⟩

/-- `Parser::advance` never stops, and leads from well-formed states to well-formed ones. -/
theorem Ok.advance (h : parser.Ok) (byte : UInt8) :
    ∃ parser' op, parser.advance byte = some (parser', op) ∧ parser'.Ok := by
  have hground := h.withState .ground trivial
  unfold Parser.advance
  split
  · exact ⟨_, _, rfl, hground.clearCsi⟩
  split
  · split
    · exact ⟨_, _, rfl, h⟩
    · exact h.advanceString byte ⟨_, _, .inl ‹_›⟩
  · split
    · exact ⟨_, _, rfl, h⟩
    · exact h.advanceString byte ⟨_, _, .inr ‹_›⟩
  · split
    · exact ⟨_, _, rfl, (h.withState .escape trivial).clearCsi⟩
    split
    · exact ⟨_, _, rfl, h.digits, h.intermediates, h.intermediateLength, h.payload, h.state⟩
    split
    · exact ⟨_, _, rfl, h.digits, h.intermediates, h.intermediateLength, h.payload, h.state⟩
    split
    · exact ⟨_, _, rfl, h⟩
    cases hstate : parser.state with
    | ground => exact ⟨_, _, rfl, h⟩
    | escape => exact ⟨_, _, rfl, h.advanceEscape byte⟩
    | escapeIntermediate intermediate => exact ⟨_, _, rfl, hground⟩
    | charsetDesignate slot =>
      refine ⟨_, _, rfl, ?_⟩
      cases slot <;>
        exact ⟨h.digits, h.intermediates, h.intermediateLength, h.payload, trivial⟩
    | csiEntry => exact h.advanceCsiEntry byte
    | csiParam => exact h.advanceCsiParam byte
    | csiIntermediate => exact h.advanceCsiIntermediate byte
    | csiIgnore =>
      dsimp only
      split
      · exact ⟨_, _, rfl, hground.clearCsi⟩
      · exact ⟨_, _, rfl, h⟩
    | string kind bytes | stringEscape kind bytes => simp_all

omit [Platform] in
theorem Ok.validate (h : parser.Ok) : parser.validateRecoveryState = .ok () := by
  have hparams : parser.parameters.validateRecoveryState = .ok () := by
    have := parser.parameters.length_le
    unfold CsiParameters.validateRecoveryState CsiParameters.length
    rw [if_neg (by omega)]
  have hstring : ∀ bytes, bytes < maxStringBytes ∧ parser.stringPayload.length ≤ bytes →
      parser.validateString bytes = .ok () := by
    intro bytes hb
    unfold Parser.validateString
    rw [if_neg (by omega), if_neg (by omega)]
  have hdigits := h.digits
  have hinter := h.intermediateLength
  have hpayload := h.payload
  have hstate := h.state
  unfold Parser.validateRecoveryState
  rw [hparams, if_neg (by omega), if_neg (by omega), if_neg (by omega)]
  cases hs : parser.state <;> rw [hs] at hstate <;> first | rfl | exact hstring _ hstate

end Parser

/-! ## The decoder -/

namespace Utf8Decoder

def TailOk (lead : UInt8) (position : Nat) (byte : UInt8) : Prop :=
  inRange 0x80 0xbf byte = true ∧ (position = 1 → validSecondByte lead byte = true)

/-- The decoder waits in the middle of a sequence, or is idle. -/
structure Ok (decoder : Utf8Decoder) : Prop where
  bytes_len : decoder.bytes.length = 4
  progress : decoder.expected = 0 ∧ decoder.length = 0 ∨
    ∃ lead, decoder.bytes[0]? = some lead ∧ sequenceLength lead = some decoder.expected ∧
      1 ≤ decoder.length ∧ decoder.length < decoder.expected ∧
      ∀ i byte, 1 ≤ i → i < decoder.length → decoder.bytes[i]? = some byte → TailOk lead i byte

theorem ok_new : new.Ok := ⟨rfl, .inl ⟨rfl, rfl⟩⟩

variable {decoder : Utf8Decoder}

theorem Ok.reset (h : decoder.bytes.length = 4) : decoder.reset.Ok := ⟨h, .inl ⟨rfl, rfl⟩⟩

theorem sequenceLength_bounds {lead : UInt8} {n : Nat} (h : sequenceLength lead = some n) :
    2 ≤ n ∧ n ≤ 4 := by
  unfold sequenceLength at h
  split at h
  · cases h; decide
  split at h
  · cases h; decide
  split at h
  · cases h; decide
  · cases h

theorem Ok.start (h : decoder.Ok) (byte : UInt8) :
    ∃ decoder' started, decoder.start byte = some (decoder', started) ∧ decoder'.Ok ∧
      (started = true → decoder'.pending = true) := by
  unfold Utf8Decoder.start
  cases hlen : sequenceLength byte with
  | none => exact ⟨decoder, false, rfl, h, by simp⟩
  | some expected =>
    have hbounds := sequenceLength_bounds hlen
    have hpos : 0 < decoder.bytes.length := by rw [h.bytes_len]; decide
    rw [setAt_eq hpos]
    refine ⟨_, true, rfl, ⟨?_, .inr ⟨byte, ?_, hlen, le_rfl, ?_, ?_⟩⟩, ?_⟩
    · rw [← h.bytes_len]
      exact length_splice (by simp only [length_singleton]; omega)
    · rw [getElem?_splice_singleton hpos, if_pos rfl]
    · simp only
      omega
    · intro i b hi1 hi2
      simp only at hi2
      omega
    · intro _
      simp only [pending, ne_eq, decide_not, Bool.not_eq_eq_eq_not, Bool.not_true, decide_eq_false_iff_not]
      omega

theorem advance_pending {lead byte : UInt8} (hlen : decoder.length < decoder.bytes.length)
    (hlead : decoder.bytes[0]? = some lead) (htail : TailOk lead decoder.length byte)
    (hmore : decoder.length + 1 < decoder.expected) :
    decoder.advance byte = some ({ decoder with
      bytes := splice decoder.bytes decoder.length [byte]
      length := decoder.length + 1 }, .pending) := by
  unfold Utf8Decoder.advance
  rw [hlead]
  simp only [some_bind]
  rw [if_neg, setAt_eq hlen]
  · simp [hmore]
  · rintro (hbad | ⟨hone, hbad⟩)
    · simp [htail.1] at hbad
    · simp [htail.2 hone] at hbad

theorem Ok.advance (h : decoder.Ok) (hp : decoder.pending = true) (byte : UInt8) :
    ∃ decoder' result, decoder.advance byte = some (decoder', result) ∧ decoder'.Ok := by
  have hlen4 := h.bytes_len
  obtain ⟨hexp, -⟩ | ⟨lead, hlead, hseq, hlen1, hlen, htails⟩ := h.progress
  · simp [pending, hexp] at hp
  have hbounds := sequenceLength_bounds hseq
  have hlt : decoder.length < decoder.bytes.length := by omega
  have hsplice : (splice decoder.bytes decoder.length [byte]).length = 4 := by
    rw [← hlen4]
    exact length_splice (by simp only [length_singleton]; omega)
  by_cases hbad : (!inRange 0x80 0xbf byte) = true ∨
      decoder.length = 1 ∧ (!validSecondByte lead byte) = true
  · refine ⟨decoder.reset, .invalid, ?_, Ok.reset hlen4⟩
    unfold Utf8Decoder.advance
    rw [hlead]
    simp only [some_bind]
    rw [if_pos hbad]
    rfl
  have htail : TailOk lead decoder.length byte := by
    simp only [not_or, not_and, Bool.not_eq_true', Bool.not_eq_false] at hbad
    exact hbad
  by_cases hmore : decoder.length + 1 < decoder.expected
  · refine ⟨_, _, advance_pending hlt hlead htail hmore, hsplice, .inr ⟨lead, ?_, hseq, ?_, hmore, ?_⟩⟩
    · rw [getElem?_splice_singleton hlt, if_neg (by omega)]
      exact hlead
    · simp only
      omega
    · intro i b hi1 hi2 hb
      simp only at hi2 hb
      rw [getElem?_splice_singleton hlt] at hb
      by_cases hi : i = decoder.length
      · rw [if_pos hi] at hb
        cases hb
        rw [hi]
        exact htail
      · rw [if_neg hi] at hb
        exact htails i b hi1 (by omega) hb
  · unfold Utf8Decoder.advance
    rw [hlead]
    simp only [bind_eq_bind, bind_some]
    rw [if_neg hbad, setAt_eq hlt]
    simp only [bind_some, hmore, if_false]
    rw [slice_eq (Nat.zero_le _) (by omega)]
    simp only [bind_some]
    split
    · exact ⟨_, _, rfl, Ok.reset hsplice⟩
    · exact ⟨_, _, rfl, Ok.reset hsplice⟩

theorem replays_eq {lead : UInt8} (rest : List UInt8) (hbytes : decoder.bytes.length = 4)
    (hlead : decoder.bytes[0]? = some lead) (hpos : 1 ≤ decoder.length)
    (hmore : decoder.length + rest.length < decoder.expected) (hexp : decoder.expected ≤ 4)
    (htails : ∀ i byte, rest[i]? = some byte → TailOk lead (decoder.length + i) byte) :
    decoder.replays rest = some true := by
  induction rest generalizing decoder with
  | nil => rfl
  | cons byte rest ih =>
    simp only [length_cons] at hmore
    have hlt : decoder.length < decoder.bytes.length := by omega
    rw [Utf8Decoder.replays, advance_pending hlt hlead (htails 0 byte rfl) (by omega)]
    refine ih ?_ ?_ ?_ ?_ hexp ?_
    · rw [← hbytes]
      exact length_splice (by simp only [length_singleton]; omega)
    · rw [getElem?_splice_singleton hlt, if_neg (by omega)]
      exact hlead
    · simp only
      omega
    · simp only
      omega
    · intro i b hb
      have := htails (i + 1) b (by simpa using hb)
      simp only
      rwa [show decoder.length + 1 + i = decoder.length + (i + 1) by omega]

theorem Ok.validate (h : decoder.Ok) : decoder.validateRecoveryState = some (.ok ()) := by
  have hlen4 := h.bytes_len
  unfold Utf8Decoder.validateRecoveryState
  obtain ⟨hexp, hlen⟩ | ⟨lead, hlead, hseq, hlen1, hlen, htails⟩ := h.progress
  · simp [hexp, hlen]
  have hbounds := sequenceLength_bounds hseq
  have hvalid : (if decoder.expected = 2 then inRange 0xc2 0xdf lead
      else if decoder.expected = 3 then inRange 0xe0 0xef lead
      else if decoder.expected = 4 then inRange 0xf0 0xf4 lead
      else false) = true := by
    unfold sequenceLength at hseq
    split at hseq
    · rename_i hlead
      rw [← some.inj hseq]
      simpa using hlead
    split at hseq
    · rename_i hlead
      rw [← some.inj hseq]
      simpa using hlead
    split at hseq
    · rename_i hlead
      rw [← some.inj hseq]
      simpa using hlead
    · cases hseq
  have hstart : new.start lead =
      some ({ bytes := splice new.bytes 0 [lead], length := 1, expected := decoder.expected }, true) := by
    unfold Utf8Decoder.start
    rw [hseq, setAt_eq (by decide)]
    rfl
  have hreplay : ({ bytes := splice new.bytes 0 [lead], length := 1, expected := decoder.expected } :
      Utf8Decoder).replays ((decoder.bytes.drop 1).take (decoder.length - 1)) = some true := by
    refine replays_eq _ rfl (getElem?_splice_singleton (by decide) lead 0) le_rfl ?_ hbounds.2 ?_
    · simp only [length_take, length_drop]
      omega
    · intro i byte hi
      obtain ⟨hlt, -⟩ := List.getElem?_eq_some_iff.mp hi
      simp only [length_take, length_drop] at hlt
      rw [getElem?_take_of_lt (by omega), getElem?_drop] at hi
      exact htails (1 + i) byte (by omega) (by omega) hi
  rw [if_neg (by omega), if_neg (by omega), if_neg (by omega), hlead]
  simp only [bind_eq_bind, bind_some, hvalid, Bool.not_true, Bool.false_eq_true, if_false]
  rw [hstart]
  simp only [bind_some, Bool.not_true, Bool.false_eq_true, if_false, ne_eq, not_true_eq_false]
  rw [slice_eq hlen1 (by omega)]
  simp only [bind_some]
  rw [hreplay]
  rfl

end Utf8Decoder

end FesTerm
