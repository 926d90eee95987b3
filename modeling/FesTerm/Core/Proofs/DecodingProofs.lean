import FesTerm.Lib.LossyDecoding
import FesTerm.Core.Proofs.RunProofs
import FesTerm.Document.Proofs.Utf8Proofs

/-!
# Incremental decoding

The bytes that the decoder keeps are the beginning of an encoded character. What a byte does to it
depends only on whether the kept bytes and the new one are a character, begin one, or fit none; so
the characters that ingesting plain text prints are the lossy decoding of its bytes, however the text
is cut into chunks. ASCII characters go through the selected character set on their way.
-/

namespace FesTerm

open Checked LossyDecoding Document List

/-! ## The shape of encoded characters -/

/-- The word has the lead byte of an `n`-byte sequence and tail bytes that may follow it. -/
structure Shape (word : List UInt8) (n : Nat) : Prop where
  length_le : word.length ≤ n
  lead : ∃ lead, word[0]? = some lead ∧ Utf8Decoder.sequenceLength lead = some n ∧
    ∀ i byte, 1 ≤ i → word[i]? = some byte → Utf8Decoder.TailOk lead i byte

variable {byte lead : UInt8} {more : List UInt8}

namespace Shape

variable {word : List UInt8} {n : Nat}

theorem ne_nil (h : Shape word n) : word ≠ [] := by
  obtain ⟨lead, hlead, -⟩ := h.lead
  rintro rfl
  cases hlead

theorem snoc (h : Shape word n) (hlt : word.length < n) (hlead : word[0]? = some lead)
    (htail : Utf8Decoder.TailOk lead word.length byte) : Shape (word ++ [byte]) n := by
  obtain ⟨lead', hlead', hseq, htails⟩ := h.lead
  cases hlead.symm.trans hlead'
  have hpos := length_pos_iff.mpr h.ne_nil
  refine ⟨?_, lead, ?_, hseq, ?_⟩
  · simp only [length_append, length_singleton]
    omega
  · rw [getElem?_append_left hpos]
    exact hlead
  · intro i other hi hget
    rcases Nat.lt_trichotomy i word.length with hlt | rfl | hgt
    · rw [getElem?_append_left hlt] at hget
      exact htails i other hi hget
    · rw [getElem?_concat_length] at hget
      cases hget
      exact htail
    · rw [getElem?_eq_none (by simp only [length_append, length_singleton]; omega)] at hget
      cases hget

theorem exists_tail (lead : UInt8) (i : Nat) : ∃ byte, Utf8Decoder.TailOk lead i byte := by
  by_cases he0 : lead = 0xe0
  · subst he0
    exact ⟨0xa0, by decide, fun _ => by decide⟩
  · by_cases hf0 : lead = 0xf0
    · subst hf0
      exact ⟨0x90, by decide, fun _ => by decide⟩
    · refine ⟨0x80, by decide, fun _ => ?_⟩
      unfold validSecondByte
      rw [if_neg he0, if_neg hf0]
      split
      · decide
      split
      · decide
      · decide

theorem completes (h : Shape word n) : ∃ more, Shape (word ++ more) n ∧ (word ++ more).length = n := by
  induction hk : n - word.length generalizing word with
  | zero =>
    have hle := h.length_le
    exact ⟨[], by rwa [append_nil], by rw [append_nil]; omega⟩
  | succ k ih =>
    obtain ⟨lead, hlead, -⟩ := h.lead
    obtain ⟨byte, hbyte⟩ := exists_tail lead word.length
    have hsnoc := h.snoc (by omega) hlead hbyte
    obtain ⟨more, hshape, hlen⟩ := ih hsnoc (by
      simp only [length_append, length_singleton]
      omega)
    refine ⟨byte :: more, ?_⟩
    rw [← append_cons] at hshape hlen
    exact ⟨hshape, hlen⟩

theorem encodes (h : Shape word n) (hlen : word.length = n) : ∃ c, String.utf8EncodeChar c = word := by
  obtain ⟨lead, hlead, hseq, htails⟩ := h.lead
  unfold Utf8Decoder.sequenceLength at hseq
  split at hseq
  · rename_i htwo
    cases hseq
    obtain ⟨a, b, rfl⟩ := length_eq_two.mp hlen
    cases hlead
    exact ⟨_, encode_two htwo ((htails 1 b le_rfl rfl).2 rfl)⟩
  split at hseq
  · rename_i hthree
    cases hseq
    obtain ⟨a, b, c, rfl⟩ := length_eq_three.mp hlen
    cases hlead
    exact ⟨_, encode_three hthree ((htails 1 b le_rfl rfl).2 rfl) (htails 2 c (by decide) rfl).1⟩
  split at hseq
  · rename_i hfour
    cases hseq
    obtain ⟨a, rest, rfl⟩ := exists_cons_of_ne_nil h.ne_nil
    obtain ⟨b, c, d, rfl⟩ := length_eq_three.mp (by simpa using hlen)
    cases hlead
    exact ⟨_, encode_four hfour ((htails 1 b le_rfl rfl).2 rfl) (htails 2 c (by decide) rfl).1
      (htails 3 d (by decide) rfl).1⟩
  · cases hseq

theorem begins (h : Shape word n) (hlt : word.length < n) : Begins String.utf8EncodeChar word := by
  obtain ⟨more, hshape, hlen⟩ := h.completes
  obtain ⟨c, hc⟩ := hshape.encodes hlen
  refine ⟨h.ne_nil, c, more, ?_, hc⟩
  rintro rfl
  rw [append_nil] at hlen
  omega

theorem of_append (h : Shape (word ++ more) n) (hne : word ≠ []) : Shape word n := by
  obtain ⟨lead, hlead, hseq, htails⟩ := h.lead
  have hpos := length_pos_iff.mpr hne
  have hle := h.length_le
  rw [length_append] at hle
  rw [getElem?_append_left hpos] at hlead
  refine ⟨by omega, lead, hlead, hseq, ?_⟩
  intro i byte hi hget
  obtain ⟨hlt, -⟩ := List.getElem?_eq_some_iff.mp hget
  refine htails i byte hi ?_
  rw [getElem?_append_left hlt]
  exact hget

end Shape

theorem tailOk_cons {second : UInt8} {rest : List UInt8}
    (hsecond : validSecondByte lead second = true) (htail : inRange 0x80 0xbf second = true)
    (hrest : ∀ byte ∈ rest, inRange 0x80 0xbf byte = true) :
    ∀ i byte, 1 ≤ i → (lead :: second :: rest)[i]? = some byte → Utf8Decoder.TailOk lead i byte := by
  intro i byte hi hget
  obtain ⟨i, rfl⟩ := Nat.exists_eq_add_of_le' hi
  rw [getElem?_cons_succ] at hget
  cases i with
  | zero =>
    cases hget
    exact ⟨htail, fun _ => hsecond⟩
  | succ i =>
    rw [getElem?_cons_succ] at hget
    exact ⟨hrest byte (mem_of_getElem? hget), fun h => by omega⟩

variable (c : Char)

/-- An encoded character is one ASCII byte or a complete shape. -/
theorem shape_encode : c.toNat < 0x80 ∧ String.utf8EncodeChar c = [UInt8.ofNat c.toNat] ∨
      Shape (String.utf8EncodeChar c) (String.utf8EncodeChar c).length := by
  have hscalar := scalar_cases c
  rcases utf8EncodeChar_cases c with ⟨hlt, henc⟩ | ⟨hge, hlt, henc⟩ | ⟨hge, hlt, henc⟩ | ⟨hge, henc⟩
  · exact .inl ⟨hlt, henc⟩
  · right
    have hlead : c.toNat / 64 + 0xc0 < 256 := by omega
    have htwo := (inRange_ofNat_iff 0xc2 0xdf _ (by decide) (by decide) hlead).mpr (by omega)
    rw [henc]
    refine ⟨le_rfl, _, rfl, if_pos htwo, tailOk_cons ?_ ?_ nofun⟩
    · exact validSecondByte_ofNat hlead (Nat.mod_lt _ (by decide)) (by omega) (by omega) (by omega)
        (by omega)
    · exact continuation_ofNat (Nat.mod_lt _ (by decide))
  · right
    have hlead : c.toNat / 4096 + 0xe0 < 256 := by omega
    have htwo := (inRange_ofNat_iff 0xc2 0xdf _ (by decide) (by decide) hlead).not.mpr (by omega)
    have hthree := (inRange_ofNat_iff 0xe0 0xef _ (by decide) (by decide) hlead).mpr (by omega)
    rw [henc]
    refine ⟨le_rfl, _, rfl, (if_neg htwo).trans (if_pos hthree), tailOk_cons ?_ ?_ ?_⟩
    · exact validSecondByte_ofNat hlead (Nat.mod_lt _ (by decide)) (by omega) (by omega) (by omega)
        (by omega)
    · exact continuation_ofNat (Nat.mod_lt _ (by decide))
    · simp only [mem_singleton, forall_eq]
      exact continuation_ofNat (Nat.mod_lt _ (by decide))
  · right
    have hlead : c.toNat / 262144 + 0xf0 < 256 := by omega
    have htwo := (inRange_ofNat_iff 0xc2 0xdf _ (by decide) (by decide) hlead).not.mpr (by omega)
    have hthree := (inRange_ofNat_iff 0xe0 0xef _ (by decide) (by decide) hlead).not.mpr (by omega)
    have hfour := (inRange_ofNat_iff 0xf0 0xf4 _ (by decide) (by decide) hlead).mpr (by omega)
    rw [henc]
    refine ⟨le_rfl, _, rfl, (if_neg htwo).trans ((if_neg hthree).trans (if_pos hfour)), tailOk_cons ?_ ?_ ?_⟩
    · exact validSecondByte_ofNat hlead (Nat.mod_lt _ (by decide)) (by omega) (by omega) (by omega)
        (by omega)
    · exact continuation_ofNat (Nat.mod_lt _ (by decide))
    · simp only [mem_cons, not_mem_nil, or_false, forall_eq_or_imp, forall_eq]
      exact ⟨continuation_ofNat (Nat.mod_lt _ (by decide)), continuation_ofNat (Nat.mod_lt _ (by decide))⟩

theorem shape_of_fits {word : List UInt8} (h : Fits String.utf8EncodeChar word) (hne : word ≠ []) :
    (∃ byte : UInt8, byte < 0x80 ∧ word = [byte]) ∨ ∃ n, Shape word n := by
  obtain ⟨c, more, henc⟩ := h
  rcases shape_encode c with ⟨hlt, hone⟩ | hshape
  · left
    rw [hone] at henc
    obtain ⟨byte, rest, rfl⟩ := exists_cons_of_ne_nil hne
    rw [cons_append, List.cons.injEq] at henc
    obtain ⟨rfl, hrest⟩ := henc
    refine ⟨_, (ofNat_lt (by omega) _).mpr hlt, ?_⟩
    rw [(append_eq_nil_iff.mp hrest.symm).1]
  · right
    rw [henc] at hshape
    exact ⟨_, hshape.of_append hne⟩

theorem utf8EncodeChar_length_ascii {c : Char} (h : c.toNat < 0x80) :
    (String.utf8EncodeChar c).length = 1 := by
  rcases utf8EncodeChar_cases c with ⟨-, henc⟩ | ⟨hge, -⟩ | ⟨hge, -⟩ | ⟨hge, -⟩
  · rw [henc]
    rfl
  all_goals omega

theorem utf8EncodeChar_ne_nil : String.utf8EncodeChar c ≠ [] := by
  rcases utf8EncodeChar_cases c with ⟨-, h⟩ | ⟨-, -, h⟩ | ⟨-, -, h⟩ | ⟨-, h⟩ <;> simp [h]

/-! ## What a byte does to the decoder -/

namespace Utf8Decoder

/-- The bytes of the character that is not complete. -/
def held (decoder : Utf8Decoder) : List UInt8 := decoder.bytes.take decoder.length

/-- What a byte makes of a waiting decoder. It is invalid only when no character begins with the kept
bytes and the new one: reading a complete sequence again does not fail. -/
inductive Advanced (decoder : Utf8Decoder) (byte : UInt8) (decoder' : Utf8Decoder) : Utf8Advance → Prop where
  | pending (h : decoder'.held = decoder.held ++ [byte]) : Advanced decoder byte decoder' .pending
  | character {c : Char} (h : String.utf8EncodeChar c = decoder.held ++ [byte])
      (hidle : decoder'.pending = false) : Advanced decoder byte decoder' (.character c)
  | invalid (h : ¬ Fits String.utf8EncodeChar (decoder.held ++ [byte]))
      (hidle : decoder'.pending = false) : Advanced decoder byte decoder' .invalid

variable {decoder : Utf8Decoder}

theorem Ok.held_nil (h : decoder.Ok) (hidle : decoder.pending = false) : decoder.held = [] := by
  obtain ⟨-, hlen⟩ | ⟨lead, -, hseq, -, hlt, -⟩ := h.progress
  · rw [held, hlen, take_zero]
  · simp only [pending, ne_eq, decide_not, Bool.not_eq_eq_eq_not, Bool.not_false, decide_eq_true_eq] at hidle
    omega

theorem Ok.held_shape (h : decoder.Ok) (hpending : decoder.pending = true) :
    Shape decoder.held decoder.expected ∧ decoder.held.length = decoder.length ∧
      decoder.length < decoder.expected ∧ decoder.expected ≤ 4 := by
  obtain ⟨hexp, -⟩ | ⟨lead, hlead, hseq, hpos, hlt, htails⟩ := h.progress
  · simp [pending, hexp] at hpending
  have hbounds := sequenceLength_bounds hseq
  have hlen : decoder.held.length = decoder.length := by
    rw [held, length_take, h.bytes_len]
    omega
  refine ⟨⟨by omega, lead, ?_, hseq, ?_⟩, hlen, hlt, hbounds.2⟩
  · rw [held, getElem?_take_of_lt hpos]
    exact hlead
  · intro i byte hi hget
    obtain ⟨hi', -⟩ := List.getElem?_eq_some_iff.mp hget
    rw [hlen] at hi'
    rw [held, getElem?_take_of_lt hi'] at hget
    exact htails i byte hi hi' hget

theorem not_fits_of_tail {word : List UInt8} (hne : word ≠ [])
    (hlead : word[0]? = some lead) (htail : ¬ TailOk lead word.length byte) :
    ¬ Fits String.utf8EncodeChar (word ++ [byte]) := by
  intro hfits
  have hpos := length_pos_iff.mpr hne
  rcases shape_of_fits hfits (by simp) with ⟨other, -, hone⟩ | ⟨n, hshape⟩
  · have hlen := congrArg List.length hone
    simp only [length_append, length_singleton] at hlen
    omega
  · obtain ⟨lead', hlead', -, htails⟩ := hshape.lead
    rw [getElem?_append_left hpos, hlead] at hlead'
    cases hlead'
    exact htail (htails word.length byte hpos getElem?_concat_length)

theorem Ok.advance_cases (h : decoder.Ok) (hpending : decoder.pending = true) (byte : UInt8) :
    ∃ decoder' result, decoder.advance byte = some (decoder', result) ∧ decoder'.Ok ∧
      Advanced decoder byte decoder' result := by
  obtain ⟨decoder', result, hadvance, hok⟩ := h.advance hpending byte
  refine ⟨decoder', result, hadvance, hok, ?_⟩
  obtain ⟨hshape, hlen, hlt, hle⟩ := h.held_shape hpending
  obtain ⟨lead, hlead, -⟩ := hshape.lead
  have hbytes : decoder.length < decoder.bytes.length := by
    rw [h.bytes_len]
    omega
  have hfirst : decoder.bytes[0]? = some lead := by
    have hpos := length_pos_iff.mpr hshape.ne_nil
    rwa [held, getElem?_take_of_lt (by omega)] at hlead
  by_cases htail : TailOk lead decoder.length byte
  · by_cases hmore : decoder.length + 1 < decoder.expected
    · rw [advance_pending hbytes hfirst htail hmore] at hadvance
      cases hadvance
      exact .pending (take_splice_succ hbytes byte)
    · -- the sequence is complete, so it is a character
      have hfull : decoder.expected = decoder.length + 1 := by omega
      have hsnoc : Shape (decoder.held ++ [byte]) decoder.expected :=
        hshape.snoc (by omega) hlead (by rwa [hlen])
      obtain ⟨c, hc⟩ := hsnoc.encodes (by
        simp only [length_append, length_singleton]
        omega)
      have hread : fromUtf8 (decoder.held ++ [byte]) = some [c] := by
        rw [← hc, ← append_nil (String.utf8EncodeChar c), fromUtf8_encode_append]
        rfl
      have hgood : ¬ ((!inRange 0x80 0xbf byte) = true ∨
          decoder.length = 1 ∧ (!validSecondByte lead byte) = true) := by
        rintro (hbad | ⟨hone, hbad⟩)
        · simp [htail.1] at hbad
        · simp [htail.2 hone] at hbad
      have hsplice : (splice decoder.bytes decoder.length [byte]).length = 4 := by
        rw [length_splice (by simp only [length_singleton]; omega)]
        exact h.bytes_len
      unfold Utf8Decoder.advance at hadvance
      simp only [hfirst, Option.bind_eq_bind, Option.bind_some, if_neg hgood, setAt_eq hbytes,
        hmore, if_false] at hadvance
      rw [slice_eq (Nat.zero_le _) (by omega), drop_zero, Nat.sub_zero, hfull,
        take_splice_succ hbytes, Option.bind_some] at hadvance
      rw [held] at hread
      rw [hread] at hadvance
      cases hadvance
      exact .character hc rfl
  · have hbad : (!inRange 0x80 0xbf byte) = true ∨
        decoder.length = 1 ∧ (!validSecondByte lead byte) = true := by
      by_contra hgood
      simp only [not_or, not_and, Bool.not_eq_true', Bool.not_eq_false] at hgood
      exact htail hgood
    unfold Utf8Decoder.advance at hadvance
    simp only [hfirst, some_bind, if_pos hbad] at hadvance
    cases hadvance
    exact .invalid (not_fits_of_tail hshape.ne_nil hlead (by rwa [hlen])) rfl

theorem Ok.start_cases (h : decoder.Ok) (hidle : decoder.pending = false) (hbyte : byte ≥ 0x80) :
    ∃ decoder' started, decoder.start byte = some (decoder', started) ∧ decoder'.Ok ∧
      if started then decoder'.held = [byte]
      else decoder'.pending = false ∧ ¬ Fits String.utf8EncodeChar [byte] := by
  obtain ⟨decoder', started, hstart, hok, -⟩ := h.start byte
  refine ⟨decoder', started, hstart, hok, ?_⟩
  have hpos : 0 < decoder.bytes.length := by
    rw [h.bytes_len]
    decide
  unfold Utf8Decoder.start at hstart
  cases hseq : sequenceLength byte with
  | none =>
    rw [hseq] at hstart
    cases hstart
    refine ⟨hidle, fun hfits => ?_⟩
    rcases shape_of_fits hfits (by simp) with ⟨other, hlt, hone⟩ | ⟨n, hshape⟩
    · obtain rfl := (singleton_inj.mp hone)
      rw [UInt8.lt_iff_toNat_lt] at hlt
      rw [ge_iff_le, UInt8.le_iff_toNat_le] at hbyte
      omega
    · obtain ⟨lead, hlead, hsome, -⟩ := hshape.lead
      cases hlead
      rw [hseq] at hsome
      cases hsome
  | some expected =>
    rw [hseq, setAt_eq hpos] at hstart
    cases hstart
    exact take_splice_succ hpos byte

end Utf8Decoder

/-! ## Printing plain text -/

/-- The character that is printed for this one in the current character set. -/
def Parser.shown (parser : Parser) (character : Char) : Char :=
  if character.toNat < 0x80 then parser.translatePrintable (UInt8.ofNat character.toNat) else character

/-- Neither a control nor DEL. -/
def IsText (byte : UInt8) : Prop := 0x20 ≤ byte ∧ byte ≠ 0x7f

theorem Parser.advance_text [Platform] {parser : Parser} (hground : parser.isGround = true)
    (htext : IsText byte) (hascii : byte < 0x80) :
    parser.advance byte = some (parser, .print (parser.translatePrintable byte)) := by
  have hstate : parser.state = .ground := eq_of_beq hground
  obtain ⟨hlow, hdel⟩ := htext
  rw [UInt8.le_iff_toNat_le] at hlow
  rw [UInt8.lt_iff_toNat_lt] at hascii
  rw [Ne, ← UInt8.toNat_inj] at hdel
  simp only [UInt8.reduceToNat] at hlow hascii hdel
  have hcontrol : ∀ n : UInt8, n.toNat < 0x20 → byte ≠ n := by
    rintro n hn rfl
    omega
  have hrange : inRange 0x20 0x7e byte = true := by
    simp only [inRange, Bool.and_eq_true, decide_eq_true_eq, UInt8.le_iff_toNat_le, UInt8.reduceToNat]
    omega
  have hc0 : c0Operation byte = none := by
    simp [c0Operation, hcontrol]
  simp [Parser.advance, hstate, hcontrol, hc0, hrange]

namespace Terminal

variable [Platform] {terminal terminal' middle final : Terminal} {base : Parser}

/-- Printing the characters one after another. In between the decoder may take up and release bytes,
which `print` does not look at. -/
inductive Prints : Terminal → List Char → Terminal → Prop where
  | done {terminal : Terminal} : Prints terminal [] terminal
  | decoder {terminal terminal' : Terminal} {characters : List Char} (utf8 : Utf8Decoder)
      (h : Prints { terminal with utf8 := utf8 } characters terminal') :
      Prints terminal characters terminal'
  | print {terminal middle terminal' : Terminal} {character : Char} {characters : List Char}
      (hprint : terminal.print character = some middle) (h : Prints middle characters terminal') :
      Prints terminal (character :: characters) terminal'

theorem Prints.append {front back : List Char} (h : Prints terminal front middle)
    (hback : Prints middle back final) : Prints terminal (front ++ back) final := by
  induction h with
  | done => exact hback
  | decoder utf8 _ ih => exact .decoder utf8 (ih hback)
  | print hprint _ ih => exact .print hprint (ih hback)

/-- `ingest_byte` calling itself to the given depth, as the source writes it. -/
def ingestByteWithin : Nat → Terminal → UInt8 → Option Terminal
  | 0, _, _ => none
  | depth + 1, terminal, byte => do
    if terminal.utf8.pending then
      let (utf8, result) ← terminal.utf8.advance byte
      let terminal := { terminal with utf8 := utf8 }
      match result with
      | .pending => some terminal
      | .character character => terminal.print character
      | .invalid =>
        let terminal ← terminal.print replacementCharacter
        terminal.ingestByteWithin depth byte
    else terminal.ingestParsed byte

/-- Steady, in the ground state of a parser with no action that waits. -/
structure Grounded (base : Parser) (terminal : Terminal) : Prop where
  steady : terminal.Steady .nothing
  parser : terminal.parser = base
  ground : base.isGround = true
  oscTaken : base.oscAction = none
  dcsTaken : base.dcsAction = none

theorem Grounded.withUtf8 (h : terminal.Grounded base) {utf8 : Utf8Decoder} (hutf8 : utf8.Ok) :
    Grounded base { terminal with utf8 := utf8 } :=
  ⟨⟨h.steady.toGood.withUtf8 hutf8, h.steady.taken⟩, h.parser, h.ground, h.oscTaken, h.dcsTaken⟩

theorem Grounded.print (h : terminal.Grounded base) (character : Char) :
    Yields (terminal.print character) fun terminal' =>
      terminal'.Grounded base ∧ terminal'.utf8 = terminal.utf8 := by
  refine (SettledAt.print h.steady.toGood.at character (printKeeps_nothing _ _)).mono fun terminal' ht => ?_
  have htaken : terminal'.parser.oscAction = none := by
    rw [ht.parser]
    exact h.steady.taken
  exact ⟨⟨⟨ht.good h.steady.toGood, htaken⟩, ht.parser.trans h.parser, h.ground, h.oscTaken, h.dcsTaken⟩,
    ht.utf8⟩

/-- What reading text bytes does: they print the characters of their lossy decoding, the bytes that
were kept before in front of them and those that are kept now held back. -/
structure Reads (base : Parser) (terminal : Terminal) (bytes : List UInt8) (characters : List Char)
    (terminal' : Terminal) : Prop where
  grounded : terminal'.Grounded base
  prints : Prints terminal (characters.map base.shown) terminal'
  decodes : ∀ {rest held : List UInt8} {values : List Char},
    Decodes String.utf8EncodeChar replacementCharacter (terminal'.utf8.held ++ rest) values held →
      Decodes String.utf8EncodeChar replacementCharacter (terminal.utf8.held ++ (bytes ++ rest))
        (characters ++ values) held

variable {bytes : List UInt8}

theorem Reads.trans {front back : List Char}
    (h : Reads base terminal bytes front middle) (h' : Reads base middle more back final) :
    Reads base terminal (bytes ++ more) (front ++ back) final where
  grounded := h'.grounded
  prints := by
    rw [map_append]
    exact h.prints.append h'.prints
  decodes hd := by
    rw [append_assoc, append_assoc]
    exact h.decodes (h'.decodes hd)

omit [Platform] in
theorem shown_replacement (parser : Parser) : parser.shown replacementCharacter = replacementCharacter :=
  if_neg (by decide)

omit [Platform] in
theorem applyStrings_idle (hosc : terminal.parser.oscAction = none)
    (hdcs : terminal.parser.dcsAction = none) :
    (do
      let (action, parser) := terminal.parser.takeOscAction
      let terminal ← { terminal with parser := parser }.applyOscAction action
      let (request, parser) := terminal.parser.takeDcsAction
      { terminal with parser := parser }.applyDcsAction request) = some terminal := by
  have hparser : ({ terminal.parser with oscAction := none, dcsAction := none } : Parser) =
      terminal.parser := by
    rw [← hosc, ← hdcs]
  simp only [Parser.takeOscAction, hosc, Terminal.applyOscAction, some_bind,
    Parser.takeDcsAction, hdcs, Terminal.applyDcsAction]
  exact congrArg (fun parser => some { terminal with parser := parser }) hparser

/-- A text byte behind the decoder. -/
theorem Grounded.ingestParsed (h : terminal.Grounded base) (hidle : terminal.utf8.pending = false)
    (htext : IsText byte) :
    ∃ characters, Yields (terminal.ingestParsed byte) (Reads base terminal [byte] characters) := by
  have hheld := h.steady.utf8.held_nil hidle
  have hground : terminal.parser.isGround = true := by
    rw [h.parser]
    exact h.ground
  unfold Terminal.ingestParsed
  by_cases hhigh : byte ≥ 0x80
  · rw [if_pos ⟨hground, hhigh⟩]
    obtain ⟨utf8, started, hstart, hok, hcases⟩ := h.steady.utf8.start_cases hidle hhigh
    rw [hstart, some_bind]
    cases started with
    | true =>
      rw [if_pos rfl] at hcases
      refine ⟨[], .some ⟨h.withUtf8 hok, .decoder utf8 .done, fun hd => ?_⟩⟩
      rw [hheld]
      rw [hcases] at hd
      exact hd
    | false =>
      obtain ⟨hidle', hno⟩ := hcases
      refine ⟨[replacementCharacter], ?_⟩
      obtain ⟨printed, hprint, hgrounded, hutf8⟩ := (h.withUtf8 hok).print replacementCharacter
      refine ⟨printed, hprint, hgrounded, .decoder utf8 ?_, fun hd => ?_⟩
      · rw [map_singleton, shown_replacement]
        exact .print hprint .done
      · rw [hutf8, hok.held_nil hidle'] at hd
        rw [hheld]
        exact .stray utf8EncodeChar_ne_nil hno hd
  · rw [if_neg (fun hboth => hhigh hboth.2)]
    have hascii : byte < 0x80 := by simpa using hhigh
    have hnat : byte.toNat < 0x80 := UInt8.lt_iff_toNat_lt.mp hascii
    have hscalar := toNat_ofNat_scalar (n := byte.toNat) (by omega)
    obtain ⟨printed, hprint, hgrounded, hutf8⟩ := h.print (terminal.parser.translatePrintable byte)
    refine ⟨[Char.ofNat byte.toNat], printed, ?_, hgrounded, ?_, fun hd => ?_⟩
    · have hosc : printed.parser.oscAction = none := hgrounded.parser ▸ hgrounded.oscTaken
      have hdcs : printed.parser.dcsAction = none := hgrounded.parser ▸ hgrounded.dcsTaken
      have happly : ({ terminal with parser := terminal.parser } : Terminal).apply
          (.print (terminal.parser.translatePrintable byte)) = some printed := hprint
      rw [Parser.advance_text hground htext hascii]
      simp only [some_bind, happly]
      exact applyStrings_idle hosc hdcs
    · rw [map_singleton, Parser.shown, hscalar, if_pos hnat, byte_eq_ofNat byte rfl, ← h.parser]
      exact .print hprint .done
    · rw [hutf8, hheld] at hd
      rw [hheld]
      have hcode := Decodes.code (a := Char.ofNat byte.toNat) hd
      rwa [encode_one hascii] at hcode

/-- A text byte. -/
theorem Grounded.ingestByte (h : terminal.Grounded base) (htext : IsText byte) :
    ∃ characters, Yields (terminal.ingestByte byte) (Reads base terminal [byte] characters) := by
  unfold Terminal.ingestByte
  cases hpending : terminal.utf8.pending with
  | false =>
    rw [if_neg (by decide)]
    exact h.ingestParsed hpending htext
  | true =>
    rw [if_pos rfl]
    obtain ⟨utf8, result, hadvance, hok, hcases⟩ := h.steady.utf8.advance_cases hpending byte
    rw [hadvance, some_bind]
    cases hcases with
    | pending hheld =>
      refine ⟨[], .some ⟨h.withUtf8 hok, .decoder utf8 .done, fun hd => ?_⟩⟩
      rw [hheld, append_assoc] at hd
      exact hd
    | @character c hcode hidle =>
      obtain ⟨printed, hprint, hgrounded, hutf8⟩ := (h.withUtf8 hok).print c
      refine ⟨[c], printed, hprint, hgrounded, .decoder utf8 ?_, fun hd => ?_⟩
      · have hshown : base.shown c = c := by
          refine if_neg fun hlt => ?_
          have hlen := congrArg List.length hcode
          rw [utf8EncodeChar_length_ascii hlt, length_append, length_singleton] at hlen
          have := length_pos_iff.mpr (h.steady.utf8.held_shape hpending).1.ne_nil
          omega
        rw [map_singleton, hshown]
        exact .print hprint .done
      · rw [hutf8, hok.held_nil hidle] at hd
        rw [← append_assoc, ← hcode]
        exact .code hd
    | invalid hno hidle =>
      obtain ⟨printed, hprint, hgrounded, hutf8⟩ := (h.withUtf8 hok).print replacementCharacter
      have hidle' : printed.utf8.pending = false := by
        rw [hutf8]
        exact hidle
      obtain ⟨characters, final, hfinal, hreads⟩ := hgrounded.ingestParsed hidle' htext
      refine ⟨replacementCharacter :: characters, final, ?_, hreads.grounded, .decoder utf8 ?_, fun hd => ?_⟩
      · simp only [hprint, some_bind, hfinal]
      · rw [map_cons, shown_replacement]
        exact .print hprint hreads.prints
      · have hrest := hreads.decodes hd
        rw [hgrounded.steady.utf8.held_nil hidle'] at hrest
        obtain ⟨hshape, hlen, hlt, -⟩ := h.steady.utf8.held_shape hpending
        refine .broken utf8EncodeChar_reads_back (hshape.begins ?_) hno hrest
        omega

theorem Grounded.ingest (h : terminal.Grounded base) (htext : ∀ byte ∈ bytes, IsText byte) :
    ∃ characters, Yields (terminal.ingest bytes) (Reads base terminal bytes characters) := by
  induction bytes generalizing terminal with
  | nil => exact ⟨[], .some ⟨h, .done, id⟩⟩
  | cons byte bytes ih =>
    obtain ⟨front, middle, hbyte, hfront⟩ := h.ingestByte (htext byte mem_cons_self)
    obtain ⟨back, final, hrest, hback⟩ :=
      ih hfront.grounded fun other hother => htext other (mem_cons_of_mem byte hother)
    refine ⟨front ++ back, final, ?_, hfront.trans hback⟩
    rw [Terminal.ingest, foldlM_cons, hbyte]
    exact hrest

theorem foldlM_ingest (chunks : List (List UInt8)) (terminal : Terminal) :
    chunks.foldlM Terminal.ingest terminal = terminal.ingest chunks.flatten := by
  induction chunks generalizing terminal with
  | nil => rfl
  | cons chunk chunks ih =>
    rw [foldlM_cons, flatten_cons, ingest_append]
    exact bind_congr fun reached => ih reached

/-! ## Reachable terminals -/

/-- Steady, with no device control request that waits either. -/
structure Idle (terminal : Terminal) : Prop extends Steady .nothing terminal where
  asked : terminal.parser.dcsAction = none

omit [Platform] in
theorem applyDcsAction_keeps (terminal : Terminal) (request : Option DcsAction) :
    Ensures (terminal.applyDcsAction request) fun terminal' => terminal'.parser = terminal.parser := by
  unfold Terminal.applyDcsAction
  split
  · exact .some rfl
  · refine .bind fun report _ => ?_
    cases report with
    | none | some report => exact .some rfl

theorem Idle.print (h : terminal.Idle) (character : Char) :
    Ensures (terminal.print character) fun terminal' => terminal'.parser.dcsAction = none := by
  intro terminal' hprint
  obtain ⟨printed, hprinted, hat⟩ :=
    SettledAt.print h.toGood.at character (printKeeps_nothing terminal character)
  cases hprint.symm.trans hprinted
  rw [hat.parser]
  exact h.asked

theorem Idle.ingestParsed (h : terminal.Idle) (byte : UInt8) :
    Ensures (terminal.ingestParsed byte) fun terminal' => terminal'.parser.dcsAction = none := by
  unfold Terminal.ingestParsed
  refine .ite (fun _ => ?_) (fun _ => ?_)
  · refine .bind fun (utf8, started) hstart => ?_
    obtain ⟨utf8', started', hstart', hok, -⟩ := h.utf8.start byte
    cases hstart.symm.trans hstart'
    have hidled : Idle { terminal with utf8 := utf8 } :=
      ⟨⟨h.toGood.withUtf8 hok, h.taken⟩, h.asked⟩
    exact .ite (fun _ => .some h.asked) fun _ => hidled.print replacementCharacter
  · refine .bind fun (parser, operation) _ => .bind fun applied _ => .bind fun answered _ => ?_
    exact (applyDcsAction_keeps _ _).mono fun final hfinal => by rw [hfinal]

theorem Idle.ingestByte (h : terminal.Idle) (byte : UInt8) :
    Yields (terminal.ingestByte byte) Idle := by
  obtain ⟨final, hfinal, hfed⟩ := h.toSteady.ingestByte byte (byteKeeps_nothing terminal byte)
  refine ⟨final, hfinal, hfed.steady, ?_⟩
  revert final
  refine fun final hfinal _ => ?_
  unfold Terminal.ingestByte at hfinal
  cases hpending : terminal.utf8.pending with
  | false =>
    rw [hpending, if_neg (by decide)] at hfinal
    exact h.ingestParsed byte final hfinal
  | true =>
    rw [hpending, if_pos rfl] at hfinal
    obtain ⟨utf8, result, hadvance, hok⟩ := h.utf8.advance hpending byte
    have hidled : Idle { terminal with utf8 := utf8 } :=
      ⟨⟨h.toGood.withUtf8 hok, h.taken⟩, h.asked⟩
    rw [hadvance, some_bind] at hfinal
    cases result with
    | pending =>
      cases hfinal
      exact h.asked
    | character character => exact hidled.print character final hfinal
    | invalid =>
      obtain ⟨printed, hprint, hrest⟩ := Option.bind_eq_some_iff.mp hfinal
      obtain ⟨printed', hprint', hfed', -⟩ :=
        hidled.toSteady.print replacementCharacter (printKeeps_nothing _ _)
      cases hprint.symm.trans hprint'
      have hidled' : Idle printed := ⟨hfed'.steady, hidled.print replacementCharacter printed hprint⟩
      exact hidled'.ingestParsed byte final hrest

theorem eventKeeps_nothing (terminal : Terminal) (event : Event) :
    terminal.eventKeeps .nothing event = true := by
  cases event with
  | ingest bytes => exact holdsAlong_of_all byteKeeps_nothing
  | _ => rfl

theorem Idle.handle (h : terminal.Idle) (event : Event) : Yields (terminal.handle event) Idle := by
  obtain ⟨final, hfinal, hsteady⟩ := h.toSteady.handle event (eventKeeps_nothing terminal event)
  cases event with
  | ingest bytes => exact foldlM_yields h fun reached byte _ hreached => hreached.ingestByte byte
  | resize dimensions =>
    refine ⟨final, hfinal, hsteady, ?_⟩
    obtain ⟨⟨resized, positions⟩, hresized, hpair⟩ := Option.bind_eq_some_iff.mp hfinal
    cases hpair
    obtain ⟨parts, -, hrest⟩ := Option.bind_eq_some_iff.mp hresized
    obtain ⟨alternate, -, hmade⟩ := Option.bind_eq_some_iff.mp hrest
    cases hmade
    exact h.asked
  | setScrollbackLimit limitBytes =>
    refine ⟨final, hfinal, hsteady, ?_⟩
    obtain ⟨scrollback, -, hmade⟩ := Option.bind_eq_some_iff.mp hfinal
    cases hmade
    exact h.asked
  | clearScrollback => exact .some ⟨by cases hfinal; exact hsteady, h.asked⟩
  | resetToInitialState => exact .some ⟨by cases hfinal; exact hsteady, rfl⟩
  | takeDirtyRows =>
    refine ⟨final, hfinal, hsteady, ?_⟩
    obtain ⟨⟨rows, taken⟩, htaken, hpair⟩ := Option.bind_eq_some_iff.mp hfinal
    cases hpair
    obtain ⟨buffer, -, hmade⟩ := Option.bind_eq_some_iff.mp htaken
    cases hmade
    unfold setActiveBuffer
    split
    · exact h.asked
    · exact h.asked

theorem idle_of_run {dimensions : Dimensions} {limitBytes : ByteLimit} {events : List Event}
    (hrun : (withScrollbackLimit dimensions limitBytes).run events = some terminal) : terminal.Idle := by
  have hstart : (withScrollbackLimit dimensions limitBytes).Idle :=
    ⟨withScrollbackLimit_steady dimensions limitBytes, rfl⟩
  obtain ⟨reached, hreached, hidled⟩ :=
    foldlM_yields (l := events) hstart fun current event _ hcurrent => hcurrent.handle event
  cases hrun.symm.trans hreached
  exact hidled

theorem Idle.ingestByteWithin_eq (h : terminal.Idle) (depth : Nat) (byte : UInt8) :
    terminal.ingestByteWithin (depth + 2) byte = terminal.ingestByte byte := by
  unfold Terminal.ingestByteWithin Terminal.ingestByte
  cases hpending : terminal.utf8.pending with
  | false => rfl
  | true =>
    obtain ⟨utf8, result, hadvance, hok, hcases⟩ := h.utf8.advance_cases hpending byte
    simp only [hadvance, if_true, Option.bind_eq_bind, Option.bind_some]
    cases hcases with
    | pending => rfl
    | character => rfl
    | invalid _ hidle =>
      have hgood : Good .nothing { terminal with utf8 := utf8 } := h.toGood.withUtf8 hok
      obtain ⟨printed, hprint, hat⟩ :=
        SettledAt.print hgood.at replacementCharacter (printKeeps_nothing _ _)
      have hpending' : printed.utf8.pending = false := by
        rw [hat.utf8]
        exact hidle
      simp only [hprint, Option.bind_some]
      unfold Terminal.ingestByteWithin
      rw [hpending', if_neg (by decide)]

theorem Idle.grounded (h : terminal.Idle) (hground : terminal.parser.isGround = true) :
    terminal.Grounded terminal.parser :=
  ⟨h.toSteady, rfl, hground, h.taken, h.asked⟩

/-- Text that a parser in its ground state ingests, in any chunks, is printed as the lossy decoding of
its bytes, each ASCII character as the selected character set shows it. The bytes that the decoder
kept come first and those that it keeps now are held back. The decoder calls a byte invalid only when
no character begins with what it keeps and that byte, and `ingest_byte` then calls itself once. -/
theorem ingest_decodes {dimensions : Dimensions} {limitBytes : ByteLimit} {events : List Event}
    (hrun : (withScrollbackLimit dimensions limitBytes).run events = some terminal)
    (hground : terminal.parser.isGround = true) (chunks : List (List UInt8))
    (htext : ∀ chunk ∈ chunks, ∀ byte ∈ chunk, IsText byte) :
    ∃ terminal' characters,
      chunks.foldlM Terminal.ingest terminal = some terminal' ∧
      Decodes String.utf8EncodeChar replacementCharacter (terminal.utf8.held ++ chunks.flatten)
        characters terminal'.utf8.held ∧
      (∀ values held, Decodes String.utf8EncodeChar replacementCharacter
        (terminal.utf8.held ++ chunks.flatten) values held →
          values = characters ∧ held = terminal'.utf8.held) ∧
      Prints terminal (characters.map terminal.parser.shown) terminal' ∧
      (∀ byte decoder', terminal'.utf8.pending = true →
        terminal'.utf8.advance byte = some (decoder', .invalid) →
          ¬ Fits String.utf8EncodeChar (terminal'.utf8.held ++ [byte])) ∧
      ∀ byte depth, terminal'.ingestByteWithin (depth + 2) byte = terminal'.ingestByte byte := by
  have hidle := idle_of_run hrun
  have hflat : ∀ byte ∈ chunks.flatten, IsText byte := by
    intro byte hbyte
    obtain ⟨chunk, hchunk, hmem⟩ := mem_flatten.mp hbyte
    exact htext chunk hchunk byte hmem
  obtain ⟨characters, terminal', hingest, hreads⟩ := (hidle.grounded hground).ingest hflat
  have hok := hreads.grounded.steady.utf8
  have hheld : Decodes String.utf8EncodeChar replacementCharacter (terminal'.utf8.held ++ []) []
      terminal'.utf8.held := by
    rw [append_nil]
    cases hpending : terminal'.utf8.pending with
    | false =>
      rw [hok.held_nil hpending]
      exact .done
    | true =>
      obtain ⟨hshape, hlen, hlt, -⟩ := hok.held_shape hpending
      exact .held (hshape.begins (by omega))
  have hdecodes := hreads.decodes hheld
  rw [append_nil, append_nil] at hdecodes
  have hlast : terminal'.Idle := by
    refine ⟨hreads.grounded.steady, ?_⟩
    rw [hreads.grounded.parser]
    exact hidle.asked
  refine ⟨terminal', characters, ?_, hdecodes, ?_, hreads.prints, ?_, fun byte depth => ?_⟩
  · rw [foldlM_ingest]
    exact hingest
  · intro values held hother
    exact hdecodes.unique utf8EncodeChar_reads_back utf8EncodeChar_ne_nil hother
  · intro byte decoder' hpending hadvance
    obtain ⟨decoder'', result, hadvance', -, hcases⟩ := hok.advance_cases hpending byte
    cases hadvance.symm.trans hadvance'
    cases hcases with
    | invalid hno => exact hno
  · exact hlast.ingestByteWithin_eq depth byte

omit [Platform] in
/-- The euro sign cut in two, a letter, and a lead byte that a letter breaks. -/
theorem ingest_decodes_chunks :
    letI := Platform.reference
    ∃ terminal' characters,
      [[0xe2, 0x82], [0xac, 0x41, 0xe2], [0x42]].foldlM Terminal.ingest
        (withScrollbackLimit sampleGrid none) = some terminal' ∧
      Decodes String.utf8EncodeChar replacementCharacter [0xe2, 0x82, 0xac, 0x41, 0xe2, 0x42]
        characters terminal'.utf8.held ∧
      Prints (withScrollbackLimit sampleGrid none) (characters.map Parser.new.shown) terminal' := by
  let _ := Platform.reference
  have hrun : (withScrollbackLimit sampleGrid none).run [] = some (withScrollbackLimit sampleGrid none) :=
    rfl
  obtain ⟨terminal', characters, hingest, hdecodes, -, hprints, -⟩ :=
    ingest_decodes hrun rfl [[0xe2, 0x82], [0xac, 0x41, 0xe2], [0x42]] (by simp [IsText])
  exact ⟨terminal', characters, hingest, hdecodes, hprints⟩

variable {characters : List Char}

theorem Prints.last_of_nil (h : Prints terminal characters terminal')
    (hnil : characters = []) : terminal'.lastGraphicCharacter = terminal.lastGraphicCharacter := by
  induction h with
  | done => rfl
  | decoder utf8 _ ih => exact ih hnil
  | print => cases hnil

theorem Prints.last_of_one (h : Prints terminal characters terminal')
    {character : Char} (hone : characters = [character]) :
    ∃ utf8 printed, Terminal.print { terminal with utf8 := utf8 } character = some printed ∧
      terminal'.lastGraphicCharacter = printed.lastGraphicCharacter := by
  induction h with
  | done => cases hone
  | decoder utf8 _ ih => exact ih hone
  | @print terminal middle terminal' c characters hprint h =>
    obtain ⟨rfl, hnil⟩ := List.cons.inj hone
    exact ⟨terminal.utf8, middle, hprint, h.last_of_nil hnil⟩

omit [Platform] in
/-- With the line drawing set selected the letter `q` is not what is printed. -/
theorem ingest_draws_lines :
    letI := Platform.reference
    ∃ terminal terminal',
      (withScrollbackLimit sampleGrid none).run [.ingest (ascii "\x1b(0")] = some terminal ∧
      terminal.parser.isGround = true ∧ terminal.ingest [0x71] = some terminal' ∧
      Decodes String.utf8EncodeChar replacementCharacter (terminal.utf8.held ++ [0x71]) ['q']
        terminal'.utf8.held ∧
      ¬ Prints terminal ['q'] terminal' := by
  let _ := Platform.reference
  let start := withScrollbackLimit sampleGrid none
  let select : List Event := [.ingest (ascii "\x1b(0")]
  obtain ⟨terminal, hrun⟩ : ∃ terminal, start.run select = some terminal :=
    Option.isSome_iff_exists.mp (by decide +kernel)
  have hstate : (start.run select).map (fun t => (t.parser.isGround, t.utf8.held)) = some (true, []) := by
    decide +kernel
  have hingest : ((start.run select).bind fun t => t.ingest [0x71]).map
      (fun t => (t.lastGraphicCharacter, t.utf8.held)) = some (some '─', []) := by
    decide +kernel
  have hletter : ∀ utf8 : Utf8Decoder, ((start.run select).bind fun t =>
      (print { t with utf8 := utf8 } 'q').map Terminal.lastGraphicCharacter) = some (some 'q') :=
    fun utf8 => rfl
  rw [hrun, Option.map_some, Option.some.injEq, Prod.mk.injEq] at hstate
  rw [hrun, Option.bind_some] at hingest
  obtain ⟨terminal', hterminal', hshown⟩ := Option.map_eq_some_iff.mp hingest
  obtain ⟨hlast, hheld⟩ := Prod.mk.inj hshown
  refine ⟨terminal, terminal', hrun, hstate.1, hterminal', ?_, fun hprints => ?_⟩
  · rw [hstate.2, hheld]
    exact .code (a := 'q') .done
  · obtain ⟨utf8, printed, hprint, hsame⟩ := hprints.last_of_one rfl
    have hq := hletter utf8
    rw [hrun, Option.bind_some, hprint, Option.map_some, Option.some.injEq, ← hsame, hlast] at hq
    exact absurd hq (by decide)

end Terminal

end FesTerm
