import FesTerm.Document.Text
import FesTerm.Lib.PrefixCode

/-!
# UTF-8 proofs

The encoding of a character is read back from the front of any byte sequence, and its first byte is
told from the others, so it is read back from the end as well. `fromUtf8` inverts the encoding of a
text, and accepts nothing else.
-/

namespace FesTerm.Document

open PrefixCode List

/-! ## Encodings of characters -/

theorem utf8EncodeChar_reads_back : ReadsBack String.utf8EncodeChar := by
  intro c d rest rest' h
  have hbytes : (String.utf8EncodeChar c).toByteArray ++ rest.toByteArray =
      (String.utf8EncodeChar d).toByteArray ++ rest'.toByteArray := by
    rw [← toByteArray_append, ← toByteArray_append, h]
  have hc := @ByteArray.utf8DecodeChar?_utf8EncodeChar_append rest.toByteArray c
  have hd := @ByteArray.utf8DecodeChar?_utf8EncodeChar_append rest'.toByteArray d
  rw [hbytes, hd] at hc
  cases hc
  exact ⟨rfl, append_cancel_left h⟩

@[simp] theorem utf8Bytes_nil : utf8Bytes [] = [] := rfl

@[simp] theorem utf8Bytes_cons (c : Char) (text : Text) :
    utf8Bytes (c :: text) = String.utf8EncodeChar c ++ utf8Bytes text := rfl

@[simp] theorem utf8Bytes_append (front back : Text) :
    utf8Bytes (front ++ back) = utf8Bytes front ++ utf8Bytes back := by
  simp [utf8Bytes]

theorem length_utf8Bytes (text : Text) : (utf8Bytes text).length = utf8Len text := by
  induction text with
  | nil => rfl
  | cons c text ih =>
    rw [utf8Bytes_cons, length_append, String.length_utf8EncodeChar, ih]
    simp [utf8Len]

theorem scalar_cases (c : Char) : c.toNat < 0xd800 ∨ 0xdfff < c.toNat ∧ c.toNat < 0x110000 := by
  have := c.valid
  unfold UInt32.isValidChar Nat.isValidChar at this
  exact this

theorem utf8EncodeChar_cases (c : Char) : (c.toNat < 0x80 ∧ String.utf8EncodeChar c = [UInt8.ofNat c.toNat]) ∨
    (0x80 ≤ c.toNat ∧ c.toNat < 0x800 ∧ String.utf8EncodeChar c =
      [UInt8.ofNat (c.toNat / 64 + 0xc0), UInt8.ofNat (c.toNat % 64 + 0x80)]) ∨
    (0x800 ≤ c.toNat ∧ c.toNat < 0x10000 ∧ String.utf8EncodeChar c =
      [UInt8.ofNat (c.toNat / 4096 + 0xe0), UInt8.ofNat (c.toNat / 64 % 64 + 0x80),
       UInt8.ofNat (c.toNat % 64 + 0x80)]) ∨
    (0x10000 ≤ c.toNat ∧ String.utf8EncodeChar c =
      [UInt8.ofNat (c.toNat / 262144 + 0xf0), UInt8.ofNat (c.toNat / 4096 % 64 + 0x80),
       UInt8.ofNat (c.toNat / 64 % 64 + 0x80), UInt8.ofNat (c.toNat % 64 + 0x80)]) := by
  have hscalar := scalar_cases c
  have hval : c.val.toNat = c.toNat := rfl
  unfold String.utf8EncodeChar
  simp only [hval]
  split
  · exact .inl ⟨by omega, rfl⟩
  · split
    · refine .inr (.inl ⟨by omega, by omega, ?_⟩)
      rw [Nat.mod_eq_of_lt (show c.toNat / 64 < 0x20 by omega)]
    · split
      · refine .inr (.inr (.inl ⟨by omega, by omega, ?_⟩))
        rw [Nat.mod_eq_of_lt (show c.toNat / 4096 < 0x10 by omega)]
      · refine .inr (.inr (.inr ⟨by omega, ?_⟩))
        rw [Nat.mod_eq_of_lt (show c.toNat / 262144 < 0x08 by omega)]

/-! ## Decoding -/

variable {n : Nat}

theorem toNat_ofNat_byte (hn : n < 256) : (UInt8.ofNat n).toNat = n := by
  simp [Nat.mod_eq_of_lt hn]

theorem ofNat_lt (hn : n < 256) (limit : UInt8) : (UInt8.ofNat n < limit) = (n < limit.toNat) := by
  rw [UInt8.lt_iff_toNat_lt, toNat_ofNat_byte hn]

theorem ofNat_eq (hn : n < 256) (byte : UInt8) : (UInt8.ofNat n = byte) = (n = byte.toNat) := by
  rw [← UInt8.toNat_inj, toNat_ofNat_byte hn]

theorem ascii_mem_utf8EncodeChar {byte : UInt8} (hbyte : byte.toNat < 0x80) {c : Char} :
    byte ∈ String.utf8EncodeChar c ↔ c.toNat = byte.toNat := by
  have hscalar := scalar_cases c
  have hof : ∀ {n : Nat}, n < 256 → (byte = UInt8.ofNat n ↔ n = byte.toNat) := by
    intro n hn
    rw [eq_comm, ofNat_eq hn]
  rcases utf8EncodeChar_cases c with ⟨hlt, henc⟩ | ⟨hge, hlt, henc⟩ | ⟨hge, hlt, henc⟩ | ⟨hge, henc⟩
  · rw [henc, mem_singleton, hof (by omega)]
  · simp only [henc, mem_cons, not_mem_nil, or_false]
    rw [hof (by omega), hof (by omega)]
    omega
  · simp only [henc, mem_cons, not_mem_nil, or_false]
    rw [hof (by omega), hof (by omega), hof (by omega)]
    omega
  · simp only [henc, mem_cons, not_mem_nil, or_false]
    rw [hof (by omega), hof (by omega), hof (by omega), hof (by omega)]
    omega

theorem tailBits_ofNat (hn : n < 64) : tailBits (UInt8.ofNat (n + 0x80)) = n := by
  rw [tailBits, toNat_ofNat_byte (by omega)]
  omega

theorem inRange_ofNat_iff (low high n : Nat) (hlow : low < 256) (hhigh : high < 256) (hn : n < 256) :
    inRange (UInt8.ofNat low) (UInt8.ofNat high) (UInt8.ofNat n) = true ↔ low ≤ n ∧ n ≤ high := by
  simp only [inRange, UInt8.le_iff_toNat_le, toNat_ofNat_byte hlow, toNat_ofNat_byte hhigh,
    toNat_ofNat_byte hn, Bool.and_eq_true, decide_eq_true_eq]

theorem validSecondByte_ofNat {lead : Nat} (hlead : lead < 256) (hn : n < 64)
    (he0 : lead = 0xe0 → 0x20 ≤ n) (hed : lead = 0xed → n < 0x20) (hf0 : lead = 0xf0 → 0x10 ≤ n)
    (hf4 : lead = 0xf4 → n < 0x10) : validSecondByte (UInt8.ofNat lead) (UInt8.ofNat (n + 0x80)) = true := by
  have hbyte : n + 0x80 < 256 := by omega
  unfold validSecondByte
  simp only [ofNat_eq hlead]
  split
  · rename_i h
    have := he0 h
    exact (inRange_ofNat_iff 0xa0 0xbf _ (by decide) (by decide) hbyte).mpr (by omega)
  · split
    · rename_i h
      have := hed h
      exact (inRange_ofNat_iff 0x80 0x9f _ (by decide) (by decide) hbyte).mpr (by omega)
    · split
      · rename_i h
        have := hf0 h
        exact (inRange_ofNat_iff 0x90 0xbf _ (by decide) (by decide) hbyte).mpr (by omega)
      · split
        · rename_i h
          have := hf4 h
          exact (inRange_ofNat_iff 0x80 0x8f _ (by decide) (by decide) hbyte).mpr (by omega)
        · exact (inRange_ofNat_iff 0x80 0xbf _ (by decide) (by decide) hbyte).mpr (by omega)

theorem continuation_ofNat (hn : n < 64) : inRange 0x80 0xbf (UInt8.ofNat (n + 0x80)) = true :=
  (inRange_ofNat_iff 0x80 0xbf _ (by decide) (by decide) (by omega)).mpr (by omega)

section Branches

variable {a b c d : UInt8} {rest : List UInt8}

theorem fromUtf8_one (ha : a < 0x80) :
    fromUtf8 (a :: rest) = (fromUtf8 rest).map (Char.ofNat a.toNat :: ·) := by
  rw [fromUtf8.eq_def]
  simp only [ha, if_true]

theorem fromUtf8_two (ha : ¬ a < 0x80) (hlead : inRange 0xc2 0xdf a = true)
    (hb : validSecondByte a b = true) :
    fromUtf8 (a :: b :: rest) =
      (fromUtf8 rest).map (Char.ofNat ((a.toNat % 32) * 64 + tailBits b) :: ·) := by
  rw [fromUtf8.eq_def]
  simp only [ha, if_false, hb, hlead, Bool.not_true, Bool.false_eq_true, if_true]

theorem fromUtf8_three (ha : ¬ a < 0x80) (htwo : ¬ inRange 0xc2 0xdf a = true)
    (hlead : inRange 0xe0 0xef a = true) (hb : validSecondByte a b = true)
    (hc : inRange 0x80 0xbf c = true) :
    fromUtf8 (a :: b :: c :: rest) =
      (fromUtf8 rest).map
        (Char.ofNat ((a.toNat % 16) * 4096 + tailBits b * 64 + tailBits c) :: ·) := by
  rw [fromUtf8.eq_def]
  simp only [ha, if_false, hb, htwo, hlead, hc, Bool.not_true, Bool.false_eq_true, if_true]

theorem fromUtf8_four (ha : ¬ a < 0x80) (htwo : ¬ inRange 0xc2 0xdf a = true)
    (hthree : ¬ inRange 0xe0 0xef a = true) (hlead : inRange 0xf0 0xf4 a = true)
    (hb : validSecondByte a b = true) (hc : inRange 0x80 0xbf c = true)
    (hd : inRange 0x80 0xbf d = true) :
    fromUtf8 (a :: b :: c :: d :: rest) =
      (fromUtf8 rest).map (Char.ofNat ((a.toNat % 8) * 262144 + tailBits b * 4096 +
        tailBits c * 64 + tailBits d) :: ·) := by
  rw [fromUtf8.eq_def]
  simp only [ha, if_false, hb, htwo, hthree, hlead, hc, hd, Bool.not_true, Bool.false_eq_true, if_true]

end Branches

theorem lead_not_ascii (hn : n < 256) (hge : 0x80 ≤ n) : ¬ UInt8.ofNat n < 0x80 := by
  rw [ofNat_lt hn]
  exact Nat.not_lt.mpr hge

/-- The decoder reads an encoded character. -/
theorem fromUtf8_encode_append (c : Char) (rest : List UInt8) :
    fromUtf8 (String.utf8EncodeChar c ++ rest) = (fromUtf8 rest).map (c :: ·) := by
  have hscalar := scalar_cases c
  have hchar : ∀ n, n = c.toNat → Char.ofNat n = c := by
    rintro _ rfl
    exact Char.ofNat_toNat c
  rcases utf8EncodeChar_cases c with ⟨hlt, henc⟩ | ⟨hge, hlt, henc⟩ | ⟨hge, hlt, henc⟩ | ⟨hge, henc⟩
  · rw [henc, singleton_append, fromUtf8_one ((ofNat_lt (by omega) _).mpr hlt),
      toNat_ofNat_byte (by omega), hchar _ rfl]
  · have hlead : c.toNat / 64 + 0xc0 < 256 := by omega
    have hsecond := validSecondByte_ofNat hlead (Nat.mod_lt c.toNat (by decide : 0 < 64))
      (by omega) (by omega) (by omega) (by omega)
    have htwo := (inRange_ofNat_iff 0xc2 0xdf _ (by decide) (by decide) hlead).mpr (by omega)
    rw [henc, cons_append, cons_append, nil_append,
      fromUtf8_two (lead_not_ascii hlead (by omega)) htwo hsecond, toNat_ofNat_byte hlead,
      tailBits_ofNat (Nat.mod_lt _ (by decide)), hchar _ (by omega)]
  · have hlead : c.toNat / 4096 + 0xe0 < 256 := by omega
    have hsecond := validSecondByte_ofNat hlead (Nat.mod_lt (c.toNat / 64) (by decide : 0 < 64))
      (by omega) (by omega) (by omega) (by omega)
    have htwo := (inRange_ofNat_iff 0xc2 0xdf _ (by decide) (by decide) hlead).not.mpr (by omega)
    have hthree := (inRange_ofNat_iff 0xe0 0xef _ (by decide) (by decide) hlead).mpr (by omega)
    rw [henc, cons_append, cons_append, cons_append, nil_append,
      fromUtf8_three (lead_not_ascii hlead (by omega)) htwo hthree hsecond
        (continuation_ofNat (Nat.mod_lt _ (by decide))), toNat_ofNat_byte hlead,
      tailBits_ofNat (Nat.mod_lt _ (by decide)), tailBits_ofNat (Nat.mod_lt _ (by decide)),
      hchar _ (by omega)]
  · have hlead : c.toNat / 262144 + 0xf0 < 256 := by omega
    have hsecond := validSecondByte_ofNat hlead (Nat.mod_lt (c.toNat / 4096) (by decide : 0 < 64))
      (by omega) (by omega) (by omega) (by omega)
    have htwo := (inRange_ofNat_iff 0xc2 0xdf _ (by decide) (by decide) hlead).not.mpr (by omega)
    have hthree := (inRange_ofNat_iff 0xe0 0xef _ (by decide) (by decide) hlead).not.mpr (by omega)
    have hfour := (inRange_ofNat_iff 0xf0 0xf4 _ (by decide) (by decide) hlead).mpr (by omega)
    rw [henc, cons_append, cons_append, cons_append, cons_append, nil_append,
      fromUtf8_four (lead_not_ascii hlead (by omega)) htwo hthree hfour hsecond
        (continuation_ofNat (Nat.mod_lt _ (by decide)))
        (continuation_ofNat (Nat.mod_lt _ (by decide))), toNat_ofNat_byte hlead,
      tailBits_ofNat (Nat.mod_lt _ (by decide)), tailBits_ofNat (Nat.mod_lt _ (by decide)),
      tailBits_ofNat (Nat.mod_lt _ (by decide)), hchar _ (by omega)]

theorem fromUtf8_utf8Bytes (text : Text) : fromUtf8 (utf8Bytes text) = some text := by
  induction text with
  | nil => rfl
  | cons c text ih => rw [utf8Bytes_cons, fromUtf8_encode_append, ih, Option.map_some]

theorem toNat_of_inRange {low high byte : UInt8} (h : inRange low high byte = true) :
    low.toNat ≤ byte.toNat ∧ byte.toNat ≤ high.toNat := by
  simpa only [inRange, Bool.and_eq_true, decide_eq_true_eq, UInt8.le_iff_toNat_le] using h

/-- What the second byte is restricted to behind the four leads that restrict it. -/
theorem toNat_of_validSecondByte {a b : UInt8} (h : validSecondByte a b = true) :
    0x80 ≤ b.toNat ∧ b.toNat ≤ 0xbf ∧ (a.toNat = 0xe0 → 0xa0 ≤ b.toNat) ∧
      (a.toNat = 0xed → b.toNat ≤ 0x9f) ∧ (a.toNat = 0xf0 → 0x90 ≤ b.toNat) ∧
      (a.toNat = 0xf4 → b.toNat ≤ 0x8f) := by
  have hbyte : ∀ n : UInt8, (a = n) = (a.toNat = n.toNat) := fun n => by rw [UInt8.toNat_inj]
  unfold validSecondByte at h
  simp only [hbyte] at h
  split at h
  · rename_i ha
    have hb := toNat_of_inRange h
    simp only [UInt8.reduceToNat] at ha hb
    omega
  · split at h
    · rename_i ha
      have hb := toNat_of_inRange h
      simp only [UInt8.reduceToNat] at ha hb
      omega
    · split at h
      · rename_i ha
        have hb := toNat_of_inRange h
        simp only [UInt8.reduceToNat] at ha hb
        omega
      · split at h
        · rename_i ha
          have hb := toNat_of_inRange h
          simp only [UInt8.reduceToNat] at ha hb
          omega
        · rename_i he0 hed hf0 hf4
          have hb := toNat_of_inRange h
          simp only [UInt8.reduceToNat] at he0 hed hf0 hf4 hb
          omega

theorem toNat_ofNat_scalar (h : n < 0xd800 ∨ 0xdfff < n ∧ n < 0x110000) : (Char.ofNat n).toNat = n := by
  have hvalid : n.isValidChar := h
  rw [Char.ofNat, dif_pos hvalid]
  rfl

theorem byte_eq_ofNat (byte : UInt8) (h : byte.toNat = n) : UInt8.ofNat n = byte := by
  rw [← h]
  simp

section Encodings

variable {a b c d : UInt8}

theorem encode_one (ha : a < 0x80) : String.utf8EncodeChar (Char.ofNat a.toNat) = [a] := by
  have hnat : a.toNat < 0x80 := UInt8.lt_iff_toNat_lt.mp ha
  have hscalar := toNat_ofNat_scalar (n := a.toNat) (by omega)
  rcases utf8EncodeChar_cases (Char.ofNat a.toNat) with ⟨-, henc⟩ | ⟨hge, -⟩ | ⟨hge, -⟩ | ⟨hge, -⟩
  · rw [henc, hscalar, byte_eq_ofNat a rfl]
  all_goals omega

theorem encode_two (hlead : inRange 0xc2 0xdf a = true) (hb : validSecondByte a b = true) :
    String.utf8EncodeChar (Char.ofNat ((a.toNat % 32) * 64 + tailBits b)) = [a, b] := by
  have ha := toNat_of_inRange hlead
  have hb := toNat_of_validSecondByte hb
  simp only [UInt8.reduceToNat] at ha
  unfold tailBits
  generalize hn : (a.toNat % 32) * 64 + b.toNat % 64 = n
  have hscalar := toNat_ofNat_scalar (n := n) (by omega)
  rcases utf8EncodeChar_cases (Char.ofNat n) with ⟨hlt, -⟩ | ⟨-, -, henc⟩ | ⟨hge, -⟩ | ⟨hge, -⟩
  · omega
  · rw [henc, hscalar, byte_eq_ofNat a (by omega), byte_eq_ofNat b (by omega)]
  all_goals omega

theorem encode_three (hlead : inRange 0xe0 0xef a = true) (hb : validSecondByte a b = true)
    (hc : inRange 0x80 0xbf c = true) :
    String.utf8EncodeChar
      (Char.ofNat ((a.toNat % 16) * 4096 + tailBits b * 64 + tailBits c)) = [a, b, c] := by
  have ha := toNat_of_inRange hlead
  have hb := toNat_of_validSecondByte hb
  have hc := toNat_of_inRange hc
  simp only [UInt8.reduceToNat] at ha hc
  unfold tailBits
  generalize hn : (a.toNat % 16) * 4096 + b.toNat % 64 * 64 + c.toNat % 64 = n
  have hscalar := toNat_ofNat_scalar (n := n) (by omega)
  rcases utf8EncodeChar_cases (Char.ofNat n) with ⟨hlt, -⟩ | ⟨-, hlt, -⟩ | ⟨-, -, henc⟩ | ⟨hge, -⟩
  · omega
  · omega
  · rw [henc, hscalar, byte_eq_ofNat a (by omega), byte_eq_ofNat b (by omega), byte_eq_ofNat c (by omega)]
  · omega

theorem encode_four (hlead : inRange 0xf0 0xf4 a = true) (hb : validSecondByte a b = true)
    (hc : inRange 0x80 0xbf c = true) (hd : inRange 0x80 0xbf d = true) :
    String.utf8EncodeChar (Char.ofNat ((a.toNat % 8) * 262144 + tailBits b * 4096 +
      tailBits c * 64 + tailBits d)) = [a, b, c, d] := by
  have ha := toNat_of_inRange hlead
  have hb := toNat_of_validSecondByte hb
  have hc := toNat_of_inRange hc
  have hd := toNat_of_inRange hd
  simp only [UInt8.reduceToNat] at ha hc hd
  unfold tailBits
  generalize hn : (a.toNat % 8) * 262144 + b.toNat % 64 * 4096 + c.toNat % 64 * 64 +
    d.toNat % 64 = n
  have hscalar := toNat_ofNat_scalar (n := n) (by omega)
  rcases utf8EncodeChar_cases (Char.ofNat n) with ⟨hlt, -⟩ | ⟨-, hlt, -⟩ | ⟨-, hlt, -⟩ | ⟨-, henc⟩
  · omega
  · omega
  · omega
  · rw [henc, hscalar, byte_eq_ofNat a (by omega), byte_eq_ofNat b (by omega),
      byte_eq_ofNat c (by omega), byte_eq_ofNat d (by omega)]

end Encodings

/-- The decoder accepts nothing but encoded texts. -/
theorem utf8Bytes_of_fromUtf8 : ∀ (bytes : List UInt8) {text : Text},
    fromUtf8 bytes = some text → utf8Bytes text = bytes := by
  intro bytes
  induction hlen : bytes.length using Nat.strong_induction_on generalizing bytes with
  | _ length ih =>
    intro text h
    have htail : ∀ (lead : List UInt8) {rest : List UInt8} {c : Char}, bytes = lead ++ rest → lead ≠ [] →
        String.utf8EncodeChar c = lead → (fromUtf8 rest).map (c :: ·) = some text →
        utf8Bytes text = bytes := by
      intro lead rest c hbytes hlead henc hmap
      obtain ⟨text', hrest, rfl⟩ := Option.map_eq_some_iff.mp hmap
      have hlt : rest.length < length := by
        have := length_pos_of_ne_nil hlead
        rw [← hlen, hbytes, length_append]
        omega
      rw [utf8Bytes_cons, henc, ih rest.length hlt rest rfl hrest, hbytes]
    rw [fromUtf8.eq_def] at h
    split at h
    · cases h
      rfl
    · rename_i a rest
      split at h
      · rename_i ha
        exact htail [a] rfl (by simp) (encode_one ha) h
      · split at h
        · cases h
        · rename_i b rest
          split at h
          · cases h
          · rename_i hb
            replace hb : validSecondByte a b = true := by simpa using hb
            split at h
            · rename_i hlead
              exact htail [a, b] rfl (by simp) (encode_two hlead hb) h
            · split at h
              · cases h
              · rename_i c rest
                split at h
                · cases h
                · rename_i hc
                  replace hc : inRange 0x80 0xbf c = true := by simpa using hc
                  split at h
                  · rename_i hlead
                    exact htail [a, b, c] rfl (by simp) (encode_three hlead hb hc) h
                  · split at h
                    · cases h
                    · rename_i d rest
                      split at h
                      · cases h
                      · rename_i hd
                        replace hd : inRange 0x80 0xbf d = true := by simpa using hd
                        split at h
                        · rename_i hlead
                          exact htail [a, b, c, d] rfl (by simp)
                            (encode_four hlead hb hc hd) h
                        · cases h

end FesTerm.Document
