import FesTerm.Document.Proofs.SessionProofs

/-!
# Saving proofs

What `to_bytes` writes is read back by `from_bytes` when the text is one that `from_bytes` could
have produced and the written form fits. Loading guarantees the first, but edits are not held to it:
`Saveable` is exactly what they have to leave alone. The other way round, bytes with uniform line
endings are written back as they were read.
-/

namespace FesTerm.Document

open Checked PrefixCode List

/-! ## Line endings -/

attribute [local simp] normaliseLineEndings countCrlf

/-- The line endings of a text, in order. -/
@[simp] def endings : Text → List LineEnding
  | [] => []
  | '\r' :: '\n' :: rest => .crlf :: endings rest
  | '\r' :: rest => .cr :: endings rest
  | '\n' :: rest => .lf :: endings rest
  | _ :: rest => endings rest

def withEndings (ending : LineEnding) (text : Text) : Text :=
  text.flatMap fun c => if c = '\n' then ending.asStr else [c]

@[simp] theorem withEndings_nil (ending : LineEnding) : withEndings ending [] = [] := rfl

@[simp] theorem withEndings_cons (ending : LineEnding) (c : Char) (text : Text) :
    withEndings ending (c :: text) =
      (if c = '\n' then ending.asStr else [c]) ++ withEndings ending text := rfl

theorem withEndings_lf (text : Text) : withEndings .lf text = text := by
  induction text with
  | nil => rfl
  | cons c text ih =>
    rw [withEndings_cons, ih]
    split
    · rename_i hc
      rw [hc]
      rfl
    · rfl

theorem carriageReturn_not_mem_normalise (text : Text) : '\r' ∉ normaliseLineEndings text := by
  fun_induction normaliseLineEndings text with
  | case1 => simp
  | case2 rest ih | case3 rest _ ih => simp [ih]
  | case4 c rest _ hc ih =>
    intro hmem
    rcases mem_cons.mp hmem with h | h
    · exact hc h.symm
    · exact ih h

theorem normalise_cons {c : Char} (hc : c ≠ '\r') (rest : Text) :
    normaliseLineEndings (c :: rest) = c :: normaliseLineEndings rest := by
  rw [normaliseLineEndings]
  · exact fun rest' hr _ => hc hr
  · exact hc

theorem normalise_crlf (rest : Text) :
    normaliseLineEndings ('\r' :: '\n' :: rest) = '\n' :: normaliseLineEndings rest := by
  rw [normaliseLineEndings]

theorem normalise_cr {rest : Text} (h : rest.head? ≠ some '\n') :
    normaliseLineEndings ('\r' :: rest) = '\n' :: normaliseLineEndings rest := by
  cases rest with
  | nil => rfl
  | cons c rest =>
    rw [normaliseLineEndings]
    rintro rest' ⟨rfl, -⟩
    simp at h

theorem lineFeed_not_mem_withEndings_cr (text : Text) : '\n' ∉ withEndings .cr text := by
  induction text with
  | nil => simp
  | cons c text ih =>
    rw [withEndings_cons, mem_append, not_or]
    refine ⟨?_, ih⟩
    split
    · decide
    · rename_i hc
      simpa using Ne.symm hc

variable {text : Text} {ending : LineEnding} {document : TextDocument}

theorem normalise_withEndings (ending : LineEnding) (h : '\r' ∉ text) :
    normaliseLineEndings (withEndings ending text) = text := by
  induction text with
  | nil => rfl
  | cons c text ih =>
    rw [mem_cons, not_or] at h
    have htail := ih h.2
    rw [withEndings_cons]
    split
    · rename_i hc
      subst hc
      cases ending with
      | lf => rw [LineEnding.asStr, singleton_append, normalise_cons (by decide), htail]
      | crlf => rw [LineEnding.asStr, cons_append, singleton_append, normalise_crlf, htail]
      | cr =>
        rw [LineEnding.asStr, singleton_append, normalise_cr, htail]
        intro hhead
        exact lineFeed_not_mem_withEndings_cr text (mem_of_mem_head? hhead)
    · rw [singleton_append, normalise_cons (Ne.symm h.1), htail]

theorem withEndings_normalise (text : Text) (h : ∀ other ∈ endings text, other = ending) :
    withEndings ending (normaliseLineEndings text) = text := by
  fun_induction endings text with
  | case1 => rfl
  | case2 rest ih =>
    obtain rfl := h .crlf (by simp)
    rw [normalise_crlf, withEndings_cons, if_pos rfl, ih fun other ho => h other (by simp [ho])]
    rfl
  | case3 rest hne ih =>
    obtain rfl := h .cr (by simp)
    have hhead : rest.head? ≠ some '\n' := by
      intro hhead
      obtain ⟨tail, rfl⟩ := head?_eq_some_iff.mp hhead
      exact hne tail rfl
    rw [normalise_cr hhead, withEndings_cons, if_pos rfl, ih fun other ho => h other (by simp [ho])]
    rfl
  | case4 rest ih =>
    obtain rfl := h .lf (by simp)
    rw [normalise_cons (by decide), withEndings_cons, if_pos rfl, ih fun other ho => h other (by simp [ho])]
    rfl
  | case5 c rest _ hr hn ih =>
    rw [normalise_cons hr, withEndings_cons, if_neg hn, ih h]
    rfl

/-- The counts that `detect_line_ending` compares are the counts of the endings. -/
theorem count_endings (text : Text) : countCrlf text = (endings text).count .crlf ∧
      text.count '\r' = (endings text).count .crlf + (endings text).count .cr ∧
      text.count '\n' = (endings text).count .crlf + (endings text).count .lf := by
  fun_induction endings text with
  | case1 => exact ⟨rfl, rfl, rfl⟩
  | case2 rest ih =>
    obtain ⟨hcrlf, hr, hn⟩ := ih
    rw [countCrlf, hcrlf]
    simp only [count_cons, hr, hn]
    simp
    omega
  | case3 rest hne ih =>
    obtain ⟨hcrlf, hr, hn⟩ := ih
    have hstep : countCrlf ('\r' :: rest) = countCrlf rest := by
      rw [countCrlf]
      exact fun rest' _ => hne rest'
    rw [hstep, hcrlf]
    simp only [count_cons, hr, hn]
    simp
    omega
  | case4 rest ih =>
    obtain ⟨hcrlf, hr, hn⟩ := ih
    have hstep : countCrlf ('\n' :: rest) = countCrlf rest := by
      rw [countCrlf]
      rintro rest' ⟨⟩
    rw [hstep, hcrlf]
    simp only [count_cons, hr, hn]
    simp
    omega
  | case5 c rest _ hcr hlf ih =>
    obtain ⟨hcrlf, hr, hn⟩ := ih
    have hstep : countCrlf (c :: rest) = countCrlf rest := by
      rw [countCrlf]
      exact fun rest' h _ => hcr h
    rw [hstep, hcrlf]
    simp only [count_cons, hr, hn]
    simp
    exact ⟨hcr, hlf⟩

theorem detectLineEnding_eq (h : ∀ other ∈ endings text, other = ending) (hne : endings text ≠ []) :
    detectLineEnding text = ending := by
  obtain ⟨hcrlf, hr, hn⟩ := count_endings text
  have hall : endings text = List.replicate (endings text).length ending :=
    eq_replicate_iff.mpr ⟨rfl, h⟩
  have hpos : 0 < (endings text).length := length_pos_of_ne_nil hne
  rw [hall] at hcrlf hr hn
  generalize (endings text).length = n at *
  unfold detectLineEnding
  rw [hcrlf, hr, hn]
  cases ending <;> simp [List.count_replicate] <;> omega

/-- The written form has the endings it was written with. -/
theorem endings_withEndings (ending : LineEnding) (h : '\r' ∉ text) :
    ∀ other ∈ endings (withEndings ending text), other = ending := by
  induction text with
  | nil => simp [endings]
  | cons c text ih =>
    rw [mem_cons, not_or] at h
    have htail := ih h.2
    rw [withEndings_cons]
    split
    · rename_i hc
      subst hc
      cases ending with
      | lf =>
        intro other hother
        rw [LineEnding.asStr, singleton_append, endings] at hother
        rcases mem_cons.mp hother with rfl | hother
        · rfl
        · exact htail other hother
      | crlf =>
        intro other hother
        rw [LineEnding.asStr, cons_append, singleton_append, endings] at hother
        rcases mem_cons.mp hother with rfl | hother
        · rfl
        · exact htail other hother
      | cr =>
        intro other hother
        rw [LineEnding.asStr, singleton_append, endings] at hother
        · rcases mem_cons.mp hother with rfl | hother
          · rfl
          · exact htail other hother
        · intro rest hrest
          exact lineFeed_not_mem_withEndings_cr text (hrest ▸ mem_cons_self)
    · rename_i hc
      intro other hother
      rw [singleton_append, endings] at hother
      · exact htail other hother
      · exact fun _ hr _ => h.1 hr.symm
      · exact fun hr => h.1 hr.symm
      · exact hc

theorem endings_withEndings_ne_nil (ending : LineEnding) (h : '\n' ∈ text) :
    endings (withEndings ending text) ≠ [] := by
  intro hnil
  obtain ⟨-, hr, hn⟩ := count_endings (withEndings ending text)
  rw [hnil] at hr hn
  simp only [count_nil, Nat.add_zero, List.count_eq_zero] at hr hn
  have hmem : ∀ c ∈ ending.asStr, c ∈ withEndings ending text := fun c hc =>
    mem_flatMap.mpr ⟨'\n', h, by simpa using hc⟩
  cases ending with
  | lf | crlf => exact hn (hmem '\n' (by decide))
  | cr => exact hr (hmem '\r' (by decide))

/-! ## Written bytes -/

theorem toBytes_eq (document : TextDocument) :
    document.toBytes = (if document.encoding = .utf8Bom then byteOrderMark else []) ++
      utf8Bytes (withEndings document.lineEnding document.text) := by
  unfold TextDocument.toBytes
  cases hending : document.lineEnding with
  | lf => rw [withEndings_lf]
  | crlf | cr => rfl

/-- The length of the written form. -/
def writtenLength (document : TextDocument) : Nat :=
  utf8Len document.text + (if document.lineEnding = .crlf then document.text.count '\n' else 0) +
    (if document.encoding = .utf8Bom then 3 else 0)

theorem utf8Len_withEndings (ending : LineEnding) (text : Text) : utf8Len (withEndings ending text) =
      utf8Len text + (if ending = .crlf then text.count '\n' else 0) := by
  induction text with
  | nil => simp
  | cons c text ih =>
    rw [withEndings_cons, utf8Len_append, ih, utf8Len_cons, count_cons]
    by_cases hc : c = '\n'
    · subst hc
      cases ending with
      | lf => simp [LineEnding.asStr]
      | crlf =>
        have hsize : utf8Len LineEnding.crlf.asStr = Char.utf8Size '\n' + 1 := by decide
        simp only [if_true, hsize, beq_self_eq_true]
        omega
      | cr =>
        have hsize : utf8Len LineEnding.cr.asStr = Char.utf8Size '\n' := by decide
        simp [hsize]
    · simp [hc]
      omega

theorem length_toBytes (document : TextDocument) :
    document.toBytes.length = writtenLength document := by
  rw [toBytes_eq, length_append, length_utf8Bytes, utf8Len_withEndings, writtenLength]
  split
  · simp only [byteOrderMark, length_cons, length_nil]
    omega
  · simp only [length_nil]
    omega

theorem zero_mem_utf8EncodeChar {c : Char} : 0 ∈ String.utf8EncodeChar c ↔ c = '\x00' := by
  rw [ascii_mem_utf8EncodeChar (by decide)]
  exact Char.toNat_inj (d := '\x00')

theorem zero_mem_utf8Bytes : 0 ∈ utf8Bytes text ↔ '\x00' ∈ text := by
  rw [utf8Bytes, mem_flatMap]
  constructor
  · rintro ⟨c, hmem, hzero⟩
    obtain rfl := zero_mem_utf8EncodeChar.mp hzero
    exact hmem
  · exact fun hmem => ⟨_, hmem, zero_mem_utf8EncodeChar.mpr rfl⟩

theorem byteOrderMark_eq : byteOrderMark = utf8Bytes ['\uFEFF'] := by decide

theorem stripByteOrderMark_mark (bytes : List UInt8) :
    stripByteOrderMark (byteOrderMark ++ bytes) = (.utf8Bom, bytes) := rfl

theorem stripByteOrderMark_utf8Bytes (h : text.head? ≠ some '\uFEFF') :
    stripByteOrderMark (utf8Bytes text) = (.utf8, utf8Bytes text) := by
  rw [stripByteOrderMark]
  intro rest hbytes
  have hmark : utf8Bytes text = utf8Bytes ['\uFEFF'] ++ rest := by
    rw [hbytes, ← byteOrderMark_eq]
    rfl
  obtain ⟨back, rfl⟩ := append_of_bytes hmark
  exact h rfl

theorem head_withEndings : (withEndings ending text).head? = some '\uFEFF' ↔ text.head? = some '\uFEFF' := by
  cases text with
  | nil => simp
  | cons c text =>
    rw [withEndings_cons]
    split
    · rename_i hc
      subst hc
      cases ending <;> simp [LineEnding.asStr]
    · simp

theorem nul_mem_withEndings : '\x00' ∈ withEndings ending text ↔ '\x00' ∈ text := by
  rw [withEndings, mem_flatMap]
  constructor
  · rintro ⟨c, hmem, hc⟩
    split at hc
    · cases ending <;> simp [LineEnding.asStr] at hc
    · obtain rfl := mem_singleton.mp hc
      exact hmem
  · exact fun hmem => ⟨_, hmem, by simp⟩

/-! ## Reopening -/

/-- What is saved is opened again with the same text and encoding, and with the same line ending
when there is a line to end. -/
def Reopens (document : TextDocument) : Prop :=
  ∃ reopened, TextDocument.fromBytes document.toBytes document.bounds = .ok reopened ∧
    reopened.text = document.text ∧ reopened.encoding = document.encoding ∧
    ('\n' ∈ document.text → reopened.lineEnding = document.lineEnding)

/-- What edits have to leave alone: the characters that loading gives a meaning of its own, and the
room that the written form needs. -/
structure Saveable (document : TextDocument) : Prop where
  carriageReturn : '\r' ∉ document.text
  nul : '\x00' ∉ document.text
  mark : document.encoding = .utf8 → document.text.head? ≠ some '\uFEFF'
  room : writtenLength document ≤ document.bounds.maxBytes

theorem stripByteOrderMark_toBytes (h : document.encoding = .utf8 → document.text.head? ≠ some '\uFEFF') :
    stripByteOrderMark document.toBytes =
      (document.encoding, utf8Bytes (withEndings document.lineEnding document.text)) := by
  rw [toBytes_eq]
  cases hencoding : document.encoding with
  | utf8 =>
    rw [if_neg (by decide), nil_append, stripByteOrderMark_utf8Bytes]
    exact fun hhead => h hencoding (head_withEndings.mp hhead)
  | utf8Bom =>
    rw [if_pos rfl, stripByteOrderMark_mark]

theorem Saveable.reopens (h : Saveable document)
    (hlines : TextDocument.checkLines document.bounds document.text = .ok ()) : Reopens document := by
  have hstrip := stripByteOrderMark_toBytes h.mark
  have hnormal := normalise_withEndings document.lineEnding h.carriageReturn
  refine ⟨_, TextDocument.fromBytes_eq_ok_iff.mpr
    ⟨withEndings document.lineEnding document.text, ⟨?_, ?_, ?_, ?_⟩, rfl⟩, hnormal, ?_, ?_⟩
  · rw [length_toBytes]
    exact h.room
  · rw [hstrip, zero_mem_utf8Bytes, nul_mem_withEndings]
    exact h.nul
  · rw [hstrip, fromUtf8_utf8Bytes]
  · rw [hnormal]
    exact hlines
  · rw [hstrip]
    rfl
  · intro hmem
    exact detectLineEnding_eq (endings_withEndings document.lineEnding h.carriageReturn)
      (endings_withEndings_ne_nil document.lineEnding hmem)

theorem Reopens.saveable (h : Reopens document) : Saveable document := by
  obtain ⟨reopened, hload, htext, hencoding, -⟩ := h
  obtain ⟨body, haccepts, rfl⟩ := TextDocument.fromBytes_eq_ok_iff.mp hload
  have hmark : document.encoding = .utf8 → document.text.head? ≠ some '\uFEFF' := by
    intro hutf8 hhead
    -- the first character would be taken for a mark
    have hwritten : (withEndings document.lineEnding document.text).head? = some '\uFEFF' :=
      head_withEndings.mpr hhead
    obtain ⟨tail, htail⟩ := head?_eq_some_iff.mp hwritten
    have hbytes : document.toBytes = byteOrderMark ++ utf8Bytes tail := by
      rw [toBytes_eq, if_neg (by rw [hutf8]; decide), nil_append, htail, byteOrderMark_eq]
      rfl
    rw [hbytes, stripByteOrderMark_mark, hutf8] at hencoding
    cases hencoding
  have hstrip := stripByteOrderMark_toBytes hmark
  refine ⟨?_, ?_, hmark, ?_⟩
  · rw [← htext]
    exact carriageReturn_not_mem_normalise body
  · have hzero := haccepts.text
    rw [hstrip, zero_mem_utf8Bytes, nul_mem_withEndings] at hzero
    exact hzero
  · rw [← length_toBytes]
    exact haccepts.size

theorem toBytes_fromBytes {bytes : List UInt8} {bounds : DocumentBounds}
    {body : Text} (hload : TextDocument.fromBytes bytes bounds = .ok document)
    (hbody : fromUtf8 (stripByteOrderMark bytes).2 = some body)
    (huniform : ∀ other ∈ endings body, other = ending) : document.toBytes = bytes := by
  obtain ⟨body', haccepts, rfl⟩ := TextDocument.fromBytes_eq_ok_iff.mp hload
  obtain rfl : body = body' := Option.some.inj (hbody.symm.trans haccepts.utf8)
  have hwritten : withEndings (detectLineEnding body) (normaliseLineEndings body) = body := by
    apply withEndings_normalise
    intro other hother
    have hne : endings body ≠ [] := ne_nil_of_mem hother
    rw [detectLineEnding_eq huniform hne]
    exact huniform other hother
  have hbytes := utf8Bytes_of_fromUtf8 _ hbody
  rw [toBytes_eq]
  simp only [TextDocument.decoded, hwritten, hbytes]
  unfold stripByteOrderMark
  split <;> rfl

section Sessions

variable [Allocation]

/-- At every moment of every session, saving and reopening loses nothing exactly when the document
is saveable; and bytes with line endings of one kind are written as they were read. -/
theorem saving_and_reopening : (∀ {start : Session}, Opened start → ∀ ops : List Op, ∃ session,
      start.run ops = some session ∧ (Reopens session.document ↔ Saveable session.document)) ∧
    ∀ {bytes : List UInt8} {bounds : DocumentBounds} {document : TextDocument} {body : Text}
      {ending : LineEnding}, TextDocument.fromBytes bytes bounds = .ok document →
      fromUtf8 (stripByteOrderMark bytes).2 = some body →
      (∀ other ∈ endings body, other = ending) → document.toBytes = bytes := by
  refine ⟨?_, toBytes_fromBytes⟩
  intro start hstart ops
  obtain ⟨session, log, positions, hrun, h, -, -⟩ := hstart.consistent.run ops
  refine ⟨session, hrun, Reopens.saveable, fun hsaveable => hsaveable.reopens ?_⟩
  exact h.lines _ _ h.token

end Sessions

/-- A carriage return that was typed is read back as a line feed. -/
theorem typed_carriage_return_lost :
    letI := Allocation.reference
    Opened (.loaded twoLetters) ∧
      ∃ session, (Session.loaded twoLetters).run [.edit (.replace 0 0 ['\r'])] = some session ∧
        ¬ Reopens session.document := by
  let _ := Allocation.reference
  refine ⟨.loaded twoLetters_loads, ?_⟩
  have hseen : ((Session.loaded twoLetters).run [.edit (.replace 0 0 ['\r'])]).map
      (fun session => session.document.text) = some ['\r', 'a', 'b'] := by decide +kernel
  obtain ⟨session, hrun, htext⟩ := Option.map_eq_some_iff.mp hseen
  refine ⟨session, hrun, fun hreopens => ?_⟩
  apply hreopens.saveable.carriageReturn
  rw [htext]
  exact mem_cons_self

end FesTerm.Document
