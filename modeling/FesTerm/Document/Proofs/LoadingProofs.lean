import FesTerm.Lib.Procedure
import FesTerm.Document.Proofs.Utf8Proofs

/-!
# Loading proofs

What `from_bytes` accepts, and what it makes of it.
-/

namespace FesTerm.Document

namespace TextDocument

/-- The document that `from_bytes` makes of a decoded body. -/
def decoded (encoding : Encoding) (body : Text) (bounds : DocumentBounds) : TextDocument where
  text := normaliseLineEndings body
  encoding := encoding
  lineEnding := detectLineEnding body
  indentation := detectIndentation (normaliseLineEndings body)
  bounds := bounds
  undoHistory := .new
  savedPoint := .history none
  revision := 0

/-- The checks that bytes pass on their way to a document. -/
structure Accepts (bytes : List UInt8) (bounds : DocumentBounds) (body : Text) : Prop where
  size : bytes.length ≤ bounds.maxBytes
  text : 0 ∉ (stripByteOrderMark bytes).2
  utf8 : fromUtf8 (stripByteOrderMark bytes).2 = some body
  lines : checkLines bounds (normaliseLineEndings body) = .ok ()

variable {bounds : DocumentBounds} {document : TextDocument} {bytes : List UInt8}

/-- `from_bytes` succeeds exactly when every check passes. -/
theorem fromBytes_eq_ok_iff : fromBytes bytes bounds = .ok document ↔
      ∃ body, Accepts bytes bounds body ∧
        document = decoded (stripByteOrderMark bytes).1 body bounds := by
  unfold fromBytes DocumentBounds.checkDeclaredSize
  by_cases hsize : bytes.length > bounds.maxBytes
  · rw [if_pos hsize]
    constructor
    · rintro ⟨⟩
    · rintro ⟨body, h, -⟩
      exact absurd h.size (Nat.not_le.mpr hsize)
  · rw [if_neg hsize]
    by_cases hnul : (stripByteOrderMark bytes).2.contains 0 = true
    · simp only [bind, Except.bind, hnul, if_true]
      constructor
      · rintro ⟨⟩
      · rintro ⟨body, h, -⟩
        exact absurd (List.contains_iff_mem.mp hnul) h.text
    · simp only [bind, Except.bind, hnul, Bool.false_eq_true, if_false]
      have hzero : 0 ∉ (stripByteOrderMark bytes).2 := fun hmem =>
        hnul (List.contains_iff_mem.mpr hmem)
      cases hutf8 : fromUtf8 (stripByteOrderMark bytes).2 with
      | none =>
        constructor
        · rintro ⟨⟩
        · rintro ⟨body, h, -⟩
          cases hutf8.symm.trans h.utf8
      | some body =>
        cases hlines : checkLines bounds (normaliseLineEndings body) with
        | error reason =>
          simp only [hlines]
          constructor
          · rintro ⟨⟩
          · rintro ⟨body', h, -⟩
            cases hutf8.symm.trans h.utf8
            cases hlines.symm.trans h.lines
        | ok =>
          simp only [hlines]
          constructor
          · rintro ⟨⟩
            exact ⟨body, ⟨Nat.not_lt.mp hsize, hzero, hutf8, hlines⟩, rfl⟩
          · rintro ⟨body', h, rfl⟩
            cases hutf8.symm.trans h.utf8
            rfl

theorem fromUnsavedBytes_ok
    (h : fromUnsavedBytes bytes bounds = .ok document) : ∃ loaded, fromBytes bytes bounds = .ok loaded ∧
      document = { loaded with savedPoint := .unwritten } := by
  obtain ⟨loaded, hload, h⟩ := Procedure.bind_eq_ok.mp h
  exact ⟨loaded, hload, (Except.ok.inj h).symm⟩

end TextDocument

end FesTerm.Document
