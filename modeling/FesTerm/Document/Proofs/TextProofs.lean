import FesTerm.Document.Proofs.UndoProofs
import FesTerm.Document.Proofs.Utf8Proofs

/-!
# Text document proofs

Every editing operation hands `apply_transaction` edits that fit the text they are applied to:
`replace` clamps its range to character boundaries, `sync_from_view` finds what two texts share at
both ends, `replace_all` finds each occurrence behind the last, and `apply_edits` checks. From there
one specification of `apply_transaction` serves them all.
-/

namespace FesTerm.Document

open Checked Splicing Timeline PrefixCode List Option

variable {text : Text}

theorem isCharBoundary_iff {index : Nat} :
    isCharBoundary text index = true ↔ ∃ front back, text = front ++ back ∧ utf8Len front = index := by
  rw [isCharBoundary, isSome_iff_exists]
  constructor
  · rintro ⟨⟨front, back⟩, hcut⟩
    exact ⟨front, back, cutText_eq_some_iff.mp hcut⟩
  · rintro ⟨front, back, h⟩
    exact ⟨(front, back), cutText_eq_some_iff.mpr h⟩

theorem sliceText_of_boundaries {start stop : Nat} (hle : start ≤ stop)
    (hstart : isCharBoundary text start = true) (hstop : isCharBoundary text stop = true) :
    ∃ front slice back, text = front ++ (slice ++ back) ∧ utf8Len front = start ∧
      stop = start + utf8Len slice ∧ sliceText text start stop = some slice := by
  obtain ⟨front, rest, rfl, rfl⟩ := isCharBoundary_iff.mp hstart
  obtain ⟨front', back, htext, rfl⟩ := isCharBoundary_iff.mp hstop
  rcases append_eq_append_iff.mp htext with ⟨slice, rfl, rfl⟩ | ⟨extra, rfl, hrest⟩
  · refine ⟨front, slice, back, rfl, rfl, utf8Len_append _ _, ?_⟩
    exact sliceText_append front slice back (utf8Len_append _ _)
  · -- the second boundary cannot be in front of the first
    have hextra : extra = [] := by
      rw [utf8Len_append] at hle
      exact utf8Len_eq_zero.mp (by omega)
    subst hextra
    simp only [append_nil, nil_append] at hrest hle ⊢
    refine ⟨front', [], rest, rfl, rfl, rfl, ?_⟩
    exact sliceText_append front' [] rest rfl

theorem floorCharBoundary_boundary (text : Text) (index : Nat) :
    isCharBoundary text (floorCharBoundary text index) = true ∧
      floorCharBoundary text index ≤ index := by
  induction index with
  | zero => exact ⟨isCharBoundary_iff.mpr ⟨[], text, rfl, rfl⟩, le_rfl⟩
  | succ index ih =>
    rw [floorCharBoundary]
    split
    · rename_i h
      exact ⟨h, le_rfl⟩
    · exact ⟨ih.1, Nat.le_succ_of_le ih.2⟩

theorem ceilCharBoundary_boundary (text : Text) : ∀ distance index : Nat, index + distance = utf8Len text →
      isCharBoundary text (ceilCharBoundary text distance index) = true ∧
        index ≤ ceilCharBoundary text distance index := by
  intro distance
  induction distance with
  | zero =>
    intro index hend
    exact ⟨isCharBoundary_iff.mpr ⟨text, [], by simp, hend.symm⟩, le_rfl⟩
  | succ distance ih =>
    intro index hend
    rw [ceilCharBoundary]
    split
    · rename_i h
      exact ⟨h, le_rfl⟩
    · obtain ⟨hboundary, hle⟩ := ih (index + 1) (by omega)
      exact ⟨hboundary, by omega⟩

theorem sharedBytes_spec : ∀ left right : List UInt8,
    left.take (sharedBytes left right) = right.take (sharedBytes left right) ∧
      sharedBytes left right ≤ left.length := by
  intro left
  induction left with
  | nil =>
    intro right
    simp [sharedBytes]
  | cons a left ih =>
    intro right
    cases right with
    | nil => simp [sharedBytes]
    | cons b right =>
      rw [sharedBytes]
      split
      · rename_i hab
        obtain ⟨htake, hle⟩ := ih right
        simp only [take_succ_cons, hab, htake, length_cons, true_and]
        omega
      · simp

theorem append_of_bytes : ∀ {front text : Text} {rest : List UInt8},
    utf8Bytes text = utf8Bytes front ++ rest → ∃ back, text = front ++ back := by
  intro front
  induction front with
  | nil => exact fun _ => ⟨_, rfl⟩
  | cons c front ih =>
    intro text rest h
    cases text with
    | nil =>
      have hlen := congrArg List.length h
      have hpos := Char.utf8Size_pos c
      simp only [utf8Bytes_nil, utf8Bytes_cons, length_append, length_nil,
        String.length_utf8EncodeChar] at hlen
      omega
    | cons d text =>
      rw [utf8Bytes_cons, utf8Bytes_cons, append_assoc] at h
      obtain ⟨rfl, htail⟩ := utf8EncodeChar_reads_back d c _ _ h
      obtain ⟨back, rfl⟩ := ih htail
      exact ⟨back, rfl⟩

theorem utf8EncodeChar_shorter {c d : Char} {zs : List UInt8}
    (h : String.utf8EncodeChar d = zs ++ String.utf8EncodeChar c) : zs = [] := by
  by_contra hne
  have hpos := length_pos_of_ne_nil hne
  have hc := Char.utf8Size_pos c
  have hlen := congrArg List.length h
  rw [length_append, String.length_utf8EncodeChar, String.length_utf8EncodeChar] at hlen
  have hi : zs.length < (String.utf8EncodeChar d).length := by
    rw [String.length_utf8EncodeChar]
    omega
  have hfirst : (String.utf8EncodeChar d)[zs.length].IsUTF8FirstByte := by
    have hzero : 0 < (String.utf8EncodeChar c).length := by
      rw [String.length_utf8EncodeChar]
      exact hc
    have hget : (String.utf8EncodeChar d)[zs.length] = (String.utf8EncodeChar c)[0] := by
      simp only [h, getElem_append_right le_rfl, Nat.sub_self]
    rw [hget]
    exact UInt8.isUTF8FirstByte_getElem_utf8EncodeChar.mpr rfl
  have := UInt8.isUTF8FirstByte_getElem_utf8EncodeChar.mp hfirst
  omega

theorem utf8EncodeChar_reads_back_end {c d : Char} {xs ys : List UInt8}
    (h : xs ++ String.utf8EncodeChar c = ys ++ String.utf8EncodeChar d) : c = d ∧ xs = ys := by
  have hsame : xs = ys := by
    rcases append_eq_append_iff.mp h with ⟨zs, rfl, hzs⟩ | ⟨zs, rfl, hzs⟩
    · obtain rfl := utf8EncodeChar_shorter hzs
      simp
    · obtain rfl := utf8EncodeChar_shorter hzs
      simp
  subst hsame
  have hcode := append_cancel_left h
  exact ⟨(utf8EncodeChar_reads_back c d [] [] (by rw [hcode])).1, rfl⟩

theorem append_of_bytes_end : ∀ {back text : Text} {rest : List UInt8},
    utf8Bytes text = rest ++ utf8Bytes back → ∃ front, text = front ++ back := by
  intro back
  induction back using List.reverseRecOn with
  | nil => exact fun _ => ⟨_, (append_nil _).symm⟩
  | append_singleton back c ih =>
    intro text rest h
    rcases eq_nil_or_concat text with rfl | ⟨text, d, rfl⟩
    · have hlen := congrArg List.length h
      have hpos := Char.utf8Size_pos c
      simp only [utf8Bytes_nil, utf8Bytes_append, utf8Bytes_cons, length_append,
        length_nil, String.length_utf8EncodeChar] at hlen
      omega
    · simp only [concat_eq_append, utf8Bytes_append, utf8Bytes_cons, utf8Bytes_nil,
        append_nil] at h ⊢
      rw [← append_assoc] at h
      obtain ⟨rfl, htail⟩ := utf8EncodeChar_reads_back_end h
      obtain ⟨front, rfl⟩ := ih htail
      exact ⟨front, by simp⟩

theorem commonPrefixLength_spec (left right : Text) :
    ∃ front back back', left = front ++ back ∧ right = front ++ back' ∧
      commonPrefixLength left right = utf8Len front := by
  obtain ⟨hboundary, hle⟩ := floorCharBoundary_boundary left
    (sharedBytes (utf8Bytes left) (utf8Bytes right))
  obtain ⟨front, back, rfl, hfront⟩ := isCharBoundary_iff.mp hboundary
  obtain ⟨htake, -⟩ := sharedBytes_spec (utf8Bytes (front ++ back)) (utf8Bytes right)
  rw [← hfront, ← length_utf8Bytes] at hle
  have hshared := congrArg (List.take (utf8Bytes front).length) htake
  rw [take_take, take_take, Nat.min_eq_left hle, utf8Bytes_append, take_left'
    rfl] at hshared
  have hright := take_append_drop (utf8Bytes front).length (utf8Bytes right)
  rw [← hshared] at hright
  obtain ⟨back', rfl⟩ := append_of_bytes hright.symm
  exact ⟨front, back, back', rfl, rfl, hfront.symm⟩

theorem commonSuffixLength_spec (left right : Text) :
    ∃ front front' back, left = front ++ back ∧ right = front' ++ back ∧
      commonSuffixLength left right = some (utf8Len back) := by
  obtain ⟨htake, hle⟩ := sharedBytes_spec (utf8Bytes left).reverse (utf8Bytes right).reverse
  generalize hindex : sharedBytes (utf8Bytes left).reverse (utf8Bytes right).reverse = index at *
  rw [length_reverse, length_utf8Bytes] at hle
  obtain ⟨hboundary, hge⟩ := ceilCharBoundary_boundary left index (utf8Len left - index) (by omega)
  obtain ⟨front, back, rfl, hfront⟩ := isCharBoundary_iff.mp hboundary
  have hback : utf8Len back ≤ index := by
    rw [utf8Len_append] at hfront hge hle
    omega
  have hshared := congrArg (List.take (utf8Bytes back).length) htake
  rw [take_take, take_take, Nat.min_eq_left (by rw [length_utf8Bytes]; exact hback),
    utf8Bytes_append, reverse_append, take_left' (by simp)] at hshared
  have hright := congrArg List.reverse
    (take_append_drop (utf8Bytes back).length (utf8Bytes right).reverse)
  rw [← hshared, reverse_append, reverse_reverse, reverse_reverse] at hright
  obtain ⟨front', rfl⟩ := append_of_bytes_end hright.symm
  refine ⟨front, front', back, rfl, rfl, ?_⟩
  simp only [commonSuffixLength, hindex, sub_eq hle, some_bind]
  rw [← hfront, sub_eq (by rw [utf8Len_append]; omega), utf8Len_append, Nat.add_sub_cancel_left]

theorem edits_of_matchOffsets {query replacement : Text} (hquery : query ≠ []) :
    ∀ (rest : Text) (searchFrom : Nat), ∃ after, Edits searchFrom
      ((matchOffsets query hquery rest searchFrom).map fun start =>
        TextEdit.owned start query replacement) rest after := by
  intro rest
  induction hlen : rest.length using Nat.strong_induction_on generalizing rest with
  | _ length ih =>
    intro searchFrom
    rw [matchOffsets]
    split
    · exact ⟨rest, .done searchFrom rest⟩
    · rename_i front back hsplit
      have hrest := splitAtFirst_eq hsplit
      have hpos := length_pos_of_ne_nil hquery
      obtain ⟨after, hafter⟩ := ih back.length
        (by rw [← hlen, hrest]; simp only [length_append]; omega) back rfl
        (searchFrom + utf8Len front + utf8Len query)
      subst hrest
      exact ⟨front ++ (replacement ++ after),
        .edit front (TextEdit.owned (searchFrom + utf8Len front) query replacement).toEdit rfl
          hafter⟩

theorem slices_around {front middle back : Text} (h : text = front ++ (middle ++ back)) :
    sliceFrom text (utf8Len front) = some (middle ++ back) ∧
      sub (utf8Len text) (utf8Len back) = some (utf8Len text - utf8Len back) ∧
      sliceText text (utf8Len front) (utf8Len text - utf8Len back) = some middle := by
  subst h
  refine ⟨sliceFrom_append _ _, sub_eq ?_, sliceText_append front middle back ?_⟩
  · simp only [utf8Len_append]
    omega
  · simp only [utf8Len_append]
    omega

namespace TextDocument

/-- The edits that pass the validation of `apply_edits` fit the text. -/
theorem validateEdits_spec : ∀ (edits : List TextEdit) (front back : Text), text = front ++ back →
    ∃ result, validateEdits text (utf8Len front) edits = some result ∧
      (result = .ok () → ∃ after, Edits (utf8Len front) edits back after) := by
  intro edits
  induction edits with
  | nil => exact fun front back _ => ⟨.ok (), rfl, fun _ => ⟨back, .done _ back⟩⟩
  | cons edit edits ih =>
    intro front back htext
    rw [validateEdits, validateEdit]
    split
    · exact ⟨_, rfl, by rintro ⟨⟩⟩
    · split
      · exact ⟨_, rfl, by rintro ⟨⟩⟩
      · rename_i horder
        split
        · exact ⟨_, rfl, by rintro ⟨⟩⟩
        · rename_i hbounds
          simp only [Bool.or_eq_true, decide_eq_true_eq, Bool.not_eq_true', not_or,
            Bool.not_eq_false] at hbounds
          obtain ⟨⟨-, hstart⟩, hstop⟩ := hbounds
          obtain ⟨front', slice, back', htext', hfront', hlen, hslice⟩ :=
            sliceText_of_boundaries (Nat.le_add_right _ _) hstart hstop
          change sliceText text edit.start edit.stop = some slice at hslice
          simp only [hslice, bind_eq_bind, bind_some]
          split
          · exact ⟨_, rfl, by rintro ⟨⟩⟩
          · rename_i hremoved
            obtain rfl : slice = edit.removed := not_not.mp hremoved
            have hnext : edit.stop = utf8Len (front' ++ edit.removed) := by
              rw [utf8Len_append, hfront']
              rfl
            obtain ⟨result, hrun, hresult⟩ := ih (front' ++ edit.removed) back'
              (by rw [htext', append_assoc])
            simp only [Option.pure_def, bind_some]
            rw [hnext]
            refine ⟨result, hrun, fun hok => ?_⟩
            obtain ⟨after, hafter⟩ := hresult hok
            rw [← hnext] at hafter
            -- what lies between the last edit and this one is kept
            rw [htext] at htext'
            obtain ⟨kept, rfl, rfl⟩ | ⟨extra, rfl, hback⟩ := append_eq_append_iff.mp htext'
            · exact ⟨kept ++ (edit.inserted ++ after), .edit kept edit.toEdit
                (by rw [← hfront', utf8Len_append]; rfl) hafter⟩
            · have hextra : extra = [] := by
                rw [utf8Len_append] at horder
                exact utf8Len_eq_zero.mp (by omega)
              subst hextra
              simp only [append_nil, nil_append] at hback ⊢
              refine ⟨edit.inserted ++ after, ?_⟩
              rw [← hback]
              exact .edit [] edit.toEdit (by rw [← hfront']; rfl) hafter

variable (document : TextDocument)

theorem editFor_spec (start stop : Nat) (replacement : Text) :
    ∃ edit after, document.editFor start stop replacement = some edit ∧
      Edits 0 [edit] document.text after := by
  have hstart := (floorCharBoundary_boundary document.text (min start (utf8Len document.text))).1
  have hstop := (floorCharBoundary_boundary document.text (min stop (utf8Len document.text))).1
  unfold editFor
  generalize floorCharBoundary document.text (min start (utf8Len document.text)) = first at *
  generalize floorCharBoundary document.text (min stop (utf8Len document.text)) = last at *
  have hend : isCharBoundary document.text (max last first) = true := by
    rcases Nat.le_total last first with hle | hle
    · rwa [Nat.max_eq_right hle]
    · rwa [Nat.max_eq_left hle]
  obtain ⟨front, slice, back, htext, hfront, -, hslice⟩ :=
    sliceText_of_boundaries (Nat.le_max_right last first) hstart hend
  refine ⟨.owned first slice replacement, front ++ (replacement ++ back), ?_, ?_⟩
  · simp only [hslice]
    rfl
  · exact edits_single_iff.mpr ⟨front, back, hfront.symm, htext, rfl⟩

theorem syncEdit_spec (updated : Text) :
    ∃ edit coalescable, document.syncEdit updated = some (edit, coalescable) ∧
      Edits 0 [edit] document.text updated := by
  obtain ⟨front, rest, rest', htext, hupdated, hfront⟩ :=
    commonPrefixLength_spec document.text updated
  obtain ⟨removed, inserted, back, rfl, rfl, hback⟩ := commonSuffixLength_spec rest rest'
  obtain ⟨hrest, hlen, hremoved⟩ := slices_around htext
  obtain ⟨hrest', hlen', hinserted⟩ := slices_around hupdated
  refine ⟨.owned (utf8Len front) removed inserted, removed.isEmpty && inserted.length == 1, ?_, ?_⟩
  · simp only [syncEdit, hfront, hrest, hrest', hback, hlen, hlen', hremoved, hinserted, some_bind]
    rfl
  · exact edits_single_iff.mpr ⟨front, back, rfl, htext, hupdated⟩

section Transactions

variable [Allocation]

/-- The effect of an accepted transaction: nothing, when no edit changes anything, or the text after
the edits and a history that can lead back. -/
inductive Transacted (document : TextDocument) (edits : List TextEdit) (coalescable : Bool) :
    TextDocument → Prop
  | unchanged
      (hprepared : document.undoHistory.prepare edits coalescable = some (.ok none)) :
      Transacted document edits coalescable document
  | changed (prepared : PreparedUndo) (m : Nat) (entry : Transaction) (history : UndoHistory)
      (after : Text)
      (hprepared : document.undoHistory.prepare edits coalescable = some (.ok (some prepared)))
      (hcommitted : UndoHistory.Committed document.undoHistory prepared.edits prepared m entry
        history)
      (hsound : history.Sound) (hedits : Edits 0 prepared.edits document.text after)
      (hbounds : document.checkBounds after = .ok ()) :
      Transacted document edits coalescable
        { document with undoHistory := history, text := after, revision := document.revision + 1 }

variable {edits : List TextEdit}

theorem admitted_edits {history : UndoHistory} {prepared : PreparedUndo}
    (h : UndoHistory.Admitted history edits prepared) : prepared.edits = edits := by
  cases h <;> rfl

/-- `apply_transaction` does not stop on edits that fit the text, and leads to their result. -/
theorem applyTransaction_spec {document : TextDocument} {after : Text}
    (coalescable : Bool) (hsound : document.undoHistory.Sound)
    (hedits : Edits 0 edits document.text after) :
    ∃ result, document.applyTransaction edits coalescable = some result ∧
      ∀ document', result = .ok document' →
        Transacted document edits coalescable document' ∧ document'.text = after := by
  obtain ⟨admission, hprepare, hnone, hadmitted⟩ := hsound.prepare_spec edits coalescable
  rcases admission with reason | ⟨_ | prepared⟩
  · refine ⟨.error reason, ?_, by rintro _ ⟨⟩⟩
    simp only [applyTransaction, hprepare, some_bind]
    rfl
  · refine ⟨.ok document, ?_, ?_⟩
    · simp only [applyTransaction, hprepare, some_bind]
      rfl
    · rintro _ ⟨⟩
      have hscript := edits_filter_changes hedits
      rw [hnone rfl] at hscript
      exact ⟨.unchanged hprepare, Patch.nil_iff.mp hscript⟩
  · have hadm := hadmitted prepared rfl
    have hsame := admitted_edits hadm
    have hscript : Edits 0 prepared.edits document.text after := by
      rw [hsame]
      exact edits_filter_changes hedits
    rw [← hsame] at hadm
    obtain ⟨m, entry, history, hcommit, hsound', hcommitted⟩ := UndoHistory.commit_spec hsound hadm
    have hlength := rewrittenLength_eq .forward hscript
    have hrewrite := rewriteOrderedEdits_eq .forward hscript
    simp only [EditDirection.source, EditDirection.target] at hlength hrewrite
    simp only [applyTransaction, hprepare, hlength, hrewrite, hcommit, bind_eq_bind, bind_some]
    split
    · exact ⟨_, rfl, by rintro _ ⟨⟩⟩
    · split
      · exact ⟨_, rfl, by rintro _ ⟨⟩⟩
      · rename_i hbounds
        refine ⟨_, rfl, ?_⟩
        rintro _ ⟨⟩
        exact ⟨.changed prepared m entry history after hprepare hcommitted hsound' hscript hbounds, rfl⟩

end Transactions

end TextDocument

end FesTerm.Document
