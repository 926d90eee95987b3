import Mathlib.Data.List.Infix

/-!
# Searching a stream for markers

A reader of a stream that looks for the markers of a set may pass on what it has read, but for a part
that a marker may begin in. `Waiting` is what holds of the part passed on and the part held back: no
marker has been read, and nothing longer than the part held back begins a marker. A marker that is
completed later then lies beyond what was passed on.
-/

namespace Markers

open List

variable {α : Type} {markers : List (List α)} {marker shown pending chunk data : List α}

def Free (markers : List (List α)) (data : List α) : Prop :=
  ∀ marker ∈ markers, ¬ marker <:+: data

def HeldBack (markers : List (List α)) (data : List α) (held : Nat) : Prop :=
  ∀ marker ∈ markers, ∀ part, part <:+ data → part <+: marker → part ≠ marker → part.length ≤ held

/-- A reader has passed on the first part and holds back the second. -/
structure Waiting (markers : List (List α)) (shown pending : List α) : Prop where
  free : Free markers (shown ++ pending)
  heldBack : HeldBack markers (shown ++ pending) pending.length

theorem Free.of_infix {part : List α} (h : Free markers data) (hpart : part <:+: data) : Free markers part :=
  fun marker hmarker hheld => h marker hmarker (hheld.trans hpart)

theorem waiting_nil (hmarkers : ∀ marker ∈ markers, marker ≠ []) : Waiting markers [] [] := by
  constructor
  · intro marker hmarker hheld
    exact hmarkers marker hmarker (infix_nil.mp hheld)
  · intro marker _ part hpart _ _
    rw [append_nil, suffix_nil] at hpart
    rw [hpart]

/-- A marker that the next chunk completes begins in the part held back, or later. -/
theorem Waiting.occurs {before after : List α} (h : Waiting markers shown pending)
    (hmarker : marker ∈ markers) (hdata : shown ++ pending ++ chunk = before ++ marker ++ after) :
    ∃ between, before = shown ++ between ∧ pending ++ chunk = between ++ marker ++ after := by
  have hlength : shown.length ≤ before.length := by
    by_contra hshort
    have hbefore : before.length ≤ (shown ++ pending).length := by
      rw [length_append]
      omega
    -- the marker begins in what was passed on; it ends there too, or a part of it is a suffix
    have hprefix : before <+: shown ++ pending := by
      refine prefix_of_prefix_length_le ?_ (prefix_append _ chunk) hbefore
      rw [hdata, append_assoc]
      exact prefix_append _ _
    obtain ⟨rest, hrest⟩ := hprefix
    have htail : rest ++ chunk = marker ++ after := by
      rw [← hrest, append_assoc, append_assoc] at hdata
      exact append_cancel_left hdata
    have hlen := congrArg List.length hrest
    simp only [length_append] at hlen
    by_cases hends : marker.length ≤ rest.length
    · have hin : marker <+: rest := by
        refine prefix_of_prefix_length_le ?_ (prefix_append _ chunk) hends
        rw [htail]
        exact prefix_append _ _
      refine h.free marker hmarker (hin.isInfix.trans ?_)
      rw [← hrest]
      exact (suffix_append _ _).isInfix
    · have hpart : rest <+: marker := by
        refine prefix_of_prefix_length_le ?_ (prefix_append _ after) (by omega)
        rw [← htail]
        exact prefix_append _ _
      have hne : rest ≠ marker := by
        rintro rfl
        omega
      have hheld := h.heldBack marker hmarker rest (hrest ▸ suffix_append _ _) hpart hne
      omega
  have hprefix : shown <+: before := by
    refine prefix_of_prefix_length_le (prefix_append _ (pending ++ chunk)) ?_ hlength
    rw [← append_assoc, hdata, append_assoc]
    exact prefix_append _ _
  obtain ⟨between, rfl⟩ := hprefix
  refine ⟨between, rfl, ?_⟩
  rw [append_assoc, append_assoc, append_assoc] at hdata
  rw [append_cancel_left hdata, append_assoc]

theorem Waiting.free_append (h : Waiting markers shown pending)
    (hfree : Free markers (pending ++ chunk)) : Free markers (shown ++ pending ++ chunk) := by
  intro marker hmarker hheld
  obtain ⟨before, after, hdata⟩ := hheld
  obtain ⟨between, -, hbetween⟩ := h.occurs hmarker hdata.symm
  exact hfree marker hmarker ⟨between, after, hbetween.symm⟩

/-- The reader passes on some more, and holds back what may begin a marker. -/
theorem Waiting.advance {more held : List α} (h : Waiting markers shown pending)
    (hfree : Free markers (pending ++ chunk)) (hsplit : pending ++ chunk = more ++ held)
    (hheld : HeldBack markers (pending ++ chunk) held.length) :
    Waiting markers (shown ++ more) held := by
  have hdata : shown ++ more ++ held = shown ++ pending ++ chunk := by
    rw [append_assoc, ← hsplit, append_assoc]
  constructor
  · rw [hdata]
    exact h.free_append hfree
  · rw [hdata]
    intro marker hmarker part hpart hprefix hne
    by_cases hlong : part.length ≤ (pending ++ chunk).length
    · refine hheld marker hmarker part ?_ hprefix hne
      refine suffix_of_suffix_length_le hpart ?_ hlong
      rw [append_assoc]
      exact suffix_append _ _
    · -- what comes before the chunk would have begun the marker already
      have hchunk : chunk <:+ part := by
        refine suffix_of_suffix_length_le (suffix_append _ _) hpart ?_
        rw [length_append] at hlong
        omega
      obtain ⟨begun, rfl⟩ := hchunk
      have hbegun : begun <:+ shown ++ pending := by
        obtain ⟨front, hfront⟩ := hpart
        rw [← append_assoc] at hfront
        exact ⟨front, append_cancel_right hfront⟩
      rw [length_append, length_append] at hlong
      have hprefix' : begun <+: marker := (prefix_append _ _).trans hprefix
      have hne' : begun ≠ marker := by
        rintro rfl
        have hnil := hprefix.length_le
        rw [length_append] at hnil
        have hchunk : chunk = [] := length_eq_zero_iff.mp (by omega)
        rw [hchunk, append_nil] at hne
        exact hne rfl
      have hbound := h.heldBack marker hmarker begun hbegun hprefix' hne'
      omega

theorem exists_reaching {chunks : List (List α)} {length : Nat} (hpos : 0 < length)
    (hle : length ≤ chunks.flatten.length) :
    ∃ earlier chunk later, chunks = earlier ++ chunk :: later ∧ earlier.flatten.length < length ∧
      length ≤ earlier.flatten.length + chunk.length := by
  induction chunks generalizing length with
  | nil =>
    rw [flatten_nil, length_nil] at hle
    omega
  | cons chunk chunks ih =>
    by_cases hhere : length ≤ chunk.length
    · exact ⟨[], chunk, chunks, rfl, hpos, by simpa using hhere⟩
    · rw [flatten_cons, length_append] at hle
      obtain ⟨earlier, next, later, rfl, hbefore, hreached⟩ :=
        ih (show 0 < length - chunk.length by omega) (by omega)
      refine ⟨chunk :: earlier, next, later, rfl, ?_, ?_⟩
      · rw [flatten_cons, length_append]
        omega
      · rw [flatten_cons, length_append]
        omega

end Markers
