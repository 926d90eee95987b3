import FesTerm.Lib.Markers
import FesTerm.Sessiond.LegacyNotices
import Mathlib.Data.List.Range

/-!
# The notices are found in any chunks

A scanner holds back no less than a notice may begin in, so it always is `Markers.Waiting`: a notice
that a chunk completes lies in what the scanner then looks at. The scanner of the `attach` command
does what the other one does, as long as its writer does not fail.
-/

namespace FesTerm

open Markers List

/-- The two notices. -/
inductive LegacyNotice where
  | stolen
  | exited
  deriving DecidableEq

def LegacyNotice.marker : LegacyNotice → List UInt8
  | .stolen => stolenNoticeBytes
  | .exited => exitedNoticeBytes

def LegacyNotice.outcome : LegacyNotice → AttachOutcome
  | .stolen => .stolen
  | .exited => .exited

def noticeMarkers : List (List UInt8) := [stolenNoticeBytes, exitedNoticeBytes]

/-- The output that a push returns. -/
def ScanResult.bytes : ScanResult → List UInt8
  | .output bytes | .exited bytes | .stolen bytes => bytes
  | .pending => []

/-- The notice that a push reports. -/
def ScanResult.notice : ScanResult → Option LegacyNotice
  | .exited _ => some .exited
  | .stolen _ => some .stolen
  | .output _ | .pending => none

/-- The only notice in the stream is this one, after these bytes. -/
def LegacyNotice.Sole (notice : LegacyNotice) (before after : List UInt8) : Prop :=
  ∀ (other : LegacyNotice) before' after',
    before' ++ other.marker ++ after' = before ++ notice.marker ++ after →
    other = notice ∧ before' = before

theorem mem_noticeMarkers {marker : List UInt8} :
    marker ∈ noticeMarkers ↔ ∃ notice : LegacyNotice, notice.marker = marker := by
  constructor
  · intro h
    rcases mem_cons.mp h with rfl | h
    · exact ⟨.stolen, rfl⟩
    · exact ⟨.exited, (mem_singleton.mp h).symm⟩
  · rintro ⟨notice, rfl⟩
    cases notice with
    | stolen => exact mem_cons_self
    | exited => exact mem_cons_of_mem _ mem_cons_self

theorem LegacyNotice.marker_length_pos (notice : LegacyNotice) : 0 < notice.marker.length := by
  cases notice <;> decide

/-! ## The search -/

theorem findBytes_eq_some {haystack needle : List UInt8} {position : Nat}
    (h : findBytes haystack needle = some position) :
    haystack = haystack.take position ++ needle ++ haystack.drop (position + needle.length) := by
  obtain ⟨hlt, hwindow, -⟩ := findIdx?_eq_some_iff_getElem.mp h
  have hneedle : (haystack.drop position).take needle.length = needle := by
    simpa [windows] using hwindow
  have htail : needle ++ haystack.drop (position + needle.length) = haystack.drop position := by
    conv_rhs => rw [← take_append_drop needle.length (haystack.drop position), hneedle]
    rw [drop_drop]
  rw [append_assoc, htail, take_append_drop]

theorem findBytes_eq_none {haystack needle : List UInt8} (h : findBytes haystack needle = none) :
    ¬needle <:+: haystack := by
  rintro ⟨before, after, rfl⟩
  have hall := findIdx?_eq_none_iff.mp h
  have hmem : needle ∈ windows (before ++ needle ++ after) needle.length := by
    refine List.mem_map.mpr ⟨before.length, ?_, ?_⟩
    · rw [mem_range]
      simp only [length_append]
      omega
    · rw [append_assoc, drop_left, take_left]
  have hwindow := hall needle hmem
  simp at hwindow

/-! ## What is held back -/

theorem markerSuffixLen_le (data marker : List UInt8) : markerSuffixLen data marker ≤ data.length := by
  unfold markerSuffixLen
  simp only
  cases hfind : (List.range' 1 (min data.length (marker.length - 1))).reverse.find?
      fun length => (marker.take length).isSuffixOf data with
  | none => exact Nat.zero_le _
  | some length =>
    have hmem := mem_of_find?_eq_some hfind
    rw [mem_reverse, mem_range'_1] at hmem
    rw [Option.getD_some]
    omega

theorem le_of_find_falling {numbers : List Nat} {p : Nat → Bool} {first number : Nat}
    (hfall : numbers.Pairwise (· > ·)) (hfind : numbers.find? p = some first)
    (hmem : number ∈ numbers) (hp : p number = true) : number ≤ first := by
  obtain ⟨-, front, back, rfl, hfront⟩ := find?_eq_some_iff_append.mp hfind
  rcases mem_append.mp hmem with h | h
  · have hno := hfront number h
    rw [hp] at hno
    cases hno
  · rcases mem_cons.mp h with rfl | h
    · exact le_rfl
    · have hback := (pairwise_append.mp hfall).2.1
      exact Nat.le_of_lt ((pairwise_cons.mp hback).1 number h)

theorem le_markerSuffixLen {data marker part : List UInt8} (hsuffix : part <:+ data)
    (hpart : part <+: marker) (hne : part ≠ marker) :
    part.length ≤ markerSuffixLen data marker := by
  by_cases hempty : part.length = 0
  · rw [hempty]
    exact Nat.zero_le _
  have hshort : part.length < marker.length := by
    have hle := hpart.length_le
    have hlen : part.length ≠ marker.length := fun heq => hne (hpart.eq_of_length heq)
    omega
  have hdata := hsuffix.length_le
  have hmem : part.length ∈ (List.range' 1 (min data.length (marker.length - 1))).reverse := by
    rw [mem_reverse, mem_range'_1]
    omega
  have hends : (marker.take part.length).isSuffixOf data = true := by
    rw [← prefix_iff_eq_take.mp hpart]
    exact isSuffixOf_iff_suffix.mpr hsuffix
  unfold markerSuffixLen
  simp only
  cases hfind : (List.range' 1 (min data.length (marker.length - 1))).reverse.find?
      fun length => (marker.take length).isSuffixOf data with
  | none =>
    have hno := find?_eq_none.mp hfind _ hmem
    exact absurd hends hno
  | some length =>
    refine le_of_find_falling ?_ hfind hmem hends
    rw [pairwise_reverse]
    exact pairwise_lt_range'

theorem partialMarkerSuffixLen_eq (data : List UInt8) : partialMarkerSuffixLen data =
    max (markerSuffixLen data stolenNoticeBytes) (markerSuffixLen data exitedNoticeBytes) := by
  simp [partialMarkerSuffixLen, max?_cons]

theorem partialMarkerSuffixLen_le (data : List UInt8) : partialMarkerSuffixLen data ≤ data.length := by
  rw [partialMarkerSuffixLen_eq]
  exact Nat.max_le.mpr ⟨markerSuffixLen_le _ _, markerSuffixLen_le _ _⟩

theorem heldBack_partialMarkerSuffixLen (data : List UInt8) :
    HeldBack noticeMarkers data (partialMarkerSuffixLen data) := by
  intro marker hmarker part hsuffix hpart hne
  have hle := le_markerSuffixLen hsuffix hpart hne
  rw [partialMarkerSuffixLen_eq]
  obtain ⟨notice, rfl⟩ := mem_noticeMarkers.mp hmarker
  cases notice with
  | stolen => exact Nat.le_trans hle (Nat.le_max_left _ _)
  | exited => exact Nat.le_trans hle (Nat.le_max_right _ _)

/-! ## One push -/

namespace OutputScanner

variable {scanner : OutputScanner} {shown chunk : List UInt8}

/-- A chunk that completes no notice. -/
theorem push_quiet (h : Waiting noticeMarkers shown scanner.pending)
    (hfree : Free noticeMarkers (scanner.pending ++ chunk)) :
    (scanner.push chunk).1.notice = none ∧
      scanner.pending ++ chunk = (scanner.push chunk).1.bytes ++ (scanner.push chunk).2.pending ∧
      Waiting noticeMarkers (shown ++ (scanner.push chunk).1.bytes) (scanner.push chunk).2.pending := by
  have hheld := heldBack_partialMarkerSuffixLen (scanner.pending ++ chunk)
  have hle := partialMarkerSuffixLen_le (scanner.pending ++ chunk)
  generalize hpending : scanner.pending ++ chunk = pending at hheld hle
  rw [hpending] at hfree
  have hnone (notice : LegacyNotice) : findBytes pending notice.marker = none := by
    cases hfind : findBytes pending notice.marker with
    | none => rfl
    | some position =>
      refine absurd ?_ (hfree _ (mem_noticeMarkers.mpr ⟨notice, rfl⟩))
      exact ⟨_, _, (findBytes_eq_some hfind).symm⟩
  have hstolen : findBytes pending stolenNoticeBytes = none := hnone .stolen
  have hexited : findBytes pending exitedNoticeBytes = none := hnone .exited
  unfold push
  rw [hpending]
  simp only [hstolen, hexited]
  have hadvance {more held : List UInt8} (hsplit : pending = more ++ held)
      (hlen : partialMarkerSuffixLen pending ≤ held.length) :
      Waiting noticeMarkers (shown ++ more) held := by
    refine h.advance (hpending ▸ hfree) (hpending.trans hsplit) ?_
    rw [hpending]
    intro marker hmarker part hsuffix hpart hne
    exact Nat.le_trans (hheld marker hmarker part hsuffix hpart hne) hlen
  by_cases hflush : pending.length - partialMarkerSuffixLen pending = 0
  · rw [if_pos hflush]
    exact ⟨rfl, rfl, hadvance rfl hle⟩
  · rw [if_neg hflush]
    have hsplit : pending = pending.take (pending.length - partialMarkerSuffixLen pending) ++
        pending.drop (pending.length - partialMarkerSuffixLen pending) :=
      (take_append_drop _ _).symm
    refine ⟨rfl, hsplit, hadvance hsplit ?_⟩
    rw [length_drop]
    omega

theorem push_notice {notice : LegacyNotice} {before after : List UInt8}
    (hpending : scanner.pending ++ chunk = before ++ notice.marker ++ after)
    (hsole : notice.Sole before after) :
    (scanner.push chunk).1.notice = some notice ∧ (scanner.push chunk).1.bytes = before ∧
      (scanner.push chunk).2 = default := by
  have hfound {other : LegacyNotice} {position : Nat}
      (hfind : findBytes (before ++ notice.marker ++ after) other.marker = some position) :
      other = notice ∧ (before ++ notice.marker ++ after).take position = before :=
    hsole _ _ _ (findBytes_eq_some hfind).symm
  have hsome : findBytes (before ++ notice.marker ++ after) notice.marker ≠ none :=
    fun hnone => findBytes_eq_none hnone ⟨before, after, rfl⟩
  unfold push
  rw [hpending]
  simp only
  cases hstolen : findBytes (before ++ notice.marker ++ after) stolenNoticeBytes with
  | some position =>
    obtain ⟨rfl, htake⟩ := @hfound .stolen position hstolen
    exact ⟨rfl, htake, rfl⟩
  | none =>
    cases hexited : findBytes (before ++ notice.marker ++ after) exitedNoticeBytes with
    | some position =>
      obtain ⟨rfl, htake⟩ := @hfound .exited position hexited
      exact ⟨rfl, htake, rfl⟩
    | none =>
      cases notice with
      | stolen => exact absurd hstolen hsome
      | exited => exact absurd hexited hsome

/-! ## All chunks -/

/-- The results of pushing chunks, one after the other. -/
def feed (scanner : OutputScanner) : List (List UInt8) → List ScanResult × OutputScanner
  | [] => ([], scanner)
  | chunk :: chunks =>
    let (result, scanner) := scanner.push chunk
    let (results, scanner) := scanner.feed chunks
    (result :: results, scanner)

def shownBy (results : List ScanResult) : List UInt8 := results.flatMap ScanResult.bytes

theorem feed_quiet {chunks : List (List UInt8)} (h : Waiting noticeMarkers shown scanner.pending)
    (hfree : Free noticeMarkers (scanner.pending ++ chunks.flatten)) :
    (∀ result ∈ (scanner.feed chunks).1, result.notice = none) ∧
      scanner.pending ++ chunks.flatten =
        shownBy (scanner.feed chunks).1 ++ (scanner.feed chunks).2.pending ∧
      Waiting noticeMarkers (shown ++ shownBy (scanner.feed chunks).1)
        (scanner.feed chunks).2.pending := by
  induction chunks generalizing scanner shown with
  | nil =>
    refine ⟨fun result hresult => (nomatch hresult), by simp [feed, shownBy], ?_⟩
    simpa [feed, shownBy] using h
  | cons chunk chunks ih =>
    rw [flatten_cons, ← append_assoc] at hfree
    obtain ⟨hnotice, hsplit, hwaiting⟩ :=
      push_quiet h (hfree.of_infix (prefix_append _ _).isInfix)
    rw [hsplit, append_assoc] at hfree
    obtain ⟨hnotices, hrest, hend⟩ :=
      ih hwaiting (hfree.of_infix (suffix_append _ _).isInfix)
    refine ⟨?_, ?_, ?_⟩
    · intro result hresult
      rcases mem_cons.mp hresult with rfl | hresult
      · exact hnotice
      · exact hnotices result hresult
    · rw [flatten_cons, ← append_assoc, hsplit, append_assoc, hrest, ← append_assoc]
      rfl
    · rw [append_assoc] at hend
      exact hend

theorem feed_cons (scanner : OutputScanner) (chunk : List UInt8) (chunks : List (List UInt8)) :
    scanner.feed (chunk :: chunks) =
      ((scanner.push chunk).1 :: ((scanner.push chunk).2.feed chunks).1,
        ((scanner.push chunk).2.feed chunks).2) := by
  rw [feed]

theorem feed_append (scanner : OutputScanner) (first second : List (List UInt8)) :
    scanner.feed (first ++ second) =
      ((scanner.feed first).1 ++ ((scanner.feed first).2.feed second).1,
        ((scanner.feed first).2.feed second).2) := by
  induction first generalizing scanner with
  | nil => rfl
  | cons chunk first ih =>
    rw [cons_append, feed_cons, feed_cons, ih]
    rfl

theorem length_feed (scanner : OutputScanner) (chunks : List (List UInt8)) :
    (scanner.feed chunks).1.length = chunks.length := by
  induction chunks generalizing scanner with
  | nil => rfl
  | cons chunk chunks ih => rw [feed_cons, length_cons, length_cons, ih]

theorem waiting_default : Waiting noticeMarkers [] default.pending := by
  refine waiting_nil ?_
  intro marker hmarker
  obtain ⟨notice, rfl⟩ := mem_noticeMarkers.mp hmarker
  exact ne_nil_of_length_pos notice.marker_length_pos

end OutputScanner

/-- A stream that is split in the chunk that completes its notice. -/
structure CompletedBy (notice : LegacyNotice) (before after : List UInt8)
    (earlier : List (List UInt8)) (chunk : List UInt8) (later : List (List UInt8)) : Prop where
  stream : (earlier ++ chunk :: later).flatten = before ++ notice.marker ++ after
  sole : notice.Sole before after
  notBefore : earlier.flatten.length < before.length + notice.marker.length
  here : before.length + notice.marker.length ≤ earlier.flatten.length + chunk.length

namespace CompletedBy

variable {notice : LegacyNotice} {before after chunk : List UInt8} {earlier later : List (List UInt8)}

theorem exists_of_stream {chunks : List (List UInt8)}
    (hstream : chunks.flatten = before ++ notice.marker ++ after) (hsole : notice.Sole before after) :
    ∃ earlier chunk later, chunks = earlier ++ chunk :: later ∧
      CompletedBy notice before after earlier chunk later := by
  have hpos := notice.marker_length_pos
  have hlen := congrArg List.length hstream
  simp only [length_append] at hlen
  obtain ⟨earlier, chunk, later, rfl, hbefore, hreached⟩ :=
    exists_reaching (show 0 < before.length + notice.marker.length by omega)
      (show before.length + notice.marker.length ≤ chunks.flatten.length by omega)
  exact ⟨earlier, chunk, later, rfl, hstream, hsole, hbefore, hreached⟩

theorem free_earlier (h : CompletedBy notice before after earlier chunk later) :
    Free noticeMarkers earlier.flatten := by
  intro marker hmarker hinfix
  obtain ⟨other, rfl⟩ := mem_noticeMarkers.mp hmarker
  obtain ⟨before', after', hearlier⟩ := hinfix
  have hstream := h.stream
  rw [flatten_append, ← hearlier, append_assoc] at hstream
  obtain ⟨rfl, rfl⟩ := h.sole _ _ _ hstream
  have hlen := congrArg List.length hearlier
  have hnot := h.notBefore
  simp only [length_append] at hlen
  omega

theorem free_later (h : CompletedBy notice before after earlier chunk later) :
    Free noticeMarkers later.flatten := by
  intro marker hmarker hinfix
  obtain ⟨other, rfl⟩ := mem_noticeMarkers.mp hmarker
  obtain ⟨before', after', hlater⟩ := hinfix
  have hstream := h.stream
  rw [flatten_append, flatten_cons, ← hlater] at hstream
  have hother : earlier.flatten ++ chunk ++ before' ++ other.marker ++ after' =
      before ++ notice.marker ++ after := by
    rw [← hstream]
    simp only [append_assoc]
  obtain ⟨-, hbefore⟩ := h.sole _ _ _ hother
  have hlen := congrArg List.length hbefore
  have hhere := h.here
  have hpos := notice.marker_length_pos
  simp only [length_append] at hlen
  omega

theorem exists_read (h : CompletedBy notice before after earlier chunk later) :
    ∃ rest, earlier.flatten ++ chunk = before ++ notice.marker ++ rest ∧
      after = rest ++ later.flatten := by
  have hstream := h.stream
  rw [flatten_append, flatten_cons, ← append_assoc] at hstream
  have hpart : before ++ notice.marker <+: earlier.flatten ++ chunk := by
    refine prefix_of_prefix_length_le (prefix_append _ after) ?_ ?_
    · rw [← hstream]
      exact prefix_append _ _
    · rw [length_append, length_append]
      exact h.here
  obtain ⟨rest, hrest⟩ := hpart
  refine ⟨rest, hrest.symm, ?_⟩
  rw [← hrest, append_assoc] at hstream
  exact (append_cancel_left hstream).symm

end CompletedBy

namespace CompletedBy

variable {notice : LegacyNotice} {before after chunk : List UInt8} {earlier later : List (List UInt8)}

theorem push_completes (h : CompletedBy notice before after earlier chunk later) :
    let scanner := (OutputScanner.default.feed earlier).2
    (scanner.push chunk).1.notice = some notice ∧ (scanner.push chunk).2 = .default ∧
      OutputScanner.shownBy (OutputScanner.default.feed earlier).1 ++ (scanner.push chunk).1.bytes =
        before := by
  have hfree : Free noticeMarkers (OutputScanner.default.pending ++ earlier.flatten) := h.free_earlier
  obtain ⟨-, hsplit, hwaiting⟩ := OutputScanner.feed_quiet OutputScanner.waiting_default hfree
  rw [nil_append] at hwaiting
  replace hsplit : earlier.flatten = _ := hsplit
  obtain ⟨rest, hread, hafter⟩ := h.exists_read
  rw [hsplit] at hread
  have hmarker : notice.marker ∈ noticeMarkers := mem_noticeMarkers.mpr ⟨notice, rfl⟩
  obtain ⟨between, hbefore, hpending⟩ := hwaiting.occurs hmarker hread
  have hsole : notice.Sole between rest := by
    intro other before' after' hother
    have hstream : OutputScanner.shownBy (OutputScanner.default.feed earlier).1 ++ before' ++
        other.marker ++ (after' ++ later.flatten) = before ++ notice.marker ++ after := by
      rw [hbefore, hafter]
      have hlonger := congrArg (· ++ later.flatten) hother
      simp only [append_assoc] at hlonger ⊢
      rw [hlonger]
    obtain ⟨hsame, hwhere⟩ := h.sole _ _ _ hstream
    rw [hbefore] at hwhere
    exact ⟨hsame, append_cancel_left hwhere⟩
  obtain ⟨hnotice, hbytes, hdefault⟩ := OutputScanner.push_notice hpending hsole
  exact ⟨hnotice, hdefault, by rw [hbytes, hbefore]⟩

end CompletedBy

/-- What the scanner does with any chunks. Without a notice, the pushes and `close` give the stream
back. The only notice is reported by the push that completes it and by no other, and the output up to
then is what comes before it. -/
structure OutputScanner.FindsNotices : Prop where
  plain : ∀ chunks : List (List UInt8), Free noticeMarkers chunks.flatten →
    (∀ result ∈ (default.feed chunks).1, result.notice = none) ∧
      shownBy (default.feed chunks).1 ++ ((default.feed chunks).2.close.1).getD [] = chunks.flatten
  notice : ∀ (notice : LegacyNotice) before after (chunks : List (List UInt8)),
    chunks.flatten = before ++ notice.marker ++ after → notice.Sole before after →
    ∃ earlier chunk later, chunks = earlier ++ chunk :: later ∧
      CompletedBy notice before after earlier chunk later ∧
      ∃ quiet result rest, (default.feed chunks).1 = quiet ++ result :: rest ∧
        quiet.length = earlier.length ∧ (∀ other ∈ quiet, other.notice = none) ∧
        result.notice = some notice ∧ shownBy (quiet ++ [result]) = before ∧
        ∀ other ∈ rest, other.notice = none

theorem OutputScanner.finds_notices : FindsNotices := by
  constructor
  · intro chunks hfree
    obtain ⟨hnotices, hsplit, -⟩ := @feed_quiet default [] chunks waiting_default hfree
    refine ⟨hnotices, ?_⟩
    have hsplit : chunks.flatten = _ := hsplit
    rw [hsplit]
    congr 1
    unfold close
    split
    · next hempty => exact (List.isEmpty_iff.mp hempty).symm
    · rfl
  · intro notice before after chunks hstream hsole
    obtain ⟨earlier, chunk, later, rfl, h⟩ := CompletedBy.exists_of_stream hstream hsole
    refine ⟨earlier, chunk, later, rfl, h, ?_⟩
    have hfree : Free noticeMarkers (default.pending ++ earlier.flatten) := h.free_earlier
    have hfree' : Free noticeMarkers (default.pending ++ later.flatten) := h.free_later
    obtain ⟨hquiet, -, -⟩ := feed_quiet waiting_default hfree
    obtain ⟨hrest, -, -⟩ := feed_quiet waiting_default hfree'
    obtain ⟨hnotice, hdefault, hshown⟩ := h.push_completes
    refine ⟨_, _, (default.feed later).1, ?_, length_feed _ _, hquiet, hnotice, ?_, hrest⟩
    · rw [feed_append, feed_cons, hdefault]
    · rw [shownBy, flatMap_append, flatMap_singleton]
      exact hshown

/-! ## The scanner of `attach` -/

/-- What is known of a `Write`: `write_all` returns when all bytes are accepted, and a `flush` adds
none. -/
structure ByteWriter.Lawful {W : Type} (writer : ByteWriter W) (accepted : W → List UInt8) : Prop where
  writeAll : ∀ output bytes, (writer.writeAll output bytes).1 = .ok () →
    accepted (writer.writeAll output bytes).2 = accepted output ++ bytes
  flush : ∀ output, (writer.flush output).1 = .ok () →
    accepted (writer.flush output).2 = accepted output

namespace AttachOutputScanner

variable {W : Type} {writer : ByteWriter W} {accepted : W → List UInt8}
  {scanner scanner' : AttachOutputScanner} {output output' : W}

theorem emit_spec (hlawful : writer.Lawful accepted) {bytes : List UInt8}
    (h : emit writer output bytes = (.ok (), output')) :
    accepted output' = accepted output ++ bytes := by
  unfold emit at h
  have hwrite := hlawful.writeAll output bytes
  cases hwritten : writer.writeAll output bytes with
  | mk result between =>
    rw [hwritten] at h hwrite
    cases result with
    | error error => cases h
    | ok written =>
      have h : writer.flush between = (.ok (), output') := h
      have hflush := hlawful.flush between
      rw [h] at hflush
      rw [hflush rfl, hwrite rfl]

/-- A push does what the other scanner finds, and fails with what a write or a flush of it fails with. -/
theorem push_cases (writer : ByteWriter W) (scanner : AttachOutputScanner) (chunk : List UInt8) (output : W) :
    (OutputScanner.push ⟨scanner.pending⟩ chunk).1 = .pending ∧ scanner.push writer chunk output =
        (.ok none, ⟨(OutputScanner.push ⟨scanner.pending⟩ chunk).2.pending⟩, output) ∨
      (∃ output', emit writer output (OutputScanner.push ⟨scanner.pending⟩ chunk).1.bytes = (.ok (), output') ∧
        scanner.push writer chunk output =
          (.ok ((OutputScanner.push ⟨scanner.pending⟩ chunk).1.notice.map LegacyNotice.outcome),
            ⟨(OutputScanner.push ⟨scanner.pending⟩ chunk).2.pending⟩, output')) ∨
      ∃ error, (emit writer output (OutputScanner.push ⟨scanner.pending⟩ chunk).1.bytes).1 = .error error ∧
        (scanner.push writer chunk output).1 = .error error := by
  unfold push OutputScanner.push
  dsimp only
  generalize scanner.pending ++ chunk = pending
  cases findBytes pending stolenNoticeBytes with
  | some position =>
    right
    dsimp only [ScanResult.bytes]
    cases emit writer output (pending.take position) with
    | mk result output' =>
      cases result with
      | ok => exact .inl ⟨output', rfl, rfl⟩
      | error error => exact .inr ⟨error, rfl, rfl⟩
  | none =>
    cases findBytes pending exitedNoticeBytes with
    | some position =>
      right
      dsimp only [ScanResult.bytes]
      cases emit writer output (pending.take position) with
      | mk result output' =>
        cases result with
        | ok => exact .inl ⟨output', rfl, rfl⟩
        | error error => exact .inr ⟨error, rfl, rfl⟩
    | none =>
      dsimp only
      by_cases hflush : pending.length - partialMarkerSuffixLen pending = 0
      · rw [if_pos hflush, if_pos hflush]
        exact .inl ⟨rfl, rfl⟩
      · rw [if_neg hflush, if_neg hflush]
        right
        dsimp only [ScanResult.bytes, emit]
        cases writer.writeAll output (pending.take (pending.length - partialMarkerSuffixLen pending)) with
        | mk result between =>
          cases result with
          | error error => exact .inr ⟨error, rfl, rfl⟩
          | ok =>
            dsimp only
            cases writer.flush between with
            | mk result output' =>
              cases result with
              | ok => exact .inl ⟨output', rfl, rfl⟩
              | error error => exact .inr ⟨error, rfl, rfl⟩

/-- As long as the writer does not fail, the two scanners agree. -/
theorem push_spec (hlawful : writer.Lawful accepted) {chunk : List UInt8} {answer : Option AttachOutcome}
    (h : scanner.push writer chunk output = (.ok answer, scanner', output')) :
    answer = (OutputScanner.push ⟨scanner.pending⟩ chunk).1.notice.map LegacyNotice.outcome ∧
      scanner'.pending = (OutputScanner.push ⟨scanner.pending⟩ chunk).2.pending ∧
      accepted output' = accepted output ++ (OutputScanner.push ⟨scanner.pending⟩ chunk).1.bytes := by
  rcases push_cases writer scanner chunk output with ⟨hpending, hpush⟩ | ⟨between, hemit, hpush⟩ |
      ⟨error, -, hpush⟩
  · rw [hpush] at h
    cases h
    rw [hpending]
    exact ⟨rfl, rfl, (append_nil _).symm⟩
  · rw [hpush] at h
    cases h
    exact ⟨rfl, rfl, emit_spec hlawful hemit⟩
  · rw [h] at hpush
    cases hpush

theorem push_failure {chunk : List UInt8} {error : IoError}
    (h : (scanner.push writer chunk output).1 = .error error) :
    (emit writer output (OutputScanner.push ⟨scanner.pending⟩ chunk).1.bytes).1 = .error error := by
  rcases push_cases writer scanner chunk output with ⟨-, hpush⟩ | ⟨between, -, hpush⟩ | ⟨other, hemit, hpush⟩
  · rw [hpush] at h
    cases h
  · rw [hpush] at h
    cases h
  · rw [hpush] at h
    cases h
    exact hemit

theorem proceed_cases {pushed ended : Except IoError (Option AttachOutcome) × AttachOutputScanner × W}
    {next : AttachOutputScanner → W → Except IoError (Option AttachOutcome) × AttachOutputScanner × W}
    (h : proceed pushed next = ended) :
    (∃ scanner output, pushed = (.ok none, scanner, output) ∧ next scanner output = ended) ∨
      pushed = ended ∧ ended.1 ≠ .ok none := by
  unfold proceed at h
  split at h
  · exact .inl ⟨_, _, rfl, h⟩
  · next hended =>
    subst h
    refine .inr ⟨rfl, fun hnone => ?_⟩
    exact hended pushed.2.1 pushed.2.2 (Prod.ext hnone rfl)

theorem forward_append (first second : List (List UInt8)) : scanner.forward writer output (first ++ second) =
      proceed (scanner.forward writer output first) fun scanner output =>
        scanner.forward writer output second := by
  induction first generalizing scanner output with
  | nil => rfl
  | cons chunk first ih =>
    rw [cons_append, forward, forward]
    generalize scanner.push writer chunk output = pushed
    obtain ⟨answer, scanner, output⟩ := pushed
    cases answer with
    | error error => rfl
    | ok answer =>
      cases answer with
      | none => exact ih
      | some outcome => rfl

/-- The loop fails at a push whose write or flush fails. -/
theorem forward_failure {chunks : List (List UInt8)} {error : IoError}
    (h : (scanner.forward writer output chunks).1 = .error error) :
    ∃ earlier chunk later between output₁, chunks = earlier ++ chunk :: later ∧
      scanner.forward writer output earlier = (.ok none, between, output₁) ∧
      (emit writer output₁ (OutputScanner.push ⟨between.pending⟩ chunk).1.bytes).1 = .error error := by
  induction chunks generalizing scanner output with
  | nil => cases h
  | cons chunk chunks ih =>
    rw [forward] at h
    rcases proceed_cases (Eq.refl (proceed _ _)) with ⟨between, output₁, hpush, hnext⟩ | ⟨hpush, -⟩
    · rw [← hnext] at h
      obtain ⟨earlier, failing, later, last, output₂, rfl, hearlier, hemit⟩ := ih h
      refine ⟨chunk :: earlier, failing, later, last, output₂, rfl, ?_, hemit⟩
      rw [forward, hpush]
      exact hearlier
    · rw [← hpush] at h
      exact ⟨[], chunk, chunks, scanner, output, rfl, rfl, push_failure h⟩

theorem close_failure {error : IoError} (h : (scanner.close writer output).1 = .error error) :
    (emit writer output scanner.pending).1 = .error error := by
  unfold close at h
  cases hemit : emit writer output scanner.pending with
  | mk result output' =>
    rw [hemit] at h
    cases result with
    | ok => cases h
    | error =>
      cases h
      rfl

theorem forward_quiet (hlawful : writer.Lawful accepted) {chunks : List (List UInt8)}
    {answer : Option AttachOutcome}
    (hquiet : ∀ result ∈ ((OutputScanner.mk scanner.pending).feed chunks).1, result.notice = none)
    (h : scanner.forward writer output chunks = (.ok answer, scanner', output')) :
    answer = none ∧ scanner'.pending = ((OutputScanner.mk scanner.pending).feed chunks).2.pending ∧
      accepted output' = accepted output ++
        OutputScanner.shownBy ((OutputScanner.mk scanner.pending).feed chunks).1 := by
  induction chunks generalizing scanner output with
  | nil =>
    cases h
    exact ⟨rfl, rfl, (append_nil _).symm⟩
  | cons chunk chunks ih =>
    rw [OutputScanner.feed_cons] at hquiet ⊢
    rw [forward] at h
    rcases proceed_cases h with ⟨between, output₁, hpush, h⟩ | ⟨hpush, hended⟩
    · obtain ⟨-, hpending, haccepted⟩ := push_spec hlawful hpush
      have hafter : OutputScanner.mk between.pending =
          (OutputScanner.push ⟨scanner.pending⟩ chunk).2 := by rw [hpending]
      rw [← hafter] at hquiet ⊢
      obtain ⟨hanswer, hend, hshown⟩ := ih (fun result hresult => hquiet result (.tail _ hresult)) h
      refine ⟨hanswer, hend, ?_⟩
      rw [hshown, haccepted, append_assoc]
      rfl
    · -- only a notice ends the loop
      exfalso
      obtain ⟨hanswer, -, -⟩ := push_spec hlawful hpush
      rw [hquiet _ (.head _)] at hanswer
      subst hanswer
      exact hended rfl

end AttachOutputScanner

/-- What the scanner of `attach` does with any chunks, as long as its writer does not fail. It ends with
the chunk that completes the notice, whatever is read after it. It fails only when a write or a flush fails. -/
structure ByteWriter.ForwardsNotices {W : Type} (writer : ByteWriter W) (accepted : W → List UInt8) :
    Prop where
  plain : ∀ (chunks : List (List UInt8)) answer scanner output output',
    Free noticeMarkers chunks.flatten →
    AttachOutputScanner.default.forward writer output chunks = (.ok answer, scanner, output') →
    answer = none ∧ ∀ outcome scanner' output'',
      scanner.close writer output' = (.ok outcome, scanner', output'') →
      outcome = .closed ∧ accepted output'' = accepted output ++ chunks.flatten
  notice : ∀ (notice : LegacyNotice) before after (chunks : List (List UInt8)),
    chunks.flatten = before ++ notice.marker ++ after → notice.Sole before after →
    ∃ earlier chunk later, chunks = earlier ++ chunk :: later ∧
      CompletedBy notice before after earlier chunk later ∧
      (∀ answer scanner output output',
        AttachOutputScanner.default.forward writer output earlier = (.ok answer, scanner, output') →
        answer = none) ∧
      ∀ rest answer scanner output output',
        AttachOutputScanner.default.forward writer output (earlier ++ chunk :: rest) =
          (.ok answer, scanner, output') →
        answer = some notice.outcome ∧ accepted output' = accepted output ++ before
  failure : ∀ scanner output (chunks : List (List UInt8)) error,
    (AttachOutputScanner.forward writer scanner output chunks).1 = .error error →
    ∃ earlier chunk later between output', chunks = earlier ++ chunk :: later ∧
      scanner.forward writer output earlier = (.ok none, between, output') ∧
      (AttachOutputScanner.emit writer output' (OutputScanner.push ⟨between.pending⟩ chunk).1.bytes).1 =
        .error error
  close_failure : ∀ scanner output error, (AttachOutputScanner.close writer scanner output).1 = .error error →
    (AttachOutputScanner.emit writer output scanner.pending).1 = .error error

theorem AttachOutputScanner.forwards_notices {W : Type} {writer : ByteWriter W}
    {accepted : W → List UInt8} (hlawful : writer.Lawful accepted) :
    writer.ForwardsNotices accepted := by
  refine ⟨?_, ?_, fun _ _ _ _ => forward_failure, fun _ _ _ => close_failure⟩
  · intro chunks answer scanner output output' hfree h
    obtain ⟨hquiet, hsplit, -⟩ := @OutputScanner.feed_quiet .default [] chunks
      OutputScanner.waiting_default hfree
    obtain ⟨hanswer, hpending, hshown⟩ := forward_quiet hlawful hquiet h
    refine ⟨hanswer, fun outcome scanner' output'' hclose => ?_⟩
    have hsplit : chunks.flatten = _ := hsplit
    unfold close at hclose
    split at hclose
    · cases hclose
    · next hemit =>
      cases hclose
      refine ⟨rfl, ?_⟩
      rw [emit_spec hlawful hemit, hshown, hpending, hsplit, append_assoc]
      rfl
  · intro notice before after chunks hstream hsole
    obtain ⟨earlier, chunk, later, rfl, hcompleted⟩ := CompletedBy.exists_of_stream hstream hsole
    have hfree : Free noticeMarkers (OutputScanner.default.pending ++ earlier.flatten) :=
      hcompleted.free_earlier
    obtain ⟨hquiet, -, -⟩ := OutputScanner.feed_quiet OutputScanner.waiting_default hfree
    obtain ⟨hnotice, -, hbefore⟩ := hcompleted.push_completes
    refine ⟨earlier, chunk, later, rfl, hcompleted, ?_, ?_⟩
    · intro answer scanner output output' h
      exact (forward_quiet hlawful hquiet h).1
    intro rest answer scanner output output' h
    rw [forward_append] at h
    rcases proceed_cases h with ⟨between, output₁, hforward, h⟩ | ⟨hforward, hended⟩
    · obtain ⟨-, hpending, hshown⟩ := forward_quiet hlawful hquiet hforward
      have hscanner : OutputScanner.mk between.pending = (OutputScanner.default.feed earlier).2 := by
        rw [hpending]
        rfl
      rw [forward] at h
      rcases proceed_cases h with ⟨scanner₂, output₂, hpush, -⟩ | ⟨hpush, -⟩
      · -- the notice is not overlooked
        exfalso
        obtain ⟨hanswer, -, -⟩ := push_spec hlawful hpush
        rw [hscanner, hnotice] at hanswer
        cases hanswer
      · obtain ⟨hanswer, -, haccepted⟩ := push_spec hlawful hpush
        rw [hscanner] at hanswer haccepted
        rw [hnotice] at hanswer
        refine ⟨hanswer, ?_⟩
        rw [haccepted, hshown, ← hbefore, append_assoc]
        rfl
    · obtain ⟨hanswer, -, -⟩ := forward_quiet hlawful hquiet hforward
      subst hanswer
      exact absurd rfl hended

/-- Both scanners find the notices in whatever chunks a stream comes. -/
theorem notices_are_found_in_any_chunks {W : Type} (writer : ByteWriter W) (accepted : W → List UInt8)
    (hlawful : writer.Lawful accepted) :
    OutputScanner.FindsNotices ∧ writer.ForwardsNotices accepted :=
  ⟨OutputScanner.finds_notices, AttachOutputScanner.forwards_notices hlawful⟩

/-- A `Vec<u8>` as a writer. -/
def ByteWriter.buffer : ByteWriter (List UInt8) where
  writeAll output bytes := (.ok (), output ++ bytes)
  flush output := (.ok (), output)

/-- A stream that a notice ends. The notice is split over three reads, the first of which ends like the start of
either notice. -/
def splitStream : List (List UInt8) :=
  [ascii "ls\n[festerm-sessiond] SESSION_", ascii "EXI", ascii "TED\nlost"]

theorem split_stream_sole : LegacyNotice.exited.Sole (ascii "ls") (ascii "lost") := by
  intro other before after heq
  have hpart : ((before ++ other.marker ++ after).drop before.length).take other.marker.length = other.marker := by
    rw [append_assoc, drop_left, take_left]
  have hlength := congrArg List.length heq
  rw [length_append, length_append] at hlength
  rw [heq] at hpart
  -- No other place of the stream begins a notice.
  have hplaces : ∀ place < 50, ((ascii "ls" ++ LegacyNotice.exited.marker ++ ascii "lost").drop place).take
      other.marker.length = other.marker → other = .exited ∧ place = 2 := by
    cases other with
    | stolen => decide +kernel
    | exited => decide +kernel
  have hend : (ascii "ls" ++ LegacyNotice.exited.marker ++ ascii "lost").length < 50 := by decide +kernel
  obtain ⟨rfl, hplace⟩ := hplaces before.length (by omega) hpart
  rw [append_assoc, append_assoc] at heq
  exact ⟨rfl, (append_inj heq (hplace.trans (by decide +kernel))).1⟩

/-- Both scanners find the split notice, and the buffer receives what comes before it. -/
theorem notices_are_found_in_split_stream : ByteWriter.buffer.Lawful id ∧
    (∃ quiet result rest, (OutputScanner.default.feed splitStream).1 = quiet ++ result :: rest ∧
      (∀ other ∈ quiet, other.notice = none) ∧ result.notice = some .exited ∧
      OutputScanner.shownBy (quiet ++ [result]) = ascii "ls") ∧
    ∃ scanner, AttachOutputScanner.default.forward ByteWriter.buffer [] splitStream =
      (.ok (some .exited), scanner, ascii "ls") := by
  have hlawful : ByteWriter.buffer.Lawful id := ⟨fun _ _ _ => rfl, fun _ _ => rfl⟩
  obtain ⟨hfinds, hforwards⟩ := notices_are_found_in_any_chunks ByteWriter.buffer id hlawful
  have hstream : splitStream.flatten = ascii "ls" ++ LegacyNotice.exited.marker ++ ascii "lost" := by decide +kernel
  refine ⟨hlawful, ?_, ?_⟩
  · obtain ⟨-, -, -, -, -, quiet, result, rest, hfeed, -, hquiet, hnotice, hshown, -⟩ :=
      hfinds.notice .exited _ _ _ hstream split_stream_sole
    exact ⟨quiet, result, rest, hfeed, hquiet, hnotice, hshown⟩
  · obtain ⟨earlier, chunk, later, hsplit, -, -, hends⟩ :=
      hforwards.notice .exited _ _ _ hstream split_stream_sole
    cases hforward : AttachOutputScanner.default.forward ByteWriter.buffer [] splitStream with
    | mk answer rest =>
      cases answer with
      | error error =>
        -- The buffer never fails.
        obtain ⟨_, _, _, _, _, _, _, hemit⟩ :=
          hforwards.failure _ _ _ error (congrArg Prod.fst hforward)
        cases hemit
      | ok answer =>
        rw [hsplit] at hforward
        obtain ⟨rfl, haccepted⟩ := hends later answer rest.1 [] rest.2 hforward
        exact ⟨rest.1, by rw [← show rest.2 = ascii "ls" from haccepted]; rfl⟩

end FesTerm
