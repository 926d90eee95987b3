import FesTerm.Sftp.ReadLoop

/-!
# Proofs: what a read loop has written is the remote file

The requests in flight follow one another from the end of what is written, whatever was cut short or
refused before. So the next reply is about the bytes that come next.
-/

namespace FesTerm

open Dialogue List

/-- The server and the local file: how a question is answered while the remote file has the content, and
what that leaves in the local file. -/
inductive ReadAnswers (content : List UInt8) :
    List UInt8 → (question : ReadQuestion) → ReadReply question → List UInt8 → Prop
  | spawnRead {file : List UInt8} {offset length : Nat} :
    ReadAnswers content file (.spawnRead offset length) () file
  | cancelled {file : List UInt8} {offset length : Nat} :
    ReadAnswers content file (.awaitRead offset length) .cancelled file
  | joinFailed {file : List UInt8} {offset length : Nat} :
    ReadAnswers content file (.awaitRead offset length) .joinFailed file
  /-- Some of the bytes that were asked for. -/
  | data {file data : List UInt8} {offset length : Nat} (hdata : data ≠ [])
    (hpart : data <+: (content.drop offset).take length) :
    ReadAnswers content file (.awaitRead offset length) (.replied (.ok data)) file
  | eof {file : List UInt8} {offset length : Nat} {text : String} (hpast : content.length ≤ offset) :
    ReadAnswers content file (.awaitRead offset length) (.replied (.error (.status .eof text))) file
  /-- The size limit, or any other failure. -/
  | failed {file : List UInt8} {offset length : Nat} {error : RawError}
    (herror : ∀ text, error ≠ .status .eof text) :
    ReadAnswers content file (.awaitRead offset length) (.replied (.error error)) file
  | written {file bytes : List UInt8} : ReadAnswers content file (.writeAll bytes) (.ok ()) (file ++ bytes)
  | notWritten {file file' bytes : List UInt8} {error : FileError} :
    ReadAnswers content file (.writeAll bytes) (.error error) file'
  | flushed {file : List UInt8} : ReadAnswers content file .flush (.ok ()) file
  | notFlushed {file : List UInt8} {error : FileError} : ReadAnswers content file .flush (.error error) file

variable (content : List UInt8)

theorem readAnswers_total (file : List UInt8) (question : ReadQuestion) :
    ∃ reply file', ReadAnswers content file question reply file' := by
  cases question with
  | spawnRead => exact ⟨_, _, .spawnRead⟩
  | awaitRead => exact ⟨_, _, .cancelled⟩
  | writeAll => exact ⟨_, _, .written⟩
  | flush => exact ⟨_, _, .flushed⟩

namespace ReadPipeline

/-- The requests in flight follow one another from an offset to the next request. -/
def Contiguous (start : Nat) : List (Nat × Nat) → Nat → Prop
  | [], next => start = next
  | (offset, length) :: inFlight, next =>
    start = offset ∧ 0 < length ∧ Contiguous (start + length) inFlight next

theorem Contiguous.push {start next length : Nat} {inFlight : List (Nat × Nat)}
    (h : Contiguous start inFlight next) (hlength : 0 < length) :
    Contiguous start (inFlight ++ [(next, length)]) (next + length) := by
  induction inFlight generalizing start with
  | nil =>
    cases h
    exact ⟨rfl, hlength, rfl⟩
  | cons request inFlight ih => exact ⟨h.1, h.2.1, ih h.2.2⟩

variable {total : Option Nat} {chunk : Nat}

theorem requestLength_pos {nextRequest length : Nat} (hchunk : 0 < chunk)
    (h : requestLength total chunk nextRequest = some length) : 0 < length := by
  unfold requestLength at h
  cases total with
  | none =>
    cases h
    exact hchunk
  | some total =>
    dsimp only at h
    by_cases hall : nextRequest ≥ total
    · rw [if_pos hall] at h
      cases h
    · rw [if_neg hall] at h
      cases h
      omega

theorem requestLength_none {nextRequest : Nat}
    (h : requestLength total chunk nextRequest = none) :
    ∃ announced, total = some announced ∧ announced ≤ nextRequest := by
  unfold requestLength at h
  cases total with
  | none => cases h
  | some total =>
    dsimp only at h
    by_cases hall : nextRequest ≥ total
    · exact ⟨total, rfl, hall⟩
    · rw [if_neg hall] at h
      cases h

theorem fill_ensures {content file : List UInt8} {start : Nat} (hchunk : 0 < chunk)
    (room : Nat) {pipeline : ReadPipeline} (h : Contiguous start pipeline.inFlight pipeline.nextRequest) :
    Ensures (ReadAnswers content) (fun result file' =>
      file = file' ∧ ∃ pipeline', result = .ok pipeline' ∧
        Contiguous start pipeline'.inFlight pipeline'.nextRequest ∧
        (pipeline'.inFlight = [] → 0 < room ∨ 0 < pipeline.inFlight.length →
          ∃ announced, total = some announced ∧ announced ≤ pipeline'.nextRequest))
      (fill total chunk room pipeline).run file := by
  induction room generalizing pipeline with
  | zero =>
    refine ⟨rfl, pipeline, rfl, h, fun hempty hroom => ?_⟩
    rw [hempty] at hroom
    exact absurd hroom (by simp)
  | succ room ih =>
    rw [fill]
    cases hlength : requestLength total chunk pipeline.nextRequest with
    | none => exact ⟨rfl, pipeline, rfl, h, fun _ _ => requestLength_none hlength⟩
    | some length =>
      refine ensures_seq.mpr (ensures_question.mpr fun reply file' hreply => ?_)
      cases hreply
      refine (ih (h.push (requestLength_pos hchunk hlength))).mono fun result file' hrest => ?_
      obtain ⟨hfile, pipeline', hresult, hcontiguous, hall⟩ := hrest
      refine ⟨hfile, pipeline', hresult, hcontiguous, fun hempty _ => hall hempty (.inr ?_)⟩
      rw [push, length_append]
      exact Nat.succ_pos _

end ReadPipeline

open ReadPipeline

/-- What is written when the loop ends: the beginning of the remote file, and all of it unless the
announced size was reached. -/
def ReadUpTo (content : List UInt8) (total : Option Nat) : Except SftpError Nat → List UInt8 → Prop
  | .ok written, file => file <+: content ∧ file.length = written ∧
    ((∃ announced, total = some announced ∧ announced ≤ written) ∨ content.length ≤ written)
  | .error _, _ => True

theorem readChunks_ensures {content file : List UInt8} {config : TransferConfig} {total : Option Nat}
    {chunk written : Nat} {pipeline : ReadPipeline} (hchunk : 0 < chunk) (hfile : file <+: content)
    (hwritten : file.length = written) (h : Contiguous written pipeline.inFlight pipeline.nextRequest) :
    Ensures (ReadAnswers content) (ReadUpTo content total)
      (readChunks config total chunk written pipeline).run file := by
  rw [readChunks]
  refine (fill_ensures hchunk _ h).seq ?_ fun error file' hmiddle => trivial
  rintro pipeline' file' ⟨rfl, _, heq, hcontiguous, hall⟩
  cases heq
  have hwindow := config.windowed.1
  cases hflight : pipeline'.inFlight with
  | nil =>
    rw [hflight] at hcontiguous
    obtain ⟨announced, htotal, hannounced⟩ := hall hflight (by omega)
    rw [← hcontiguous] at hannounced
    exact ⟨hfile, hwritten, .inl ⟨announced, htotal, hannounced⟩⟩
  | cons request inFlight =>
    obtain ⟨offset, requested⟩ := request
    rw [hflight] at hcontiguous
    obtain ⟨rfl, hrequested, hrest⟩ := hcontiguous
    refine ensures_seq.mpr (ensures_question.mpr fun reply file' hreply => ?_)
    cases hreply with
    | cancelled | joinFailed => trivial
    | eof hpast => exact ⟨hfile, hwritten, .inr hpast⟩
    | @failed _ _ error herror =>
      cases error with
      | status code text =>
        cases code with
        | eof => exact absurd rfl (herror text)
        | _ => trivial
      | limited text =>
        dsimp only
        by_cases hchunk' : chunk > 4096
        · rw [dif_pos hchunk']
          exact readChunks_ensures (by omega) hfile hwritten rfl
        · rw [dif_neg hchunk']
          trivial
      | timeout | other => trivial
    | data hdata hpart =>
      rename_i data
      have hpos : 0 < data.length := length_pos_iff.mpr hdata
      have hlength : (file ++ data).length = written + data.length := by
        rw [length_append, hwritten]
      have hfile' : file ++ data <+: content := by
        rw [← take_append_drop written content, ← hwritten]
        have htaken : file = content.take file.length := prefix_iff_eq_take.mp hfile
        nth_rewrite 1 [htaken]
        rw [hwritten]
        exact (prefix_append_right_inj _).mpr (hpart.trans (List.take_prefix _ _))
      dsimp only
      by_cases hreceived : data.length = 0 ∨ data.length > requested
      · rw [dif_pos hreceived]
        trivial
      · rw [dif_neg hreceived]
        by_cases hlimit : written + data.length > config.maxFileSize
        · rw [dif_pos hlimit]
          trivial
        · rw [dif_neg hlimit]
          refine ensures_seq.mpr (ensures_question.mpr fun reply file'' hreply => ?_)
          cases hreply with
          | notWritten => trivial
          | written =>
            dsimp only
            by_cases hshort : data.length < requested
            · rw [if_pos hshort]
              exact readChunks_ensures (by omega) hfile' hlength rfl
            · rw [if_neg hshort]
              have hall : requested = data.length := by omega
              exact readChunks_ensures hchunk hfile' hlength (hall ▸ hrest)
termination_by config.maxFileSize - written + chunk

/-- What `read_loop` returns and leaves in the local file. -/
def ReadExactly (content : List UInt8) (total : Option Nat) : Except SftpError Unit → List UInt8 → Prop
  | .ok (), file => (∀ announced, total = some announced → file.length = announced) ∧
    ((total = none ∨ total = some content.length) → file = content)
  | .error _, _ => True

theorem readLoop_ensures (config : TransferConfig) (total : Option Nat) :
    Ensures (ReadAnswers content) (ReadExactly content total) (readLoop config total).run [] := by
  have hchunk : 0 < config.chunkSize := by have := config.chunked.1; omega
  have hstart : Contiguous 0 (restart 0).inFlight (restart 0).nextRequest := rfl
  refine (readChunks_ensures hchunk nil_prefix rfl hstart).seq ?_ fun _ _ _ => trivial
  rintro written file ⟨hfile, hwritten, hend⟩
  by_cases hshort : total.any (· ≠ written)
  · rw [if_pos hshort]
    trivial
  · rw [if_neg hshort]
    have htotal : ∀ announced, total = some announced → file.length = announced := by
      rintro announced rfl
      rw [hwritten]
      simpa using Eq.symm (by simpa using hshort)
    refine ensures_seq.mpr (ensures_question.mpr fun reply file' hreply => ?_)
    cases hreply with
    | notFlushed => trivial
    | flushed =>
      refine ⟨htotal, fun hsize => ?_⟩
      refine hfile.eq_of_length_le ?_
      rcases hend with ⟨announced, hannounced, hreached⟩ | hpast
      · rcases hsize with hnone | hsome
        · rw [hnone] at hannounced
          cases hannounced
        · rw [htotal _ hsome]
      · rw [hwritten]
        exact hpast

end FesTerm
