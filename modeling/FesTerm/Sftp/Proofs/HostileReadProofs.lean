import FesTerm.Sftp.Proofs.ReadLoopProofs

/-!
# Reading from a server that answers anything

Whatever the server answers, and whatever the local file does, the loop asks for no byte past the announced
end and stores no more than the limits allow.
-/

namespace FesTerm

open Dialogue ReadPipeline List

/-- What was asked of the server, and how many bytes were handed to the local file. -/
structure ReadLog where
  requests : List (Nat × Nat)
  stored : Nat

/-- What a question leaves behind, however it is answered. -/
def ReadLog.after (log : ReadLog) : ReadQuestion → ReadLog
  | .spawnRead offset length => { log with requests := log.requests ++ [(offset, length)] }
  | .writeAll bytes => { log with stored := log.stored + bytes.length }
  | .awaitRead .. | .flush => log

/-- Any answer may come. -/
def AnyAnswers (log : ReadLog) (question : ReadQuestion) (_ : ReadReply question) (log' : ReadLog) : Prop :=
  log' = log.after question

structure ReadLog.Bounded (config : TransferConfig) (total : Option Nat) (log : ReadLog) : Prop where
  requests : ∀ request ∈ log.requests, 0 < request.2 ∧ request.2 ≤ config.chunkSize ∧
    ∀ announced ∈ total, request.1 + request.2 ≤ announced
  limit : log.stored ≤ config.maxFileSize
  announced : ∀ announced ∈ total, log.stored ≤ announced

variable {config : TransferConfig} {total : Option Nat}

theorem requestLength_le {chunk length : Nat} {pipeline : ReadPipeline}
    (h : requestLength total chunk pipeline.nextRequest = some length) :
    length ≤ chunk ∧ ∀ announced ∈ total, pipeline.nextRequest + length ≤ announced := by
  unfold requestLength at h
  cases total with
  | none =>
    cases h
    exact ⟨le_rfl, nofun⟩
  | some announced =>
    dsimp only at h
    split at h
    · cases h
    · cases h
      refine ⟨min_le_left _ _, fun other hother => ?_⟩
      cases hother
      omega

/-- The loop has stored what it counts, and what is in flight was asked for. -/
structure Counted (config : TransferConfig) (total : Option Nat) (chunk written : Nat)
    (pipeline : ReadPipeline) (log : ReadLog) : Prop where
  bounded : log.Bounded config total
  stored : log.stored = written
  chunk_pos : 0 < chunk
  chunk_le : chunk ≤ config.chunkSize
  inFlight : ∀ request ∈ pipeline.inFlight, request ∈ log.requests
  contiguous : Contiguous written pipeline.inFlight pipeline.nextRequest

variable {chunk written : Nat} {pipeline : ReadPipeline} {log : ReadLog}

theorem Counted.fill (room : Nat) (h : Counted config total chunk written pipeline log) :
    Ensures AnyAnswers
      (fun result log' => ∃ pipeline', result = .ok pipeline' ∧ Counted config total chunk written pipeline' log')
      (fill total chunk room pipeline).run log := by
  induction room generalizing pipeline log with
  | zero => exact ⟨pipeline, rfl, h⟩
  | succ room ih =>
    rw [ReadPipeline.fill]
    cases hlength : requestLength total chunk pipeline.nextRequest with
    | none => exact ⟨pipeline, rfl, h⟩
    | some length =>
      refine ensures_seq.mpr (ensures_question.mpr fun reply log' hreply => ?_)
      cases hreply
      obtain ⟨hle, hend⟩ := requestLength_le hlength
      have hpos := requestLength_pos h.chunk_pos hlength
      refine ih ⟨⟨fun request hrequest => ?_, h.bounded.limit, h.bounded.announced⟩, h.stored, h.chunk_pos,
        h.chunk_le, fun request hrequest => ?_, h.contiguous.push hpos⟩
      · rcases mem_append.mp hrequest with hold | hnew
        · exact h.bounded.requests request hold
        · rw [mem_singleton.mp hnew]
          exact ⟨hpos, hle.trans h.chunk_le, hend⟩
      · exact mem_append.mpr ((mem_append.mp hrequest).imp_left (h.inFlight request))

theorem Counted.chunks {chunk written : Nat} {pipeline : ReadPipeline} {log : ReadLog}
    (h : Counted config total chunk written pipeline log) :
    Ensures AnyAnswers (fun _ => ReadLog.Bounded config total)
      (readChunks config total chunk written pipeline).run log := by
  rw [readChunks]
  refine (h.fill _).seq ?_ (by rintro error log' ⟨_, ⟨⟩, _⟩)
  rintro pipeline' log' ⟨_, heq, hcounted⟩
  cases heq
  cases hflight : pipeline'.inFlight with
  | nil => exact hcounted.bounded
  | cons request inFlight =>
    obtain ⟨offset, requested⟩ := request
    have hrequest := hcounted.inFlight _ (hflight ▸ mem_cons_self)
    have hcontiguous := hcounted.contiguous
    rw [hflight] at hcontiguous
    obtain ⟨rfl, -, hrest⟩ := hcontiguous
    refine ensures_seq.mpr (ensures_question.mpr fun reply log'' hreply => ?_)
    cases hreply
    rcases reply with _ | _ | ⟨error | data⟩
    · exact hcounted.bounded
    · exact hcounted.bounded
    · cases error with
      | status code text => cases code <;> exact hcounted.bounded
      | limited text =>
        dsimp only
        split
        · have hle := hcounted.chunk_le
          exact Counted.chunks ⟨hcounted.bounded, hcounted.stored, by omega, by omega, by rintro _ ⟨⟩, rfl⟩
        · exact hcounted.bounded
      | timeout | other => exact hcounted.bounded
    · dsimp only
      split
      · exact hcounted.bounded
      split
      · exact hcounted.bounded
      have hstored : log'.stored = written := hcounted.stored
      have hbounded : ReadLog.Bounded config total { log' with stored := log'.stored + data.length } :=
        { requests := hcounted.bounded.requests
          limit := by dsimp only; omega
          announced := fun announced hannounced => by
            have hend := (hcounted.bounded.requests _ hrequest).2.2 announced hannounced
            dsimp only at hend ⊢
            omega }
      refine ensures_seq.mpr (ensures_question.mpr fun reply log''' hreply => ?_)
      cases hreply
      rcases reply with error | -
      · exact hbounded
      dsimp only
      have hle := hcounted.chunk_le
      have hpos := hcounted.chunk_pos
      split
      · exact Counted.chunks ⟨hbounded, congrArg (· + _) hstored, by omega, by omega, by rintro _ ⟨⟩, rfl⟩
      · have hall : requested = data.length := by omega
        exact Counted.chunks ⟨hbounded, congrArg (· + _) hstored, hpos, hle,
          fun other hother => hcounted.inFlight other (hflight ▸ mem_cons_of_mem _ hother), hall ▸ hrest⟩
termination_by config.maxFileSize - written + chunk

/-- However a server behaves, a download asks for nothing outside the announced file, and stores no more
than the announced size and the configured limit. -/
theorem hostile_download_is_bounded (config : TransferConfig) (total : Option Nat) :
    Ensures AnyAnswers (fun _ => ReadLog.Bounded config total) (readLoop config total).run ⟨[], 0⟩ := by
  have hchunk := config.chunked.1
  have hstart : Counted config total config.chunkSize 0 (restart 0) ⟨[], 0⟩ :=
    ⟨⟨nofun, Nat.zero_le _, fun _ _ => Nat.zero_le _⟩, rfl, by omega, le_rfl, nofun, rfl⟩
  refine hstart.chunks.seq ?_ fun _ _ hbounded => hbounded
  intro written log hbounded
  split
  · exact hbounded
  refine ensures_seq.mpr (ensures_question.mpr fun reply log' hreply => ?_)
  cases hreply
  rcases reply with error | - <;> exact hbounded

end FesTerm
