import FesTerm.Sessiond.ClientLoop
import FesTerm.Sessiond.Proofs.FrameProofs

/-!
# Proofs: the daemon's loop for one client

What holds of `client_io_loop` at every access, whatever the accesses find: the bytes that went out and
those in progress are the snapshot and the frames of the outputs taken, a held command is the client's
own, and nothing is read before the parser is drained. One lemma for each part of a round; `Sound.step`
puts them together.
-/

namespace FesTerm

open Framing List

/-- The loop is about to end: nothing is read and no output is written any more. -/
def IoPoint.isLast : IoPoint → Bool
  | .notice | .noticeFlush | .returning _ | .released _ | .finished _ | .panicked => true
  | _ => false

namespace IoLoop

variable {loop loop' : IoLoop} {generation : Nat} {recovery : List UInt8}

/-- What is left of the output in progress. -/
def unwritten (loop : IoLoop) : List UInt8 :=
  match loop.pendingOutput with
  | none => []
  | some (data, written) => data.drop written

def frames (loop : IoLoop) : List UInt8 := (loop.taken.map ClientOutput.frame).flatten

/-- What holds between the accesses. -/
structure Held (generation : Nat) (recovery : List UInt8) (loop : IoLoop) : Prop where
  generation_eq : loop.generation = generation
  /-- Nothing is lost, repeated or reordered on the stream. -/
  stream : loop.sent ++ loop.unwritten = recovery ++ loop.frames
  /-- What is in progress is the snapshot, or the frame of the last output. -/
  last : ∀ data written, loop.pendingOutput = some (data, written) →
    loop.taken = [] ∧ loop.recoveryAdopted = false ∧ data = recovery ∨
      ∃ outputs output, loop.taken = outputs ++ [output] ∧ data = output.frame
  unadopted : loop.recoveryAdopted = false → loop.taken = [] ∧ loop.pendingInput = none
  author : ∀ input, loop.pendingInput = some input → input.generation = generation
  room : loop.parser.bytes.length ≤ maxFrameBytes + frameHeaderBytes

theorem Held.goto (h : Held generation recovery loop) (point : IoPoint) :
    Held generation recovery (loop.goto point) :=
  ⟨h.generation_eq, h.stream, h.last, h.unadopted, h.author, h.room⟩

variable {parser : ClientFrameParser}

theorem Held.withParser (h : Held generation recovery loop)
    (hroom : parser.bytes.length ≤ maxFrameBytes + frameHeaderBytes) :
    Held generation recovery { loop with parser := parser } :=
  ⟨h.generation_eq, h.stream, h.last, h.unadopted, h.author, hroom⟩

theorem Held.takeOutput (h : Held generation recovery loop) (hnone : loop.pendingOutput = none)
    (hadopted : loop.recoveryAdopted) (output : ClientOutput) :
    Held generation recovery (loop.takeOutput output) := by
  refine ⟨h.generation_eq, ?_, ?_, fun hfalse => ?_, h.author, h.room⟩
  · have hstream := h.stream
    rw [unwritten, hnone, append_nil] at hstream
    show loop.sent ++ output.frame =
      recovery ++ ((loop.taken ++ [output]).map ClientOutput.frame).flatten
    rw [hstream, map_append, flatten_append, frames, append_assoc]
    simp
  · intro data written hdata
    cases hdata
    exact .inr ⟨loop.taken, output, rfl, rfl⟩
  · have hfalse : loop.recoveryAdopted = false := hfalse
    rw [hadopted] at hfalse
    cases hfalse

theorem Held.advance (h : Held generation recovery loop) {data : List UInt8} {written : Nat}
    (hpending : loop.pendingOutput = some (data, written)) (count : Nat) :
    Held generation recovery (loop.advance data written count) := by
  refine ⟨h.generation_eq, ?_, ?_, h.unadopted, h.author, h.room⟩
  · have hstream := h.stream
    rw [unwritten, hpending] at hstream
    show loop.sent ++ (data.drop written).take count ++ data.drop (written + count) = recovery ++ loop.frames
    rw [append_assoc, ← drop_drop, take_append_drop]
    exact hstream
  · intro data' written' hdata
    cases hdata
    exact h.last data written hpending

theorem Held.written (h : Held generation recovery loop) (hdone : loop.unwritten = []) :
    Held generation recovery { loop with pendingOutput := none } := by
  refine ⟨h.generation_eq, ?_, nofun, h.unadopted, h.author, h.room⟩
  have hstream := h.stream
  rw [hdone] at hstream
  exact hstream

def Unfinished (loop : IoLoop) : Prop :=
  ∀ data written, loop.pendingOutput = some (data, written) → written < data.length

theorem unfinished_of_none (h : loop.pendingOutput = none) : loop.Unfinished :=
  fun _ _ hdata => nomatch h.symm.trans hdata

variable {result : Except IoError Nat} {answer : IoAnswer}

section

variable [Bincode]

def Waiting (parser : ClientFrameParser) : Prop :=
  frameTake ClientFrameParser.format ClientFrameParser.parseCommand parser.bytes = .ok none

def Drained (loop : IoLoop) : Prop := loop.pendingInput = none → Waiting loop.parser

/-- What holds in addition where the loop stands. -/
def Ready (loop : IoLoop) : IoPoint → Prop
  | .top | .deadline | .commands | .command | .adopt | .disconnected | .notice | .noticeFlush =>
    loop.Unfinished
  | .submit input =>
    loop.Unfinished ∧ input.generation = loop.generation ∧ loop.recoveryAdopted ∧
      loop.pendingInput = none
  | .outputs _ | .writeCheck _ _ | .write _ _ => loop.Unfinished ∧ loop.Drained
  | .poll _ => loop.Drained ∧ loop.recoveryAdopted ∧ loop.pendingOutput = none
  | .flush _ => loop.unwritten = [] ∧ loop.Drained
  | .read => loop.Unfinished ∧ loop.pendingInput = none ∧ loop.Drained
  | .returning _ | .released _ | .finished _ => True
  | .panicked => False

structure Sound (generation : Nat) (recovery : List UInt8) (loop : IoLoop) : Prop where
  held : Held generation recovery loop
  ready : loop.Ready loop.point

theorem Held.at (h : Held generation recovery loop) {point : IoPoint} (hready : loop.Ready point) :
    Sound generation recovery (loop.goto point) := ⟨h.goto point, by cases point <;> exact hready⟩

theorem Held.fail (h : Held generation recovery loop) (error : IoError) :
    Sound generation recovery (loop.fail error) := h.at trivial

theorem Sound.start (generation : Nat) (recovery : List UInt8) :
    Sound generation recovery (.start generation recovery) := by
  have hunwritten : (IoLoop.start generation recovery).unwritten = recovery := by
    rcases recovery with _ | ⟨byte, recovery⟩ <;> rfl
  refine ⟨⟨rfl, ?_, ?_, fun _ => ⟨rfl, rfl⟩, nofun, Nat.zero_le _⟩, ?_⟩
  · rw [hunwritten]
    exact (append_nil recovery).symm
  · intro data written h
    rcases recovery with _ | ⟨byte, recovery⟩
    · cases h
    · cases h
      exact .inl ⟨rfl, rfl, rfl⟩
  · intro data written h
    rcases recovery with _ | ⟨byte, recovery⟩
    · cases h
    · cases h
      exact Nat.zero_lt_succ _

theorem Held.dispatch (h : Held generation recovery loop) (hunfinished : loop.Unfinished)
    (hpending : loop.pendingInput = none) {input : ClientInput}
    (hinput : input.generation = loop.generation) :
    Sound generation recovery (loop.dispatch input) := by
  unfold IoLoop.dispatch
  by_cases hadopted : loop.recoveryAdopted
  · rw [if_pos hadopted]
    exact h.at ⟨hunfinished, hinput, hadopted, hpending⟩
  · rw [if_neg hadopted]
    split
    · split
      · exact h.fail _
      · next hnone =>
        have hnone : loop.pendingOutput = none := by simpa using hnone
        have hheld : Held generation recovery
            { loop with recoveryAdopted := true, adoption := false } :=
          ⟨h.generation_eq, h.stream, (fun _ _ hdata => nomatch hnone.symm.trans hdata), nofun,
            h.author, h.room⟩
        have hheld' : Held generation recovery { loop with recoveryAdopted := true } :=
          ⟨hheld.generation_eq, hheld.stream, hheld.last, hheld.unadopted, hheld.author, hheld.room⟩
        split
        · exact hheld.at (unfinished_of_none hnone)
        · exact hheld'.at (unfinished_of_none hnone)
    · exact h.fail _

theorem take_shorter {bytes rest : List UInt8} {command : ClientCommand}
    (h : frameTake ClientFrameParser.format ClientFrameParser.parseCommand bytes =
      .ok (some (command, rest))) : rest.length < bytes.length := by
  obtain ⟨used, hused, rfl, -⟩ := ClientFrameParser.take_lawful.cut h
  have hlength := length_pos_iff.mpr hused
  rw [length_append]
  omega

theorem Held.nextInput (h : Held generation recovery loop) (hunfinished : loop.Unfinished) :
    Sound generation recovery loop.nextInput := by
  unfold IoLoop.nextInput
  split
  · next input hpending =>
    have hheld : Held generation recovery { loop with pendingInput := none } :=
      ⟨h.generation_eq, h.stream, h.last, fun hearly => ⟨(h.unadopted hearly).1, rfl⟩, nofun, h.room⟩
    exact hheld.dispatch hunfinished rfl ((h.author input hpending).trans h.generation_eq.symm)
  · next hpending =>
    obtain ⟨parser, result, hnext, herror, hnone, hitem⟩ :=
      ClientFrameParser.nextCommand_follows.step loop.parser
    rw [hnext]
    rcases result with error | command
    · have hparser : parser.bytes.length ≤ maxFrameBytes + frameHeaderBytes := by
        have hsame := ClientFrameParser.nextCommand_error hnext
        rw [hsame]
        exact h.room
      exact (h.withParser hparser).fail error
    · rcases command with _ | command
      · obtain ⟨rfl, hwaiting⟩ := hnone rfl
        exact h.at ⟨hunfinished, fun _ => hwaiting⟩
      · have hshorter := take_shorter (hitem command rfl)
        have hroom := h.room
        have hheld : Held generation recovery { loop with parser := parser } := h.withParser (by omega)
        have hinput : (ClientInput.mk loop.generation command).generation = loop.generation := rfl
        exact hheld.dispatch hunfinished hpending hinput

theorem Held.afterOutputs (h : Held generation recovery loop) (hunfinished : loop.Unfinished)
    (hdrained : loop.Drained) : Sound generation recovery loop.afterOutputs := by
  unfold IoLoop.afterOutputs
  split
  · exact h.at hunfinished
  · next hnone => exact h.at ⟨hunfinished, by simpa using hnone, hdrained⟩

theorem Held.nextRound (h : Held generation recovery loop) (hunfinished : loop.Unfinished)
    (hdrained : loop.Drained) (round : Nat) : Sound generation recovery (loop.nextRound round) := by
  unfold IoLoop.nextRound
  split
  · exact h.at ⟨hunfinished, hdrained⟩
  · exact h.afterOutputs hunfinished hdrained

theorem Held.continueWrite (h : Held generation recovery loop) (hdrained : loop.Drained)
    (round budget : Nat) : Sound generation recovery (loop.continueWrite round budget) := by
  unfold IoLoop.continueWrite
  split
  · next hnone => exact h.afterOutputs (unfinished_of_none hnone) hdrained
  · next data written hpending =>
    split
    · next hlt =>
      have hunfinished : loop.Unfinished := by
        intro data' written' hdata
        rw [hpending] at hdata
        cases hdata
        exact hlt
      split
      · exact h.afterOutputs hunfinished hdrained
      · exact h.at ⟨hunfinished, hdrained⟩
    · next hle =>
      refine h.at ⟨?_, hdrained⟩
      rw [unwritten, hpending]
      exact drop_of_length_le (by omega)

theorem Held.beginRound (h : Held generation recovery loop) (hdrained : loop.Drained) (round : Nat) :
    Sound generation recovery (loop.beginRound round) := by
  unfold IoLoop.beginRound
  split
  · next hpoll => exact h.at ⟨hdrained, hpoll.1, by simpa using hpoll.2⟩
  · exact h.continueWrite hdrained round maxFrameBytes

theorem Held.afterWrite (h : Held generation recovery loop) (hunfinished : loop.Unfinished)
    (hdrained : loop.Drained) {round budget : Nat}
    (hstep : loop.afterWrite round budget result = some loop') : Sound generation recovery loop' := by
  unfold IoLoop.afterWrite at hstep
  split at hstep
  · cases hstep
  · next data written hpending =>
    split at hstep
    · next count =>
      split at hstep
      · cases hstep
        exact h.fail _
      · split at hstep
        · cases hstep
          exact (h.advance hpending count).continueWrite hdrained round (budget - count)
        · cases hstep
    · next error =>
      cases hstep
      split
      · exact h.afterOutputs hunfinished hdrained
      · exact h.fail error

theorem Held.afterFlush (h : Held generation recovery loop) (hdone : loop.unwritten = [])
    (hdrained : loop.Drained) (round : Nat) (result : Except IoError Unit) :
    Sound generation recovery (loop.afterFlush round result) := by
  have hnext := (h.written hdone).nextRound nofun hdrained round
  unfold IoLoop.afterFlush
  split
  · exact hnext
  · next error =>
    split
    · exact hnext
    · exact h.fail error

omit [Bincode] in
theorem readLimit_eq (h : parser.bytes.length ≤ maxFrameBytes + frameHeaderBytes) :
    parser.readLimit =
      some (min readBufferBytes (maxFrameBytes + frameHeaderBytes - parser.bytes.length)) := by
  unfold ClientFrameParser.readLimit ClientFrameParser.remainingCapacity Checked.sub
  rw [if_pos h]
  rfl

theorem Held.afterRead (h : Held generation recovery loop) (hunfinished : loop.Unfinished)
    (hpending : loop.pendingInput = none) (hdrained : loop.Drained)
    {bytes : Except IoError (List UInt8)} (hstep : loop.afterRead bytes = some loop') :
    Sound generation recovery loop' := by
  unfold IoLoop.afterRead at hstep
  split at hstep
  · next bytes =>
    have hroom := frameTake_room ClientFrameParser.length_magic ClientFrameParser.parseCommand_total
      (hdrained hpending)
    rw [readLimit_eq h.room] at hstep
    simp only at hstep
    split at hstep
    · cases hstep
    · next hle =>
      split at hstep
      · cases hstep
        exact h.at trivial
      · have hfit : ¬loop.parser.bytes.length + bytes.length > maxFrameBytes + frameHeaderBytes := by
          have hroom := h.room
          omega
        unfold ClientFrameParser.push at hstep
        rw [if_neg hfit] at hstep
        cases hstep
        have hheld : Held generation recovery
            { loop with
              received := loop.received ++ bytes
              parser := ⟨loop.parser.bytes ++ bytes⟩ } :=
          ⟨h.generation_eq, h.stream, h.last, h.unadopted, h.author, by
            show (loop.parser.bytes ++ bytes).length ≤ _
            rw [length_append]
            omega⟩
        exact hheld.at hunfinished
  · next error =>
    cases hstep
    split
    · exact h.at hunfinished
    · exact h.fail error

theorem Held.afterNotice (h : Held generation recovery loop) (hunfinished : loop.Unfinished)
    (hpoint : loop.point = .notice)
    (hstep : loop.afterNotice result = some loop') : Sound generation recovery loop' := by
  unfold IoLoop.afterNotice at hstep
  split at hstep
  · next count =>
    simp only at hstep
    split at hstep
    · cases hstep
      exact h.fail _
    · split at hstep
      · cases hstep
        have hheld : Held generation recovery { loop with noticed := loop.noticed + count } :=
          ⟨h.generation_eq, h.stream, h.last, h.unadopted, h.author, h.room⟩
        split
        · exact hheld.at hunfinished
        · exact hheld.at hunfinished
      · cases hstep
  · next error =>
    cases hstep
    split
    · exact ⟨h, by rw [hpoint]; exact hunfinished⟩
    · exact h.fail error

/-- What holds at one access holds at the next. -/
theorem Sound.step (h : Sound generation recovery loop)
    (hstep : loop.step answer = some loop') : Sound generation recovery loop' := by
  obtain ⟨hheld, hready⟩ := h
  unfold IoLoop.step at hstep
  split at hstep <;> try cases hstep
  · next raised hpoint =>
    rw [hpoint] at hready
    split <;> exact hheld.at hready
  · next expired hpoint =>
    rw [hpoint] at hready
    split
    · exact hheld.fail _
    · exact hheld.at hready
  · next raised hpoint =>
    rw [hpoint] at hready
    split <;> exact hheld.at hready
  · next hpoint =>
    rw [hpoint] at hready
    exact hheld.nextInput hready
  · next hpoint =>
    rw [hpoint] at hready
    exact hheld.at hready
  · exact hheld.fail _
  · next hpoint =>
    rw [hpoint] at hready
    exact hheld.at hready.1
  · next input hpoint =>
    rw [hpoint] at hready
    obtain ⟨hunfinished, hinput, hadopted, -⟩ := hready
    have hheld' : Held generation recovery { loop with pendingInput := some input } := by
      refine ⟨hheld.generation_eq, hheld.stream, hheld.last, fun hearly => ?_, fun input' h => ?_, hheld.room⟩
      · exact nomatch (show loop.recoveryAdopted = false from hearly).symm.trans hadopted
      · cases h
        exact hinput.trans hheld.generation_eq
    exact hheld'.at ⟨hunfinished, nofun⟩
  · next hpoint =>
    rw [hpoint] at hready
    exact hheld.at hready.1
  · next round raised hpoint =>
    rw [hpoint] at hready
    split
    · exact hheld.at hready.1
    · exact hheld.beginRound hready.2 round
  · next round output hpoint =>
    rw [hpoint] at hready
    obtain ⟨hdrained, hadopted, hnone⟩ := hready
    exact (hheld.takeOutput hnone hadopted output).continueWrite hdrained round maxFrameBytes
  · next round hpoint =>
    rw [hpoint] at hready
    obtain ⟨hdrained, -, hnone⟩ := hready
    exact hheld.afterOutputs (unfinished_of_none hnone) hdrained
  · next round hpoint =>
    rw [hpoint] at hready
    obtain ⟨-, -, hnone⟩ := hready
    exact hheld.at (unfinished_of_none hnone)
  · next round budget raised hpoint =>
    rw [hpoint] at hready
    split
    · exact hheld.afterOutputs hready.1 hready.2
    · exact hheld.at hready
  · next round budget result hpoint =>
    rw [hpoint] at hready
    exact hheld.afterWrite hready.1 hready.2 hstep
  · next round result hpoint =>
    rw [hpoint] at hready
    exact hheld.afterFlush hready.1 hready.2 round result
  · next result hpoint =>
    rw [hpoint] at hready
    exact hheld.afterRead hready.1 hready.2.1 hready.2.2 hstep
  · next raised hpoint =>
    rw [hpoint] at hready
    split
    · exact hheld.at hready
    · exact hheld.at trivial
  · next result hpoint =>
    rw [hpoint] at hready
    exact hheld.afterNotice hready hpoint hstep
  · exact hheld.at trivial
  · next result hpoint =>
    have hheld' : Held generation recovery { loop with adoption := false } :=
      ⟨hheld.generation_eq, hheld.stream, hheld.last, hheld.unadopted, hheld.author, hheld.room⟩
    exact hheld'.at trivial
  · exact hheld.at trivial

end

/-- The same on the stream, in the parser and in the outputs taken. -/
structure Kept (loop loop' : IoLoop) : Prop where
  generation : loop'.generation = loop.generation
  parser : loop'.parser = loop.parser
  recoveryAdopted : loop'.recoveryAdopted = loop.recoveryAdopted
  noticed : loop'.noticed = loop.noticed
  received : loop'.received = loop.received
  sent : loop'.sent = loop.sent
  taken : loop'.taken = loop.taken

theorem Kept.refl (loop : IoLoop) : Kept loop loop := ⟨rfl, rfl, rfl, rfl, rfl, rfl, rfl⟩

theorem Kept.goto (loop : IoLoop) (point : IoPoint) : Kept loop (loop.goto point) :=
  ⟨rfl, rfl, rfl, rfl, rfl, rfl, rfl⟩

theorem Kept.then {middle : IoLoop} (h : Kept loop middle) (h' : Kept middle loop') : Kept loop loop' :=
  ⟨h'.generation.trans h.generation, h'.parser.trans h.parser,
    h'.recoveryAdopted.trans h.recoveryAdopted, h'.noticed.trans h.noticed, h'.received.trans h.received,
    h'.sent.trans h.sent, h'.taken.trans h.taken⟩

theorem Kept.withPending (loop : IoLoop) (output : Option (List UInt8 × Nat)) :
    Kept loop { loop with pendingOutput := output } := ⟨rfl, rfl, rfl, rfl, rfl, rfl, rfl⟩

theorem kept_afterOutputs (loop : IoLoop) : Kept loop loop.afterOutputs := Kept.goto _ _

theorem kept_nextRound (loop : IoLoop) (round : Nat) : Kept loop (loop.nextRound round) := by
  unfold IoLoop.nextRound
  split
  · exact Kept.goto _ _
  · exact kept_afterOutputs loop

theorem kept_continueWrite (loop : IoLoop) (round budget : Nat) :
    Kept loop (loop.continueWrite round budget) := by
  unfold IoLoop.continueWrite
  split
  · exact kept_afterOutputs loop
  · split
    · split
      · exact kept_afterOutputs loop
      · exact Kept.goto _ _
    · exact Kept.goto _ _

theorem kept_beginRound (loop : IoLoop) (round : Nat) : Kept loop (loop.beginRound round) := by
  unfold IoLoop.beginRound
  split
  · exact Kept.goto _ _
  · exact kept_continueWrite loop round maxFrameBytes

theorem kept_afterFlush (loop : IoLoop) (round : Nat) (result : Except IoError Unit) :
    Kept loop (loop.afterFlush round result) := by
  have hnext := (Kept.withPending loop none).then (kept_nextRound _ round)
  unfold IoLoop.afterFlush
  split
  · exact hnext
  · split
    · exact hnext
    · exact Kept.goto _ _

theorem kept_dispatch (loop : IoLoop) (input : ClientInput) :
    (loop.dispatch input).generation = loop.generation ∧ (loop.dispatch input).parser = loop.parser ∧
      (loop.dispatch input).noticed = loop.noticed ∧ (loop.dispatch input).received = loop.received ∧
      (loop.dispatch input).sent = loop.sent ∧ (loop.dispatch input).taken = loop.taken := by
  unfold IoLoop.dispatch
  split
  · exact ⟨rfl, rfl, rfl, rfl, rfl, rfl⟩
  · split
    · split
      · exact ⟨rfl, rfl, rfl, rfl, rfl, rfl⟩
      · split
        · exact ⟨rfl, rfl, rfl, rfl, rfl, rfl⟩
        · exact ⟨rfl, rfl, rfl, rfl, rfl, rfl⟩
    · exact ⟨rfl, rfl, rfl, rfl, rfl, rfl⟩

section

variable [Bincode]

theorem kept_nextInput (loop : IoLoop) :
    loop.nextInput.generation = loop.generation ∧ loop.nextInput.noticed = loop.noticed ∧
      loop.nextInput.received = loop.received ∧ loop.nextInput.sent = loop.sent ∧
      loop.nextInput.taken = loop.taken := by
  unfold IoLoop.nextInput
  split
  · next input _ =>
    obtain ⟨hgeneration, -, hnoticed, hreceived, hsent, htaken⟩ :=
      kept_dispatch { loop with pendingInput := none } input
    exact ⟨hgeneration, hnoticed, hreceived, hsent, htaken⟩
  · split
    · exact ⟨rfl, rfl, rfl, rfl, rfl⟩
    · exact ⟨rfl, rfl, rfl, rfl, rfl⟩
    · exact ⟨rfl, rfl, rfl, rfl, rfl⟩
    · next parser command _ =>
      obtain ⟨hgeneration, -, hnoticed, hreceived, hsent, htaken⟩ :=
        kept_dispatch { loop with parser := parser } ⟨loop.generation, command⟩
      exact ⟨hgeneration, hnoticed, hreceived, hsent, htaken⟩

/-- What an answer does to the streams, the parser and the outputs. -/
inductive Stepped (loop : IoLoop) : IoAnswer → IoLoop → Prop
  | kept {answer : IoAnswer} {loop' : IoLoop} (h : Kept loop loop')
    (hread : ∀ byte bytes, answer ≠ .read (.ok (byte :: bytes)))
    (htaken : ∀ output, answer ≠ .received (.item output)) : Stepped loop answer loop'
  | command (hpoint : loop.point = .command) : Stepped loop .silent loop.nextInput
  | polled {round : Nat} {output : ClientOutput} {loop' : IoLoop} (hpoint : loop.point = .poll round)
    (h : Kept (loop.takeOutput output) loop') : Stepped loop (.received (.item output)) loop'
  | wrote {round budget count written : Nat} {data : List UInt8} {loop' : IoLoop}
    (hpoint : loop.point = .write round budget) (hpending : loop.pendingOutput = some (data, written))
    (h : Kept (loop.advance data written count) loop') : Stepped loop (.wrote (.ok count)) loop'
  | noticed {count : Nat} {loop' : IoLoop} (hpoint : loop.point = .notice)
    (h : Kept { loop with noticed := loop.noticed + count } loop')
    (hsize : loop.noticed + count ≤ encodeServerStolenFrame.length) :
    Stepped loop (.wrote (.ok count)) loop'
  | read {byte : UInt8} {bytes : List UInt8} (hpoint : loop.point = .read) :
    Stepped loop (.read (.ok (byte :: bytes)))
      ({ loop with
        received := loop.received ++ byte :: bytes
        parser := ⟨loop.parser.bytes ++ byte :: bytes⟩ }.goto .top)

section

omit [Bincode]

theorem afterWrite_stepped [Bincode] {round budget : Nat} (hpoint : loop.point = .write round budget)
    (hstep : loop.afterWrite round budget result = some loop') : Stepped loop (.wrote result) loop' := by
  unfold IoLoop.afterWrite at hstep
  split at hstep
  · cases hstep
  · next data written hpending =>
    split at hstep
    · next count =>
      split at hstep
      · cases hstep
        exact .kept (Kept.goto _ _) nofun nofun
      · split at hstep
        · cases hstep
          exact .wrote hpoint hpending (kept_continueWrite _ round _)
        · cases hstep
    · cases hstep
      split
      · exact .kept (kept_afterOutputs loop) nofun nofun
      · exact .kept (Kept.goto _ _) nofun nofun

theorem afterNotice_stepped [Bincode] (hpoint : loop.point = .notice)
    (hstep : loop.afterNotice result = some loop') : Stepped loop (.wrote result) loop' := by
  unfold IoLoop.afterNotice at hstep
  split at hstep
  · next count =>
    simp only at hstep
    split at hstep
    · cases hstep
      exact .kept (Kept.goto _ _) nofun nofun
    · split at hstep
      · next hsize =>
        cases hstep
        exact .noticed hpoint (Kept.goto _ _) hsize
      · cases hstep
  · cases hstep
    split
    · exact .kept (Kept.refl loop) nofun nofun
    · exact .kept (Kept.goto _ _) nofun nofun

theorem afterRead_stepped [Bincode] {result : Except IoError (List UInt8)} (hpoint : loop.point = .read)
    (hroom : loop.parser.bytes.length ≤ maxFrameBytes + frameHeaderBytes)
    (hstep : loop.afterRead result = some loop') : Stepped loop (.read result) loop' := by
  unfold IoLoop.afterRead at hstep
  split at hstep
  · next bytes =>
    rw [readLimit_eq hroom] at hstep
    simp only at hstep
    split at hstep
    · cases hstep
    · rcases bytes with _ | ⟨byte, bytes⟩
      · cases hstep
        exact .kept (Kept.goto _ _) nofun nofun
      · rw [if_neg (by simp), ClientFrameParser.push, if_neg (by omega)] at hstep
        cases hstep
        exact .read hpoint
  · cases hstep
    split
    · exact .kept (Kept.goto _ _) nofun nofun
    · exact .kept (Kept.goto _ _) nofun nofun

end

/-- Every step of a sound loop is one of these. -/
theorem Sound.stepped (h : Sound generation recovery loop)
    (hstep : loop.step answer = some loop') : Stepped loop answer loop' := by
  obtain ⟨hheld, hready⟩ := h
  unfold IoLoop.step at hstep
  split at hstep
  · cases hstep
    exact .kept (Kept.goto _ _) nofun nofun
  · cases hstep
    split
    · exact .kept (Kept.goto _ _) nofun nofun
    · exact .kept (Kept.goto _ _) nofun nofun
  · cases hstep
    exact .kept (Kept.goto _ _) nofun nofun
  · next hpoint =>
    cases hstep
    exact .command hpoint
  · cases hstep
    exact .kept (Kept.goto _ _) nofun nofun
  · cases hstep
    exact .kept (Kept.goto _ _) nofun nofun
  · cases hstep
    exact .kept (Kept.goto _ _) nofun nofun
  · cases hstep
    exact .kept ⟨rfl, rfl, rfl, rfl, rfl, rfl, rfl⟩ nofun nofun
  · cases hstep
    exact .kept (Kept.goto _ _) nofun nofun
  · next round raised hpoint =>
    cases hstep
    split
    · exact .kept (Kept.goto _ _) nofun nofun
    · exact .kept (kept_beginRound loop round) nofun nofun
  · next round output hpoint =>
    cases hstep
    exact .polled hpoint (kept_continueWrite _ round _)
  · cases hstep
    exact .kept (kept_afterOutputs loop) nofun nofun
  · cases hstep
    exact .kept (Kept.goto _ _) nofun nofun
  · cases hstep
    split
    · exact .kept (kept_afterOutputs loop) nofun nofun
    · exact .kept (Kept.goto _ _) nofun nofun
  · next hpoint => exact afterWrite_stepped hpoint hstep
  · next round result hpoint =>
    cases hstep
    exact .kept (kept_afterFlush loop round result) nofun nofun
  · next hpoint =>
    rw [hpoint] at hready
    exact afterRead_stepped hpoint hheld.room hstep
  · cases hstep
    exact .kept (Kept.goto _ _) nofun nofun
  · next hpoint => exact afterNotice_stepped hpoint hstep
  · cases hstep
    exact .kept (Kept.goto _ _) nofun nofun
  · cases hstep
    exact .kept ⟨rfl, rfl, rfl, rfl, rfl, rfl, rfl⟩ nofun nofun
  · cases hstep
    exact .kept (Kept.goto _ _) nofun nofun
  · cases hstep

/-- Once the loop is about to end it stays so. -/
theorem step_isLast (hlast : loop.point.isLast)
    (hstep : loop.step answer = some loop') : loop'.point.isLast := by
  cases hpoint : loop.point with
  | notice =>
    cases answer with
    | wrote result =>
      simp only [IoLoop.step, hpoint, afterNotice] at hstep
      split at hstep
      · split at hstep
        · cases hstep
          rfl
        · split at hstep
          · cases hstep
            show (if _ then IoPoint.notice else .noticeFlush).isLast
            split <;> rfl
          · cases hstep
      · cases hstep
        split
        · exact hlast
        · rfl
    | _ => simp only [IoLoop.step, hpoint, reduceCtorEq] at hstep
  | noticeFlush =>
    cases answer with
    | flushed result =>
      simp only [IoLoop.step, hpoint, Option.some.injEq] at hstep
      rw [← hstep]
      rfl
    | _ => simp only [IoLoop.step, hpoint, reduceCtorEq] at hstep
  | returning result | released result =>
    cases answer with
    | silent =>
      simp only [IoLoop.step, hpoint, Option.some.injEq] at hstep
      rw [← hstep]
      rfl
    | _ => simp only [IoLoop.step, hpoint, reduceCtorEq] at hstep
  | finished result | panicked => simp only [IoLoop.step, hpoint, reduceCtorEq] at hstep
  | _ =>
    rw [hpoint] at hlast
    cases hlast

end

end IoLoop

end FesTerm
