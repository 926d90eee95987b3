import FesTerm.Lib.Runs
import FesTerm.Sessiond.Attachment
import FesTerm.Sessiond.Proofs.ClientLoopProofs
import FesTerm.Sessiond.Proofs.ClientWorkerProofs

/-!
# Proofs: an attached client

The bytes that the daemon's loop has read are the first of those that the client has written, so its
parser meets the frames of the client one by one. The acknowledgement is the first of them, and it is
not written before the client has read the whole snapshot, that is after the daemon has written it.
-/

namespace FesTerm

open Framing List Option

section

variable [Bincode]

theorem take_of_frames {commands : List ClientCommand} {frames : List (List UInt8)} (h : Forall₂
      (Framed ClientFrameParser.format ClientFrameParser.parseCommand) commands frames)
    {bytes rest : List UInt8} (hbytes : bytes ++ rest = frames.flatten) :
    frameTake ClientFrameParser.format ClientFrameParser.parseCommand bytes = .ok none ∨
      ∃ command commands' frame frames' bytes', commands = command :: commands' ∧
        frames = frame :: frames' ∧ bytes = frame ++ bytes' ∧
        frameTake ClientFrameParser.format ClientFrameParser.parseCommand bytes =
          .ok (some (command, bytes')) := by
  have hlaw := ClientFrameParser.take_lawful
  cases h with
  | nil =>
    obtain ⟨rfl, -⟩ := append_eq_nil_iff.mp hbytes
    exact .inl rfl
  | @cons command frame commands' frames' hframe hframes =>
    have hfirst := hframe.takes ClientFrameParser.length_magic frames'.flatten
    rw [flatten_cons] at hbytes
    rw [← hbytes] at hfirst
    rcases htake : frameTake ClientFrameParser.format ClientFrameParser.parseCommand bytes with
      error | item
    · rw [hlaw.refuse rest htake] at hfirst
      cases hfirst
    · rcases item with _ | ⟨command', bytes'⟩
      · exact .inl rfl
      · rw [take_append hlaw htake rest] at hfirst
        obtain ⟨rfl, hrest⟩ := Prod.mk.inj (some.inj (Except.ok.inj hfirst))
        refine .inr ⟨command', commands', frame, frames', bytes', rfl, rfl, ?_, rfl⟩
        rw [← hrest, ← append_assoc] at hbytes
        exact append_cancel_right hbytes

theorem framed_script (hbincode : Bincode.RoundTrips) {commands : List SessionCommand}
    (h : ∀ command ∈ commands, command.Framed) :
    ∃ sent, Forall₂ (Framed ClientFrameParser.format ClientFrameParser.parseCommand)
      (.recoveryAdopted :: sent) (encodeFrame frameRecoveryAdopted [] :: commandFrames commands) := by
  have hcommands : ∃ sent, Forall₂
      (Framed ClientFrameParser.format ClientFrameParser.parseCommand) sent (commandFrames commands) := by
    induction commands with
    | nil => exact ⟨[], .nil⟩
    | cons command commands ih =>
      obtain ⟨sent, hsent⟩ := ih fun other hother => h other (mem_cons_of_mem _ hother)
      rcases hframe : command.outbound with _ | frame
      · rw [commandFrames, filterMap_cons, hframe]
        exact ⟨sent, hsent⟩
      · obtain ⟨first, hfirst⟩ := h command mem_cons_self frame hframe
        rw [commandFrames, filterMap_cons, hframe]
        exact ⟨first :: sent, .cons (ClientFrameParser.framed_of_frame hbincode hfirst) hsent⟩
  obtain ⟨sent, hsent⟩ := hcommands
  exact ⟨sent, .cons (ClientFrameParser.framed_of_frame hbincode .recoveryAdopted) hsent⟩

namespace Attachment

variable {attachment attachment' : Attachment} {generation : Nat} {payload : List UInt8}

def script (attachment : Attachment) : List (List UInt8) :=
  encodeFrame frameRecoveryAdopted [] :: commandFrames attachment.client.accepted

/-- The two sides, and what is under way between them. -/
structure Sound (generation : Nat) (payload : List UInt8) (attachment : Attachment) : Prop where
  client : attachment.client.Orderly
  daemon : attachment.daemon.Sound generation (recoveryPrelude payload)
  quiet : attachment.daemon.point.isLast = false → attachment.daemon.noticed = 0
  upstream : attachment.daemon.received ++ attachment.toDaemon = attachment.client.sent
  reading : attachment.client.point.isRecovering →
    attachment.client.prelude ++ attachment.toClient = attachment.daemon.stream
  prelude : attachment.client.prelude <+: attachment.daemon.stream
  fits : Fits attachment.client.prelude
  /-- The parser is between two frames of the client, before the first one as long as the adoption is
  outstanding. -/
  parsed : attachment.daemon.point.isLast = false → ∃ count ≤ attachment.script.length,
    attachment.daemon.received =
        (attachment.script.take count).flatten ++ attachment.daemon.parser.bytes ∧
      (attachment.daemon.recoveryAdopted = false → count = 0)

theorem Sound.start {protocolVersion : Nat} (h : 2 ≤ protocolVersion)
    (snapshotSchemaVersion generation : Nat) (payload : List UInt8) :
    (start protocolVersion snapshotSchemaVersion generation (recoveryPrelude payload)).Sound generation
      payload where
  client := .start h snapshotSchemaVersion
  daemon := .start generation (recoveryPrelude payload)
  quiet _ := rfl
  upstream := rfl
  reading _ := rfl
  prelude := nil_prefix
  fits h := nomatch h
  parsed _ := ⟨0, Nat.zero_le _, rfl, fun _ => rfl⟩

theorem Sound.sent_prefix (h : attachment.Sound generation payload) :
    attachment.client.sent <+: attachment.script.flatten := by
  have hstream := h.client.lined.stream
  by_cases hadopted : attachment.client.adoptionSent
  · rw [ClientSession.script, if_pos hadopted] at hstream
    rw [script, flatten_cons, ← hstream, append_assoc]
    exact prefix_append _ _
  · rw [(h.client.lined.early (by simpa using hadopted)).2]
    exact nil_prefix

theorem Sound.ahead (h : attachment.Sound generation payload) {count : Nat}
    (hreceived : attachment.daemon.received =
      (attachment.script.take count).flatten ++ attachment.daemon.parser.bytes) :
    ∃ rest, attachment.daemon.parser.bytes ++ rest = (attachment.script.drop count).flatten := by
  obtain ⟨rest, hrest⟩ := h.sent_prefix
  refine ⟨attachment.toDaemon ++ rest, ?_⟩
  have hscript : (attachment.script.take count).flatten ++ (attachment.script.drop count).flatten =
      attachment.script.flatten := by
    rw [← flatten_append, take_append_drop]
  rw [← hrest, ← h.upstream, hreceived] at hscript
  simp only [append_assoc] at hscript
  exact (append_cancel_left hscript).symm

theorem Sound.framed (h : attachment.Sound generation payload) (hbincode : Bincode.RoundTrips) (count : Nat) :
    ∃ sent, Forall₂ (Framed ClientFrameParser.format ClientFrameParser.parseCommand)
      ((ClientCommand.recoveryAdopted :: sent).drop count) (attachment.script.drop count) := by
  obtain ⟨sent, hsent⟩ := framed_script hbincode fun command hcommand =>
    h.client.lined.framed command (mem_append_right _ hcommand)
  exact ⟨sent, forall₂_drop count hsent⟩

theorem Sound.recovered (h : attachment.Sound generation payload) (hlength : payload.length < 256 ^ 8)
    (hnoticed : attachment.daemon.noticed = 0)
    (hwhole : preludeMissing attachment.client.prelude = .ok 0) :
    attachment.client.prelude = recoveryPrelude payload := by
  have hbegins := h.prelude
  rw [IoLoop.stream, hnoticed, take_zero, append_nil] at hbegins
  have hstream := h.daemon.held.stream
  exact prelude_complete hlength (hbegins.trans ⟨_, hstream⟩) h.fits hwhole

theorem Sound.whole (h : attachment.Sound generation payload) (hsent : attachment.client.sent ≠ []) :
    preludeMissing attachment.client.prelude = .ok 0 ∧ attachment.client.acknowledged := by
  have hadopted : attachment.client.adoptionSent := by
    by_contra hearly
    exact hsent (h.client.lined.early (by simpa using hearly)).2
  exact ⟨h.client.lined.whole hadopted, h.client.lined.answered hadopted⟩

theorem Sound.delivered (h : attachment.Sound generation payload) (hlength : payload.length < 256 ^ 8)
    (hpoint : attachment.daemon.point = .command) (hadopted : attachment.daemon.recoveryAdopted = false)
    (hsent : attachment.client.sent ≠ []) : attachment.daemon.pendingOutput = none := by
  have hquiet := h.quiet (by rw [hpoint]; rfl)
  have hprelude := h.recovered hlength hquiet (h.whole hsent).1
  have hbegins := h.prelude
  rw [IoLoop.stream, hquiet, take_zero, append_nil] at hbegins
  have hheld := h.daemon.held.stream
  rw [IoLoop.frames, (h.daemon.held.unadopted hadopted).1, map_nil, flatten_nil,
    append_nil] at hheld
  have hnil : attachment.daemon.unwritten = [] := by
    have hle := hbegins.length_le
    rw [hprelude, ← hheld, length_append] at hle
    exact length_eq_zero_iff.mp (by omega)
  rcases hpending : attachment.daemon.pendingOutput with _ | ⟨data, written⟩
  · rfl
  · have hready := h.daemon.ready
    rw [hpoint] at hready
    have hlt := hready data written hpending
    rw [IoLoop.unwritten, hpending] at hnil
    have hle := drop_eq_nil_iff.mp hnil
    omega

/-- The daemon's look at the next command: it does not refuse, and the parser stays between two
frames. -/
theorem Sound.nextInput (h : attachment.Sound generation payload) (hbincode : Bincode.RoundTrips)
    (hlength : payload.length < 256 ^ 8) (hpoint : attachment.daemon.point = .command) :
    (∀ error, attachment.daemon.nextInput.point ≠ .returning (.error error)) ∧
      ∃ count ≤ attachment.script.length,
        attachment.daemon.received =
            (attachment.script.take count).flatten ++ attachment.daemon.nextInput.parser.bytes ∧
          (attachment.daemon.nextInput.recoveryAdopted = false → count = 0) := by
  obtain ⟨count, hcount, hreceived, hearly⟩ := h.parsed (by rw [hpoint]; rfl)
  have hheld := h.daemon.held
  unfold IoLoop.nextInput
  split
  · next input hpending =>
    have hadopted : attachment.daemon.recoveryAdopted := by
      by_contra hadopted
      have hnone := (hheld.unadopted (by simpa using hadopted)).2
      rw [hnone] at hpending
      cases hpending
    rw [IoLoop.dispatch, if_pos (show ({ attachment.daemon with pendingInput := none } :
      IoLoop).recoveryAdopted from hadopted)]
    exact ⟨by rintro _ ⟨⟩, count, hcount, hreceived, hearly⟩
  · next hnone =>
    obtain ⟨rest, hrest⟩ := h.ahead hreceived
    obtain ⟨sent, hframed⟩ := h.framed hbincode count
    have htake := take_of_frames hframed hrest
    obtain ⟨parser, result, hnext, herror, hwaits, hitem⟩ :=
      ClientFrameParser.nextCommand_follows.step attachment.daemon.parser
    rw [hnext]
    rcases result with error | command
    · have hrefused := herror error rfl
      obtain hnone | ⟨command, commands', frame, frames', bytes', -, -, -, htake⟩ := htake
      · rw [hrefused] at hnone
        cases hnone
      · rw [hrefused] at htake
        cases htake
    · rcases command with _ | command
      · obtain ⟨rfl, -⟩ := hwaits rfl
        exact ⟨by rintro _ ⟨⟩, count, hcount, hreceived, hearly⟩
      · have htaken := hitem command rfl
        obtain hnone | ⟨command', commands', frame, frames', bytes', hcommands, hframes, hbytes, htake⟩ :=
          htake
        · rw [htaken] at hnone
          cases hnone
        · rw [htaken] at htake
          obtain ⟨rfl, hparser⟩ := Prod.mk.inj (some.inj (Except.ok.inj htake))
          have hlt : count < attachment.script.length := by
            by_contra hge
            rw [drop_of_length_le (by omega)] at hframes
            cases hframes
          have hnextFrame : (attachment.script.take (count + 1)).flatten =
              (attachment.script.take count).flatten ++ frame := by
            have hget : attachment.script[count]? = some frame := by
              rw [← head?_drop, hframes]
              rfl
            rw [take_add_one, hget, flatten_append]
            simp
          have hreceived' : attachment.daemon.received =
              (attachment.script.take (count + 1)).flatten ++ parser.bytes := by
            rw [hnextFrame, hparser, append_assoc, ← hbytes]
            exact hreceived
          by_cases hadopted : attachment.daemon.recoveryAdopted
          · simp only [IoLoop.dispatch, hadopted, if_true]
            exact ⟨by rintro _ ⟨⟩, count + 1, hlt, hreceived', by rintro ⟨⟩⟩
          · have hadopted : attachment.daemon.recoveryAdopted = false := by simpa using hadopted
            have hzero := hearly hadopted
            subst hzero
            have hfirst : command = .recoveryAdopted := (List.cons.inj hcommands).1.symm
            have hsent : attachment.client.sent ≠ [] := by
              rw [← h.upstream, hreceived]
              rw [hbytes]
              intro hnil
              have hframe : frame = encodeFrame frameRecoveryAdopted [] := (List.cons.inj hframes).1.symm
              rw [hframe] at hnil
              simp [encodeFrame, encodeFrameWith, frameMagic] at hnil
            have hpending := h.delivered hlength hpoint hadopted hsent
            simp only [IoLoop.dispatch, hadopted, hfirst, hpending, isSome_none, Bool.false_eq_true,
              if_false]
            split
            · exact ⟨by rintro _ ⟨⟩, 1, hlt, hreceived', by rintro ⟨⟩⟩
            · exact ⟨by rintro _ ⟨⟩, 1, hlt, hreceived', by rintro ⟨⟩⟩

/-! ## Steps -/

theorem Sound.parsed_grows (h : attachment.Sound generation payload)
    (hgrows : attachment.client.accepted <+: attachment'.client.accepted)
    (hdaemon : attachment'.daemon = attachment.daemon) (hlast : attachment'.daemon.point.isLast = false) :
    ∃ count ≤ attachment'.script.length,
      attachment'.daemon.received =
          (attachment'.script.take count).flatten ++ attachment'.daemon.parser.bytes ∧
        (attachment'.daemon.recoveryAdopted = false → count = 0) := by
  rw [hdaemon] at hlast ⊢
  obtain ⟨count, hcount, hreceived, hearly⟩ := h.parsed hlast
  obtain ⟨more, hmore⟩ := hgrows
  have hscript : attachment'.script = attachment.script ++ commandFrames more := by
    rw [script, script, ← hmore, commandFrames_append, cons_append]
  refine ⟨count, by rw [hscript, length_append]; omega, ?_, hearly⟩
  rw [hscript, take_append_of_le_length hcount]
  exact hreceived

section

omit [Bincode]

theorem takeBytes_split {underWay left : List UInt8} {bytes : Except IoError (List UInt8)}
    (h : takeBytes underWay bytes = some left) : ClientSession.bytesRead bytes ++ left = underWay := by
  rcases bytes with error | bytes
  · cases h
    rfl
  · simp only [takeBytes] at h
    split at h
    · next hbegins =>
      cases h
      obtain ⟨rest, rfl⟩ := hbegins
      rw [drop_left]
      rfl
    · cases h

theorem leftByDaemon_split {underWay left : List UInt8} {bytes : Except IoError (List UInt8)}
    (h : leftByDaemon underWay (.read bytes) = some left) :
    ClientSession.bytesRead bytes ++ left = underWay := takeBytes_split h

theorem append_drop {before after : List UInt8} (h : before <+: after) :
    before ++ after.drop before.length = after := by
  obtain ⟨more, rfl⟩ := h
  rw [drop_left]

end

variable [Platform] [RecoveryCodec]

theorem Sound.clientStep (h : attachment.Sound generation payload) {step : SessionStep}
    (horder : ¬attachment.Overtakes (.client step))
    (hstep : attachment.step (.client step) = some attachment') : attachment'.Sound generation payload := by
  obtain ⟨client, hclient, hstep⟩ := bind_eq_some_iff.mp hstep
  obtain ⟨toClient, htoClient, hstep⟩ := bind_eq_some_iff.mp hstep
  cases hstep
  have horderly : client.Orderly := by
    refine h.client.step (fun index command hoffer hcommand hpoint hearly => ?_) hclient
    by_contra hshutdown
    exact horder ⟨index, command, by rw [hoffer], hcommand, hshutdown, hpoint, hearly⟩
  have hstreams := ClientSession.step_streams hclient
  have hsent : attachment.client.sent <+: client.sent := by
    obtain ⟨hlater⟩ | ⟨hsent, -, -, -, -⟩ | ⟨-, hsent, -, -, -⟩ := hstreams
    · exact hlater.sent
    · rw [hsent]
    · rw [hsent]
  have haccepted : attachment.client.accepted <+: client.accepted := by
    obtain ⟨hlater⟩ | ⟨-, -, haccepted, -, -⟩ | ⟨-, -, -, haccepted, -⟩ := hstreams
    · rw [hlater.accepted]
    · exact haccepted
    · rw [haccepted]
  have hupstream : attachment.daemon.received ++
      (attachment.toDaemon ++ client.sent.drop attachment.client.sent.length) = client.sent := by
    rw [← append_assoc, h.upstream, append_drop hsent]
  obtain ⟨hreading, hprelude, hfits⟩ : (client.point.isRecovering → client.prelude ++ toClient =
      attachment.daemon.stream) ∧ client.prelude <+: attachment.daemon.stream ∧ Fits client.prelude := by
    obtain ⟨hlater⟩ | ⟨-, hprelude, -, hpoint, hread⟩ | ⟨hpoint, -, hprelude, -, hfits⟩ := hstreams
    · refine ⟨fun hrecovering => (nomatch hlater.past.symm.trans hrecovering), ?_⟩
      rw [hlater.prelude]
      exact ⟨h.prelude, h.fits⟩
    · have hsame : toClient = attachment.toClient := by
        cases step with
        | read bytes => exact absurd rfl (hread bytes)
        | _ => exact (some.inj htoClient).symm
      rw [hprelude, hsame]
      exact ⟨fun hrecovering => h.reading (hpoint hrecovering), h.prelude, h.fits⟩
    · have hsplit := takeBytes_split htoClient
      have hwhole := h.reading hpoint
      rw [← hsplit, ← append_assoc, ← hprelude] at hwhole
      refine ⟨fun _ => hwhole, ⟨_, hwhole⟩, ?_⟩
      rw [hprelude]
      by_cases hnone : ClientSession.bytesRead ‹_› = []
      · rw [hnone, append_nil]
        exact h.fits
      · obtain ⟨missing, hmissing, hle⟩ := hfits hnone
        exact h.fits.append hmissing hle
  exact ⟨horderly, h.daemon, h.quiet, hupstream, hreading, hprelude, hfits, fun hlast =>
    h.parsed_grows haccepted rfl hlast⟩

theorem Sound.daemonStep (h : attachment.Sound generation payload) (hbincode : Bincode.RoundTrips)
    (hlength : payload.length < 256 ^ 8) {answer : IoAnswer}
    (hstep : attachment.step (.daemon answer) = some attachment') :
    attachment'.Sound generation payload := by
  obtain ⟨daemon, hdaemon, hstep⟩ := bind_eq_some_iff.mp hstep
  obtain ⟨toDaemon, htoDaemon, hstep⟩ := bind_eq_some_iff.mp hstep
  cases hstep
  have hsound := h.daemon.step hdaemon
  have hlast : daemon.point.isLast = false → attachment.daemon.point.isLast = false := by
    intro hlast
    by_contra hnot
    have hfinal := IoLoop.step_isLast (by simpa using hnot) hdaemon
    exact nomatch hlast.symm.trans hfinal
  have hstepped := h.daemon.stepped hdaemon
  -- What is written goes out behind what was written before.
  have hstream : attachment.daemon.stream <+: daemon.stream := by
    cases hstepped with
    | kept hkept => rw [IoLoop.stream, IoLoop.stream, hkept.sent, hkept.noticed]
    | command =>
      obtain ⟨-, hnoticed, -, hsent, -⟩ := IoLoop.kept_nextInput attachment.daemon
      rw [IoLoop.stream, IoLoop.stream, hsent, hnoticed]
    | polled hpoint hkept =>
      rw [IoLoop.stream, IoLoop.stream, hkept.sent, hkept.noticed]
      exact prefix_refl _
    | wrote hpoint hpending hkept =>
      rw [IoLoop.stream, IoLoop.stream, hkept.sent, hkept.noticed, h.quiet (by rw [hpoint]; rfl)]
      rw [show ∀ loop data written count, (IoLoop.advance loop data written count).noticed = loop.noticed
        from fun _ _ _ _ => rfl, h.quiet (by rw [hpoint]; rfl), take_zero, append_nil,
        append_nil]
      exact prefix_append _ _
    | noticed hpoint hkept =>
      rw [IoLoop.stream, IoLoop.stream, hkept.sent, hkept.noticed]
      exact (prefix_append_right_inj _).mpr (take_prefix_take_left (Nat.le_add_right _ _))
    | read hpoint => exact prefix_refl _
  have hquiet : daemon.point.isLast = false → daemon.noticed = 0 := by
    intro hnotLast
    have hzero := h.quiet (hlast hnotLast)
    cases hstepped with
    | kept hkept => rw [hkept.noticed, hzero]
    | command => rw [(IoLoop.kept_nextInput attachment.daemon).2.1, hzero]
    | polled hpoint hkept | wrote hpoint hpending hkept => exact hkept.noticed.trans hzero
    | noticed hpoint hkept =>
      have hnot := hlast hnotLast
      rw [hpoint] at hnot
      cases hnot
    | read hpoint => exact hzero
  have hupstream : daemon.received ++ toDaemon = attachment.client.sent := by
    cases hstepped with
    | @kept answer daemon hkept hread htaken =>
      rw [hkept.received, ← h.upstream]
      cases answer with
      | read bytes =>
        rcases bytes with error | bytes
        · exact congrArg _ (leftByDaemon_split htoDaemon)
        · rcases bytes with _ | ⟨byte, bytes⟩
          · exact congrArg _ (leftByDaemon_split htoDaemon)
          · exact absurd rfl (hread byte bytes)
      | _ => rw [some.inj htoDaemon]
    | command =>
      rw [(IoLoop.kept_nextInput attachment.daemon).2.2.1, ← h.upstream, some.inj htoDaemon]
    | polled hpoint hkept | wrote hpoint hpending hkept =>
      rw [hkept.received, ← h.upstream, some.inj htoDaemon]
      rfl
    | noticed hpoint hkept =>
      rw [hkept.received, ← h.upstream, some.inj htoDaemon]
    | @read byte bytes hpoint =>
      rw [← h.upstream, ← leftByDaemon_split htoDaemon]
      exact append_assoc _ _ _
  refine ⟨h.client, hsound, hquiet, hupstream, ?_, ?_, h.fits, ?_⟩
  · intro hrecovering
    show attachment.client.prelude ++ (attachment.toClient ++ _) = daemon.stream
    rw [← append_assoc, h.reading hrecovering, append_drop hstream]
  · exact h.prelude.trans hstream
  · intro hnotLast
    obtain ⟨count, hcount, hreceived, hearly⟩ := h.parsed (hlast hnotLast)
    have hkeep : ∀ middle : IoLoop, IoLoop.Kept middle daemon → middle.parser = attachment.daemon.parser →
        middle.received = attachment.daemon.received →
        middle.recoveryAdopted = attachment.daemon.recoveryAdopted →
        daemon.received = (attachment.script.take count).flatten ++ daemon.parser.bytes ∧
          (daemon.recoveryAdopted = false → count = 0) := by
      intro middle hkept hparser hsame hadopted
      rw [hkept.received, hkept.parser, hkept.recoveryAdopted, hparser, hsame, hadopted]
      exact ⟨hreceived, hearly⟩
    cases hstepped with
    | kept hkept | polled hpoint hkept | wrote hpoint hpending hkept | noticed hpoint hkept =>
      exact ⟨count, hcount, hkeep _ hkept rfl rfl rfl⟩
    | command hpoint =>
      obtain ⟨-, count', hcount', hreceived', hearly'⟩ := h.nextInput hbincode hlength hpoint
      refine ⟨count', hcount', ?_, hearly'⟩
      rw [(IoLoop.kept_nextInput attachment.daemon).2.2.1]
      exact hreceived'
    | @read byte bytes hpoint =>
      refine ⟨count, hcount, ?_, hearly⟩
      show attachment.daemon.received ++ byte :: bytes = _ ++ (attachment.daemon.parser.bytes ++ _)
      rw [hreceived, append_assoc]
      rfl

theorem Sound.reaches {start : Attachment} (h : start.Sound generation payload)
    (hbincode : Bincode.RoundTrips) (hlength : payload.length < 256 ^ 8)
    (hreaches : Runs.Reaches step (fun attachment step => ¬attachment.Overtakes step) start attachment) :
    attachment.Sound generation payload := by
  refine hreaches.invariant h fun {state state' event} hsound horder hstep => ?_
  cases event with
  | client step => exact hsound.clientStep horder hstep
  | daemon answer => exact hsound.daemonStep hbincode hlength hstep

omit [Platform] [RecoveryCodec] in
theorem Sound.inOrder (h : attachment.Sound generation payload) (hbincode : Bincode.RoundTrips)
    (hlength : payload.length < 256 ^ 8) : attachment.InOrder (recoveryPrelude payload) := by
  refine ⟨h.sent_prefix, fun hsent => ?_, fun hsent => ?_, fun hpoint daemon hstep => ?_⟩
  · have hstream := h.client.lined.stream
    rw [ClientSession.script, if_pos hsent] at hstream
    exact hstream
  · obtain ⟨hwhole, hacknowledged⟩ := h.whole hsent
    exact ⟨hwhole, hacknowledged, fun hnoticed => h.recovered hlength hnoticed hwhole⟩
  · have hnext : attachment.daemon.nextInput = daemon := by
      simp only [IoLoop.step, hpoint, some.injEq] at hstep
      exact hstep
    rw [← hnext]
    exact (h.nextInput hbincode hlength hpoint).1

end Attachment

end

/-- The client of protocol 2 or 3 speaks in order, whatever the interleaving, as long as no command is
offered to the queue in the gap between the test of the adoption flag and the commands that the worker
takes right after it. -/
theorem client_speaks_in_order [Platform] [RecoveryCodec] [Bincode] (hbincode : Bincode.RoundTrips)
    {protocolVersion snapshotSchemaVersion generation maximum : Nat}
    (hversion : protocolVersion = 2 ∨ protocolVersion = 3) (hmaximum : maximum ≤ usizeMax)
    {terminal : Terminal} {recovery : List UInt8}
    (hrecovery : encodeRecoverySnapshotWithLimit terminal maximum = some (.ok recovery))
    {attachment : Attachment}
    (h : Runs.Reaches Attachment.step (fun attachment step => ¬attachment.Overtakes step)
      (.start protocolVersion snapshotSchemaVersion generation recovery) attachment) :
    attachment.InOrder recovery := by
  obtain ⟨payload, -, hpayload, rfl⟩ := encodeRecoverySnapshot_prelude hrecovery
  have hlength : payload.length < 256 ^ 8 := by
    have hmax := Bincode.usizeMax_lt
    omega
  have hstart : Attachment.Sound generation payload _ :=
    .start (show 2 ≤ protocolVersion by omega) snapshotSchemaVersion generation payload
  exact (hstart.reaches hbincode hlength h).inOrder hbincode hlength

def squareGrid : Dimensions := ⟨3, 3, 9, by decide, by decide, by decide, by decide⟩

/-- The daemon sends its snapshot, the client reads it, and its worker gets to the loop over the
commands. -/
def recoverySteps : List AttachmentStep :=
  [.daemon (.flag false), .daemon (.clock false), .daemon (.flag false), .daemon .silent,
    .daemon (.flag false), .daemon (.flag false), .daemon (.wrote (.ok 13)), .daemon (.flushed (.ok ())),
    .daemon (.flag false), .client .silent, .client (.read (.ok ((recoveryPrelude [7]).take 12))),
    .client .silent, .client (.read (.ok [7])), .client .silent, .client .silent, .client .silent]

def typingSteps : List AttachmentStep :=
  [.client .acknowledge, .client (.call (.input [97])), .client (.offer 0)]

/-- Commands are offered only behind the acknowledgement. -/
def Attachment.isOrderly (attachment : Attachment) : AttachmentStep → Bool
  | .client (.offer _) => attachment.client.adoptionSent
  | _ => true

theorem client_speaks_in_order_typing :
    letI := Platform.reference
    letI := RecoveryCodec.single (Terminal.new squareGrid) [7]
    letI := Bincode.reference
    ∃ attachment, Runs.Reaches Attachment.step (fun attachment step => ¬attachment.Overtakes step)
        (.start 3 3 1 (recoveryPrelude [7])) attachment ∧
      attachment.client.sent = encodeFrame frameRecoveryAdopted [] ++ encodeFrame frameInput [97] ∧
      attachment.InOrder (recoveryPrelude [7]) := by
  let _ := Platform.reference
  let _ := RecoveryCodec.single (Terminal.new squareGrid) [7]
  let _ := Bincode.reference
  let steps := recoverySteps ++ [.client .acknowledge, .client .silent] ++ typingSteps.tail ++
    [.client .silent, .client .silent, .client .silent, .client (.wrote (.ok 9)),
      .client (.flushed (.ok ())), .client .silent, .client (.wrote (.ok 10))]
  have hrun : ((steps.foldlM (fun (attachment : Attachment) step =>
      if attachment.isOrderly step then attachment.step step else none)
      (Attachment.start 3 3 1 (recoveryPrelude [7]))).map fun attachment => attachment.client.sent) =
      some (encodeFrame frameRecoveryAdopted [] ++ encodeFrame frameInput [97]) := by decide +kernel
  obtain ⟨attachment, hattachment, hsent⟩ := map_eq_some_iff.mp hrun
  have hreaches : Runs.Reaches Attachment.step (fun attachment step => ¬attachment.Overtakes step)
      (.start 3 3 1 (recoveryPrelude [7])) attachment := by
    refine Runs.reaches_of_checked (fun state event hcheck => ?_) hattachment
    rintro ⟨index, command, rfl, -, -, -, hearly⟩
    exact nomatch (show state.client.adoptionSent = true from hcheck).symm.trans hearly
  have hrecovery : encodeRecoverySnapshotWithLimit (Terminal.new squareGrid) 1 =
      some (.ok (recoveryPrelude [7])) := by decide +kernel
  exact ⟨attachment, hreaches, hsent,
    client_speaks_in_order Bincode.reference_roundTrips (.inr rfl) (by decide) hrecovery hreaches⟩

/-- A letter typed right after the acknowledgement, while the worker has not yet seen it, is written
first, and the daemon refuses the client. -/
theorem acknowledgement_overtaken :
    letI := Platform.reference
    letI := RecoveryCodec.single (Terminal.new squareGrid) [7]
    letI := Bincode.reference
    encodeRecoverySnapshotWithLimit (Terminal.new squareGrid) 1 = some (.ok (recoveryPrelude [7])) ∧
      ∃ attachment, Runs.Reaches Attachment.step (fun _ _ => True)
          (.start 3 3 1 (recoveryPrelude [7])) attachment ∧
        attachment.client.sent = encodeFrame frameInput [97] ∧
        attachment.daemon.point = .returning (.error IoLoop.earlyCommand) ∧
        ¬attachment.InOrder (recoveryPrelude [7]) := by
  let _ := Platform.reference
  let _ := RecoveryCodec.single (Terminal.new squareGrid) [7]
  let _ := Bincode.reference
  let steps := recoverySteps ++ [.client .silent] ++ typingSteps ++
    [.client .silent, .client .silent, .client .silent, .client (.wrote (.ok 10)),
      .daemon (.read (.ok (encodeFrame frameInput [97]))), .daemon (.flag false), .daemon (.clock false),
      .daemon (.flag false), .daemon .silent]
  have hrun : ((Attachment.start 3 3 1 (recoveryPrelude [7])).run steps).map (fun attachment =>
      (attachment.client.sent, attachment.client.accepted, attachment.daemon.point)) =
      some (encodeFrame frameInput [97], [.input [97]], .returning (.error IoLoop.earlyCommand)) := by
    decide +kernel
  obtain ⟨attachment, hattachment, hend⟩ := map_eq_some_iff.mp hrun
  obtain ⟨hsent, hrest⟩ := Prod.mk.inj hend
  obtain ⟨haccepted, hpoint⟩ := Prod.mk.inj hrest
  refine ⟨by decide +kernel, attachment, Runs.reaches_of_foldlM hattachment, hsent, hpoint, fun h => ?_⟩
  have hordered := h.ordered
  rw [hsent, haccepted] at hordered
  revert hordered
  decide +kernel

end FesTerm
