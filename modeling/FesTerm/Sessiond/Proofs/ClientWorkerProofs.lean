import FesTerm.Sessiond.ClientWorker
import FesTerm.Sessiond.Proofs.FrameProofs

/-!
# Proofs: the client of a session

What the worker writes is the acknowledgement and then the commands in the order in which they were
accepted, provided that no command overtakes the acknowledgement: none is offered while the worker
goes through its queue after a look at the flag that found the adoption still outstanding.
-/

namespace FesTerm

open Framing List Option

/-! ## The prelude -/

theorem length_recoveryMagic : recoveryMagic.length = 4 := by decide

variable {payload : List UInt8}

theorem recoveryPrelude_length (h : payload.length < 256 ^ 8) :
    ofBytes (((recoveryPrelude payload).take recoveryHeaderBytes).drop recoveryMagic.length) =
      payload.length := by
  have hheader : (recoveryMagic ++ toBytes 8 payload.length).length = recoveryHeaderBytes := by
    rw [length_append, length_toBytes, length_recoveryMagic]
    rfl
  rw [recoveryPrelude, take_left' hheader, drop_left' rfl, ofBytes_toBytes h]

/-- No more is read than the header announces. -/
def Fits (prelude : List UInt8) : Prop :=
  recoveryHeaderBytes ≤ prelude.length → prelude.length ≤ recoveryHeaderBytes +
    ofBytes ((prelude.take recoveryHeaderBytes).drop recoveryMagic.length)

theorem Fits.append {prelude bytes : List UInt8} (h : Fits prelude) {missing : Nat}
    (hmissing : preludeMissing prelude = .ok missing) (hbytes : bytes.length ≤ missing) :
    Fits (prelude ++ bytes) := by
  intro hheader
  rw [length_append]
  unfold preludeMissing at hmissing
  split at hmissing
  · have hmissing := Except.ok.inj hmissing
    omega
  · next hlong =>
    have hfits := h (by omega)
    rw [take_append_of_le_length (by omega)]
    split at hmissing
    · cases hmissing
    · simp only at hmissing
      split at hmissing
      · cases hmissing
      · have hmissing := Except.ok.inj hmissing
        omega

theorem prelude_complete {prelude more : List UInt8} (hlength : payload.length < 256 ^ 8)
    (hbegins : prelude <+: recoveryPrelude payload ++ more) (hfits : Fits prelude)
    (hmissing : preludeMissing prelude = .ok 0) : prelude = recoveryPrelude payload := by
  obtain ⟨rest, hrest⟩ := hbegins
  have htotal : (recoveryPrelude payload).length = recoveryHeaderBytes + payload.length := by
    rw [recoveryPrelude, length_append, length_append, length_toBytes, length_recoveryMagic]
    rfl
  unfold preludeMissing at hmissing
  split at hmissing
  · have hzero := Except.ok.inj hmissing
    omega
  · next hlong =>
    have htake : prelude.take recoveryHeaderBytes = (recoveryPrelude payload).take recoveryHeaderBytes := by
      have htakes := congrArg (List.take recoveryHeaderBytes) hrest
      rwa [take_append_of_le_length (by omega), take_append_of_le_length (by omega)] at htakes
    have hmost := hfits (by omega)
    rw [htake, recoveryPrelude_length hlength] at hmissing hmost
    split at hmissing
    · cases hmissing
    · simp only at hmissing
      split at hmissing
      · cases hmissing
      · have hleast := Except.ok.inj hmissing
        have htakes := congrArg (List.take prelude.length) hrest
        rw [take_left, take_append_of_le_length (by omega),
          take_of_length_le (by omega)] at htakes
        exact htakes

/-! ## Frames -/

theorem commandFrames_append (commands others : List SessionCommand) :
    commandFrames (commands ++ others) = commandFrames commands ++ commandFrames others :=
  filterMap_append

theorem commandFrames_cons (command : SessionCommand) (commands : List SessionCommand) :
    commandFrames (command :: commands) = commandFrames [command] ++ commandFrames commands :=
  commandFrames_append [command] commands

theorem outbound_remaining {command : SessionCommand} {frame : OutboundFrame}
    (h : command.outbound = some frame) : commandFrames [command] = [frame.remaining] := by
  have hframe : commandFrames [command] = [frame.bytes] := by
    rw [commandFrames, filterMap_cons, h]
    rfl
  rw [hframe]
  cases command <;> cases h <;> rfl

/-- The worker still reads the prelude. -/
def WorkerPoint.isRecovering : WorkerPoint → Bool
  | .recoveryCheck | .recoveryRead => true
  | _ => false

section

variable [Bincode]

def SessionCommand.Framed (command : SessionCommand) : Prop :=
  ∀ frame, command.outbound = some frame → ∃ sent, ClientFrame sent frame.bytes

theorem SessionCommand.framed_input {bytes : List UInt8} (h : bytes.length ≤ maxFrameBytes) :
    (SessionCommand.input bytes).Framed := by
  intro frame hframe
  cases hframe
  exact ⟨.input bytes, .input bytes h⟩

theorem SessionCommand.framed_resize (size : TerminalSize) : (SessionCommand.resize size).Framed := by
  intro frame hframe
  cases hframe
  exact ⟨_, .resize size⟩

theorem SessionCommand.framed_recoverySync {command : RecoverySyncCommand}
    (h : encodeRecoverySyncCommand command = .ok payload) :
    (SessionCommand.recoverySync payload).Framed := by
  intro frame hframe
  cases hframe
  exact ⟨.recoverySync command, .recoverySync h⟩

namespace ClientSession

variable {session session' : ClientSession}

/-- What is to be written in all: the acknowledgement, once it is queued, and the accepted commands. -/
def script (session : ClientSession) : List UInt8 :=
  (if session.adoptionSent then encodeFrame frameRecoveryAdopted [] else []) ++
    (commandFrames session.accepted).flatten

/-- What holds between the accesses. -/
structure Lined (session : ClientSession) : Prop where
  stream : session.sent ++ session.unwritten ++ (commandFrames session.commands.items).flatten =
    session.script
  early : session.adoptionSent = false → session.outbound = [] ∧ session.sent = []
  whole : session.adoptionSent → preludeMissing session.prelude = .ok 0
  /-- Before the acknowledgement only a shutdown is let through. -/
  shut : session.adoptionBlocked → ∀ command ∈ session.calls ++ session.commands.items,
    command = .shutdown
  acknowledged : snapshotSchemaIsSupported session.snapshotSchemaVersion →
    session.adoptionBlocked = false → session.acknowledged
  answered : session.adoptionSent → session.acknowledged
  framed : ∀ command ∈ session.calls ++ session.accepted, command.Framed

def Recovered (session : ClientSession) : Prop :=
  snapshotSchemaIsSupported session.snapshotSchemaVersion ∧ preludeMissing session.prelude = .ok 0

/-- What holds in addition where the worker stands. -/
def Ready (session : ClientSession) : WorkerPoint → Prop
  | .recoveryCheck => session.adoptionSent = false
  | .recoveryRead =>
    session.adoptionSent = false ∧ snapshotSchemaIsSupported session.snapshotSchemaVersion
  | .adoption => session.Recovered ∧ session.adoptionSent = false
  | .drain => session.Recovered ∧
    (session.adoptionSent = false → ∀ command ∈ session.commands.items, command = .shutdown)
  | .pumpFlush _ => session.Recovered ∧ ∀ frame ∈ session.outbound.head?, frame.remaining = []
  | .publish _ | .running | .top | .pumpCheck _ | .pump _ | .deliver | .blocked | .read =>
    session.Recovered
  | .ending | .ended => True

structure Orderly (session : ClientSession) : Prop where
  lined : session.Lined
  ready : session.Ready session.point

variable {point : WorkerPoint}

theorem Lined.at (h : session.Lined) (hready : session.Ready point) : (session.goto point).Orderly :=
  ⟨⟨h.stream, h.early, h.whole, h.shut, h.acknowledged, h.answered, h.framed⟩, by cases point <;> exact hready⟩

theorem Lined.finish (h : session.Lined) (lifecycle : SessionLifecycle) :
    (session.finish lifecycle).Orderly :=
  ⟨⟨h.stream, h.early, h.whole, h.shut, h.acknowledged, h.answered, h.framed⟩, trivial⟩

theorem Lined.failTransport (h : session.Lined) (kind : SessionErrorKind) (error : IoError) :
    (session.failTransport kind error).Orderly := h.finish _

theorem Orderly.start {protocolVersion : Nat} (h : 2 ≤ protocolVersion) (snapshotSchemaVersion : Nat) :
    (start protocolVersion snapshotSchemaVersion).Orderly := by
  refine ⟨⟨rfl, fun _ => ⟨rfl, rfl⟩, nofun, fun _ => nofun, ?_, nofun, nofun⟩, rfl⟩
  intro hsupported hopen
  have hblocked : recoverySnapshotRequired protocolVersion snapshotSchemaVersion = false := hopen
  have hsupported : snapshotSchemaIsSupported snapshotSchemaVersion := hsupported
  simp only [recoverySnapshotRequired, h, hsupported, and_self, decide_true] at hblocked
  cases hblocked

/-! ## The worker -/

theorem Lined.beginFrame (h : session.Lined) (hrecovered : session.Recovered) (budget : Nat) :
    (session.beginFrame budget).Orderly := by
  unfold ClientSession.beginFrame
  split
  · exact h.at hrecovered
  · next frame frames hframes =>
    split
    · exact h.at hrecovered
    · split
      · split
        · exact h.at hrecovered
        · exact h.at hrecovered
      · next hle =>
        refine h.at ⟨hrecovered, fun frame' hframe' => ?_⟩
        rw [hframes] at hframe'
        cases hframe'
        exact drop_of_length_le (by omega)

theorem Lined.continueFrame (h : session.Lined) (hrecovered : session.Recovered) (budget : Nat) :
    (session.continueFrame budget).Orderly := by
  unfold ClientSession.continueFrame
  split
  · exact h.at hrecovered
  · next frame frames hframes =>
    split
    · split
      · exact h.at hrecovered
      · exact h.at hrecovered
    · next hle =>
      refine h.at ⟨hrecovered, fun frame' hframe' => ?_⟩
      rw [hframes] at hframe'
      cases hframe'
      exact drop_of_length_le (by omega)

variable {command : SessionCommand} {bytes : Except IoError (List UInt8)}

/-- A command is taken from the queue. -/
theorem Lined.dequeue (h : session.Lined) {commands : Channel SessionCommand}
    (hitems : session.commands.items = command :: commands.items)
    (hshutdown : session.adoptionSent = false → command = .shutdown) :
    (command.outbound = none → ({ session with commands := commands } : ClientSession).Lined) ∧
      ∀ frame, command.outbound = some frame →
        ({ session with commands := commands, outbound := session.outbound ++ [frame] } :
          ClientSession).Lined := by
  have hstream := h.stream
  rw [hitems, commandFrames_cons, flatten_append] at hstream
  have hshut : session.adoptionBlocked → ∀ other ∈ session.calls ++ commands.items, other = .shutdown := by
    intro hblocked other hother
    refine h.shut hblocked other ?_
    rw [hitems]
    rcases mem_append.mp hother with hcall | hitem
    · exact mem_append_left _ hcall
    · exact mem_append_right _ (mem_cons_of_mem _ hitem)
  constructor
  · intro hnone
    have hnil : commandFrames [command] = [] := by
      rw [commandFrames, filterMap_cons, hnone]
      rfl
    rw [hnil] at hstream
    exact ⟨hstream, h.early, h.whole, hshut, h.acknowledged, h.answered, h.framed⟩
  · intro frame hframe
    refine ⟨?_, fun hearly => ?_, h.whole, hshut, h.acknowledged, h.answered, h.framed⟩
    · rw [outbound_remaining hframe] at hstream
      show session.sent ++ ((session.outbound ++ [frame]).map OutboundFrame.remaining).flatten ++
        (commandFrames commands.items).flatten = session.script
      rw [← hstream, map_append, flatten_append, ClientSession.unwritten]
      simp only [map_cons, map_nil, flatten_cons, flatten_nil, append_nil,
        append_assoc]
    · rw [hshutdown hearly] at hframe
      cases hframe

theorem Lined.takeCommand (h : session.Lined) (hrecovered : session.Recovered)
    (hshutdown : session.adoptionSent = false → ∀ command ∈ session.commands.items, command = .shutdown)
    (hpoint : session.point = .drain) : session.takeCommand.Orderly := by
  unfold ClientSession.takeCommand
  split
  · exact h.beginFrame hrecovered _
  · have hreceiving := session.commands.tryRecv_receiving
    split
    · next command commands hrecv =>
      rw [hrecv] at hreceiving
      obtain ⟨hitems, -, -, -⟩ | _ | _ := hreceiving
      have hfirst : session.adoptionSent = false → command = .shutdown := fun hearly =>
        hshutdown hearly command (by rw [hitems]; exact mem_cons_self)
      obtain ⟨hlast, hframe⟩ := h.dequeue hitems hfirst
      split
      · next frame houtbound =>
        refine ⟨hframe frame houtbound, ?_⟩
        show Ready _ session.point
        rw [hpoint]
        refine ⟨hrecovered, fun hearly other hother => hshutdown hearly other ?_⟩
        rw [hitems]
        exact mem_cons_of_mem _ hother
      · next hnone => exact (hlast hnone).finish _
    · exact h.beginFrame hrecovered _
    · exact h.at trivial

variable {result : Except IoError Nat}

theorem Lined.afterWrite (h : session.Lined) (hrecovered : session.Recovered) {budget : Nat}
    (hstep : session.afterWrite budget result = some session') :
    session'.Orderly := by
  unfold ClientSession.afterWrite at hstep
  split at hstep
  · cases hstep
  · next frame frames hframes =>
    have hadopted : session.adoptionSent ≠ false := by
      intro hearly
      have hnil := (h.early hearly).1
      rw [hframes] at hnil
      cases hnil
    split at hstep
    · next count =>
      split at hstep
      · cases hstep
        exact h.failTransport _ _
      · split at hstep
        · cases hstep
          have hlined : Lined { session with
              outbound := { frame with written := frame.written + count } :: frames
              sent := session.sent ++ frame.remaining.take count } := by
            refine ⟨?_, fun hearly => absurd hearly hadopted, h.whole, h.shut, h.acknowledged, h.answered, h.framed⟩
            have hstream := h.stream
            rw [unwritten, hframes, map_cons, flatten_cons] at hstream
            have hcut : frame.remaining.take count ++ frame.bytes.drop (frame.written + count) =
                frame.remaining := by
              rw [← drop_drop]
              exact take_append_drop count frame.remaining
            show session.sent ++ frame.remaining.take count ++
              (frame.bytes.drop (frame.written + count) ++
                (frames.map OutboundFrame.remaining).flatten) ++ _ = session.script
            rw [← hstream, append_assoc session.sent, ← append_assoc (frame.remaining.take count),
              hcut]
          exact hlined.continueFrame hrecovered _
        · cases hstep
    · next error =>
      cases hstep
      split
      · exact h.at hrecovered
      · exact h.failTransport _ _

theorem Lined.afterFlush (h : session.Lined) (hrecovered : session.Recovered)
    (hdone : ∀ frame ∈ session.outbound.head?, frame.remaining = []) (budget : Nat)
    (result : Except IoError Unit) : (session.afterFlush budget result).Orderly := by
  have hlined : Lined { session with outbound := session.outbound.tail } := by
    refine ⟨?_, fun hearly => ?_, h.whole, h.shut, h.acknowledged, h.answered, h.framed⟩
    · have hstream := h.stream
      rcases hframes : session.outbound with _ | ⟨frame, frames⟩
      · rw [unwritten, hframes] at hstream
        exact hstream
      · rw [unwritten, hframes, map_cons, flatten_cons,
          hdone frame (by rw [hframes]; rfl), nil_append] at hstream
        exact hstream
    · obtain ⟨hnil, hsent⟩ := h.early hearly
      exact ⟨by show session.outbound.tail = []; rw [hnil]; rfl, hsent⟩
  unfold ClientSession.afterFlush
  split
  · exact hlined.beginFrame hrecovered budget
  · split
    · exact hlined.beginFrame hrecovered budget
    · exact h.failTransport _ _

section

variable [Platform] [RecoveryCodec]

theorem Lined.continueRecovery (h : session.Lined) (hearly : session.adoptionSent = false)
    (hsupported : snapshotSchemaIsSupported session.snapshotSchemaVersion)
    (hstep : session.continueRecovery = some session') : session'.Orderly := by
  unfold ClientSession.continueRecovery at hstep
  split at hstep
  · cases hstep
    exact h.failTransport _ _
  · cases hstep
    exact h.at hearly
  · next hwhole =>
    obtain ⟨decoded, -, hstep⟩ := bind_eq_some_iff.mp hstep
    split at hstep
    · cases hstep
      exact h.failTransport _ _
    · cases hstep
      exact h.at ⟨hsupported, hwhole⟩

theorem Lined.afterRecoveryRead (h : session.Lined) (hearly : session.adoptionSent = false)
    (hsupported : snapshotSchemaIsSupported session.snapshotSchemaVersion)
    {bytes : Except IoError (List UInt8)} (hstep : session.afterRecoveryRead bytes = some session') :
    session'.Orderly := by
  unfold ClientSession.afterRecoveryRead at hstep
  split at hstep
  · next bytes =>
    split at hstep
    · cases hstep
      exact h.finish _
    · split at hstep
      · cases hstep
      · split at hstep
        · cases hstep
        · have hlined : Lined { session with prelude := session.prelude ++ bytes } :=
            ⟨h.stream, h.early, (fun hsent => nomatch hearly.symm.trans hsent), h.shut, h.acknowledged,
              h.answered, h.framed⟩
          exact hlined.continueRecovery hearly hsupported hstep
  · split at hstep
    · cases hstep
      exact h.at hearly
    · split at hstep
      · cases hstep
        exact h.finish _
      · cases hstep
        exact h.failTransport _ _

end

/-- The application's own steps leave the worker where it is. -/
theorem Orderly.ofSame (h : session.Orderly) (hlined : session'.Lined)
    (hpoint : session'.point = session.point) (hadoption : session'.adoptionSent = session.adoptionSent)
    (hversion : session'.snapshotSchemaVersion = session.snapshotSchemaVersion)
    (hprelude : session'.prelude = session.prelude) (houtbound : session'.outbound = session.outbound)
    (hitems : session.point = .drain → session.adoptionSent = false →
      ∀ command ∈ session'.commands.items, command = .shutdown) : session'.Orderly := by
  refine ⟨hlined, ?_⟩
  have hready := h.ready
  have hrecovered : session.Recovered → session'.Recovered := by
    rintro ⟨hsupported, hwhole⟩
    exact ⟨by rw [hversion]; exact hsupported, by rw [hprelude]; exact hwhole⟩
  rw [hpoint]
  cases hp : session.point with
  | recoveryCheck =>
    rw [hp] at hready
    exact hadoption.trans hready
  | recoveryRead =>
    rw [hp] at hready
    exact ⟨hadoption.trans hready.1, by rw [hversion]; exact hready.2⟩
  | adoption =>
    rw [hp] at hready
    exact ⟨hrecovered hready.1, hadoption.trans hready.2⟩
  | drain =>
    rw [hp] at hready
    exact ⟨hrecovered hready.1, fun hearly => hitems hp (hadoption.symm.trans hearly)⟩
  | pumpFlush budget =>
    rw [hp] at hready
    exact ⟨hrecovered hready.1, by rw [houtbound]; exact hready.2⟩
  | publish terminal | running | top | pumpCheck budget | pump budget | deliver | blocked | read =>
    rw [hp] at hready
    exact hrecovered hready
  | ending | ended => trivial

theorem Lined.afterRead (h : session.Lined) (hrecovered : session.Recovered)
    (hstep : session.afterRead bytes = some session') : session'.Orderly := by
  unfold ClientSession.afterRead at hstep
  split at hstep
  · split at hstep
    · cases hstep
      split
      · exact h.finish _
      · exact h.finish _
    · split at hstep
      · cases hstep
      · split at hstep
        · cases hstep
          exact h.failTransport _ _
        · obtain ⟨⟨events, completed⟩, -, hstep⟩ := bind_eq_some_iff.mp hstep
          have hlined : Lined { session with pendingEvents := session.pendingEvents ++ events } :=
            ⟨h.stream, h.early, h.whole, h.shut, h.acknowledged, h.answered, h.framed⟩
          simp only at hstep
          split at hstep
          · next parser =>
            cases hstep
            have hlined' : Lined { session with
                pendingEvents := session.pendingEvents ++ events
                parser := parser } :=
              ⟨h.stream, h.early, h.whole, h.shut, h.acknowledged, h.answered, h.framed⟩
            exact hlined'.at hrecovered
          · cases hstep
            exact hlined.finish _
          · cases hstep
            exact hlined.finish _
          · cases hstep
            exact hlined.failTransport _ _
  · split at hstep
    · cases hstep
      exact h.at hrecovered
    · split at hstep
      · cases hstep
        exact h.finish _
      · cases hstep
        exact h.failTransport _ _

omit [Bincode] in
theorem isOpen_eq (h : session.adoptionBlocked) : session.isOpen = false := by
  rw [isOpen, h]
  simp

theorem command_shutdown (h : session.adoptionBlocked) {call : SessionCall}
    (hcommand : session.command call = some command) : command = .shutdown := by
  have hclosed := isOpen_eq h
  cases call with
  | input bytes | resize size =>
    simp only [ClientSession.command, hclosed, and_false, Bool.false_eq_true, if_false] at hcommand
    cases hcommand
  | recoverySync command =>
    simp only [ClientSession.command, hclosed, Bool.false_eq_true, if_false] at hcommand
    cases hcommand
  | shutdown =>
    simp only [ClientSession.command] at hcommand
    split at hcommand
    · exact (some.inj hcommand).symm
    · cases hcommand

theorem command_framed {call : SessionCall} (h : session.command call = some command) : command.Framed := by
  cases call with
  | input bytes =>
    simp only [ClientSession.command] at h
    split at h
    · next hpasses =>
      cases h
      exact SessionCommand.framed_input hpasses.1
    · cases h
  | resize size =>
    simp only [ClientSession.command] at h
    split at h
    · cases h
      exact SessionCommand.framed_resize size
    · cases h
  | recoverySync command =>
    simp only [ClientSession.command] at h
    split at h
    · split at h
      · cases h
      · next hencode =>
        cases h
        exact SessionCommand.framed_recoverySync hencode
    · cases h
  | shutdown =>
    simp only [ClientSession.command] at h
    split at h
    · cases h
      nofun
    · cases h

theorem Orderly.call (h : session.Orderly) (call : SessionCall) :
    ({ session with calls := session.calls ++ (session.command call).toList } : ClientSession).Orderly := by
  refine h.ofSame ⟨h.lined.stream, h.lined.early, h.lined.whole, ?_, h.lined.acknowledged,
    h.lined.answered, ?_⟩ rfl rfl rfl rfl rfl fun hpoint hearly => ?_
  · intro hblocked other hother
    rcases mem_append.mp hother with hcall | hitem
    · rcases mem_append.mp hcall with hold | hnew
      · exact h.lined.shut hblocked other (mem_append_left _ hold)
      · exact command_shutdown hblocked (mem_toList.mp hnew)
    · exact h.lined.shut hblocked other (mem_append_right _ hitem)
  · intro other hother
    rcases mem_append.mp hother with hcall | haccepted
    · rcases mem_append.mp hcall with hold | hnew
      · exact h.lined.framed other (mem_append_left _ hold)
      · exact command_framed (mem_toList.mp hnew)
    · exact h.lined.framed other (mem_append_right _ haccepted)
  · have hready := h.ready
    rw [hpoint] at hready
    exact hready.2 hearly

/-- A command is offered, but not one that overtakes the acknowledgement. -/
theorem Orderly.offer (h : session.Orderly) {index : Nat} (hcommand : session.calls[index]? = some command)
    (horder : session.point = .drain → session.adoptionSent = false → command = .shutdown) :
    ({ session with calls := session.calls.eraseIdx index }.accept command).Orderly := by
  have hmem := mem_of_getElem? hcommand
  have hrest : ∀ other ∈ session.calls.eraseIdx index, other ∈ session.calls := fun other =>
    mem_of_mem_eraseIdx
  have hready := h.ready
  have hdrain : session.point = .drain → session.adoptionSent = false →
      ∀ other ∈ session.commands.items, other = .shutdown := by
    intro hpoint hearly
    rw [hpoint] at hready
    exact hready.2 hearly
  have hold : Lined { session with calls := session.calls.eraseIdx index } := by
    refine ⟨h.lined.stream, h.lined.early, h.lined.whole, ?_, h.lined.acknowledged, h.lined.answered, ?_⟩
    · intro hblocked other hother
      refine h.lined.shut hblocked other ?_
      rcases mem_append.mp hother with hcall | hitem
      · exact mem_append_left _ (hrest other hcall)
      · exact mem_append_right _ hitem
    · intro other hother
      refine h.lined.framed other ?_
      rcases mem_append.mp hother with hcall | haccepted
      · exact mem_append_left _ (hrest other hcall)
      · exact mem_append_right _ haccepted
  unfold accept
  have hsending := session.commands.trySend_sending command
  split
  · next commands hsend =>
    rw [hsend] at hsending
    obtain ⟨-, hitems, -, -, -⟩ | _ | _ := hsending
    refine h.ofSame ⟨?_, h.lined.early, h.lined.whole, ?_, h.lined.acknowledged, h.lined.answered, ?_⟩
      rfl rfl rfl rfl rfl fun hpoint hearly other hother => ?_
    · have hstream := h.lined.stream
      show session.sent ++ session.unwritten ++ (commandFrames commands.items).flatten =
        (if session.adoptionSent then encodeFrame frameRecoveryAdopted [] else []) ++
          (commandFrames (session.accepted ++ [command])).flatten
      rw [hitems, commandFrames_append, commandFrames_append, flatten_append, flatten_append,
        ← append_assoc, hstream, script, append_assoc]
    · intro hblocked other hother
      have hother : other ∈ session.calls.eraseIdx index ++ commands.items := hother
      rw [hitems] at hother
      rcases mem_append.mp hother with hcall | hitem
      · exact h.lined.shut hblocked other (mem_append_left _ (hrest other hcall))
      · rcases mem_append.mp hitem with hqueued | hnew
        · exact h.lined.shut hblocked other (mem_append_right _ hqueued)
        · rw [mem_singleton.mp hnew]
          exact h.lined.shut hblocked command (mem_append_left _ hmem)
    · intro other hother
      rcases mem_append.mp hother with hcall | haccepted
      · exact h.lined.framed other (mem_append_left _ (hrest other hcall))
      · rcases mem_append.mp haccepted with hold | hnew
        · exact h.lined.framed other (mem_append_right _ hold)
        · rw [mem_singleton.mp hnew]
          exact h.lined.framed command (mem_append_left _ hmem)
    · have hother : other ∈ commands.items := hother
      rw [hitems] at hother
      rcases mem_append.mp hother with hqueued | hnew
      · exact hdrain hpoint hearly other hqueued
      · rw [mem_singleton.mp hnew]
        exact horder hpoint hearly
  · exact h.ofSame hold rfl rfl rfl rfl rfl hdrain

variable [Platform] [RecoveryCodec]

variable {answer : SessionStep}

/-- A step of the worker. -/
theorem Orderly.workerStep (h : session.Orderly)
    (hstep : session.workerStep answer = some session') : session'.Orderly := by
  obtain ⟨hlined, hready⟩ := h
  unfold ClientSession.workerStep at hstep
  split at hstep
  · next hpoint =>
    rw [hpoint] at hready
    cases hstep
    split
    · exact hlined.failTransport _ _
    · next hsupported =>
      split
      · exact hlined.finish _
      · exact hlined.at ⟨hready, by simpa using hsupported⟩
  · next hpoint =>
    rw [hpoint] at hready
    exact hlined.afterRecoveryRead hready.1 hready.2 hstep
  · next terminal hpoint =>
    rw [hpoint] at hready
    cases hstep
    have hlined' : Lined { session with recoveredTerminal := some terminal } :=
      ⟨hlined.stream, hlined.early, hlined.whole, hlined.shut, hlined.acknowledged, hlined.answered, hlined.framed⟩
    exact hlined'.at hready
  · next hpoint =>
    rw [hpoint] at hready
    cases hstep
    have hlined' : Lined { session with lifecycle := .running } :=
      ⟨hlined.stream, hlined.early, hlined.whole, hlined.shut, hlined.acknowledged, hlined.answered, hlined.framed⟩
    exact hlined'.at hready
  · next hpoint =>
    rw [hpoint] at hready
    cases hstep
    split
    · exact hlined.finish _
    · split
      · next hsent => exact hlined.at ⟨hready, fun hearly => nomatch hearly.symm.trans hsent⟩
      · next hsent => exact hlined.at ⟨hready, by simpa using hsent⟩
  · next hpoint =>
    rw [hpoint] at hready
    obtain ⟨hrecovered, hearly⟩ := hready
    cases hstep
    split
    · next hblocked =>
      exact hlined.at ⟨hrecovered, fun _ command hcommand =>
        hlined.shut hblocked command (mem_append_right _ hcommand)⟩
    · next hopen =>
      have hopen : session.adoptionBlocked = false := by simpa using hopen
      obtain ⟨hnil, hsent⟩ := hlined.early hearly
      have hlined' : Lined { session with
          outbound := session.outbound ++ [OutboundFrame.recoveryAdopted]
          adoptionSent := true } := by
        refine ⟨?_, nofun, fun _ => hrecovered.2, hlined.shut, hlined.acknowledged,
          fun _ => hlined.acknowledged hrecovered.1 hopen, hlined.framed⟩
        have hstream := hlined.stream
        rw [unwritten, hnil, hsent, script, hearly] at hstream
        show session.sent ++ ((session.outbound ++ [OutboundFrame.recoveryAdopted]).map
          OutboundFrame.remaining).flatten ++ _ = encodeFrame frameRecoveryAdopted [] ++ _
        rw [hnil, hsent]
        have haccepted : (commandFrames session.commands.items).flatten =
            (commandFrames session.accepted).flatten := hstream
        rw [← haccepted]
        rfl
      exact hlined'.at ⟨hrecovered, nofun⟩
  · next hpoint =>
    rw [hpoint] at hready
    cases hstep
    exact hlined.takeCommand hready.1 hready.2 hpoint
  · next budget hpoint =>
    rw [hpoint] at hready
    cases hstep
    split
    · exact hlined.at hready
    · exact hlined.at hready
  · next budget result hpoint =>
    rw [hpoint] at hready
    exact hlined.afterWrite hready hstep
  · next budget result hpoint =>
    rw [hpoint] at hready
    cases hstep
    exact hlined.afterFlush hready.1 hready.2 budget result
  · next hpoint =>
    rw [hpoint] at hready
    split at hstep
    · cases hstep
      exact hlined.at hready
    · cases hstep
  · next accepted hpoint =>
    rw [hpoint] at hready
    split at hstep
    · cases hstep
    · cases hstep
      split
      · exact ⟨⟨hlined.stream, hlined.early, hlined.whole, hlined.shut, hlined.acknowledged,
          hlined.answered, hlined.framed⟩, by rw [hpoint]; exact hready⟩
      · exact hlined.at hready
  · next hpoint =>
    rw [hpoint] at hready
    cases hstep
    split
    · exact hlined.at hready
    · exact hlined.at hready
  · next bytes hpoint =>
    rw [hpoint] at hready
    exact hlined.afterRead hready hstep
  · cases hstep
    have hlined' : Lined { session with commands := session.commands.dropReceiver } :=
      ⟨hlined.stream, hlined.early, hlined.whole, hlined.shut, hlined.acknowledged, hlined.answered, hlined.framed⟩
    exact hlined'.at trivial
  · cases hstep

/-- A step that is not an offer of a command which overtakes the acknowledgement. -/
theorem Orderly.step (h : session.Orderly) {step : SessionStep}
    (horder : ∀ index command, step = .offer index → session.calls[index]? = some command →
      session.point = .drain → session.adoptionSent = false → command = .shutdown)
    (hstep : session.step step = some session') : session'.Orderly := by
  have hdrain : session.point = .drain → session.adoptionSent = false →
      ∀ other ∈ session.commands.items, other = .shutdown := by
    intro hpoint hearly
    have hready := h.ready
    rw [hpoint] at hready
    exact hready.2 hearly
  obtain ⟨hstream, hearly, hwhole, hshut, hacknowledged, hanswered, hframed⟩ := h.lined
  cases step with
  | takeRecoveredTerminal | requestStop =>
    cases hstep
    exact h.ofSame ⟨hstream, hearly, hwhole, hshut, hacknowledged, hanswered, hframed⟩ rfl rfl rfl rfl rfl hdrain
  | acknowledge =>
    cases hstep
    exact h.ofSame ⟨hstream, hearly, hwhole, nofun, fun _ _ => rfl, fun _ => rfl, hframed⟩ rfl rfl rfl rfl rfl
      hdrain
  | unblockResize =>
    simp only [ClientSession.step] at hstep
    split at hstep
    · cases hstep
      exact h.ofSame ⟨hstream, hearly, hwhole, hshut, hacknowledged, hanswered, hframed⟩ rfl rfl rfl rfl rfl hdrain
    · cases hstep
  | call call =>
    cases hstep
    exact h.call call
  | offer index =>
    simp only [ClientSession.step] at hstep
    split at hstep
    · cases hstep
    · next command hcommand =>
      cases hstep
      exact h.offer hcommand (horder index command rfl hcommand)
  | silent | wrote result | flushed result | read bytes | delivered accepted =>
    exact h.workerStep hstep

/-! ## What a step changes -/

/-- A step after the prelude: the bytes written only grow. -/
structure Later (session session' : ClientSession) : Prop where
  sent : session.sent <+: session'.sent
  prelude : session'.prelude = session.prelude
  accepted : session'.accepted = session.accepted
  past : session'.point.isRecovering = false

section

omit [Platform] [RecoveryCodec] [Bincode]

theorem later_goto (session : ClientSession) (h : point.isRecovering = false) :
    Later session (session.goto point) := ⟨prefix_refl _, rfl, rfl, h⟩

theorem later_finish (session : ClientSession) (lifecycle : SessionLifecycle) :
    Later session (session.finish lifecycle) := ⟨prefix_refl _, rfl, rfl, rfl⟩

theorem later_continueFrame (session : ClientSession) (budget : Nat) :
    Later session (session.continueFrame budget) := by
  unfold ClientSession.continueFrame
  split
  · exact later_goto session rfl
  · split
    · split <;> exact later_goto session rfl
    · exact later_goto session rfl

theorem later_beginFrame (session : ClientSession) (budget : Nat) :
    Later session (session.beginFrame budget) := by
  unfold ClientSession.beginFrame
  split
  · exact later_goto session rfl
  · split
    · exact later_goto session rfl
    · split
      · split <;> exact later_goto session rfl
      · exact later_goto session rfl

theorem later_takeCommand (session : ClientSession) (hpoint : session.point = .drain) :
    Later session session.takeCommand := by
  unfold ClientSession.takeCommand
  split
  · exact later_beginFrame session _
  · split
    · split
      · exact ⟨prefix_refl _, rfl, rfl, by show session.point.isRecovering = false; rw [hpoint]; rfl⟩
      · exact ⟨prefix_refl _, rfl, rfl, rfl⟩
    · exact later_beginFrame session _
    · exact later_goto session rfl

theorem later_afterWrite {budget : Nat}
    (hstep : session.afterWrite budget result = some session') : Later session session' := by
  unfold ClientSession.afterWrite at hstep
  split at hstep
  · cases hstep
  · next frame frames hframes =>
    split at hstep
    · next count =>
      split at hstep
      · cases hstep
        exact later_finish session _
      · split at hstep
        · cases hstep
          obtain ⟨hsent, hprelude, haccepted, hpast⟩ := later_continueFrame { session with
            outbound := { frame with written := frame.written + count } :: frames
            sent := session.sent ++ frame.remaining.take count } (budget - count)
          exact ⟨(prefix_append _ _).trans hsent, hprelude, haccepted, hpast⟩
        · cases hstep
    · cases hstep
      split
      · exact later_goto session rfl
      · exact later_finish session _

theorem later_afterFlush (session : ClientSession) (budget : Nat) (result : Except IoError Unit) :
    Later session (session.afterFlush budget result) := by
  obtain ⟨hsent, hprelude, haccepted, hpast⟩ :=
    later_beginFrame { session with outbound := session.outbound.tail } budget
  unfold ClientSession.afterFlush
  split
  · exact ⟨hsent, hprelude, haccepted, hpast⟩
  · split
    · exact ⟨hsent, hprelude, haccepted, hpast⟩
    · exact later_finish session _

end

omit [Platform] [RecoveryCodec] in
theorem later_afterRead (hstep : session.afterRead bytes = some session') : Later session session' := by
  unfold ClientSession.afterRead at hstep
  split at hstep
  · split at hstep
    · cases hstep
      split
      · exact later_finish session _
      · exact later_finish session _
    · split at hstep
      · cases hstep
      · split at hstep
        · cases hstep
          exact later_finish session _
        · obtain ⟨⟨events, completed⟩, -, hstep⟩ := bind_eq_some_iff.mp hstep
          simp only at hstep
          split at hstep <;>
          · cases hstep
            exact ⟨prefix_refl _, rfl, rfl, rfl⟩
  · split at hstep
    · cases hstep
      exact later_goto session rfl
    · split at hstep
      · cases hstep
        exact later_finish session _
      · cases hstep
        exact later_finish session _

omit [Bincode] in
theorem continueRecovery_keeps (hstep : session.continueRecovery = some session') :
    session'.sent = session.sent ∧ session'.prelude = session.prelude ∧
      session'.accepted = session.accepted := by
  unfold ClientSession.continueRecovery at hstep
  split at hstep
  · cases hstep
    exact ⟨rfl, rfl, rfl⟩
  · cases hstep
    exact ⟨rfl, rfl, rfl⟩
  · obtain ⟨decoded, -, hstep⟩ := bind_eq_some_iff.mp hstep
    split at hstep <;>
    · cases hstep
      exact ⟨rfl, rfl, rfl⟩

/-- The bytes that a read returned. -/
def bytesRead : Except IoError (List UInt8) → List UInt8
  | .ok bytes => bytes
  | .error _ => []

omit [Bincode] in
theorem afterRecoveryRead_prelude (hstep : session.afterRecoveryRead bytes = some session') :
    session'.sent = session.sent ∧ session'.prelude = session.prelude ++ bytesRead bytes ∧
      session'.accepted = session.accepted ∧
      (bytesRead bytes ≠ [] → ∃ missing, preludeMissing session.prelude = .ok missing ∧
        (bytesRead bytes).length ≤ missing) := by
  unfold ClientSession.afterRecoveryRead at hstep
  split at hstep
  · next read =>
    split at hstep
    · next hempty =>
      cases hstep
      refine ⟨rfl, ?_, rfl, fun hsome => absurd (List.isEmpty_iff.mp hempty) hsome⟩
      rw [bytesRead, List.isEmpty_iff.mp hempty, append_nil]
      rfl
    · split at hstep
      · cases hstep
      · next missing hmissing =>
        split at hstep
        · cases hstep
        · next hle =>
          obtain ⟨hsent, hprelude, haccepted⟩ := continueRecovery_keeps hstep
          exact ⟨hsent, hprelude, haccepted, fun _ => ⟨missing, hmissing, Nat.le_of_not_lt hle⟩⟩
  · rw [bytesRead, append_nil]
    split at hstep
    · cases hstep
      exact ⟨rfl, rfl, rfl, absurd rfl⟩
    · split at hstep <;>
      · cases hstep
        exact ⟨rfl, rfl, rfl, absurd rfl⟩

/-- What a step does to the streams of the session. -/
inductive Streams (session : ClientSession) : SessionStep → ClientSession → Prop
  | later {step : SessionStep} {session' : ClientSession} (h : Later session session') :
    Streams session step session'
  /-- Nothing is read, and the worker is where it was or about to read the prelude. -/
  | same {step : SessionStep} {session' : ClientSession} (hsent : session'.sent = session.sent)
    (hprelude : session'.prelude = session.prelude) (haccepted : session.accepted <+: session'.accepted)
    (hpoint : session'.point.isRecovering → session.point.isRecovering)
    (hread : ∀ bytes, step ≠ .read bytes) : Streams session step session'
  | prelude {bytes : Except IoError (List UInt8)} {session' : ClientSession}
    (hpoint : session.point.isRecovering) (hsent : session'.sent = session.sent)
    (hprelude : session'.prelude = session.prelude ++ bytesRead bytes)
    (haccepted : session'.accepted = session.accepted)
    (hfits : bytesRead bytes ≠ [] → ∃ missing, preludeMissing session.prelude = .ok missing ∧
      (bytesRead bytes).length ≤ missing) : Streams session (.read bytes) session'

theorem workerStep_streams (hstep : session.workerStep answer = some session') :
    Streams session answer session' := by
  unfold ClientSession.workerStep at hstep
  split at hstep
  · next hpoint =>
    cases hstep
    split
    · exact .later (later_finish session _)
    · split
      · exact .later (later_finish session _)
      · exact .same rfl rfl (prefix_refl _) (fun _ => by rw [hpoint]; rfl) nofun
  · next hpoint =>
    obtain ⟨hsent, hprelude, haccepted, hfits⟩ := afterRecoveryRead_prelude hstep
    exact .prelude (by rw [hpoint]; rfl) hsent hprelude haccepted hfits
  · cases hstep
    exact .later ⟨prefix_refl _, rfl, rfl, rfl⟩
  · cases hstep
    exact .later ⟨prefix_refl _, rfl, rfl, rfl⟩
  · cases hstep
    split
    · exact .later (later_finish session _)
    · refine .later (later_goto session ?_)
      split <;> rfl
  · cases hstep
    split
    · exact .later (later_goto session rfl)
    · exact .later ⟨prefix_refl _, rfl, rfl, rfl⟩
  · next hpoint =>
    cases hstep
    exact .later (later_takeCommand session hpoint)
  · cases hstep
    refine .later (later_goto session ?_)
    split <;> rfl
  · exact .later (later_afterWrite hstep)
  · cases hstep
    exact .later (later_afterFlush session _ _)
  · split at hstep
    · cases hstep
      exact .later (later_goto session rfl)
    · cases hstep
  · next hpoint =>
    split at hstep
    · cases hstep
    · cases hstep
      split
      · exact .later ⟨prefix_refl _, rfl, rfl, by
          show session.point.isRecovering = false
          rw [hpoint]
          rfl⟩
      · exact .later (later_goto session rfl)
  · cases hstep
    refine .later (later_goto session ?_)
    split <;> rfl
  · exact .later (later_afterRead hstep)
  · cases hstep
    exact .later ⟨prefix_refl _, rfl, rfl, rfl⟩
  · cases hstep

omit [Platform] [RecoveryCodec] [Bincode] in
theorem accept_keeps (session : ClientSession) (command : SessionCommand) :
    (session.accept command).sent = session.sent ∧ (session.accept command).prelude = session.prelude ∧
      (session.accept command).point = session.point ∧
      session.accepted <+: (session.accept command).accepted := by
  unfold accept
  split
  · exact ⟨rfl, rfl, rfl, prefix_append _ _⟩
  · exact ⟨rfl, rfl, rfl, prefix_refl _⟩

theorem step_streams {step : SessionStep} (hstep : session.step step = some session') :
    Streams session step session' := by
  cases step with
  | takeRecoveredTerminal | acknowledge | requestStop | call call =>
    cases hstep
    exact .same rfl rfl (prefix_refl _) id nofun
  | unblockResize =>
    simp only [ClientSession.step] at hstep
    split at hstep
    · cases hstep
      exact .same rfl rfl (prefix_refl _) id nofun
    · cases hstep
  | offer index =>
    simp only [ClientSession.step] at hstep
    split at hstep
    · cases hstep
    · next command _ =>
      cases hstep
      obtain ⟨hsent, hprelude, hpoint, haccepted⟩ :=
        accept_keeps { session with calls := session.calls.eraseIdx index } command
      refine .same hsent hprelude haccepted (fun hrecovering => ?_) nofun
      rw [hpoint] at hrecovering
      exact hrecovering
  | silent | wrote result | flushed result | read bytes | delivered accepted =>
    exact workerStep_streams hstep

end ClientSession

end

end FesTerm
