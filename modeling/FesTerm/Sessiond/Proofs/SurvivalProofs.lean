import FesTerm.Sessiond.Proofs.DeliveryProofs

/-!
# Proofs: what ends a session

The main loop checks whatever reaches it from a client: a command was framed and parsed, the outputs
that are held have room, the shadow terminal takes everything, and no worker ever panics. What is left
are the errors of a client that is still being admitted, which the loop takes for its own, and a size
that the frame allows and the shadow terminal does not.
-/

namespace FesTerm

open Relation List Option

/-! ## What a worker submits -/

/-- The command was parsed from a frame. -/
def ClientCommand.Parsed [Bincode] (command : ClientCommand) : Prop :=
  ∃ kind payload, payload.length ≤ maxFrameBytes ∧
    ClientFrameParser.parseCommand kind payload = some (.ok command)

variable {command : ClientCommand} {bytes : List UInt8}

section

variable [Bincode]

omit [Bincode] in
theorem taken_parsed {format : FrameFormat} {β : Type}
    {parse : UInt8 → List UInt8 → Option (Except IoError β)} {rest : List UInt8} {item : β}
    (h : Taken format parse bytes (.ok (some (item, rest)))) :
    ∃ kind payload, payload.length ≤ maxFrameBytes ∧ parse kind payload = some (.ok item) := by
  generalize hresult : (Except.ok (some (item, rest)) : Except IoError (Option (β × List UInt8))) = result at h
  cases h with
  | waits | refused => cases hresult
  | item hlength hparse =>
    cases hresult
    exact ⟨_, _, hlength, hparse⟩

theorem nextCommand_parsed {parser parser' : ClientFrameParser}
    (h : parser.nextCommand = some (parser', .ok (some command))) : command.Parsed := by
  obtain ⟨after, result, hnext, -, -, hitem⟩ := ClientFrameParser.nextCommand_follows.step parser
  cases h.symm.trans hnext
  have htake := hitem command rfl
  have htaken := frameTake_taken ClientFrameParser.length_magic ClientFrameParser.parseCommand_total
    parser.bytes
  rw [htake] at htaken
  exact taken_parsed htaken

/-- A size that was parsed has room for a character. -/
theorem ClientCommand.Parsed.resize {size : PtySize} (h : (ClientCommand.resize size).Parsed) :
    2 ≤ size.cols.toNat ∧ size.rows.toNat ≠ 0 := by
  obtain ⟨kind, payload, -, hparse⟩ := h
  unfold ClientFrameParser.parseCommand at hparse
  split at hparse
  · cases hparse
  · split at hparse
    · obtain ⟨result, hresult, hmap⟩ := bind_eq_some_iff.mp hparse
      have hok : result = .ok size := by
        cases result with
        | error => cases hmap
        | ok found =>
          cases hmap
          rfl
      rw [hok] at hresult
      unfold parseResizeFrame at hresult
      split at hresult
      · cases hresult
      · obtain ⟨cols, -, hresult⟩ := bind_eq_some_iff.mp hresult
        obtain ⟨rows, -, hresult⟩ := bind_eq_some_iff.mp hresult
        obtain ⟨width, -, hresult⟩ := bind_eq_some_iff.mp hresult
        obtain ⟨height, -, hresult⟩ := bind_eq_some_iff.mp hresult
        split at hresult
        · cases hresult
        · next hvalid =>
          cases hresult
          rw [not_or, UInt16.not_lt] at hvalid
          refine ⟨UInt16.le_iff_toNat_le.mp hvalid.1, fun hzero => hvalid.2 ?_⟩
          exact UInt16.toNat_inj.mp hzero
    · split at hparse
      · split at hparse <;> cases hparse
      · split at hparse <;> cases hparse

theorem ClientCommand.Parsed.recoverySync (hbincode : Bincode.Rewrites) {command : RecoverySyncCommand}
    (h : (ClientCommand.recoverySync command).Parsed) :
    ∃ payload, encodeRecoverySyncCommand command = .ok payload := by
  obtain ⟨kind, payload, hlength, hparse⟩ := h
  unfold ClientFrameParser.parseCommand at hparse
  split at hparse
  · cases hparse
  · split at hparse
    · obtain ⟨result, -, hmap⟩ := bind_eq_some_iff.mp hparse
      cases result with
      | error | ok => cases hmap
    · split at hparse
      · split at hparse
        · cases hparse
        · next found hdeserialize =>
          cases hparse
          obtain ⟨written, hserialize, hwritten⟩ := hbincode payload command hdeserialize
          refine ⟨written, ?_⟩
          rw [encodeRecoverySyncCommand, hserialize]
          exact if_neg (by omega)
      · split at hparse <;> cases hparse

end

variable {answer : IoAnswer}

namespace IoLoop

variable {loop loop' : IoLoop}

/-- Every command that the loop holds back or submits was parsed. -/
structure Offers [Bincode] (loop : IoLoop) : Prop where
  pending : ∀ input, loop.pendingInput = some input → input.command.Parsed
  submit : ∀ input, loop.point = .submit input → input.command.Parsed

/-- The loop goes on with the same command held back, and submits none. -/
structure Passes (loop loop' : IoLoop) : Prop where
  pending : loop'.pendingInput = loop.pendingInput
  submit : ∀ input, loop'.point ≠ .submit input

theorem passes_goto {point : IoPoint} (h : ∀ input, point ≠ .submit input) : Passes loop (loop.goto point) :=
  ⟨rfl, h⟩

theorem passes_fail (loop : IoLoop) (error : IoError) : Passes loop (loop.fail error) :=
  passes_goto nofun

theorem passes_afterOutputs (loop : IoLoop) : Passes loop loop.afterOutputs := by
  refine passes_goto fun input h => ?_
  split at h <;> cases h

theorem passes_nextRound (loop : IoLoop) (round : Nat) : Passes loop (loop.nextRound round) := by
  unfold nextRound
  split
  · exact passes_goto nofun
  · exact passes_afterOutputs loop

theorem passes_continueWrite (loop : IoLoop) (round budget : Nat) :
    Passes loop (loop.continueWrite round budget) := by
  unfold continueWrite
  split
  · exact passes_afterOutputs loop
  · split
    · split
      · exact passes_afterOutputs loop
      · exact passes_goto nofun
    · exact passes_goto nofun

theorem passes_beginRound (loop : IoLoop) (round : Nat) : Passes loop (loop.beginRound round) := by
  unfold beginRound
  split
  · exact passes_goto nofun
  · exact passes_continueWrite loop round maxFrameBytes

theorem passes_afterFlush (loop : IoLoop) (round : Nat) (result : Except IoError Unit) :
    Passes loop (loop.afterFlush round result) := by
  have hnext := passes_nextRound { loop with pendingOutput := none } round
  have hnext : Passes loop ({ loop with pendingOutput := none }.nextRound round) :=
    ⟨hnext.pending, hnext.submit⟩
  unfold afterFlush
  split
  · exact hnext
  · split
    · exact hnext
    · exact passes_fail loop _

theorem passes_afterWrite {round budget : Nat} {result : Except IoError Nat}
    (h : loop.afterWrite round budget result = some loop') : Passes loop loop' := by
  unfold afterWrite at h
  split at h
  · cases h
  · next data written _ =>
    split at h
    · next count =>
      split at h
      · cases h
        exact passes_fail loop _
      · split at h
        · cases h
          have hnext := passes_continueWrite (loop.advance data written count) round (budget - count)
          exact ⟨hnext.pending, hnext.submit⟩
        · cases h
    · cases h
      split
      · exact passes_afterOutputs loop
      · exact passes_fail loop _

theorem passes_afterRead {result : Except IoError (List UInt8)} (h : loop.afterRead result = some loop') :
    Passes loop loop' := by
  unfold afterRead at h
  split at h
  · split at h
    · cases h
      exact passes_goto nofun
    · split at h
      · cases h
      · split at h
        · cases h
          exact passes_goto nofun
        · simp only at h
          split at h
          · cases h
            exact ⟨rfl, nofun⟩
          · cases h
            exact ⟨rfl, nofun⟩
  · cases h
    split
    · exact passes_goto nofun
    · exact passes_fail loop _

variable [Bincode]

theorem Offers.passes (h : loop.Offers) (hpasses : Passes loop loop') : loop'.Offers := by
  refine ⟨fun input hinput => ?_, fun input hinput => absurd hinput (hpasses.submit input)⟩
  rw [hpasses.pending] at hinput
  exact h.pending input hinput

omit [Bincode] in
theorem passes_dispatch_or (loop : IoLoop) (input : ClientInput) :
    loop.dispatch input = loop.goto (.submit input) ∨ Passes loop (loop.dispatch input) := by
  unfold dispatch
  split
  · exact .inl rfl
  · right
    split
    · split
      · exact passes_fail loop _
      · split
        · exact ⟨rfl, nofun⟩
        · exact ⟨rfl, nofun⟩
    · exact passes_fail loop _

theorem Offers.dispatch (h : loop.Offers) {input : ClientInput} (hinput : input.command.Parsed) :
    (loop.dispatch input).Offers := by
  rcases passes_dispatch_or loop input with heq | hpasses
  · rw [heq]
    refine ⟨h.pending, fun other hother => ?_⟩
    cases hother
    exact hinput
  · exact h.passes hpasses

theorem Offers.nextInput (h : loop.Offers) : loop.nextInput.Offers := by
  unfold IoLoop.nextInput
  split
  · next input hpending =>
    have hnone : Offers { loop with pendingInput := none } :=
      ⟨nofun, h.submit⟩
    exact hnone.dispatch (h.pending input hpending)
  · split
    · exact h.passes (passes_goto nofun)
    · exact h.passes ⟨rfl, nofun⟩
    · exact h.passes ⟨rfl, nofun⟩
    · next parser command hnext =>
      have hparser : Offers { loop with parser := parser } := ⟨h.pending, h.submit⟩
      exact hparser.dispatch (nextCommand_parsed hnext)

theorem Offers.step (h : loop.Offers) (hstep : loop.step answer = some loop') : loop'.Offers := by
  have hgoto {point : IoPoint} (hpoint : ∀ input, point ≠ .submit input) : (loop.goto point).Offers :=
    h.passes (passes_goto hpoint)
  unfold IoLoop.step at hstep
  split at hstep
  case h_1 raised hpoint =>
    cases hstep
    exact hgoto fun _ hfalse => by cases raised <;> cases hfalse
  case h_2 expired hpoint =>
    cases hstep
    split
    · exact h.passes (passes_fail loop _)
    · exact hgoto nofun
  case h_3 raised hpoint =>
    cases hstep
    exact hgoto fun _ hfalse => by cases raised <;> cases hfalse
  case h_4 hpoint =>
    cases hstep
    exact h.nextInput
  case h_8 input hpoint =>
    cases hstep
    refine ⟨fun other hother => ?_, nofun⟩
    cases hother
    exact h.submit input hpoint
  case h_10 round raised hpoint =>
    cases hstep
    split
    · exact hgoto nofun
    · exact h.passes (passes_beginRound loop round)
  case h_11 round output hpoint =>
    cases hstep
    have hnext := passes_continueWrite (loop.takeOutput output) round maxFrameBytes
    exact h.passes ⟨hnext.pending, hnext.submit⟩
  case h_12 hpoint =>
    cases hstep
    exact h.passes (passes_afterOutputs loop)
  case h_14 round budget raised hpoint =>
    cases hstep
    split
    · exact h.passes (passes_afterOutputs loop)
    · exact hgoto nofun
  case h_15 hpoint => exact h.passes (passes_afterWrite hstep)
  case h_16 round result hpoint =>
    cases hstep
    exact h.passes (passes_afterFlush loop round result)
  case h_17 hpoint => exact h.passes (passes_afterRead hstep)
  case h_18 raised hpoint =>
    cases hstep
    exact hgoto fun _ hfalse => by cases raised <;> cases hfalse
  case h_19 result hpoint =>
    unfold afterNotice at hstep
    split at hstep
    · simp only at hstep
      split at hstep
      · cases hstep
        exact h.passes (passes_fail loop _)
      · split at hstep
        · cases hstep
          refine h.passes ⟨rfl, fun _ hfalse => ?_⟩
          simp only [goto] at hfalse
          split at hfalse <;> cases hfalse
        · cases hstep
    · cases hstep
      split
      · exact h
      · exact h.passes (passes_fail loop _)
  case h_23 => cases hstep
  all_goals
    cases hstep
    exact h.passes ⟨rfl, nofun⟩

theorem Offers.start (generation : Nat) (recovery : List UInt8) : (start generation recovery).Offers :=
  ⟨nofun, nofun⟩

end IoLoop

/-! ## The main thread -/

/-- The reasons to end that no client gives. -/
def EndCause.external : EndCause → Bool
  | .ptyClosed | .pty _ | .command _ | .listener _ => true
  | _ => false

/-- How many outputs may still be held before the queue is looked at again. -/
def MainPoint.reserved : MainPoint → Nat
  | .input left | .dropActive (.input left) => left
  | .receive => clientQueueCapacity
  | _ => 0

@[simp] theorem AfterFlush.point_reserved (next : AfterFlush) : next.point.reserved = 0 := by
  cases next <;> rfl

theorem AfterRetire.point_reserved (next : AfterRetire) :
    next.point.reserved = (MainPoint.dropActive next).reserved := by
  cases next <;> rfl

theorem AfterRetire.ending_iff (next : AfterRetire) :
    next.point.ending → (MainPoint.dropActive next).ending := by
  cases next with
  | flush next => cases next <;> exact id
  | _ => exact id

namespace Daemon

/-- The loop runs on as before, or ends for a reason that no client gives. -/
def Persists (daemon daemon' : Daemon) : Prop :=
  daemon'.cause = daemon.cause ∧ daemon'.shutdown = daemon.shutdown ∧
    (daemon'.point.ending → daemon.point.ending) ∨
  ∃ cause, daemon'.cause = some cause ∧ cause.external

def Roomy (daemon : Daemon) : Prop := daemon.held.length + daemon.point.reserved ≤ clientQueueCapacity

/-- A step of the main thread that no client is to blame for. -/
structure Survives (daemon daemon' : Daemon) : Prop where
  persists : daemon.Persists daemon'
  roomy : daemon'.Roomy

section

variable {daemon daemon' : Daemon}

theorem survives_goto {point : MainPoint} (hending : point.ending → daemon.point.ending)
    (hroom : daemon.held.length + point.reserved ≤ clientQueueCapacity) : daemon.Survives (daemon.goto point) :=
  ⟨.inl ⟨rfl, rfl, hending⟩, hroom⟩

variable {cause : EndCause}

theorem survives_external (hcause : daemon'.cause = some cause) (hexternal : cause.external)
    (hroom : daemon'.Roomy) : daemon.Survives daemon' := ⟨.inr ⟨cause, hcause, hexternal⟩, hroom⟩

theorem survives_fail (hexternal : cause.external)
    (hroom : daemon.held.length ≤ clientQueueCapacity) : daemon.Survives (daemon.fail cause) :=
  survives_external rfl hexternal hroom

theorem hold_spec (daemon : Daemon) (output : ClientOutput) (next : MainPoint)
    (hroom : daemon.held.length ≤ clientQueueCapacity) :
    (daemon.hold output next).cause = daemon.cause ∧ (daemon.hold output next).shutdown = daemon.shutdown ∧
      (daemon.hold output next).point = next ∧
      (daemon.hold output next).held.length ≤ daemon.held.length + 1 := by
  unfold hold
  split
  · rw [if_pos hroom]
    exact ⟨rfl, rfl, rfl, (length_append).le⟩
  · exact ⟨rfl, rfl, rfl, Nat.le_succ _⟩

theorem survives_hold {output : ClientOutput} {next : MainPoint} (hending : next.ending → daemon.point.ending)
    (hroom : daemon.held.length + 1 + next.reserved ≤ clientQueueCapacity) :
    daemon.Survives (daemon.hold output next) := by
  obtain ⟨hcause, hshutdown, hpoint, hheld⟩ :=
    hold_spec daemon output next (show daemon.held.length ≤ _ by omega)
  refine ⟨.inl ⟨hcause, hshutdown, fun h => hending ?_⟩, ?_⟩
  · rw [hpoint] at h
    exact h
  · rw [Roomy, hpoint]
    omega

theorem Survives.after {before : Daemon} (h : before.Survives daemon') (hcause : before.cause = daemon.cause)
    (hshutdown : before.shutdown = daemon.shutdown) (hpoint : before.point.ending → daemon.point.ending) :
    daemon.Survives daemon' := by
  refine ⟨?_, h.roomy⟩
  rcases h.persists with ⟨hcause', hshutdown', hending⟩ | hended
  · exact .inl ⟨hcause'.trans hcause, hshutdown'.trans hshutdown, fun h => hpoint (hending h)⟩
  · exact .inr hended

variable {next : AfterRetire}

theorem survives_retireActive {stolen : Bool}
    (hending : (MainPoint.dropActive next).ending → daemon.point.ending)
    (hroom : daemon.held.length + (MainPoint.dropActive next).reserved ≤ clientQueueCapacity) :
    daemon.Survives (daemon.retireActive stolen next) := by
  unfold retireActive
  split
  · refine survives_goto (fun h => hending (next.ending_iff h)) ?_
    rw [next.point_reserved]
    exact hroom
  · exact ⟨.inl ⟨rfl, rfl, hending⟩, hroom⟩

theorem survives_dropActive (hpoint : daemon.point = .dropActive next)
    (hroom : daemon.Roomy) : daemon.Survives (daemon.dropActive next) := by
  have hending : next.point.ending → daemon.point.ending := by
    rw [hpoint]
    exact next.ending_iff
  rw [Roomy, hpoint, ← next.point_reserved] at hroom
  unfold dropActive
  split
  · exact survives_goto hending hroom
  · exact ⟨.inl ⟨rfl, rfl, hending⟩, hroom⟩

theorem survives_flushOne {next : AfterFlush} (hpoint : daemon.point = .flush next) (hroom : daemon.Roomy) :
    daemon.Survives (daemon.flushOne next) := by
  have hending : next.point.ending → daemon.point.ending := by
    rw [hpoint]
    cases next <;> exact id
  have hheld : daemon.held.length ≤ clientQueueCapacity := by
    rw [Roomy] at hroom
    omega
  have hnext : daemon.Survives (daemon.goto next.point) := by
    refine survives_goto hending ?_
    rw [next.point_reserved]
    exact hheld
  unfold flushOne
  split
  · exact hnext
  · next generation output held hcons =>
    have hshort : held.length ≤ clientQueueCapacity := by
      rw [hcons, length_cons] at hheld
      omega
    have hrest : daemon.Survives { daemon with held := held } := by
      refine ⟨.inl ⟨rfl, rfl, id⟩, ?_⟩
      rw [Roomy, hpoint]
      exact hshort
    simp only
    split
    · split
      · exact hrest
      · split
        · exact ⟨hrest.persists, hrest.roomy⟩
        · exact hnext
        · have hretire : { daemon with held := held }.Survives
              ({ daemon with held := held }.retireActive false (.flush next)) := by
            refine survives_retireActive (fun h => ?_) hshort
            show daemon.point.ending
            rw [hpoint]
            cases next <;> exact h
          exact hretire.after rfl rfl id
    · exact hrest

theorem survives_retireFinished (hroom : daemon.Roomy) : daemon.Survives daemon.retireFinished := by
  have hheld : daemon.held.length + (clientQueueCapacity - daemon.held.length) ≤ clientQueueCapacity := by
    rw [Roomy] at hroom
    omega
  unfold retireFinished
  simp only
  split
  · exact survives_retireActive nofun hheld
  · exact survives_goto nofun hheld

end

end Daemon

/-! ### The conditions -/

/-- The stream of a client fails while it is admitted: with any error where the timeouts are set or the reply is
written, and with one that is not retried where the request is read. -/
def Attempt.Fails (attempt : Attempt) : Prop :=
  (∃ error, attempt.timeouts = .error error) ∨
    (∃ error, .error error ∈ attempt.reads ∧ error.isRetryable = false) ∨
    (∃ error, attempt.reply = .error error) ∧ .ok [] ∉ attempt.reads

namespace Daemon

/-- The next command resizes the session, for the active client, to more cells than a terminal may
have. -/
def TakesOversize (daemon : Daemon) (step : DaemonStep) : Prop :=
  ∃ sender generation size, step = .main (.handled (.ok ())) ∧
    daemon.input.items.head? = some (sender, ⟨generation, .resize size⟩) ∧
    daemon.activeClient.any (·.generation = generation) ∧ maxCellCount < size.cols.toNat * size.rows.toNat

/-- The step ends the session: a failed admission, or a resize that is too large. -/
def Harms (daemon : Daemon) (step : DaemonStep) : Prop :=
  (∃ attempt : Attempt, step = .main (.accepted attempt) ∧ attempt.Fails) ∨ daemon.TakesOversize step

end Daemon

variable {reads : List (Except IoError (List UInt8))} {error : IoError} {request : List UInt8}

theorem readRequest_error (h : readRequest request reads = some (.error error)) :
    ∃ error, .error error ∈ reads ∧ error.isRetryable = false := by
  induction reads generalizing request with
  | nil => cases h
  | cons read reads ih =>
    have htail (hrest : ∃ error, Except.error error ∈ reads ∧ error.isRetryable = false) :
        ∃ error, Except.error error ∈ read :: reads ∧ error.isRetryable = false := by
      obtain ⟨error, hmem, hretry⟩ := hrest
      exact ⟨error, .tail _ hmem, hretry⟩
    unfold readRequest at h
    split at h
    · cases ‹_ = []›
    · next heq =>
      cases heq
      split at h
      · split at h
        · cases h
        · exact htail (ih h)
      · cases h
    · next found _ heq =>
      cases heq
      split at h
      · split at h
        · exact htail (ih h)
        · next hretry => exact ⟨found, .head _, by simpa using hretry⟩
      · cases h

theorem readRequest_some {found : List UInt8}
    (h : readRequest request reads = some (.ok (some found))) : .ok [] ∉ reads := by
  induction reads generalizing request with
  | nil => exact nofun
  | cons read reads ih =>
    unfold readRequest at h
    split at h
    · cases ‹_ = []›
    · next bytes _ heq =>
      cases heq
      split at h
      · split at h
        · cases h
        · next hnonempty =>
          intro hmem
          rcases mem_cons.mp hmem with heq | hrest
          · cases heq
            exact hnonempty rfl
          · exact ih h hrest
      · cases h
    · next heq =>
      cases heq
      split at h
      · split at h
        · intro hmem
          rcases mem_cons.mp hmem with heq | hrest
          · cases heq
          · exact ih h hrest
        · cases h
      · cases h

variable {attempt : Attempt}

theorem admitClient_fails {pid generation : Nat} {occupied : Bool}
    (h : admitClient pid generation occupied attempt = some (.error error)) : attempt.Fails := by
  obtain ⟨request, hrequest, hbody⟩ := bind_eq_some_iff.mp h
  split at hbody
  · exact .inr (.inl (readRequest_error hrequest))
  · cases hbody
  · split at hbody
    · next hreply => exact .inr (.inr ⟨⟨_, hreply⟩, readRequest_some hrequest⟩)
    · cases hbody

theorem dimensions_of_parsed {columns rows : Nat} (hcolumns : 2 ≤ columns) (hrows : rows ≠ 0)
    (hcells : columns * rows ≤ maxCellCount) : ∃ dimensions, Dimensions.new columns rows = .ok dimensions := by
  have husize : ¬columns * rows > usizeMax := by
    have hmax : maxCellCount ≤ usizeMax := by decide
    omega
  unfold Dimensions.new
  rw [dif_neg (by omega), dif_neg hrows, if_neg husize, dif_neg (by omega)]
  exact ⟨_, rfl⟩

theorem Terminal.Shadowing.encoded_total [Platform] [RecoveryCodec] {terminal : Terminal}
    (h : terminal.Shadowing) (limit : Nat) : encodeRecoverySnapshotWithLimit terminal limit ≠ none := by
  obtain ⟨valid, hvalid⟩ := h.validate_total
  unfold encodeRecoverySnapshotWithLimit
  split
  · exact nofun
  · rw [hvalid]
    cases valid <;> exact nofun

namespace Daemon

section

variable [Platform] [Bincode] {daemon daemon' : Daemon}

/-- What the queue of commands and the workers hand to the main thread. -/
structure Fed (daemon : Daemon) : Prop where
  queue : ∀ entry ∈ daemon.input.items, entry.2.command.Parsed
  offers : ∀ (index : Nat) (client : Connection), daemon.connections[index]? = some client →
    client.loop.Offers

variable {handled : Except IoError Unit}

variable {left : Nat}

theorem survives_acceptCommand {sender : Nat}
    (hbincode : Bincode.Rewrites) (hshadow : daemon.terminal.Shadowing)
    (hroom : daemon.held.length + 1 + left ≤ clientQueueCapacity) (hparsed : command.Parsed)
    (hsize : ∀ size, command = .resize size → handled = .ok () →
      size.cols.toNat * size.rows.toNat ≤ maxCellCount) :
    daemon.Survives (daemon.acceptCommand sender handled (.input left) command) := by
  have hheld : daemon.held.length ≤ clientQueueCapacity := by omega
  have hgoto : daemon.Survives (daemon.goto (.input left)) := by
    refine survives_goto nofun ?_
    show daemon.held.length + left ≤ clientQueueCapacity
    omega
  cases command with
  | input data =>
    simp only [acceptCommand]
    split
    · exact survives_external rfl rfl hheld
    · exact ⟨hgoto.persists, hgoto.roomy⟩
  | resize size =>
    simp only [acceptCommand]
    split
    · exact survives_external rfl rfl hheld
    · next hhandled =>
      obtain ⟨hcolumns, hrows⟩ := hparsed.resize
      obtain ⟨dimensions, hdimensions⟩ := dimensions_of_parsed hcolumns hrows (hsize size rfl rfl)
      obtain ⟨terminal, hterminal, -⟩ := hshadow.resize dimensions
      have hresized : resizeShadowTerminal (daemon.handOver (some sender) (.resize size)).terminal size =
          some (.ok terminal) := by
        rw [resizeShadowTerminal, hdimensions]
        show (daemon.terminal.resize dimensions).map Except.ok = _
        rw [hterminal]
        rfl
      rw [hresized]
      exact (survives_hold (fun h => by cases h) hroom).after rfl rfl id
  | recoverySync command =>
    obtain ⟨terminal, hterminal, -⟩ := hshadow.apply command
    obtain ⟨payload, hpayload⟩ := hparsed.recoverySync hbincode
    simp only [acceptCommand]
    rw [hterminal, hpayload]
    simp only
    split
    · exact ⟨hgoto.persists, hgoto.roomy⟩
    · exact (survives_hold (fun h => by cases h) hroom).after rfl rfl id
  | recoveryAdopted => exact hgoto

theorem survives_takeInput (hbincode : Bincode.Rewrites)
    (hshadow : daemon.terminal.Shadowing) (hfed : daemon.Fed) (hpoint : daemon.point = .input left)
    (hroom : daemon.Roomy) (hallowed : ¬daemon.TakesOversize (.main (.handled handled))) :
    daemon.Survives (daemon.takeInput left handled) := by
  rw [Roomy, hpoint] at hroom
  replace hroom : daemon.held.length + left ≤ clientQueueCapacity := hroom
  unfold takeInput
  split
  · next left sender input channel hrecv =>
    have hitems := Channel.items_of_recv hrecv
    have hparsed : input.command.Parsed := hfed.queue (sender, input) (by rw [hitems]; exact .head _)
    have hgoto : daemon.Survives (daemon.goto (.input left)) := by
      refine survives_goto nofun ?_
      show daemon.held.length + left ≤ clientQueueCapacity
      omega
    simp only
    split
    · next haccept =>
      have hshadow' : { daemon with input := channel }.terminal.Shadowing := hshadow
      refine (survives_acceptCommand hbincode hshadow' ?_ hparsed fun size hsize hhandled => ?_).after
        rfl rfl id
      · show daemon.held.length + 1 + left ≤ clientQueueCapacity
        omega
      · by_contra hcells
        refine hallowed ⟨sender, input.generation, size, by rw [hhandled], ?_, ?_, by omega⟩
        · rw [hitems, ← hsize]
          rfl
        · refine haccept.resolve_right fun hsync => ?_
          rw [hsize] at hsync
          cases hsync
    · exact ⟨hgoto.persists, hgoto.roomy⟩
  · refine survives_goto nofun ?_
    show daemon.held.length + 0 ≤ clientQueueCapacity
    omega

omit [Bincode] in
theorem survives_mirror {next : AfterFlush}
    {failed : Daemon → EndCause → Daemon} (hshadow : daemon.terminal.Shadowing)
    (hending : daemon.point.ending = false ∧ (MainPoint.flush next).ending = false)
    (hfailed : failed = fail ∨ failed = abort) (hroom : daemon.held.length < clientQueueCapacity) :
    daemon.Survives (daemon.mirror bytes handled next failed) := by
  obtain ⟨⟨replies, terminal⟩, hmirrored, -⟩ := hshadow.mirror bytes
  have hnext (before : Daemon) : (MainPoint.flush next).ending → before.point.ending := by
    rw [hending.2]
    exact nofun
  unfold mirror
  rw [hmirrored]
  simp only
  split
  · refine (survives_hold ?_ ?_).after rfl rfl id
    · exact hnext _
    · exact hroom
  · split
    · rcases hfailed with rfl | rfl
      · exact survives_external rfl rfl hroom.le
      · exact survives_external rfl rfl hroom.le
    · refine (survives_hold ?_ ?_).after rfl rfl id
      · exact hnext _
      · exact hroom

omit [Platform] [Bincode] in
theorem survives_exited (hroom : daemon.held.length < clientQueueCapacity) :
    daemon.Survives ({ daemon with cause := some .ptyClosed }.hold .exited (.flush .finishing)) := by
  obtain ⟨hcause, -, hpoint, hheld⟩ :=
    hold_spec { daemon with cause := some .ptyClosed } .exited (.flush .finishing) hroom.le
  refine survives_external hcause rfl ?_
  rw [Roomy, hpoint]
  have hheld : _ ≤ daemon.held.length + 1 := hheld
  show _ + 0 ≤ clientQueueCapacity
  omega

variable {event : TryRecv PtyEvent}

omit [Bincode] in
theorem survives_drainOne (hshadow : daemon.terminal.Shadowing) (hpoint : daemon.point = .drain (left + 1))
    (hempty : daemon.held = []) (hstep : daemon.drainOne left handled event = some daemon') :
    daemon.Survives daemon' := by
  have hroom : daemon.held.length < clientQueueCapacity := by
    rw [hempty]
    decide
  unfold drainOne at hstep
  split at hstep
  · split at hstep
    · cases hstep
      refine survives_mirror hshadow ⟨?_, rfl⟩ (.inl rfl) hroom
      rw [hpoint]
      rfl
    · cases hstep
  · cases hstep
    exact survives_exited hroom
  · cases hstep
    exact survives_external rfl rfl hroom.le
  · cases hstep
    exact survives_goto nofun hroom.le
  · cases hstep
    exact survives_external rfl rfl hroom.le

omit [Bincode] in
theorem survives_receiveOne
    (hshadow : daemon.terminal.Shadowing) (hpoint : daemon.point = .receive) (hroom : daemon.Roomy)
    (hstep : daemon.receiveOne handled event = some daemon') : daemon.Survives daemon' := by
  rw [Roomy, hpoint] at hroom
  have hroom : daemon.held.length < clientQueueCapacity := by
    have hreserved : daemon.held.length + clientQueueCapacity ≤ clientQueueCapacity := hroom
    have hpositive : 0 < clientQueueCapacity := by decide
    omega
  unfold receiveOne at hstep
  split at hstep
  · split at hstep
    · cases hstep
      refine survives_mirror hshadow ⟨?_, rfl⟩ (.inr rfl) hroom
      rw [hpoint]
      rfl
    · cases hstep
  · cases hstep
    exact survives_exited hroom
  · cases hstep
    exact survives_external rfl rfl hroom.le
  · cases hstep
    exact survives_goto nofun hroom.le
  · cases hstep
    exact survives_external rfl rfl hroom.le

variable [RecoveryCodec]

omit [Bincode] in
theorem survives_acceptClient (hshadow : daemon.terminal.Shadowing) (hroom : daemon.Roomy)
    (hallowed : ¬attempt.Fails) (hstep : daemon.acceptClient attempt = some daemon') : daemon.Survives daemon' := by
  have hheld : daemon.held.length ≤ clientQueueCapacity := by
    rw [Roomy] at hroom
    omega
  unfold acceptClient at hstep
  split at hstep
  · next htimeouts => exact absurd (.inl ⟨_, htimeouts⟩) hallowed
  · obtain ⟨admitted, hadmitted, hstep⟩ := bind_eq_some_iff.mp hstep
    split at hstep
    · exact absurd (admitClient_fails hadmitted) hallowed
    · cases hstep
      exact ⟨.inl ⟨rfl, rfl, id⟩, hroom⟩
    · next limit kind =>
      cases hstep
      unfold replaceActive
      split
      · next hnone => exact absurd hnone (hshadow.encoded_total limit)
      · exact ⟨.inl ⟨rfl, rfl, nofun⟩, hheld⟩
      · exact survives_goto nofun hheld

theorem survives_mainStep {answer : MainAnswer} (hbincode : Bincode.Rewrites)
    (hshadow : daemon.terminal.Shadowing) (hsound : daemon.Sound) (hfed : daemon.Fed) (hroom : daemon.Roomy)
    (hallowed : ¬daemon.Harms (.main answer)) (hstep : daemon.mainStep answer = some daemon') :
    daemon.Survives daemon' := by
  have hheld : daemon.held.length ≤ clientQueueCapacity := by
    rw [Roomy] at hroom
    omega
  have hgoto {point : MainPoint} (hending : point.ending → daemon.point.ending) (hreserved : point.reserved = 0) :
      daemon.Survives (daemon.goto point) := by
    refine survives_goto hending ?_
    rw [hreserved]
    exact hheld
  unfold mainStep at hstep
  split at hstep
  case h_1 hpoint =>
    cases hstep
    have hcalm : ¬daemon.retired.any (fun index =>
        daemon.connections[index]?.any fun client => client.loop.point = .panicked) := by
      intro hany
      obtain ⟨index, -, hindex⟩ := List.any_eq_true.mp hany
      obtain ⟨client, hclient, hpanicked⟩ := (Option.any_eq_true _ _).mp hindex
      have hready := (hsound index client hclient).loop.ready
      rw [of_decide_eq_true hpanicked] at hready
      exact hready
    unfold reap
    simp only
    rw [if_neg hcalm]
    exact ⟨.inl ⟨rfl, rfl, nofun⟩, hheld⟩
  case h_2 hpoint =>
    cases hstep
    exact survives_retireFinished hroom
  case h_3 hpoint =>
    cases hstep
    exact survives_takeInput hbincode hshadow hfed hpoint hroom fun hfalse => hallowed (.inr hfalse)
  case h_4 hpoint =>
    cases hstep
    exact survives_flushOne hpoint hroom
  case h_5 hpoint =>
    cases hstep
    exact survives_dropActive hpoint hroom
  case h_6 hpoint =>
    exact survives_acceptClient hshadow hroom (fun hfalse => hallowed (.inl ⟨_, rfl, hfalse⟩)) hstep
  case h_7 hpoint =>
    cases hstep
    split
    · exact hgoto nofun rfl
    · split
      · exact ⟨.inl ⟨rfl, rfl, id⟩, hroom⟩
      · exact survives_fail rfl hheld
  case h_8 hpoint =>
    cases hstep
    unfold await
    split
    · exact hgoto nofun rfl
    · split
      · exact ⟨.inl ⟨rfl, rfl, nofun⟩, hheld⟩
      · exact hgoto nofun rfl
  case h_12 hpoint =>
    cases hstep
    exact survives_retireActive nofun hheld
  case h_14 hpoint =>
    cases hstep
    split
    · exact hgoto nofun rfl
    · exact hgoto nofun rfl
  case h_15 hpoint =>
    split at hstep
    · cases hstep
      exact hgoto nofun rfl
    · cases hstep
  case h_16 hpoint =>
    split at hstep
    · next hempty => exact survives_drainOne hshadow hpoint (List.isEmpty_iff.mp hempty) hstep
    · cases hstep
  case h_17 hpoint =>
    cases hstep
    split
    · next hempty =>
      refine survives_goto nofun ?_
      rw [List.isEmpty_iff.mp hempty]
      rfl
    · exact hgoto nofun rfl
  case h_18 hpoint => exact survives_receiveOne hshadow hpoint hroom hstep
  case h_19 hpoint =>
    cases hstep
    have hending (point : MainPoint) : point.ending → daemon.point.ending := by
      rw [hpoint]
      exact fun _ => rfl
    split
    · exact hgoto (hending _) rfl
    · exact hgoto (hending _) rfl
  case h_20 hpoint =>
    cases hstep
    have hending (point : MainPoint) : point.ending → daemon.point.ending := by
      rw [hpoint]
      exact fun _ => rfl
    split
    · exact hgoto (hending _) rfl
    · exact hgoto (hending _) rfl
  case h_21 hpoint =>
    cases hstep
    refine survives_retireActive (fun _ => ?_) hheld
    rw [hpoint]
    rfl
  case h_22 hpoint =>
    cases hstep
    refine ⟨.inl ⟨rfl, rfl, fun _ => ?_⟩, hheld⟩
    rw [hpoint]
    rfl
  case h_23 => cases hstep
  all_goals
    cases hstep
    exact ⟨.inl ⟨rfl, rfl, nofun⟩, hheld⟩

/-! ### What the main thread is fed with -/

omit [RecoveryCodec] in
theorem Fed.effect (h : daemon.Fed) (heffect : Effect daemon daemon') : daemon'.Fed := by
  have hqueue : ∀ entry ∈ daemon'.input.items, entry ∈ daemon.input.items := by
    cases heffect with
    | took hrecv | typed hrecv =>
      intro entry hentry
      rw [Channel.items_of_recv hrecv]
      exact .tail _ hentry
    | _ => exact fun entry hentry => hentry
  refine ⟨fun entry hentry => h.queue entry (hqueue entry hentry), fun index client hclient => ?_⟩
  obtain ⟨before, hbefore, hchanged⟩ := heffect.client hclient
  have hloop : client.loop = before.loop := by cases hchanged <;> rfl
  rw [hloop]
  exact h.offers index before hbefore

omit [RecoveryCodec] in
theorem Fed.effects (h : daemon.Fed) (heffects : ReflTransGen Effect daemon daemon') : daemon'.Fed := by
  induction heffects with
  | refl => exact h
  | tail _ heffect ih => exact ih.effect heffect

omit [Platform] [RecoveryCodec] in
theorem Fed.worked (h : daemon.Fed) {index : Nat} {client : Connection}
    (hclient : daemon.connections[index]? = some client)
    (hworked : Worked daemon index client answer daemon') : daemon'.Fed := by
  have hoffers := h.offers index client hclient
  cases hworked with
  | @submitted loop input channel result hloop hpoint hsend =>
    refine ⟨fun entry hentry => ?_, fun other after hafter => ?_⟩
    · have hsending := daemon.input.trySend_sending (index, input)
      rw [hsend] at hsending
      cases hsending with
      | sent _ hitems =>
        have hentry : entry ∈ channel.items := hentry
        rw [hitems, mem_append] at hentry
        rcases hentry with hbefore | hlast
        · exact h.queue entry hbefore
        · cases mem_singleton.mp hlast
          exact hoffers.submit input hpoint
      | full | disconnected => exact h.queue entry hentry
    · obtain ⟨before, hbefore, rfl⟩ := getElem?_modifyClient hafter
      split
      · exact hoffers.step hloop
      · exact h.offers other before hbefore
  | answered hloop =>
    refine ⟨h.queue, fun other after hafter => ?_⟩
    obtain ⟨before, hbefore, rfl⟩ := getElem?_modifyClient hafter
    split
    · exact hoffers.step hloop
    · exact h.offers other before hbefore

theorem Fed.step (h : daemon.Fed) {event : DaemonStep} (hstep : daemon.step event = some daemon') :
    daemon'.Fed := by
  cases step_stepped hstep with
  | main heffects => exact h.effects heffects
  | worker hclient hworked => exact h.worked hclient hworked
  | spawned hspawned =>
    refine ⟨fun entry hentry => ?_, fun index client hclient => ?_⟩
    · rw [hspawned.result] at hentry
      exact h.queue entry hentry
    · rcases getElem?_spawned hspawned hclient with hbefore | ⟨-, rfl⟩
      · exact h.offers index client hbefore
      · exact .start _ _

theorem Roomy.step (hbincode : Bincode.Rewrites) (h : daemon.Roomy) (hshadow : daemon.terminal.Shadowing)
    (hsound : daemon.Sound) (hfed : daemon.Fed) {event : DaemonStep} (hallowed : ¬daemon.Harms event)
    (hstep : daemon.step event = some daemon') : daemon.Survives daemon' := by
  cases event with
  | main answer => exact survives_mainStep hbincode hshadow hsound hfed h hallowed hstep
  | worker index answer =>
    obtain ⟨client, -, hworked⟩ := answered_worked hstep
    cases hworked with
    | submitted | answered => exact ⟨.inl ⟨rfl, rfl, id⟩, h⟩

/-! ### Every run -/

/-- The session is not harmed by a client. -/
structure Unharmed (daemon : Daemon) : Prop where
  /-- If the loop ended, the pseudoterminal or the listener gave the reason. -/
  cause : ∀ cause, daemon.cause = some cause → cause.external
  /-- It did not end without a reason. -/
  running : daemon.cause = none → daemon.point.ending = false ∧ daemon.shutdown = false
  /-- The main thread is never stuck. -/
  serves : daemon.point ≠ .ended → ∃ answer, (daemon.step (.main answer)).isSome

theorem main_progress (daemon : Daemon) (h : daemon.point ≠ .ended) :
    ∃ answer, (daemon.step (.main answer)).isSome := by
  show ∃ answer, (daemon.mainStep answer).isSome
  cases hpoint : daemon.point with
  | ended => exact absurd hpoint h
  | input left => exact ⟨.handled (.ok ()), by simp only [mainStep, hpoint, isSome_some]⟩
  | accept => exact ⟨.refused ⟨.wouldBlock, ""⟩, by simp only [mainStep, hpoint, isSome_some]⟩
  | blocked => exact ⟨.clock true, by simp only [mainStep, hpoint, isSome_some]⟩
  | receive =>
    exact ⟨.pty .empty (.ok ()), by simp only [mainStep, hpoint, receiveOne, isSome_some]⟩
  | drain left =>
    by_cases hdone : left = 0 ∨ !daemon.held.isEmpty
    · refine ⟨.silent, ?_⟩
      simp only [mainStep, hpoint]
      rw [if_pos hdone, isSome_some]
    · rw [not_or] at hdone
      obtain ⟨left, rfl⟩ := Nat.exists_eq_succ_of_ne_zero hdone.1
      have hempty : daemon.held.isEmpty := by simpa using hdone.2
      refine ⟨.pty .empty (.ok ()), ?_⟩
      simp only [mainStep, hpoint]
      rw [if_pos hempty, drainOne, isSome_some]
  | _ => exact ⟨.silent, by simp only [mainStep, hpoint, isSome_some]⟩

theorem Unharmed.step (h : daemon.Unharmed) (hsurvives : daemon.Survives daemon') : daemon'.Unharmed := by
  refine ⟨fun cause hcause => ?_, fun hnone => ?_, main_progress daemon'⟩
  · rcases hsurvives.persists with ⟨hsame, -⟩ | ⟨cause', hcause', hexternal⟩
    · exact h.cause cause (hsame ▸ hcause)
    · cases hcause.symm.trans hcause'
      exact hexternal
  · rcases hsurvives.persists with ⟨hsame, hshutdown, hending⟩ | ⟨cause, hcause, -⟩
    · obtain ⟨hrunning, hopen⟩ := h.running (hsame ▸ hnone)
      refine ⟨?_, hshutdown.trans hopen⟩
      by_contra hnot
      rw [Bool.not_eq_false] at hnot
      rw [hending hnot] at hrunning
      cases hrunning
    · rw [hcause] at hnone
      cases hnone

end

end Daemon

/-- No client ends the session, as long as none fails while it is admitted and none resizes it beyond
what a terminal may have. -/
theorem clients_do_not_end_the_session [Platform] [Bincode] [RecoveryCodec] (hbincode : Bincode.Rewrites)
    {processId daemonGeneration : Nat} {dimensions : Dimensions} {limitBytes : ByteLimit} {daemon : Daemon}
    (h : Runs.Reaches Daemon.step (fun daemon step => ¬daemon.Harms step)
      (.start processId daemonGeneration (.withScrollbackLimit dimensions limitBytes)) daemon) :
    daemon.Unharmed := by
  have hall : daemon.Sound ∧ daemon.Delivered ∧ daemon.Fed ∧ daemon.Roomy ∧ daemon.Unharmed := by
    induction h with
    | refl =>
      have hshadow := Terminal.withScrollbackLimit_shadowing dimensions limitBytes
      refine ⟨.start _ _ _, .start _ _ hshadow, ⟨?_, ?_⟩, ?_, ?_⟩
      · exact nofun
      · exact fun _ _ hclient => by cases hclient
      · exact Nat.zero_le _
      · exact ⟨nofun, fun _ => ⟨rfl, rfl⟩, Daemon.main_progress _⟩
    | step _ hallowed hstep ih =>
      obtain ⟨hsound, hdelivered, hfed, hroom, hunharmed⟩ := ih
      have hsurvives := hroom.step hbincode hdelivered.shadow hsound hfed hallowed hstep
      exact ⟨hsound.step hstep, hdelivered.step hsound hstep, hfed.step hstep, hsurvives.roomy,
        hunharmed.step hsurvives⟩
  exact hall.2.2.2.2

/-! ### Two runs -/

namespace Daemon

/-- No client fails while it is admitted, and none asks for a size. -/
def harmless (daemon : Daemon) : DaemonStep → Bool
  | .main (.accepted attempt) => attempt.timeouts = .ok () && attempt.reply = .ok () &&
    attempt.reads.all fun read => (read matches .ok _)
  | .main (.handled _) => daemon.input.items.all fun entry => !(entry.2.command matches .resize _)
  | _ => true

theorem not_harms {daemon : Daemon} {step : DaemonStep} (h : daemon.harmless step) : ¬daemon.Harms step := by
  rintro (⟨attempt, rfl, hfails⟩ | ⟨sender, generation, size, rfl, hhead, -⟩)
  · simp only [harmless, Bool.and_eq_true, decide_eq_true_eq, List.all_eq_true] at h
    rcases hfails with ⟨error, htimeouts⟩ | ⟨error, hread, -⟩ | ⟨⟨error, hreply⟩, -⟩
    · cases h.1.1.symm.trans htimeouts
    · cases h.2 _ hread
    · cases h.1.2.symm.trans hreply
  · have hmem := mem_of_mem_head? hhead
    cases List.all_eq_true.mp h _ hmem

/-- Three clients connect. The first one hangs up while it is admitted and the second one before it has
adopted the snapshot; the third one attaches. -/
def visits : List DaemonStep :=
  [.main .silent, .main .silent, .main (.handled (.ok ())), .main .silent,
    .main (.accepted ⟨.ok (), [.ok []], .ok (), .ok ()⟩), admitOne] ++
  [.flag false, .clock false, .flag false, .silent, .flag false, .flag false,
    .wrote (.error ⟨.brokenPipe, "Broken pipe"⟩), .silent, .silent].map (.worker 0) ++
  [.main .silent, .main .silent, .main .silent, .main .silent, .main .silent, .main .silent,
    .main (.pty .empty (.ok ())), .main .silent, .main (.pty .empty (.ok ()))] ++
  [.main .silent, .main .silent, .main (.handled (.ok ())), .main .silent, admitOne] ++ greet 1 ++
    [.main .silent, .main .silent, .main .silent]

/-- A client resets its connection while it is admitted. -/
def resetAdmission : List DaemonStep :=
  [.main .silent, .main .silent, .main (.handled (.ok ())), .main .silent,
    .main (.accepted ⟨.ok (), [.error ⟨.connectionReset, "Connection reset by peer"⟩], .ok (), .ok ()⟩)]

end Daemon

theorem clients_do_not_end_the_session_visits :
    letI := Platform.reference
    letI := RecoveryCodec.single (Terminal.withScrollbackLimit Daemon.deliveryGrid none) [7]
    letI := Bincode.reference
    ∃ daemon, Runs.Reaches Daemon.step (fun daemon step => ¬daemon.Harms step)
        (.start 1 1 (.withScrollbackLimit Daemon.deliveryGrid none)) daemon ∧
      daemon.active = some 1 ∧ daemon.Unharmed := by
  let _ := Platform.reference
  let _ := RecoveryCodec.single (Terminal.withScrollbackLimit Daemon.deliveryGrid none) [7]
  let _ := Bincode.reference
  have hrun : (Daemon.visits.foldlM (fun (daemon : Daemon) step =>
      if daemon.harmless step then daemon.step step else none)
      (Daemon.start 1 1 (.withScrollbackLimit Daemon.deliveryGrid none))).map Daemon.active =
      some (some 1) := by decide +kernel
  obtain ⟨daemon, hdaemon, hactive⟩ := map_eq_some_iff.mp hrun
  have hreaches := Runs.reaches_of_checked
    (fun (daemon : Daemon) step (h : daemon.harmless step) => Daemon.not_harms h) hdaemon
  exact ⟨daemon, hreaches, hactive, clients_do_not_end_the_session Bincode.reference_rewrites hreaches⟩

/-- The loop shuts the session down. -/
theorem reset_admission_ends_the_session :
    letI := Platform.reference
    letI := RecoveryCodec.single (Terminal.withScrollbackLimit Daemon.deliveryGrid none) [7]
    letI := Bincode.reference
    ∃ daemon, Runs.Reaches Daemon.step (fun _ _ => True)
        (.start 1 1 (.withScrollbackLimit Daemon.deliveryGrid none)) daemon ∧
      daemon.shutdown ∧ daemon.point = .finish ∧ ¬daemon.Unharmed := by
  let _ := Platform.reference
  let _ := RecoveryCodec.single (Terminal.withScrollbackLimit Daemon.deliveryGrid none) [7]
  let _ := Bincode.reference
  have hrun : ((Daemon.start 1 1 (.withScrollbackLimit Daemon.deliveryGrid none)).run
      Daemon.resetAdmission).map (fun daemon => (daemon.shutdown, daemon.point, daemon.cause)) =
      some (true, .finish, some (.admission ⟨.connectionReset, "Connection reset by peer"⟩)) := by decide +kernel
  obtain ⟨daemon, hdaemon, hend⟩ := map_eq_some_iff.mp hrun
  obtain ⟨hshutdown, hend⟩ := Prod.mk.inj hend
  obtain ⟨hpoint, hcause⟩ := Prod.mk.inj hend
  refine ⟨daemon, Runs.reaches_of_foldlM hdaemon, hshutdown, hpoint, fun h => ?_⟩
  cases h.cause _ hcause

end FesTerm
