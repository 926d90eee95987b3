import FesTerm.Lib.Runs
import FesTerm.Sessiond.Daemon
import FesTerm.Sessiond.Proofs.ClientLoopProofs
import FesTerm.Sessiond.Proofs.ShadowProofs

/-!
# Proofs: the daemon's main loop

What a step can do to the clients, the queues and the shadow terminal. A step of the main thread is a
few `Effect`s in a row, the start of a worker, or nothing of the kind; a step of a worker changes its
own connection and may send on the queue of commands. The invariants of the loop are proved of the
effects and carry over to every run.
-/

namespace FesTerm

open Relation List Option

variable {index : Nat}

theorem getElem?_concat_cases {α : Type} {items : List α} {last item : α}
    (h : (items ++ [last])[index]? = some item) :
    items[index]? = some item ∨ index = items.length ∧ item = last := by
  rcases Nat.lt_trichotomy index items.length with hlt | rfl | hgt
  · rw [getElem?_append_left hlt] at h
    exact .inl h
  · rw [getElem?_concat_length] at h
    exact .inr ⟨rfl, (some.inj h).symm⟩
  · rw [getElem?_eq_none (by rw [length_append, length_singleton]; omega)] at h
    cases h

/-! ## Where the main thread stands -/

namespace MainPoint

/-- The client that is about to replace the active one. -/
def candidate : MainPoint → Option Nat
  | .await candidate | .cancel candidate | .displace candidate | .install candidate => some candidate
  | .dropActive (.install candidate) => some candidate
  | _ => none

/-- The client whose replacement has failed. -/
def refused : MainPoint → Option Nat
  | .cancelDrop candidate | .cancelLeave candidate => some candidate
  | _ => none

/-- The active client is flagged and not yet dropped. -/
def retiring : MainPoint → Bool
  | .dropActive _ => true
  | _ => false

/-- The loop is over: nothing more is shown to a client. -/
def ending : MainPoint → Bool
  | .flush .finishing | .flush .blocked | .dropActive (.flush .finishing) | .dropActive (.flush .blocked) => true
  | .dropActive .returning | .finishing | .blocked | .finish | .returning | .ended => true
  | _ => false

end MainPoint

namespace AfterFlush

variable (next : AfterFlush)

@[simp] theorem point_candidate : next.point.candidate = none := by cases next <;> rfl
@[simp] theorem point_refused : next.point.refused = none := by cases next <;> rfl
@[simp] theorem point_retiring : next.point.retiring = false := by cases next <;> rfl

theorem point_ending (h : (MainPoint.flush next).ending) : next.point.ending := by
  cases next with
  | finishing | blocked => rfl
  | _ => cases h

end AfterFlush

namespace AfterRetire

variable (next : AfterRetire)

@[simp] theorem point_candidate : next.point.candidate = (MainPoint.dropActive next).candidate := by
  cases next <;> rfl

@[simp] theorem point_refused : next.point.refused = none := by cases next <;> rfl
@[simp] theorem point_retiring : next.point.retiring = false := by cases next <;> rfl

theorem point_ending (h : (MainPoint.dropActive next).ending) : next.point.ending := by
  cases next with
  | flush next =>
    cases next with
    | finishing | blocked => rfl
    | _ => cases h
  | returning => rfl
  | _ => cases h

end AfterRetire

/-! ## Effects -/

/-- A change of the shadow terminal that the output lets a client follow. -/
inductive Shows [Platform] [Bincode] (terminal : Terminal) : ClientOutput → Terminal → Prop
  | data {bytes replies : List UInt8} {terminal' : Terminal}
    (h : mirrorTerminalOutput terminal bytes = some (replies, terminal'))
    (hsize : bytes.length ≤ readBufferBytes) : Shows terminal (.data bytes) terminal'
  | resized {size : PtySize} {terminal' : Terminal}
    (h : resizeShadowTerminal terminal size = some (.ok terminal')) :
    Shows terminal (.resizeApplied size) terminal'
  | synced {command : RecoverySyncCommand} {payload : List UInt8} {terminal' : Terminal}
    (h : applyRecoverySyncCommand terminal command = some terminal')
    (hencode : encodeRecoverySyncCommand command = .ok payload) :
    Shows terminal (.recoverySync payload) terminal'
  | exited : Shows terminal .exited terminal

variable {bytes : List UInt8}

section

variable [Platform] [Bincode] {terminal terminal' : Terminal}

omit [Bincode] in
theorem mirror_shadowing {replies : List UInt8}
    (h : mirrorTerminalOutput terminal bytes = some (replies, terminal')) (hshadow : terminal.Shadowing) :
    terminal'.Shadowing := by
  obtain ⟨mirrored, hmirrored, hshadow'⟩ := hshadow.mirror bytes
  cases h.symm.trans hmirrored
  exact hshadow'

omit [Bincode] in
theorem apply_shadowing {command : RecoverySyncCommand}
    (h : applyRecoverySyncCommand terminal command = some terminal') (hshadow : terminal.Shadowing) :
    terminal'.Shadowing := by
  obtain ⟨applied, happlied, hshadow'⟩ := hshadow.apply command
  cases h.symm.trans happlied
  exact hshadow'

theorem Shows.shadowing {output : ClientOutput} (h : Shows terminal output terminal')
    (hshadow : terminal.Shadowing) : terminal'.Shadowing := by
  cases h with
  | data h => exact mirror_shadowing h hshadow
  | resized h =>
    unfold resizeShadowTerminal at h
    split at h
    · cases h
    · next dimensions _ =>
      obtain ⟨resized, hresized, heq⟩ := map_eq_some_iff.mp h
      cases heq
      obtain ⟨after, hafter, hshadow'⟩ := hshadow.resize dimensions
      cases hresized.symm.trans hafter
      exact hshadow'
  | synced h => exact apply_shadowing h hshadow
  | exited => exact hshadow

end

variable {attempt : Attempt}

variable {other : Nat}

namespace Daemon

section

variable [Platform] [Bincode]

/-- One change that a step of the main thread makes. -/
inductive Effect (daemon : Daemon) : Daemon → Prop
  | moved {point : MainPoint} {retired : List Nat} {cause : Option EndCause} {shutdown : Bool}
    (hcandidate : point.candidate = daemon.point.candidate) (hrefused : point.refused = none)
    (hretiring : daemon.point.retiring = false ∨ daemon.active = none)
    (hending : daemon.point.ending → point.ending) (hcause : daemon.point.ending → cause = daemon.cause) :
    Effect daemon { daemon with point := point, retired := retired, cause := cause, shutdown := shutdown }
  /-- A command is taken from the queue. -/
  | took {sender : Nat} {input : ClientInput} {channel : Channel (Nat × ClientInput)}
    (hrecv : daemon.input.tryRecv = (.item (sender, input), channel)) :
    Effect daemon { daemon with input := channel }
  /-- A command is taken and handed over for the active client. -/
  | typed {sender index : Nat} {client : Connection} {input : ClientInput}
    {channel : Channel (Nat × ClientInput)} {command : ClientCommand}
    (hrecv : daemon.input.tryRecv = (.item (sender, input), channel))
    (hactive : daemon.active = some index) (hclient : daemon.connections[index]? = some client)
    (hgeneration : client.generation = input.generation) :
    Effect daemon ({ daemon with input := channel }.handOver (some sender) command)
  | replied (replies : List UInt8) : Effect daemon (daemon.handOver none (.input replies))
  /-- The shadow terminal changes while no client is attached. -/
  | alone {terminal : Terminal} (hactive : daemon.activeClient = none)
    (hcandidate : daemon.point.candidate = none)
    (hshadow : daemon.terminal.Shadowing → terminal.Shadowing) :
    Effect daemon { daemon with terminal := terminal }
  /-- The shadow terminal changes, and the loop is over with an error. -/
  | lost {terminal : Terminal} {cause : Option EndCause} {shutdown : Bool}
    (hcandidate : daemon.point.candidate = none)
    (hretiring : daemon.point.retiring = false) (hcause : cause ≠ some .ptyClosed)
    (hshadow : daemon.terminal.Shadowing → terminal.Shadowing) :
    Effect daemon { daemon with terminal := terminal, point := .finish, cause := cause, shutdown := shutdown }
  /-- An output is held for the active client. -/
  | shown {index : Nat} {client : Connection} {output : ClientOutput} {terminal : Terminal}
    (hactive : daemon.active = some index) (hclient : daemon.connections[index]? = some client)
    (hcandidate : daemon.point.candidate = none) (hending : daemon.point.ending = false)
    (hroom : daemon.held.length ≤ clientQueueCapacity)
    (hshows : Shows daemon.terminal output terminal) :
    Effect daemon ({ daemon with
      terminal := terminal
      held := daemon.held ++ [(client.generation, output)] }.modifyClient index fun client =>
        { client with produced := client.produced ++ [(output, terminal)] })
  /-- An output is dropped that was held for a client which is not active any more. -/
  | stale {generation : Nat} {output : ClientOutput} {held : List (Nat × ClientOutput)}
    (hheld : daemon.held = (generation, output) :: held)
    (hother : ∀ index client, daemon.active = some index → daemon.connections[index]? = some client →
      client.generation ≠ generation) : Effect daemon { daemon with held := held }
  /-- An output is dropped since the worker of the active client is gone, and the client is flagged. -/
  | gone {index generation : Nat} {output : ClientOutput} {held : List (Nat × ClientOutput)}
    {next : AfterRetire} (hactive : daemon.active = some index)
    (hheld : daemon.held = (generation, output) :: held)
    (hretiring : daemon.point.retiring = false)
    (hcandidate : (MainPoint.dropActive next).candidate = daemon.point.candidate)
    (hending : daemon.point.ending → (MainPoint.dropActive next).ending) :
    Effect daemon ({ daemon with held := held, point := .dropActive next }.modifyClient index
      fun client => { client with stolen := false, displaced := client.displaced || false })
  | queued {index generation : Nat} {client : Connection} {output : ClientOutput}
    {held : List (Nat × ClientOutput)} {channel : Channel ClientOutput}
    (hheld : daemon.held = (generation, output) :: held) (hretiring : daemon.point.retiring = false)
    (hactive : daemon.active = some index) (hclient : daemon.connections[index]? = some client)
    (hgeneration : client.generation = generation)
    (hsend : client.output.trySend output = (.sent, channel)) :
    Effect daemon ({ daemon with held := held }.modifyClient index fun client =>
      { client with output := channel, queued := client.queued ++ [output] })
  /-- The active client is flagged. -/
  | flagged {index : Nat} {stolen : Bool} {next : AfterRetire} (hactive : daemon.active = some index)
    (hretiring : daemon.point.retiring = false)
    (hstolen : stolen = (daemon.point.candidate).isSome)
    (hcandidate : (MainPoint.dropActive next).candidate = daemon.point.candidate)
    (hending : daemon.point.ending → (MainPoint.dropActive next).ending) :
    Effect daemon ({ daemon with point := .dropActive next }.modifyClient index fun client =>
      { client with stolen := stolen, displaced := client.displaced || stolen })
  | dropped {index : Nat} {next : AfterRetire} (hactive : daemon.active = some index)
    (hpoint : daemon.point = .dropActive next) :
    Effect daemon ({ daemon with
      active := none
      retired := daemon.retired ++ [index]
      point := next.point }.modifyClient index fun client =>
        { client with output := client.output.dropSender })
  /-- The adoption of a candidate arrives. -/
  | adopted {candidate : Nat} {channel : Channel Unit} (hpoint : daemon.point = .await candidate) :
    Effect daemon ((daemon.modifyClient candidate fun client => { client with adopted := channel }).goto
      (.displace candidate))
  | cancelled {candidate : Nat} (hpoint : daemon.point = .cancel candidate) :
    Effect daemon ((daemon.modifyClient candidate fun client =>
      { client with stolen := true, cancelled := true }).goto (.cancelDrop candidate))
  | released {candidate : Nat} (hpoint : daemon.point = .cancelDrop candidate) :
    Effect daemon (({ daemon with retired := daemon.retired ++ [candidate] }.modifyClient candidate
      fun client => { client with output := client.output.dropSender }).goto (.cancelLeave candidate))
  | left {candidate : Nat} (hpoint : daemon.point = .cancelLeave candidate) :
    Effect daemon ((daemon.modifyClient candidate fun client =>
      { client with adopted := client.adopted.dropReceiver }).goto (.flush .ready))
  | installed {candidate : Nat} (hpoint : daemon.point = .install candidate) :
    Effect daemon (daemon.install candidate)
  /-- The queue of commands is dropped. -/
  | closed (hpoint : daemon.point = .returning) :
    Effect daemon ({ daemon with input := daemon.input.dropReceiver }.goto .ended)

/-- What a step of a worker does. -/
inductive Worked (daemon : Daemon) (index : Nat) (client : Connection) : IoAnswer → Daemon → Prop
  | submitted {loop : IoLoop} {input : ClientInput} {channel : Channel (Nat × ClientInput)} {result : TrySend}
    (hloop : client.loop.step (.sent result) = some loop) (hpoint : client.loop.point = .submit input)
    (hsend : daemon.input.trySend (index, input) = (result, channel)) :
    Worked daemon index client (.sent result) ({ daemon with input := channel }.modifyClient index
      fun client => { client with loop := loop })
  | answered {answer : IoAnswer} {loop : IoLoop} {client' : Connection}
    (hloop : client.loop.step answer = some loop)
    (hother : ∀ input result, client.loop.point = .submit input → answer ≠ .sent result)
    (hanswered : client.answered answer = some client') :
    Worked daemon index client answer (daemon.modifyClient index fun _ => { client' with loop := loop })

variable [RecoveryCodec]

/-- The worker of a new candidate is started. -/
structure Spawned (daemon : Daemon) (attempt : Attempt) (limit : Nat) (kind : AttachKind)
    (recovery : List UInt8) (daemon' : Daemon) : Prop where
  point : daemon.point = .accept
  timeouts : attempt.timeouts = .ok ()
  admitted : admitClient daemon.processId daemon.daemonGeneration
    (daemon.activeClient.any fun client => !client.isFinished) attempt = some (.ok (some (limit, kind)))
  encoded : encodeRecoverySnapshotWithLimit daemon.terminal limit = some (.ok recovery)
  result : daemon' = { daemon with
    connections := daemon.connections ++ [.start daemon.nextGeneration kind recovery daemon.terminal]
    point := .await daemon.connections.length }

inductive Stepped (daemon : Daemon) : DaemonStep → Daemon → Prop
  | main {answer : MainAnswer} {daemon' : Daemon} (h : ReflTransGen Effect daemon daemon') :
    Stepped daemon (.main answer) daemon'
  | spawned {attempt : Attempt} {limit : Nat} {kind : AttachKind} {recovery : List UInt8}
    {daemon' : Daemon} (h : Spawned daemon attempt limit kind recovery daemon') :
    Stepped daemon (.main (.accepted attempt)) daemon'
  | worker {index : Nat} {client : Connection} {answer : IoAnswer} {daemon' : Daemon}
    (hclient : daemon.connections[index]? = some client) (h : Worked daemon index client answer daemon') :
    Stepped daemon (.worker index answer) daemon'

end

/-! ## Every step has effects -/

section

variable [Platform] [Bincode] {daemon daemon' : Daemon}

variable {point : MainPoint}

theorem effect_goto (hcandidate : point.candidate = daemon.point.candidate)
    (hrefused : point.refused = none) (hretiring : daemon.point.retiring = false ∨ daemon.active = none)
    (hending : daemon.point.ending → point.ending) : Effect daemon (daemon.goto point) :=
  .moved hcandidate hrefused hretiring hending fun _ => rfl

omit [Platform] [Bincode] in
theorem activeClient_eq (hactive : daemon.active = some index) :
    daemon.activeClient = daemon.connections[index]? := by
  rw [activeClient, hactive]
  rfl

omit [Platform] [Bincode] in
theorem active_of_client {client : Connection} (h : daemon.activeClient = some client) :
    ∃ index, daemon.active = some index ∧ daemon.connections[index]? = some client := by
  rcases hactive : daemon.active with _ | index
  · rw [activeClient, hactive] at h
    cases h
  · rw [activeClient_eq hactive] at h
    exact ⟨index, rfl, h⟩

variable {output : ClientOutput} {next : MainPoint} {handled : Except IoError Unit}

omit [Platform] [Bincode] in
theorem hold_none (daemon : Daemon)
    (h : daemon.activeClient = none) : daemon.hold output next = daemon.goto next := by
  unfold hold
  split
  · next hclient =>
    rw [h] at hclient
    cases hclient
  · rfl

omit [Platform] [Bincode] in
theorem hold_some (daemon : Daemon) {client : Connection} (hactive : daemon.active = some index)
    (hclient : daemon.activeClient = some client) : daemon.hold output next =
      if daemon.held.length ≤ clientQueueCapacity then
        { daemon with held := daemon.held ++ [(client.generation, output)], point := next }.modifyClient
          index fun client => { client with produced := client.produced ++ [(output, daemon.terminal)] }
      else daemon.abort .panicked := by
  unfold hold
  split
  · next hactive' hclient' =>
    cases hactive.symm.trans hactive'
    cases hclient.symm.trans hclient'
    rfl
  · next hnone => exact absurd hclient (hnone index client hactive)

/-- Where output is shown to clients. -/
structure Showing (daemon : Daemon) : Prop where
  candidate : daemon.point.candidate = none
  refused : daemon.point.refused = none
  retiring : daemon.point.retiring = false
  ending : daemon.point.ending = false

omit [Platform] [Bincode] in
theorem Showing.not_ending (h : daemon.Showing) {p : Prop} (hending : daemon.point.ending) : p := by
  rw [h.ending] at hending
  cases hending

theorem hold_effects {terminal : Terminal} (h : daemon.Showing) (hshows : Shows daemon.terminal output terminal)
    (hcandidate : next.candidate = none) (hrefused : next.refused = none) :
    ReflTransGen Effect daemon ({ daemon with terminal := terminal }.hold output next) := by
  have hcandidate' := hcandidate.trans h.candidate.symm
  rcases hclient : daemon.activeClient with _ | client
  · rw [hold_none { daemon with terminal := terminal } hclient]
    have halone : Effect daemon { daemon with terminal := terminal } := .alone hclient h.candidate hshows.shadowing
    exact .tail (.single halone) (effect_goto hcandidate' hrefused (.inl h.retiring) h.not_ending)
  · obtain ⟨index, hactive, hconnection⟩ := active_of_client hclient
    rw [hold_some { daemon with terminal := terminal } hactive hclient]
    split
    · next hroom =>
      refine .tail (.single (.shown hactive hconnection h.candidate h.ending hroom hshows)) ?_
      exact .moved hcandidate' hrefused (.inl h.retiring) h.not_ending fun _ => rfl
    · exact .single (.lost h.candidate h.retiring nofun hshows.shadowing)

/-! ### The commands -/

section

variable {sender left : Nat} {input : ClientInput} {channel : Channel (Nat × ClientInput)}
  {handled : Except IoError Unit}

omit [Platform] [Bincode] in
theorem Showing.pops (h : daemon.Showing) (channel : Channel (Nat × ClientInput)) :
    { daemon with input := channel }.Showing :=
  ⟨h.candidate, h.refused, h.retiring, h.ending⟩

omit [Platform] [Bincode] in
theorem Showing.hands (h : daemon.Showing) (sender : Option Nat) (command : ClientCommand) :
    (daemon.handOver sender command).Showing := ⟨h.candidate, h.refused, h.retiring, h.ending⟩

theorem Showing.leaves (h : daemon.Showing) {cause : Option EndCause} {shutdown : Bool} :
    Effect daemon { daemon with cause := cause, shutdown := shutdown, point := .finish } :=
  .moved h.candidate.symm rfl (.inl h.retiring) (fun _ => rfl) h.not_ending

theorem Showing.moves (h : daemon.Showing) (hcandidate : point.candidate = none)
    (hrefused : point.refused = none) : Effect daemon (daemon.goto point) :=
  effect_goto (hcandidate.trans h.candidate.symm) hrefused (.inl h.retiring) h.not_ending

theorem typed_effect (command : ClientCommand)
    (hrecv : daemon.input.tryRecv = (.item (sender, input), channel))
    (hactive : daemon.activeClient.any (·.generation = input.generation)) :
    Effect daemon ({ daemon with input := channel }.handOver (some sender) command) := by
  obtain ⟨client, hclient, hgeneration⟩ := (Option.any_eq_true _ _).mp hactive
  obtain ⟨index, hindex, hconnection⟩ := active_of_client hclient
  exact .typed hrecv hindex hconnection (of_decide_eq_true hgeneration)

/-- The match on a command that is accepted. -/
theorem accept_effects {command : ClientCommand} (h : daemon.Showing)
    (hrecv : daemon.input.tryRecv = (.item (sender, input), channel))
    (haccept : daemon.activeClient.any (·.generation = input.generation) ∨ isRecoverySync command) :
    ReflTransGen Effect daemon
      ({ daemon with input := channel }.acceptCommand sender handled (.input left) command) := by
  have htook : Effect daemon { daemon with input := channel } := .took hrecv
  cases command with
  | input data =>
    have htyped := typed_effect (.input data) hrecv (haccept.resolve_right fun h => by cases h)
    have h' := (h.pops channel).hands (some sender) (.input data)
    simp only [acceptCommand]
    split
    · exact .tail (.single htyped) h'.leaves
    · exact .tail (.single htyped) (h'.moves rfl rfl)
  | resize size =>
    have htyped := typed_effect (.resize size) hrecv (haccept.resolve_right fun h => by cases h)
    have h' := (h.pops channel).hands (some sender) (.resize size)
    simp only [acceptCommand]
    split
    · exact .tail (.single htyped) h'.leaves
    · split
      · exact .tail (.single htyped) h'.leaves
      · exact .tail (.single htyped) h'.leaves
      · next hresized => exact .head htyped (hold_effects h' (.resized hresized) rfl rfl)
  | recoverySync command =>
    have h' := h.pops channel
    simp only [acceptCommand]
    split
    · exact .tail (.single htook) h'.leaves
    · next terminal happlied =>
      split
      · next hactive =>
        have hclient : { daemon with input := channel }.activeClient = none := by
          rw [isNone_iff_eq_none] at hactive
          have hactive : daemon.active = none := hactive
          rw [activeClient, hactive]
          rfl
        have halone : Effect { daemon with input := channel }
            { daemon with input := channel, terminal := terminal } :=
          .alone hclient h'.candidate (apply_shadowing happlied)
        have h'' : { daemon with input := channel, terminal := terminal }.Showing :=
          ⟨h.candidate, h.refused, h.retiring, h.ending⟩
        exact .head htook (.tail (.single halone) (h''.moves rfl rfl))
      · split
        · refine .tail (.single htook) ?_
          exact .lost h'.candidate h'.retiring nofun (apply_shadowing happlied)
        · next hencode => exact .head htook (hold_effects h' (.synced happlied hencode) rfl rfl)
  | recoveryAdopted => exact .tail (.single htook) ((h.pops channel).moves rfl rfl)

theorem takeInput_effects (hpoint : daemon.point = .input left) :
    ReflTransGen Effect daemon (daemon.takeInput left handled) := by
  have h : daemon.Showing := by constructor <;> rw [hpoint] <;> rfl
  unfold takeInput
  split
  · next hrecv =>
    simp only
    split
    · next haccept => exact accept_effects h hrecv haccept
    · exact .tail (.single (.took hrecv)) ((h.pops _).moves rfl rfl)
  · exact .single (h.moves rfl rfl)

end

/-! ### The output of the pseudoterminal -/

theorem mirror_effects {next : AfterFlush} {failed : Daemon → EndCause → Daemon} (h : daemon.Showing)
    (hfailed : failed = fail ∨ failed = abort) (hsize : bytes.length ≤ readBufferBytes) :
    ReflTransGen Effect daemon (daemon.mirror bytes handled next failed) := by
  have hcandidate : (MainPoint.flush next).candidate = none := rfl
  unfold mirror
  split
  · exact .single h.leaves
  · next replies terminal hmirrored =>
    split
    · exact hold_effects h (.data hmirrored hsize) hcandidate rfl
    · have hreplied : Effect daemon (daemon.handOver none (.input replies)) := .replied replies
      have h' := h.hands none (.input replies)
      simp only
      split
      · refine .tail (.single hreplied) ?_
        rcases hfailed with rfl | rfl
        · exact .lost h'.candidate h'.retiring nofun (mirror_shadowing hmirrored)
        · exact .lost h'.candidate h'.retiring nofun (mirror_shadowing hmirrored)
      · exact .head hreplied (hold_effects h' (.data hmirrored hsize) hcandidate rfl)

theorem exited_effects (h : daemon.Showing) : ReflTransGen Effect daemon
      ({ daemon with cause := some .ptyClosed }.hold .exited (.flush .finishing)) := by
  have hcause : Effect daemon { daemon with cause := some .ptyClosed } :=
    .moved rfl h.refused (.inl h.retiring) id h.not_ending
  exact .head hcause (hold_effects ⟨h.candidate, h.refused, h.retiring, h.ending⟩ .exited rfl rfl)

theorem complete_effect (h : daemon.Showing) : Effect daemon daemon.complete :=
  .moved h.candidate.symm rfl (.inl h.retiring) (fun _ => rfl) h.not_ending

variable {event : TryRecv PtyEvent}

theorem drainOne_effects {left : Nat}
    (hpoint : daemon.point = .drain (left + 1)) (hstep : daemon.drainOne left handled event = some daemon') :
    ReflTransGen Effect daemon daemon' := by
  have h : daemon.Showing := by constructor <;> rw [hpoint] <;> rfl
  unfold drainOne at hstep
  split at hstep
  · split at hstep
    · next hsize =>
      cases hstep
      exact mirror_effects h (.inl rfl) hsize.2
    · cases hstep
  · cases hstep
    exact exited_effects h
  · cases hstep
    exact .single h.leaves
  · cases hstep
    exact .single (h.moves rfl rfl)
  · cases hstep
    exact .single (complete_effect h)

theorem receiveOne_effects
    (hpoint : daemon.point = .receive) (hstep : daemon.receiveOne handled event = some daemon') :
    ReflTransGen Effect daemon daemon' := by
  have h : daemon.Showing := by constructor <;> rw [hpoint] <;> rfl
  unfold receiveOne at hstep
  split at hstep
  · split at hstep
    · next hsize =>
      cases hstep
      exact mirror_effects h (.inr rfl) hsize.2
    · cases hstep
  · cases hstep
    exact exited_effects h
  · cases hstep
    exact .single h.leaves
  · cases hstep
    exact .single (h.moves rfl rfl)
  · cases hstep
    exact .single (complete_effect h)

/-! ### The clients -/

theorem retireActive_effect {stolen : Bool} {next : AfterRetire} (hretiring : daemon.point.retiring = false)
    (hstolen : stolen = daemon.point.candidate.isSome)
    (hcandidate : (MainPoint.dropActive next).candidate = daemon.point.candidate)
    (hending : daemon.point.ending → (MainPoint.dropActive next).ending) :
    Effect daemon (daemon.retireActive stolen next) := by
  unfold retireActive
  split
  · next hactive =>
    refine effect_goto ?_ next.point_refused (.inr hactive) fun h => next.point_ending (hending h)
    rw [AfterRetire.point_candidate, hcandidate]
  · next hactive => exact .flagged hactive hretiring hstolen hcandidate hending

theorem dropActive_effect {next : AfterRetire} (hpoint : daemon.point = .dropActive next) :
    Effect daemon (daemon.dropActive next) := by
  unfold dropActive
  split
  · next hactive =>
    refine effect_goto ?_ next.point_refused (.inr hactive) fun h => ?_
    · rw [AfterRetire.point_candidate, hpoint]
    · rw [hpoint] at h
      exact next.point_ending h
  · next hactive => exact .dropped hactive hpoint

theorem flushOne_effect {next : AfterFlush} (hpoint : daemon.point = .flush next) :
    Effect daemon (daemon.flushOne next) := by
  have hretiring : daemon.point.retiring = false := by rw [hpoint]; rfl
  have hnext : Effect daemon (daemon.goto next.point) := by
    refine effect_goto ?_ next.point_refused (.inl hretiring) fun h => ?_
    · rw [AfterFlush.point_candidate, hpoint]
      rfl
    · rw [hpoint] at h
      exact next.point_ending h
  unfold flushOne
  split
  · exact hnext
  · next generation output held hheld =>
    simp only
    split
    · next index client hactive hclient =>
      rw [activeClient_eq hactive] at hclient
      split
      · next hother =>
        refine .stale hheld fun index' client' hactive' hclient' => ?_
        cases hactive.symm.trans hactive'
        cases hclient.symm.trans hclient'
        exact hother
      · next hsame =>
        split
        · next hsend => exact .queued hheld hretiring hactive hclient (not_not.mp hsame) hsend
        · exact hnext
        · have hretire : Effect daemon ({ daemon with
              held := held, point := .dropActive (.flush next) }.modifyClient index
                fun client => { client with stolen := false, displaced := client.displaced || false }) := by
            refine .gone hactive hheld hretiring ?_ fun h => ?_
            · rw [hpoint]
              rfl
            · rw [hpoint] at h
              cases next with
              | finishing | blocked => rfl
              | _ => cases h
          have heq : { daemon with held := held }.retireActive false (.flush next) =
              ({ daemon with held := held, point := .dropActive (.flush next) }.modifyClient index
                fun client => { client with stolen := false, displaced := client.displaced || false }) := by
            simp only [retireActive, hactive]
          rw [heq]
          exact hretire
    · next hnone =>
      refine .stale hheld fun index client hactive hclient => ?_
      rw [← activeClient_eq hactive] at hclient
      exact absurd hclient (hnone index client hactive)

theorem retireFinished_effect (hpoint : daemon.point = .retire) : Effect daemon daemon.retireFinished := by
  unfold retireFinished
  simp only
  split
  · refine retireActive_effect ?_ ?_ ?_ fun h => ?_
    · rw [hpoint]; rfl
    · rw [hpoint]; rfl
    · rw [hpoint]; rfl
    · rw [hpoint] at h
      cases h
  · refine effect_goto ?_ rfl ?_ fun h => ?_
    · rw [hpoint]; rfl
    · rw [hpoint]; exact .inl rfl
    · rw [hpoint] at h
      cases h

theorem reap_effect (hpoint : daemon.point = .reap) : Effect daemon daemon.reap := by
  unfold reap
  simp only
  split
  · refine .moved ?_ rfl ?_ (fun _ => rfl) fun h => ?_
    · rw [hpoint]; rfl
    · rw [hpoint]; exact .inl rfl
    · rw [hpoint] at h
      cases h
  · refine .moved ?_ rfl ?_ (fun h => ?_) fun _ => rfl
    · rw [hpoint]; rfl
    · rw [hpoint]; exact .inl rfl
    · rw [hpoint] at h
      cases h

theorem await_effect [RecoveryCodec] {candidate : Nat} (hpoint : daemon.point = .await candidate) :
    Effect daemon (daemon.await candidate) := by
  have hcancel : Effect daemon (daemon.goto (.cancel candidate)) := by
    refine effect_goto ?_ rfl ?_ fun h => ?_
    · rw [hpoint]; rfl
    · rw [hpoint]; exact .inl rfl
    · rw [hpoint] at h
      cases h
  unfold await
  split
  · exact hcancel
  · split
    · exact .adopted hpoint
    · exact hcancel

/-! ### All steps -/

omit [Platform] in
theorem answered_worked {answer : IoAnswer} (h : daemon.workerStep index answer = some daemon') :
    ∃ client, daemon.connections[index]? = some client ∧ Worked daemon index client answer daemon' := by
  rw [workerStep, bind_eq_bind, bind_eq_some_iff] at h
  obtain ⟨client, hclient, hbody⟩ := h
  rw [bind_eq_bind, bind_eq_some_iff] at hbody
  obtain ⟨loop, hloop, hbody⟩ := hbody
  refine ⟨client, hclient, ?_⟩
  split at hbody
  · next input result hpoint =>
    simp only at hbody
    split at hbody
    · next hresult =>
      cases hbody
      exact .submitted hloop hpoint (by rw [hresult])
    · cases hbody
  · next hother =>
    obtain ⟨client', hanswered, hbody⟩ := bind_eq_some_iff.mp hbody
    cases hbody
    exact .answered hloop (fun input result hpoint hanswer => hother input result hpoint hanswer) hanswered

variable [RecoveryCodec]

omit [Bincode] in
theorem acceptClient_stepped [Bincode] (hpoint : daemon.point = .accept)
    (hstep : daemon.acceptClient attempt = some daemon') : Stepped daemon (.main (.accepted attempt)) daemon' := by
  have h : daemon.Showing := by constructor <;> rw [hpoint] <;> rfl
  unfold acceptClient at hstep
  split at hstep
  · cases hstep
    exact .main (.single h.leaves)
  · next htimeouts =>
    obtain ⟨admitted, hadmitted, hstep⟩ := bind_eq_some_iff.mp hstep
    split at hstep
    · cases hstep
      exact .main (.single h.leaves)
    · cases hstep
      exact .main .refl
    · next limit kind =>
      cases hstep
      unfold replaceActive
      split
      · exact .main (.single h.leaves)
      · next recovery hencoded _ =>
        exact .spawned ⟨hpoint, htimeouts, hadmitted, hencoded, rfl⟩
      · exact .main (.single (h.moves rfl rfl))

/-- Every step is one of these. -/
theorem step_stepped {step : DaemonStep} (hstep : daemon.step step = some daemon') :
    Stepped daemon step daemon' := by
  cases step with
  | worker index answer =>
    obtain ⟨client, hclient, hworked⟩ := answered_worked hstep
    exact .worker hclient hworked
  | main answer =>
    simp only [step, mainStep] at hstep
    split at hstep
    case h_1 hpoint =>
      cases hstep
      exact .main (.single (reap_effect hpoint))
    case h_2 hpoint =>
      cases hstep
      exact .main (.single (retireFinished_effect hpoint))
    case h_3 hpoint =>
      cases hstep
      exact .main (takeInput_effects hpoint)
    case h_4 hpoint =>
      cases hstep
      exact .main (.single (flushOne_effect hpoint))
    case h_5 hpoint =>
      cases hstep
      exact .main (.single (dropActive_effect hpoint))
    case h_6 hpoint => exact acceptClient_stepped hpoint hstep
    case h_7 hpoint =>
      have h : daemon.Showing := by constructor <;> rw [hpoint] <;> rfl
      cases hstep
      split
      · exact .main (.single (h.moves rfl rfl))
      · split
        · exact .main .refl
        · exact .main (.single h.leaves)
    case h_8 hpoint =>
      cases hstep
      exact .main (.single (await_effect hpoint))
    case h_9 hpoint =>
      cases hstep
      exact .main (.single (.cancelled hpoint))
    case h_10 hpoint =>
      cases hstep
      exact .main (.single (.released hpoint))
    case h_11 hpoint =>
      cases hstep
      exact .main (.single (.left hpoint))
    case h_12 hpoint =>
      cases hstep
      refine .main (.single (retireActive_effect ?_ ?_ ?_ fun h => ?_))
      · rw [hpoint]; rfl
      · rw [hpoint]; rfl
      · rw [hpoint]; rfl
      · rw [hpoint] at h
        cases h
    case h_13 hpoint =>
      cases hstep
      exact .main (.single (.installed hpoint))
    case h_14 hpoint =>
      have h : daemon.Showing := by constructor <;> rw [hpoint] <;> rfl
      cases hstep
      split
      · exact .main (.single (h.moves rfl rfl))
      · exact .main (.single (h.moves rfl rfl))
    case h_15 hpoint =>
      have h : daemon.Showing := by constructor <;> rw [hpoint] <;> rfl
      split at hstep
      · cases hstep
        exact .main (.single (h.moves rfl rfl))
      · cases hstep
    case h_16 hpoint =>
      split at hstep
      · exact .main (drainOne_effects hpoint hstep)
      · cases hstep
    case h_17 hpoint =>
      have h : daemon.Showing := by constructor <;> rw [hpoint] <;> rfl
      cases hstep
      split
      · exact .main (.single (h.moves rfl rfl))
      · exact .main (.single (h.moves rfl rfl))
    case h_18 hpoint => exact .main (receiveOne_effects hpoint hstep)
    case h_19 hpoint =>
      cases hstep
      refine .main (.single (effect_goto ?_ ?_ ?_ fun _ => ?_))
      · rw [hpoint]; split <;> rfl
      · split <;> rfl
      · rw [hpoint]; exact .inl rfl
      · split <;> rfl
    case h_20 hpoint =>
      cases hstep
      refine .main (.single (effect_goto ?_ ?_ ?_ fun _ => ?_))
      · rw [hpoint]; split <;> rfl
      · split <;> rfl
      · rw [hpoint]; exact .inl rfl
      · split <;> rfl
    case h_21 hpoint =>
      cases hstep
      refine .main (.single (retireActive_effect ?_ ?_ ?_ fun _ => rfl))
      · rw [hpoint]; rfl
      · rw [hpoint]; rfl
      · rw [hpoint]; rfl
    case h_22 hpoint =>
      cases hstep
      exact .main (.single (.closed hpoint))
    case h_23 => cases hstep

end

/-! ## The clients -/

variable {daemon : Daemon} {change : Connection → Connection}

theorem getElem?_modifyClient
    {client : Connection} (h : (daemon.modifyClient index change).connections[other]? = some client) :
    ∃ before, daemon.connections[other]? = some before ∧
      client = if index = other then change before else before := by
  rw [modifyClient, getElem?_modify] at h
  obtain ⟨before, hbefore, heq⟩ := map_eq_some_iff.mp h
  exact ⟨before, hbefore, heq.symm⟩

variable {β : Type}

variable {observe : Connection → β}

theorem map_modifyClient {observed : β → β}
    (h : ∀ client, daemon.connections[index]? = some client →
      observe (change client) = observed (observe client)) :
    (daemon.modifyClient index change).connections.map observe =
      (daemon.connections.map observe).modify index observed := by
  apply ext_getElem?
  intro other
  rw [modifyClient, getElem?_map, getElem?_modify, getElem?_modify, getElem?_map]
  rcases hclient : daemon.connections[other]? with _ | client
  · rfl
  · by_cases hsame : index = other
    · rw [← hsame] at hclient
      simp [hsame, h client hclient]
    · simp [hsame]

theorem map_modifyClient_of_eq
    (h : ∀ client, daemon.connections[index]? = some client → observe (change client) = observe client) :
    (daemon.modifyClient index change).connections.map observe = daemon.connections.map observe := by
  have hsame (client : Connection) (hclient : daemon.connections[index]? = some client) :
      observe (change client) = id (observe client) := h client hclient
  rw [map_modifyClient hsame]
  exact modify_id index _

end Daemon

namespace Connection

/-- What an effect does to one client. -/
inductive Changed (client : Connection) : Connection → Prop
  | same : Changed client client
  | shown (output : ClientOutput) (terminal : Terminal) :
    Changed client { client with produced := client.produced ++ [(output, terminal)] }
  | queued {output : ClientOutput} {channel : Channel ClientOutput}
    (hitems : channel.items = client.output.items ++ [output]) :
    Changed client { client with output := channel, queued := client.queued ++ [output] }
  | flagged (stolen : Bool) :
    Changed client { client with stolen := stolen, displaced := client.displaced || stolen }
  | dropped : Changed client { client with output := client.output.dropSender }
  | adopted (channel : Channel Unit) : Changed client { client with adopted := channel }
  | cancelled : Changed client { client with stolen := true, cancelled := true }

end Connection

namespace Daemon

theorem modifyClient_changed {daemon : Daemon} {change : Connection → Connection}
    {client : Connection}
    (hchange : ∀ before, daemon.connections[index]? = some before → before.Changed (change before))
    (h : (daemon.modifyClient index change).connections[other]? = some client) :
    ∃ before, daemon.connections[other]? = some before ∧ before.Changed client := by
  obtain ⟨before, hbefore, rfl⟩ := getElem?_modifyClient h
  refine ⟨before, hbefore, ?_⟩
  split
  · next hsame =>
    rw [← hsame] at hbefore
    exact hchange before hbefore
  · exact .same

theorem Effect.client [Platform] [Bincode] {daemon daemon' : Daemon} (h : Effect daemon daemon')
    {client : Connection} (hclient : daemon'.connections[index]? = some client) :
    ∃ before, daemon.connections[index]? = some before ∧ before.Changed client := by
  cases h with
  | moved | took | typed | replied | alone | lost | stale | closed => exact ⟨client, hclient, .same⟩
  | shown => exact modifyClient_changed (fun _ _ => .shown _ _) hclient
  | gone | flagged => exact modifyClient_changed (fun _ _ => .flagged _) hclient
  | queued _ _ _ hconnection _ hsend =>
    refine modifyClient_changed (fun before hbefore => ?_) hclient
    cases hconnection.symm.trans hbefore
    exact .queued (Channel.items_of_send hsend)
  | dropped | released => exact modifyClient_changed (fun _ _ => .dropped) hclient
  | adopted | left | installed => exact modifyClient_changed (fun _ _ => .adopted _) hclient
  | cancelled => exact modifyClient_changed (fun _ _ => .cancelled) hclient

end Daemon

/-! ## A worker and its client -/

/-- The output that an answer hands to the worker. -/
def IoAnswer.output : IoAnswer → Option ClientOutput
  | .received (.item output) => some output
  | _ => none

theorem IoLoop.Stepped.taken [Bincode] {loop loop' : IoLoop} {answer : IoAnswer}
    (h : loop.Stepped answer loop') : loop'.taken = loop.taken ++ answer.output.toList := by
  cases h with
  | kept h hread htaken =>
    have hnone : answer.output = none := by
      unfold IoAnswer.output
      split
      · next output => exact absurd rfl (htaken output)
      · rfl
    rw [hnone, h.taken]
    exact (append_nil _).symm
  | command hpoint => exact (kept_nextInput loop).2.2.2.2.trans (append_nil _).symm
  | polled hpoint h => exact h.taken
  | wrote hpoint hpending h | noticed hpoint h => exact h.taken.trans (append_nil _).symm
  | read hpoint => exact (append_nil _).symm

namespace Connection

variable [Bincode] {client client' : Connection} {loop : IoLoop}

/-- What holds of a client whatever happens to it. -/
structure Sound (client : Connection) : Prop where
  loop : client.loop.Sound client.generation client.recovery
  /-- The queue is read in order. -/
  queued : client.queued = client.loop.taken ++ client.output.items

theorem Sound.start (generation : Nat) (kind : AttachKind) (recovery : List UInt8) (snapshot : Terminal) :
    (start generation kind recovery snapshot).Sound := ⟨.start generation recovery, rfl⟩

theorem Sound.changed (h : client.Sound) (hchanged : client.Changed client') : client'.Sound := by
  obtain ⟨hloop, hqueued⟩ := h
  cases hchanged with
  | queued hitems =>
    refine ⟨hloop, ?_⟩
    show client.queued ++ _ = client.loop.taken ++ _
    rw [hqueued, hitems, append_assoc]
  | _ => exact ⟨hloop, hqueued⟩

/-- What the accesses of a worker leave of what it shares with the main thread alone. -/
inductive Answered (client : Connection) : IoAnswer → Connection → Prop
  | flag : Answered client (.flag client.stolen) client
  | announced {result : TrySend} {channel : Channel Unit} (hsend : client.adopted.trySend () = (result, channel)) :
    Answered client (.sent result) { client with adopted := channel.dropSender }
  | polled {result : TryRecv ClientOutput} {channel : Channel ClientOutput}
    (hrecv : client.output.tryRecv = (result, channel)) :
    Answered client (.received result) { client with output := channel }
  | closed : Answered client (.read (.ok [])) { client with closed := true }
  | returned {result : Except IoError Unit} (hpoint : client.loop.point = .returning result) :
    Answered client .silent { client with adopted := client.adopted.dropSender }
  | released {result : Except IoError Unit} (hpoint : client.loop.point = .released result) :
    Answered client .silent { client with output := client.output.dropReceiver }
  | other {answer : IoAnswer} (hflag : ∀ raised, answer ≠ .flag raised) (hsent : ∀ result, answer ≠ .sent result)
    (hreceived : ∀ result, answer ≠ .received result) (hclosed : answer ≠ .read (.ok []))
    (hsilent : answer = .silent → ∀ result, client.loop.point ≠ .returning result ∧
      client.loop.point ≠ .released result) : Answered client answer client

variable {answer : IoAnswer}

omit [Bincode] in
theorem answered_eq (h : client.answered answer = some client') : Answered client answer client' := by
  unfold answered at h
  split at h
  · split at h
    · next hraised =>
      cases h
      rw [hraised]
      exact .flag
    · cases h
  · next result =>
    simp only at h
    split at h
    · next hresult =>
      cases h
      exact .announced (by rw [hresult])
    · cases h
  · next result =>
    simp only at h
    split at h
    · next hresult =>
      cases h
      exact .polled (by rw [hresult])
    · cases h
  · cases h
    exact .closed
  · split at h
    · next hpoint =>
      cases h
      exact .returned hpoint
    · next hpoint =>
      cases h
      exact .released hpoint
    · next hreturning hreleased =>
      cases h
      refine .other nofun nofun nofun nofun fun _ result => ⟨hreturning result, hreleased result⟩
  · next hflag hsent hreceived hclosed hsilent =>
    cases h
    exact .other hflag hsent hreceived hclosed fun heq => absurd heq hsilent

theorem Sound.moved (h : client.Sound) (hloop : client.loop.step answer = some loop)
    (hnone : answer.output = none) : { client with loop := loop }.Sound := by
  obtain ⟨hsound, hqueued⟩ := h
  have hsound' := hsound.step hloop
  have htaken := (hsound.stepped hloop).taken
  have hloop' : IoLoop.Sound loop.generation client.recovery loop := by
    rw [hsound'.held.generation_eq]
    exact hsound'
  refine ⟨hloop', ?_⟩
  show client.queued = loop.taken ++ client.output.items
  rw [hqueued, htaken, hnone]
  simp

theorem Sound.answered (h : client.Sound) (hloop : client.loop.step answer = some loop)
    (hanswered : Answered client answer client') : { client' with loop := loop }.Sound := by
  cases hanswered with
  | @polled result channel hrecv =>
    obtain ⟨hsound, hqueued⟩ := h
    have hsound' := hsound.step hloop
    have htaken := (hsound.stepped hloop).taken
    have hloop' : IoLoop.Sound loop.generation client.recovery loop := by
      rw [hsound'.held.generation_eq]
      exact hsound'
    have hreceiving := client.output.tryRecv_receiving
    rw [hrecv] at hreceiving
    refine ⟨hloop', ?_⟩
    show client.queued = loop.taken ++ channel.items
    rw [hqueued, htaken]
    cases hreceiving with
    | item hitems =>
      rw [hitems]
      simp [IoAnswer.output]
    | empty hitems | disconnected hitems => simp [IoAnswer.output]
  | other hflag hsent hreceived hclosed hsilent =>
    have hnone : answer.output = none := by
      unfold IoAnswer.output
      split
      · exact absurd rfl (hreceived _)
      · rfl
    exact h.moved hloop hnone
  | flag | announced | closed | returned | released =>
    have hmoved := h.moved hloop rfl
    exact ⟨hmoved.loop, hmoved.queued⟩

end Connection

namespace Daemon

variable [Platform] [Bincode] [RecoveryCodec] {daemon daemon' : Daemon}

def Sound (daemon : Daemon) : Prop :=
  ∀ (index : Nat) (client : Connection), daemon.connections[index]? = some client → client.Sound

omit [Platform] [RecoveryCodec] in
theorem Sound.start (processId daemonGeneration : Nat) (terminal : Terminal) :
    (start processId daemonGeneration terminal).Sound := fun _ _ h => by cases h

omit [RecoveryCodec] in
theorem Sound.effect (h : daemon.Sound) (heffect : Effect daemon daemon') : daemon'.Sound := by
  intro index client hclient
  obtain ⟨before, hbefore, hchanged⟩ := heffect.client hclient
  exact (h index before hbefore).changed hchanged

omit [RecoveryCodec] in
theorem Sound.effects (h : daemon.Sound) (heffects : ReflTransGen Effect daemon daemon') : daemon'.Sound := by
  induction heffects with
  | refl => exact h
  | tail _ heffect ih => exact ih.effect heffect

omit [Bincode] in
theorem getElem?_spawned {limit : Nat} {kind : AttachKind} {recovery : List UInt8}
    (h : Spawned daemon attempt limit kind recovery daemon') {client : Connection}
    (hclient : daemon'.connections[index]? = some client) :
    daemon.connections[index]? = some client ∨ index = daemon.connections.length ∧
      client = .start daemon.nextGeneration kind recovery daemon.terminal := by
  rw [h.result] at hclient
  exact getElem?_concat_cases hclient

theorem Sound.step (h : daemon.Sound) {event : DaemonStep} (hstep : daemon.step event = some daemon') :
    daemon'.Sound := by
  cases step_stepped hstep with
  | main heffects => exact h.effects heffects
  | spawned hspawned =>
    intro index client hclient
    rcases getElem?_spawned hspawned hclient with hbefore | ⟨-, rfl⟩
    · exact h index client hbefore
    · exact .start _ _ _ _
  | @worker index before answer _ hbefore hworked =>
    intro other client hclient
    have hsound := h index before hbefore
    cases hworked with
    | submitted hloop hpoint hsend =>
      obtain ⟨client', hclient', rfl⟩ := getElem?_modifyClient hclient
      split
      · next hsame =>
        rw [← hsame] at hclient'
        cases hbefore.symm.trans hclient'
        exact hsound.moved hloop rfl
      · exact h other client' hclient'
    | answered hloop hother hanswered =>
      obtain ⟨client', hclient', rfl⟩ := getElem?_modifyClient hclient
      split
      · exact hsound.answered hloop (Connection.answered_eq hanswered)
      · exact h other client' hclient'

theorem Sound.reaches {allowed : Daemon → DaemonStep → Prop} {start : Daemon} (h : start.Sound)
    (hreaches : Runs.Reaches Daemon.step allowed start daemon) : daemon.Sound :=
  hreaches.invariant h fun hsound _ hstep => hsound.step hstep

end Daemon

end FesTerm
