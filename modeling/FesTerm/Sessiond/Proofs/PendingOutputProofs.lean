import FesTerm.Sessiond.Proofs.SurvivalProofs

/-!
# The bound on held output

`PendingOutput::hold_output` asserts that there is room for what it is given. The main loop never runs
into the assertion: a pass takes as many commands as there is room for, and the pseudoterminal is read
only while nothing is held. `Roomy` counts what a pass may still hold; here it is kept by every step,
whatever the clients do.
-/

namespace FesTerm

open Runs

namespace Daemon

/-- A step after which the room is still enough, and which does not make the main thread panic. -/
structure Bounded (daemon daemon' : Daemon) : Prop where
  cause : daemon'.cause = some .panicked → daemon.cause = some .panicked
  roomy : daemon'.Roomy

section

variable {daemon daemon' : Daemon}

theorem Survives.bounded (h : daemon.Survives daemon') : daemon.Bounded daemon' := by
  refine ⟨fun hpanicked => ?_, h.roomy⟩
  rcases h.persists with ⟨hcause, -⟩ | ⟨cause, hcause, hexternal⟩
  · rwa [hcause] at hpanicked
  · rw [hcause] at hpanicked
    cases hpanicked
    cases hexternal

theorem bounded_ends {cause : EndCause} (hcause : daemon'.cause = some cause)
    (hcalm : cause ≠ .panicked) (hroom : daemon'.Roomy) : daemon.Bounded daemon' := by
  refine ⟨fun hpanicked => ?_, hroom⟩
  rw [hcause] at hpanicked
  exact absurd (Option.some.inj hpanicked) hcalm

theorem Bounded.after {before : Daemon} (h : before.Bounded daemon')
    (hcause : before.cause = daemon.cause) : daemon.Bounded daemon' := by
  refine ⟨fun hpanicked => ?_, h.roomy⟩
  rw [← hcause]
  exact h.cause hpanicked

theorem bounded_goto {point : MainPoint} (hroom : daemon.held.length + point.reserved ≤ clientQueueCapacity) :
    daemon.Bounded (daemon.goto point) := ⟨id, hroom⟩

theorem bounded_retireActive {stolen : Bool} {next : AfterRetire}
    (hroom : daemon.held.length + (MainPoint.dropActive next).reserved ≤ clientQueueCapacity) :
    daemon.Bounded (daemon.retireActive stolen next) := by
  unfold retireActive
  split
  · refine bounded_goto ?_
    rw [next.point_reserved]
    exact hroom
  · exact ⟨id, hroom⟩

theorem bounded_hold {output : ClientOutput} {next : MainPoint}
    (hroom : daemon.held.length + 1 + next.reserved ≤ clientQueueCapacity) :
    daemon.Bounded (daemon.hold output next) := by
  obtain ⟨hcause, -, hpoint, hheld⟩ := hold_spec daemon output next (by omega)
  refine ⟨fun hpanicked => ?_, ?_⟩
  · rwa [hcause] at hpanicked
  · rw [Roomy, hpoint]
    omega

variable [Platform] [Bincode]

variable {handled : Except IoError Unit} {left : Nat}

/-- A command, after which this many more may be taken. -/
theorem bounded_acceptCommand {sender : Nat}
    {command : ClientCommand} (hshadow : daemon.terminal.Shadowing)
    (hroom : daemon.held.length + 1 + left ≤ clientQueueCapacity) :
    daemon.Bounded (daemon.acceptCommand sender handled (.input left) command) := by
  have hheld : daemon.held.length ≤ clientQueueCapacity := by omega
  have hgoto : daemon.Bounded (daemon.goto (.input left)) := by
    refine bounded_goto ?_
    show daemon.held.length + left ≤ clientQueueCapacity
    omega
  cases command with
  | input data =>
    simp only [acceptCommand]
    split
    · exact bounded_ends rfl (by simp) hheld
    · exact ⟨hgoto.cause, hgoto.roomy⟩
  | resize size =>
    simp only [acceptCommand]
    split
    · exact bounded_ends rfl (by simp) hheld
    · split
      · next hnone =>
        -- a size that no terminal may have is an error; the others are taken on
        exfalso
        have hnone : resizeShadowTerminal daemon.terminal size = none := hnone
        unfold resizeShadowTerminal at hnone
        split at hnone
        · cases hnone
        · next dimensions _ =>
          obtain ⟨terminal, hterminal, -⟩ := hshadow.resize dimensions
          rw [hterminal] at hnone
          cases hnone
      · exact bounded_ends rfl (by simp) hheld
      · exact (bounded_hold hroom).after rfl
  | recoverySync command =>
    obtain ⟨terminal, hterminal, -⟩ := hshadow.apply command
    simp only [acceptCommand]
    rw [hterminal]
    simp only
    split
    · exact ⟨hgoto.cause, hgoto.roomy⟩
    · split
      · exact bounded_ends rfl (by simp) hheld
      · exact (bounded_hold hroom).after rfl
  | recoveryAdopted => exact hgoto

theorem bounded_takeInput
    (hshadow : daemon.terminal.Shadowing) (hpoint : daemon.point = .input left)
    (hroom : daemon.Roomy) : daemon.Bounded (daemon.takeInput left handled) := by
  rw [Roomy, hpoint] at hroom
  replace hroom : daemon.held.length + left ≤ clientQueueCapacity := hroom
  unfold takeInput
  split
  · next left sender input channel hrecv =>
    have hshadow' : { daemon with input := channel }.terminal.Shadowing := hshadow
    have hroom' : { daemon with input := channel }.held.length + 1 + left ≤ clientQueueCapacity := by
      show daemon.held.length + 1 + left ≤ clientQueueCapacity
      omega
    simp only
    split
    · exact (bounded_acceptCommand hshadow' hroom').after rfl
    · refine ⟨id, ?_⟩
      show daemon.held.length + left ≤ clientQueueCapacity
      omega
  · refine bounded_goto ?_
    show daemon.held.length + 0 ≤ clientQueueCapacity
    omega

variable [RecoveryCodec]

omit [Bincode] in
theorem bounded_acceptClient {attempt : Attempt} (hshadow : daemon.terminal.Shadowing)
    (hroom : daemon.Roomy) (hstep : daemon.acceptClient attempt = some daemon') :
    daemon.Bounded daemon' := by
  have hheld : daemon.held.length ≤ clientQueueCapacity := by
    rw [Roomy] at hroom
    omega
  unfold acceptClient at hstep
  split at hstep
  · cases hstep
    exact bounded_ends rfl (by simp) hheld
  · obtain ⟨admitted, hadmitted, hstep⟩ := Option.bind_eq_some_iff.mp hstep
    split at hstep
    · cases hstep
      exact bounded_ends rfl (by simp) hheld
    · cases hstep
      exact ⟨id, hroom⟩
    · next limit kind =>
      cases hstep
      unfold replaceActive
      split
      · next hnone => exact absurd hnone (hshadow.encoded_total limit)
      · exact ⟨id, hheld⟩
      · exact bounded_goto hheld

theorem bounded_mainStep {answer : MainAnswer} (hshadow : daemon.terminal.Shadowing)
    (hroom : daemon.Roomy) (hstep : daemon.mainStep answer = some daemon') :
    daemon.Bounded daemon' := by
  have hheld : daemon.held.length ≤ clientQueueCapacity := by
    rw [Roomy] at hroom
    omega
  have hgoto {point : MainPoint} (hreserved : point.reserved = 0) :
      daemon.Bounded (daemon.goto point) := by
    refine bounded_goto ?_
    rw [hreserved]
    exact hheld
  unfold mainStep at hstep
  split at hstep
  case h_1 =>
    cases hstep
    unfold reap
    simp only
    split
    · exact bounded_ends rfl (by simp) hheld
    · exact ⟨id, hheld⟩
  case h_2 =>
    cases hstep
    exact (survives_retireFinished hroom).bounded
  case h_3 hpoint =>
    cases hstep
    exact bounded_takeInput hshadow hpoint hroom
  case h_4 hpoint =>
    cases hstep
    exact (survives_flushOne hpoint hroom).bounded
  case h_5 hpoint =>
    cases hstep
    exact (survives_dropActive hpoint hroom).bounded
  case h_6 => exact bounded_acceptClient hshadow hroom hstep
  case h_7 =>
    cases hstep
    split
    · exact hgoto rfl
    · split
      · exact ⟨id, hroom⟩
      · exact bounded_ends rfl (by simp) hheld
  case h_8 =>
    cases hstep
    unfold await
    split
    · exact hgoto rfl
    · split
      · exact ⟨id, hheld⟩
      · exact hgoto rfl
  case h_12 =>
    cases hstep
    exact bounded_retireActive hheld
  case h_14 =>
    cases hstep
    split
    · exact hgoto rfl
    · exact hgoto rfl
  case h_15 =>
    split at hstep
    · cases hstep
      exact hgoto rfl
    · cases hstep
  case h_16 hpoint =>
    split at hstep
    · next hempty =>
      exact (survives_drainOne hshadow hpoint (List.isEmpty_iff.mp hempty) hstep).bounded
    · cases hstep
  case h_17 =>
    cases hstep
    split
    · next hempty =>
      refine bounded_goto ?_
      rw [List.isEmpty_iff.mp hempty]
      rfl
    · exact hgoto rfl
  case h_18 hpoint => exact (survives_receiveOne hshadow hpoint hroom hstep).bounded
  case h_19 =>
    cases hstep
    split
    · exact hgoto rfl
    · exact hgoto rfl
  case h_20 =>
    cases hstep
    split
    · exact hgoto rfl
    · exact hgoto rfl
  case h_21 =>
    cases hstep
    exact bounded_retireActive hheld
  case h_23 => cases hstep
  all_goals
    cases hstep
    exact ⟨id, hheld⟩

theorem Roomy.bounded (h : daemon.Roomy) (hshadow : daemon.terminal.Shadowing) {event : DaemonStep}
    (hstep : daemon.step event = some daemon') : daemon.Bounded daemon' := by
  cases event with
  | main answer => exact bounded_mainStep hshadow h hstep
  | worker index answer =>
    obtain ⟨client, -, hworked⟩ := answered_worked hstep
    cases hworked with
    | submitted | answered => exact ⟨id, h⟩

end

/-- A letter is printed while nothing is held. -/
def nextLetter : List DaemonStep :=
  [.main (.pty (.item (.data [97])) (.ok ())), .main .silent, .main .silent]

/-- The client takes no bytes while 65 more letters fill its queue, the last of which is held. It then sends a new
size, and the answer to that is held too. -/
def stalledClient : List DaemonStep :=
  firstClient ++ printLetter ++ [.main .silent] ++
    [.flag false, .received (.item (.data [97])), .flag false, .wrote (.error ⟨.wouldBlock, ""⟩)].map (.worker 0) ++
    (List.replicate 63 nextLetter).flatten ++ [.main .silent, .main .silent] ++ nextLetter ++
    [.main .silent, .main .silent, .main (.handled (.ok ())), .main .silent] ++ printLetter ++
    [.read (.ok (encodeFrame frameResize (encodeResize ⟨15, 11, none, none, by decide, by decide⟩))), .flag false,
      .clock false, .flag false, .silent, .sent .sent].map (.worker 0) ++
    [.main .silent, .main .silent, .main .silent, .main .silent, .main (.handled (.ok ()))]

end Daemon

/-- In every reachable state the held outputs fit, and the main thread has not panicked: neither in
the assertion of `hold_output` nor elsewhere. -/
theorem held_output_is_bounded [Platform] [Bincode] [RecoveryCodec] {processId daemonGeneration : Nat}
    {dimensions : Dimensions} {limitBytes : ByteLimit} {daemon : Daemon}
    (h : Runs.Reaches Daemon.step (fun _ _ => True)
      (.start processId daemonGeneration (.withScrollbackLimit dimensions limitBytes)) daemon) :
    daemon.held.length ≤ clientQueueCapacity + 1 ∧ daemon.cause ≠ some .panicked := by
  have hall : daemon.Sound ∧ daemon.Delivered ∧ daemon.Roomy ∧ daemon.cause ≠ some .panicked := by
    induction h with
    | refl =>
      have hshadow := Terminal.withScrollbackLimit_shadowing dimensions limitBytes
      exact ⟨.start _ _ _, .start _ _ hshadow, Nat.zero_le _, nofun⟩
    | step _ _ hstep ih =>
      obtain ⟨hsound, hdelivered, hroom, hcalm⟩ := ih
      have hbounded := hroom.bounded hdelivered.shadow hstep
      exact ⟨hsound.step hstep, hdelivered.step hsound hstep, hbounded.roomy,
        fun hpanicked => hcalm (hbounded.cause hpanicked)⟩
  obtain ⟨-, -, hroom, hcalm⟩ := hall
  rw [Daemon.Roomy] at hroom
  exact ⟨by omega, hcalm⟩

theorem held_output_is_bounded_stalled :
    letI := Platform.reference
    letI := RecoveryCodec.single (Terminal.withScrollbackLimit Daemon.deliveryGrid none) [7]
    letI := Bincode.reference
    ∃ daemon, Runs.Reaches Daemon.step (fun _ _ => True)
        (.start 1 1 (.withScrollbackLimit Daemon.deliveryGrid none)) daemon ∧
      daemon.held = [(1, .data [97]), (1, .resizeApplied ⟨11, 15, 0, 0⟩)] ∧
      daemon.held.length ≤ clientQueueCapacity + 1 ∧ daemon.cause ≠ some .panicked := by
  let _ := Platform.reference
  let _ := RecoveryCodec.single (Terminal.withScrollbackLimit Daemon.deliveryGrid none) [7]
  let _ := Bincode.reference
  have hrun : ((Daemon.start 1 1 (.withScrollbackLimit Daemon.deliveryGrid none)).run
      Daemon.stalledClient).map Daemon.held =
      some [(1, .data [97]), (1, .resizeApplied ⟨11, 15, 0, 0⟩)] := by decide +kernel
  obtain ⟨daemon, hdaemon, hheld⟩ := Option.map_eq_some_iff.mp hrun
  have hreaches := Runs.reaches_of_foldlM hdaemon
  exact ⟨daemon, hreaches, hheld, held_output_is_bounded hreaches⟩

end FesTerm
