import FesTerm.Sessiond.Proofs.DeliveryProofs
import FesTerm.Sessiond.Proofs.NoticeProofs

/-!
# Proofs: the stream to a client

The snapshot and the frames of the queue go out in order and nothing twice, whatever happens. Where the
notice of a takeover stands depends on the moment at which its worker sees the flag: in the middle of a
frame if the stream was blocked there, and with a client that never took part if its replacement failed.
-/

namespace FesTerm

open Relation List Option

namespace Connection

variable [Bincode]

/-- The stream to a client is well framed. -/
structure WellFramed (client : Connection) : Prop where
  /-- The snapshot and the queue go out in order and nothing twice. -/
  ordered : client.loop.sent <+: client.recovery ++ (client.queued.map ClientOutput.frame).flatten
  frames : ∀ output ∈ client.queued, ∃ event, ServerFrame event output.frame
  /-- Only a client that was displaced is sent the notice, which comes between two frames. -/
  aligned : 0 < client.loop.noticed → client.displaced ∧ ∃ outputs, outputs <+: client.queued ∧
    client.loop.sent = client.recovery ++ (outputs.map ClientOutput.frame).flatten
  /-- Nothing comes after it, and it comes once. -/
  last : 0 < client.loop.noticed → client.loop.point.isLast
  once : client.loop.noticed ≤ encodeServerStolenFrame.length
  /-- A worker that ends in order has sent it to a client that was displaced and is still there. -/
  told : client.displaced → client.loop.point = .finished (.ok ()) → client.closed = false →
    client.loop.noticed = encodeServerStolenFrame.length

end Connection

variable {client : Connection}

namespace Daemon

/-- The worker of a client starts the notice although the replacement by this client has failed, or in
the middle of the snapshot or of a frame. -/
def MisplacesNotice (daemon : Daemon) (step : DaemonStep) : Prop :=
  ∃ index client, step = .worker index (.flag true) ∧ daemon.connections[index]? = some client ∧
    (client.loop.point = .top ∨ client.loop.point = .disconnected) ∧
    (client.cancelled ∨ ¬client.loop.Aligned)

/-- How far the notices of all clients are. -/
def Notified (daemon : Daemon) : Prop :=
  ∀ (index : Nat) (client : Connection), daemon.connections[index]? = some client →
    client.Notified !daemon.input.receiver

variable {daemon daemon' : Daemon}

theorem Notified.start (processId daemonGeneration : Nat) (terminal : Terminal) :
    (start processId daemonGeneration terminal).Notified := fun _ _ h => by cases h

variable {index : Nat}

theorem Notified.modify (h : daemon.Notified) {change : Connection → Connection}
    (hconnections : daemon'.connections = daemon.connections.modify index change)
    (hinput : daemon.input.receiver = false → daemon'.input.receiver = false)
    (hloop : ∀ client, (change client).loop = client.loop ∧ (change client).closed = client.closed)
    (hflags : ∀ client, daemon.connections[index]? = some client →
      (client.displaced → (change client).displaced) ∧
      (client.output.sender = false → (change client).output.sender = false) ∧
      ((change client).displaced → client.displaced ∨ client.output.sender ∧ daemon.input.receiver)) :
    daemon'.Notified := by
  intro other client hclient
  rw [hconnections, getElem?_modify] at hclient
  obtain ⟨before, hbefore, rfl⟩ := map_eq_some_iff.mp hclient
  have hfinal : (!daemon.input.receiver) → !daemon'.input.receiver := by simpa using hinput
  have hnotified := h other before hbefore
  split
  · next hsame =>
    rw [← hsame] at hbefore
    obtain ⟨hdisplaced, hsender, hfresh⟩ := hflags before hbefore
    refine hnotified.mono (hloop before).1 hdisplaced (hloop before).2 hsender hfinal fun hnow => ?_
    exact (hfresh hnow).imp_right fun hopen => ⟨hopen.1, by rw [hopen.2]; rfl⟩
  · exact hnotified.mono rfl id rfl id hfinal .inl

theorem Notified.keep (h : daemon.Notified) (hconnections : daemon'.connections = daemon.connections)
    (hinput : daemon.input.receiver = false → daemon'.input.receiver = false) : daemon'.Notified := by
  intro index client hclient
  rw [hconnections] at hclient
  have hfinal : (!daemon.input.receiver) → !daemon'.input.receiver := by simpa using hinput
  exact (h index client hclient).mono rfl id rfl id hfinal .inl

theorem Notified.change (h : daemon.Notified) {change : Connection → Connection}
    (hconnections : daemon'.connections = daemon.connections.modify index change)
    (hinput : daemon'.input = daemon.input)
    (hloop : ∀ client, (change client).loop = client.loop ∧ (change client).closed = client.closed)
    (hflags : ∀ client, daemon.connections[index]? = some client →
      (change client).displaced = client.displaced ∧
      (client.output.sender = false → (change client).output.sender = false)) : daemon'.Notified := by
  refine h.modify hconnections (fun hfinal => by rw [hinput]; exact hfinal) hloop fun client hclient => ?_
  obtain ⟨hdisplaced, hsender⟩ := hflags client hclient
  rw [hdisplaced]
  exact ⟨id, hsender, .inl⟩

section

variable [Platform] [Bincode]

theorem Notified.effect (h : daemon.Notified) (hmarked : daemon.Marked) (heffect : Effect daemon daemon') :
    daemon'.Notified := by
  cases heffect with
  | moved | replied | alone | lost | stale => exact h.keep rfl id
  | took hrecv | typed hrecv =>
    exact h.keep rfl fun hfinal => (Channel.receiver_of_recv hrecv).trans hfinal
  | shown | adopted | cancelled | left | installed =>
    exact h.change rfl rfl (fun _ => ⟨rfl, rfl⟩) fun _ _ => ⟨rfl, id⟩
  | gone => exact h.change rfl rfl (fun _ => ⟨rfl, rfl⟩) fun client _ => ⟨Bool.or_false _, id⟩
  | queued _ _ _ hclient _ hsend =>
    refine h.change rfl rfl (fun _ => ⟨rfl, rfl⟩) fun client hclient' => ⟨rfl, fun hclosed => ?_⟩
    cases hclient.symm.trans hclient'
    exact (Channel.sender_of_send hsend).trans hclosed
  | @flagged index stolen next hactive hretiring hstolen hcandidate hending =>
    refine h.modify rfl id (fun _ => ⟨rfl, rfl⟩) fun client hclient => ⟨fun hbefore => ?_, id, fun hnow => ?_⟩
    · show client.displaced || stolen
      rw [hbefore]
      rfl
    · obtain ⟨profile, hprofile, -, hholds, -⟩ := hmarked.active index hactive
      cases (profiles_getElem? hclient).symm.trans hprofile
      rcases (Bool.or_eq_true _ _).mp hnow with hbefore | hraised
      · exact .inl hbefore
      · rw [hstolen, isSome_iff_exists] at hraised
        obtain ⟨candidate, hraised⟩ := hraised
        exact .inr ⟨hholds, hmarked.candidate_retains hraised⟩
  | dropped | released =>
    exact h.change rfl rfl (fun _ => ⟨rfl, rfl⟩) fun _ _ => ⟨rfl, fun _ => rfl⟩
  | closed => exact h.keep rfl fun _ => rfl

theorem Notified.effects (h : daemon.Notified) (hmarked : daemon.Marked)
    (heffects : ReflTransGen Effect daemon daemon') : daemon'.Notified := by
  suffices hboth : daemon'.Marked ∧ daemon'.Notified from hboth.2
  induction heffects with
  | refl => exact ⟨hmarked, h⟩
  | tail _ heffect ih => exact ⟨ih.1.effect heffect, ih.2.effect ih.1 heffect⟩

omit [Platform] in
/-- A worker finds the flags and the queues as they are. -/
theorem Notified.worked (h : daemon.Notified) (hmarked : daemon.Marked) (hsound : daemon.Sound) {answer : IoAnswer}
    (hallowed : ¬daemon.MisplacesNotice (.worker index answer))
    (hclient : daemon.connections[index]? = some client)
    (hworked : Worked daemon index client answer daemon') : daemon'.Notified := by
  have hprofile := profiles_getElem? hclient
  have hraised (hpoint : client.loop.point = .top ∨ client.loop.point = .disconnected)
      (hanswer : answer = .flag true) (hstolen : client.stolen) :
      client.displaced ∧ client.loop.Aligned := by
    have hguard : ¬(client.cancelled ∨ ¬client.loop.Aligned) := fun hfalse =>
      hallowed ⟨index, client, by rw [hanswer], hclient, hpoint, hfalse⟩
    rw [not_or, not_not] at hguard
    refine ⟨?_, hguard.2⟩
    rcases hmarked.owed index _ hprofile hstolen with hdisplaced | hcancelled
    · exact hdisplaced
    · exact absurd hcancelled hguard.1
  have hclear (hstolen : client.stolen = false) : client.displaced = false := by
    by_contra hdisplaced
    rw [Bool.not_eq_false] at hdisplaced
    have hflagged : client.stolen = true := hmarked.flagged index _ hprofile hdisplaced
    rw [hstolen] at hflagged
    cases hflagged
  cases hworked with
  | @submitted loop input channel result hloop hpoint hsend =>
    intro other after hafter
    obtain ⟨before, hbefore, rfl⟩ := getElem?_modifyClient hafter
    have hfinal : (!channel.receiver) = !daemon.input.receiver := by rw [Channel.receiver_of_send hsend]
    show Connection.Notified _ !channel.receiver
    rw [hfinal]
    split
    · next hsame =>
      rw [← hsame] at hbefore
      cases hclient.symm.trans hbefore
      refine (h index client hclient).next (hsound index client hclient) hloop ?_ ?_ ?_ ?_ ?_ rfl rfl rfl id
      · exact nofun
      · exact nofun
      · intro _ _ hanswer
        cases hanswer
        rw [Channel.receiver_of_unsent hsend]
        rfl
      · exact nofun
      · exact nofun
    · exact h other before hbefore
  | @answered _ loop client' hloop hother hanswered =>
    have hanswered := Connection.answered_eq hanswered
    have hkept : client'.displaced = client.displaced ∧
        client'.output.sender = client.output.sender ∧ (client.closed → client'.closed) := by
      cases hanswered with
      | polled hrecv => exact ⟨rfl, Channel.sender_of_recv hrecv, id⟩
      | closed => exact ⟨rfl, rfl, fun _ => rfl⟩
      | _ => exact ⟨rfl, rfl, id⟩
    intro other after hafter
    obtain ⟨before, hbefore, rfl⟩ := getElem?_modifyClient hafter
    split
    · next hsame =>
      rw [← hsame] at hbefore
      cases hclient.symm.trans hbefore
      refine (h index client hclient).next (hsound index client hclient) hloop (fun hpoint hanswer => ?_)
        (fun _ hanswer => hclear ?_) (fun input hpoint hanswer => ?_) (fun hanswer => ?_) (fun hanswer => ?_)
        rfl hkept.1 hkept.2.1 hkept.2.2
      · refine hraised hpoint hanswer ?_
        cases hanswered with
        | flag => exact IoAnswer.flag.inj hanswer
        | other hflag => exact absurd hanswer (hflag true)
        | _ => cases hanswer
      · cases hanswered with
        | flag => exact IoAnswer.flag.inj hanswer
        | other hflag => exact absurd hanswer (hflag false)
        | _ => cases hanswer
      · exact absurd hanswer (hother input .disconnected hpoint)
      · cases hanswered with
        | polled hrecv =>
          cases hanswer
          exact Channel.sender_of_unfed hrecv
        | other _ _ hreceived => exact absurd hanswer (hreceived _)
        | _ => cases hanswer
      · cases hanswered with
        | closed => rfl
        | other _ _ _ hclosed => exact absurd hanswer hclosed
        | _ => cases hanswer
    · exact h other before hbefore

variable [RecoveryCodec]

theorem Notified.step (h : daemon.Notified) (hmarked : daemon.Marked) (hsound : daemon.Sound)
    {event : DaemonStep} (hallowed : ¬daemon.MisplacesNotice event)
    (hstep : daemon.step event = some daemon') : daemon'.Notified := by
  cases step_stepped hstep with
  | main heffects => exact h.effects hmarked heffects
  | worker hclient hworked => exact h.worked hmarked hsound hallowed hclient hworked
  | spawned hspawned =>
    intro index client hclient
    have hfinal : (!daemon'.input.receiver) = !daemon.input.receiver := by rw [hspawned.result]
    rw [hfinal]
    rcases getElem?_spawned hspawned hclient with hbefore | ⟨-, rfl⟩
    · exact h index client hbefore
    · exact .start _ _ _ _ _

end

end Daemon

namespace Connection

variable [Platform] [Bincode] [RecoveryCodec]

omit [Platform] [Bincode] [RecoveryCodec] in
theorem sent_of_aligned {generation : Nat} {recovery : List UInt8}
    (hheld : client.loop.Held generation recovery) (haligned : client.loop.Aligned) :
    ∃ outputs, outputs <+: client.loop.taken ∧
      client.loop.sent = recovery ++ (outputs.map ClientOutput.frame).flatten := by
  rcases hpending : client.loop.pendingOutput with _ | ⟨data, written⟩
  · refine ⟨client.loop.taken, prefix_rfl, ?_⟩
    have hstream := hheld.stream
    rw [IoLoop.unwritten, hpending] at hstream
    exact (append_nil _).symm.trans hstream
  · obtain ⟨hadopted, rfl⟩ := haligned data written hpending
    rcases hheld.last data 0 hpending with ⟨-, hnot, -⟩ | ⟨outputs, output, htaken, hdata⟩
    · rw [hadopted] at hnot
      cases hnot
    · refine ⟨outputs, htaken ▸ prefix_append _ _, ?_⟩
      have hstream := hheld.stream
      rw [IoLoop.unwritten, hpending, IoLoop.frames, htaken, hdata] at hstream
      simp only [drop_zero, map_append, map_singleton, flatten_append,
        flatten_singleton, ← append_assoc] at hstream
      exact append_cancel_right hstream

theorem wellFramed (hsound : client.Sound) (hrecord : client.record.Sound)
    {final : Bool} (hnotified : client.Notified final) : client.WellFramed := by
  obtain ⟨terminal, hshown⟩ := hrecord.shown
  have htaken : client.loop.taken <+: client.queued := by
    rw [hsound.queued]
    exact prefix_append _ _
  refine ⟨?_, fun output houtput => ?_, fun hnoticed => ?_, hnotified.last, hnotified.size,
    fun hdisplaced hpoint hopen => ?_⟩
  · have hstream := hsound.loop.held.stream
    obtain ⟨later, hlater⟩ := htaken
    refine ⟨client.loop.unwritten ++ (later.map ClientOutput.frame).flatten, ?_⟩
    rw [← append_assoc, hstream, ← hlater, map_append, flatten_append, append_assoc]
    rfl
  · exact hshown.framed output (hrecord.queued.subset houtput)
  · obtain ⟨hdisplaced, haligned⟩ := hnotified.begun (.inr hnoticed)
    obtain ⟨outputs, houtputs, hsent⟩ := sent_of_aligned hsound.loop.held haligned
    exact ⟨hdisplaced, outputs, houtputs.trans htaken, hsent⟩
  · rcases hnotified.done (by rw [hpoint]; rfl) with hclosed | hfull | ⟨hnot, -⟩
    · rw [hopen] at hclosed
      cases hclosed
    · exact hfull
    · rw [hdisplaced] at hnot
      cases hnot

end Connection

/-- The streams to all clients are well framed, as long as no worker misplaces the notice. -/
theorem streams_are_well_framed [Platform] [Bincode] [RecoveryCodec] {processId daemonGeneration : Nat}
    {dimensions : Dimensions} {limitBytes : ByteLimit} {daemon : Daemon}
    (h : Runs.Reaches Daemon.step (fun daemon step => ¬daemon.MisplacesNotice step)
      (.start processId daemonGeneration (.withScrollbackLimit dimensions limitBytes)) daemon) :
    ∀ client ∈ daemon.connections, client.WellFramed := by
  have hall : daemon.Sound ∧ daemon.Marked ∧ daemon.Delivered ∧ daemon.Notified := by
    induction h with
    | refl =>
      have hshadow := Terminal.withScrollbackLimit_shadowing dimensions limitBytes
      exact ⟨.start _ _ _, .start _ _ _, .start _ _ hshadow, .start _ _ _⟩
    | step _ hallowed hstep ih =>
      obtain ⟨hsound, hmarked, hdelivered, hnotified⟩ := ih
      exact ⟨hsound.step hstep, hmarked.step hstep, hdelivered.step hsound hstep,
        hnotified.step hmarked hsound hallowed hstep⟩
  obtain ⟨hsound, -, hdelivered, hnotified⟩ := hall
  intro client hclient
  obtain ⟨index, hindex⟩ := getElem?_of_mem hclient
  have hrecord := hdelivered.sound _ (mem_of_getElem? (Daemon.records_getElem? hindex))
  exact Connection.wellFramed (hsound index client hindex) hrecord (hnotified index client hindex)

namespace Daemon

def secondClient : List DaemonStep :=
  [admitOne] ++ greet 1 ++ [.main .silent, .main .silent, .main .silent, .main .silent]

/-- The worker of the first client finds the flag between two frames. -/
def takeover : List DaemonStep :=
  firstClient ++ secondClient ++ [.flag true, .flag true, .wrote (.ok 9), .flushed (.ok ()), .silent,
    .silent].map (.worker 0)

/-- The stream to the first client is blocked after four bytes of a frame, and then it is displaced. -/
def blockedTakeover : List DaemonStep :=
  firstClient ++ printLetter ++ [.flag false, .received (.item (.data [97])), .flag false, .wrote (.ok 4),
    .flag false, .wrote (.error ⟨.timedOut, "timed out"⟩)].map (.worker 0) ++
  [.main .silent, .main (.pty .empty (.ok ())), .main .silent, .main (.pty .empty (.ok ())), .main .silent,
    .main .silent, .main (.handled (.ok ())), .main .silent] ++ secondClient ++
  [.read (.error ⟨.timedOut, "timed out"⟩), .flag true, .wrote (.ok 9)].map (.worker 0)

/-- No worker starts the notice with an output in progress or for a replacement that failed. -/
def placesNotice (daemon : Daemon) : DaemonStep → Bool
  | .worker index (.flag true) => daemon.connections[index]?.all fun client =>
    !client.cancelled && client.loop.pendingOutput.isNone
  | _ => true

theorem not_misplacesNotice {daemon : Daemon} {step : DaemonStep} (h : daemon.placesNotice step) :
    ¬daemon.MisplacesNotice step := by
  rintro ⟨index, client, rfl, hclient, -, hfalse⟩
  rw [placesNotice, hclient] at h
  simp only [all_some, Bool.and_eq_true, Bool.not_eq_true', isNone_iff_eq_none] at h
  rcases hfalse with hcancelled | haligned
  · rw [h.1] at hcancelled
    cases hcancelled
  · refine haligned fun data written hdata => ?_
    rw [h.2] at hdata
    cases hdata

end Daemon

theorem streams_are_well_framed_takeover :
    letI := Platform.reference
    letI := RecoveryCodec.single (Terminal.withScrollbackLimit Daemon.deliveryGrid none) [7]
    letI := Bincode.reference
    ∃ daemon, Runs.Reaches Daemon.step (fun daemon step => ¬daemon.MisplacesNotice step)
        (.start 1 1 (.withScrollbackLimit Daemon.deliveryGrid none)) daemon ∧
      daemon.connections.map (fun client => client.loop.stream) =
        [recoveryPrelude [7] ++ encodeServerStolenFrame, recoveryPrelude [7]] ∧
      ∀ client ∈ daemon.connections, client.WellFramed := by
  let _ := Platform.reference
  let _ := RecoveryCodec.single (Terminal.withScrollbackLimit Daemon.deliveryGrid none) [7]
  let _ := Bincode.reference
  have hrun : (Daemon.takeover.foldlM (fun (daemon : Daemon) step =>
      if daemon.placesNotice step then daemon.step step else none)
      (Daemon.start 1 1 (.withScrollbackLimit Daemon.deliveryGrid none))).map
      (fun daemon => daemon.connections.map fun client => client.loop.stream) =
      some [recoveryPrelude [7] ++ encodeServerStolenFrame, recoveryPrelude [7]] := by decide +kernel
  obtain ⟨daemon, hdaemon, hstreams⟩ := map_eq_some_iff.mp hrun
  have hreaches := Runs.reaches_of_checked
    (fun (daemon : Daemon) step (h : daemon.placesNotice step) => Daemon.not_misplacesNotice h) hdaemon
  exact ⟨daemon, hreaches, hstreams, streams_are_well_framed hreaches⟩

/-- The notice comes in the middle of a frame. -/
theorem notice_inside_a_frame :
    letI := Platform.reference
    letI := RecoveryCodec.single (Terminal.withScrollbackLimit Daemon.deliveryGrid none) [7]
    letI := Bincode.reference
    ∃ daemon, Runs.Reaches Daemon.step (fun _ _ => True)
        (.start 1 1 (.withScrollbackLimit Daemon.deliveryGrid none)) daemon ∧
      daemon.connections[0]?.map (fun client => client.loop.stream) =
        some (recoveryPrelude [7] ++ (ClientOutput.data [97]).frame.take 4 ++ encodeServerStolenFrame) ∧
      ¬∀ client ∈ daemon.connections, client.WellFramed := by
  let _ := Platform.reference
  let _ := RecoveryCodec.single (Terminal.withScrollbackLimit Daemon.deliveryGrid none) [7]
  let _ := Bincode.reference
  have hrun : ((Daemon.start 1 1 (.withScrollbackLimit Daemon.deliveryGrid none)).run
      Daemon.blockedTakeover).map (fun daemon => daemon.connections[0]?.map fun client =>
        (client.loop.stream, client.loop.noticed :: client.loop.sent.length :: client.recovery.length ::
          client.queued.map fun output => output.frame.length)) =
      some (some (recoveryPrelude [7] ++ (ClientOutput.data [97]).frame.take 4 ++ encodeServerStolenFrame,
        [9, 17, 13, 10])) := by decide +kernel
  obtain ⟨daemon, hdaemon, hfirst⟩ := map_eq_some_iff.mp hrun
  obtain ⟨client, hclient, heq⟩ := map_eq_some_iff.mp hfirst
  obtain ⟨hstream, hlengths⟩ := Prod.mk.inj heq
  obtain ⟨hnoticed, hlengths⟩ := List.cons.inj hlengths
  obtain ⟨hsent, hlengths⟩ := List.cons.inj hlengths
  obtain ⟨hrecovery, hframes⟩ := List.cons.inj hlengths
  refine ⟨daemon, Runs.reaches_of_foldlM hdaemon, ?_, fun h => ?_⟩
  · rw [hclient]
    exact congrArg some hstream
  · obtain ⟨-, outputs, ⟨later, hlater⟩, hwhole⟩ :=
      (h client (mem_of_getElem? hclient)).aligned (by rw [hnoticed]; decide)
    have hsum := congrArg List.length hwhole
    rw [length_append, hsent, hrecovery, length_flatten, List.map_map] at hsum
    rw [← hlater, map_append] at hframes
    rcases outputs with _ | ⟨output, outputs⟩
    · cases hsum
    · have hfirst : output.frame.length = 10 := (List.cons.inj hframes).1
      have hten : 10 ≤ ((output :: outputs).map (List.length ∘ ClientOutput.frame)).sum := by
        rw [map_cons, sum_cons]
        show 10 ≤ output.frame.length + _
        omega
      omega

end FesTerm
