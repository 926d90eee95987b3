import FesTerm.Sessiond.Proofs.DaemonProofs

/-!
# Proofs: the takeover notice

How a worker gets from its service to its end, and what it has told the client by then. The flag of a
client is raised before its queue is dropped, so a worker that is displaced finds the flag at the latest
when it finds the queue closed. The notice is aligned as long as no output is partly written when it
starts, and it goes only to clients that were displaced if none starts for a replacement that failed.
-/

namespace FesTerm

open Relation List

/-! ## How a worker ends -/

def IoPoint.serves (point : IoPoint) : Bool := !point.isLast && point ≠ .disconnected

variable {answer : IoAnswer}

namespace IoLoop

variable {loop loop' : IoLoop}

def Continues (loop' : IoLoop) : Prop :=
  loop'.point.serves ∨ (∃ error, loop'.point = .returning (.error error)) ∨ loop'.point = .panicked

theorem continues_afterOutputs (loop : IoLoop) : loop.afterOutputs.Continues := by
  refine .inl ?_
  show (if _ then IoPoint.top else .read).serves
  split <;> rfl

theorem continues_nextRound (loop : IoLoop) (round : Nat) : (loop.nextRound round).Continues := by
  unfold nextRound
  split
  · exact .inl rfl
  · exact continues_afterOutputs loop

theorem continues_continueWrite (loop : IoLoop) (round budget : Nat) :
    (loop.continueWrite round budget).Continues := by
  unfold continueWrite
  split
  · exact continues_afterOutputs loop
  · split
    · split
      · exact continues_afterOutputs loop
      · exact .inl rfl
    · exact .inl rfl

theorem continues_beginRound (loop : IoLoop) (round : Nat) : (loop.beginRound round).Continues := by
  unfold beginRound
  split
  · exact .inl rfl
  · exact continues_continueWrite loop round maxFrameBytes

theorem continues_afterFlush (loop : IoLoop) (round : Nat) (result : Except IoError Unit) :
    (loop.afterFlush round result).Continues := by
  unfold afterFlush
  split
  · exact continues_nextRound _ round
  · split
    · exact continues_nextRound _ round
    · exact .inr (.inl ⟨_, rfl⟩)

theorem continues_dispatch (loop : IoLoop) (input : ClientInput) : (loop.dispatch input).Continues := by
  unfold dispatch
  split
  · exact .inl rfl
  · split
    · split
      · exact .inr (.inl ⟨_, rfl⟩)
      · split
        · exact .inl rfl
        · exact .inl rfl
    · exact .inr (.inl ⟨_, rfl⟩)

theorem continues_afterWrite {round budget : Nat} {result : Except IoError Nat}
    (h : loop.afterWrite round budget result = some loop') : loop'.Continues := by
  unfold afterWrite at h
  split at h
  · cases h
  · split at h
    · split at h
      · cases h
        exact .inr (.inl ⟨_, rfl⟩)
      · split at h
        · cases h
          exact continues_continueWrite _ round _
        · cases h
    · cases h
      split
      · exact continues_afterOutputs loop
      · exact .inr (.inl ⟨_, rfl⟩)

theorem continues_afterRead {result : Except IoError (List UInt8)} (h : loop.afterRead result = some loop') :
    loop'.Continues ∨ result = .ok [] ∧ loop' = loop.goto (.returning (.ok ())) := by
  unfold afterRead at h
  split at h
  · next bytes =>
    split at h
    · cases h
      exact .inl (.inr (.inr rfl))
    · split at h
      · cases h
      · split at h
        · next hempty =>
          cases h
          rw [List.isEmpty_iff] at hempty
          exact .inr ⟨by rw [hempty], rfl⟩
        · simp only at h
          split at h
          · cases h
            exact .inl (.inr (.inl ⟨_, rfl⟩))
          · cases h
            exact .inl (.inl rfl)
  · cases h
    split
    · exact .inl (.inl rfl)
    · exact .inl (.inr (.inl ⟨_, rfl⟩))

section

variable [Bincode]

theorem continues_nextInput (loop : IoLoop) : loop.nextInput.Continues := by
  unfold nextInput
  split
  · exact continues_dispatch _ _
  · split
    · exact .inr (.inr rfl)
    · exact .inr (.inl ⟨_, rfl⟩)
    · exact .inl rfl
    · exact continues_dispatch _ _

/-- How a step leads on, or to the end. -/
inductive Ends (loop : IoLoop) : IoAnswer → IoLoop → Prop
  | continues {answer : IoAnswer} {loop' : IoLoop} (hserves : loop.point.serves) (h : loop'.Continues) :
    Ends loop answer loop'
  /-- One of the queues is closed. -/
  | unsent {input : ClientInput} (hpoint : loop.point = .submit input) :
    Ends loop (.sent .disconnected) (loop.goto .disconnected)
  | unfed {round : Nat} (hpoint : loop.point = .poll round) :
    Ends loop (.received .disconnected) (loop.goto .disconnected)
  | quiet (hpoint : loop.point = .disconnected) :
    Ends loop (.flag false) (loop.goto (.returning (.ok ())))
  | closed (hpoint : loop.point = .read) :
    Ends loop (.read (.ok [])) (loop.goto (.returning (.ok ())))
  | starts (hpoint : loop.point = .top ∨ loop.point = .disconnected) :
    Ends loop (.flag true) (loop.goto .notice)
  | interrupted {error : IoError} (hpoint : loop.point = .notice) : Ends loop (.wrote (.error error)) loop
  | wrote {count : Nat} (hpoint : loop.point = .notice)
    (hsize : loop.noticed + count ≤ encodeServerStolenFrame.length) (hcount : count ≠ 0) :
    Ends loop (.wrote (.ok count)) ({ loop with noticed := loop.noticed + count }.goto
      (if loop.noticed + count < encodeServerStolenFrame.length then .notice else .noticeFlush))
  | broken {answer : IoAnswer} (error : IoError) (hpoint : loop.point = .notice) :
    Ends loop answer (loop.fail error)
  | flushed (result : Except IoError Unit) (hpoint : loop.point = .noticeFlush) :
    Ends loop (.flushed result) (loop.goto (.returning result))
  | returned {result : Except IoError Unit} (hpoint : loop.point = .returning result) :
    Ends loop .silent ({ loop with adoption := false }.goto (.released result))
  | released {result : Except IoError Unit} (hpoint : loop.point = .released result) :
    Ends loop .silent (loop.goto (.finished result))

theorem step_ends (hstep : loop.step answer = some loop') : loop.Ends answer loop' := by
  have hserves {point : IoPoint} (hpoint : loop.point = point) (h : point.serves) : loop.point.serves := by
    rw [hpoint]
    exact h
  unfold IoLoop.step at hstep
  split at hstep
  case h_1 raised hpoint =>
    cases hstep
    cases raised with
    | true => exact .starts (.inl hpoint)
    | false => exact .continues (hserves hpoint rfl) (.inl rfl)
  case h_2 expired hpoint =>
    cases hstep
    split
    · exact .continues (hserves hpoint rfl) (.inr (.inl ⟨_, rfl⟩))
    · exact .continues (hserves hpoint rfl) (.inl rfl)
  case h_3 raised hpoint =>
    cases hstep
    refine .continues (hserves hpoint rfl) (.inl ?_)
    cases raised <;> rfl
  case h_4 hpoint =>
    cases hstep
    exact .continues (hserves hpoint rfl) (continues_nextInput loop)
  case h_5 hpoint =>
    cases hstep
    exact .continues (hserves hpoint rfl) (.inl rfl)
  case h_6 hpoint =>
    cases hstep
    exact .continues (hserves hpoint rfl) (.inr (.inl ⟨_, rfl⟩))
  case h_7 hpoint =>
    cases hstep
    exact .continues (hserves hpoint rfl) (.inl rfl)
  case h_8 hpoint =>
    cases hstep
    exact .continues (hserves hpoint rfl) (.inl rfl)
  case h_9 hpoint =>
    cases hstep
    exact .unsent hpoint
  case h_10 round raised hpoint =>
    cases hstep
    refine .continues (hserves hpoint rfl) ?_
    split
    · exact .inl rfl
    · exact continues_beginRound loop round
  case h_11 round output hpoint =>
    cases hstep
    exact .continues (hserves hpoint rfl) (continues_continueWrite _ _ _)
  case h_12 hpoint =>
    cases hstep
    exact .continues (hserves hpoint rfl) (continues_afterOutputs loop)
  case h_13 hpoint =>
    cases hstep
    exact .unfed hpoint
  case h_14 round budget raised hpoint =>
    cases hstep
    refine .continues (hserves hpoint rfl) ?_
    split
    · exact continues_afterOutputs loop
    · exact .inl rfl
  case h_15 hpoint => exact .continues (hserves hpoint rfl) (continues_afterWrite hstep)
  case h_16 round result hpoint =>
    cases hstep
    exact .continues (hserves hpoint rfl) (continues_afterFlush loop round result)
  case h_17 hpoint =>
    rcases continues_afterRead hstep with h | ⟨rfl, rfl⟩
    · exact .continues (hserves hpoint rfl) h
    · exact .closed hpoint
  case h_18 raised hpoint =>
    cases hstep
    cases raised with
    | true => exact .starts (.inr hpoint)
    | false => exact .quiet hpoint
  case h_19 hpoint =>
    unfold afterNotice at hstep
    split at hstep
    · next count =>
      simp only at hstep
      split at hstep
      · cases hstep
        exact .broken noticeRefused hpoint
      · next hcount =>
        split at hstep
        · next hsize =>
          cases hstep
          exact .wrote hpoint hsize hcount
        · cases hstep
    · next error =>
      cases hstep
      split
      · exact .interrupted hpoint
      · exact .broken error hpoint
  case h_20 result hpoint =>
    cases hstep
    exact .flushed result hpoint
  case h_21 hpoint =>
    cases hstep
    exact .returned hpoint
  case h_22 hpoint =>
    cases hstep
    exact .released hpoint
  case h_23 => cases hstep

end

end IoLoop

/-! ## The flags -/

namespace MainPoint

variable {point : MainPoint}

theorem candidate_of_ending (h : point.ending) : point.candidate = none := by
  cases point with
  | dropActive next =>
    cases next with
    | install => cases h
    | _ => rfl
  | await | cancel | displace | install => cases h
  | _ => rfl

end MainPoint

/-- The flags of a client, and whether the daemon still holds its queue. -/
structure Profile where
  displaced : Bool
  stolen : Bool
  cancelled : Bool
  holds : Bool

def Connection.profile (client : Connection) : Profile :=
  ⟨client.displaced, client.stolen, client.cancelled, client.output.sender⟩

namespace Daemon

def profiles (daemon : Daemon) : List Profile := daemon.connections.map Connection.profile

/-- How the flags go with the part that a client plays. -/
structure Marked (daemon : Daemon) : Prop where
  flagged : ∀ (index : Nat) (profile : Profile), daemon.profiles[index]? = some profile →
    profile.displaced → profile.stolen
  owed : ∀ (index : Nat) (profile : Profile), daemon.profiles[index]? = some profile →
    profile.stolen → profile.displaced ∨ profile.cancelled
  active : ∀ index, daemon.active = some index → ∃ profile, daemon.profiles[index]? = some profile ∧
    profile.cancelled = false ∧ profile.holds ∧ (daemon.point.retiring = false → profile.displaced = false)
  candidate : ∀ index, daemon.point.candidate = some index → daemon.active ≠ some index ∧
    ∃ profile, daemon.profiles[index]? = some profile ∧ profile = ⟨false, false, false, true⟩
  refused : ∀ index, daemon.point.refused = some index → daemon.active ≠ some index
  final : daemon.input.receiver = false → daemon.point.ending

variable {index : Nat}

section

variable {daemon daemon' : Daemon}

theorem profiles_getElem? {client : Connection} (h : daemon.connections[index]? = some client) :
    daemon.profiles[index]? = some client.profile := by
  rw [profiles, getElem?_map, h]
  rfl

theorem Marked.start (processId daemonGeneration : Nat) (terminal : Terminal) :
    (start processId daemonGeneration terminal).Marked where
  flagged _ _ h := by cases h
  owed _ _ h := by cases h
  active _ h := by cases h
  candidate _ h := by cases h
  refused _ h := by cases h
  final h := by cases h

theorem Marked.same (h : daemon.Marked) (hprofiles : daemon'.profiles = daemon.profiles)
    (hactive : daemon'.active = daemon.active)
    (hcandidate : daemon'.point.candidate = daemon.point.candidate)
    (hrefused : ∀ index, daemon'.point.refused = some index → daemon.point.refused = some index)
    (hretiring : daemon.point.retiring = false ∨ daemon.active = none)
    (hfinal : daemon'.input.receiver = false → daemon'.point.ending) : daemon'.Marked := by
  constructor
  · rw [hprofiles]
    exact h.flagged
  · rw [hprofiles]
    exact h.owed
  · rw [hprofiles, hactive]
    intro index hindex
    obtain ⟨profile, hprofile, hcancelled, hholds, hdisplaced⟩ := h.active index hindex
    refine ⟨profile, hprofile, hcancelled, hholds, fun _ => hdisplaced ?_⟩
    rcases hretiring with hretiring | hnone
    · exact hretiring
    · rw [hnone] at hindex
      cases hindex
  · rw [hprofiles, hactive, hcandidate]
    exact h.candidate
  · rw [hactive]
    exact fun index hindex => h.refused index (hrefused index hindex)
  · exact hfinal

theorem Marked.stays (h : daemon.Marked) (hprofiles : daemon'.profiles = daemon.profiles)
    (hactive : daemon'.active = daemon.active) (hpoint : daemon'.point = daemon.point)
    (hinput : daemon'.input.receiver = daemon.input.receiver) : daemon'.Marked := by
  constructor
  · rw [hprofiles]
    exact h.flagged
  · rw [hprofiles]
    exact h.owed
  · rw [hprofiles, hactive, hpoint]
    exact h.active
  · rw [hprofiles, hactive, hpoint]
    exact h.candidate
  · rw [hactive, hpoint]
    exact h.refused
  · rw [hpoint, hinput]
    exact h.final

theorem Marked.candidate_retains (h : daemon.Marked)
    (hcandidate : daemon.point.candidate = some index) : daemon.input.receiver := by
  by_contra hfalse
  rw [Bool.not_eq_true] at hfalse
  rw [MainPoint.candidate_of_ending (h.final hfalse)] at hcandidate
  cases hcandidate

end

section

variable [Platform] [Bincode] {daemon daemon' : Daemon}

section

omit [Platform] [Bincode]

/-- The flag of the active client is stored; it is raised for a candidate that takes over. -/
theorem Marked.flag (h : daemon.Marked) {stolen : Bool} {next : AfterRetire}
    {held : List (Nat × ClientOutput)} (hactive : daemon.active = some index)
    (hretiring : daemon.point.retiring = false)
    (hcandidate : (MainPoint.dropActive next).candidate = daemon.point.candidate)
    (hending : daemon.point.ending → (MainPoint.dropActive next).ending) :
    ({ daemon with held := held, point := .dropActive next }.modifyClient index fun client =>
      { client with stolen := stolen, displaced := client.displaced || stolen }).Marked := by
  obtain ⟨profile, hprofile, hcancelled, hholds, hdisplaced⟩ := h.active index hactive
  have hdisplaced := hdisplaced hretiring
  have hprofiles : ({ daemon with held := held, point := .dropActive next }.modifyClient index fun client =>
      { client with stolen := stolen, displaced := client.displaced || stolen }).profiles =
      daemon.profiles.modify index fun profile =>
        { profile with stolen := stolen, displaced := profile.displaced || stolen } :=
    map_modifyClient fun _ _ => rfl
  have hat : (daemon.profiles.modify index fun profile =>
      { profile with stolen := stolen, displaced := profile.displaced || stolen })[index]? =
      some ⟨stolen, stolen, false, true⟩ := by
    rw [getElem?_modify_eq, hprofile]
    show some (Profile.mk (profile.displaced || stolen) stolen profile.cancelled profile.holds) = _
    rw [hdisplaced, hcancelled, hholds, Bool.false_or]
  have helse (other : Nat) (hother : index ≠ other) : (daemon.profiles.modify index fun profile =>
      { profile with stolen := stolen, displaced := profile.displaced || stolen })[other]? =
      daemon.profiles[other]? := getElem?_modify_ne _ _ hother
  constructor
  · rw [hprofiles]
    intro other profile' hprofile' hflag
    by_cases hother : index = other
    · rw [← hother, hat] at hprofile'
      cases hprofile'
      exact hflag
    · rw [helse other hother] at hprofile'
      exact h.flagged other profile' hprofile' hflag
  · rw [hprofiles]
    intro other profile' hprofile' hflag
    by_cases hother : index = other
    · rw [← hother, hat] at hprofile'
      cases hprofile'
      exact .inl hflag
    · rw [helse other hother] at hprofile'
      exact h.owed other profile' hprofile' hflag
  · rw [hprofiles]
    intro other hother
    cases hactive.symm.trans hother
    exact ⟨_, hat, rfl, rfl, nofun⟩
  · rw [hprofiles]
    intro other hother
    have hother : (MainPoint.dropActive next).candidate = some other := hother
    obtain ⟨hne, profile', hprofile', heq⟩ := h.candidate other (hcandidate ▸ hother)
    have hindex : index ≠ other := fun heq => hne (heq ▸ hactive)
    exact ⟨hne, profile', by rw [helse other hindex]; exact hprofile', heq⟩
  · exact nofun
  · exact fun hfinal => hending (h.final hfinal)

/-- The queue of a client is dropped that is not active any more. -/
theorem Marked.drop (h : daemon.Marked) {active : Option Nat} {retired : List Nat}
    {point : MainPoint} (hactive : ∀ other, active = some other → daemon.active = some other ∧ index ≠ other)
    (hcandidate : point.candidate = daemon.point.candidate)
    (hindex : point.candidate ≠ some index)
    (hrefused : ∀ other, point.refused = some other → active ≠ some other)
    (hretiring : active.isSome → daemon.point.retiring = false)
    (hending : daemon.point.ending → point.ending) :
    ({ daemon with active := active, retired := retired, point := point }.modifyClient index fun client =>
      { client with output := client.output.dropSender }).Marked := by
  have hprofiles : ({ daemon with active := active, retired := retired, point := point }.modifyClient
      index fun client => { client with output := client.output.dropSender }).profiles =
      daemon.profiles.modify index fun profile => { profile with holds := false } :=
    map_modifyClient fun _ _ => rfl
  have hbefore {other : Nat} {profile : Profile}
      (hprofile : (daemon.profiles.modify index fun profile => { profile with holds := false })[other]? =
        some profile) :
      ∃ before, daemon.profiles[other]? = some before ∧ profile.displaced = before.displaced ∧
        profile.stolen = before.stolen ∧ profile.cancelled = before.cancelled := by
    rw [getElem?_modify] at hprofile
    obtain ⟨before, hbefore, rfl⟩ := Option.map_eq_some_iff.mp hprofile
    refine ⟨before, hbefore, ?_⟩
    split <;> exact ⟨rfl, rfl, rfl⟩
  constructor
  · rw [hprofiles]
    intro other profile hprofile hflag
    obtain ⟨before, hbefore, hdisplaced, hstolen, -⟩ := hbefore hprofile
    rw [hstolen]
    exact h.flagged other before hbefore (hdisplaced ▸ hflag)
  · rw [hprofiles]
    intro other profile hprofile hflag
    obtain ⟨before, hbefore, hdisplaced, hstolen, hcancelled⟩ := hbefore hprofile
    rw [hdisplaced, hcancelled]
    exact h.owed other before hbefore (hstolen ▸ hflag)
  · rw [hprofiles]
    intro other hother
    obtain ⟨hother', hne⟩ := hactive other hother
    obtain ⟨profile, hprofile, hcancelled, hholds, hdisplaced⟩ := h.active other hother'
    refine ⟨profile, by rw [getElem?_modify_ne _ _ hne]; exact hprofile, hcancelled, hholds, fun _ => ?_⟩
    have hother : active = some other := hother
    exact hdisplaced (hretiring (by rw [hother]; rfl))
  · rw [hprofiles]
    intro other hother
    have hother : point.candidate = some other := hother
    obtain ⟨hne, profile, hprofile, heq⟩ := h.candidate other (hcandidate ▸ hother)
    have hindex : index ≠ other := fun heq => hindex (heq ▸ hother)
    refine ⟨fun hsame => hne (hactive other hsame).1, profile, ?_, heq⟩
    rw [getElem?_modify_ne _ _ hindex]
    exact hprofile
  · exact hrefused
  · exact fun hfinal => hending (h.final hfinal)

variable {candidate : Nat}

/-- A candidate is turned away. -/
theorem Marked.cancel (h : daemon.Marked) (hpoint : daemon.point = .cancel candidate) :
    ((daemon.modifyClient candidate fun client => { client with stolen := true, cancelled := true }).goto
      (.cancelDrop candidate)).Marked := by
  have hcandidate : daemon.point.candidate = some candidate := by rw [hpoint]; rfl
  obtain ⟨hne, -⟩ := h.candidate candidate hcandidate
  have hprofiles : ((daemon.modifyClient candidate fun client =>
      { client with stolen := true, cancelled := true }).goto (.cancelDrop candidate)).profiles =
      daemon.profiles.modify candidate fun profile => { profile with stolen := true, cancelled := true } :=
    map_modifyClient fun _ _ => rfl
  have hbefore {index : Nat} {profile : Profile}
      (hprofile : (daemon.profiles.modify candidate fun profile =>
        { profile with stolen := true, cancelled := true })[index]? = some profile) :
      profile.stolen ∧ profile.cancelled ∨ daemon.profiles[index]? = some profile := by
    rw [getElem?_modify] at hprofile
    obtain ⟨before, hbefore, rfl⟩ := Option.map_eq_some_iff.mp hprofile
    split
    · exact .inl ⟨rfl, rfl⟩
    · exact .inr hbefore
  constructor
  · rw [hprofiles]
    intro index profile hprofile hflag
    rcases hbefore hprofile with ⟨hstolen, -⟩ | hsame
    · exact hstolen
    · exact h.flagged index profile hsame hflag
  · rw [hprofiles]
    intro index profile hprofile hflag
    rcases hbefore hprofile with ⟨-, hcancelled⟩ | hsame
    · exact .inr hcancelled
    · exact h.owed index profile hsame hflag
  · rw [hprofiles]
    intro index hindex
    obtain ⟨profile, hprofile, hcancelled, hholds, hdisplaced⟩ := h.active index hindex
    have hother : candidate ≠ index := fun heq => hne (heq ▸ hindex)
    refine ⟨profile, by rw [getElem?_modify_ne _ _ hother]; exact hprofile, hcancelled, hholds,
      fun _ => hdisplaced ?_⟩
    rw [hpoint]
    rfl
  · exact nofun
  · intro index hindex
    cases hindex
    exact hne
  · intro hfinal
    have hending := h.final hfinal
    rw [hpoint] at hending
    cases hending

theorem Marked.install (h : daemon.Marked) (hpoint : daemon.point = .install candidate) :
    (daemon.install candidate).Marked := by
  obtain ⟨-, profile, hprofile, rfl⟩ := h.candidate candidate (by rw [hpoint]; rfl)
  have hprofiles : (daemon.install candidate).profiles = daemon.profiles :=
    map_modifyClient_of_eq fun _ _ => rfl
  constructor
  · rw [hprofiles]
    exact h.flagged
  · rw [hprofiles]
    exact h.owed
  · rw [hprofiles]
    intro index hindex
    cases hindex
    exact ⟨_, hprofile, rfl, rfl, fun _ => rfl⟩
  · exact nofun
  · exact nofun
  · intro hfinal
    have hending := h.final hfinal
    rw [hpoint] at hending
    cases hending

end

theorem Marked.effect (h : daemon.Marked) (heffect : Effect daemon daemon') : daemon'.Marked := by
  have hkept (index : Nat) {change : Connection → Connection}
      (hchange : ∀ client, daemon.connections[index]? = some client →
        (change client).profile = client.profile) :
      (daemon.modifyClient index change).profiles = daemon.profiles := map_modifyClient_of_eq hchange
  cases heffect with
  | moved hcandidate hrefused hretiring hending _ =>
    refine h.same rfl rfl hcandidate (fun index hindex => ?_) hretiring fun hfinal => hending (h.final hfinal)
    exact nomatch (hrefused.symm.trans hindex)
  | took hrecv | typed hrecv => exact h.stays rfl rfl rfl (Channel.receiver_of_recv hrecv)
  | replied | alone | stale => exact h.stays rfl rfl rfl rfl
  | lost hcandidate hretiring =>
    exact h.same rfl rfl hcandidate.symm nofun (.inl hretiring) fun _ => rfl
  | shown => exact h.stays (hkept _ fun _ _ => rfl) rfl rfl rfl
  | gone hactive hheld hretiring hcandidate hending
  | flagged hactive hretiring hstolen hcandidate hending =>
    exact h.flag hactive hretiring hcandidate hending
  | queued _ _ _ hclient _ hsend =>
    refine h.stays (hkept _ fun before hbefore => ?_) rfl rfl rfl
    cases hclient.symm.trans hbefore
    show Profile.mk _ _ _ _ = Profile.mk _ _ _ _
    rw [Channel.sender_of_send hsend]
  | @dropped index next hactive hpoint =>
    refine h.drop nofun ?_ ?_ ?_ nofun fun hending => ?_
    · rw [hpoint]
      exact next.point_candidate
    · intro hcandidate
      rw [AfterRetire.point_candidate, ← hpoint] at hcandidate
      exact (h.candidate index hcandidate).1 hactive
    · exact fun _ hother => nomatch next.point_refused.symm.trans hother
    · rw [hpoint] at hending
      exact next.point_ending hending
  | @adopted candidate channel hpoint =>
    have hcandidate : daemon.point.candidate = some candidate := by rw [hpoint]; rfl
    refine h.same (hkept _ fun _ _ => rfl) rfl hcandidate.symm nofun ?_
      fun hfinal => ?_
    · rw [hpoint]
      exact .inl rfl
    · exact absurd (h.candidate_retains hcandidate) (by rw [show daemon.input.receiver = false from hfinal]; simp)
  | @cancelled candidate hpoint => exact h.cancel hpoint
  | @released candidate hpoint =>
    have hnone : daemon.point.candidate = none := by rw [hpoint]; rfl
    have hother := h.refused candidate (by rw [hpoint]; rfl)
    have hdrop : ({ daemon with
        active := daemon.active
        retired := daemon.retired ++ [candidate]
        point := .cancelLeave candidate }.modifyClient candidate fun client =>
          { client with output := client.output.dropSender }).Marked := by
      refine h.drop (fun index hindex => ?_) hnone.symm ?_ (fun index hindex => ?_) (fun _ => ?_)
        fun hfalse => ?_
      · refine ⟨hindex, fun heq => hother ?_⟩
        rw [heq]
        exact hindex
      · exact nofun
      · cases hindex
        exact hother
      · rw [hpoint]
        rfl
      · rw [hpoint] at hfalse
        cases hfalse
    exact hdrop
  | @left candidate hpoint =>
    refine h.same (hkept _ fun _ _ => rfl) rfl ?_ nofun ?_ fun hfinal => ?_
    · rw [hpoint]
      rfl
    · rw [hpoint]
      exact .inl rfl
    · have hending := h.final hfinal
      rw [hpoint] at hending
      cases hending
  | @installed candidate hpoint => exact h.install hpoint
  | closed hpoint =>
    refine h.same rfl rfl ?_ nofun ?_ fun _ => rfl
    · rw [hpoint]
      rfl
    · rw [hpoint]
      exact .inl rfl

theorem Marked.effects (h : daemon.Marked) (heffects : ReflTransGen Effect daemon daemon') :
    daemon'.Marked := by
  induction heffects with
  | refl => exact h
  | tail _ heffect ih => exact ih.effect heffect

omit [Platform] in
theorem Marked.worked (h : daemon.Marked) {client : Connection}
    (hclient : daemon.connections[index]? = some client)
    (hworked : Worked daemon index client answer daemon') : daemon'.Marked := by
  cases hworked with
  | submitted hloop hpoint hsend =>
    exact h.stays (map_modifyClient_of_eq fun _ _ => rfl) rfl rfl (Channel.receiver_of_send hsend)
  | @answered _ loop client' hloop hother hanswered =>
    refine h.stays (map_modifyClient_of_eq fun before hbefore => ?_) rfl rfl rfl
    cases hclient.symm.trans hbefore
    show client'.profile = client.profile
    cases Connection.answered_eq hanswered with
    | polled hrecv =>
      show Profile.mk _ _ _ _ = Profile.mk _ _ _ _
      rw [Channel.sender_of_recv hrecv]
    | _ => rfl

variable [RecoveryCodec]

omit [Bincode] in
theorem Marked.spawned (h : daemon.Marked) {attempt : Attempt} {limit : Nat} {kind : AttachKind}
    {recovery : List UInt8} (hspawned : Spawned daemon attempt limit kind recovery daemon') :
    daemon'.Marked := by
  obtain ⟨hpoint, -, -, -, rfl⟩ := hspawned
  have hlength : daemon.profiles.length = daemon.connections.length := length_map _
  have hprofiles : { daemon with
      connections := daemon.connections ++
        [Connection.start daemon.nextGeneration kind recovery daemon.terminal]
      point := .await daemon.connections.length }.profiles =
      daemon.profiles ++ [⟨false, false, false, true⟩] := map_append
  have hlast {index : Nat} {profile : Profile}
      (hprofile : (daemon.profiles ++ [⟨false, false, false, true⟩])[index]? = some profile) :
      daemon.profiles[index]? = some profile ∨ profile = ⟨false, false, false, true⟩ :=
    (getElem?_concat_cases hprofile).imp_right And.right
  constructor
  · rw [hprofiles]
    intro index profile hprofile hflag
    rcases hlast hprofile with hbefore | rfl
    · exact h.flagged index profile hbefore hflag
    · cases hflag
  · rw [hprofiles]
    intro index profile hprofile hflag
    rcases hlast hprofile with hbefore | rfl
    · exact h.owed index profile hbefore hflag
    · cases hflag
  · rw [hprofiles]
    intro index hindex
    obtain ⟨profile, hprofile, hcancelled, hholds, hdisplaced⟩ := h.active index hindex
    have hlt := (List.getElem?_eq_some_iff.mp hprofile).1
    refine ⟨profile, by rw [getElem?_append_left hlt]; exact hprofile, hcancelled, hholds,
      fun _ => hdisplaced ?_⟩
    rw [hpoint]
    rfl
  · rw [hprofiles]
    intro index hindex
    cases hindex
    refine ⟨fun hactive => ?_, ⟨false, false, false, true⟩, ?_, rfl⟩
    · obtain ⟨profile, hprofile, -⟩ := h.active _ hactive
      have hlt := (List.getElem?_eq_some_iff.mp hprofile).1
      omega
    · rw [← hlength]
      exact getElem?_concat_length
  · exact nofun
  · intro hfinal
    have hending := h.final hfinal
    rw [hpoint] at hending
    cases hending

theorem Marked.step (h : daemon.Marked) {event : DaemonStep} (hstep : daemon.step event = some daemon') :
    daemon'.Marked := by
  cases step_stepped hstep with
  | main heffects => exact h.effects heffects
  | spawned hspawned => exact h.spawned hspawned
  | worker hclient hworked => exact h.worked hclient hworked

end

end Daemon

/-! ## What the client has been told -/

/-- The worker writes the notice. -/
def IoPoint.notices : IoPoint → Bool
  | .notice | .noticeFlush => true
  | _ => false

/-- The worker has ended in order. -/
def IoPoint.completed : IoPoint → Bool
  | .returning (.ok ()) | .released (.ok ()) | .finished (.ok ()) => true
  | _ => false

def IoLoop.Aligned (loop : IoLoop) : Prop :=
  ∀ data written, loop.pendingOutput = some (data, written) → loop.recoveryAdopted ∧ written = 0

namespace Connection

/-- How far the notice is, once the queues may be closed (`final` that of the commands for good). -/
structure Notified (client : Connection) (final : Bool) : Prop where
  size : client.loop.noticed ≤ encodeServerStolenFrame.length
  last : 0 < client.loop.noticed → client.loop.point.isLast
  full : client.loop.point = .noticeFlush → client.loop.noticed = encodeServerStolenFrame.length
  begun : client.loop.point.notices ∨ 0 < client.loop.noticed → client.displaced ∧ client.loop.Aligned
  shut : client.loop.point = .disconnected → client.output.sender = false ∨ final
  done : client.loop.point.completed → client.closed ∨
    client.loop.noticed = encodeServerStolenFrame.length ∨
    client.displaced = false ∧ (client.output.sender = false ∨ final)

variable {client client' : Connection} {final : Bool}

theorem Notified.start (generation : Nat) (kind : AttachKind) (recovery : List UInt8) (snapshot : Terminal)
    (final : Bool) : (start generation kind recovery snapshot).Notified final where
  size := Nat.zero_le _
  last h := absurd h (Nat.lt_irrefl 0)
  full h := nomatch h
  begun h := by
    rcases h with h | h
    · cases h
    · exact absurd h (Nat.lt_irrefl 0)
  shut h := nomatch h
  done h := nomatch h

/-- The main thread drops queues and raises flags. -/
theorem Notified.mono (h : client.Notified final) {final' : Bool} (hloop : client'.loop = client.loop)
    (hdisplaced : client.displaced → client'.displaced) (hclosed : client'.closed = client.closed)
    (hsender : client.output.sender = false → client'.output.sender = false) (hfinal : final → final')
    (hfresh : client'.displaced → client.displaced ∨ client.output.sender ∧ final = false) :
    client'.Notified final' := by
  obtain ⟨hsize, hlast, hfull, hbegun, hshut, hdone⟩ := h
  have hshutting (hbefore : client.output.sender = false ∨ final) :
      client'.output.sender = false ∨ final' := by
    rcases hbefore with hbefore | hbefore
    · exact .inl (hsender hbefore)
    · exact .inr (hfinal hbefore)
  constructor
  · rw [hloop]
    exact hsize
  · rw [hloop]
    exact hlast
  · rw [hloop]
    exact hfull
  · rw [hloop]
    exact fun hnotices => ⟨hdisplaced (hbegun hnotices).1, (hbegun hnotices).2⟩
  · rw [hloop]
    exact fun hpoint => hshutting (hshut hpoint)
  · rw [hloop, hclosed]
    intro hcompleted
    rcases hdone hcompleted with hclosed | hnoticed | ⟨hnot, hbefore⟩
    · exact .inl hclosed
    · exact .inr (.inl hnoticed)
    · by_cases hnow : client'.displaced
      · rcases hfresh hnow with hold | ⟨hopen, hopen'⟩
        · rw [hnot] at hold
          cases hold
        · rcases hbefore with hbefore | hbefore
          · rw [hopen] at hbefore
            cases hbefore
          · rw [hopen'] at hbefore
            cases hbefore
      · exact .inr (.inr ⟨by simpa using hnow, hshutting hbefore⟩)

end Connection

namespace IoLoop

variable {loop loop' : IoLoop}

theorem Continues.quiet (h : loop.Continues) :
    loop.point.notices = false ∧ loop.point ≠ .disconnected ∧ loop.point.completed = false := by
  rcases h with hserves | ⟨error, hpoint⟩ | hpoint
  · cases hpoint : loop.point with
    | disconnected | notice | noticeFlush | returning | released | finished | panicked =>
      rw [hpoint] at hserves
      cases hserves
    | _ => exact ⟨rfl, nofun, rfl⟩
  · rw [hpoint]
    exact ⟨rfl, nofun, rfl⟩
  · rw [hpoint]
    exact ⟨rfl, nofun, rfl⟩

theorem Stepped.noticed_eq [Bincode] (h : loop.Stepped answer loop')
    (hpoint : loop.point ≠ .notice) : loop'.noticed = loop.noticed := by
  cases h with
  | kept h | polled _ h | wrote _ _ h => exact h.noticed
  | command => exact (kept_nextInput loop).2.1
  | noticed hnotice => exact absurd hnotice hpoint
  | read => rfl

end IoLoop

namespace Connection

variable [Bincode] {client client' : Connection} {final : Bool} {loop : IoLoop}

omit [Bincode] in
theorem Notified.unnoticed (h : client.Notified final) (hlast : client.loop.point.isLast = false) :
    client.loop.noticed = 0 := by
  by_contra hne
  have htrue := h.last (Nat.pos_of_ne_zero hne)
  rw [hlast] at htrue
  cases htrue

/-- A step of the worker, which finds the flag raised only if it owes the notice, and the queues closed
only if they are. -/
theorem Notified.next (h : client.Notified final) (hsound : client.Sound)
    (hstep : client.loop.step answer = some loop)
    (hraised : client.loop.point = .top ∨ client.loop.point = .disconnected → answer = .flag true →
      client.displaced ∧ client.loop.Aligned)
    (hclear : client.loop.point = .disconnected → answer = .flag false → client.displaced = false)
    (hunsent : ∀ input, client.loop.point = .submit input → answer = .sent .disconnected → final)
    (hunfed : answer = .received .disconnected → client.output.sender = false)
    (hended : answer = .read (.ok []) → client'.closed) (hloop : client'.loop = loop)
    (hdisplaced : client'.displaced = client.displaced)
    (hsender : client'.output.sender = client.output.sender) (hclosed : client.closed → client'.closed) :
    client'.Notified final := by
  have hstepped := hsound.loop.stepped hstep
  have hzero (hlast : client.loop.point.isLast = false) (hnotice : client.loop.point ≠ .notice) :
      loop.noticed = 0 := (hstepped.noticed_eq hnotice).trans (h.unnoticed hlast)
  have hquiet (hnoticed : loop.noticed = 0) (hnotices : loop.point.notices = false)
      (hshut : loop.point = .disconnected → client.output.sender = false ∨ final)
      (hdone : loop.point.completed → client'.closed ∨
        client.displaced = false ∧ (client.output.sender = false ∨ final)) : client'.Notified final := by
    constructor
    · rw [hloop, hnoticed]
      exact Nat.zero_le _
    · rw [hloop, hnoticed]
      exact fun hfalse => absurd hfalse (Nat.lt_irrefl 0)
    · rw [hloop]
      intro hpoint
      rw [hpoint] at hnotices
      cases hnotices
    · rw [hloop, hnoticed, hnotices]
      rintro (hfalse | hfalse)
      · cases hfalse
      · exact absurd hfalse (Nat.lt_irrefl 0)
    · rw [hloop, hsender]
      exact hshut
    · rw [hloop, hdisplaced, hsender]
      exact fun hcompleted => (hdone hcompleted).imp_right .inr
  have hserved {point : IoPoint} (hpoint : client.loop.point = point) (hlast : point.isLast = false) :
      loop.noticed = 0 := by
    refine hzero (hpoint ▸ hlast) fun hnotice => ?_
    rw [hpoint] at hnotice
    rw [hnotice] at hlast
    cases hlast
  -- the notice is under way, and the worker goes on with it or gives up
  have hgoes (hnotices : client.loop.point.notices ∨ 0 < client.loop.noticed)
      (hpending : loop.pendingOutput = client.loop.pendingOutput)
      (hadopted : loop.recoveryAdopted = client.loop.recoveryAdopted)
      (hsize : loop.noticed ≤ encodeServerStolenFrame.length) (hlast : loop.point.isLast)
      (hfull : loop.point = .noticeFlush → loop.noticed = encodeServerStolenFrame.length)
      (hdone : loop.point.completed → client'.closed ∨
        loop.noticed = encodeServerStolenFrame.length) : client'.Notified final := by
    obtain ⟨hbegun, haligned⟩ := h.begun hnotices
    constructor
    · rw [hloop]
      exact hsize
    · rw [hloop]
      exact fun _ => hlast
    · rw [hloop]
      exact hfull
    · rw [hloop, hdisplaced]
      refine fun _ => ⟨hbegun, fun data written hdata => ?_⟩
      rw [hpending] at hdata
      rw [hadopted]
      exact haligned data written hdata
    · rw [hloop]
      intro hpoint
      rw [hpoint] at hlast
      cases hlast
    · rw [hloop]
      exact fun hcompleted => (hdone hcompleted).imp_right .inl
  -- the function has returned, and the thread is about to end
  have hleaves {result : Except IoError Unit} (hpoint : client.loop.point = .returning result ∨
      client.loop.point = .released result) (hnoticed : loop.noticed = client.loop.noticed)
      (hpending : loop.pendingOutput = client.loop.pendingOutput)
      (hadopted : loop.recoveryAdopted = client.loop.recoveryAdopted)
      (hlast : loop.point.isLast) (hnotices : loop.point.notices = false)
      (hcompleted : loop.point.completed → client.loop.point.completed) : client'.Notified final := by
    have hnot (point : IoPoint) (hpoint' : point = .noticeFlush ∨ point = .disconnected)
        (heq : loop.point = point) : False := by
      rcases hpoint' with rfl | rfl
      · rw [heq] at hnotices
        cases hnotices
      · rw [heq] at hlast
        cases hlast
    by_cases hzero : client.loop.noticed = 0
    · refine hquiet (hnoticed.trans hzero) hnotices (fun heq => (hnot _ (.inr rfl) heq).elim)
        fun hdone => ?_
      rcases h.done (hcompleted hdone) with hbefore | hbefore | hbefore
      · exact .inl (hclosed hbefore)
      · rw [hzero] at hbefore
        cases hbefore
      · exact .inr hbefore
    · have hpos := Nat.pos_of_ne_zero hzero
      refine hgoes (.inr hpos) hpending hadopted (hnoticed.trans_le h.size) hlast
        (fun heq => (hnot _ (.inl rfl) heq).elim) fun hdone => ?_
      rcases h.done (hcompleted hdone) with hbefore | hbefore | ⟨hbefore, -⟩
      · exact .inl (hclosed hbefore)
      · exact .inr (hnoticed.trans hbefore)
      · rw [(h.begun (.inr hpos)).1] at hbefore
        cases hbefore
  cases IoLoop.step_ends hstep with
  | continues hserves hcontinues =>
    obtain ⟨hnotices, hdisconnected, hcompleted⟩ := hcontinues.quiet
    have hlast : client.loop.point.isLast = false := by
      rw [IoPoint.serves, Bool.and_eq_true] at hserves
      simpa using hserves.1
    have hnotice : client.loop.point ≠ .notice := fun heq => by
      rw [heq] at hlast
      cases hlast
    refine hquiet (hzero hlast hnotice) hnotices (fun hpoint => absurd hpoint hdisconnected) fun hfalse => ?_
    rw [hcompleted] at hfalse
    cases hfalse
  | unsent hpoint =>
    exact hquiet (hserved hpoint rfl) rfl (fun _ => .inr (hunsent _ hpoint rfl)) nofun
  | unfed hpoint =>
    exact hquiet (hserved hpoint rfl) rfl (fun _ => .inl (hunfed rfl)) nofun
  | quiet hpoint =>
    exact hquiet (hserved hpoint rfl) rfl nofun
      fun _ => .inr ⟨hclear hpoint rfl, h.shut hpoint⟩
  | closed hpoint =>
    exact hquiet (hserved hpoint rfl) rfl nofun fun _ => .inl (hended rfl)
  | starts hpoint =>
    obtain ⟨howed, haligned⟩ := hraised hpoint rfl
    have hnoticed : client.loop.noticed = 0 := by
      rcases hpoint with hpoint | hpoint
      · exact hserved hpoint rfl
      · exact hserved hpoint rfl
    constructor
    · rw [hloop]
      exact hnoticed.trans_le (Nat.zero_le _)
    · rw [hloop]
      exact fun _ => rfl
    · rw [hloop]
      exact nofun
    · rw [hloop, hdisplaced]
      exact fun _ => ⟨howed, haligned⟩
    · rw [hloop]
      exact nofun
    · rw [hloop]
      exact nofun
  | interrupted hpoint =>
    refine hgoes (.inl ?_) rfl rfl h.size ?_ h.full fun hfalse => ?_
    · rw [hpoint]
      rfl
    · rw [hpoint]
      rfl
    · rw [hpoint] at hfalse
      cases hfalse
  | @wrote count hpoint hsize hcount =>
    refine hgoes (.inl ?_) rfl rfl hsize ?_ (fun hfull => ?_) fun hfalse => ?_
    · rw [hpoint]
      rfl
    · show (if _ then IoPoint.notice else .noticeFlush).isLast
      split <;> rfl
    · have hfull : (if client.loop.noticed + count < encodeServerStolenFrame.length then IoPoint.notice
          else .noticeFlush) = .noticeFlush := hfull
      show client.loop.noticed + count = encodeServerStolenFrame.length
      split at hfull
      · cases hfull
      · omega
    · have hfalse : (if client.loop.noticed + count < encodeServerStolenFrame.length then IoPoint.notice
          else .noticeFlush).completed := hfalse
      split at hfalse <;> cases hfalse
  | broken error hpoint =>
    refine hgoes (.inl ?_) rfl rfl h.size rfl nofun nofun
    rw [hpoint]
    rfl
  | flushed result hpoint =>
    refine hgoes (.inl ?_) rfl rfl h.size rfl nofun
      fun _ => .inr (h.full hpoint)
    rw [hpoint]
    rfl
  | @returned result hpoint =>
    refine hleaves (.inl hpoint) rfl rfl rfl rfl rfl fun hdone => ?_
    rw [hpoint]
    rcases result with _ | ⟨⟩
    · cases hdone
    · rfl
  | @released result hpoint =>
    refine hleaves (.inr hpoint) rfl rfl rfl rfl rfl fun hdone => ?_
    rw [hpoint]
    rcases result with _ | ⟨⟩
    · cases hdone
    · rfl

end Connection

end FesTerm
