import FesTerm.TunnelBridge.Link
import FesTerm.Lib.Runs

/-!
# What the host says is reported

The frames on their way to the client lead from where the client is to where the host is, and the one that gives
a reason is the last of them. The frames on their way to the session of the desktop are of the same kind.
-/

namespace FesTerm.TunnelBridge

open List Option

namespace Link

/-! ## The frames of the host -/

/-- What was said so far. -/
inductive Phase where
  | greeting
  | admitted
  | running
  | ended

def Phase.next : Phase → HostFrame → Option Phase
  | .greeting, .capabilities _ _ => some .admitted
  | .greeting, .refused | .admitted, .refused => some .ended
  | .admitted, .snapshot => some .running
  | .running, .event => some .running
  | .running, .displaced _ | .running, .exited => some .ended
  | _, _ => none

def clientPhase : ClientPoint → Phase
  | .greeting => .greeting
  | .admitted => .admitted
  | .adopting | .running => .running
  | .ended => .ended

/-- A host that has ended may have said anything. -/
def hostPhase : HostPoint → Option Phase
  | .waiting => some .greeting
  | .admitting | .attached => some .admitted
  | .offered | .running => some .running
  | .ended => none

variable {phase' : Phase} {frame : HostFrame} {report : Report} {frames : List HostFrame}

theorem Phase.next_ended {phase : Phase} (h : phase.next frame = some phase') :
    phase' = .ended ↔ frame.reason.isSome = true := by
  cases phase <;> cases frame <;> cases h <;>
    first
    | exact ⟨fun _ => rfl, fun _ => rfl⟩
    | exact ⟨nofun, nofun⟩

theorem Phase.next_of_ended (frame : HostFrame) : Phase.next .ended frame = none := by
  cases frame <;> rfl

/-- The frames lead from the client to the host, and only the last of them gives a reason. -/
structure Ordered (phase : Phase) (frames : List HostFrame) (hostPoint : HostPoint) (told : Option Reason) :
    Prop where
  leads : ∃ phase', frames.foldlM Phase.next phase = some phase' ∧ ∀ said ∈ hostPhase hostPoint, phase' = said
  last : ∀ reason ∈ told, ∃ earlier last, frames = earlier ++ [last] ∧ last.reason = some reason
  quiet : told = none → ∀ frame ∈ frames, frame.reason = none

variable {phase phase' : Phase} {frames : List HostFrame} {frame : HostFrame} {hostPoint hostPoint' : HostPoint}
  {told : Option Reason}

theorem Ordered.write (h : Ordered phase frames hostPoint told) {said : Phase} (hsaid : hostPhase hostPoint = some said)
    (hnext : said.next frame = some phase') (hpoint : ∀ said ∈ hostPhase hostPoint', phase' = said)
    (htold : told = none) :
    Ordered phase (frames ++ [frame]) hostPoint' (frame.reason.orElse fun _ => told) := by
  have hreason : (frame.reason.orElse fun _ => told) = frame.reason := by
    rw [htold]
    cases frame.reason <;> rfl
  rw [hreason]
  refine ⟨?_, fun reason hlast => ⟨frames, frame, rfl, hlast⟩, fun hnone other hother => ?_⟩
  · obtain ⟨middle, hmiddle, hhost⟩ := h.leads
    refine ⟨phase', ?_, hpoint⟩
    rw [foldlM_append, hmiddle, hhost said hsaid]
    exact (congrArg (· >>= pure) hnext).trans rfl
  · rcases mem_append.mp hother with hold | hnew
    · exact h.quiet htold other hold
    · rw [mem_singleton.mp hnew]
      exact hnone

theorem Ordered.ends (h : Ordered phase frames hostPoint told) (hpoint : hostPhase hostPoint' = none) :
    Ordered phase frames hostPoint' told := by
  obtain ⟨phase', hleads, -⟩ := h.leads
  refine ⟨⟨phase', hleads, fun said hsaid => ?_⟩, h.last, h.quiet⟩
  rw [hpoint] at hsaid
  cases hsaid

/-- The client takes the first frame. If it gives a reason there is no other. -/
theorem Ordered.read (h : Ordered phase (frame :: frames) hostPoint told) : ∃ phase', phase.next frame = some phase' ∧
    (frame.reason = none → Ordered phase' frames hostPoint told) ∧
      (frame.reason.isSome = true → frames = [] ∧ told = frame.reason) := by
  obtain ⟨said, hleads, hhost⟩ := h.leads
  rw [foldlM_cons] at hleads
  obtain ⟨phase', hnext, hrest⟩ := bind_eq_some_iff.mp hleads
  refine ⟨phase', hnext, fun hnone => ⟨⟨said, hrest, hhost⟩, fun reason hreason => ?_, fun htold other hother => ?_⟩,
    fun hsome => ?_⟩
  · obtain ⟨earlier, last, hframes, hlast⟩ := h.last reason hreason
    cases earlier with
    | nil =>
      cases hframes
      rw [hnone] at hlast
      cases hlast
    | cons first earlier =>
      obtain ⟨-, hrest⟩ := List.cons.inj hframes
      exact ⟨earlier, last, hrest, hlast⟩
  · exact h.quiet htold other (mem_cons_of_mem _ hother)
  · rw [← Phase.next_ended hnext] at hsome
    have hempty : frames = [] := by
      cases frames with
      | nil => rfl
      | cons second frames =>
        rw [foldlM_cons, hsome, Phase.next_of_ended] at hrest
        cases hrest
    refine ⟨hempty, ?_⟩
    subst hempty
    cases told with
    | none =>
      rw [Phase.next_ended hnext, h.quiet rfl frame mem_cons_self] at hsome
      cases hsome
    | some reason =>
      obtain ⟨earlier, last, hframes, hlast⟩ := h.last reason rfl
      cases earlier with
      | nil =>
        cases hframes
        exact hlast.symm
      | cons => simp at hframes

/-- After the snapshot nothing is refused. -/
theorem Ordered.not_refused (h : Ordered .running frames hostPoint told) : told ≠ some .refused := by
  intro hrefused
  obtain ⟨earlier, last, hframes, hlast⟩ := h.last .refused hrefused
  obtain ⟨phase', hleads, -⟩ := h.leads
  rw [hframes, foldlM_append] at hleads
  obtain ⟨middle, hmiddle, hnext⟩ := bind_eq_some_iff.mp hleads
  have hrunning : middle = .running ∨ middle = .ended := by
    clear hframes hleads hnext
    induction earlier with
    | nil =>
      cases hmiddle
      exact .inl rfl
    | cons first earlier ih =>
      rw [foldlM_cons] at hmiddle
      obtain ⟨second, hsecond, hrest⟩ := bind_eq_some_iff.mp hmiddle
      cases first with
      | event =>
        cases hsecond
        exact ih hrest
      | displaced | exited =>
        cases hsecond
        cases earlier with
        | nil =>
          cases hrest
          exact .inr rfl
        | cons =>
          rw [foldlM_cons, Phase.next_of_ended] at hrest
          cases hrest
      | _ => cases hsecond
  rw [foldlM_cons] at hnext
  obtain ⟨end', hend, -⟩ := bind_eq_some_iff.mp hnext
  rcases hrunning with rfl | rfl
  · cases last with
    | refused => cases hend
    | _ => cases hlast
  · rw [Phase.next_of_ended] at hend
    cases hend

/-! ## The frames for the session of the desktop -/

def sessionNext : SessionPoint → SessionFrame → Option SessionPoint
  | .recovering, .snapshot | .running, .event => some .running
  | _, _ => none

/-- The last frame, and what the session reports when it has read it. -/
def lastReport : SessionFrame → Option Report
  | .stolen => some (.displaced none)
  | .exited => some .exited
  | _ => none

/-- What is shown to the session leads to where its client is, and after that to the reason of the host. -/
structure Shown (session : SessionPoint) (output : List SessionFrame) (point : ClientPoint) (told : Option Reason) :
    Prop where
  unread : point ≠ .ended → ∃ session', output.foldlM sessionNext session = some session' ∧
    session' = if point = .running then .running else .recovering
  last : point = .ended → ∀ reason ∈ told, ∃ earlier last report, output = earlier ++ [last] ∧
    earlier.foldlM sessionNext session = some .running ∧ lastReport last = some report ∧ report.fits reason = true

variable {session : SessionPoint} {output : List SessionFrame} {point : ClientPoint}

/-! ## Runs -/

variable {link link' : Link} {action : LinkAction}

/-- What every run keeps whose steps are allowed. -/
structure Sound (link : Link) : Prop where
  attached : link.kind = .desktop → .detach ∉ link.commands
  bare : link.kind = .portable → link.hello.files.read = false
  asked : ∀ read windows, .capabilities read windows ∈ link.toClient → read = link.hello.files.read
  ordered : link.point ≠ .ended → Ordered (clientPhase link.point) link.toClient link.hostPoint link.told
  /-- The host sends no events to a client that has not adopted. -/
  awake : link.toHost ≠ [] ∨ link.hostPoint = .running → link.point = .running ∨ link.point = .ended
  early : link.point ≠ .running → link.point ≠ .ended → ∀ reason ∈ link.told, reason = .refused
  ended : link.told.isSome = true → link.hostPoint = .ended
  welcome : link.kind = .desktop → link.told ≠ some .refused
  shown : link.kind = .desktop → link.report = none → Shown link.session link.output link.point link.told
  adopting : link.kind = .desktop → link.point ≠ .adopting
  portable : link.kind = .portable → link.point = .ended → link.report.isSome = true
  reported : link.report.isSome = true → link.point = .ended
  fits : ∀ reason ∈ link.told, ∀ report ∈ link.report, report.fits reason = true

theorem start_sound (kind : ClientKind) (host : Host) (hello : Hello) : Sound (start kind host hello) where
  attached _ hmem := by cases hmem
  bare hkind := by
    change kind = .portable at hkind
    unfold start
    rw [if_pos hkind]
  asked _ _ hmem := by cases hmem
  ordered _ :=
    { leads := ⟨.greeting, rfl, fun said hsaid => by cases hsaid; rfl⟩
      last := nofun
      quiet := fun _ _ hframe => by cases hframe }
  awake hawake := by
    rcases hawake with hframes | hrunning
    · exact absurd rfl hframes
    · cases hrunning
  early _ _ _ hreason := by cases hreason
  ended htold := by cases htold
  welcome _ htold := by cases htold
  shown _ _ := ⟨fun _ => ⟨.recovering, rfl, rfl⟩, nofun⟩
  adopting _ hadopting := by cases hadopting
  portable _ hended := by cases hended
  reported hreport := by cases hreport
  fits _ hreason := by cases hreason

theorem Sound.told_eq_none (h : Sound link) (hpoint : link.hostPoint ≠ .ended) : link.told = none := by
  cases htold : link.told with
  | none => rfl
  | some reason => exact absurd (h.ended (by rw [htold]; rfl)) hpoint

theorem Sound.report_eq_none (h : Sound link) (hpoint : link.point ≠ .ended) : link.report = none := by
  cases hreport : link.report with
  | none => rfl
  | some report => exact absurd (h.reported (by rw [hreport]; rfl)) hpoint

/-- The host writes a frame, which ends it if the frame gives a reason. -/
theorem Sound.writes (h : Sound link) {hostPoint : HostPoint} {said : Phase}
    (hsaid : hostPhase link.hostPoint = some said) (hnext : said.next frame = some phase')
    (hpoint : ∀ said ∈ hostPhase hostPoint, phase' = said) (hends : frame.reason.isSome = true → hostPoint = .ended)
    (hrunning : hostPoint = .running → link.hostPoint = .running)
    (hearly : ∀ reason ∈ frame.reason, reason = .refused ∨ link.hostPoint = .running)
    (hwelcome : link.kind = .desktop → frame.reason ≠ some .refused)
    (hasked : ∀ read windows, frame = .capabilities read windows → read = link.hello.files.read) :
    Sound { link.hostWrite frame with hostPoint } := by
  have hhost : link.hostPoint ≠ .ended := by
    intro hended
    rw [hended] at hsaid
    cases hsaid
  have htold := h.told_eq_none hhost
  unfold hostWrite
  by_cases hended : link.point = .ended
  · rw [if_pos hended]
    refine { h with ordered := absurd hended, awake := fun _ => .inr hended, ended := ?_ }
    intro hsome
    dsimp only at hsome
    rw [htold] at hsome
    cases hsome
  · rw [if_neg hended]
    have htold' : (frame.reason.orElse fun _ => link.told) = frame.reason := by
      rw [htold]
      cases frame.reason <;> rfl
    refine { h with
      asked := ?_, ordered := ?_, awake := ?_, early := ?_, ended := ?_, welcome := ?_, shown := ?_, fits := ?_ }
    · intro read windows hmem
      rcases mem_append.mp hmem with hold | hnew
      · exact h.asked read windows hold
      · exact hasked read windows (mem_singleton.mp hnew).symm
    · exact fun hopen => (h.ordered hopen).write hsaid hnext hpoint htold
    · exact fun hawake => h.awake (hawake.imp_right hrunning)
    · intro hnot _ reason hreason
      dsimp only at hreason hnot
      rw [htold'] at hreason
      rcases hearly reason hreason with hrefused | hhostRunning
      · exact hrefused
      · rcases h.awake (.inr hhostRunning) with hrun | hend
        · exact absurd hrun hnot
        · exact absurd hend hended
    · intro hsome
      dsimp only at hsome
      rw [htold'] at hsome
      exact hends hsome
    · intro hkind
      dsimp only
      rw [htold']
      exact hwelcome hkind
    · intro hkind hreport
      exact ⟨(h.shown hkind hreport).unread, fun hend => absurd hend hended⟩
    · intro _ _ report hreport
      dsimp only at hreport
      rw [h.report_eq_none hended] at hreport
      cases hreport

theorem Sound.hostFails (h : Sound link) : Sound { link with hostPoint := .ended } where
  attached := h.attached
  bare := h.bare
  asked := h.asked
  ordered hopen := (h.ordered hopen).ends rfl
  awake hawake := h.awake (hawake.imp_right fun hrunning => by cases hrunning)
  early := h.early
  ended _ := rfl
  welcome := h.welcome
  shown := h.shown
  adopting := h.adopting
  portable := h.portable
  reported := h.reported
  fits := h.fits

theorem Sound.hostRead (h : Sound link) (hread : link.hostRead = some link') : Sound link' := by
  have hmove : ∀ {frames : List ClientFrame} {hostPoint : HostPoint}, link.toHost ≠ [] →
      hostPhase link.hostPoint = some .running → (hostPoint = .running ∨ hostPoint = .ended) →
        Sound { link with toHost := frames, hostPoint } := by
    intro frames hostPoint hne hphase hpoint
    have hhost : link.hostPoint ≠ .ended := by
      intro hended
      rw [hended] at hphase
      cases hphase
    refine { h with ordered := fun hopen => ?_, awake := fun _ => h.awake (.inl hne), ended := fun hsome => ?_ }
    · have hordered := h.ordered hopen
      rcases hpoint with rfl | rfl
      · obtain ⟨phase', hleads, hhostPhase⟩ := hordered.leads
        refine ⟨⟨phase', hleads, fun said hsaid => ?_⟩, hordered.last, hordered.quiet⟩
        cases hsaid
        exact hhostPhase .running hphase
      · exact hordered.ends rfl
    · dsimp only at hsome
      rw [h.told_eq_none hhost] at hsome
      cases hsome
  unfold Link.hostRead at hread
  split at hread
  next frame frames hframes hoffered =>
    cases hread
    refine hmove (by rw [hframes]; exact cons_ne_nil _ _) (by rw [hoffered]; rfl) ?_
    split
    · exact .inl rfl
    · exact .inr rfl
  next frame frames hframes hrunning =>
    cases hread
    refine hmove (by rw [hframes]; exact cons_ne_nil _ _) (by rw [hrunning]; rfl) ?_
    split
    · exact .inl rfl
    · exact .inr rfl
  · cases hread

/-- The client ends when the host has told nothing, or when it has read what the host told. -/
theorem Sound.finishes (h : Sound link) (hopen : link.point ≠ .ended) {output : List SessionFrame}
    {toClient : List HostFrame} {commands toHost : List ClientFrame}
    (hasked : ∀ read windows, .capabilities read windows ∈ toClient → read = link.hello.files.read)
    (hattached : link.kind = .desktop → .detach ∉ commands)
    (hdesktop : link.kind = .desktop → ∀ reason ∈ link.told, ∃ last report, output = link.output ++ [last] ∧
      link.point = .running ∧ lastReport last = some report ∧ report.fits reason = true)
    (hportable : link.kind = .portable → ∀ reason ∈ link.told, report.fits reason = true) :
    Sound (finish { link with output, toClient, commands, toHost } report) where
  attached := hattached
  bare := h.bare
  asked := hasked
  ordered hnot := absurd rfl hnot
  awake _ := .inr rfl
  early _ hnot := absurd rfl hnot
  ended := h.ended
  welcome := h.welcome
  shown hkind hreport := by
    refine ⟨fun hnot => absurd rfl hnot, fun _ reason hreason => ?_⟩
    obtain ⟨last, report, houtput, hrunning, hlast, hfits⟩ := hdesktop hkind reason hreason
    obtain ⟨session', hleads, hsession⟩ := (h.shown hkind (h.report_eq_none hopen)).unread hopen
    rw [if_pos hrunning] at hsession
    exact ⟨link.output, last, report, houtput, hsession ▸ hleads, hlast, hfits⟩
  adopting _ hadopting := by cases hadopting
  portable hkind _ := by
    change link.kind = .portable at hkind
    unfold finish
    rw [if_pos hkind]
    rfl
  reported _ := rfl
  fits reason hreason found hfound := by
    unfold finish at hfound
    dsimp only at hfound
    split at hfound
    next hkind =>
      cases hfound
      exact hportable hkind reason hreason
    · rw [h.report_eq_none hopen] at hfound
      cases hfound

theorem kind_cases (link : Link) : link.kind = .desktop ∨ link.kind = .portable := by
  cases link.kind
  · exact .inl rfl
  · exact .inr rfl

theorem forward_of_desktop {frame : SessionFrame} (hkind : link.kind = .desktop) :
    link.forward frame = { link with output := link.output ++ [frame] } :=
  if_pos hkind

theorem forward_of_portable {frame : SessionFrame} (hkind : link.kind = .portable) : link.forward frame = link := by
  unfold forward
  rw [if_neg]
  rw [hkind]
  intro hdesktop
  cases hdesktop

theorem Sound.told_of_read (h : Sound link) (hopen : link.point ≠ .ended)
    (hframes : link.toClient = frame :: frames) :
    (∀ read windows, .capabilities read windows ∈ frames → read = link.hello.files.read) ∧
      ∃ phase', (clientPhase link.point).next frame = some phase' ∧
        (frame.reason = none → Ordered phase' frames link.hostPoint link.told) ∧
          (frame.reason.isSome = true → frames = [] ∧ link.told = frame.reason) := by
  have hordered := h.ordered hopen
  rw [hframes] at hordered
  exact ⟨fun read windows hmem => h.asked read windows (hframes ▸ mem_cons_of_mem _ hmem), hordered.read⟩

theorem Sound.take_greeting (h : Sound link) (hpoint : link.point = .greeting)
    (hframes : link.toClient = frame :: frames) : Sound (take { link with toClient := frames } frame) := by
  have hopen : link.point ≠ .ended := by rw [hpoint]; nofun
  obtain ⟨hasked, phase', hnext, hrest, htold⟩ := h.told_of_read hopen hframes
  rw [hpoint] at hnext
  unfold take
  rw [hpoint]
  cases frame with
  | refused =>
    obtain ⟨-, htold⟩ := htold rfl
    rcases kind_cases link with hkind | hkind
    · exact absurd htold (h.welcome hkind)
    · dsimp only
      rw [forward_of_portable (by exact hkind)]
      refine h.finishes hopen hasked h.attached (fun hdesktop => nomatch hkind.symm.trans hdesktop)
        fun _ reason hreason => ?_
      rw [htold] at hreason
      cases hreason
      rfl
  | capabilities read windows =>
    cases hnext
    have hread : read = link.hello.files.read := h.asked read windows (hframes ▸ mem_cons_self)
    dsimp only
    split
    · refine { h with
        asked := hasked
        ordered := fun _ => hrest rfl
        awake := ?_
        early := ?_
        shown := ?_
        adopting := nofun
        portable := nofun
        reported := ?_ }
      · intro hawake
        rcases h.awake hawake with hrunning | hended
        · rw [hpoint] at hrunning
          cases hrunning
        · exact absurd hended hopen
      · intro _ _ reason hreason
        exact h.early (by rw [hpoint]; nofun) hopen reason hreason
      · intro hkind hreport
        obtain ⟨session', hleads, hsession⟩ := (h.shown hkind hreport).unread hopen
        rw [hpoint] at hsession
        exact ⟨fun _ => ⟨session', hleads, hsession⟩, nofun⟩
      · intro hreport
        exact absurd (h.reported hreport) hopen
    next hincapable =>
      have hnone : link.told = none := by
        cases htold' : link.told with
        | none => rfl
        | some reason =>
          have hrefused := h.early (by rw [hpoint]; nofun) hopen reason htold'
          rw [hrefused] at htold'
          rcases kind_cases link with hkind | hkind
          · exact absurd htold' (h.welcome hkind)
          · refine absurd ?_ hincapable
            unfold capable
            dsimp only
            rw [hkind, hread, h.bare hkind]
            rfl
      refine h.finishes hopen hasked h.attached (fun _ reason hreason => ?_) fun _ reason hreason => ?_
      all_goals
        rw [hnone] at hreason
        cases hreason
  | _ => cases hnext

theorem Shown.snoc (h : Shown session output point told) (hopen : point ≠ .ended) {frame : SessionFrame}
    {point' : ClientPoint} (hnext : sessionNext (if point = .running then .running else .recovering) frame =
      some (if point' = .running then .running else .recovering)) (hopen' : point' ≠ .ended) :
    Shown session (output ++ [frame]) point' told := by
  refine ⟨fun _ => ?_, fun hended => absurd hended hopen'⟩
  obtain ⟨session', hleads, rfl⟩ := h.unread hopen
  refine ⟨_, ?_, rfl⟩
  rw [foldlM_append, hleads]
  exact (congrArg (· >>= pure) hnext).trans rfl

theorem Sound.take_admitted (h : Sound link) (hpoint : link.point = .admitted)
    (hframes : link.toClient = frame :: frames) : Sound (take { link with toClient := frames } frame) := by
  have hopen : link.point ≠ .ended := by rw [hpoint]; nofun
  obtain ⟨hasked, phase', hnext, hrest, htold⟩ := h.told_of_read hopen hframes
  rw [hpoint] at hnext
  have hawake : ∀ {holds : Prop}, link.toHost ≠ [] ∨ link.hostPoint = .running → holds := by
    intro holds hawake
    rcases h.awake hawake with hrunning | hended
    · rw [hpoint] at hrunning
      cases hrunning
    · exact absurd hended hopen
  unfold take
  rw [hpoint]
  cases frame with
  | refused =>
    obtain ⟨-, htold⟩ := htold rfl
    refine h.finishes hopen hasked h.attached (fun hkind => absurd htold (h.welcome hkind)) fun _ reason hreason => ?_
    rw [htold] at hreason
    cases hreason
    rfl
  | snapshot =>
    cases hnext
    have hordered := hrest rfl
    rcases kind_cases link with hkind | hkind
    · dsimp only
      rw [forward_of_desktop (by exact hkind), if_pos (by exact hkind)]
      refine { h with
        asked := hasked
        ordered := fun _ => hordered
        awake := fun _ => .inl rfl
        early := absurd rfl
        shown := fun _ hreport => ?_
        adopting := nofun
        portable := nofun
        reported := fun hreport => absurd (h.reported hreport) hopen }
      exact (h.shown hkind hreport).snoc hopen (by rw [hpoint]; rfl) nofun
    · dsimp only
      rw [forward_of_portable (by exact hkind)]
      rw [if_neg (by intro hdesktop; rw [hkind] at hdesktop; cases hdesktop)]
      refine { h with
        asked := hasked
        ordered := fun _ => hordered
        awake := hawake
        early := fun _ _ => h.early (by rw [hpoint]; nofun) hopen
        shown := fun hdesktop => nomatch hkind.symm.trans hdesktop
        adopting := fun hdesktop => nomatch hkind.symm.trans hdesktop
        portable := nofun
        reported := fun hreport => absurd (h.reported hreport) hopen }
  | _ => cases hnext

theorem Sound.take_running (h : Sound link) (hpoint : link.point = .running)
    (hframes : link.toClient = frame :: frames) : Sound (take { link with toClient := frames } frame) := by
  have hopen : link.point ≠ .ended := by rw [hpoint]; nofun
  obtain ⟨hasked, phase', hnext, hrest, htold⟩ := h.told_of_read hopen hframes
  rw [hpoint] at hnext
  -- The last frame of the host, and the frame and the report that it becomes.
  have hlast : ∀ {last : SessionFrame} {report sessionReport : Report}, frame.reason.isSome = true →
      lastReport last = some sessionReport → (∀ reason ∈ frame.reason, report.fits reason = true ∧
        sessionReport.fits reason = true) → Sound ((forward { link with toClient := frames } last).finish report) := by
    intro last report sessionReport hsome hreport hfits
    obtain ⟨-, htold⟩ := htold hsome
    rcases kind_cases link with hkind | hkind
    · rw [forward_of_desktop (by exact hkind)]
      refine h.finishes hopen hasked h.attached (fun _ reason hreason => ?_) fun hportable => ?_
      · rw [htold] at hreason
        exact ⟨last, sessionReport, rfl, hpoint, hreport, (hfits reason hreason).2⟩
      · rw [hkind] at hportable
        cases hportable
    · rw [forward_of_portable (by exact hkind)]
      refine h.finishes hopen hasked h.attached (fun hdesktop => ?_) fun _ reason hreason => ?_
      · rw [hkind] at hdesktop
        cases hdesktop
      · rw [htold] at hreason
        exact (hfits reason hreason).1
  unfold take
  rw [hpoint]
  cases frame with
  | event =>
    cases hnext
    have hordered := hrest rfl
    have hordered' : link.point ≠ .ended → Ordered (clientPhase link.point) frames link.hostPoint link.told := by
      intro _
      rw [hpoint]
      exact hordered
    rcases kind_cases link with hkind | hkind
    · dsimp only
      rw [← hpoint, forward_of_desktop (by exact hkind)]
      refine { h with asked := hasked, ordered := hordered', shown := fun _ hreport => ?_ }
      exact (h.shown hkind hreport).snoc hopen (by rw [hpoint]; rfl) hopen
    · dsimp only
      rw [← hpoint, forward_of_portable (by exact hkind)]
      exact { h with asked := hasked, ordered := hordered' }
  | displaced code =>
    dsimp only
    rw [← hpoint]
    refine hlast rfl rfl fun reason hreason => ?_
    cases hreason
    exact ⟨by simp [Report.fits], rfl⟩
  | exited =>
    dsimp only
    rw [← hpoint]
    refine hlast rfl rfl fun reason hreason => ?_
    cases hreason
    exact ⟨rfl, rfl⟩
  | _ => cases hnext

theorem Sound.read (h : Sound link) (hread : link.read = some link') : Sound link' := by
  unfold Link.read at hread
  split at hread
  · cases hread
  next frame frames hframes =>
    split at hread
    · cases hread
    next hnot =>
      cases hread
      have hpoints : link.point = .greeting ∨ link.point = .admitted ∨ link.point = .running := by
        cases hpoint : link.point with
        | greeting => exact .inl rfl
        | admitted => exact .inr (.inl rfl)
        | running => exact .inr (.inr rfl)
        | adopting => exact absurd (.inl hpoint) hnot
        | ended => exact absurd (.inr hpoint) hnot
      rcases hpoints with hpoint | hpoint | hpoint
      · exact h.take_greeting hpoint hframes
      · exact h.take_admitted hpoint hframes
      · exact h.take_running hpoint hframes

theorem Sound.write (h : Sound link) (hwrite : link.write = some link') : Sound link' := by
  unfold Link.write at hwrite
  split at hwrite
  next frame commands hcommands hpoint =>
    have hopen : link.point ≠ .ended := by
      rw [hpoint]
      intro hended
      cases hended
    have hattached : link.kind = .desktop → .detach ∉ commands := fun hkind hmem =>
      h.attached hkind (hcommands ▸ mem_cons_of_mem _ hmem)
    cases hwrite
    split
    next hdetach =>
      refine h.finishes hopen h.asked hattached (fun hkind => ?_) fun _ _ _ => rfl
      exact absurd (hcommands ▸ hdetach ▸ mem_cons_self) (h.attached hkind)
    · exact { h with attached := hattached, awake := fun _ => .inl hpoint }
  next frame commands hcommands hpoint =>
    have hopen : link.point ≠ .ended := by
      rw [hpoint]
      intro hended
      cases hended
    have hattached : link.kind = .desktop → .detach ∉ commands := fun hkind hmem =>
      h.attached hkind (hcommands ▸ mem_cons_of_mem _ hmem)
    have hdesktop : ∀ {holds : Prop}, link.kind = .desktop → holds := fun hkind =>
      absurd hpoint (h.adopting hkind)
    split at hwrite
    · cases hwrite
      refine { h with
        attached := hattached
        ordered := fun _ => ?_
        awake := fun _ => .inl rfl
        early := absurd rfl
        shown := hdesktop
        adopting := hdesktop
        portable := nofun
        reported := fun hreport => absurd (h.reported hreport) hopen }
      have hordered := h.ordered hopen
      rw [hpoint] at hordered
      exact hordered
    · cases hwrite
      exact h.finishes hopen h.asked hattached hdesktop fun _ _ _ => rfl
    · cases hwrite
      exact { h with attached := hattached }
  · cases hwrite

theorem Sound.fails (h : Sound link) (hopen : link.point ≠ .ended) (hallows : link.Allows .fail) :
    Sound (link.finish .lost) := by
  have hnone : link.told = none := by
    cases htold : link.told with
    | none => rfl
    | some reason =>
      obtain ⟨earlier, last, hframes, hlast⟩ := (h.ordered hopen).last reason htold
      have hmem : last ∈ link.toClient := by
        rw [hframes]
        exact mem_append_right _ mem_cons_self
      rw [hallows last hmem] at hlast
      cases hlast
  refine h.finishes hopen h.asked h.attached (fun _ reason hreason => ?_) fun _ reason hreason => ?_
  · rw [hnone] at hreason
    cases hreason
  · rw [hnone] at hreason
    cases hreason

theorem Sound.endSession (h : Sound link) (hfits : ∀ reason ∈ link.told, report.fits reason = true) :
    Sound (endSession { link with output } report) where
  attached := h.attached
  bare := h.bare
  asked := h.asked
  ordered hnot := absurd rfl hnot
  awake _ := .inr rfl
  early _ hnot := absurd rfl hnot
  ended := h.ended
  welcome := h.welcome
  shown _ hreport := by cases hreport
  adopting _ hadopting := by cases hadopting
  portable _ _ := rfl
  reported _ := rfl
  fits reason hreason found hfound := by
    cases hfound
    exact hfits reason hreason

theorem sessionTake_of_next {frame : SessionFrame} {session' : SessionPoint}
    (h : sessionNext link.session frame = some session') :
    link.sessionTake frame = { link with session := session' } := by
  unfold sessionNext at h
  unfold sessionTake
  split at h
  next hsession =>
    cases h
    rw [hsession]
  next hsession =>
    cases h
    rw [hsession]
    dsimp only
    rw [← hsession]
  · cases h

theorem sessionTake_last {frame : SessionFrame} (hsession : link.session = .running)
    (hlast : lastReport frame = some report) : link.sessionTake frame = link.endSession report := by
  unfold sessionTake
  rw [hsession]
  cases frame <;> cases hlast <;> rfl

theorem sessionTake_cases (link : Link) (frame : SessionFrame) :
    (∃ session', link.sessionTake frame = { link with session := session' }) ∨
      ∃ report, link.sessionTake frame = link.endSession report := by
  unfold sessionTake
  split
  · exact .inl ⟨_, rfl⟩
  · exact .inl ⟨_, rfl⟩
  · exact .inl ⟨link.session, rfl⟩
  · exact .inr ⟨_, rfl⟩
  · exact .inr ⟨_, rfl⟩
  · exact .inl ⟨link.session, rfl⟩

theorem Sound.sessionRead (h : Sound link) (hread : link.sessionRead = some link') : Sound link' := by
  unfold Link.sessionRead at hread
  split at hread
  next frame frames hkind hreport houtput =>
    cases hread
    have hshown := h.shown hkind hreport
    rw [houtput] at hshown
    by_cases hended : link.point = .ended
    · rcases eq_none_or_eq_some link.told with htold | ⟨reason, htold⟩
      · have hnone : ∀ {holds : Reason → Prop}, ∀ reason ∈ link.told, holds reason := by
          intro _ reason hreason
          rw [htold] at hreason
          cases hreason
        have hmoved : ∀ session', Sound { link with output := frames, session := session' } := fun session' =>
          { h with shown := fun _ _ => ⟨fun hopen => absurd hended hopen, fun _ => hnone⟩ }
        rcases sessionTake_cases { link with output := frames } frame with ⟨session', hsession⟩ | ⟨report, hreport⟩
        · rw [hsession]
          exact hmoved session'
        · rw [hreport]
          exact (hmoved link.session).endSession hnone
      · obtain ⟨earlier, last, report, hframes, hleads, hlast, hfits⟩ := hshown.last hended reason htold
        have hreason : ∀ found ∈ link.told, found = reason := by
          intro found hfound
          rw [htold] at hfound
          exact (some.inj hfound).symm
        cases earlier with
        | nil =>
          cases hframes
          rw [sessionTake_last (by exact some.inj hleads) hlast]
          exact h.endSession fun found hfound => hreason found hfound ▸ hfits
        | cons first earlier =>
          obtain ⟨rfl, hrest⟩ := List.cons.inj hframes
          rw [foldlM_cons] at hleads
          obtain ⟨middle, hnext, hleads⟩ := bind_eq_some_iff.mp hleads
          rw [sessionTake_of_next (by exact hnext)]
          refine { h with shown := fun _ _ => ⟨fun hopen => absurd hended hopen, fun _ found hfound => ?_⟩ }
          exact ⟨earlier, last, report, hrest, hleads, hlast, hreason found hfound ▸ hfits⟩
    · obtain ⟨session', hleads, hsession⟩ := hshown.unread hended
      rw [foldlM_cons] at hleads
      obtain ⟨middle, hnext, hrest⟩ := bind_eq_some_iff.mp hleads
      rw [sessionTake_of_next (by exact hnext)]
      exact { h with shown := fun _ _ => ⟨fun _ => ⟨session', hrest, hsession⟩, fun hend => absurd hend hended⟩ }
  next hkind hreport houtput =>
    split at hread
    next hended =>
      cases hread
      refine h.endSession fun reason hreason => ?_
      obtain ⟨earlier, last, report, hframes, -⟩ := (h.shown hkind hreport).last hended reason hreason
      rw [houtput] at hframes
      simp at hframes
    · cases hread
  · cases hread

theorem Sound.command (h : Sound link) {frame : ClientFrame} (hallows : link.Allows (.command frame))
    (hcommand : link.command frame = some link') : Sound link' := by
  unfold Link.command at hcommand
  split at hcommand
  next hkind hreport =>
    split at hcommand
    · cases hcommand
    next hnot =>
      rw [not_or] at hnot
      split at hcommand
      next hended =>
        cases hcommand
        refine h.endSession fun reason hreason => ?_
        obtain ⟨earlier, last, report, houtput, -, hlast, -⟩ := (h.shown hkind hreport).last hended reason hreason
        have hmem : last ∈ link.output := by
          rw [houtput]
          exact mem_append_right _ mem_cons_self
        have hopen := hallows hended last hmem
        cases last <;> cases hlast <;> cases hopen
      · cases hcommand
        refine { h with attached := fun _ hmem => ?_ }
        rcases mem_append.mp hmem with hold | hnew
        · exact h.attached hkind hold
        · exact hnot.2 (mem_singleton.mp hnew).symm
  next hkind hreport =>
    cases hcommand
    refine { h with attached := fun hdesktop => ?_ }
    rw [hkind] at hdesktop
    cases hdesktop
  · cases hcommand

theorem Sound.accepts (h : Sound link) (hwaiting : link.hostPoint = .waiting) (hallows : link.Allows .accept) :
    Sound link.accept := by
  have hsaid : hostPhase link.hostPoint = some .greeting := by
    rw [hwaiting]
    rfl
  unfold Link.accept
  split
  · refine h.writes hsaid rfl ?_ nofun nofun
      nofun nofun ?_
    · rintro said ⟨⟩
      rfl
    · rintro read windows ⟨⟩
      rfl
  next hrefused =>
    refine h.writes hsaid rfl nofun (fun _ => rfl) nofun ?_
      (fun hkind => absurd (hallows hkind) hrefused) nofun
    rintro reason ⟨⟩
    exact .inl rfl

theorem Sound.admits (h : Sound link) {admitted : Bool} (hadmitting : link.hostPoint = .admitting)
    (hallows : link.Allows (.admitClient admitted)) : Sound (link.admitClient admitted) := by
  have hsaid : hostPhase link.hostPoint = some .admitted := by
    rw [hadmitting]
    rfl
  unfold Link.admitClient
  split
  · have htold : link.told = none := h.told_eq_none (by rw [hadmitting]; intro hended; cases hended)
    refine { h with ordered := fun hopen => ?_, awake := fun hawake => ?_, ended := fun hsome => ?_ }
    · obtain ⟨⟨phase', hleads, hhost⟩, hlast, hquiet⟩ := h.ordered hopen
      refine ⟨⟨phase', hleads, fun said hattached => ?_⟩, hlast, hquiet⟩
      cases hattached
      exact hhost .admitted hsaid
    · exact h.awake (hawake.imp_right fun hrunning => by cases hrunning)
    · dsimp only at hsome
      rw [htold] at hsome
      cases hsome
  next hrefused =>
    refine h.writes hsaid rfl nofun (fun _ => rfl) nofun ?_
      (fun hkind => absurd (hallows hkind) hrefused) nofun
    rintro reason ⟨⟩
    exact .inl rfl

theorem Sound.says (h : Sound link) (hrunning : link.hostPoint = .running)
    (hnext : Phase.next .running frame = some phase') (hdesktop : frame.reason ≠ some .refused)
    {hostPoint : HostPoint} (hends : hostPoint = if frame.reason.isSome then .ended else .running) :
    Sound { link.hostWrite frame with hostPoint } := by
  have hsaid : hostPhase link.hostPoint = some .running := by
    rw [hrunning]
    rfl
  refine h.writes hsaid hnext ?_ (fun hsome => by rw [hends, if_pos hsome]) (fun _ => hrunning)
    (fun _ _ => .inr hrunning)
    (fun _ => hdesktop) ?_
  · intro said hhost
    rw [hends] at hhost
    cases frame <;> cases hnext <;> cases hhost
    rfl
  · rintro read windows rfl
    cases hnext

theorem Sound.step (h : Sound link) (hallows : link.Allows action) (hstep : link.step action = some link') :
    Sound link' := by
  unfold Link.step at hstep
  split at hstep
  · obtain ⟨hwaiting, hlink⟩ := ite_none_right_eq_some.mp hstep
    cases hlink
    exact h.accepts hwaiting hallows
  · obtain ⟨hadmitting, hlink⟩ := ite_none_right_eq_some.mp hstep
    cases hlink
    exact h.admits hadmitting hallows
  · obtain ⟨hattached, hlink⟩ := ite_none_right_eq_some.mp hstep
    cases hlink
    refine h.writes (by rw [hattached]; rfl) rfl ?_ nofun
      nofun nofun nofun
      nofun
    rintro said ⟨⟩
    rfl
  · exact h.hostRead hstep
  · obtain ⟨hrunning, hlink⟩ := ite_none_right_eq_some.mp hstep
    cases hlink
    have hpoint : (link.hostWrite .event).hostPoint = .running := by
      unfold hostWrite
      split <;> exact hrunning
    have hsays : Sound { link.hostWrite .event with hostPoint := (link.hostWrite .event).hostPoint } :=
      h.says hrunning rfl (fun hreason => by cases hreason) hpoint
    exact hsays
  · obtain ⟨hrunning, hlink⟩ := ite_none_right_eq_some.mp hstep
    cases hlink
    exact h.says hrunning rfl (fun hreason => by cases hreason) rfl
  · obtain ⟨hrunning, hlink⟩ := ite_none_right_eq_some.mp hstep
    cases hlink
    exact h.says hrunning rfl (fun hreason => by cases hreason) rfl
  · cases hstep
    exact h.hostFails
  · exact h.read hstep
  · exact h.write hstep
  · obtain ⟨hopen, hlink⟩ := ite_none_left_eq_some.mp hstep
    cases hlink
    exact h.fails hopen hallows
  · obtain ⟨-, hlink⟩ := ite_none_left_eq_some.mp hstep
    cases hlink
    exact h.endSession fun _ _ => rfl
  · exact h.sessionRead hstep
  · exact h.command hallows hstep

theorem Sound.reportsReason (h : Sound link) : ReportsReason link where
  fits := h.fits
  reads htold hreport := by
    obtain ⟨reason, hreason⟩ := isSome_iff_exists.mp htold
    by_cases hended : link.point = .ended
    · rcases kind_cases link with hkind | hkind
      · right
        unfold Link.sessionRead
        rw [hkind, hreport]
        cases link.output with
        | nil =>
          dsimp only
          rw [if_pos hended]
          rfl
        | cons => rfl
      · have hsome := h.portable hkind hended
        rw [hreport] at hsome
        cases hsome
    · left
      have hordered := h.ordered hended
      have hreads : link.point ≠ .adopting := by
        intro hadopting
        have hrefused := h.early (by rw [hadopting]; intro hrunning; cases hrunning) hended reason hreason
        rw [hadopting] at hordered
        exact hordered.not_refused (hrefused ▸ hreason)
      obtain ⟨earlier, last, hframes, -⟩ := hordered.last reason hreason
      unfold Link.read
      cases hclient : link.toClient with
      | nil =>
        rw [hclient] at hframes
        simp at hframes
      | cons =>
        dsimp only
        rw [if_neg (not_or.mpr ⟨hreads, hended⟩)]
        rfl

/-- In every run whose steps are allowed. -/
theorem link_reports_reason {kind : ClientKind} {host : Host} {hello : Hello}
    (h : Runs.Reaches step Allows (start kind host hello) link) : ReportsReason link := by
  have hsound : Sound link :=
    h.invariant (start_sound kind host hello) fun hsound hallows hstep => hsound.step hallows hstep
  exact hsound.reportsReason

def letIn : List LinkAction :=
  [.accept, .admitClient true, .offer, .read, .read, .sessionRead, .command .adopted, .write, .hostRead]

/-- A local client takes over while the portable client is writing. -/
def displacedRun : List LinkAction :=
  [.accept, .admitClient true, .offer, .read, .read, .command .adopted, .write, .hostRead, .command .command,
    .displace .local, .write, .read]

def plainHello : Hello where
  files := { read := false, windowsPaths := false }
  takeover := false
  version := 1
  snapshotSchema := 3
  target := Host.reference.target
  client := none

def staleHello : Hello := { plainHello with target := { Host.reference.target with pid := 8 } }

theorem displaced_run_reports_reason : ∃ link, Runs.Reaches step Allows (start .portable .reference plainHello) link ∧
    link.told = some (.displaced .local) ∧ link.report = some (.displaced (some .local)) ∧ ReportsReason link := by
  have hruns : ((displacedRun.foldlM (fun link action =>
      if decide (Allows link action) then step link action else none) (start .portable .reference plainHello)).map
        fun link => (link.told, link.report)) =
          some (some (.displaced .local), some (.displaced (some .local))) := by
    decide +kernel
  obtain ⟨link, hrun, hresult⟩ := map_eq_some_iff.mp hruns
  obtain ⟨htold, hreport⟩ := Prod.mk.inj hresult
  have hreaches : Runs.Reaches step Allows (start .portable .reference plainHello) link :=
    Runs.reaches_of_checked (fun _ _ => of_decide_eq_true) hrun
  exact ⟨link, hreaches, htold, hreport, link_reports_reason hreaches⟩

def refusedRun : List LinkAction := [.accept, .read, .admitClient false, .read, .sessionRead]

def greetedRun : List LinkAction := [.accept, .read, .sessionRead, .sessionRead]

/-- A write of the portable client fails while DISPLACED is on its way. -/
def racedRun : List LinkAction :=
  [.accept, .admitClient true, .offer, .read, .read, .command .adopted, .write, .hostRead, .command .command,
    .displace .local, .fail]

def brokenPipeRun : List LinkAction := letIn ++ [.displace .local, .read, .command .command]

theorem reasons_are_lost :
    (∃ link, Runs.Reaches step (fun _ _ => True) (start .desktop .reference plainHello) link ∧
      link.told = some .refused ∧ link.report = some .lost) ∧
    (∃ link, Runs.Reaches step (fun _ _ => True) (start .desktop .reference staleHello) link ∧
      link.told = some .refused ∧ link.report = some .lost) ∧
    (∃ link, Runs.Reaches step (fun _ _ => True) (start .portable .reference plainHello) link ∧
      link.told = some (.displaced .local) ∧ link.report = some .lost) ∧
    ∃ link, Runs.Reaches step (fun _ _ => True) (start .desktop .reference plainHello) link ∧
      link.told = some (.displaced .local) ∧ link.report = some .lost := by
  refine ⟨?_, ?_, ?_, ?_⟩
  · have hrefused : (refusedRun.foldlM step (start .desktop .reference plainHello)).any (fun link =>
        decide (link.told = some .refused ∧ link.report = some .lost)) = true := by
      decide +kernel
    obtain ⟨link, hreaches, hcheck⟩ := Runs.exists_of_foldlM hrefused
    exact ⟨link, hreaches, of_decide_eq_true hcheck⟩
  · have hgreeted : (greetedRun.foldlM step (start .desktop .reference staleHello)).any
        (fun link => decide (link.told = some .refused ∧ link.report = some .lost)) = true := by
      decide +kernel
    obtain ⟨link, hreaches, hcheck⟩ := Runs.exists_of_foldlM hgreeted
    exact ⟨link, hreaches, of_decide_eq_true hcheck⟩
  · have hraced : (racedRun.foldlM step (start .portable .reference plainHello)).any (fun link =>
        decide (link.told = some (.displaced .local) ∧ link.report = some .lost)) = true := by
      decide +kernel
    obtain ⟨link, hreaches, hcheck⟩ := Runs.exists_of_foldlM hraced
    exact ⟨link, hreaches, of_decide_eq_true hcheck⟩
  · have hbroken : (brokenPipeRun.foldlM step (start .desktop .reference plainHello)).any (fun link =>
        decide (link.told = some (.displaced .local) ∧ link.report = some .lost)) = true := by
      decide +kernel
    obtain ⟨link, hreaches, hcheck⟩ := Runs.exists_of_foldlM hbroken
    exact ⟨link, hreaches, of_decide_eq_true hcheck⟩

end Link

end FesTerm.TunnelBridge
