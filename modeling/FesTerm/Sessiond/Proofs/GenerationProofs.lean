import FesTerm.Sessiond.Proofs.DaemonProofs

/-!
# Proofs: generations

Commands of all clients share one queue, and the generation of a command decides whether it counts. As
long as no worker is started after a replacement that failed, the clients are numbered one by one, so
that the generation names the client. A candidate that fails leaves its number to the next one: should
it adopt late, what it sends is taken for the commands of its successor.
-/

namespace FesTerm

open Relation List

namespace Daemon

/-- Only the attached client types. -/
structure TypedByTheActive (daemon : Daemon) : Prop where
  /-- What was handed to the shell came from the client that was active at that moment, or is a reply
  of the daemon's own terminal. -/
  handed : ∀ entry ∈ daemon.handed, ∀ sender, entry.1 = some sender → entry.2.1 = some sender
  replies : ∀ entry ∈ daemon.handed, entry.1 = none → ∃ data, entry.2.2 = .input data
  distinct : ∀ (index other : Nat) (client client' : Connection),
    daemon.connections[index]? = some client → daemon.connections[other]? = some client' →
    client.generation = client'.generation → index = other

/-- The step starts a worker for another client. -/
def StartsWorker [Platform] [Bincode] [RecoveryCodec] (daemon : Daemon) (step : DaemonStep) : Prop :=
  ∃ daemon', daemon.step step = some daemon' ∧ daemon.connections.length < daemon'.connections.length

/-- No client was cancelled. -/
def NoneFailed (daemon : Daemon) : Prop := ∀ client ∈ daemon.connections, client.cancelled = false

def marks (daemon : Daemon) : List (Nat × Bool) :=
  daemon.connections.map fun client => (client.generation, client.cancelled)

/-- The clients are numbered in the order in which they came. -/
structure Numbered (daemon : Daemon) : Prop where
  number : ∀ index mark, daemon.marks[index]? = some mark → mark.1 = index + 1
  /-- A candidate is the last client, and none has failed before it. -/
  candidate : ∀ candidate, daemon.point.candidate = some candidate →
    daemon.marks.length = daemon.nextGeneration ∧ candidate + 1 = daemon.marks.length ∧
      daemon.marks.any Prod.snd = false
  /-- Unless one has failed, a client comes next. -/
  settled : daemon.point.candidate = none → daemon.marks.any Prod.snd = false →
    daemon.marks.length + 1 = daemon.nextGeneration
  queue : ∀ entry ∈ daemon.input.items, entry.2.generation = entry.1 + 1
  handed : ∀ entry ∈ daemon.handed, ∀ sender, entry.1 = some sender → entry.2.1 = some sender
  replies : ∀ entry ∈ daemon.handed, entry.1 = none → ∃ data, entry.2.2 = .input data

section

variable {daemon daemon' : Daemon}

variable {index : Nat} {client : Connection}

theorem marks_modifyClient {change : Connection → Connection}
    (h : ∀ client, (change client).generation = client.generation ∧
      (change client).cancelled = client.cancelled) : (daemon.modifyClient index change).marks = daemon.marks :=
  map_modifyClient_of_eq fun client _ => by rw [(h client).1, (h client).2]

theorem marks_getElem? (h : daemon.connections[index]? = some client) :
    daemon.marks[index]? = some (client.generation, client.cancelled) := by
  rw [marks, getElem?_map, h]
  rfl

theorem Numbered.same (h : daemon.Numbered) (hmarks : daemon'.marks = daemon.marks)
    (hcandidate : daemon'.point.candidate = daemon.point.candidate)
    (hnext : daemon'.nextGeneration = daemon.nextGeneration)
    (hqueue : ∀ entry ∈ daemon'.input.items, entry ∈ daemon.input.items)
    (hhanded : daemon'.handed = daemon.handed) : daemon'.Numbered := by
  constructor
  · rw [hmarks]
    exact h.number
  · rw [hmarks, hcandidate, hnext]
    exact h.candidate
  · rw [hmarks, hcandidate, hnext]
    exact h.settled
  · exact fun entry hentry => h.queue entry (hqueue entry hentry)
  · rw [hhanded]
    exact h.handed
  · rw [hhanded]
    exact h.replies

theorem Numbered.start (processId daemonGeneration : Nat) (terminal : Terminal) :
    (start processId daemonGeneration terminal).Numbered where
  number _ _ h := by cases h
  candidate _ h := by cases h
  settled _ _ := rfl
  queue _ h := by cases h
  handed _ h := by cases h
  replies _ h := by cases h

variable [Platform] [Bincode]

omit [Platform] [Bincode] in
theorem Numbered.typed (h : daemon.Numbered) {sender : Nat}
    {input : ClientInput} {channel : Channel (Nat × ClientInput)} {command : ClientCommand}
    (hitems : daemon.input.items = (sender, input) :: channel.items)
    (hactive : daemon.active = some index) (hclient : daemon.connections[index]? = some client)
    (hgeneration : client.generation = input.generation) :
    ({ daemon with input := channel }.handOver (some sender) command).Numbered := by
  have hsender : input.generation = sender + 1 := h.queue (sender, input) (by rw [hitems]; exact .head _)
  have hindex : client.generation = index + 1 := h.number index _ (marks_getElem? hclient)
  have hsame : index = sender := by omega
  refine ⟨h.number, h.candidate, h.settled, fun entry hentry => ?_, fun entry hentry => ?_,
    fun entry hentry hnone => ?_⟩
  · exact h.queue entry (by rw [hitems]; exact .tail _ hentry)
  · intro sender' hsender'
    rcases mem_append.mp hentry with hbefore | hlast
    · exact h.handed entry hbefore sender' hsender'
    · cases mem_singleton.mp hlast
      cases hsender'
      show daemon.active = some sender
      rw [hactive, hsame]
  · rcases mem_append.mp hentry with hbefore | hlast
    · exact h.replies entry hbefore hnone
    · cases mem_singleton.mp hlast
      cases hnone

theorem Numbered.effect (h : daemon.Numbered) (heffect : Effect daemon daemon') : daemon'.Numbered := by
  have hkept (index : Nat) {change : Connection → Connection}
      (hchange : ∀ client, (change client).generation = client.generation ∧
        (change client).cancelled = client.cancelled) :
      (daemon.modifyClient index change).marks = daemon.marks := marks_modifyClient hchange
  cases heffect with
  | moved hcandidate => exact h.same rfl hcandidate rfl (fun _ hentry => hentry) rfl
  | took hrecv =>
    refine h.same rfl rfl rfl (fun entry hentry => ?_) rfl
    rw [Channel.items_of_recv hrecv]
    exact .tail _ hentry
  | typed hrecv hactive hclient hgeneration =>
    exact h.typed (Channel.items_of_recv hrecv) hactive hclient hgeneration
  | replied replies =>
    refine ⟨h.number, h.candidate, h.settled, h.queue, fun entry hentry sender hsender => ?_,
      fun entry hentry hnone => ?_⟩
    · rcases mem_append.mp hentry with hbefore | hlast
      · exact h.handed entry hbefore sender hsender
      · cases mem_singleton.mp hlast
        cases hsender
    · rcases mem_append.mp hentry with hbefore | hlast
      · exact h.replies entry hbefore hnone
      · cases mem_singleton.mp hlast
        exact ⟨replies, rfl⟩
  | alone | stale => exact h.same rfl rfl rfl (fun _ hentry => hentry) rfl
  | lost hcandidate => exact h.same rfl hcandidate.symm rfl (fun _ hentry => hentry) rfl
  | shown | queued =>
    exact h.same (hkept _ fun _ => ⟨rfl, rfl⟩) rfl rfl (fun _ hentry => hentry) rfl
  | gone hactive hheld hretiring hcandidate | flagged hactive hretiring hstolen hcandidate =>
    exact h.same (hkept _ fun _ => ⟨rfl, rfl⟩) hcandidate rfl (fun _ hentry => hentry) rfl
  | dropped hactive hpoint =>
    refine h.same (hkept _ fun _ => ⟨rfl, rfl⟩) ?_ rfl (fun _ hentry => hentry) rfl
    rw [hpoint]
    exact AfterRetire.point_candidate _
  | adopted hpoint | released hpoint | left hpoint =>
    refine h.same (hkept _ fun _ => ⟨rfl, rfl⟩) ?_ rfl (fun _ hentry => hentry) rfl
    rw [hpoint]
    rfl
  | @cancelled candidate hpoint =>
    obtain ⟨hlength, hlast, hnone⟩ := h.candidate candidate (by rw [hpoint]; rfl)
    have hmarks : ((daemon.modifyClient candidate fun client =>
        { client with stolen := true, cancelled := true }).goto (.cancelDrop candidate)).marks =
        daemon.marks.modify candidate fun mark => (mark.1, true) := map_modifyClient fun _ _ => rfl
    have hany : (daemon.marks.modify candidate fun mark => (mark.1, true)).any Prod.snd := by
      rw [List.any_eq_true]
      have hmark : daemon.marks[candidate]? = some (daemon.marks.get ⟨candidate, by omega⟩) :=
        getElem?_eq_getElem _
      refine ⟨((daemon.marks.get ⟨candidate, by omega⟩).1, true), ?_, rfl⟩
      refine mem_of_getElem? (i := candidate) ?_
      rw [getElem?_modify_eq, hmark]
      rfl
    refine ⟨?_, nofun, fun _ hfalse => ?_, h.queue, h.handed, h.replies⟩
    · rw [hmarks]
      intro index mark hmark
      rw [getElem?_modify] at hmark
      obtain ⟨before, hbefore, rfl⟩ := Option.map_eq_some_iff.mp hmark
      have hnumber := h.number index before hbefore
      split <;> exact hnumber
    · rw [hmarks, hany] at hfalse
      cases hfalse
  | @installed candidate hpoint =>
    obtain ⟨hlength, hlast, hnone⟩ := h.candidate candidate (by rw [hpoint]; rfl)
    have hmarks : (daemon.install candidate).marks = daemon.marks := hkept _ fun _ => ⟨rfl, rfl⟩
    refine ⟨?_, nofun, fun _ _ => ?_, h.queue, h.handed, h.replies⟩
    · rw [hmarks]
      exact h.number
    · rw [hmarks, hlength]
      rfl
  | closed hpoint =>
    refine h.same rfl ?_ rfl (fun _ hentry => hentry) rfl
    rw [hpoint]
    rfl

theorem Numbered.effects (h : daemon.Numbered) (heffects : ReflTransGen Effect daemon daemon') :
    daemon'.Numbered := by
  induction heffects with
  | refl => exact h
  | tail _ heffect ih => exact ih.effect heffect

omit [Platform] in
/-- A worker sends commands under the number of its client. -/
theorem Numbered.worked (h : daemon.Numbered) (hsound : daemon.Sound)
    {answer : IoAnswer} (hclient : daemon.connections[index]? = some client)
    (hworked : Worked daemon index client answer daemon') : daemon'.Numbered := by
  have hloops {loop : IoLoop} (hloop : client.loop.step answer = some loop) :
      loop.generation = client.generation :=
    ((hsound index client hclient).loop.step hloop).held.generation_eq
  cases hworked with
  | @submitted loop input channel result hloop hpoint hsend =>
    have hmarks : (daemon.modifyClient index fun client => { client with loop := loop }).marks =
        daemon.marks := by
      refine map_modifyClient_of_eq fun client' hclient' => ?_
      cases hclient.symm.trans hclient'
      show (loop.generation, _) = (client.generation, _)
      rw [hloops hloop]
    have hready := (hsound index client hclient).loop.ready
    rw [hpoint] at hready
    have hnumber : client.generation = index + 1 := h.number index _ (marks_getElem? hclient)
    have hgeneration : input.generation = index + 1 := hready.2.1.trans hnumber
    have hsending := daemon.input.trySend_sending (index, input)
    rw [hsend] at hsending
    refine ⟨?_, ?_, ?_, fun entry hentry => ?_, h.handed, h.replies⟩
    · exact fun other mark hmark => h.number other mark (hmarks ▸ hmark)
    · exact fun candidate hcandidate => hmarks ▸ h.candidate candidate hcandidate
    · exact fun hcandidate hnone => hmarks ▸ h.settled hcandidate (hmarks ▸ hnone)
    · cases hsending with
      | sent _ hitems =>
        have hentry : entry ∈ channel.items := hentry
        rw [hitems, mem_append] at hentry
        rcases hentry with hbefore | hlast
        · exact h.queue entry hbefore
        · cases mem_singleton.mp hlast
          exact hgeneration
      | full | disconnected => exact h.queue entry hentry
  | @answered _ loop client' hloop hother hanswered =>
    have hcancelled : client'.cancelled = client.cancelled := by
      cases Connection.answered_eq hanswered <;> rfl
    refine h.same ?_ rfl rfl (fun _ hentry => hentry) rfl
    refine map_modifyClient_of_eq fun before hbefore => ?_
    cases hclient.symm.trans hbefore
    show (loop.generation, client'.cancelled) = (client.generation, client.cancelled)
    rw [hloops hloop, hcancelled]

variable [RecoveryCodec]

omit [Bincode] in
theorem Numbered.spawned (h : daemon.Numbered) {attempt : Attempt} {limit : Nat} {kind : AttachKind}
    {recovery : List UInt8} (hspawned : Spawned daemon attempt limit kind recovery daemon')
    (hnone : daemon.NoneFailed) : daemon'.Numbered := by
  have hcandidate : daemon.point.candidate = none := by rw [hspawned.point]; rfl
  have hany : daemon.marks.any Prod.snd = false := by
    rw [List.any_eq_false]
    intro mark hmark
    obtain ⟨client, hclient, rfl⟩ := List.mem_map.mp hmark
    simp [hnone client hclient]
  have hlength := h.settled hcandidate hany
  have hmarks : daemon'.marks = daemon.marks ++ [(daemon.nextGeneration, false)] := by
    rw [hspawned.result, marks, map_append]
    rfl
  have hconnections : daemon.marks.length = daemon.connections.length := length_map _
  have hany' : daemon'.marks.any Prod.snd = false := by
    rw [hmarks, any_append, hany]
    rfl
  have hlength' : daemon'.marks.length = daemon.marks.length + 1 := by rw [hmarks, length_append]; rfl
  refine ⟨fun index mark hmark => ?_, fun candidate hpoint => ?_, fun hpoint => ?_, ?_, ?_, ?_⟩
  · rw [hmarks] at hmark
    by_cases hlt : index < daemon.marks.length
    · rw [getElem?_append_left hlt] at hmark
      exact h.number index mark hmark
    · rw [getElem?_append_right (by omega)] at hmark
      have hzero : index - daemon.marks.length = 0 := by
        have hsome := (List.getElem?_eq_some_iff.mp hmark).1
        rw [length_singleton] at hsome
        omega
      rw [hzero] at hmark
      cases hmark
      show daemon.nextGeneration = index + 1
      omega
  · rw [hspawned.result] at hpoint
    cases hpoint
    refine ⟨?_, by omega, hany'⟩
    rw [hlength', hlength, hspawned.result]
  · rw [hspawned.result] at hpoint
    cases hpoint
  · rw [hspawned.result]
    exact h.queue
  · rw [hspawned.result]
    exact h.handed
  · rw [hspawned.result]
    exact h.replies

theorem Numbered.step (h : daemon.Numbered) (hsound : daemon.Sound) {event : DaemonStep}
    (hallowed : daemon.StartsWorker event → daemon.NoneFailed)
    (hstep : daemon.step event = some daemon') : daemon'.Numbered := by
  cases step_stepped hstep with
  | main heffects => exact h.effects heffects
  | spawned hspawned =>
    refine h.spawned hspawned (hallowed ⟨daemon', hstep, ?_⟩)
    rw [hspawned.result, length_append]
    exact Nat.lt_succ_self _
  | worker hclient hworked => exact h.worked hsound hclient hworked

omit [Platform] [Bincode] [RecoveryCodec] in
theorem Numbered.typedByTheActive (h : daemon.Numbered) : daemon.TypedByTheActive := by
  refine ⟨h.handed, h.replies, fun index other client client' hclient hclient' hsame => ?_⟩
  have hnumber : client.generation = index + 1 := h.number index _ (marks_getElem? hclient)
  have hnumber' : client'.generation = other + 1 := h.number other _ (marks_getElem? hclient')
  omega

end

end Daemon

/-- As long as no worker is started after a replacement that failed, only the attached client types. -/
theorem only_the_attached_client_types [Platform] [Bincode] [RecoveryCodec] {processId daemonGeneration : Nat}
    {terminal : Terminal} {daemon : Daemon}
    (h : Runs.Reaches Daemon.step (fun daemon step => daemon.StartsWorker step → daemon.NoneFailed)
      (.start processId daemonGeneration terminal) daemon) : daemon.TypedByTheActive := by
  have hnumbered : daemon.Numbered := by
    induction h with
    | refl => exact .start _ _ _
    | step hreaches hallowed hstep ih =>
      exact ih.step (Daemon.Sound.reaches (Daemon.Sound.start _ _ _) hreaches) hallowed hstep
  exact hnumbered.typedByTheActive

namespace Daemon

def sessionGrid : Dimensions := ⟨5, 7, 35, by decide, by decide, by decide, by decide⟩

/-- A client that asks for the session of process 1 and generation 1. -/
def attempt : Attempt where
  timeouts := .ok ()
  reads := [.ok (encodeAdmission 1 1 true 1)]
  reply := .ok ()
  spawned := .ok ()

def toAdmission : List DaemonStep :=
  [.main .silent, .main .silent, .main (.handled (.ok ())), .main .silent]

/-- From the admissions to the head of the loop, with no output. -/
def toHead : List DaemonStep :=
  [.main .silent, .main .silent, .main (.pty .empty (.ok ())), .main .silent, .main (.pty .empty (.ok ()))]

/-- A worker sends the snapshot and reads the acknowledgement, with a letter behind it. -/
def sendRecovery (client : Nat) : List DaemonStep :=
  [.flag false, .clock false, .flag false, .silent, .flag false, .flag false, .wrote (.ok 13),
    .flushed (.ok ()), .flag false,
    .read (.ok (encodeFrame frameRecoveryAdopted [] ++ encodeFrame frameInput [97])), .flag false,
    .clock false, .flag false, .silent].map (.worker client)

def adopt (client : Nat) : List DaemonStep := [.sent .sent, .flag false, .silent].map (.worker client)

/-- A first client attaches and types. -/
def firstLetter : List DaemonStep :=
  toAdmission ++ [.main (.accepted attempt)] ++ sendRecovery 0 ++ adopt 0 ++
    [.main .silent, .main .silent, .main .silent, .worker 0 (.sent .sent),
      .main (.refused ⟨.wouldBlock, "Resource temporarily unavailable"⟩)] ++
    toHead ++ toAdmission.dropLast

/-- The wait for a first client runs out just before its worker announces the adoption, and this worker
is held up before it sends the letter. A second client attaches, and then the letter comes. -/
def lateAdoption : List DaemonStep :=
  toAdmission ++ [.main (.accepted attempt)] ++ sendRecovery 0 ++ [.main .silent] ++ adopt 0 ++
    [.main .silent, .main .silent, .main .silent] ++ toHead ++ toAdmission ++
    [.main (.accepted attempt)] ++ sendRecovery 1 ++ adopt 1 ++
    [.main .silent, .main .silent, .main .silent, .worker 0 (.sent .sent),
      .main (.refused ⟨.wouldBlock, "Resource temporarily unavailable"⟩)] ++
    toHead ++ toAdmission.dropLast

end Daemon

theorem only_the_attached_client_types_first :
    letI := Platform.reference
    letI := RecoveryCodec.single (Terminal.new Daemon.sessionGrid) [7]
    letI := Bincode.reference
    ∃ daemon, Runs.Reaches Daemon.step (fun daemon step => daemon.StartsWorker step → daemon.NoneFailed)
        (.start 1 1 (Terminal.new Daemon.sessionGrid)) daemon ∧
      daemon.handed = [(some 0, some 0, .input [97])] ∧ daemon.TypedByTheActive := by
  let _ := Platform.reference
  let _ := RecoveryCodec.single (Terminal.new Daemon.sessionGrid) [7]
  let _ := Bincode.reference
  have hrun : (Daemon.firstLetter.foldlM (fun (daemon : Daemon) step =>
      if daemon.connections.all fun client => !client.cancelled then daemon.step step else none)
      (Daemon.start 1 1 (Terminal.new Daemon.sessionGrid))).map Daemon.handed =
      some [(some 0, some 0, .input [97])] := by decide +kernel
  obtain ⟨daemon, hdaemon, hhanded⟩ := Option.map_eq_some_iff.mp hrun
  have hreaches : Runs.Reaches Daemon.step
      (fun daemon step => daemon.StartsWorker step → daemon.NoneFailed)
      (.start 1 1 (Terminal.new Daemon.sessionGrid)) daemon := by
    refine Runs.reaches_of_checked (fun state event hcheck _ client hclient => ?_) hdaemon
    simpa using List.all_eq_true.mp hcheck client hclient
  exact ⟨daemon, hreaches, hhanded, only_the_attached_client_types hreaches⟩

/-- A letter of the client that was turned away is typed while the other one is attached. -/
theorem turned_away_client_types :
    letI := Platform.reference
    letI := RecoveryCodec.single (Terminal.new Daemon.sessionGrid) [7]
    letI := Bincode.reference
    ∃ daemon, Runs.Reaches Daemon.step (fun _ _ => True)
        (.start 1 1 (Terminal.new Daemon.sessionGrid)) daemon ∧
      daemon.handed = [(some 0, some 1, .input [97])] ∧
      daemon.connections.map Connection.generation = [1, 1] ∧ ¬daemon.TypedByTheActive := by
  let _ := Platform.reference
  let _ := RecoveryCodec.single (Terminal.new Daemon.sessionGrid) [7]
  let _ := Bincode.reference
  have hrun : ((Daemon.start 1 1 (Terminal.new Daemon.sessionGrid)).run Daemon.lateAdoption).map
      (fun daemon => (daemon.handed, daemon.connections.map Connection.generation)) =
      some ([(some 0, some 1, .input [97])], [1, 1]) := by decide +kernel
  obtain ⟨daemon, hdaemon, hend⟩ := Option.map_eq_some_iff.mp hrun
  obtain ⟨hhanded, hgenerations⟩ := Prod.mk.inj hend
  refine ⟨daemon, Runs.reaches_of_foldlM hdaemon, hhanded, hgenerations, fun h => ?_⟩
  have hfirst := h.handed (some 0, some 1, .input [97]) (by rw [hhanded]; exact .head _) 0 rfl
  cases hfirst

end FesTerm
