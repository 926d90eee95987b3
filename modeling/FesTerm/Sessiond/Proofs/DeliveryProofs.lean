import FesTerm.Sessiond.Proofs.DaemonProofs

/-!
# Proofs: what a client sees

An output is held for the active client together with the change of the shadow terminal that it shows,
and the generation beside it keeps it away from any other client. From the snapshot on, what is held
for a client is a chain of such changes; what goes into its queue, what its worker takes and what it
parses are prefixes of that, one of the other.
-/

namespace FesTerm

open Relation List Option

variable {produced : List (ClientOutput × Terminal)}

section

variable [Platform] [Bincode]

/-- The outputs show, one after the other, how the terminal of the snapshot becomes another one. -/
inductive Shown (snapshot : Terminal) : List (ClientOutput × Terminal) → Terminal → Prop
  | start : Shown snapshot [] snapshot
  | next {produced : List (ClientOutput × Terminal)} {terminal terminal' : Terminal}
    {output : ClientOutput} (h : Shown snapshot produced terminal) (hshows : Shows terminal output terminal') :
    Shown snapshot (produced ++ [(output, terminal')]) terminal'

theorem Shown.getLast? {snapshot terminal : Terminal}
    (h : Shown snapshot produced terminal) : (snapshot :: produced.map Prod.snd).getLast? = some terminal := by
  cases h with
  | start => rfl
  | next => rw [map_append, ← cons_append, map_singleton, getLast?_concat]

/-- What is sent to a client at first, what is held for it, and what of it is queued. -/
structure Record where
  generation : Nat
  recovery : List UInt8
  snapshot : Terminal
  produced : List (ClientOutput × Terminal)
  queued : List ClientOutput

omit [Platform] [Bincode] in
def Record.fresh (generation : Nat) (recovery : List UInt8) (snapshot : Terminal) : Record :=
  ⟨generation, recovery, snapshot, [], []⟩

structure Record.Sound [RecoveryCodec] (record : Record) : Prop where
  shadow : record.snapshot.Shadowing
  encoded : ∃ payload, RecoveryCodec.serialize record.snapshot.recoveryClone = .ok payload ∧
    record.recovery = recoveryPrelude payload
  shown : ∃ terminal, Shown record.snapshot record.produced terminal
  queued : record.queued <+: record.produced.map Prod.fst

end

def heldFor (generation : Nat) (held : List (Nat × ClientOutput)) : List ClientOutput :=
  (held.filter fun entry => entry.1 = generation).map Prod.snd

section

variable {generation other : Nat} {output : ClientOutput} {held : List (Nat × ClientOutput)}

theorem heldFor_cons_self : heldFor generation ((generation, output) :: held) =
    output :: heldFor generation held := by simp [heldFor]

theorem heldFor_cons_ne (h : other ≠ generation) :
    heldFor generation ((other, output) :: held) = heldFor generation held := by simp [heldFor, h]

theorem heldFor_concat_self : heldFor generation (held ++ [(generation, output)]) =
    heldFor generation held ++ [output] := by simp [heldFor]

theorem heldFor_eq_nil (h : ∀ entry ∈ held, entry.1 ≠ generation) : heldFor generation held = [] := by
  rw [heldFor, filter_eq_nil_iff.mpr fun entry hentry hsame => h entry hentry (of_decide_eq_true hsame)]
  rfl

end

def Connection.record (client : Connection) : Record :=
  ⟨client.generation, client.recovery, client.snapshot, client.produced, client.queued⟩

namespace Daemon

section

variable (daemon : Daemon)

def records : List Record := daemon.connections.map Connection.record

def Mirroring : Prop := daemon.point.ending = false ∨ daemon.cause = some .ptyClosed

variable [Platform] [Bincode]

/-- What holds of the active client. -/
structure Attached (record : Record) : Prop where
  number : record.generation < daemon.nextGeneration
  shown : daemon.Mirroring → Shown record.snapshot record.produced daemon.terminal
  whole : daemon.point.retiring = false →
    record.produced.map Prod.fst = record.queued ++ heldFor record.generation daemon.held

structure Delivered [RecoveryCodec] : Prop where
  shadow : daemon.terminal.Shadowing
  held : ∀ entry ∈ daemon.held, entry.1 < daemon.nextGeneration
  sound : ∀ record ∈ daemon.records, record.Sound
  active : ∀ index, daemon.active = some index →
    ∃ record, daemon.records[index]? = some record ∧ daemon.Attached record
  candidate : ∀ candidate, daemon.point.candidate = some candidate →
    ∃ recovery, daemon.records[candidate]? = some (.fresh daemon.nextGeneration recovery daemon.terminal)

end

/-! ## The invariant -/

section

variable [Platform] [Bincode] [RecoveryCodec] {daemon daemon' : Daemon}

variable {index : Nat} {client : Connection} {output : ClientOutput}

omit [Platform] [Bincode] [RecoveryCodec] in
theorem records_getElem? (h : daemon.connections[index]? = some client) :
    daemon.records[index]? = some client.record := by
  rw [records, getElem?_map, h]
  rfl

omit [Platform] [Bincode] [RecoveryCodec] in
theorem records_modifyClient {change : Connection → Connection}
    (h : ∀ client, (change client).record = client.record) :
    (daemon.modifyClient index change).records = daemon.records :=
  map_modifyClient_of_eq fun client _ => h client

variable {record : Record}

omit [RecoveryCodec] in
theorem Attached.congr (h : daemon.Attached record)
    (hnext : daemon'.nextGeneration = daemon.nextGeneration) (hterminal : daemon'.terminal = daemon.terminal)
    (hheld : daemon'.held = daemon.held) (hmirroring : daemon'.Mirroring → daemon.Mirroring)
    (hretiring : daemon'.point.retiring = false → daemon.point.retiring = false) :
    daemon'.Attached record := by
  refine ⟨hnext ▸ h.number, fun hm => hterminal ▸ h.shown (hmirroring hm), fun hr => ?_⟩
  rw [hheld]
  exact h.whole (hretiring hr)

theorem Delivered.congr (h : daemon.Delivered) (hrecords : daemon'.records = daemon.records)
    (hactive : daemon'.active = daemon.active) (hnext : daemon'.nextGeneration = daemon.nextGeneration)
    (hterminal : daemon'.terminal = daemon.terminal) (hheld : daemon'.held = daemon.held)
    (hcandidate : daemon'.point.candidate = daemon.point.candidate ∨ daemon'.point.candidate = none)
    (hmirroring : daemon'.Mirroring → daemon.Mirroring)
    (hretiring : daemon'.point.retiring = false → daemon.point.retiring = false ∨ daemon.active = none) :
    daemon'.Delivered := by
  refine ⟨hterminal ▸ h.shadow, ?_, hrecords ▸ h.sound, fun index hindex => ?_, fun candidate hpoint => ?_⟩
  · rw [hheld, hnext]
    exact h.held
  · rw [hactive] at hindex
    obtain ⟨record, hrecord, hattached⟩ := h.active index hindex
    refine ⟨record, hrecords ▸ hrecord, hattached.congr hnext hterminal hheld hmirroring fun hr => ?_⟩
    rcases hretiring hr with hr | hnone
    · exact hr
    · rw [hindex] at hnone
      cases hnone
  · rw [hrecords, hnext, hterminal]
    rcases hcandidate with hsame | hnone
    · exact h.candidate candidate (hsame ▸ hpoint)
    · rw [hpoint] at hnone
      cases hnone

omit [Platform] [Bincode] [RecoveryCodec] in
theorem mirroring_of_ending (hending : daemon.point.ending → daemon'.point.ending)
    (hcause : daemon.point.ending → daemon'.cause = daemon.cause) (h : daemon'.Mirroring) :
    daemon.Mirroring := by
  by_cases hbefore : daemon.point.ending
  · rcases h with hrunning | hclosed
    · rw [hending hbefore] at hrunning
      cases hrunning
    · exact .inr (hcause hbefore ▸ hclosed)
  · exact .inl (Bool.not_eq_true _ ▸ hbefore)

theorem Delivered.start (processId daemonGeneration : Nat) {terminal : Terminal} (h : terminal.Shadowing) :
    (start processId daemonGeneration terminal).Delivered where
  shadow := h
  held _ hentry := by cases hentry
  sound _ hrecord := by cases hrecord
  active _ hactive := by cases hactive
  candidate _ hcandidate := by cases hcandidate

theorem Delivered.modify (h : daemon.Delivered) {change : Record → Record}
    (hactive : daemon'.active = some index) (hrecord : daemon.records[index]? = some record)
    (hrecords : daemon'.records = daemon.records.modify index change) (hshadow : daemon'.terminal.Shadowing)
    (hheld : ∀ entry ∈ daemon'.held, entry.1 < daemon'.nextGeneration)
    (hsound : (change record).Sound) (hattached : daemon'.Attached (change record))
    (hcandidate : ∀ candidate, daemon'.point.candidate = some candidate → candidate ≠ index →
      ∃ recovery, daemon.records[candidate]? =
        some (.fresh daemon'.nextGeneration recovery daemon'.terminal))
    (hother : daemon'.point.candidate ≠ some index) : daemon'.Delivered := by
  refine ⟨hshadow, hheld, fun after hafter => ?_, fun other hother => ?_, fun candidate hpoint => ?_⟩
  · rw [hrecords] at hafter
    obtain ⟨other, hother⟩ := getElem?_of_mem hafter
    rw [getElem?_modify] at hother
    obtain ⟨before, hbefore, rfl⟩ := map_eq_some_iff.mp hother
    split
    · next hsame =>
      rw [← hsame] at hbefore
      cases hrecord.symm.trans hbefore
      exact hsound
    · exact h.sound before (mem_of_getElem? hbefore)
  · cases hactive.symm.trans hother
    refine ⟨change record, ?_, hattached⟩
    rw [hrecords, getElem?_modify_eq, hrecord]
    rfl
  · have hne : candidate ≠ index := fun hsame => hother (hsame ▸ hpoint)
    rw [hrecords, getElem?_modify_ne _ _ (Ne.symm hne)]
    exact hcandidate candidate hpoint hne

theorem Delivered.attached (h : daemon.Delivered)
    (hactive : daemon.active = some index) (hclient : daemon.connections[index]? = some client) :
    client.record.Sound ∧ daemon.Attached client.record := by
  obtain ⟨record, hrecord, hattached⟩ := h.active index hactive
  have hsame := records_getElem? hclient
  cases hrecord.symm.trans hsame
  exact ⟨h.sound _ (mem_of_getElem? hrecord), hattached⟩

theorem Delivered.shown (h : daemon.Delivered) {terminal : Terminal} (hactive : daemon.active = some index)
    (hclient : daemon.connections[index]? = some client) (hcandidate : daemon.point.candidate = none)
    (hending : daemon.point.ending = false) (hshows : Shows daemon.terminal output terminal) : ({ daemon with
      terminal := terminal
      held := daemon.held ++ [(client.generation, output)] }.modifyClient index fun client =>
        { client with produced := client.produced ++ [(output, terminal)] }).Delivered := by
  obtain ⟨hsound, hattached⟩ := h.attached hactive hclient
  have hshown := Shown.next (hattached.shown (.inl hending)) hshows
  have hrecords : (daemon.modifyClient index fun client =>
      { client with produced := client.produced ++ [(output, terminal)] }).records =
      daemon.records.modify index fun record =>
        { record with produced := record.produced ++ [(output, terminal)] } :=
    map_modifyClient fun _ _ => rfl
  refine h.modify hactive (records_getElem? hclient) hrecords (hshows.shadowing h.shadow) ?_ ?_ ?_ ?_ ?_
  · intro entry hentry
    rcases mem_append.mp hentry with hbefore | hlast
    · exact h.held entry hbefore
    · cases mem_singleton.mp hlast
      exact hattached.number
  · refine ⟨hsound.shadow, hsound.encoded, ⟨terminal, hshown⟩, ?_⟩
    rw [map_append]
    exact hsound.queued.trans (prefix_append _ _)
  · refine ⟨hattached.number, fun _ => hshown, fun hretiring => ?_⟩
    have hwhole := hattached.whole hretiring
    show (client.produced ++ [(output, terminal)]).map Prod.fst = client.queued ++
      heldFor client.generation (daemon.held ++ [(client.generation, output)])
    rw [map_append, heldFor_concat_self, ← append_assoc]
    exact congrArg (· ++ [output]) hwhole
  · intro candidate hpoint
    have hpoint : daemon.point.candidate = some candidate := hpoint
    rw [hcandidate] at hpoint
    cases hpoint
  · intro hpoint
    have hpoint : daemon.point.candidate = some index := hpoint
    rw [hcandidate] at hpoint
    cases hpoint

/-- What is queued is the first of what waits for the client. -/
theorem Delivered.queued (h : daemon.Delivered) {generation : Nat}
    {held : List (Nat × ClientOutput)} {channel : Channel ClientOutput}
    (hheld : daemon.held = (generation, output) :: held) (hretiring : daemon.point.retiring = false)
    (hactive : daemon.active = some index) (hclient : daemon.connections[index]? = some client)
    (hgeneration : client.generation = generation) : ({ daemon with held := held }.modifyClient index fun client =>
      { client with output := channel, queued := client.queued ++ [output] }).Delivered := by
  obtain ⟨hsound, hattached⟩ := h.attached hactive hclient
  have hrecords : ({ daemon with held := held }.modifyClient index fun client =>
      { client with output := channel, queued := client.queued ++ [output] }).records =
      daemon.records.modify index fun record => { record with queued := record.queued ++ [output] } :=
    map_modifyClient fun _ _ => rfl
  have hwhole : client.produced.map Prod.fst = (client.queued ++ [output]) ++
      heldFor client.generation held := by
    have hwhole := hattached.whole hretiring
    have hfirst : heldFor client.generation ((generation, output) :: held) =
        output :: heldFor client.generation held := by
      rw [← hgeneration]
      exact heldFor_cons_self
    rw [append_assoc]
    exact hwhole.trans (congrArg (client.queued ++ ·) (hheld ▸ hfirst))
  refine h.modify hactive (records_getElem? hclient) hrecords h.shadow ?_ ?_ ?_ ?_ ?_
  · intro entry hentry
    exact h.held entry (by rw [hheld]; exact .tail _ hentry)
  · exact ⟨hsound.shadow, hsound.encoded, hsound.shown, ⟨_, hwhole.symm⟩⟩
  · exact ⟨hattached.number, hattached.shown, fun _ => hwhole⟩
  · exact fun candidate hpoint _ => h.candidate candidate hpoint
  · intro hpoint
    obtain ⟨recovery, hrecord⟩ := h.candidate index hpoint
    have hfresh := (records_getElem? hclient).symm.trans hrecord
    have hnumber := hattached.number
    rw [some.inj hfresh] at hnumber
    exact Nat.lt_irrefl _ hnumber

theorem Delivered.stale (h : daemon.Delivered) {generation : Nat}
    {held : List (Nat × ClientOutput)} (hheld : daemon.held = (generation, output) :: held)
    (hother : ∀ index client, daemon.active = some index → daemon.connections[index]? = some client →
      client.generation ≠ generation) : { daemon with held := held }.Delivered := by
  refine ⟨h.shadow, fun entry hentry => ?_, h.sound, fun index hactive => ?_, h.candidate⟩
  · exact h.held entry (by rw [hheld]; exact .tail _ hentry)
  · obtain ⟨record, hrecord, hattached⟩ := h.active index hactive
    refine ⟨record, hrecord, hattached.number, hattached.shown, fun hretiring => ?_⟩
    have hne : record.generation ≠ generation := by
      rw [records, getElem?_map] at hrecord
      obtain ⟨client, hclient, rfl⟩ := map_eq_some_iff.mp hrecord
      exact hother index client hactive hclient
    have hwhole := hattached.whole hretiring
    rw [hheld, heldFor_cons_ne (Ne.symm hne)] at hwhole
    exact hwhole

theorem Delivered.installed (h : daemon.Delivered) {candidate : Nat}
    (hpoint : daemon.point = .install candidate) : (daemon.install candidate).Delivered := by
  have hrecords : (daemon.install candidate).records = daemon.records := records_modifyClient fun _ => rfl
  obtain ⟨recovery, hcandidate⟩ := h.candidate candidate (by rw [hpoint]; rfl)
  refine ⟨h.shadow, fun entry hentry => ?_, hrecords ▸ h.sound, fun index hactive => ?_, fun _ hnone => ?_⟩
  · exact Nat.lt_succ_of_lt (h.held entry hentry)
  · cases hactive
    refine ⟨_, hrecords ▸ hcandidate, Nat.lt_succ_self _, fun _ => .start, fun _ => ?_⟩
    exact (heldFor_eq_nil fun entry hentry => Nat.ne_of_lt (h.held entry hentry)).symm
  · cases hnone

theorem Delivered.effect (h : daemon.Delivered) (heffect : Effect daemon daemon') : daemon'.Delivered := by
  cases heffect with
  | moved hcandidate hrefused hretiring hending hcause =>
    exact h.congr rfl rfl rfl rfl rfl (.inl hcandidate) (mirroring_of_ending hending hcause) fun _ => hretiring
  | took | typed | replied => exact h.congr rfl rfl rfl rfl rfl (.inl rfl) id .inl
  | @alone terminal hactive hcandidate hshadow =>
    refine ⟨hshadow h.shadow, h.held, h.sound, fun index hindex => ?_, fun candidate hpoint => ?_⟩
    · obtain ⟨record, hrecord, -⟩ := h.active index hindex
      have hindex : daemon.active = some index := hindex
      rw [activeClient_eq hindex] at hactive
      rw [records, getElem?_map, hactive] at hrecord
      cases hrecord
    · have hpoint : daemon.point.candidate = some candidate := hpoint
      rw [hcandidate] at hpoint
      cases hpoint
  | lost hcandidate hretiring hcause hshadow =>
    refine ⟨hshadow h.shadow, h.held, h.sound, fun index hactive => ?_, nofun⟩
    obtain ⟨record, hrecord, hattached⟩ := h.active index hactive
    refine ⟨record, hrecord, hattached.number, fun hmirroring => ?_, fun _ => hattached.whole hretiring⟩
    rcases hmirroring with hrunning | hclosed
    · cases hrunning
    · exact absurd hclosed hcause
  | shown hactive hclient hcandidate hending hroom hshows =>
    exact h.shown hactive hclient hcandidate hending hshows
  | stale hheld hother => exact h.stale hheld hother
  | @gone index generation output held next hactive hheld hretiring hcandidate hending =>
    have hrecords : ({ daemon with held := held, point := .dropActive next }.modifyClient index fun client =>
        { client with stolen := false, displaced := client.displaced || false }).records = daemon.records :=
      records_modifyClient fun _ => rfl
    refine ⟨h.shadow, fun entry hentry => ?_, hrecords ▸ h.sound, fun other hother => ?_, fun candidate hpoint => ?_⟩
    · exact h.held entry (by rw [hheld]; exact .tail _ hentry)
    · obtain ⟨record, hrecord, hattached⟩ := h.active other hother
      refine ⟨record, hrecords ▸ hrecord, hattached.number, fun hmirroring => hattached.shown ?_, fun hr => ?_⟩
      · refine mirroring_of_ending ?_ ?_ hmirroring
        · exact hending
        · exact fun _ => rfl
      · cases hr
    · exact hrecords ▸ h.candidate candidate (hcandidate ▸ hpoint)
  | queued hheld hretiring hactive hclient hgeneration =>
    exact h.queued hheld hretiring hactive hclient hgeneration
  | flagged hactive hretiring hstolen hcandidate hending =>
    refine h.congr (records_modifyClient fun _ => rfl) rfl rfl rfl rfl (.inl hcandidate) ?_ fun hr => ?_
    · exact mirroring_of_ending hending fun _ => rfl
    · cases hr
  | @dropped index next hactive hpoint =>
    have hrecords : (daemon.modifyClient index fun client =>
        { client with output := client.output.dropSender }).records = daemon.records :=
      records_modifyClient fun _ => rfl
    refine ⟨h.shadow, h.held, hrecords ▸ h.sound, nofun, fun candidate hnext => ?_⟩
    have hcandidate : daemon.point.candidate = some candidate := by
      rw [hpoint, ← AfterRetire.point_candidate]
      exact hnext
    exact hrecords ▸ h.candidate candidate hcandidate
  | adopted hpoint =>
    refine h.congr (records_modifyClient fun _ => rfl) rfl rfl rfl rfl (.inl ?_) (fun _ => .inl ?_) fun _ => .inl ?_
    all_goals rw [hpoint]; rfl
  | cancelled hpoint | released hpoint | left hpoint =>
    refine h.congr (records_modifyClient fun _ => rfl) rfl rfl rfl rfl (.inr rfl) (fun _ => .inl ?_) fun _ => .inl ?_
    all_goals rw [hpoint]; rfl
  | installed hpoint => exact h.installed hpoint
  | closed hpoint =>
    refine h.congr rfl rfl rfl rfl rfl (.inr rfl) (mirroring_of_ending (fun _ => rfl) fun _ => rfl) fun _ => .inl ?_
    rw [hpoint]
    rfl

theorem Delivered.effects (h : daemon.Delivered) (heffects : ReflTransGen Effect daemon daemon') :
    daemon'.Delivered := by
  induction heffects with
  | refl => exact h
  | tail _ heffect ih => exact ih.effect heffect

theorem Delivered.worked (h : daemon.Delivered) (hsound : daemon.Sound)
    {answer : IoAnswer} (hclient : daemon.connections[index]? = some client)
    (hworked : Worked daemon index client answer daemon') : daemon'.Delivered := by
  have hloops {loop : IoLoop} (hloop : client.loop.step answer = some loop) :
      loop.generation = client.generation :=
    ((hsound index client hclient).loop.step hloop).held.generation_eq
  cases hworked with
  | @submitted loop input channel result hloop hpoint hsend =>
    have hrecords : (daemon.modifyClient index fun client => { client with loop := loop }).records =
        daemon.records := by
      refine map_modifyClient_of_eq fun client' hclient' => ?_
      cases hclient.symm.trans hclient'
      show Record.mk loop.generation _ _ _ _ = Record.mk client.generation _ _ _ _
      rw [hloops hloop]
    exact h.congr hrecords rfl rfl rfl rfl (.inl rfl) id .inl
  | @answered _ loop client' hloop hother hanswered =>
    have hrecord : ({ client' with loop := loop } : Connection).record = client.record := by
      have hsame : client'.recovery = client.recovery ∧ client'.snapshot = client.snapshot ∧
          client'.produced = client.produced ∧ client'.queued = client.queued := by
        cases Connection.answered_eq hanswered <;> exact ⟨rfl, rfl, rfl, rfl⟩
      show Record.mk loop.generation _ _ _ _ = Record.mk client.generation _ _ _ _
      rw [hloops hloop, hsame.1, hsame.2.1, hsame.2.2.1, hsame.2.2.2]
    have hrecords : (daemon.modifyClient index fun _ => { client' with loop := loop }).records =
        daemon.records := by
      refine map_modifyClient_of_eq fun before hbefore => ?_
      cases hclient.symm.trans hbefore
      exact hrecord
    exact h.congr hrecords rfl rfl rfl rfl (.inl rfl) id .inl

theorem Delivered.spawned (h : daemon.Delivered) {attempt : Attempt} {limit : Nat}
    {kind : AttachKind} {recovery : List UInt8}
    (hspawned : Spawned daemon attempt limit kind recovery daemon') : daemon'.Delivered := by
  have hrecords : daemon'.records = daemon.records ++ [.fresh daemon.nextGeneration recovery daemon.terminal] := by
    rw [hspawned.result, records, map_append]
    rfl
  have hpoint : daemon'.point.ending = false ∧ daemon.point.ending = false ∧
      daemon.point.retiring = false := by
    rw [hspawned.result, hspawned.point]
    exact ⟨rfl, rfl, rfl⟩
  obtain ⟨payload, hpayload, -, hprelude⟩ := encodeRecoverySnapshot_prelude hspawned.encoded
  have hfresh : Record.Sound (.fresh daemon.nextGeneration recovery daemon.terminal) :=
    ⟨h.shadow, ⟨payload, hpayload, hprelude⟩, ⟨daemon.terminal, .start⟩, prefix_rfl⟩
  have hlength : daemon.records.length = daemon.connections.length := length_map _
  refine ⟨?_, ?_, fun record hrecord => ?_, fun index hactive => ?_, fun candidate hcandidate => ?_⟩
  · rw [hspawned.result]
    exact h.shadow
  · rw [hspawned.result]
    exact h.held
  · rw [hrecords] at hrecord
    rcases mem_append.mp hrecord with hbefore | hlast
    · exact h.sound record hbefore
    · rw [mem_singleton.mp hlast]
      exact hfresh
  · rw [hspawned.result] at hactive
    obtain ⟨record, hrecord, hattached⟩ := h.active index hactive
    refine ⟨record, ?_, hattached.congr ?_ ?_ ?_ (fun _ => .inl hpoint.2.1) fun _ => hpoint.2.2⟩
    · rw [hrecords, getElem?_append_left (List.getElem?_eq_some_iff.mp hrecord).1]
      exact hrecord
    all_goals rw [hspawned.result]
  · have hterminal : daemon'.terminal = daemon.terminal := by rw [hspawned.result]
    have hnext : daemon'.nextGeneration = daemon.nextGeneration := by rw [hspawned.result]
    rw [hspawned.result] at hcandidate
    cases hcandidate
    exact ⟨recovery, by rw [hrecords, hterminal, hnext, ← hlength, getElem?_concat_length]⟩

theorem Delivered.step (h : daemon.Delivered) (hsound : daemon.Sound) {event : DaemonStep}
    (hstep : daemon.step event = some daemon') : daemon'.Delivered := by
  cases step_stepped hstep with
  | main heffects => exact h.effects heffects
  | spawned hspawned => exact h.spawned hspawned
  | worker hclient hworked => exact h.worked hsound hclient hworked

end

end Daemon

/-! ## The client's side -/

variable {payload : List UInt8}

section

variable [Platform] [Bincode] {terminal terminal' snapshot : Terminal}

omit [Platform] [Bincode] in
theorem withPixels_of_dimensions {size : PtySize} {dimensions : Dimensions}
    (h : Dimensions.new size.cols.toNat size.rows.toNat = .ok dimensions) :
    ∃ applied, TerminalSize.withPixels size.cols size.rows size.pixelWidth size.pixelHeight = .ok applied ∧
      applied.columns = size.cols ∧ applied.rows = size.rows := by
  unfold Dimensions.new at h
  split at h
  · cases h
  · next hcolumns =>
    split at h
    · cases h
    · next hrows =>
      have htwo : 2 ≤ size.cols := UInt16.le_iff_toNat_le.mpr (by show 2 ≤ size.cols.toNat; omega)
      have hone : 1 ≤ size.rows := UInt16.le_iff_toNat_le.mpr (by show 1 ≤ size.rows.toNat; omega)
      refine ⟨⟨size.cols, size.rows, some size.pixelWidth, some size.pixelHeight, htwo, hone⟩, ?_, rfl, rfl⟩
      rw [TerminalSize.withPixels, TerminalSize.new, dif_pos htwo, dif_pos hone]
      rfl

omit [Platform] in
theorem decode_encodeRecoverySyncCommand (hbincode : Bincode.RoundTrips)
    {command : RecoverySyncCommand} (h : encodeRecoverySyncCommand command = .ok payload) :
    decodeRecoverySyncCommand payload = .ok command := by
  unfold encodeRecoverySyncCommand at h
  split at h
  · cases h
  · next payload' hserialize =>
    split at h
    · cases h
    · cases h
      rw [decodeRecoverySyncCommand, hbincode command payload hserialize]

theorem Shows.framed {output : ClientOutput} (h : Shows terminal output terminal') :
    ∃ event, ServerFrame event output.frame ∧
      (Bincode.RoundTrips → replayEvent terminal event = some (.ok terminal')) := by
  cases h with
  | @data bytes replies _ hmirror hsize =>
    refine ⟨_, .output bytes (hsize.trans (by decide)), fun _ => ?_⟩
    rw [replayEvent, hmirror]
    rfl
  | @resized size _ hresize =>
    unfold resizeShadowTerminal at hresize
    split at hresize
    · cases hresize
    · next dimensions hdimensions =>
      obtain ⟨resized, hresized, heq⟩ := map_eq_some_iff.mp hresize
      cases heq
      obtain ⟨applied, happlied, hcolumns, hrows⟩ := withPixels_of_dimensions hdimensions
      refine ⟨_, .resizeApplied happlied, fun _ => ?_⟩
      rw [replayEvent, hcolumns, hrows, hdimensions]
      simp only
      rw [hresized]
      rfl
  | @synced command payload _ happly hencode =>
    refine ⟨_, .recoverySync hencode, fun hbincode => ?_⟩
    rw [replayEvent, decode_encodeRecoverySyncCommand hbincode hencode]
    simp only
    rw [happly]
    rfl
  | exited => exact ⟨_, .exited, fun _ => rfl⟩

theorem Shown.framed (h : Shown snapshot produced terminal) :
    ∀ output ∈ produced.map Prod.fst, ∃ event, ServerFrame event output.frame := by
  induction h with
  | start => exact nofun
  | next _ hshows ih =>
    intro output houtput
    rw [map_append] at houtput
    rcases mem_append.mp houtput with hbefore | hlast
    · exact ih output hbefore
    · rw [mem_singleton.mp hlast]
      obtain ⟨event, hframe, -⟩ := hshows.framed
      exact ⟨event, hframe⟩

theorem replay_append {events : List ServerFrameEvent} (event : ServerFrameEvent)
    (h : replay terminal events = some (.ok terminal')) :
    replay terminal (events ++ [event]) = replayEvent terminal' event := by
  induction events generalizing terminal with
  | nil =>
    cases h
    rw [nil_append, replay]
    cases replayEvent terminal' event with
    | none => rfl
    | some result => cases result <;> rfl
  | cons first events ih =>
    obtain ⟨result, hfirst, hrest⟩ := bind_eq_some_iff.mp h
    rw [cons_append, replay, hfirst]
    cases result with
    | error error => cases hrest
    | ok after => exact ih hrest

/-- The events of a chain of outputs lead through the shadow terminals. -/
theorem Shown.replayed (hbincode : Bincode.RoundTrips) (h : Shown snapshot produced terminal) :
    ∃ events, Forall₂ ServerFrame events (produced.map fun entry => entry.1.frame) ∧
      replay snapshot events = some (.ok terminal) ∧
      ∀ count ≤ produced.length, ∃ terminal, (snapshot :: produced.map Prod.snd)[count]? = some terminal ∧
        replay snapshot (events.take count) = some (.ok terminal) := by
  induction h with
  | start =>
    refine ⟨[], .nil, rfl, fun count hcount => ⟨snapshot, ?_, ?_⟩⟩
    · rw [Nat.le_zero.mp hcount]
      rfl
    · rw [take_nil]
      rfl
  | @next produced terminal terminal' output hshown hshows ih =>
    obtain ⟨events, hframes, hlast, hcounts⟩ := ih
    obtain ⟨event, hframe, hevent⟩ := hshows.framed
    have hlength : events.length = produced.length := by
      rw [hframes.length_eq, length_map]
    have hnext : replay snapshot (events ++ [event]) = some (.ok terminal') :=
      (replay_append event hlast).trans (hevent hbincode)
    refine ⟨events ++ [event], ?_, hnext, fun count hcount => ?_⟩
    · rw [map_append]
      exact rel_append hframes (.cons hframe .nil)
    · rw [length_append, length_singleton] at hcount
      rcases Nat.lt_or_eq_of_le hcount with hbefore | rfl
      · obtain ⟨shown, hshown, hreplay⟩ := hcounts count (by omega)
        refine ⟨shown, ?_, ?_⟩
        · rw [map_append, ← cons_append,
            getElem?_append_left (List.getElem?_eq_some_iff.mp hshown).1]
          exact hshown
        · rw [take_append_of_le_length (by omega)]
          exact hreplay
      · refine ⟨terminal', ?_, ?_⟩
        · simp
        · rw [take_of_length_le (by rw [length_append, length_singleton]; omega)]
          exact hnext

end

namespace Connection

def terminals (client : Connection) : List Terminal := client.snapshot :: client.produced.map Prod.snd

variable [Platform] [Bincode] [RecoveryCodec]

/-- What a client sees of the shadow terminal. -/
structure SeesShadow (client : Connection) : Prop where
  snapshot : ∃ payload, RecoveryCodec.serialize client.snapshot.recoveryClone = .ok payload ∧
    client.recovery = recoveryPrelude payload
  /-- Its worker takes what was held for it and for no other client, from the first output on. -/
  taken : client.loop.taken <+: client.produced.map Prod.fst
  /-- However the bytes after the snapshot arrive, as many events lead from the decoded snapshot to the
  shadow terminal after as many outputs; once all is written, no event is missing. -/
  replayed : ∀ (version : Nat) (payload bytes : List UInt8) (decoded : Terminal)
    (events : List ServerFrameEvent) (parser : ServerFrameParser),
    client.recovery = recoveryPrelude payload →
    RecoveryCodec.deserialize version payload = .ok client.snapshot.recoveryClone →
    decodeRecovery version payload = some (.ok decoded) →
    client.recovery ++ bytes <+: client.loop.sent → ServerFrameParser.Reads bytes events parser →
    events.length ≤ client.loop.taken.length ∧
    (client.loop.sent = client.recovery ++ bytes → client.loop.unwritten = [] →
      events.length = client.loop.taken.length) ∧
    ∀ count ≤ events.length, ∃ terminal, client.terminals[count]? = some terminal ∧
      replay decoded (events.take count) = some (.ok terminal)

omit [Bincode] in
theorem decoded_eq {version : Nat} {terminal decoded : Terminal}
    (hdeserialize : RecoveryCodec.deserialize version payload = .ok terminal)
    (h : decodeRecovery version payload = some (.ok decoded)) : decoded = terminal := by
  rw [decodeRecovery, hdeserialize] at h
  obtain ⟨valid, -, h⟩ := bind_eq_some_iff.mp h
  split at h
  · cases h
  · split at h
    · cases h
    · exact (Except.ok.inj (some.inj h)).symm

theorem record_taken {client : Connection} (hsound : client.Sound) (hrecord : client.record.Sound) :
    client.loop.taken <+: client.produced.map Prod.fst := by
  refine List.IsPrefix.trans ?_ hrecord.queued
  show client.loop.taken <+: client.queued
  rw [hsound.queued]
  exact prefix_append _ _

theorem seesShadow {client : Connection} (hbincode : Bincode.RoundTrips) (hsound : client.Sound)
    (hrecord : client.record.Sound) : client.SeesShadow := by
  refine ⟨hrecord.encoded, record_taken hsound hrecord, ?_⟩
  intro version payload bytes decoded events parser hrecovery hdeserialize hdecode hsent hreads
  have hdecoded : decoded = client.snapshot := by
    rw [decoded_eq hdeserialize hdecode]
    exact hrecord.shadow.recoveryClone_eq
  obtain ⟨last, hshown⟩ := hrecord.shown
  have hshown : Shown client.snapshot client.produced last := hshown
  obtain ⟨all, hframes, -, hcounts⟩ := hshown.replayed hbincode
  have hlength : all.length = client.produced.length := by rw [hframes.length_eq, length_map]
  -- the frames of the outputs that the worker took
  obtain ⟨later, hlater⟩ := record_taken hsound hrecord
  have htaken : client.loop.taken.length ≤ client.produced.length := by
    have hsum := congrArg List.length hlater
    rw [length_append, length_map] at hsum
    omega
  have hfirst : Forall₂ ServerFrame (all.take client.loop.taken.length)
      (client.loop.taken.map ClientOutput.frame) := by
    have htake := forall₂_take client.loop.taken.length hframes
    have htook : (client.produced.map fun entry => entry.1.frame).take client.loop.taken.length =
        client.loop.taken.map ClientOutput.frame := by
      have hmap : (client.produced.map fun entry => entry.1.frame) =
          (client.produced.map Prod.fst).map ClientOutput.frame := by rw [List.map_map]; rfl
      rw [hmap, ← hlater, map_append, take_left' (length_map _)]
    rwa [htook] at htake
  obtain ⟨rest, hrest⟩ := hsent
  have hstream : bytes ++ (rest ++ client.loop.unwritten) =
      (client.loop.taken.map ClientOutput.frame).flatten := by
    have hheld := hsound.loop.held.stream
    rw [← hrest, append_assoc, append_assoc] at hheld
    exact append_cancel_left hheld
  obtain ⟨hparsed, hwhole, -⟩ := ServerFrameParser.events_read_back hbincode hfirst hreads hstream
  have hshort : (all.take client.loop.taken.length).length = client.loop.taken.length :=
    length_take_of_le (hlength ▸ htaken)
  have hevents : events.length ≤ client.loop.taken.length := hshort ▸ hparsed.length_le
  refine ⟨hevents, fun hall hwritten => ?_, fun count hcount => ?_⟩
  · have hnone : rest = [] := by
      rw [hall] at hrest
      exact append_right_eq_self.mp hrest
    have hsame := (hwhole (by rw [hnone, hwritten]; rfl)).1
    rw [hsame, hshort]
  · obtain ⟨terminal, hterminal, hreplay⟩ := hcounts count (by omega)
    refine ⟨terminal, hterminal, ?_⟩
    have hsame : events.take count = all.take count := by
      rw [prefix_iff_eq_take.mp hparsed, take_take, take_take]
      congr 1
      omega
    rw [hdecoded, hsame]
    exact hreplay

end Connection

namespace Daemon

variable [Platform] [Bincode] [RecoveryCodec]

/-- What the clients see is the shadow terminal. -/
structure SeenAsItIs (daemon : Daemon) : Prop where
  clients : ∀ client ∈ daemon.connections, client.SeesShadow
  /-- The last that the active client has to see is the shadow terminal of now. -/
  shown : ∀ (index : Nat) (client : Connection), daemon.active = some index →
    daemon.connections[index]? = some client → daemon.Mirroring →
    client.terminals.getLast? = some daemon.terminal
  /-- What was held for it is with its worker, in its queue or still held. -/
  whole : ∀ (index : Nat) (client : Connection), daemon.active = some index →
    daemon.connections[index]? = some client → daemon.point.retiring = false →
    client.produced.map Prod.fst =
      client.loop.taken ++ client.output.items ++ heldFor client.generation daemon.held

theorem Delivered.seenAsItIs {daemon : Daemon} (h : daemon.Delivered) (hsound : daemon.Sound)
    (hbincode : Bincode.RoundTrips) : daemon.SeenAsItIs := by
  refine ⟨fun client hclient => ?_, fun index client hactive hclient hmirroring => ?_,
    fun index client hactive hclient hretiring => ?_⟩
  · obtain ⟨index, hindex⟩ := getElem?_of_mem hclient
    have hrecord := h.sound _ (mem_of_getElem? (records_getElem? hindex))
    exact Connection.seesShadow hbincode (hsound index client hindex) hrecord
  · have hshown := (h.attached hactive hclient).2.shown hmirroring
    have hshown : Shown client.snapshot client.produced daemon.terminal := hshown
    exact hshown.getLast?
  · have hwhole := (h.attached hactive hclient).2.whole hretiring
    rw [← (hsound index client hclient).queued]
    exact hwhole

end Daemon

/-- An attached client sees exactly the daemon's terminal. -/
theorem attached_client_sees_the_shadow_terminal [Platform] [Bincode] [RecoveryCodec]
    (hbincode : Bincode.RoundTrips) {processId daemonGeneration : Nat} {dimensions : Dimensions}
    {limitBytes : ByteLimit} {daemon : Daemon}
    (h : Runs.Reaches Daemon.step (fun _ _ => True)
      (.start processId daemonGeneration (.withScrollbackLimit dimensions limitBytes)) daemon) :
    daemon.SeenAsItIs := by
  have hdelivered : daemon.Delivered := by
    induction h with
    | refl => exact .start _ _ (Terminal.withScrollbackLimit_shadowing dimensions limitBytes)
    | step hreaches _ hstep ih => exact ih.step (Daemon.Sound.reaches (Daemon.Sound.start _ _ _) hreaches) hstep
  exact hdelivered.seenAsItIs (Daemon.Sound.reaches (Daemon.Sound.start _ _ _) h) hbincode

namespace Daemon

def deliveryGrid : Dimensions := ⟨13, 11, 143, by decide, by decide, by decide, by decide⟩

def admitOne : DaemonStep := .main (.accepted ⟨.ok (), [.ok (encodeAdmission 1 1 true 1)], .ok (), .ok ()⟩)

/-- The worker sends a snapshot with a payload of one byte, and the client acknowledges it. -/
def greet (client : Nat) : List DaemonStep :=
  [.flag false, .clock false, .flag false, .silent, .flag false, .flag false, .wrote (.ok 13),
    .flushed (.ok ()), .flag false, .read (.ok (encodeFrame frameRecoveryAdopted [])), .flag false,
    .clock false, .flag false, .silent, .sent .sent, .flag false, .silent].map (.worker client)

/-- A first client attaches. -/
def firstClient : List DaemonStep :=
  [.main .silent, .main .silent, .main (.handled (.ok ())), .main .silent, admitOne] ++ greet 0 ++
    [.main .silent, .main .silent, .main .silent]

/-- A letter is printed and queued for the client. -/
def printLetter : List DaemonStep :=
  [.main (.refused ⟨.wouldBlock, "Resource temporarily unavailable"⟩), .main .silent, .main .silent,
    .main (.pty (.item (.data [97])) (.ok ())), .main .silent]

/-- The worker sends it. -/
def firstOutput : List DaemonStep :=
  firstClient ++ printLetter ++
    [.flag false, .received (.item (.data [97])), .flag false, .wrote (.ok 10)].map (.worker 0)

end Daemon

theorem attached_client_sees_the_first_output :
    letI := Platform.reference
    letI := RecoveryCodec.single (Terminal.withScrollbackLimit Daemon.deliveryGrid none) [7]
    letI := Bincode.reference
    ∃ daemon, Runs.Reaches Daemon.step (fun _ _ => True)
        (.start 1 1 (.withScrollbackLimit Daemon.deliveryGrid none)) daemon ∧
      daemon.connections.map (fun client => client.loop.sent) =
        [recoveryPrelude [7] ++ (ClientOutput.data [97]).frame] ∧ daemon.SeenAsItIs := by
  let _ := Platform.reference
  let _ := RecoveryCodec.single (Terminal.withScrollbackLimit Daemon.deliveryGrid none) [7]
  let _ := Bincode.reference
  have hrun : ((Daemon.start 1 1 (.withScrollbackLimit Daemon.deliveryGrid none)).run
      Daemon.firstOutput).map (fun daemon => daemon.connections.map fun client => client.loop.sent) =
      some [recoveryPrelude [7] ++ (ClientOutput.data [97]).frame] := by decide +kernel
  obtain ⟨daemon, hdaemon, hsent⟩ := map_eq_some_iff.mp hrun
  have hreaches := Runs.reaches_of_foldlM hdaemon
  exact ⟨daemon, hreaches, hsent,
    attached_client_sees_the_shadow_terminal Bincode.reference_roundTrips hreaches⟩

end FesTerm
