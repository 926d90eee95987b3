import FesTerm.AutomationJs.Proofs.SupervisorStepProofs

/-!
# The supervisor keeps its side of the protocol

The calls that are in the event queue are unanswered and unknown to the application, so there are never more of
them than calls that may be outstanding. What the application sends for a call it has received is staged in the
order in which it was sent, and finds the call as the application knows it.
-/

namespace FesTerm.AutomationJs

open List Table

namespace Supervisor

variable [Serde] {supervisor supervisor' : Supervisor} {action : SupervisorAction}

variable {point : LoopPoint}

omit [Serde] in
theorem ne_stopped (h : point.active = true) : point ≠ .stopped := by
  rintro rfl
  cases h

/-! ## The frames -/

def Transmission.Complete (transmission : Transmission) : Prop :=
  transmission.count = transmission.frame.bytes.length

variable {frames : List Outbound}

section

omit [Serde]

/-- Every frame was written to its end, but for the front one of the queue. -/
structure Framed (frames : List Outbound) (sent : Nat) (written : List Transmission) : Prop where
  between : sent = 0 → ∀ transmission ∈ written, Transmission.Complete transmission
  within : sent ≠ 0 → ∃ frame rest earlier, frames = frame :: rest ∧ written = ⟨frame, sent⟩ :: earlier ∧
    sent < frame.bytes.length ∧ ∀ transmission ∈ earlier, Transmission.Complete transmission

theorem Framed.append {more : List Outbound} {sent : Nat} {written : List Transmission}
    (h : Framed frames sent written) : Framed (frames ++ more) sent written := by
  refine ⟨h.between, fun hsent => ?_⟩
  obtain ⟨frame, rest, earlier, rfl, hwritten, hless, hcomplete⟩ := h.within hsent
  exact ⟨frame, rest ++ more, earlier, rfl, hwritten, hless, hcomplete⟩

theorem Framed.transmit {frame : Outbound} {count : Nat}
    (h : Framed supervisor.frames supervisor.sent supervisor.written)
    (hframes : supervisor.frames = frame :: frames) (hcount : 0 < count)
    (hle : supervisor.sent + count ≤ frame.bytes.length) :
    Framed (supervisor.transmit frame frames count).frames (supervisor.transmit frame frames count).sent
      (supervisor.transmit frame frames count).written := by
  -- The transmission of the front frame, and those before it.
  obtain ⟨earlier, hwritten, hcomplete⟩ : ∃ earlier,
      (supervisor.transmit frame frames count).written = ⟨frame, supervisor.sent + count⟩ :: earlier ∧
        ∀ transmission ∈ earlier, Transmission.Complete transmission := by
    unfold Supervisor.transmit
    dsimp only
    by_cases hsent : supervisor.sent = 0
    · rw [if_pos hsent, hsent, Nat.zero_add]
      exact ⟨_, rfl, h.between hsent⟩
    · obtain ⟨front, rest, earlier, hfront, hwritten, -, hcomplete⟩ := h.within hsent
      rw [hframes] at hfront
      cases hfront
      rw [if_neg hsent, hwritten]
      exact ⟨earlier, rfl, hcomplete⟩
  rw [hwritten]
  unfold Supervisor.transmit
  dsimp only
  by_cases hend : supervisor.sent + count = frame.bytes.length
  · rw [if_pos hend, if_pos hend]
    refine ⟨fun _ transmission htransmission => ?_, absurd rfl⟩
    rcases mem_cons.mp htransmission with rfl | hearlier
    · exact hend
    · exact hcomplete transmission hearlier
  · rw [if_neg hend, if_neg hend]
    refine ⟨fun hsent => by omega, fun _ => ?_⟩
    exact ⟨frame, frames, earlier, hframes, rfl, Nat.lt_of_le_of_ne hle hend, hcomplete⟩

end

theorem Effect.framed (h : Effect supervisor action supervisor') (hallows : supervisor.Allows action)
    (hframed : Framed supervisor.frames supervisor.sent supervisor.written) :
    Framed supervisor'.frames supervisor'.sent supervisor'.written := by
  cases h with
  | began haction hold hnone hcancelled =>
    subst haction
    unfold Allows at hallows
    rw [hnone] at hallows
    exact ⟨fun _ => hframed.between (hallows hcancelled).1, absurd rfl⟩
  | admits | answers => exact hframed.append
  | transmitted hold hframes hcount hle => exact hframed.transmit hframes hcount hle
  | _ => exact hframed

/-! ## The calls -/

variable {request : HostRequest} {control : Control} {disclosure : DisclosureGuard}
  {events : List Event} {result : HostResult} {outbox : List WorkerOutput} {admitted : Bool}

section

omit [Serde]

/-- The calls in the queue are outstanding and nobody knows them yet. -/
structure Waiting (events : List Event) (outstanding : Table Nat (HostRequest × Bool))
    (received calls : List (Nat × HostRequest)) : Prop where
  events : events = calls.map fun call => .hostCall call.1 call.2
  distinct : (calls.map Prod.fst).Nodup
  outstanding : ∀ call ∈ calls, outstanding.get call.1 = some (call.2, false)
  unknown : ∀ call ∈ calls, call.1 ∉ received.map Prod.fst

/-- How the calls are kept until the last event is reported. -/
structure Tallied (supervisor : Supervisor) : Prop where
  known : ∀ id call, supervisor.outstanding.get id = some call →
    id < supervisor.nextId ∧ Event.hostCall id call.1 ∈ supervisor.delivered
  settled : ∀ answer ∈ supervisor.answered,
    answer.id < supervisor.nextId ∧ supervisor.outstanding.get answer.id = none
  room : supervisor.outstanding.entries.length ≤ maxPendingCalls
  bound : supervisor.nextId ≤ supervisor.limits.maxHostCalls + 1
  waiting : ∃ calls, Waiting supervisor.events supervisor.outstanding supervisor.received calls
  replied : ∀ control ∈ supervisor.controls, control.id ∈ supervisor.received.map Prod.fst
  received : ∀ call ∈ supervisor.received, call.1 < supervisor.nextId

theorem Tallied.not_full (h : Tallied supervisor) : ¬ maxPendingCalls < supervisor.events.length := by
  obtain ⟨calls, hwaiting⟩ := h.waiting
  rw [Nat.not_lt, hwaiting.events, length_map]
  have hkeys : ∀ id ∈ calls.map Prod.fst, ∃ call, supervisor.outstanding.get id = some call := by
    intro id hid
    obtain ⟨call, hcall, rfl⟩ := List.mem_map.mp hid
    exact ⟨_, hwaiting.outstanding call hcall⟩
  have hlength := length_le_of_keys hwaiting.distinct hkeys
  rw [length_map] at hlength
  exact hlength.trans h.room

theorem Tallied.staged (h : Tallied supervisor) {controls : List Control}
    (hcontrols : supervisor.controls = control :: controls) {calls : List (Nat × HostRequest)}
    (hwaiting : Waiting supervisor.events supervisor.outstanding supervisor.received calls)
    {call : Nat × HostRequest} (hcall : call ∈ calls) : call.1 ≠ control.id := by
  intro hsame
  refine hwaiting.unknown call hcall ?_
  rw [hsame]
  exact h.replied control (by rw [hcontrols]; exact mem_cons_self)

theorem Tallied.tail (h : Tallied supervisor) {controls : List Control}
    (hcontrols : supervisor.controls = control :: controls) :
    ∀ other ∈ controls, other.id ∈ supervisor.received.map Prod.fst := by
  intro other hother
  refine h.replied other ?_
  rw [hcontrols]
  exact mem_cons_of_mem _ hother

theorem Tallied.admits (h : Tallied supervisor) {id : Nat} {bytes : List UInt8}
    {controls : List Control} (hcontrols : supervisor.controls = .admitted id :: controls)
    (hget : supervisor.outstanding.get id = some (request, false)) :
    Tallied { supervisor with
      controls
      outstanding := supervisor.outstanding.insert id (request, true)
      frames := supervisor.frames ++ [.unguarded bytes] } where
  known other call hother := by
    rw [get_insert] at hother
    split at hother
    next heq =>
      cases hother
      rw [heq]
      exact h.known id (request, false) hget
    · exact h.known other call hother
  settled answer hanswer := by
    obtain ⟨hknown, hnone⟩ := h.settled answer hanswer
    refine ⟨hknown, ?_⟩
    rw [get_insert, if_neg]
    · exact hnone
    · intro heq
      rw [heq, hget] at hnone
      cases hnone
  room := (length_insert_of_get hget _).trans h.room
  bound := h.bound
  waiting := by
    obtain ⟨calls, hwaiting⟩ := h.waiting
    refine ⟨calls, hwaiting.events, hwaiting.distinct, fun call hcall => ?_, hwaiting.unknown⟩
    have hother : call.1 ≠ id := h.staged hcontrols hwaiting hcall
    rw [get_insert, if_neg hother]
    exact hwaiting.outstanding call hcall
  replied := h.tail hcontrols
  received := h.received

theorem Tallied.answers (h : Tallied supervisor) {id : Nat} {implicitlyAdmitted : Finset Nat}
    {controls : List Control} (hcontrols : supervisor.controls = .result id result disclosure :: controls)
    (hget : supervisor.outstanding.get id = some (request, admitted)) :
    Tallied { supervisor with
      controls
      outstanding := supervisor.outstanding.erase id
      implicitlyAdmitted
      frames
      answered := { id, request, result } :: supervisor.answered } where
  known other call hother := by
    rw [get_erase] at hother
    split at hother
    · cases hother
    · exact h.known other call hother
  settled answer hanswer := by
    rw [get_erase]
    rcases mem_cons.mp hanswer with rfl | hold
    · exact ⟨(h.known id _ hget).1, if_pos rfl⟩
    · obtain ⟨hknown, hnone⟩ := h.settled answer hold
      refine ⟨hknown, ?_⟩
      rw [hnone, ite_self]
  room := (length_erase_le _ _).trans h.room
  bound := h.bound
  waiting := by
    obtain ⟨calls, hwaiting⟩ := h.waiting
    refine ⟨calls, hwaiting.events, hwaiting.distinct, fun call hcall => ?_, hwaiting.unknown⟩
    have hother : call.1 ≠ id := h.staged hcontrols hwaiting hcall
    rw [get_erase, if_neg hother]
    exact hwaiting.outstanding call hcall
  replied := h.tail hcontrols
  received := h.received

theorem Tallied.called (h : Tallied supervisor) (hroom : supervisor.outstanding.entries.length < maxPendingCalls)
    (hbound : supervisor.nextId ≤ supervisor.limits.maxHostCalls) :
    Tallied { supervisor with
      outbox
      nextId := supervisor.nextId + 1
      outstanding := supervisor.outstanding.insert supervisor.nextId (request, false)
      events := supervisor.events ++ [.hostCall supervisor.nextId request]
      delivered := supervisor.delivered ++ [.hostCall supervisor.nextId request]
      point } where
  known other call hother := by
    rw [get_insert] at hother
    split at hother
    next heq =>
      cases hother
      rw [heq]
      exact ⟨Nat.lt_succ_self _, mem_append_right _ mem_cons_self⟩
    · obtain ⟨hless, hdelivered⟩ := h.known other call hother
      exact ⟨hless.trans (Nat.lt_succ_self _), mem_append_left _ hdelivered⟩
  settled answer hanswer := by
    obtain ⟨hless, hnone⟩ := h.settled answer hanswer
    refine ⟨hless.trans (Nat.lt_succ_self _), ?_⟩
    rw [get_insert, if_neg hless.ne]
    exact hnone
  room := (length_insert_le _ _ _).trans hroom
  bound := Nat.add_le_add_right hbound 1
  waiting := by
    obtain ⟨calls, hwaiting⟩ := h.waiting
    have hless : ∀ call ∈ calls, call.1 < supervisor.nextId := fun call hcall =>
      (h.known _ _ (hwaiting.outstanding call hcall)).1
    refine ⟨calls ++ [(supervisor.nextId, request)], ?_, ?_, ?_, ?_⟩
    · rw [map_append, ← hwaiting.events]
      rfl
    · rw [map_append, nodup_append]
      refine ⟨hwaiting.distinct, nodup_singleton _, ?_⟩
      intro id hid other hother heq
      obtain ⟨call, hcall, rfl⟩ := List.mem_map.mp hid
      rw [mem_singleton.mp hother] at heq
      exact (hless call hcall).ne heq
    · intro call hcall
      rw [get_insert]
      rcases mem_append.mp hcall with hold | hnew
      · rw [if_neg (hless call hold).ne]
        exact hwaiting.outstanding call hold
      · rw [mem_singleton.mp hnew, if_pos rfl]
    · intro call hcall
      rcases mem_append.mp hcall with hold | hnew
      · exact hwaiting.unknown call hold
      · rw [mem_singleton.mp hnew]
        intro hmem
        obtain ⟨other, hother, heq⟩ := List.mem_map.mp hmem
        exact (h.received other hother).ne heq
  replied := h.replied
  received call hcall := (h.received call hcall).trans (Nat.lt_succ_self _)

theorem Tallied.first (h : Tallied supervisor) {event : Event}
    (hevents : supervisor.events = event :: events) : ∃ call calls, event = .hostCall call.1 call.2 ∧
      Waiting supervisor.events supervisor.outstanding supervisor.received (call :: calls) ∧
      Waiting events supervisor.outstanding supervisor.received calls := by
  obtain ⟨calls, hwaiting⟩ := h.waiting
  have hmap := hwaiting.events
  rw [hevents] at hmap
  cases calls with
  | nil => cases hmap
  | cons call calls =>
    obtain ⟨rfl, hrest⟩ := List.cons.inj hmap
    refine ⟨call, calls, rfl, hwaiting, hrest, (nodup_cons.mp hwaiting.distinct).2, ?_, ?_⟩
    · exact fun other hother => hwaiting.outstanding other (mem_cons_of_mem _ hother)
    · exact fun other hother => hwaiting.unknown other (mem_cons_of_mem _ hother)

theorem Tallied.received' (h : Tallied supervisor) {id : Nat}
    (hevents : supervisor.events = .hostCall id request :: events) :
    Tallied { supervisor with events, received := (id, request) :: supervisor.received } := by
  obtain ⟨call, calls, hcall, hwaiting, hrest⟩ := h.first hevents
  cases hcall
  refine { h with
    waiting := ⟨calls, hrest.events, hrest.distinct, hrest.outstanding, ?_⟩
    replied := ?_
    received := ?_ }
  · intro other hother hmem
    rw [map_cons, mem_cons] at hmem
    rcases hmem with heq | hold
    · refine (nodup_cons.mp hwaiting.distinct).1 ?_
      rw [← heq]
      exact List.mem_map_of_mem hother
    · exact hrest.unknown other hother hold
  · intro control hcontrol
    exact mem_cons_of_mem _ (h.replied control hcontrol)
  · intro other hother
    rcases mem_cons.mp hother with rfl | hold
    · exact (h.known _ _ (hwaiting.outstanding _ mem_cons_self)).1
    · exact h.received other hold

theorem Queued.replied {controls : List Control} {refused : Bool}
    (h : Queued supervisor control controls refused) (htallied : Tallied supervisor)
    (hid : control.id ∈ supervisor.received.map Prod.fst) :
    ∀ other ∈ controls, other.id ∈ supervisor.received.map Prod.fst := by
  intro other hother
  rcases h.controls with rfl | rfl
  · exact htallied.replied other hother
  · rcases mem_append.mp hother with hold | hnew
    · exact htallied.replied other hold
    · rw [mem_singleton.mp hnew]
      exact hid

end

theorem Effect.tallied (h : Effect supervisor action supervisor') (hallows : supervisor.Allows action)
    (htallied : supervisor.point ≠ .stopped → Tallied supervisor) (hpoint : supervisor'.point ≠ .stopped) :
    Tallied supervisor' := by
  have hactive : supervisor.point.active = true → Tallied supervisor := fun hold =>
    htallied (ne_stopped hold)
  cases h with
  | tick | shut | signalled | misuses | sent | exits => exact { htallied hpoint with }
  | moved hold | began _ hold | stops hold | transmitted hold | ready hold =>
    exact { hactive hold with }
  | discarded hcontrols | implied _ hcontrols =>
    exact { htallied hpoint with replied := (htallied hpoint).tail hcontrols }
  | admits _ hcontrols _ hget => exact (htallied hpoint).admits hcontrols hget
  | answers _ hcontrols _ hget => exact (htallied hpoint).answers hcontrols hget
  | misstaged hold hcontrols =>
    exact { hactive hold with replied := (hactive hold).tail hcontrols }
  | called hold _ hroom hbound => exact (hactive hold).called hroom hbound
  | overflows hold hfull => exact absurd hfull (hactive hold).not_full
  | ended hstopping => exact { htallied (by rw [hstopping]; intro h; cases h) with }
  | reported | lost => exact absurd rfl hpoint
  | received hevents => exact (htallied hpoint).received' hevents
  | dropped hevents =>
    obtain ⟨call, calls, -, -, hrest⟩ := (htallied hpoint).first hevents
    exact { htallied hpoint with waiting := ⟨calls, hrest⟩ }
  | unchanged => exact htallied hpoint
  | acknowledges haction hqueued | replies haction _ hqueued =>
    subst haction
    exact { htallied hpoint with replied := hqueued.replied (htallied hpoint) hallows.1 }

/-! ## The replies -/

section

omit [Serde]

def admittedId : Control → Option Nat
  | .admitted id => some id
  | .result .. => none

def answeredId : Control → Option Nat
  | .admitted _ => none
  | .result id _ _ => some id

theorem mem_admitted {controls : List Control} {id : Nat} :
    id ∈ controls.filterMap admittedId ↔ Control.admitted id ∈ controls := by
  rw [mem_filterMap]
  constructor
  · rintro ⟨control, hcontrol, hid⟩
    cases control with
    | admitted other =>
      cases hid
      exact hcontrol
    | result => cases hid
  · intro hcontrol
    exact ⟨_, hcontrol, rfl⟩

theorem mem_answered {controls : List Control} {id : Nat} :
    id ∈ controls.filterMap answeredId ↔ ∃ result disclosure, Control.result id result disclosure ∈ controls := by
  rw [mem_filterMap]
  constructor
  · rintro ⟨control, hcontrol, hid⟩
    cases control with
    | admitted => cases hid
    | result other result disclosure =>
      cases hid
      exact ⟨result, disclosure, hcontrol⟩
  · rintro ⟨result, disclosure, hcontrol⟩
    exact ⟨_, hcontrol, rfl⟩

end

/-- Where the application has admitted and answered each call at most once, as it had received it. -/
structure Proper (supervisor : Supervisor) : Prop where
  /-- A call whose acknowledgement was not staged yet has none, and may be answered already. -/
  unadmitted : ∀ call ∈ supervisor.received,
    call.1 ∉ supervisor.admits ∨ call.1 ∈ supervisor.controls.filterMap admittedId →
      (∃ request, supervisor.outstanding.get call.1 = some (request, false)) ∨
        supervisor.outstanding.get call.1 = none ∧ call.1 ∈ supervisor.implicitlyAdmitted
  unanswered : ∀ call ∈ supervisor.received,
    call.1 ∉ supervisor.answers ∨ call.1 ∈ supervisor.controls.filterMap answeredId →
      ∃ admitted, supervisor.outstanding.get call.1 = some (call.2, admitted)
  admits : (supervisor.controls.filterMap admittedId).Nodup ∧
    ∀ id ∈ supervisor.controls.filterMap admittedId, id ∈ supervisor.admits
  answers : (supervisor.controls.filterMap answeredId).Nodup ∧
    ∀ id ∈ supervisor.controls.filterMap answeredId, id ∈ supervisor.answers
  valid : ∀ id result disclosure, Control.result id result disclosure ∈ supervisor.controls →
    sendable id result = true ∧ ∀ call ∈ supervisor.received, call.1 = id → result.validateFor call.2 = true

variable {known : List Nat} (ofKind : Control → Option Nat)

section

variable {id : Nat} {controls : List Control}

omit [Serde] in
theorem queuedTail (hkind : ofKind control = some id) (hcontrols : supervisor.controls = control :: controls)
    (h : (supervisor.controls.filterMap ofKind).Nodup ∧ ∀ other ∈ supervisor.controls.filterMap ofKind, other ∈ known) :
    ((controls.filterMap ofKind).Nodup ∧ ∀ other ∈ controls.filterMap ofKind, other ∈ known) ∧
      ∀ other, other ∉ known ∨ other ∈ controls.filterMap ofKind →
        other ≠ id ∧ (other ∉ known ∨ other ∈ supervisor.controls.filterMap ofKind) := by
  rw [hcontrols, filterMap_cons_some hkind] at h ⊢
  obtain ⟨hdistinct, hknown⟩ := h
  refine ⟨⟨(nodup_cons.mp hdistinct).2, fun other hother => hknown other (mem_cons_of_mem _ hother)⟩, ?_⟩
  intro other hpremise
  constructor
  · rintro rfl
    rcases hpremise with hnot | hmem
    · exact hnot (hknown _ mem_cons_self)
    · exact (nodup_cons.mp hdistinct).1 hmem
  · exact hpremise.imp_right (mem_cons_of_mem _)

theorem Proper.validTail (h : Proper supervisor) (hcontrols : supervisor.controls = control :: controls)
    (other : Nat) (result : HostResult) (disclosure : DisclosureGuard)
    (hmem : Control.result other result disclosure ∈ controls) :
    sendable other result = true ∧ ∀ call ∈ supervisor.received, call.1 = other → result.validateFor call.2 = true :=
  h.valid other result disclosure (by rw [hcontrols]; exact mem_cons_of_mem _ hmem)

theorem Proper.stageAdmitted (h : Proper supervisor)
    (hcontrols : supervisor.controls = .admitted id :: controls)
    (hget : supervisor.outstanding.get id = some (request, false)) :
    Proper { supervisor with
      controls, outstanding := supervisor.outstanding.insert id (request, true), frames } := by
  obtain ⟨hids, hothers⟩ := queuedTail admittedId rfl hcontrols h.admits
  have hsame : supervisor.controls.filterMap answeredId = controls.filterMap answeredId := by
    rw [hcontrols, filterMap_cons_none rfl]
  refine ⟨?_, ?_, hids, hsame ▸ h.answers, h.validTail hcontrols⟩
  · intro call hcall hpremise
    obtain ⟨hne, hold⟩ := hothers call.1 hpremise
    rw [get_insert, if_neg hne]
    exact h.unadmitted call hcall hold
  · intro call hcall hpremise
    obtain ⟨admitted, hcalled⟩ := h.unanswered call hcall (hsame ▸ hpremise)
    rw [get_insert]
    by_cases hid : call.1 = id
    · rw [hid, hget] at hcalled
      cases hcalled
      exact ⟨true, if_pos hid⟩
    · rw [if_neg hid]
      exact ⟨admitted, hcalled⟩

theorem Proper.stageImplied (h : Proper supervisor) (hcontrols : supervisor.controls = .admitted id :: controls) :
    Proper { supervisor with controls, implicitlyAdmitted := supervisor.implicitlyAdmitted.erase id } := by
  obtain ⟨hids, hothers⟩ := queuedTail admittedId rfl hcontrols h.admits
  have hsame : supervisor.controls.filterMap answeredId = controls.filterMap answeredId := by
    rw [hcontrols, filterMap_cons_none rfl]
  refine ⟨?_, ?_, hids, hsame ▸ h.answers, h.validTail hcontrols⟩
  · intro call hcall hpremise
    obtain ⟨hne, hold⟩ := hothers call.1 hpremise
    exact (h.unadmitted call hcall hold).imp_right fun ⟨hnone, himplied⟩ =>
      ⟨hnone, Finset.mem_erase.mpr ⟨hne, himplied⟩⟩
  · intro call hcall hpremise
    exact h.unanswered call hcall (hsame ▸ hpremise)

theorem Proper.stageAnswered (h : Proper supervisor) {answered : List Answer}
    (hcontrols : supervisor.controls = .result id result disclosure :: controls)
    (hget : supervisor.outstanding.get id = some (request, admitted)) :
    Proper { supervisor with
      controls
      outstanding := supervisor.outstanding.erase id
      implicitlyAdmitted :=
        if admitted then supervisor.implicitlyAdmitted else insert id supervisor.implicitlyAdmitted
      frames, answered } := by
  obtain ⟨hids, hothers⟩ := queuedTail answeredId rfl hcontrols h.answers
  have hsame : supervisor.controls.filterMap admittedId = controls.filterMap admittedId := by
    rw [hcontrols, filterMap_cons_none rfl]
  refine ⟨?_, ?_, hsame ▸ h.admits, hids, h.validTail hcontrols⟩
  · intro call hcall hpremise
    have hold := h.unadmitted call hcall (hsame ▸ hpremise)
    rw [get_erase]
    by_cases hid : call.1 = id
    · -- The answer completes the admission as well.
      rw [hid, hget] at hold
      rcases hold with ⟨found, hfound⟩ | ⟨hnone, -⟩
      · cases hfound
        exact .inr ⟨if_pos hid, hid ▸ Finset.mem_insert_self _ _⟩
      · cases hnone
    · rw [if_neg hid]
      refine hold.imp_right fun ⟨hnone, himplied⟩ => ⟨hnone, ?_⟩
      split
      · exact himplied
      · exact Finset.mem_insert_of_mem himplied
  · intro call hcall hpremise
    obtain ⟨hne, hold⟩ := hothers call.1 hpremise
    rw [get_erase, if_neg hne]
    exact h.unanswered call hcall hold

end

/-- A reply that is queued by an application that keeps to its calls is staged. -/
theorem Proper.stages (h : Proper supervisor) (htallied : Tallied supervisor)
    (hwrites : Serde.WritesSignals) {controls : List Control}
    (hcontrols : supervisor.controls = control :: controls)
    (error : SupervisorError) : { supervisor with controls }.stageControl control ≠ .error error := by
  have hreplied := htallied.replied control (by rw [hcontrols]; exact mem_cons_self)
  obtain ⟨call, hcall, hid⟩ := List.mem_map.mp hreplied
  cases control with
  | admitted id =>
    have hmem : call.1 ∈ supervisor.controls.filterMap admittedId := by
      rw [hcontrols, mem_admitted, hid]
      exact mem_cons_self
    have hbound : id < 2 ^ 32 := by
      have hless := htallied.received call hcall
      have hlimit := supervisor.limits.valid.2
      have hnext := htallied.bound
      change call.1 = id at hid
      omega
    obtain ⟨frame, hframe⟩ := hwrites.2 id hbound
    have hold := h.unadmitted call hcall (.inr hmem)
    rw [hid] at hold
    unfold stageControl
    dsimp only [Control.id] at hold ⊢
    rcases hold with ⟨request, hget⟩ | ⟨hnone, himplied⟩
    · rw [hget]
      dsimp only
      rw [if_neg Bool.false_ne_true, hframe]
      intro herror
      cases herror
    · rw [hnone]
      dsimp only
      rw [if_pos himplied]
      intro herror
      cases herror
  | result id result disclosure =>
    have hmem : call.1 ∈ supervisor.controls.filterMap answeredId := by
      rw [hcontrols, mem_answered, hid]
      exact ⟨result, disclosure, mem_cons_self⟩
    obtain ⟨admitted, hget⟩ := h.unanswered call hcall (.inr hmem)
    obtain ⟨hsendable, hvalid⟩ := h.valid id result disclosure (by rw [hcontrols]; exact mem_cons_self)
    have hvalid := hvalid call hcall hid
    rw [hid] at hget
    unfold sendable at hsendable
    rw [Bool.and_eq_true, Option.isSome_iff_exists] at hsendable
    obtain ⟨-, frame, hframe⟩ := hsendable
    unfold stageControl
    dsimp only [Control.id] at hget ⊢
    rw [hget]
    dsimp only
    rw [hvalid, hframe]
    intro herror
    cases herror

section

variable {id : Nat} {controls : List Control} {opened refused misused : Bool}

omit [Serde] in
theorem queued_ids (hkind : ofKind control = some id)
    (hcontrols : controls = supervisor.controls ∨ controls = supervisor.controls ++ [control])
    (h : (supervisor.controls.filterMap ofKind).Nodup ∧ ∀ other ∈ supervisor.controls.filterMap ofKind, other ∈ known)
    (hnew : id ∉ known) :
    ((controls.filterMap ofKind).Nodup ∧ ∀ other ∈ controls.filterMap ofKind, other ∈ id :: known) ∧
      ∀ other, other ∉ id :: known ∨ other ∈ controls.filterMap ofKind →
        other ∉ known ∨ other ∈ supervisor.controls.filterMap ofKind := by
  obtain ⟨hdistinct, hknown⟩ := h
  rcases hcontrols with rfl | rfl
  · refine ⟨⟨hdistinct, fun other hother => mem_cons_of_mem _ (hknown other hother)⟩, fun other hpremise => ?_⟩
    exact hpremise.imp_left fun hnot hmem => hnot (mem_cons_of_mem _ hmem)
  · rw [filterMap_append, filterMap_cons_some (f := ofKind) hkind]
    refine ⟨⟨?_, ?_⟩, ?_⟩
    · rw [nodup_append]
      refine ⟨hdistinct, nodup_singleton _, ?_⟩
      rintro other hother same hsame rfl
      rw [mem_singleton.mp hsame] at hother
      exact hnew (hknown id hother)
    · intro other hother
      rcases mem_append.mp hother with hold | hlast
      · exact mem_cons_of_mem _ (hknown other hold)
      · rw [mem_singleton.mp hlast]
        exact mem_cons_self
    · rintro other (hnot | hmem)
      · exact .inl fun hmem => hnot (mem_cons_of_mem _ hmem)
      · rcases mem_append.mp hmem with hold | hlast
        · exact .inr hold
        · rw [mem_singleton.mp hlast]
          exact .inl hnew

omit [Serde] in
theorem other_ids (hkind : ofKind control = none)
    (hcontrols : controls = supervisor.controls ∨ controls = supervisor.controls ++ [control]) :
    controls.filterMap ofKind = supervisor.controls.filterMap ofKind := by
  rcases hcontrols with rfl | rfl
  · rfl
  · rw [filterMap_append, filterMap_cons_none hkind, filterMap_nil, append_nil]

theorem Proper.acknowledges (h : Proper supervisor) (hqueued : Queued supervisor (.admitted id) controls refused)
    (hnew : id ∉ supervisor.admits) :
    Proper { supervisor with misused, admits := id :: supervisor.admits, controls, opened, refused } := by
  obtain ⟨hids, hpremises⟩ := queued_ids admittedId rfl hqueued.controls h.admits hnew
  have hsame := other_ids answeredId rfl hqueued.controls
  refine ⟨?_, ?_, hids, hsame ▸ h.answers, ?_⟩
  · intro call hcall hpremise
    exact h.unadmitted call hcall (hpremises call.1 hpremise)
  · intro call hcall hpremise
    exact h.unanswered call hcall (hsame ▸ hpremise)
  · intro other result disclosure hmem
    rcases hqueued.controls with rfl | rfl
    · exact h.valid other result disclosure hmem
    · rcases mem_append.mp hmem with hold | hlast
      · exact h.valid other result disclosure hold
      · cases mem_singleton.mp hlast

theorem Proper.replies (h : Proper supervisor)
    (hqueued : Queued supervisor (.result id result disclosure) controls refused)
    (hsendable : sendable id result = true) (hnew : id ∉ supervisor.answers)
    (hvalid : ∀ call ∈ supervisor.received, call.1 = id → result.validateFor call.2 = true) :
    Proper { supervisor with misused, answers := id :: supervisor.answers, controls, opened, refused } := by
  obtain ⟨hids, hpremises⟩ := queued_ids answeredId rfl hqueued.controls h.answers hnew
  have hsame := other_ids admittedId rfl hqueued.controls
  refine ⟨?_, ?_, hsame ▸ h.admits, hids, ?_⟩
  · intro call hcall hpremise
    exact h.unadmitted call hcall (hsame ▸ hpremise)
  · intro call hcall hpremise
    exact h.unanswered call hcall (hpremises call.1 hpremise)
  · intro other found disclosure' hmem
    rcases hqueued.controls with rfl | rfl
    · exact h.valid other found disclosure' hmem
    · rcases mem_append.mp hmem with hold | hlast
      · exact h.valid other found disclosure' hold
      · cases mem_singleton.mp hlast
        exact ⟨hsendable, hvalid⟩

end

theorem Proper.receives (h : Proper supervisor) (htallied : Tallied supervisor) {id : Nat}
    (hevents : supervisor.events = .hostCall id request :: events) :
    Proper { supervisor with events, received := (id, request) :: supervisor.received } := by
  obtain ⟨call, calls, hcall, hwaiting, -⟩ := htallied.first hevents
  cases hcall
  have hget := hwaiting.outstanding call mem_cons_self
  refine ⟨?_, ?_, h.admits, h.answers, ?_⟩
  · intro other hother hpremise
    rcases mem_cons.mp hother with rfl | hold
    · exact .inl ⟨_, hget⟩
    · exact h.unadmitted other hold hpremise
  · intro other hother hpremise
    rcases mem_cons.mp hother with rfl | hold
    · exact ⟨_, hget⟩
    · exact h.unanswered other hold hpremise
  · intro other result disclosure hmem
    obtain ⟨hsendable, hvalid⟩ := h.valid other result disclosure hmem
    refine ⟨hsendable, fun found hfound hid => ?_⟩
    rcases mem_cons.mp hfound with rfl | hold
    · have hreplied : other ∈ supervisor.received.map Prod.fst := htallied.replied _ hmem
      rw [← hid] at hreplied
      exact absurd hreplied (hwaiting.unknown call mem_cons_self)
    · exact hvalid found hold hid

variable {delivered : List Event}

theorem Proper.called (h : Proper supervisor) (htallied : Tallied supervisor) : Proper { supervisor with
      outbox
      nextId := supervisor.nextId + 1
      outstanding := supervisor.outstanding.insert supervisor.nextId (request, false)
      events, delivered, point } := by
  have hother : ∀ call ∈ supervisor.received,
      (supervisor.outstanding.insert supervisor.nextId (request, false)).get call.1 =
        supervisor.outstanding.get call.1 := by
    intro call hcall
    rw [get_insert, if_neg (htallied.received call hcall).ne]
  refine ⟨?_, ?_, h.admits, h.answers, h.valid⟩
  · intro call hcall hpremise
    rw [hother call hcall]
    exact h.unadmitted call hcall hpremise
  · intro call hcall hpremise
    rw [hother call hcall]
    exact h.unanswered call hcall hpremise

theorem Effect.proper (h : Effect supervisor action supervisor') (hwrites : Serde.WritesSignals)
    (htallied : supervisor.point ≠ .stopped → Tallied supervisor)
    (hproper : supervisor.point ≠ .stopped → supervisor.cancelling = none → supervisor.misused = false →
      Proper supervisor)
    (hpoint : supervisor'.point ≠ .stopped) (hnone : supervisor'.cancelling = none)
    (hmisused : supervisor'.misused = false) : Proper supervisor' := by
  cases h with
  | tick | dropped | shut | signalled | sent | exits => exact { hproper hpoint hnone hmisused with }
  | moved hold | stops hold | transmitted hold | ready hold =>
    exact { hproper (ne_stopped hold) hnone hmisused with }
  | began => cases hnone
  | discarded _ hcancelling =>
    rw [hnone] at hcancelling
    cases hcancelling
  | admits _ hcontrols _ hget => exact (hproper hpoint hnone hmisused).stageAdmitted hcontrols hget
  | implied _ hcontrols => exact (hproper hpoint hnone hmisused).stageImplied hcontrols
  | answers _ hcontrols _ hget => exact (hproper hpoint hnone hmisused).stageAnswered hcontrols hget
  | misstaged hold hcontrols hrunning herror =>
    have hstages := (hproper (ne_stopped hold) hrunning hmisused).stages (htallied (ne_stopped hold)) hwrites hcontrols
    exact absurd herror (hstages _)
  | called hold => exact (hproper (ne_stopped hold) hnone hmisused).called (htallied (ne_stopped hold))
  | overflows hold hfull => exact absurd hfull (htallied (ne_stopped hold)).not_full
  | ended hstopping => exact { hproper (by rw [hstopping]; intro h; cases h) hnone hmisused with }
  | reported | lost => exact absurd rfl hpoint
  | received hevents => exact (hproper hpoint hnone hmisused).receives (htallied hpoint) hevents
  | unchanged => exact hproper hpoint hnone hmisused
  | acknowledges haction hqueued =>
    rw [Bool.or_eq_false_iff, Bool.not_eq_false', decide_eq_true_iff] at hmisused
    exact (hproper hpoint hnone hmisused.1).acknowledges hqueued hmisused.2.2
  | replies haction hsendable hqueued =>
    rw [Bool.or_eq_false_iff, Bool.not_eq_false', decide_eq_true_iff] at hmisused
    exact (hproper hpoint hnone hmisused.1).replies hqueued hsendable hmisused.2.2.1 hmisused.2.2.2
  | misuses => cases hmisused

/-! ## What is answered and reported -/

section

omit [Serde]

/-- Until the last event is reported nothing that is delivered is one, and then it is the last. -/
def Ends (point : LoopPoint) (delivered : List Event) : Prop :=
  match point with
  | .stopped => ∃ calls event, delivered = calls ++ [event] ∧ event.isTerminal ∧
      ∀ call ∈ calls, call.isTerminal = false
  | _ => ∀ event ∈ delivered, event.isTerminal = false

theorem ends_iff (hpoint : point ≠ .stopped) :
    Ends point delivered ↔ ∀ event ∈ delivered, event.isTerminal = false := by
  unfold Ends
  split
  · exact absurd rfl hpoint
  · exact Iff.rfl

theorem isTerminal_terminal (result : Except SupervisorError Outcome) (reaped : Bool) :
    (terminal result reaped).isTerminal = true := by
  unfold terminal
  split
  · rfl
  · split
    · rfl
    · rfl

end

theorem Effect.ends (h : Effect supervisor action supervisor')
    (htallied : supervisor.point ≠ .stopped → Tallied supervisor)
    (hends : Ends supervisor.point supervisor.delivered) : Ends supervisor'.point supervisor'.delivered := by
  cases h with
  | moved hold hnew | began _ hold _ _ hnew =>
    exact (ends_iff (ne_stopped hnew)).mpr ((ends_iff (ne_stopped hold)).mp hends)
  | stops hold | misstaged hold | transmitted hold | ready hold | overflows hold =>
    exact (ends_iff (ne_stopped hold)).mp hends
  | called hold _ _ _ hpoint =>
    have hnot : ∀ {point : LoopPoint}, point = .polling ∨ point = .stopping (.error .unavailable) →
        point ≠ .stopped := by
      rintro point (rfl | rfl) hstopped <;> cases hstopped
    rw [ends_iff (ne_stopped hold)] at hends
    refine (ends_iff (hnot hpoint)).mpr fun event hevent => ?_
    rcases mem_append.mp hevent with hold | hnew
    · exact hends event hold
    · rw [mem_singleton.mp hnew]
      rfl
  | ended hstopping =>
    rw [hstopping] at hends
    exact hends
  | reported hreaping =>
    rw [hreaping] at hends
    exact ⟨_, _, rfl, isTerminal_terminal _ _, hends⟩
  | lost hreaping hfull =>
    exact absurd hfull (htallied (by rw [hreaping]; nofun)).not_full
  | _ => exact hends

/-- The answers that were staged. -/
def Answered (supervisor : Supervisor) : Prop :=
  (supervisor.answered.map Answer.id).Nodup ∧ ∀ answer ∈ supervisor.answered,
    answer.result.validateFor answer.request = true ∧
      Event.hostCall answer.id answer.request ∈ supervisor.delivered

theorem Effect.answered (h : Effect supervisor action supervisor')
    (htallied : supervisor.point ≠ .stopped → Tallied supervisor) (hanswered : Answered supervisor) :
    Answered supervisor' := by
  obtain ⟨hdistinct, hvalid⟩ := hanswered
  cases h with
  | @answers id result disclosure request admitted bytes controls hold hcontrols hnone hget hfor =>
    have h := htallied (ne_stopped hold)
    constructor
    · rw [map_cons, nodup_cons]
      refine ⟨fun hmem => ?_, hdistinct⟩
      obtain ⟨answer, hanswer, hid⟩ := List.mem_map.mp hmem
      have hsettled := (h.settled answer hanswer).2
      rw [hid, hget] at hsettled
      cases hsettled
    · intro answer hanswer
      rcases mem_cons.mp hanswer with rfl | hearlier
      · exact ⟨hfor, (h.known id _ hget).2⟩
      · exact hvalid answer hearlier
  | called | reported =>
    refine ⟨hdistinct, fun answer hanswer => ?_⟩
    exact (hvalid answer hanswer).imp_right (mem_append_left _)
  | _ => exact ⟨hdistinct, hvalid⟩

/-! ## Cancellation -/

section

omit [Serde]

/-- What an acknowledged run is about to report, or has reported. -/
def Acknowledged (supervisor : Supervisor) : Prop :=
  match supervisor.point with
  | .stopping result | .reaping result => result = .ok .cancelled
  | .stopped => ∀ event ∈ supervisor.delivered, event.isTerminal → event.isCancelled
  | _ => supervisor.cancelling.isSome = true ∧ supervisor.qualified = true ∧ supervisor.frames = [] ∧
      ∃ output ∈ supervisor.outbox.head?, output.isFinished = true

structure Cancels (supervisor : Supervisor) : Prop where
  /-- No call is on its way to a run that is being cancelled. -/
  quiet : supervisor.point.active = true → supervisor.cancelling.isSome = true →
    ∀ output ∈ supervisor.outbox, output.isHostCall = false
  acknowledged : supervisor.acknowledged = true → Acknowledged supervisor

theorem acknowledged_iff (hactive : supervisor.point.active = true) : Acknowledged supervisor ↔
    supervisor.cancelling.isSome = true ∧ supervisor.qualified = true ∧ supervisor.frames = [] ∧
      ∃ output ∈ supervisor.outbox.head?, output.isFinished = true := by
  unfold Acknowledged
  split
  next hpoint => rw [hpoint] at hactive; cases hactive
  next hpoint => rw [hpoint] at hactive; cases hactive
  next hpoint => rw [hpoint] at hactive; cases hactive
  · exact Iff.rfl

theorem StopReason.ok {result : Except SupervisorError Outcome} (h : StopReason supervisor action result)
    (hallows : supervisor.Allows action) (hactive : supervisor.point.active = true) (hcancels : Cancels supervisor)
    (hacknowledged : supervisor.acknowledged = true) : result = .ok .cancelled := by
  obtain ⟨hcancelling, hqualified, hframes, output, hhead, hfinished⟩ :=
    (acknowledged_iff hactive).mp (hcancels.acknowledged hacknowledged)
  cases h with
  | cancelled => rfl
  | unqualified hnot =>
    rw [hnot] at hqualified
    cases hqualified
  | overdue haction hlate =>
    subst haction
    unfold Allows at hallows
    rw [if_pos hcancelling] at hallows
    exact absurd hlate (Nat.not_le.mpr hallows)
  | running hnone =>
    rw [hnone] at hcancelling
    cases hcancelling
  | unsent hunsent => exact absurd hframes hunsent
  | unfinished hnot =>
    rw [hnot output hhead] at hfinished
    cases hfinished
  | exited haction hexited =>
    subst haction
    rw [hallows.1 hexited] at hhead
    cases hhead
  | unread haction =>
    subst haction
    exact absurd hacknowledged (Bool.eq_false_iff.mp hallows)
  | unwatched haction hnot =>
    subst haction
    exact absurd (hallows.2 hacknowledged) hnot

theorem Cancels.unacknowledged (h : Cancels supervisor) (hactive : supervisor.point.active = true)
    (hnone : supervisor.cancelling = none) : ¬ supervisor.acknowledged = true := by
  intro hacknowledged
  have hcancelling := ((acknowledged_iff hactive).mp (h.acknowledged hacknowledged)).1
  rw [hnone] at hcancelling
  cases hcancelling

theorem Cancels.sends (h : Cancels supervisor) (output : WorkerOutput)
    (hallows : supervisor.Allows (.send output)) : Cancels { supervisor with
      outbox := supervisor.outbox ++ [output]
      acknowledged := supervisor.acknowledged || supervisor.acknowledges output } where
  quiet hactive hcancelling other hother := by
    rcases mem_append.mp hother with hold | hnew
    · exact h.quiet hactive hcancelling other hold
    · rw [mem_singleton.mp hnew]
      exact hallows hcancelling
  acknowledged hacknowledged := by
    rw [Bool.or_eq_true] at hacknowledged
    rcases hacknowledged with hold | hnew
    · have hsettled := h.acknowledged hold
      by_cases hactive : supervisor.point.active = true
      · obtain ⟨hcancelling, hqualified, hframes, first, hhead, hfinished⟩ := (acknowledged_iff hactive).mp hsettled
        refine (acknowledged_iff (by exact hactive)).mpr ⟨hcancelling, hqualified, hframes, first, ?_, hfinished⟩
        rw [head?_append_of_ne_nil]
        · exact hhead
        · intro hempty
          rw [hempty] at hhead
          cases hhead
      · unfold Acknowledged at hsettled ⊢
        dsimp only
        split at hsettled
        · exact hsettled
        · exact hsettled
        · exact hsettled
        next hstopping hreaping hstopped =>
          refine absurd ?_ hactive
          cases hpoint : supervisor.point with
          | stopping => exact absurd hpoint (hstopping _)
          | reaping => exact absurd hpoint (hreaping _)
          | stopped => exact absurd hpoint hstopped
          | _ => rfl
    · -- Nothing but calls was unread, and there is none.
      unfold acknowledges cancelSent at hnew
      simp only [Bool.and_eq_true] at hnew
      obtain ⟨⟨⟨hfinished, hactive⟩, ⟨hqualified, hcancelling⟩, hframes⟩, hcalls⟩ := hnew
      have hempty : supervisor.outbox = [] := by
        rw [eq_nil_iff_forall_not_mem]
        intro other hother
        have hcall := List.all_eq_true.mp hcalls other hother
        rw [h.quiet hactive hcancelling other hother] at hcall
        cases hcall
      refine (acknowledged_iff (by exact hactive)).mpr
        ⟨hcancelling, hqualified, List.isEmpty_iff.mp hframes, output, ?_, hfinished⟩
      dsimp only
      rw [hempty]
      rfl

end

theorem Effect.cancels (h : Effect supervisor action supervisor') (hallows : supervisor.Allows action)
    (htallied : supervisor.point ≠ .stopped → Tallied supervisor) (hends : Ends supervisor.point supervisor.delivered)
    (hcancels : Cancels supervisor) : Cancels supervisor' := by
  cases h with
  | tick | discarded | received | dropped | shut | signalled | acknowledges | replies | misuses
  | exits => exact { hcancels with }
  | moved hold hnew =>
    refine ⟨fun _ => hcancels.quiet hold, fun hacknowledged => ?_⟩
    exact (acknowledged_iff hnew).mpr ((acknowledged_iff hold).mp (hcancels.acknowledged hacknowledged))
  | began haction hold hnone hcancelled hnew =>
    subst haction
    unfold Allows at hallows
    rw [hnone] at hallows
    refine ⟨fun _ _ => (hallows hcancelled).2, fun hacknowledged => ?_⟩
    exact absurd hacknowledged (hcancels.unacknowledged hold hnone)
  | stops hold hreason =>
    refine ⟨nofun, fun hacknowledged => ?_⟩
    exact hreason.ok hallows hold hcancels hacknowledged
  | admits hold _ hnone | implied hold _ hnone | answers hold hcontrols hnone =>
    exact ⟨hcancels.quiet, fun hacknowledged => absurd hacknowledged (hcancels.unacknowledged hold hnone)⟩
  | misstaged hold _ hnone =>
    refine ⟨nofun, fun hacknowledged => ?_⟩
    exact absurd hacknowledged (hcancels.unacknowledged hold hnone)
  | transmitted hold hframes =>
    refine ⟨fun _ => hcancels.quiet hold, fun hacknowledged => ?_⟩
    have hsent := ((acknowledged_iff hold).mp (hcancels.acknowledged hacknowledged)).2.2.1
    rw [hframes] at hsent
    cases hsent
  | ready hold houtbox hfinished =>
    refine ⟨fun _ hcancelling output houtput => ?_, fun hacknowledged => ?_⟩
    · refine hcancels.quiet hold hcancelling output ?_
      rw [houtbox]
      exact mem_cons_of_mem _ houtput
    · obtain ⟨-, -, -, first, hhead, hends⟩ := (acknowledged_iff hold).mp (hcancels.acknowledged hacknowledged)
      rw [houtbox] at hhead
      cases hhead
      rw [hfinished] at hends
      cases hends
  | called hold hnone =>
    refine ⟨fun _ hcancelling => ?_, fun hacknowledged => ?_⟩
    · rw [hnone] at hcancelling
      cases hcancelling
    · exact absurd hacknowledged (hcancels.unacknowledged hold hnone)
  | overflows hold hfull =>
    exact absurd hfull (htallied (ne_stopped hold)).not_full
  | ended hstopping =>
    refine ⟨nofun, fun hacknowledged => ?_⟩
    have hsettled := hcancels.acknowledged hacknowledged
    unfold Acknowledged at hsettled
    rw [hstopping] at hsettled
    exact hsettled
  | @reported result reaped hreaping haction =>
    refine ⟨nofun, fun hacknowledged event hevent hterminal => ?_⟩
    have hsettled := hcancels.acknowledged hacknowledged
    unfold Acknowledged at hsettled
    rw [hreaping] at hsettled hends
    subst haction
    rcases mem_append.mp hevent with hold | hnew
    · rw [hends event hold] at hterminal
      cases hterminal
    · rw [mem_singleton.mp hnew, hsettled, hallows hacknowledged]
      rfl
  | lost hreaping hfull =>
    exact absurd hfull (htallied (by rw [hreaping]; nofun)).not_full
  | unchanged => exact hcancels
  | sent haction =>
    subst haction
    exact hcancels.sends _ hallows

/-! ## Runs -/

/-- What a run keeps whose steps are allowed. -/
structure Sound (supervisor : Supervisor) : Prop where
  framed : Framed supervisor.frames supervisor.sent supervisor.written
  tallied : supervisor.point ≠ .stopped → Tallied supervisor
  proper : supervisor.point ≠ .stopped → supervisor.cancelling = none → supervisor.misused = false →
    Proper supervisor
  answered : Answered supervisor
  cancels : Cancels supervisor
  ends : Ends supervisor.point supervisor.delivered
  overflow : supervisor.overflowed = false
  accepts : supervisor.misused = false → supervisor.refused = false

theorem start_sound (limits : Limits) (expectedProfile : Text) (startupDeadline deadline : Instant)
    (frames : List (List UInt8)) : Sound (start limits expectedProfile startupDeadline deadline frames) where
  framed := ⟨nofun, (fun hsent => absurd rfl hsent)⟩
  tallied _ :=
    { known := nofun
      settled := nofun
      room := Nat.zero_le _
      bound := Nat.le_add_left _ _
      waiting := ⟨[], rfl, nodup_nil, nofun, nofun⟩
      replied := nofun
      received := fun _ hmem => by cases hmem }
  proper _ _ _ :=
    { unadmitted := nofun
      unanswered := nofun
      admits := ⟨nodup_nil, nofun⟩
      answers := ⟨nodup_nil, (fun _ hmem => by cases hmem)⟩
      valid := fun _ _ _ hmem => by cases hmem }
  answered := ⟨nodup_nil, (fun _ hmem => by cases hmem)⟩
  cancels := ⟨(fun _ hcancelling => by cases hcancelling), (fun hacknowledged => by cases hacknowledged)⟩
  ends := (ends_iff (by intro hpoint; cases hpoint)).mpr fun _ hmem => by cases hmem
  overflow := rfl
  accepts _ := rfl

theorem Effect.overflow (h : Effect supervisor action supervisor') (hsound : Sound supervisor) :
    supervisor'.overflowed = false := by
  cases h with
  | overflows hold hfull =>
    exact absurd hfull (hsound.tallied (ne_stopped hold)).not_full
  | lost hreaping hfull =>
    exact absurd hfull (hsound.tallied (by rw [hreaping]; nofun)).not_full
  | _ => exact hsound.overflow

omit [Serde] in
theorem Queued.accepts {controls : List Control} {refused : Bool}
    (h : Queued supervisor control controls refused) (hroom : supervisor.controls.length < maxPendingCalls)
    (hold : supervisor.refused = false) : refused = false := by
  rcases h.refused with rfl | hfull
  · exact hold
  · exact absurd hroom (Nat.not_lt.mpr hfull)

theorem Effect.accepts (h : Effect supervisor action supervisor') (hwrites : Serde.WritesSignals)
    (hallows : supervisor.Allows action) (hsound : Sound supervisor) (hmisused : supervisor'.misused = false) :
    supervisor'.refused = false := by
  cases h with
  | misstaged hold hcontrols hnone herror =>
    have hpoint := ne_stopped hold
    have hstages := (hsound.proper hpoint hnone hmisused).stages (hsound.tallied hpoint) hwrites hcontrols
    exact absurd herror (hstages _)
  | acknowledges haction hqueued | replies haction _ hqueued =>
    subst haction
    exact hqueued.accepts hallows.2 (hsound.accepts (Bool.or_eq_false_iff.mp hmisused).1)
  | misuses => cases hmisused
  | _ => exact hsound.accepts hmisused

theorem Sound.step (h : Sound supervisor) (hwrites : Serde.WritesSignals) (hallows : supervisor.Allows action)
    (hstep : supervisor.step action = some supervisor') : Sound supervisor' := by
  have heffect := step_effect hstep
  constructor
  · exact heffect.framed hallows h.framed
  · exact heffect.tallied hallows h.tallied
  · exact heffect.proper hwrites h.tallied h.proper
  · exact heffect.answered h.tallied h.answered
  · exact heffect.cancels hallows h.tallied h.ends h.cancels
  · exact heffect.ends h.tallied h.ends
  · exact heffect.overflow h
  · exact heffect.accepts hwrites hallows h

theorem Sound.keepsProtocol (h : Sound supervisor) : KeepsProtocol supervisor where
  frames := by
    by_cases hsent : supervisor.sent = 0
    · have hcomplete := h.framed.between hsent
      constructor
      · exact fun transmission hmem => hcomplete transmission (mem_of_mem_tail hmem)
      · exact fun transmission hmem => (hcomplete transmission (mem_of_mem_head? hmem)).le
    · obtain ⟨frame, rest, earlier, -, hwritten, hless, hcomplete⟩ := h.framed.within hsent
      rw [hwritten]
      refine ⟨hcomplete, ?_⟩
      rintro transmission ⟨⟩
      exact hless.le
  cancelled hacknowledged := by
    have hsettled := h.cancels.acknowledged hacknowledged
    constructor
    · intro hactive
      exact ((acknowledged_iff hactive).mp hsettled).2.2.2
    · intro event hevent hterminal
      by_cases hpoint : supervisor.point = .stopped
      · unfold Acknowledged at hsettled
        rw [hpoint] at hsettled
        exact hsettled event hevent hterminal
      · rw [(ends_iff hpoint).mp h.ends event hevent] at hterminal
        cases hterminal
  answered := h.answered
  accepts := h.accepts
  overflow := h.overflow
  terminal := h.ends

/-- In every run whose steps are allowed. -/
theorem supervisor_keeps_protocol (hwrites : Serde.WritesSignals) {limits : Limits} {expectedProfile : Text}
    {startupDeadline deadline : Instant} {frames : List (List UInt8)}
    (h : Runs.Reaches step Allows (start limits expectedProfile startupDeadline deadline frames) supervisor) :
    KeepsProtocol supervisor := by
  have hsound : Sound supervisor := by
    induction h with
    | refl => exact start_sound limits expectedProfile startupDeadline deadline frames
    | step _ hallows hstep ih => exact ih.step hwrites hallows hstep
  exact hsound.keepsProtocol

theorem encodeFrame_of_message {message : ParentMessage} {payload : List UInt8}
    (hmessage : Serde.message message = some payload) (hne : payload ≠ [])
    (hlength : payload.length ≤ maxFrameBytes) : ∃ frame, encodeFrame message = some frame := by
  refine ⟨_, (congrArg (Option.bind · _) hmessage).trans (if_neg ?_)⟩
  rintro (hempty | hlong)
  · exact hne (List.isEmpty_iff.mp hempty)
  · exact absurd hlength (Nat.not_le.mpr hlong)

omit [Serde] in
theorem signals_are_written : letI := Serde.signals; Serde.WritesSignals := by
  let _ := Serde.signals
  have hcancel : ("\x7b\"type\":\"cancel\"\x7d".toUTF8.toList).length = 17 := by decide +kernel
  have hname : ("\x7b\"type\":\"hostAdmitted\",\"id\":".toUTF8.toList).length = 28 := by decide +kernel
  constructor
  · apply encodeFrame_of_message rfl
    · intro hempty
      rw [hempty] at hcancel
      cases hcancel
    · rw [hcancel]
      decide
  · intro id hid
    have hdigits : (Nat.toDigits 10 id).length ≤ 10 :=
      (Nat.length_toDigits_le_iff (by decide) (by decide)).mpr (hid.trans (by decide))
    apply encodeFrame_of_message rfl
    · exact append_ne_nil_of_right_ne_nil _ (cons_ne_nil _ _)
    · rw [length_append, length_append, length_map, hname, length_singleton]
      exact (Nat.add_le_add_right (Nat.add_le_add_left hdigits _) _).trans (by decide)

def newRun : Supervisor := start ⟨1024, by decide⟩ [] 10 100 [[1, 2, 3]]

def qualifies : List SupervisorAction := [.send (.message (.ready [])), .pass, .read true, .poll .running]

def sendsText : HostRequest := .sendText ⟨['s'], 1⟩ ['x']

/-- The first call is admitted and answered, and then the run is cancelled and acknowledged. -/
def servedRun : List SupervisorAction :=
  qualifies ++
  [.pass, .drain, .write (.wrote 3), .send (.message (.hostCall 1 sendsText)), .read true, .poll .running, .receive,
    .hostAdmitted 1, .answer 1 .accepted 0, .pass, .drain, .drain, .drain, .write (.wrote 20),
    .read true, .poll .running,
    .pass, .drain, .write (.wrote 14), .read true, .poll .running, .close, .signal, .pass, .drain, .write (.wrote 21),
    .send (.message (.finished .cancelled)), .read true, .endLoop, .report true]

omit [Serde] in
theorem served_run_keeps_protocol : letI := Serde.signals; ∃ supervisor,
    Runs.Reaches step Allows newRun supervisor ∧ supervisor.acknowledged = true ∧
      supervisor.answered.map Answer.id = [1] ∧ KeepsProtocol supervisor := by
  let _ := Serde.signals
  have hruns : ((servedRun.foldlM (fun supervisor action =>
      if decide (Allows supervisor action) then step supervisor action else none) newRun).map fun supervisor =>
        (supervisor.acknowledged, supervisor.answered.map Answer.id)) = some (true, [1]) := by
    decide +kernel
  obtain ⟨supervisor, hrun, hresult⟩ := Option.map_eq_some_iff.mp hruns
  obtain ⟨hacknowledged, hanswered⟩ := Prod.mk.inj hresult
  have hreaches : Runs.Reaches step Allows newRun supervisor :=
    Runs.reaches_of_checked (fun _ _ => of_decide_eq_true) hrun
  exact ⟨supervisor, hreaches, hacknowledged, hanswered, supervisor_keeps_protocol signals_are_written hreaches⟩

/-- The run is cancelled when one byte of the first frame was written. -/
def cutRun : List SupervisorAction :=
  qualifies ++
  [.pass, .drain, .write (.wrote 1), .close, .signal, .read true, .poll .running, .pass, .drain, .write (.wrote 21)]

/-- A call is on its way when the run is cancelled. The worker acknowledges. -/
def crossedRun : List SupervisorAction :=
  qualifies ++
  [.pass, .drain, .write (.wrote 3), .read true, .poll .running,
    .send (.message (.hostCall 1 .observe)), .close, .signal,
    .pass, .drain, .write (.wrote 21), .send (.message (.finished .cancelled)), .read true, .endLoop, .report true]

def calls (id : Nat) : List SupervisorAction :=
  [.send (.message (.hostCall id sendsText)), .pass, .drain, .write .wouldBlock, .read true, .poll .running]

/-- Calls are received, and after that each is admitted and answered, while the loop is between two passes. -/
def lateRun : List SupervisorAction :=
  qualifies ++ ((List.range' 1 33).flatMap fun id => calls id ++ [.receive]) ++
    (List.range' 1 33).flatMap fun id => [.hostAdmitted id, .answer id .accepted 0]

/-- The calls are answered without being received, and the event queue is full when the worker has finished. -/
def blindRun : List SupervisorAction :=
  qualifies ++ ((List.range' 1 65).flatMap fun id => calls id ++
      [.answer id .accepted 0, .pass, .drain, .drain, .write .wouldBlock, .read true, .poll .running]) ++
    [.send (.message (.finished .cancelled)), .pass, .drain, .write .wouldBlock, .read true, .endLoop, .report true]

omit [Serde] in
theorem unrestrained_runs_break_protocol : letI := Serde.signals;
    (∃ supervisor, Runs.Reaches step (fun _ _ => True) newRun supervisor ∧
      ∃ transmission ∈ supervisor.written.tail, transmission.count ≠ transmission.frame.bytes.length) ∧
    (∃ supervisor, Runs.Reaches step (fun _ _ => True) newRun supervisor ∧ supervisor.acknowledged = true ∧
      ∃ event ∈ supervisor.delivered, event.isTerminal = true ∧ event.isCancelled = false) ∧
    (∃ supervisor, Runs.Reaches step (fun _ _ => True) newRun supervisor ∧ supervisor.misused = false ∧
      supervisor.opened = true ∧ supervisor.refused = true) ∧
    ∃ supervisor, Runs.Reaches step (fun _ _ => True) newRun supervisor ∧ supervisor.overflowed = true ∧
      supervisor.point.active = false ∧ ∀ event ∈ supervisor.delivered, event.isTerminal = false := by
  let _ := Serde.signals
  refine ⟨?_, ?_, ?_, ?_⟩
  · have hcut : (cutRun.foldlM step newRun).any (fun supervisor => decide (∃ transmission ∈ supervisor.written.tail,
        transmission.count ≠ transmission.frame.bytes.length)) = true := by
      decide +kernel
    obtain ⟨supervisor, hreaches, hcheck⟩ := Runs.exists_of_foldlM hcut
    exact ⟨supervisor, hreaches, of_decide_eq_true hcheck⟩
  · have hcrossed : (crossedRun.foldlM step newRun).any (fun supervisor => decide (supervisor.acknowledged = true ∧
        ∃ event ∈ supervisor.delivered, event.isTerminal = true ∧ event.isCancelled = false)) = true := by
      decide +kernel
    obtain ⟨supervisor, hreaches, hcheck⟩ := Runs.exists_of_foldlM hcrossed
    exact ⟨supervisor, hreaches, of_decide_eq_true hcheck⟩
  · have hlate : (lateRun.foldlM step newRun).any (fun supervisor => decide (supervisor.misused = false ∧
        supervisor.opened = true ∧ supervisor.refused = true)) = true := by
      decide +kernel
    obtain ⟨supervisor, hreaches, hcheck⟩ := Runs.exists_of_foldlM hlate
    exact ⟨supervisor, hreaches, of_decide_eq_true hcheck⟩
  · have hblind : (blindRun.foldlM step newRun).any (fun supervisor => decide (supervisor.overflowed = true ∧
        supervisor.point.active = false ∧ ∀ event ∈ supervisor.delivered, event.isTerminal = false)) = true := by
      decide +kernel
    obtain ⟨supervisor, hreaches, hcheck⟩ := Runs.exists_of_foldlM hblind
    exact ⟨supervisor, hreaches, of_decide_eq_true hcheck⟩

end Supervisor

end FesTerm.AutomationJs
