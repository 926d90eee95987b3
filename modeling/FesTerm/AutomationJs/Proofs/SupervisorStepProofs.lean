import FesTerm.AutomationJs.Supervisor

/-!
# What one step of a supervised run does

`Effect` names what a step leaves, and `StopReason` why the loop may end. The proofs about runs go by its cases.
-/

namespace FesTerm.AutomationJs

open Option

namespace Supervisor

variable [Serde] {supervisor supervisor' : Supervisor} {action : SupervisorAction}

omit [Serde] in
/-- Why the loop ends. -/
inductive StopReason (supervisor : Supervisor) (action : SupervisorAction) : Except SupervisorError Outcome → Prop
  | cancelled : StopReason supervisor action (.ok .cancelled)
  | unqualified {result : Except SupervisorError Outcome} (h : supervisor.qualified = false) :
    StopReason supervisor action result
  | overdue {result : Except SupervisorError Outcome} (haction : action = .pass)
    (h : supervisor.deadline ≤ supervisor.clock) : StopReason supervisor action result
  | running {result : Except SupervisorError Outcome} (h : supervisor.cancelling = none) :
    StopReason supervisor action result
  | unsent {result : Except SupervisorError Outcome} (h : supervisor.frames ≠ []) :
    StopReason supervisor action result
  | unfinished {result : Except SupervisorError Outcome}
    (h : ∀ output ∈ supervisor.outbox.head?, output.isFinished = false) : StopReason supervisor action result
  | exited {result : Except SupervisorError Outcome} {outcome : PollOutcome} (haction : action = .poll outcome)
    (h : supervisor.exited = true) : StopReason supervisor action result
  | unread {result : Except SupervisorError Outcome} (haction : action = .readFails) :
    StopReason supervisor action result
  | unwatched {result : Except SupervisorError Outcome} {outcome : PollOutcome} (haction : action = .poll outcome)
    (h : outcome ≠ .running) : StopReason supervisor action result

omit [Serde] in
/-- What a reply adds to the queue of the controls. -/
structure Queued (supervisor : Supervisor) (control : Control) (controls : List Control) (refused : Bool) : Prop where
  controls : controls = supervisor.controls ∨ controls = supervisor.controls ++ [control]
  refused : refused = supervisor.refused ∨ maxPendingCalls ≤ supervisor.controls.length

/-- What is left by a step. -/
inductive Effect (supervisor : Supervisor) (action : SupervisorAction) : Supervisor → Prop
  | tick (elapsed : Nat) : Effect supervisor action { supervisor with clock := supervisor.clock + elapsed }
  | moved {point : LoopPoint} (hold : supervisor.point.active = true) (hnew : point.active = true) :
    Effect supervisor action { supervisor with point }
  | began {bytes : List UInt8} {point : LoopPoint} (haction : action = .pass)
    (hold : supervisor.point.active = true) (hnone : supervisor.cancelling = none)
    (hcancelled : supervisor.cancelled = true) (hnew : point.active = true) :
    Effect supervisor action { supervisor with
      frames := [.unguarded bytes], sent := 0, cancelling := some (supervisor.clock + cancellationGrace), point }
  | stops {result : Except SupervisorError Outcome} {outbox : List WorkerOutput}
    (hold : supervisor.point.active = true) (hreason : StopReason supervisor action result) :
    Effect supervisor action { supervisor with outbox, point := .stopping result }
  | discarded {control : Control} {controls : List Control} (hcontrols : supervisor.controls = control :: controls)
    (hcancelling : supervisor.cancelling.isSome = true) : Effect supervisor action { supervisor with controls }
  | admits {id : Nat} {request : HostRequest} {bytes : List UInt8} {controls : List Control}
    (hold : supervisor.point.active = true)
    (hcontrols : supervisor.controls = .admitted id :: controls) (hnone : supervisor.cancelling = none)
    (hget : supervisor.outstanding.get id = some (request, false)) :
    Effect supervisor action { supervisor with
      controls
      outstanding := supervisor.outstanding.insert id (request, true)
      frames := supervisor.frames ++ [.unguarded bytes] }
  | implied {id : Nat} {controls : List Control} (hold : supervisor.point.active = true)
    (hcontrols : supervisor.controls = .admitted id :: controls) (hnone : supervisor.cancelling = none) :
    Effect supervisor action { supervisor with
      controls, implicitlyAdmitted := supervisor.implicitlyAdmitted.erase id }
  | answers {id : Nat} {result : HostResult} {disclosure : DisclosureGuard} {request : HostRequest} {admitted : Bool}
    {bytes : List UInt8} {controls : List Control} (hold : supervisor.point.active = true)
    (hcontrols : supervisor.controls = .result id result disclosure :: controls)
    (hnone : supervisor.cancelling = none) (hget : supervisor.outstanding.get id = some (request, admitted))
    (hvalid : result.validateFor request = true) :
    Effect supervisor action { supervisor with
      controls
      outstanding := supervisor.outstanding.erase id
      implicitlyAdmitted :=
        if admitted then supervisor.implicitlyAdmitted else insert id supervisor.implicitlyAdmitted
      frames := supervisor.frames ++ [{ bytes, disclosure := some disclosure }]
      answered := { id, request, result } :: supervisor.answered }
  | misstaged {control : Control} {controls : List Control} {error : SupervisorError}
    (hold : supervisor.point.active = true)
    (hcontrols : supervisor.controls = control :: controls) (hnone : supervisor.cancelling = none)
    (herror : { supervisor with controls }.stageControl control = .error error) :
    Effect supervisor action { supervisor with controls, point := .stopping (.error error), refused := true }
  | transmitted {frame : Outbound} {frames : List Outbound} {count : Nat}
    (hold : supervisor.point.active = true) (hframes : supervisor.frames = frame :: frames) (hcount : 0 < count)
    (hle : supervisor.sent + count ≤ frame.bytes.length) :
    Effect supervisor action (supervisor.transmit frame frames count)
  | ready {output : WorkerOutput} {outbox : List WorkerOutput} (hold : supervisor.point.active = true)
    (houtbox : supervisor.outbox = output :: outbox) (hfinished : output.isFinished = false) :
    Effect supervisor action { supervisor with outbox, qualified := true, point := .polling }
  | called {request : HostRequest} {outbox : List WorkerOutput} {point : LoopPoint}
    (hold : supervisor.point.active = true) (hnone : supervisor.cancelling = none)
    (hroom : supervisor.outstanding.entries.length < maxPendingCalls)
    (hbound : supervisor.nextId ≤ supervisor.limits.maxHostCalls)
    (hpoint : point = .polling ∨ point = .stopping (.error .unavailable)) :
    Effect supervisor action { supervisor with
      outbox
      nextId := supervisor.nextId + 1
      outstanding := supervisor.outstanding.insert supervisor.nextId (request, false)
      events := supervisor.events ++ [.hostCall supervisor.nextId request]
      delivered := supervisor.delivered ++ [.hostCall supervisor.nextId request]
      point }
  | overflows {request : HostRequest} {outbox : List WorkerOutput} (hold : supervisor.point.active = true)
    (hfull : maxPendingCalls + 1 ≤ supervisor.events.length) :
    Effect supervisor action { supervisor with
      outbox
      nextId := supervisor.nextId + 1
      outstanding := supervisor.outstanding.insert supervisor.nextId (request, false)
      point := .stopping (.error .protocol)
      overflowed := true }
  | ended {result : Except SupervisorError Outcome} (hpoint : supervisor.point = .stopping result) :
    Effect supervisor action { supervisor with opened := false, point := .reaping result }
  | reported {result : Except SupervisorError Outcome} {reaped : Bool} (hpoint : supervisor.point = .reaping result)
    (haction : action = .report reaped) :
    Effect supervisor action { supervisor with
      events := supervisor.events ++ [terminal result reaped]
      delivered := supervisor.delivered ++ [terminal result reaped]
      point := .stopped }
  | lost {result : Except SupervisorError Outcome} (hpoint : supervisor.point = .reaping result)
    (hfull : maxPendingCalls + 1 ≤ supervisor.events.length) :
    Effect supervisor action { supervisor with overflowed := true, point := .stopped }
  | received {id : Nat} {request : HostRequest} {events : List Event}
    (hevents : supervisor.events = .hostCall id request :: events) :
    Effect supervisor action { supervisor with events, received := (id, request) :: supervisor.received }
  | dropped {event : Event} {events : List Event} (hevents : supervisor.events = event :: events) :
    Effect supervisor action { supervisor with events }
  | unchanged : Effect supervisor action supervisor
  | shut : Effect supervisor action { supervisor with opened := false }
  | signalled : Effect supervisor action { supervisor with cancelled := true }
  | acknowledges {id : Nat} {controls : List Control} {opened refused : Bool} (haction : action = .hostAdmitted id)
    (hqueued : Queued supervisor (.admitted id) controls refused) :
    Effect supervisor action { supervisor with
      misused := supervisor.misused ||
        !decide (id ∈ supervisor.received.map Prod.fst ∧ id ∉ supervisor.admits)
      admits := id :: supervisor.admits
      controls, opened, refused }
  | replies {id : Nat} {result : HostResult} {disclosure : DisclosureGuard} {controls : List Control}
    {opened refused : Bool} (haction : action = .answer id result disclosure) (hsendable : sendable id result = true)
    (hqueued : Queued supervisor (.result id result disclosure) controls refused) :
    Effect supervisor action { supervisor with
      misused := supervisor.misused || !decide ((∃ call ∈ supervisor.received, call.1 = id) ∧
        id ∉ supervisor.answers ∧ ∀ call ∈ supervisor.received, call.1 = id → result.validateFor call.2)
      answers := id :: supervisor.answers
      controls, opened, refused }
  | misuses : Effect supervisor action { supervisor with misused := true }
  | sent {output : WorkerOutput} (haction : action = .send output) :
    Effect supervisor action { supervisor with
      outbox := supervisor.outbox ++ [output]
      acknowledged := supervisor.acknowledged || supervisor.acknowledges output }
  | exits : Effect supervisor action { supervisor with exited := true }

/-! ## The steps of the loop -/

theorem pass_effect (hpoint : supervisor.point = .top) : Effect supervisor .pass supervisor.pass := by
  have hold : supervisor.point.active = true := by rw [hpoint]; rfl
  unfold pass
  split
  next hlate =>
    have hqualified : supervisor.qualified = false := by simpa using hlate.1
    exact .stops hold (.unqualified hqualified)
  split
  next hoverdue => exact .stops hold (.overdue rfl hoverdue)
  have hnext : (if supervisor.qualified then LoopPoint.draining else .reading).active = true := by
    split
    · rfl
    · rfl
  dsimp only
  by_cases hbegins : supervisor.cancelled = true ∧ supervisor.cancelling.isNone = true
  · rw [if_pos hbegins]
    have hnone := isNone_iff_eq_none.mp hbegins.2
    unfold beginCancelling
    cases encodeFrame .cancel with
    | none => exact .stops hold (.running hnone)
    | some bytes =>
      have hgrace : ¬ supervisor.clock + cancellationGrace ≤ supervisor.clock :=
        Nat.not_le.mpr (Nat.lt_add_of_pos_right (by decide))
      simp only [map_some, any_some, decide_eq_true_eq, hgrace, if_false]
      exact .began rfl hold hnone hbegins.1 hnext
  · rw [if_neg hbegins]
    dsimp only
    split
    · exact .stops hold .cancelled
    · exact .moved hold hnext

theorem stageControl_effect {control : Control} {controls : List Control} (hold : supervisor.point.active = true)
    (hcontrols : supervisor.controls = control :: controls) (hnone : supervisor.cancelling = none)
    {staged : Supervisor} (h : { supervisor with controls }.stageControl control = .ok staged) :
    Effect supervisor action staged := by
  unfold stageControl at h
  split at h
  next id =>
    split at h
    next request admitted hget =>
      split at h
      · cases h
      next hadmitted =>
        split at h
        · cases h
        · cases h
          rw [Bool.not_eq_true] at hadmitted
          subst hadmitted
          exact .admits hold hcontrols hnone hget
    · split at h
      · cases h
        exact .implied hold hcontrols hnone
      · cases h
  next id result disclosure =>
    split at h
    · cases h
    next request admitted hget =>
      split at h
      · cases h
      next hvalid =>
        split at h
        · cases h
        · cases h
          rw [Bool.not_eq_true', Bool.not_eq_false] at hvalid
          exact .answers hold hcontrols hnone hget hvalid

theorem drain_effect (hpoint : supervisor.point = .draining) : Effect supervisor .drain supervisor.drain := by
  have hold : supervisor.point.active = true := by rw [hpoint]; rfl
  unfold drain
  split
  · exact .moved hold rfl
  next control controls hcontrols =>
    dsimp only
    split
    next hcancelling => exact .discarded hcontrols hcancelling
    next hnot =>
      have hnone : supervisor.cancelling = none := not_isSome_iff_eq_none.mp hnot
      split
      next error herror => exact .misstaged hold hcontrols hnone herror
      next staged hstaged => exact stageControl_effect hold hcontrols hnone hstaged

theorem write_effect {outcome : WriteOutcome} (hpoint : supervisor.point = .writing)
    (h : supervisor.write outcome = some supervisor') : Effect supervisor (.write outcome) supervisor' := by
  have hold : supervisor.point.active = true := by rw [hpoint]; rfl
  unfold write at h
  split at h
  · cases h
    exact .moved hold rfl
  next frame frames hframes =>
    have hunsent : supervisor.frames ≠ [] := by
      rw [hframes]
      exact List.cons_ne_nil _ _
    split at h
    · obtain ⟨-, h⟩ := ite_none_left_eq_some.mp h
      cases h
      exact .moved hold rfl
    · cases h
      exact .moved hold rfl
    · cases h
      exact .stops hold (.unsent hunsent)
    next count =>
      obtain ⟨⟨-, hle⟩, h⟩ := ite_none_right_eq_some.mp h
      cases h
      split
      · exact .stops hold (.unsent hunsent)
      next hcount => exact .transmitted hold hframes (Nat.pos_of_ne_zero hcount) hle

theorem handle_effect {woken : Bool} {message : WorkerMessage} {outbox : List WorkerOutput}
    (hpoint : supervisor.point = .reading) (houtbox : supervisor.outbox = .message message :: outbox) :
    Effect supervisor (.read woken) (handle { supervisor with outbox } message woken) := by
  have hold : supervisor.point.active = true := by rw [hpoint]; rfl
  have hhead : supervisor.outbox.head? = some (.message message) := by rw [houtbox]; rfl
  cases message with
  | ready profile =>
    have hother : ∀ output ∈ supervisor.outbox.head?, output.isFinished = false := by
      rw [hhead]
      rintro output ⟨⟩
      rfl
    unfold handle
    dsimp only
    split
    · split
      · exact .ready hold houtbox rfl
      · exact .stops hold (.unfinished hother)
    · exact .stops hold (.unfinished hother)
  | hostCall id request =>
    have hother : ∀ output ∈ supervisor.outbox.head?, output.isFinished = false := by
      rw [hhead]
      rintro output ⟨⟩
      rfl
    unfold handle hostCall
    dsimp only
    split
    next haccepts =>
      obtain ⟨-, hnone, rfl, hbound, hroom⟩ := haccepts
      have hnone : supervisor.cancelling = none := isNone_iff_eq_none.mp hnone
      split
      · unfold deliver
        dsimp only
        split
        · split
          · exact .called hold hnone hroom hbound (.inl rfl)
          · exact .called hold hnone hroom hbound (.inr rfl)
        next hfull => exact .overflows hold (Nat.not_lt.mp hfull)
      · exact .stops hold (.unfinished hother)
    · exact .stops hold (.unfinished hother)
  | finished outcome =>
    unfold handle
    dsimp only
    split
    · split
      · exact .stops hold .cancelled
      next hnot =>
        have hnone : supervisor.cancelling = none := not_isSome_iff_eq_none.mp hnot
        split
        · exact .stops hold (.running hnone)
        · exact .stops hold (.running hnone)
    next hqualified => exact .stops hold (.unqualified (Bool.not_eq_true _ ▸ hqualified))
  | failed code =>
    refine .stops hold (.unfinished ?_)
    rw [hhead]
    rintro output ⟨⟩
    rfl

theorem read_effect {woken : Bool} (hpoint : supervisor.point = .reading) :
    Effect supervisor (.read woken) (supervisor.read woken) := by
  have hold : supervisor.point.active = true := by rw [hpoint]; rfl
  unfold read
  split
  next houtbox =>
    split
    · refine .stops hold (.unfinished ?_)
      rw [houtbox]
      intro output houtput
      cases houtput
    · exact .moved hold rfl
  next outbox houtbox =>
    refine .stops hold (.unfinished ?_)
    rw [houtbox]
    rintro output ⟨⟩
    rfl
  next message outbox houtbox => exact handle_effect hpoint houtbox

theorem poll_effect {outcome : PollOutcome} (hpoint : supervisor.point = .polling) :
    Effect supervisor (.poll outcome) (supervisor.poll outcome) := by
  have hold : supervisor.point.active = true := by rw [hpoint]; rfl
  unfold poll
  by_cases hwaited : outcome = .unwaited
  · rw [if_pos hwaited]
    refine .stops hold (.unwatched rfl ?_)
    rw [hwaited]
    decide
  rw [if_neg hwaited]
  by_cases hexited : supervisor.exited = true
  · rw [if_pos hexited]
    exact .stops hold (.exited rfl hexited)
  rw [if_neg hexited]
  cases outcome with
  | running => exact .moved hold rfl
  | unwaited => exact absurd rfl hwaited
  | exceeded | unmeasured => exact .stops hold (.unwatched rfl (by decide))

theorem report_effect {result : Except SupervisorError Outcome} {reaped : Bool}
    (hpoint : supervisor.point = .reaping result) :
    Effect supervisor (.report reaped) (supervisor.report (terminal result reaped)) := by
  unfold report
  split
  · exact .reported hpoint rfl
  next hfull => exact .lost hpoint (Nat.not_lt.mp hfull)

/-! ## The steps of the application -/

omit [Serde] in
theorem reply_eq (supervisor : Supervisor) (control : Control) : ∃ controls opened refused,
    supervisor.reply control = { supervisor with controls, opened, refused } ∧
      Queued supervisor control controls refused := by
  unfold reply
  split
  · exact ⟨_, _, _, rfl, .inl rfl, .inl rfl⟩
  split
  · exact ⟨_, false, _, rfl, .inl rfl, .inl rfl⟩
  split
  · exact ⟨supervisor.controls ++ [control], _, _, rfl, .inr rfl, .inl rfl⟩
  next hfull => exact ⟨_, _, true, rfl, .inl rfl, .inr (Nat.not_lt.mp hfull)⟩

theorem receive_effect : Effect supervisor .receive supervisor.receive := by
  unfold receive
  split
  · exact .unchanged
  next hevents =>
    split
    · exact .dropped hevents
    · exact .received hevents
  next hevents => exact .dropped hevents

theorem hostAdmitted_effect (id : Nat) : Effect supervisor (.hostAdmitted id) (supervisor.hostAdmitted id) := by
  unfold hostAdmitted
  obtain ⟨controls, opened, refused, hreply, hqueued⟩ := reply_eq { supervisor with
    misused := supervisor.misused ||
      !decide (id ∈ supervisor.received.map Prod.fst ∧ id ∉ supervisor.admits)
    admits := id :: supervisor.admits } (.admitted id)
  dsimp only
  rw [hreply]
  exact .acknowledges rfl ⟨hqueued.controls, hqueued.refused⟩

theorem answer_effect (id : Nat) (result : HostResult) (disclosure : DisclosureGuard) :
    Effect supervisor (.answer id result disclosure) (supervisor.answer id result disclosure) := by
  unfold answer
  dsimp only
  split
  next hsendable =>
    obtain ⟨controls, opened, refused, hreply, hqueued⟩ := reply_eq { supervisor with
      misused := supervisor.misused || !decide ((∃ call ∈ supervisor.received, call.1 = id) ∧
        id ∉ supervisor.answers ∧ ∀ call ∈ supervisor.received, call.1 = id → result.validateFor call.2)
      answers := id :: supervisor.answers } (.result id result disclosure)
    rw [hreply]
    exact .replies rfl hsendable ⟨hqueued.controls, hqueued.refused⟩
  · exact .misuses

theorem step_effect (h : supervisor.step action = some supervisor') : Effect supervisor action supervisor' := by
  unfold step at h
  split at h
  next hpoint =>
    cases h
    exact pass_effect hpoint
  next hpoint =>
    cases h
    exact drain_effect hpoint
  next hpoint => exact write_effect hpoint h
  next hpoint =>
    cases h
    exact read_effect hpoint
  next hpoint =>
    cases h
    exact .stops (by rw [hpoint]; rfl) (.unread rfl)
  next hpoint =>
    cases h
    exact poll_effect hpoint
  next hpoint =>
    cases h
    exact .ended hpoint
  next hpoint =>
    cases h
    exact report_effect hpoint
  · cases h
    exact .tick _
  · cases h
    exact receive_effect
  · cases h
    exact hostAdmitted_effect _
  · cases h
    exact answer_effect _ _ _
  · cases h
    exact .shut
  · obtain ⟨-, h⟩ := ite_none_left_eq_some.mp h
    cases h
    exact .signalled
  · obtain ⟨-, h⟩ := ite_none_left_eq_some.mp h
    cases h
    exact .sent rfl
  · cases h
    exact .exits
  · cases h

end Supervisor

end FesTerm.AutomationJs
