import FesTerm.Sftp.Queue

/-!
# The transfer queue: what a step does to one transfer

A step is seen from one transfer: its job, if it is retained, and where it is. Everything that any step
can do to these is listed once; the invariant of a transfer along a run follows from the list.
-/

namespace FesTerm

open Option Table

/-! ## The exchanges of a transfer -/

/-- What passes between a transfer that met a conflict and the queue. -/
inductive Exchange where
  /-- The transfer asks for a policy. -/
  | asks
  /-- The default policy decides for it at once. -/
  | decided (policy : ConflictPolicy)
  /-- A call of `resolveConflict` gives it a policy. -/
  | given (policy : ConflictPolicy)
  deriving DecidableEq, Repr

namespace TransferManager

/-- What an action exchanges with one transfer. -/
def exchange (manager : TransferManager) (action : QueueAction) (id : TransferId) : Option Exchange :=
  match action with
  | .resolveConflict other policy remember =>
    if manager.isWaiting other ∧ manager.isWaiting id ∧ (other = id ∨ remember) then some (.given policy)
    else none
  | .work other (.conflict _) =>
    if other = id then
      match manager.state.defaultPolicy with
      | some policy => some (.decided policy)
      | none => some .asks
    else none
  | _ => none

end TransferManager

/-! ## One transfer -/

def Transfer.without (transfer : Transfer) (dropped : Bool) : Transfer :=
  if dropped then { transfer with reply := transfer.reply.dropSender } else transfer

variable (transfer : Transfer)

@[simp] theorem Transfer.without_false : transfer.without false = transfer := rfl

abbrev TransferSlot := Option Job × Transfer

def TransferManager.slot (manager : TransferManager) (id : TransferId) : TransferSlot :=
  (manager.state.jobs.get id, manager.transfers id)

/-- A finished job is forgotten, or it is not. -/
inductive Forgets : TransferSlot → TransferSlot → Prop
  | keeps (slot : TransferSlot) : Forgets slot slot
  | forgets {job : Job} (transfer : Transfer) (hfinished : job.isFinished) :
    Forgets (some job, transfer) (none, transfer.without job.conflictReply)

/-- A step of the transfer itself that leaves its job alone. -/
inductive Turns (transfer : Transfer) : Transfer → Prop
  | announced (hpoint : transfer.point = .announcing) : Turns transfer { transfer with point := .acquiring }
  | acquires (hpoint : transfer.point = .acquiring) : Turns transfer { transfer with point := .admitting }
  | refused (hpoint : transfer.point = .admitting) : Turns transfer { transfer with point := .acquiring }
  | starts (hpoint : transfer.point = .admitting) :
    Turns transfer { transfer with point := .setting .record .running (.work none) }
  | abandons (hpoint : transfer.point = .acquiring) :
    Turns transfer { transfer with point := .setting .record .cancelled .finish }
  | emitted {state : TransferState} {next : Continuation}
    (hpoint : transfer.point = .setting .emit state next) :
    Turns transfer { transfer with point := .setting .prune state next }
  | reported {policy : Option ConflictPolicy} {progress : Progress}
    (hpoint : transfer.point = .reporting policy progress) :
    Turns transfer { transfer with point := .working policy }
  | listens (hpoint : transfer.point = .awaiting) : Turns transfer { transfer with point := .receiving }
  | sleeps (hpoint : transfer.point = .receiving)
    (hreply : transfer.reply = .pending ∨ transfer.reply = .none) :
    Turns transfer { transfer with point := .awaiting }
  | receives {policy : ConflictPolicy} (hpoint : transfer.point = .receiving)
    (hreply : transfer.reply = .answered policy) :
    Turns transfer { transfer with point := .setting .record .running (.work (some policy)), reply := .none }
  | cancels (hpoint : transfer.point = .awaiting) (hcancelled : transfer.cancelled) :
    Turns transfer { transfer with point := .setting .record .cancelled .finish, reply := .none }
  | hangsUp (hpoint : transfer.point = .receiving) (hreply : transfer.reply = .closed) :
    Turns transfer { transfer with point := .setting .record .cancelled .finish, reply := .none }
  | finishes {policy : Option ConflictPolicy} {state : TransferState}
    (hpoint : transfer.point = .working policy) (hstate : state.isFinished) :
    Turns transfer { transfer with point := .setting .record state .finish, reply := .none }

/-- Everything that a step can do to one transfer, with what it exchanges with it. -/
inductive Happens (default : Option ConflictPolicy) (fresh : Prop) :
    Option Exchange → TransferSlot → TransferSlot → Prop
  | stays (slot : TransferSlot) : Happens default fresh none slot slot
  | inserted {job : Job} {transfer : Transfer} (hfresh : fresh) (hpoint : transfer.point = .absent)
    (hfinished : job.isFinished = false) (hreply : job.conflictReply = false) :
    Happens default fresh none (none, transfer) (some job, ⟨.announcing, false, .none⟩)
  | cancelled (job : Option Job) (transfer : Transfer) :
    Happens default fresh none (job, transfer) (job, { transfer with cancelled := true })
  | given {job : Job} {transfer : Transfer} {policy : ConflictPolicy} (hreply : job.conflictReply) :
    Happens default fresh (some (.given policy)) (some job, transfer)
      (some job.take, { transfer with reply := (transfer.reply.send policy).dropSender })
  | forgets {slot slot' : TransferSlot} (hforgets : Forgets slot slot') : Happens default fresh none slot slot'
  | turns (job : Option Job) {transfer transfer' : Transfer} (hturns : Turns transfer transfer') :
    Happens default fresh none (job, transfer) (job, transfer')
  | records {job : Job} {transfer : Transfer} {state : TransferState} {next : Continuation}
    (hpoint : transfer.point = .setting .record state next) :
    Happens default fresh none (some job, transfer)
      (some (job.setState state), { transfer.without (job.conflictReply && state.isFinished) with
          point := .setting .emit state next })
  | misses {transfer : Transfer} {state : TransferState} {next : Continuation}
    (hpoint : transfer.point = .setting .record state next) :
    Happens default fresh none (none, transfer) (none, { transfer with point := next.point })
  | prunes {slot slot' : TransferSlot} {state : TransferState} {next : Continuation}
    (hpoint : slot.2.point = .setting .prune state next) (hforgets : Forgets slot slot') :
    Happens default fresh none slot (slot'.1, { slot'.2 with point := next.point })
  | informs {job : Option Job} {transfer : Transfer} {policy : Option ConflictPolicy} {point : TransferPoint}
    {info : TransferInfo → TransferInfo} (hpoint : transfer.point = .working policy)
    (hinfo : ∀ i, (info i).state = i.state)
    (hpoint' : point = .working policy ∨ ∃ progress, point = .reporting policy progress) :
    Happens default fresh none (job, transfer)
      (job.map fun job => { job with info := info job.info }, { transfer with point := point })
  | decided {job : Option Job} {transfer : Transfer} {policy : ConflictPolicy}
    (hpoint : transfer.point = .working none) (hdefault : default = some policy) :
    Happens default fresh (some (.decided policy)) (job, transfer)
      (job, { transfer with point := .working (some policy) })
  | asks {job : Job} {transfer : Transfer} {conflict : Conflict}
    (hpoint : transfer.point = .working none) (hdefault : default = none) :
    Happens default fresh (some .asks) (some job, transfer)
      (some job.register,
        { transfer with point := .setting .record (.awaitingConflict conflict) .await, reply := .pending })
  | asksMissing {transfer : Transfer} (hpoint : transfer.point = .working none) (hdefault : default = none) :
    Happens default fresh (some .asks) (none, transfer)
      (none, { transfer with point := .setting .record .cancelled .finish, reply := .none })

/-! ## The slots that the parts of a step leave -/

namespace TransferManager

variable {manager : TransferManager} {id other : TransferId} {default : Option ConflictPolicy} {fresh : Prop}

@[simp] theorem slot_emit (event : TransferEvent) : (manager.emit event).slot id = manager.slot id := rfl

@[simp] theorem slot_setDefaultPolicy (policy : Option ConflictPolicy) :
    (manager.setDefaultPolicy policy).slot id = manager.slot id := rfl

@[simp] theorem slot_retainOrder : manager.retainOrder.slot id = manager.slot id := rfl

@[simp] theorem slot_setTransfer : (manager.setTransfer other transfer).slot id =
      if id = other then (manager.state.jobs.get id, transfer) else manager.slot id := by
  simp only [slot, setTransfer, Function.update_apply]
  by_cases h : id = other
  · rw [if_pos h, if_pos h]
  · rw [if_neg h, if_neg h]

theorem slot_setTransfer_of_ne (h : id ≠ other) (transfer : Transfer) :
    (manager.setTransfer other transfer).slot id = manager.slot id := by
  rw [slot_setTransfer, if_neg h]

variable {job : Job} {jobs : Table TransferId Job} {manager' : TransferManager} {policy : Option ConflictPolicy}

theorem isWaiting_of_get (h : manager.state.jobs.get id = some job) :
    manager.isWaiting id = job.conflictReply := by
  rw [isWaiting, h, any_some]

theorem slot_withJobs_of_eq
    (h : jobs.get id = manager.state.jobs.get id) : (manager.withJobs jobs).slot id = manager.slot id := by
  have hnot : ¬(manager.isWaiting id = true ∧ ¬(jobs.get id).any Job.conflictReply = true) := by
    rw [h]
    exact fun hboth => hboth.2 hboth.1
  simp only [slot, withJobs]
  rw [if_neg hnot, h]

theorem slot_withJobs_of_some {job' : Job}
    (hget : manager.state.jobs.get id = some job) (hget' : jobs.get id = some job') :
    (manager.withJobs jobs).slot id =
      (some job', (manager.transfers id).without (job.conflictReply && !job'.conflictReply)) := by
  simp only [slot, withJobs, isWaiting_of_get hget, hget', any_some, Transfer.without]
  cases job.conflictReply <;> cases job'.conflictReply <;> simp

theorem slot_withJobs_of_none (hget : manager.state.jobs.get id = some job) (hget' : jobs.get id = none) :
    (manager.withJobs jobs).slot id = (none, (manager.transfers id).without job.conflictReply) := by
  simp only [slot, withJobs, isWaiting_of_get hget, hget', any_none, Transfer.without]
  cases job.conflictReply <;> simp

/-! ## What the calls do to one transfer -/

/-- The next number is free: no job has it, and no transfer. -/
def NextFree (manager : TransferManager) : Prop :=
  manager.state.jobs.get (manager.state.nextId + 1) = none ∧
    (manager.transfers (manager.state.nextId + 1)).point = .absent

def Inserts (manager manager' : TransferManager) (id : TransferId) : Prop :=
  manager.state.nextId < id ∧ manager'.state.nextId = id

variable (request : TransferRequest)

theorem happens_insertJob (name : FilePath) (hfree : manager.NextFree) :
    Happens default (manager.Inserts (manager.insertJob request name).2 id) none (manager.slot id)
      ((manager.insertJob request name).2.slot id) := by
  unfold insertJob
  by_cases hfull : manager.config.maxQueued ≤ manager.unfinished
  · rw [if_pos hfull]
    exact .stays _
  · rw [if_neg hfull]
    by_cases hid : id = manager.state.nextId + 1
    · subst hid
      simp only [slot, get_insert, if_pos, Function.update_self, hfree.1]
      exact .inserted ⟨Nat.lt_succ_self _, rfl⟩ hfree.2 rfl rfl
    · simp only [slot, get_insert, if_neg hid, Function.update_of_ne hid]
      exact .stays _

theorem happens_enqueue (connected : Bool) (hfree : manager.NextFree) :
    Happens default (manager.Inserts (manager.enqueue request connected).2 id) none (manager.slot id)
      ((manager.enqueue request connected).2.slot id) := by
  unfold enqueue
  cases request.validate with
  | error error => exact .stays _
  | ok =>
    cases request.targetName with
    | error error => exact .stays _
    | ok name =>
      cases connected with
      | false => exact .stays _
      | true => exact happens_insertJob request name hfree

theorem happens_cancel : Happens default fresh none (manager.slot id) ((manager.cancel other).slot id) := by
  unfold cancel
  by_cases hcontains : manager.state.jobs.contains other
  · rw [if_pos hcontains]
    by_cases hid : id = other
    · subst hid
      rw [slot_setTransfer, if_pos rfl]
      exact .cancelled _ _
    · rw [slot_setTransfer_of_ne hid]
      exact .stays _
  · rw [if_neg hcontains]
    exact .stays _

theorem happens_cancelAll : Happens default fresh none (manager.slot id) (manager.cancelAll.slot id) := by
  by_cases hcontains : manager.state.jobs.contains id
  · simp only [slot, cancelAll, if_pos hcontains]
    exact .cancelled _ _
  · simp only [slot, cancelAll, if_neg hcontains]
    exact .stays _

theorem slot_answer (hget : manager.state.jobs.get id = some job) (hreply : job.conflictReply)
    (policy : ConflictPolicy) : (manager.answer id policy).slot id =
      (some job.take,
        { manager.transfers id with reply := ((manager.transfers id).reply.send policy).dropSender }) := by
  have hafter : (manager.state.jobs.modify id Job.take).get id = some job.take := by
    rw [get_modify, if_pos rfl, hget, map_some]
  refine Eq.trans (slot_withJobs_of_some hget hafter) ?_
  simp [Transfer.without, setTransfer, hreply, Job.take]

theorem slot_answer_of_ne (hid : id ≠ other) (policy : ConflictPolicy) :
    (manager.answer other policy).slot id = manager.slot id := by
  unfold answer
  rw [slot_withJobs_of_eq, slot_setTransfer_of_ne hid]
  rw [get_modify, if_neg hid]
  rfl

theorem slot_answerAll_waiting (hget : manager.state.jobs.get id = some job)
    (hreply : job.conflictReply) (policy : ConflictPolicy) : (manager.answerAll policy).slot id =
      (some job.take,
        { manager.transfers id with reply := ((manager.transfers id).reply.send policy).dropSender }) := by
  have hafter : (manager.state.jobs.mapValues fun _ => Job.take).get id = some job.take := by
    rw [get_mapValues, hget, map_some]
  refine Eq.trans (slot_withJobs_of_some hget hafter) ?_
  simp [Transfer.without, isWaiting_of_get hget, hreply, Job.take]

theorem slot_answerAll_idle (hidle : manager.isWaiting id = false) (policy : ConflictPolicy) :
    (manager.answerAll policy).slot id = manager.slot id := by
  unfold answerAll
  rw [slot_withJobs_of_eq]
  · simp [slot, hidle]
  · rw [get_mapValues]
    cases hget : manager.state.jobs.get id with
    | none => rfl
    | some job =>
      rw [isWaiting_of_get hget] at hidle
      simp [Job.take, ← hidle]

theorem isWaiting_iff :
    manager.isWaiting id ↔ ∃ job, manager.state.jobs.get id = some job ∧ job.conflictReply := by
  rw [isWaiting, Option.any_eq_true]

theorem exchange_resolveConflict (policy : ConflictPolicy) (remember : Bool) :
    manager.exchange (.resolveConflict other policy remember) id =
      if manager.isWaiting other ∧ manager.isWaiting id ∧ (other = id ∨ remember) then some (.given policy)
      else none := rfl

theorem happens_resolveConflict (policy : ConflictPolicy) (remember : Bool) :
    Happens default fresh (manager.exchange (.resolveConflict other policy remember) id) (manager.slot id)
      ((manager.resolveConflict other policy remember).2.slot id) := by
  rw [exchange_resolveConflict, resolveConflict]
  by_cases hother : manager.isWaiting other
  · rw [if_pos hother]
    by_cases hid : manager.isWaiting id
    · obtain ⟨job, hget, hreply⟩ := isWaiting_iff.mp hid
      have hslot : manager.slot id = (some job, manager.transfers id) := by rw [slot, hget]
      cases remember with
      | true =>
        have hwhole : ((manager.setDefaultPolicy (some policy)).answerAll policy).slot id = _ :=
          slot_answerAll_waiting hget hreply policy
        rw [if_pos ⟨hother, hid, Or.inr rfl⟩]
        simp only [if_true]
        rw [hwhole, hslot]
        exact .given hreply
      | false =>
        by_cases heq : other = id
        · subst heq
          rw [if_pos ⟨hother, hid, Or.inl rfl⟩]
          simp only [Bool.false_eq_true, if_false]
          rw [slot_answer hget hreply, hslot]
          exact .given hreply
        · rw [if_neg (by simp [heq])]
          simp only [Bool.false_eq_true, if_false]
          rw [slot_answer_of_ne (Ne.symm heq)]
          exact .stays _
    · rw [if_neg (by simp [hid])]
      cases remember with
      | true =>
        have hidle : manager.isWaiting id = false := by simpa using hid
        have hwhole : ((manager.setDefaultPolicy (some policy)).answerAll policy).slot id = _ :=
          slot_answerAll_idle hidle policy
        simp only [if_true]
        rw [hwhole]
        exact .stays _
      | false =>
        have hne : id ≠ other := by
          rintro rfl
          exact hid hother
        simp only [Bool.false_eq_true, if_false]
        rw [slot_answer_of_ne hne]
        exact .stays _
  · rw [if_neg hother, if_neg (by simp [hother])]
    exact .stays _

theorem get_removeFinished (excess : Nat) (order : List TransferId) (jobs : Table TransferId Job) :
    (removeFinished excess order jobs).get id = jobs.get id ∨
      ∃ job, jobs.get id = some job ∧ job.isFinished ∧ (removeFinished excess order jobs).get id = none := by
  induction order generalizing excess jobs with
  | nil => cases excess <;> exact .inl rfl
  | cons other rest ih =>
    cases excess with
    | zero => exact .inl rfl
    | succ excess =>
      unfold removeFinished
      by_cases hfinished : (jobs.get other).any Job.isFinished
      · rw [if_pos hfinished]
        obtain ⟨job, hget, hjob⟩ := (Option.any_eq_true _ _).mp hfinished
        by_cases hid : id = other
        · subst hid
          right
          refine ⟨job, hget, hjob, ?_⟩
          rcases ih excess (jobs.erase id) with h | ⟨_, h, -⟩
          · rw [h, get_erase, if_pos rfl]
          · rw [get_erase, if_pos rfl] at h
            exact absurd h (by simp)
        · rcases ih excess (jobs.erase other) with h | ⟨job', h, hjob', hnone⟩
          · left
            rw [h, get_erase, if_neg hid]
          · right
            rw [get_erase, if_neg hid] at h
            exact ⟨job', h, hjob', hnone⟩
      · rw [if_neg hfinished]
        exact ih (excess + 1) jobs

theorem forgets_withJobs (h : jobs.get id = manager.state.jobs.get id ∨
      ∃ job, manager.state.jobs.get id = some job ∧ job.isFinished ∧ jobs.get id = none) :
    Forgets (manager.slot id) ((manager.withJobs jobs).slot id) := by
  rcases h with h | ⟨job, hget, hfinished, hnone⟩
  · rw [slot_withJobs_of_eq h]
    exact .keeps _
  · rw [slot_withJobs_of_none hget hnone, slot, hget]
    exact .forgets _ hfinished

theorem forgets_pruneHistory : Forgets (manager.slot id) (manager.pruneHistory.slot id) :=
  forgets_withJobs (get_removeFinished _ _ _)

theorem forgets_clearFinished : Forgets (manager.slot id) (manager.clearFinished.slot id) := by
  rw [clearFinished, slot_retainOrder]
  apply forgets_withJobs
  rw [get_retain]
  cases hget : manager.state.jobs.get id with
  | none => exact .inl rfl
  | some job =>
    by_cases hfinished : job.isFinished
    · right
      exact ⟨job, rfl, hfinished, by simp [hfinished]⟩
    · left
      simp [hfinished]

/-! ## What the steps of a transfer do to it and to the others -/

@[simp] theorem slot_goTo (point : TransferPoint) : (manager.goTo other point).slot id =
      if id = other then ((manager.slot id).1, { (manager.slot id).2 with point := point })
      else manager.slot id := by
  rw [goTo, slot_setTransfer]
  by_cases hid : id = other
  · rw [if_pos hid, if_pos hid, hid]
    rfl
  · rw [if_neg hid, if_neg hid]

theorem slot_withJobs_modify (hid : id ≠ other) (change : Job → Job) :
    (manager.withJobs (manager.state.jobs.modify other change)).slot id = manager.slot id := by
  apply slot_withJobs_of_eq
  rw [get_modify, if_neg hid]

theorem slot_withJobs_modify_none (hget : manager.state.jobs.get id = none) (change : Job → Job) :
    (manager.withJobs (manager.state.jobs.modify id change)).slot id = manager.slot id := by
  apply slot_withJobs_of_eq
  rw [get_modify, if_pos rfl, hget, map_none]

theorem slot_withJobs_modify_some (hget : manager.state.jobs.get id = some job) (change : Job → Job) :
    (manager.withJobs (manager.state.jobs.modify id change)).slot id =
      (some (change job),
        (manager.transfers id).without (job.conflictReply && !(change job).conflictReply)) := by
  apply slot_withJobs_of_some hget
  rw [get_modify, if_pos rfl, hget, map_some]

variable {state : TransferState} {next : Continuation}

theorem happens_record (hpoint : (manager.transfers other).point = .setting .record state next) :
    Happens default fresh none (manager.slot id) ((manager.setState other state next .record).slot id) := by
  unfold setState
  cases hget : manager.state.jobs.get other with
  | none =>
    rw [if_neg (by simp [Table.contains, hget]), slot_goTo]
    by_cases hid : id = other
    · subst hid
      rw [if_pos rfl, slot, hget]
      exact .misses hpoint
    · rw [if_neg hid]
      exact .stays _
  | some job =>
    rw [if_pos (by simp [Table.contains, hget]), slot_goTo]
    by_cases hid : id = other
    · subst hid
      have hreply : (job.conflictReply && !(job.setState state).conflictReply) =
          (job.conflictReply && state.isFinished) := by
        simp only [Job.setState]
        cases job.conflictReply <;> simp
      rw [if_pos rfl, slot_withJobs_modify_some hget, hreply, slot, hget]
      exact .records hpoint
    · rw [if_neg hid, slot_withJobs_modify hid]
      exact .stays _

theorem happens_setState {stage : Stage} (hpoint : (manager.transfers other).point = .setting stage state next) :
    Happens default fresh none (manager.slot id) ((manager.setState other state next stage).slot id) := by
  cases stage with
  | record => exact happens_record hpoint
  | emit =>
    rw [setState, slot_goTo, slot_emit]
    by_cases hid : id = other
    · subst hid
      rw [if_pos rfl]
      exact .turns _ (.emitted hpoint)
    · rw [if_neg hid]
      exact .stays _
  | prune =>
    rw [setState, slot_goTo]
    by_cases hid : id = other
    · subst hid
      rw [if_pos rfl]
      exact .prunes hpoint forgets_pruneHistory
    · rw [if_neg hid]
      exact .forgets forgets_pruneHistory

theorem happens_setTransfer {transfer : Transfer} (hturns : Turns (manager.transfers other) transfer) :
    Happens default fresh none (manager.slot id) ((manager.setTransfer other transfer).slot id) := by
  rw [slot_setTransfer]
  by_cases hid : id = other
  · subst hid
    rw [if_pos rfl]
    exact .turns _ hturns
  · rw [if_neg hid]
    exact .stays _

theorem happens_receive (hpoint : (manager.transfers other).point = .receiving) :
    Happens default fresh none (manager.slot id) ((manager.receive other).slot id) := by
  unfold receive
  cases hreply : (manager.transfers other).reply with
  | none => exact happens_setTransfer (.sleeps hpoint (.inr hreply))
  | pending => exact happens_setTransfer (.sleeps hpoint (.inl hreply))
  | answered policy => exact happens_setTransfer (.receives hpoint hreply)
  | closed => exact happens_setTransfer (.hangsUp hpoint hreply)

theorem happens_advance (h : manager.advance other = some manager') :
    Happens default fresh none (manager.slot id) (manager'.slot id) := by
  unfold advance at h
  cases hpoint : (manager.transfers other).point with
  | absent | working policy | ended => simp [hpoint] at h
  | announcing =>
    simp only [hpoint, some.injEq] at h
    subst h
    exact happens_setTransfer (.announced hpoint)
  | acquiring =>
    simp only [hpoint, some.injEq] at h
    subst h
    by_cases hcancelled : (manager.transfers other).cancelled
    · rw [if_pos hcancelled]
      exact happens_setTransfer (.abandons hpoint)
    · rw [if_neg hcancelled]
      exact happens_setTransfer (.acquires hpoint)
  | admitting =>
    simp only [hpoint, some.injEq] at h
    subst h
    by_cases hpermits : manager.permits = 0
    · rw [if_pos hpermits]
      exact happens_setTransfer (.refused hpoint)
    · rw [if_neg hpermits]
      exact happens_setTransfer (.starts hpoint)
  | setting stage state next =>
    simp only [hpoint, some.injEq] at h
    subst h
    exact happens_setState hpoint
  | reporting policy progress =>
    simp only [hpoint, some.injEq] at h
    subst h
    exact happens_setTransfer (.reported hpoint)
  | awaiting =>
    simp only [hpoint, some.injEq] at h
    subst h
    by_cases hcancelled : (manager.transfers other).cancelled
    · rw [if_pos hcancelled]
      exact happens_setTransfer (.cancels hpoint hcancelled)
    · rw [if_neg hcancelled]
      exact happens_setTransfer (.listens hpoint)
  | receiving =>
    simp only [hpoint, some.injEq] at h
    subst h
    exact happens_receive hpoint

theorem slot_updateInfo (info : TransferInfo → TransferInfo) : (manager.updateInfo id info).slot id =
      ((manager.state.jobs.get id).map fun job => { job with info := info job.info }, manager.transfers id) := by
  unfold updateInfo
  cases hget : manager.state.jobs.get id with
  | none =>
    rw [slot_withJobs_modify_none hget, slot, hget]
    rfl
  | some job =>
    rw [slot_withJobs_modify_some hget]
    cases hreply : job.conflictReply <;> simp [hreply]

theorem happens_updateInfo
    {info : TransferInfo → TransferInfo} (hpoint : (manager.transfers other).point = .working policy)
    (hinfo : ∀ i, (info i).state = i.state) :
    Happens default fresh none (manager.slot id) ((manager.updateInfo other info).slot id) := by
  by_cases hid : id = other
  · subst hid
    have hstays : manager.transfers id = { manager.transfers id with point := .working policy } := by
      rw [← hpoint]
    rw [slot_updateInfo, hstays]
    exact .informs hpoint hinfo (.inl rfl)
  · rw [updateInfo, slot_withJobs_modify hid]
    exact .stays _

theorem happens_report (progress : Progress) (hpoint : (manager.transfers other).point = .working policy) :
    Happens default fresh none (manager.slot id)
      (((manager.updateInfo other fun info => { info with progress := progress }).goTo other
        (.reporting policy progress)).slot id) := by
  rw [slot_goTo]
  by_cases hid : id = other
  · subst hid
    let info : TransferInfo → TransferInfo := fun info => { info with progress := progress }
    have hinfo : ∀ i, (info i).state = i.state := fun i => rfl
    rw [if_pos rfl, slot_updateInfo]
    exact .informs hpoint hinfo (.inr ⟨progress, rfl⟩)
  · rw [if_neg hid, updateInfo, slot_withJobs_modify hid]
    exact .stays _

theorem happens_finishWork
    (result : Except SftpError Outcome) (hpoint : (manager.transfers other).point = .working policy) :
    Happens default fresh none (manager.slot id) ((manager.finishWork other result).slot id) := by
  have hstate : (finalState result).isFinished := by
    unfold finalState
    split <;> rfl
  have hturns : Turns (manager.transfers other) _ := .finishes hpoint hstate
  exact happens_setTransfer hturns

variable (conflict : Conflict)

theorem exchange_conflict : manager.exchange (.work other (.conflict conflict)) id = if other = id then
        match manager.state.defaultPolicy with
        | some policy => some (.decided policy)
        | none => some .asks
      else none := rfl

theorem happens_policyFor (hpoint : (manager.transfers other).point = .working none) :
    Happens manager.state.defaultPolicy fresh (manager.exchange (.work other (.conflict conflict)) id)
      (manager.slot id) ((manager.policyFor other conflict).slot id) := by
  rw [exchange_conflict]
  by_cases hid : other = id
  · subst hid
    rw [if_pos rfl]
    unfold policyFor
    cases hdefault : manager.state.defaultPolicy with
    | some policy =>
      simp only [slot_goTo, if_true]
      exact .decided hpoint rfl
    | none =>
      cases hget : manager.state.jobs.get other with
      | none =>
        simp only [Table.contains, hget, isSome_none, Bool.false_eq_true, if_false]
        rw [finishWork, slot_setTransfer, if_pos rfl, slot, hget]
        exact .asksMissing hpoint rfl
      | some job =>
        simp only [Table.contains, hget, isSome_some, if_true]
        have hjobs : (manager.withJobs (manager.state.jobs.modify other Job.register)).state.jobs.get other =
            some job.register := by
          simp [withJobs, hget]
        rw [slot_setTransfer, if_pos rfl, hjobs, slot, hget]
        exact .asks hpoint rfl
  · have hne : id ≠ other := Ne.symm hid
    rw [if_neg hid]
    unfold policyFor
    cases hdefault : manager.state.defaultPolicy with
    | some policy =>
      simp only [slot_goTo, if_neg hne]
      exact .stays _
    | none =>
      by_cases hcontains : manager.state.jobs.contains other
      · simp only [if_pos hcontains, slot_setTransfer, if_neg hne, slot_withJobs_modify hne]
        exact .stays _
      · simp only [if_neg hcontains, finishWork, slot_setTransfer, if_neg hne]
        exact .stays _

theorem happens_work {work : TransferWork} (hpoint : (manager.transfers other).point = .working policy)
    (h : manager.work other policy work = some manager') :
    Happens manager.state.defaultPolicy fresh (manager.exchange (.work other work) id) (manager.slot id)
      (manager'.slot id) := by
  cases work with
  | conflict conflict =>
    simp only [TransferManager.work, ite_none_right_eq_some, some.injEq] at h
    obtain ⟨rfl, rfl⟩ := h
    exact happens_policyFor conflict hpoint
  | update update =>
    simp only [TransferManager.work, ite_none_left_eq_some, some.injEq] at h
    obtain ⟨-, rfl⟩ := h
    apply happens_updateInfo hpoint
    intro info
    cases update <;> rfl
  | report progress =>
    simp only [TransferManager.work, ite_none_left_eq_some, some.injEq] at h
    obtain ⟨-, rfl⟩ := h
    exact happens_report progress hpoint
  | result result =>
    have hend : manager' = manager.finishWork other result := by
      rcases result with error | ⟨name⟩ | _
      · simp only [TransferManager.work, ite_none_left_eq_some, some.injEq] at h
        exact h.2.symm
      · simp only [TransferManager.work, ite_none_left_eq_some, some.injEq] at h
        exact h.2.symm
      · simp only [TransferManager.work, ite_none_right_eq_some, some.injEq] at h
        exact h.2.symm
    rw [hend]
    exact happens_finishWork result hpoint

/-- What any step does to any transfer is one of the things listed. -/
theorem step_happens {action : QueueAction}
    (hfree : manager.NextFree) (h : manager.step action = some manager') (id : TransferId) :
    Happens manager.state.defaultPolicy (manager.Inserts manager' id) (manager.exchange action id)
      (manager.slot id) (manager'.slot id) := by
  cases action with
  | enqueue request connected =>
    cases h
    exact happens_enqueue request connected hfree
  | cancel other =>
    cases h
    exact happens_cancel
  | cancelAll =>
    cases h
    exact happens_cancelAll
  | resolveConflict other policy remember =>
    cases h
    exact happens_resolveConflict policy remember
  | setDefaultPolicy policy | pollEvents =>
    cases h
    exact .stays _
  | clearFinished =>
    cases h
    exact .forgets forgets_clearFinished
  | advance other => exact happens_advance h
  | work other work =>
    unfold step at h
    cases hpoint : (manager.transfers other).point with
    | working policy =>
      simp only [hpoint] at h
      exact happens_work hpoint h
    | _ => simp [hpoint] at h

end TransferManager

end FesTerm
