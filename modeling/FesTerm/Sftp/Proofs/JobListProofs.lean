import FesTerm.Sftp.Proofs.TransferProofs

/-!
# The transfer queue: the jobs, their order and the events

What each step does to the list of the jobs and to the order, and what it keeps of the rest that the lock
protects.
-/

namespace FesTerm

open Option Table

/-! ## The list of the jobs -/

/-- What a step does to the list of the jobs, with the transfer that it inserts. -/
inductive Files (manager manager' : TransferManager) : Option TransferId → Prop
  | keeps (hid : manager'.state.nextId = manager.state.nextId)
    (hjobs : ∀ id, manager'.state.jobs.contains id = manager.state.jobs.contains id)
    (horder : manager'.state.order = manager.state.order) (hcount : manager'.unfinished ≤ manager.unfinished) :
    Files manager manager' none
  | retains (hid : manager'.state.nextId = manager.state.nextId)
    (hjobs : ∀ id, manager'.state.jobs.contains id → manager.state.jobs.contains id)
    (horder : manager'.state.order = manager.state.order.filter manager'.state.jobs.contains)
    (hcount : manager'.unfinished ≤ manager.unfinished) : Files manager manager' none
  | inserts (hid : manager'.state.nextId = manager.state.nextId + 1)
    (hjobs : ∀ id, manager'.state.jobs.contains id ↔
      id = manager.state.nextId + 1 ∨ manager.state.jobs.contains id)
    (horder : manager'.state.order = manager.state.order ++ [manager.state.nextId + 1])
    (hcount : manager'.unfinished ≤ manager.config.maxQueued) :
    Files manager manager' (some (manager.state.nextId + 1))

/-- The transfer that an action inserts. -/
def TransferManager.inserted (manager : TransferManager) : QueueAction → Option TransferId
  | .enqueue request connected => (manager.enqueue request connected).1.toOption
  | _ => none

namespace TransferManager

variable {manager manager' : TransferManager} {id : TransferId}

theorem files_same (hid : manager'.state.nextId = manager.state.nextId)
    (hjobs : manager'.state.jobs = manager.state.jobs) (horder : manager'.state.order = manager.state.order) :
    Files manager manager' none := by
  apply Files.keeps hid
  · intro id
    rw [hjobs]
  · exact horder
  · rw [unfinished, hjobs]
    rfl

theorem files_modify (id : TransferId) (change : Job → Job) (hid : manager'.state.nextId = manager.state.nextId)
    (hjobs : manager'.state.jobs = manager.state.jobs.modify id change)
    (horder : manager'.state.order = manager.state.order)
    (h : ∀ job, manager.state.jobs.get id = some job → (change job).isFinished = false →
      job.isFinished = false) : Files manager manager' none := by
  apply Files.keeps hid
  · intro other
    rw [hjobs, contains_modify]
  · exact horder
  · rw [unfinished, hjobs]
    apply count_modify_le
    intro job hget hcounted
    simp only [Bool.not_eq_true'] at hcounted ⊢
    exact h job hget hcounted

variable (request : TransferRequest)

theorem files_insertJob (name : FilePath) :
    Files manager (manager.insertJob request name).2 (manager.insertJob request name).1.toOption := by
  unfold insertJob
  by_cases hfull : manager.config.maxQueued ≤ manager.unfinished
  · rw [if_pos hfull]
    exact files_same rfl rfl rfl
  · rw [if_neg hfull]
    apply Files.inserts
    · rfl
    · intro id
      simp only [Table.contains, get_insert]
      by_cases hid : id = manager.state.nextId + 1
      · simp [hid]
      · simp [hid]
    · rfl
    · exact (count_insert_le _ _ _ _).trans (by rw [unfinished] at hfull; omega)

variable (connected : Bool)

theorem files_enqueue :
    Files manager (manager.enqueue request connected).2 (manager.enqueue request connected).1.toOption := by
  unfold enqueue
  cases request.validate with
  | error error => exact files_same rfl rfl rfl
  | ok =>
    cases request.targetName with
    | error error => exact files_same rfl rfl rfl
    | ok name =>
      cases connected with
      | false => exact files_same rfl rfl rfl
      | true => exact files_insertJob request name

theorem files_cancel : Files manager (manager.cancel id) none := by
  unfold cancel
  split
  · exact files_same rfl rfl rfl
  · exact files_same rfl rfl rfl

variable (policy : ConflictPolicy)

theorem files_answerAll : Files manager ((manager.setDefaultPolicy (some policy)).answerAll policy) none := by
  apply Files.keeps
  · rfl
  · intro other
    exact contains_mapValues _ _ _
  · rfl
  · refine count_mapValues_le manager.state.jobs (fun _ => Job.take) (fun job => !job.isFinished) ?_
    intro key job _ hcounted
    exact hcounted

variable (remember : Bool)

theorem files_resolveConflict : Files manager (manager.resolveConflict id policy remember).2 none := by
  unfold resolveConflict
  by_cases hwaiting : manager.isWaiting id
  · rw [if_pos hwaiting]
    cases remember with
    | true => exact files_answerAll policy
    | false => exact files_modify id Job.take rfl rfl rfl (fun job _ h => h)
  · rw [if_neg hwaiting]
    exact files_same rfl rfl rfl

theorem removeFinished_count_le (excess : Nat) (order : List TransferId) (jobs : Table TransferId Job)
    (counted : Job → Bool) : (removeFinished excess order jobs).count counted ≤ jobs.count counted := by
  induction order generalizing excess jobs with
  | nil => cases excess <;> exact le_rfl
  | cons id rest ih =>
    cases excess with
    | zero => exact le_rfl
    | succ excess =>
      unfold removeFinished
      split
      · exact (ih excess (jobs.erase id)).trans (jobs.count_erase_le id counted)
      · exact ih (excess + 1) jobs

theorem files_pruneHistory (point : TransferPoint) :
    Files manager (manager.pruneHistory.goTo id point) none := by
  apply Files.retains
  · rfl
  · intro id hcontains
    rw [contains_iff] at hcontains ⊢
    obtain ⟨job, hget⟩ := hcontains
    rcases get_removeFinished (manager.state.jobs.count Job.isFinished - manager.config.maxHistory)
      manager.state.order manager.state.jobs with h | ⟨_, _, _, hnone⟩
    · exact ⟨job, h.symm.trans hget⟩
    · exact absurd (hget.symm.trans hnone) (by simp)
  · rfl
  · exact removeFinished_count_le _ _ _ _

theorem files_clearFinished : Files manager manager.clearFinished none := by
  apply Files.retains
  · rfl
  · intro id hcontains
    rw [contains_iff] at hcontains ⊢
    obtain ⟨job, hget⟩ := hcontains
    have hget' : (manager.state.jobs.retain fun _ job => !job.isFinished).get id = some job := hget
    rw [get_retain, filter_eq_some_iff] at hget'
    exact ⟨job, hget'.1⟩
  · rfl
  · exact count_retain_le manager.state.jobs (fun _ job => !job.isFinished) fun job => !job.isFinished

variable {exchanges : List Exchange} {state : TransferState} {next : Continuation} {stage : Stage}

theorem files_setState (hstands : Stands exchanges (manager.slot id))
    (hpoint : (manager.transfers id).point = .setting stage state next) :
    Files manager (manager.setState id state next stage) none := by
  cases stage with
  | emit => exact files_same rfl rfl rfl
  | prune => exact files_pruneHistory next.point
  | record =>
    by_cases hcontains : manager.state.jobs.contains id
    · rw [setState, if_pos hcontains]
      refine files_modify id (fun job => job.setState state) rfl rfl rfl ?_
      intro job hget _
      cases hfinished : job.isFinished with
      | false => rfl
      | true =>
        rw [slot, hget] at hstands
        have hphase := hstands.of_finished hfinished
        rw [hpoint] at hphase
        cases next <;> cases hphase
    · rw [setState, if_neg hcontains]
      exact files_same rfl rfl rfl

variable (conflict : Conflict)

theorem files_policyFor : Files manager (manager.policyFor id conflict) none := by
  unfold policyFor
  split
  · exact files_same rfl rfl rfl
  · split
    · exact files_modify id Job.register rfl rfl rfl (fun job _ h => h)
    · exact files_same rfl rfl rfl

theorem files_receive : Files manager (manager.receive id) none := by
  unfold receive
  split <;> exact files_same rfl rfl rfl

theorem files_advance (hstands : Stands exchanges (manager.slot id))
    (h : manager.advance id = some manager') : Files manager manager' none := by
  unfold advance at h
  cases hpoint : (manager.transfers id).point with
  | absent | working policy | ended => simp [hpoint] at h
  | setting stage state next =>
    simp only [hpoint, some.injEq] at h
    subst h
    exact files_setState hstands hpoint
  | receiving =>
    simp only [hpoint, some.injEq] at h
    subst h
    exact files_receive
  | announcing | acquiring | reporting policy progress =>
    simp only [hpoint, some.injEq] at h
    subst h
    exact files_same rfl rfl rfl
  | admitting | awaiting =>
    simp only [hpoint, some.injEq] at h
    subst h
    split <;> exact files_same rfl rfl rfl

theorem files_updateInfo {info : TransferInfo → TransferInfo} (hinfo : ∀ i, (info i).state = i.state) :
    Files manager (manager.updateInfo id info) none := by
  refine files_modify id (fun job => { job with info := info job.info }) rfl rfl rfl ?_
  intro job _ hfinished
  rw [← hfinished]
  simp only [Job.isFinished, hinfo]

variable {work : TransferWork}

theorem files_work {policy : Option ConflictPolicy}
    (h : manager.work id policy work = some manager') : Files manager manager' none := by
  rcases work with conflict | update | progress | error | ⟨name⟩ | _
  all_goals
    simp only [TransferManager.work, ite_none_right_eq_some, ite_none_left_eq_some,
      some.injEq] at h
    obtain ⟨-, rfl⟩ := h
  · exact files_policyFor conflict
  · apply files_updateInfo
    intro info
    cases update <;> rfl
  · refine files_modify id (fun job => { job with info := { job.info with progress := progress } }) rfl rfl rfl ?_
    exact fun job _ h => h
  · exact files_same rfl rfl rfl
  · exact files_same rfl rfl rfl
  · exact files_same rfl rfl rfl

variable {action : QueueAction}

/-- What any step does to the list of the jobs. -/
theorem step_files (hstands : ∀ id, ∃ exchanges, Stands exchanges (manager.slot id))
    (h : manager.step action = some manager') : Files manager manager' (manager.inserted action) := by
  cases action with
  | enqueue request connected =>
    cases h
    exact files_enqueue request connected
  | cancel id =>
    cases h
    exact files_cancel
  | cancelAll | setDefaultPolicy policy | pollEvents =>
    cases h
    exact files_same rfl rfl rfl
  | resolveConflict id policy remember =>
    cases h
    exact files_resolveConflict policy remember
  | clearFinished =>
    cases h
    exact files_clearFinished
  | advance id =>
    obtain ⟨exchanges, hid⟩ := hstands id
    exact files_advance hid h
  | work id work =>
    unfold step at h
    cases hpoint : (manager.transfers id).point with
    | working policy =>
      simp only [hpoint] at h
      exact files_work h
    | _ => simp [hpoint] at h

/-! ## Events, the configuration and the default policy -/

theorem trimEvents_length (events : List TransferEvent) : (trimEvents events).length ≤ maxPendingEvents := by
  induction events using trimEvents.induct with
  | case1 events hmany ih =>
    rw [trimEvents, if_pos hmany]
    exact ih
  | case2 events hfew =>
    rw [trimEvents, if_neg hfew]
    exact Nat.le_of_not_lt hfew

/-- What any step does to the events, the configuration and the default policy. -/
structure Keeps (manager manager' : TransferManager) (chosen : Option (Option ConflictPolicy)) : Prop where
  events : manager.state.events.length ≤ maxPendingEvents → manager'.state.events.length ≤ maxPendingEvents
  config : manager'.config = manager.config
  policy : manager'.state.defaultPolicy = chosen.getD manager.state.defaultPolicy

/-- The default policy that an action sets. -/
def chosen (manager : TransferManager) : QueueAction → Option (Option ConflictPolicy)
  | .setDefaultPolicy policy => some policy
  | .resolveConflict id policy remember =>
    if manager.isWaiting id ∧ remember then some (some policy) else none
  | _ => none

theorem keeps_same (hevents : manager'.state.events = manager.state.events) (hconfig : manager'.config = manager.config)
    (hpolicy : manager'.state.defaultPolicy = manager.state.defaultPolicy) : Keeps manager manager' none :=
  ⟨fun h => by rw [hevents]; exact h, hconfig, hpolicy⟩

theorem keeps_emit {events : List TransferEvent} (hevents : manager'.state.events = trimEvents events)
    (hconfig : manager'.config = manager.config)
    (hpolicy : manager'.state.defaultPolicy = manager.state.defaultPolicy) : Keeps manager manager' none :=
  ⟨fun _ => by rw [hevents]; exact trimEvents_length _, hconfig, hpolicy⟩

theorem keeps_enqueue : Keeps manager (manager.enqueue request connected).2 none := by
  unfold enqueue
  split
  · exact keeps_same rfl rfl rfl
  · split
    · exact keeps_same rfl rfl rfl
    · split
      · unfold insertJob
        split <;> exact keeps_same rfl rfl rfl
      · exact keeps_same rfl rfl rfl

theorem keeps_resolveConflict : Keeps manager (manager.resolveConflict id policy remember).2
      (manager.chosen (.resolveConflict id policy remember)) := by
  unfold resolveConflict chosen
  by_cases hwaiting : manager.isWaiting id
  · cases remember with
    | true =>
      simp only [hwaiting, if_true, and_self]
      exact ⟨fun h => h, rfl, rfl⟩
    | false =>
      simp only [hwaiting, if_true, Bool.false_eq_true, and_false, if_false]
      exact keeps_same rfl rfl rfl
  · simp only [hwaiting, Bool.false_eq_true, if_false, false_and]
    exact keeps_same rfl rfl rfl

theorem keeps_setState : Keeps manager (manager.setState id state next stage) none := by
  cases stage with
  | emit => exact keeps_emit rfl rfl rfl
  | prune => exact keeps_same rfl rfl rfl
  | record =>
    by_cases hcontains : manager.state.jobs.contains id
    · rw [setState, if_pos hcontains]
      exact keeps_same rfl rfl rfl
    · rw [setState, if_neg hcontains]
      exact keeps_same rfl rfl rfl

theorem keeps_advance (h : manager.advance id = some manager') : Keeps manager manager' none := by
  unfold advance at h
  cases hpoint : (manager.transfers id).point with
  | absent | working policy | ended => simp [hpoint] at h
  | setting stage state next =>
    simp only [hpoint, some.injEq] at h
    subst h
    exact keeps_setState
  | receiving =>
    simp only [hpoint, some.injEq] at h
    subst h
    unfold receive
    split <;> exact keeps_same rfl rfl rfl
  | announcing | reporting policy progress =>
    simp only [hpoint, some.injEq] at h
    subst h
    exact keeps_emit rfl rfl rfl
  | acquiring =>
    simp only [hpoint, some.injEq] at h
    subst h
    exact keeps_same rfl rfl rfl
  | admitting | awaiting =>
    simp only [hpoint, some.injEq] at h
    subst h
    split <;> exact keeps_same rfl rfl rfl

theorem keeps_policyFor : Keeps manager (manager.policyFor id conflict) none := by
  unfold policyFor
  split
  · exact keeps_same rfl rfl rfl
  · split <;> exact keeps_same rfl rfl rfl

theorem keeps_work {policy : Option ConflictPolicy}
    (h : manager.work id policy work = some manager') : Keeps manager manager' none := by
  rcases work with conflict | update | progress | error | ⟨name⟩ | _
  · simp only [TransferManager.work, ite_none_right_eq_some, some.injEq] at h
    obtain ⟨-, rfl⟩ := h
    exact keeps_policyFor conflict
  all_goals
    simp only [TransferManager.work, ite_none_left_eq_some, ite_none_right_eq_some,
      some.injEq] at h
    obtain ⟨-, rfl⟩ := h
    exact keeps_same rfl rfl rfl

theorem step_keeps (h : manager.step action = some manager') :
    Keeps manager manager' (manager.chosen action) := by
  cases action with
  | enqueue request connected =>
    cases h
    exact keeps_enqueue request connected
  | cancel id =>
    cases h
    unfold cancel
    split <;> exact keeps_same rfl rfl rfl
  | cancelAll | clearFinished =>
    cases h
    exact keeps_same rfl rfl rfl
  | resolveConflict id policy remember =>
    cases h
    exact keeps_resolveConflict policy remember
  | setDefaultPolicy policy =>
    cases h
    exact ⟨fun h => h, rfl, rfl⟩
  | pollEvents =>
    cases h
    exact ⟨fun _ => Nat.zero_le _, rfl, rfl⟩
  | advance id => exact keeps_advance h
  | work id work =>
    unfold step at h
    cases hpoint : (manager.transfers id).point with
    | working policy =>
      simp only [hpoint] at h
      exact keeps_work h
    | _ => simp [hpoint] at h

end TransferManager

end FesTerm
