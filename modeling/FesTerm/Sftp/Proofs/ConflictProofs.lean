import FesTerm.Sftp.Proofs.JobListProofs

/-!
# The transfer queue: every conflict is answered once

The invariant of a run, and what follows from it for the conflicts, the order and the bounds.
-/

namespace FesTerm

open List Option

/-! ## Runs -/

/-- The actions so far, each with the state it found. -/
abbrev QueueHistory := List (TransferManager × QueueAction)

/-- The calls and the steps of the transfers in any order, from one manager to another. -/
inductive QueueSteps : TransferManager → QueueHistory → TransferManager → Prop
  | done (manager : TransferManager) : QueueSteps manager [] manager
  | step {manager manager' manager'' : TransferManager} {action : QueueAction} {rest : QueueHistory}
    (hstep : manager.step action = some manager') (hrest : QueueSteps manager' rest manager'') :
    QueueSteps manager ((manager, action) :: rest) manager''

/-- The actions of a run from the empty queue. -/
abbrev QueueRun (config : TransferConfig) (past : QueueHistory) (manager : TransferManager) : Prop :=
  QueueSteps (.new config) past manager

variable {manager : TransferManager} {exchange : Option Exchange} {slot slot' : TransferSlot} {past : QueueHistory}

theorem QueueSteps.split {manager'' : TransferManager} {before after : QueueHistory}
    (h : QueueSteps manager (before ++ after) manager'') :
    ∃ manager', QueueSteps manager before manager' ∧ QueueSteps manager' after manager'' := by
  induction before generalizing manager with
  | nil => exact ⟨manager, .done _, h⟩
  | cons entry before ih =>
    cases h with
    | step hstep hrest =>
      obtain ⟨manager', hbefore, hafter⟩ := ih hrest
      exact ⟨manager', .step hstep hbefore, hafter⟩

namespace QueueHistory

/-- What was asked and answered about a transfer. -/
def exchanges (past : QueueHistory) (id : TransferId) : List Exchange :=
  past.filterMap fun entry => entry.1.exchange entry.2 id

/-- The transfers in the order in which they were queued. -/
def enqueued (past : QueueHistory) : List TransferId := past.filterMap fun entry => entry.1.inserted entry.2

/-- The policy that was remembered last. -/
def lastDefault (past : QueueHistory) : Option ConflictPolicy :=
  (past.filterMap fun entry => entry.1.chosen entry.2).getLast?.join

theorem exchanges_step (past : QueueHistory) (manager : TransferManager) (action : QueueAction)
    (id : TransferId) : QueueHistory.exchanges (past ++ [(manager, action)]) id =
      past.exchanges id ++ (manager.exchange action id).toList := by
  rw [exchanges, filterMap_append, filterMap_cons, filterMap_nil, exchanges]
  cases manager.exchange action id <;> rfl

theorem enqueued_step (past : QueueHistory) (manager : TransferManager) (action : QueueAction) :
    QueueHistory.enqueued (past ++ [(manager, action)]) =
      past.enqueued ++ (manager.inserted action).toList := by
  rw [enqueued, filterMap_append, filterMap_cons, filterMap_nil, enqueued]
  cases manager.inserted action <;> rfl

theorem lastDefault_step (past : QueueHistory) (manager : TransferManager) (action : QueueAction) :
    QueueHistory.lastDefault (past ++ [(manager, action)]) =
      (manager.chosen action).getD past.lastDefault := by
  rw [lastDefault, filterMap_append, filterMap_cons, filterMap_nil, lastDefault]
  cases manager.chosen action with
  | none | some policy => simp

end QueueHistory

/-- What holds along every run. -/
structure QueueInv (config : TransferConfig) (past : QueueHistory) (manager : TransferManager) : Prop where
  configured : manager.config = config
  stands : ∀ id, Stands (past.exchanges id) (manager.slot id)
  numbers : past.enqueued = List.range' 1 manager.state.nextId
  free : ∀ id, manager.state.nextId < id → (manager.transfers id).point = .absent
  retained : ∀ id, manager.state.jobs.contains id → id ∈ past.enqueued
  order : manager.state.order = past.enqueued.filter manager.state.jobs.contains
  unfinished : manager.unfinished ≤ config.maxQueued
  events : manager.state.events.length ≤ maxPendingEvents
  policy : manager.state.defaultPolicy = past.lastDefault

variable {default : Option ConflictPolicy} {fresh : Prop}

/-- Nothing brings a transfer about but its insertion. -/
theorem Happens.absent (h : Happens default fresh exchange slot slot') (hjob : slot.1 = none)
    (hpoint : slot.2.point = .absent) (hfresh : ¬fresh) : slot'.2.point = .absent := by
  cases h with
  | stays | cancelled => exact hpoint
  | inserted hinserts => exact absurd hinserts hfresh
  | given | records | asks => cases hjob
  | forgets hforgets =>
    cases hforgets with
    | keeps => exact hpoint
    | forgets => cases hjob
  | turns job hturns =>
    cases hturns with
    | announced h => exact absurd (h.symm.trans hpoint) (by simp)
    | acquires h => exact absurd (h.symm.trans hpoint) (by simp)
    | refused h => exact absurd (h.symm.trans hpoint) (by simp)
    | starts h => exact absurd (h.symm.trans hpoint) (by simp)
    | abandons h => exact absurd (h.symm.trans hpoint) (by simp)
    | emitted h => exact absurd (h.symm.trans hpoint) (by simp)
    | reported h => exact absurd (h.symm.trans hpoint) (by simp)
    | listens h => exact absurd (h.symm.trans hpoint) (by simp)
    | sleeps h => exact absurd (h.symm.trans hpoint) (by simp)
    | receives h => exact absurd (h.symm.trans hpoint) (by simp)
    | cancels h => exact absurd (h.symm.trans hpoint) (by simp)
    | hangsUp h => exact absurd (h.symm.trans hpoint) (by simp)
    | finishes h => exact absurd (h.symm.trans hpoint) (by simp)
  | misses h | prunes h | informs h | decided h | asksMissing h =>
    exact absurd (h.symm.trans hpoint) (by simp)

variable {action : QueueAction}

namespace QueueInv

variable {config : TransferConfig} {past : QueueHistory} {manager manager' : TransferManager}

theorem start (config : TransferConfig) : QueueInv config [] (.new config) where
  configured := rfl
  stands := fun id => ⟨trivial, rfl, rfl, rfl⟩
  numbers := rfl
  free := fun id _ => rfl
  retained := fun id h => by cases h
  order := rfl
  unfinished := Nat.zero_le _
  events := Nat.zero_le _
  policy := rfl

theorem mem_enqueued (h : QueueInv config past manager) {id : TransferId} :
    id ∈ past.enqueued ↔ 1 ≤ id ∧ id ≤ manager.state.nextId := by
  rw [h.numbers, mem_range'_1, Nat.add_comm, Nat.lt_succ_iff]

theorem get_of_nextId_lt (h : QueueInv config past manager) {id : TransferId} (hid : manager.state.nextId < id) :
    manager.state.jobs.get id = none := by
  cases hget : manager.state.jobs.get id with
  | none => rfl
  | some job =>
    have hle := (h.mem_enqueued.mp (h.retained id (Table.contains_iff.mpr ⟨job, hget⟩))).2
    exact absurd hid (Nat.not_lt.mpr hle)

theorem nextFree (h : QueueInv config past manager) : manager.NextFree :=
  ⟨h.get_of_nextId_lt (Nat.lt_succ_self _), h.free _ (Nat.lt_succ_self _)⟩

/-- What the list of the jobs keeps to, after any step. -/
theorem files {inserted : Option TransferId} (h : QueueInv config past manager)
    (hfiles : Files manager manager' inserted) :
    past.enqueued ++ inserted.toList = List.range' 1 manager'.state.nextId ∧
      (∀ id, manager'.state.jobs.contains id → id ∈ past.enqueued ++ inserted.toList) ∧
      manager'.state.order = (past.enqueued ++ inserted.toList).filter manager'.state.jobs.contains ∧
      manager'.unfinished ≤ config.maxQueued ∧ manager.state.nextId ≤ manager'.state.nextId := by
  cases hfiles with
  | keeps hid hjobs horder hcount =>
    simp only [toList_none, append_nil]
    have hsame : manager'.state.jobs.contains = manager.state.jobs.contains := funext hjobs
    refine ⟨by rw [hid, h.numbers], ?_, ?_, hcount.trans h.unfinished, hid.ge⟩
    · intro id hcontains
      rw [hjobs] at hcontains
      exact h.retained id hcontains
    · rw [horder, h.order, hsame]
  | retains hid hjobs horder hcount =>
    simp only [toList_none, append_nil]
    refine ⟨by rw [hid, h.numbers], fun id hcontains => h.retained id (hjobs id hcontains), ?_,
      hcount.trans h.unfinished, hid.ge⟩
    rw [horder, h.order, List.filter_filter]
    apply filter_congr
    intro id _
    cases hcontains : manager'.state.jobs.contains id with
    | false => simp
    | true => simp [hjobs id hcontains]
  | inserts hid hjobs horder hcount =>
    simp only [toList_some]
    have hnumbers : past.enqueued ++ [manager.state.nextId + 1] = List.range' 1 manager'.state.nextId := by
      rw [hid, h.numbers, range'_1_concat, Nat.add_comm 1]
    refine ⟨hnumbers, ?_, ?_, h.configured ▸ hcount, by rw [hid]; exact Nat.le_succ _⟩
    · intro id hcontains
      rcases (hjobs id).mp hcontains with rfl | hold
      · simp
      · exact mem_append_left _ (h.retained id hold)
    · have hnew : manager'.state.jobs.contains (manager.state.nextId + 1) = true := (hjobs _).mpr (.inl rfl)
      rw [horder, h.order, filter_append, filter_cons_of_pos hnew, filter_nil]
      congr 1
      apply filter_congr
      intro id hmem
      have hle := (h.mem_enqueued.mp hmem).2
      have hold := hjobs id
      cases hcontains : manager.state.jobs.contains id with
      | true => exact (hold.mpr (.inr hcontains)).symm
      | false =>
        cases hcontains' : manager'.state.jobs.contains id with
        | false => rfl
        | true =>
          rcases hold.mp hcontains' with rfl | hcontains''
          · exact absurd hle (Nat.not_succ_le_self _)
          · rw [hcontains] at hcontains''
            cases hcontains''

theorem step (h : QueueInv config past manager) (hstep : manager.step action = some manager') :
    QueueInv config (past ++ [(manager, action)]) manager' := by
  have hkeeps := manager.step_keeps hstep
  have hhappens := manager.step_happens h.nextFree hstep
  obtain ⟨hnumbers, hretained, horder, hunfinished, hnext⟩ :=
    h.files (manager.step_files (fun id => ⟨_, h.stands id⟩) hstep)
  rw [← QueueHistory.enqueued_step] at hnumbers hretained horder
  refine ⟨hkeeps.config.trans h.configured, ?_, hnumbers, ?_, hretained, horder, hunfinished,
    hkeeps.events h.events, ?_⟩
  · intro id
    rw [QueueHistory.exchanges_step]
    exact (h.stands id).happens (hhappens id)
  · intro id hid
    have hold : manager.state.nextId < id := hnext.trans_lt hid
    apply (hhappens id).absent (h.get_of_nextId_lt hold) (h.free id hold)
    rintro ⟨-, rfl⟩
    exact lt_irrefl _ hid
  · rw [hkeeps.policy, QueueHistory.lastDefault_step, h.policy]

end QueueInv

theorem QueueInv.steps {config : TransferConfig} {after : QueueHistory} {manager' : TransferManager}
    (h : QueueInv config past manager) (hsteps : QueueSteps manager after manager') :
    QueueInv config (past ++ after) manager' := by
  induction hsteps generalizing past with
  | done => simpa using h
  | step hstep _ ih => simpa using ih (h.step hstep)

theorem QueueSteps.inv {config : TransferConfig}
    (h : QueueRun config past manager) : QueueInv config past manager := (QueueInv.start config).steps h

/-! ## The answers -/

/-- It was asked about, and has no answer yet. -/
def Waiting (past : QueueHistory) (manager : TransferManager) (id : TransferId) : Prop :=
  past.exchanges id = [.asks] ∧ ∃ job, manager.state.jobs.get id = some job ∧ job.isFinished = false

namespace QueueInv

variable {config : TransferConfig} {past : QueueHistory} {manager manager' : TransferManager} {id : TransferId}

theorem stands_some (h : QueueInv config past manager) {job : Job} (hget : manager.state.jobs.get id = some job) :
    Stands (past.exchanges id) (some job, manager.transfers id) := by
  have hstands := h.stands id
  rw [TransferManager.slot, hget] at hstands
  exact hstands

theorem isWaiting_iff (h : QueueInv config past manager) : manager.isWaiting id ↔ Waiting past manager id := by
  rw [TransferManager.isWaiting_iff]
  constructor
  · rintro ⟨job, hget, hreply⟩
    obtain ⟨hexchanges, hunfinished, -⟩ := (h.stands_some hget).of_registered hreply
    exact ⟨hexchanges, job, hget, hunfinished⟩
  · rintro ⟨hexchanges, job, hget, hunfinished⟩
    have hstands := h.stands_some hget
    rw [hexchanges] at hstands
    exact ⟨job, hget, hstands.of_asks hunfinished⟩

theorem settled (h : QueueInv config past manager) {policy : Option ConflictPolicy}
    (hphase : (manager.transfers id).point.phase = .working policy) : Settled policy (past.exchanges id) := by
  have holds := (h.stands id).holds
  simp only [TransferManager.slot, hphase, Phase.Holds] at holds
  exact holds.2.2

theorem exchanges_form (h : QueueInv config past manager) (id : TransferId) :
    past.exchanges id = [.asks] ∨ ∃ policy, Settled policy (past.exchanges id) := by
  have holds := (h.stands id).holds
  cases hphase : (manager.transfers id).point.phase with
  | absent | starting =>
    simp only [TransferManager.slot, hphase, Phase.Holds] at holds
    exact .inr ⟨none, holds.2.2 ▸ .smooth⟩
  | working policy => exact .inr ⟨policy, h.settled hphase⟩
  | awaiting =>
    simp only [TransferManager.slot, hphase, Phase.Holds] at holds
    rcases holds with ⟨-, -, hexchanges⟩ | ⟨policy, -, -, hexchanges⟩
    · exact .inl hexchanges
    · exact .inr ⟨some policy, hexchanges ▸ .given policy⟩
  | finishing =>
    simp only [TransferManager.slot, hphase, Phase.Holds] at holds
    obtain ⟨-, ⟨-, -, hexchanges⟩ | ⟨policy, -, hsettled⟩⟩ := holds
    · exact .inl hexchanges
    · exact .inr ⟨policy, hsettled⟩
  | finished =>
    simp only [TransferManager.slot, hphase, Phase.Holds] at holds
    exact holds.2.1

variable {remember : Bool}

theorem resolveConflict_ok_iff {policy : ConflictPolicy} (h : QueueInv config past manager) :
    (manager.resolveConflict id policy remember).1 = .ok () ↔ Waiting past manager id := by
  rw [← h.isWaiting_iff, TransferManager.resolveConflict]
  by_cases hwaiting : manager.isWaiting id
  · simp [hwaiting]
  · simp [hwaiting]

theorem resolveConflict_reply {policy : ConflictPolicy} (h : QueueInv config past manager)
    (hok : (manager.resolveConflict id policy remember).1 = .ok ()) :
    ((manager.resolveConflict id policy remember).2.transfers id).reply = .answered policy ∨
      (manager.transfers id).cancelled := by
  have hwaiting : manager.isWaiting id := h.isWaiting_iff.mpr (h.resolveConflict_ok_iff.mp hok)
  obtain ⟨job, hget, hreply⟩ := TransferManager.isWaiting_iff.mp hwaiting
  have hslot : (manager.resolveConflict id policy remember).2.slot id =
      (some job.take,
        { manager.transfers id with reply := ((manager.transfers id).reply.send policy).dropSender }) := by
    rw [TransferManager.resolveConflict, if_pos hwaiting]
    cases remember with
    | true =>
      have hall : ((manager.setDefaultPolicy (some policy)).answerAll policy).slot id = _ :=
        TransferManager.slot_answerAll_waiting hget hreply policy
      exact hall
    | false => exact TransferManager.slot_answer hget hreply policy
  have hafter : ((manager.resolveConflict id policy remember).2.transfers id).reply =
      ((manager.transfers id).reply.send policy).dropSender := congrArg (fun slot => slot.2.reply) hslot
  rw [hafter]
  obtain ⟨-, -, ⟨-, hpending⟩ | ⟨-, -, hcancelled⟩⟩ := (h.stands_some hget).of_registered hreply
  · left
    rw [hpending]
    rfl
  · exact .inr hcancelled

end QueueInv

theorem Happens.registered {policy : ConflictPolicy} (h : Happens (some policy) fresh exchange slot slot')
    (hnot : ¬slot.1.any Job.conflictReply) : ¬slot'.1.any Job.conflictReply := by
  cases h with
  | stays | cancelled | turns | decided => exact hnot
  | inserted _ _ _ hreply => simp [hreply]
  | given hreply => simp [hreply] at hnot
  | forgets hforgets | prunes hpoint hforgets =>
    cases hforgets with
    | keeps => exact hnot
    | forgets => simp
  | records =>
    simp only [any_some] at hnot ⊢
    simp [Job.setState, hnot]
  | misses | asksMissing => simp
  | @informs job =>
    cases job with
    | none => simp
    | some job => exact hnot
  | asks _ hdefault => cases hdefault

/-- A transfer that has recorded its end stays as it is, and its job keeps its state while it is
retained. -/
theorem Happens.finished {exchanges : List Exchange} (h : Happens default fresh exchange slot slot')
    (hstands : Stands exchanges slot) (hphase : slot.2.point.phase = .finished) :
    slot'.2.point.phase = .finished ∧
      ∀ job', slot'.1 = some job' → ∃ job, slot.1 = some job ∧ job'.info.state = job.info.state := by
  have hcontra : ∀ {point : TransferPoint}, slot.2.point = point → point.phase ≠ .finished → False := by
    intro point hpoint hne
    exact hne (hpoint ▸ hphase)
  cases h with
  | stays | cancelled => exact ⟨hphase, fun job' h => ⟨job', h, rfl⟩⟩
  | inserted _ hpoint | informs hpoint | decided hpoint | asks hpoint | asksMissing hpoint =>
    exact (hcontra hpoint (by simp [TransferPoint.phase])).elim
  | given hreply =>
    have holds := hstands.holds
    simp only [hphase, Phase.Holds] at holds
    rw [(holds.2.2 _ rfl).2] at hreply
    cases hreply
  | forgets hforgets =>
    cases hforgets with
    | keeps => exact ⟨hphase, fun job' h => ⟨job', h, rfl⟩⟩
    | forgets transfer _ =>
      refine ⟨?_, by rintro _ ⟨⟩⟩
      unfold Transfer.without
      split <;> exact hphase
  | turns job hturns =>
    cases hturns with
    | @emitted state next hpoint =>
      refine ⟨?_, fun job' h => ⟨job', h, rfl⟩⟩
      rw [← hphase, hpoint]
      cases next <;> rfl
    | announced hpoint => exact (hcontra hpoint (by simp [TransferPoint.phase])).elim
    | acquires hpoint => exact (hcontra hpoint (by simp [TransferPoint.phase])).elim
    | refused hpoint => exact (hcontra hpoint (by simp [TransferPoint.phase])).elim
    | starts hpoint => exact (hcontra hpoint (by simp [TransferPoint.phase])).elim
    | abandons hpoint => exact (hcontra hpoint (by simp [TransferPoint.phase])).elim
    | reported hpoint => exact (hcontra hpoint (by simp [TransferPoint.phase])).elim
    | listens hpoint => exact (hcontra hpoint (by simp [TransferPoint.phase])).elim
    | sleeps hpoint => exact (hcontra hpoint (by simp [TransferPoint.phase])).elim
    | receives hpoint => exact (hcontra hpoint (by simp [TransferPoint.phase])).elim
    | cancels hpoint => exact (hcontra hpoint (by simp [TransferPoint.phase])).elim
    | hangsUp hpoint => exact (hcontra hpoint (by simp [TransferPoint.phase])).elim
    | finishes hpoint => exact (hcontra hpoint (by simp [TransferPoint.phase])).elim
  | @records _ _ _ next hpoint | @misses _ _ next hpoint =>
    refine (hcontra hpoint ?_).elim
    cases next <;> simp [TransferPoint.phase]
  | @prunes slot₁ _ state next hpoint hforgets =>
    have hnext : next = .finish := by
      rw [hpoint] at hphase
      cases next with
      | finish => rfl
      | work policy => cases hphase
      | await => cases hphase
    subst hnext
    refine ⟨rfl, ?_⟩
    cases hforgets with
    | keeps => exact fun job' h => ⟨job', h, rfl⟩
    | forgets => rintro _ ⟨⟩

/-! ## Along a run -/

section

variable {config : TransferConfig} {past after : QueueHistory} {manager manager' : TransferManager}
  {id : TransferId}

theorem QueueSteps.finished (hsteps : QueueSteps manager after manager') (h : QueueInv config past manager)
    {state : TransferState} (hphase : (manager.transfers id).point.phase = .finished)
    (hstate : ∀ job, manager.state.jobs.get id = some job → job.info.state = state) :
    ∀ job, manager'.state.jobs.get id = some job → job.info.state = state := by
  induction hsteps generalizing past with
  | done => exact hstate
  | step hstep hrest ih =>
    have hhappens := TransferManager.step_happens h.nextFree hstep id
    obtain ⟨hphase', hjobs⟩ := hhappens.finished (h.stands id) hphase
    apply ih (h.step hstep) hphase'
    intro job' hget
    obtain ⟨job, hold, hsame⟩ := hjobs job' hget
    rw [hsame]
    exact hstate job hold

def Remembers (manager : TransferManager) : Prop :=
  manager.state.defaultPolicy ≠ none ∧ ∀ id, manager.isWaiting id = false

theorem isWaiting_eq_slot (manager : TransferManager) (id : TransferId) :
    manager.isWaiting id = (manager.slot id).1.any Job.conflictReply := rfl

variable {policy : ConflictPolicy}

theorem remembers_resolveConflict (hok : (manager.resolveConflict id policy true).1 = .ok ()) :
    Remembers (manager.resolveConflict id policy true).2 := by
  unfold TransferManager.resolveConflict at hok ⊢
  by_cases hwaiting : manager.isWaiting id
  · rw [if_pos hwaiting, if_pos rfl]
    refine ⟨nofun, fun other => ?_⟩
    have hjobs : ((manager.setDefaultPolicy (some policy)).answerAll policy).state.jobs.get other =
        (manager.state.jobs.get other).map Job.take := Table.get_mapValues _ _ _
    rw [TransferManager.isWaiting, hjobs]
    cases manager.state.jobs.get other <;> rfl
  · rw [if_neg hwaiting] at hok
    cases hok

theorem Remembers.step (hremembers : Remembers manager) (h : QueueInv config past manager)
    (hstep : manager.step action = some manager') (haction : action ≠ .setDefaultPolicy none) :
    Remembers manager' := by
  obtain ⟨hdefault, hidle⟩ := hremembers
  constructor
  · have hpolicy := (TransferManager.step_keeps hstep).policy
    rw [hpolicy]
    cases hchosen : manager.chosen action with
    | none => exact hdefault
    | some policy =>
      rw [getD_some]
      rintro rfl
      unfold TransferManager.chosen at hchosen
      split at hchosen
      · cases hchosen
        exact haction rfl
      · split at hchosen
        · cases hchosen
        · cases hchosen
      · cases hchosen
  · intro other
    obtain ⟨policy, hsome⟩ := ne_none_iff_exists'.mp hdefault
    have hhappens := TransferManager.step_happens h.nextFree hstep other
    rw [hsome] at hhappens
    have hnot := hhappens.registered (by rw [← isWaiting_eq_slot, hidle other]; exact Bool.false_ne_true)
    rw [← isWaiting_eq_slot] at hnot
    simpa using hnot

theorem QueueSteps.remembers (hsteps : QueueSteps manager after manager') (h : QueueInv config past manager)
    (hremembers : Remembers manager) (hafter : ∀ entry ∈ after, entry.2 ≠ .setDefaultPolicy none) :
    Remembers manager' := by
  induction hsteps generalizing past with
  | done => exact hremembers
  | step hstep hrest ih =>
    apply ih (h.step hstep)
    · exact hremembers.step h hstep (hafter _ mem_cons_self)
    · exact fun entry hmem => hafter entry (mem_cons_of_mem _ hmem)

/-- Where a policy that was exchanged came from. -/
theorem exchange_origin (hexchange : manager.exchange action id = some (.given policy) ∨
      manager.exchange action id = some (.decided policy)) :
    (∃ other remember, action = .resolveConflict other policy remember ∧
        (manager.resolveConflict other policy remember).1 = .ok () ∧ (other = id ∨ remember = true)) ∨
      ∃ conflict, action = .work id (.conflict conflict) ∧ manager.state.defaultPolicy = some policy := by
  cases action with
  | resolveConflict other policy' remember =>
    rw [TransferManager.exchange_resolveConflict] at hexchange
    by_cases hgives : manager.isWaiting other ∧ manager.isWaiting id ∧ (other = id ∨ remember)
    · rw [if_pos hgives] at hexchange
      rcases hexchange with h | h
      · obtain rfl := Exchange.given.inj (some.inj h)
        left
        refine ⟨other, remember, rfl, ?_, hgives.2.2⟩
        rw [TransferManager.resolveConflict, if_pos hgives.1]
      · cases h
    · rw [if_neg hgives] at hexchange
      rcases hexchange with h | h <;> cases h
  | work other work =>
    cases work with
    | conflict conflict =>
      rw [TransferManager.exchange_conflict] at hexchange
      by_cases hid : other = id
      · rw [if_pos hid] at hexchange
        subst hid
        cases hdefault : manager.state.defaultPolicy with
        | none =>
          rw [hdefault] at hexchange
          rcases hexchange with h | h <;> cases h
        | some policy' =>
          rw [hdefault] at hexchange
          rcases hexchange with h | h
          · cases h
          · obtain rfl := Exchange.decided.inj (some.inj h)
            exact .inr ⟨conflict, rfl, rfl⟩
      · rw [if_neg hid] at hexchange
        rcases hexchange with h | h <;> cases h
    | update => rcases hexchange with h | h <;> cases h
    | report => rcases hexchange with h | h <;> cases h
    | result => rcases hexchange with h | h <;> cases h
  | enqueue | cancel | cancelAll | setDefaultPolicy | pollEvents | clearFinished | advance =>
    rcases hexchange with h | h <;> cases h

theorem settled_origin (h : Settled (some policy) (past.exchanges id)) : ∃ entry ∈ past,
      (∃ other remember, entry.2 = .resolveConflict other policy remember ∧
        (entry.1.resolveConflict other policy remember).1 = .ok () ∧ (other = id ∨ remember = true)) ∨
      ∃ conflict, entry.2 = .work id (.conflict conflict) ∧ entry.1.state.defaultPolicy = some policy := by
  have hmem : .given policy ∈ past.exchanges id ∨ .decided policy ∈ past.exchanges id := by
    generalize past.exchanges id = exchanges at h
    cases h with
    | decided => exact .inr (mem_singleton_self _)
    | given => exact .inl (by simp)
  rcases hmem with hmem | hmem
  · obtain ⟨entry, hentry, hexchange⟩ := mem_filterMap.mp hmem
    exact ⟨entry, hentry, exchange_origin (.inl hexchange)⟩
  · obtain ⟨entry, hentry, hexchange⟩ := mem_filterMap.mp hmem
    exact ⟨entry, hentry, exchange_origin (.inr hexchange)⟩

theorem smooth_of_settled (h : Settled none (past.exchanges id)) :
    ∀ entry ∈ past, ∀ conflict, entry.2 ≠ .work id (.conflict conflict) := by
  rintro ⟨found, action⟩ hentry conflict rfl
  have hnil : past.exchanges id = [] := by
    generalize past.exchanges id = exchanges at h
    cases h
    rfl
  have hnone := filterMap_eq_nil_iff.mp hnil _ hentry
  rw [TransferManager.exchange_conflict, if_pos rfl] at hnone
  split at hnone <;> cases hnone

end

/-- The transfer queue answers every conflict exactly once, in every run. What a transfer that met a
conflict works with is one policy, given by a call of `resolveConflict` for it, by one that is remembered
while it waits, or by the default policy when it asks. -/
theorem conflicts_are_answered_once (config : TransferConfig) {past : QueueHistory} {manager : TransferManager}
    (hrun : QueueRun config past manager) :
    -- past a conflict only with a policy, of which there is exactly one
    (∀ id policy, (manager.transfers id).point.phase = .working (some policy) →
      (past.exchanges id = [.decided policy] ∨ past.exchanges id = [.asks, .given policy]) ∧
      ∃ entry ∈ past,
        (∃ other remember, entry.2 = .resolveConflict other policy remember ∧
          (entry.1.resolveConflict other policy remember).1 = .ok () ∧ (other = id ∨ remember = true)) ∨
        ∃ conflict, entry.2 = .work id (.conflict conflict) ∧ entry.1.state.defaultPolicy = some policy) ∧
    (∀ id, (manager.transfers id).point.phase = .working none →
      ∀ entry ∈ past, ∀ conflict, entry.2 ≠ .work id (.conflict conflict)) ∧
    (∀ id, past.exchanges id = [.asks] ∨ ∃ policy, Settled policy (past.exchanges id)) ∧
    manager.state.defaultPolicy = past.lastDefault ∧
    -- nothing waits once the choice is remembered
    (∀ before found id policy after, past = before ++ (found, .resolveConflict id policy true) :: after →
      (found.resolveConflict id policy true).1 = .ok () →
      (∀ entry ∈ after, entry.2 ≠ .setDefaultPolicy none) → ∀ other, ¬Waiting past manager other) ∧
    -- the answer is accepted exactly for a transfer that waits, and reaches it unless it was cancelled
    (∀ id policy remember,
      ((manager.resolveConflict id policy remember).1 = .ok () ↔ Waiting past manager id) ∧
      ((manager.resolveConflict id policy remember).1 = .ok () →
        ((manager.resolveConflict id policy remember).2.transfers id).reply = .answered policy ∨
          (manager.transfers id).cancelled)) ∧
    -- a finished state stays
    (∀ before found action after id job job', past = before ++ (found, action) :: after →
      found.state.jobs.get id = some job → job.isFinished → manager.state.jobs.get id = some job' →
      job'.info.state = job.info.state) ∧
    -- the order, and the bounds
    (manager.state.order = past.enqueued.filter manager.state.jobs.contains ∧ past.enqueued.Nodup ∧
      ∀ id, manager.state.jobs.contains id → id ∈ past.enqueued) ∧
    manager.unfinished ≤ config.maxQueued ∧ manager.state.events.length ≤ maxPendingEvents := by
  have inv := hrun.inv
  refine ⟨?_, ?_, inv.exchanges_form, inv.policy, ?_, ?_, ?_, ⟨inv.order, ?_, inv.retained⟩, inv.unfinished,
    inv.events⟩
  · intro id policy hphase
    have hsettled := inv.settled hphase
    refine ⟨?_, settled_origin hsettled⟩
    generalize past.exchanges id = exchanges at hsettled
    cases hsettled with
    | decided => exact .inl rfl
    | given => exact .inr rfl
  · intro id hphase
    exact smooth_of_settled (inv.settled hphase)
  · rintro before found id policy after rfl hok hafter other hwaiting
    obtain ⟨_, hbefore, hrest⟩ := hrun.split
    cases hrest with
    | step hstep hrest =>
      obtain rfl := some.inj hstep
      have hremembers := hrest.remembers (hbefore.inv.step hstep) (remembers_resolveConflict hok) hafter
      have hidle := hremembers.2 other
      rw [inv.isWaiting_iff.mpr hwaiting] at hidle
      cases hidle
  · intro id policy remember
    exact ⟨inv.resolveConflict_ok_iff, inv.resolveConflict_reply⟩
  · rintro before found action after id job job' rfl hget hfinished hget'
    obtain ⟨_, hbefore, hrest⟩ := hrun.split
    have hfirst : QueueInv config before found := by
      cases hrest with
      | step => exact hbefore.inv
    have hfrom : QueueSteps found ((found, action) :: after) manager := by
      cases hrest with
      | step hstep hrest => exact .step hstep hrest
    have hstands := hfirst.stands id
    rw [TransferManager.slot, hget] at hstands
    refine hfrom.finished hfirst (hstands.of_finished hfinished) ?_ job' hget'
    intro other hother
    rw [some.inj (hget.symm.trans hother)]
  · rw [inv.numbers]
    exact nodup_range'

/-- The steps of a run, and the manager that they leave. -/
def TransferManager.run (manager : TransferManager) : List QueueAction → Option (QueueHistory × TransferManager)
  | [] => some ([], manager)
  | action :: rest => do
    let manager' ← manager.step action
    let (past, last) ← manager'.run rest
    return ((manager, action) :: past, last)

theorem TransferManager.steps_of_run {manager' : TransferManager} {actions : List QueueAction}
    (h : manager.run actions = some (past, manager')) : QueueSteps manager past manager' := by
  induction actions generalizing manager past with
  | nil =>
    cases h
    exact .done _
  | cons action rest ih =>
    simp only [TransferManager.run, bind_eq_bind, bind_eq_some_iff, Prod.exists] at h
    obtain ⟨next, hstep, rest', last, hrest, h⟩ := h
    cases h
    exact .step hstep (ih hrest)

/-- Two transfers meet a conflict. The answer for the first is remembered before its state is announced,
and decides for the second. -/
def conflictingTransfers : List QueueAction :=
  let request : TransferRequest := ⟨.download, "/logs/app.log".toList, "logs".toList, none⟩
  let conflict : Conflict := ⟨⟨some 7, none⟩, ⟨some 9, none⟩, false, false, "app (1).log".toList⟩
  let start (id : TransferId) : List QueueAction := List.replicate 6 (.advance id)
  [.enqueue request true, .enqueue request true] ++ start 1 ++ start 2 ++
    [.work 1 (.conflict conflict), .resolveConflict 1 .replace true, .work 2 (.conflict conflict)] ++
    List.replicate 8 (.advance 1)

theorem conflicting_transfers_are_answered : ∃ past manager,
      (TransferManager.new (.new 2 256 65536 8 1000000 256)).run conflictingTransfers = some (past, manager) ∧
      (past.exchanges 1 = [.decided .replace] ∨ past.exchanges 1 = [.asks, .given .replace]) ∧
      (past.exchanges 2 = [.decided .replace] ∨ past.exchanges 2 = [.asks, .given .replace]) := by
  have hruns : ((TransferManager.new (.new 2 256 65536 8 1000000 256)).run conflictingTransfers).map
      (fun result => ((result.2.transfers 1).point.phase, (result.2.transfers 2).point.phase)) =
      some (.working (some .replace), .working (some .replace)) := by
    decide +kernel
  obtain ⟨⟨past, manager⟩, hrun, hphases⟩ := map_eq_some_iff.mp hruns
  obtain ⟨hfirst, hsecond⟩ := Prod.mk.inj hphases
  have hanswered := conflicts_are_answered_once _ (TransferManager.steps_of_run hrun)
  exact ⟨past, manager, hrun, (hanswered.1 1 _ hfirst).1, (hanswered.1 2 _ hsecond).1⟩

end FesTerm
