import FesTerm.Sftp.Proofs.QueueProofs

/-!
# The transfer queue: how a transfer stands

Where a transfer is tells what it exchanged with the queue, whether its job is open and what is left of its
channel. Everything that can happen to it keeps this.
-/

namespace FesTerm

/-! ## How a transfer stands -/

/-- The policy that a transfer works with, and the exchanges that it came from. -/
inductive Settled : Option ConflictPolicy → List Exchange → Prop
  | smooth : Settled none []
  | decided (policy : ConflictPolicy) : Settled (some policy) [.decided policy]
  | given (policy : ConflictPolicy) : Settled (some policy) [.asks, .given policy]

/-- What a transfer is about, as far as its conflict goes. -/
inductive Phase where
  | absent
  | starting
  | working (policy : Option ConflictPolicy)
  | awaiting
  /-- About to record its end. -/
  | finishing
  | finished
  deriving DecidableEq

/-- How far a transfer is. -/
def TransferPoint.phase : TransferPoint → Phase
  | .absent => .absent
  | .announcing | .acquiring | .admitting => .starting
  | .setting _ _ (.work policy) | .working policy | .reporting policy _ => .working policy
  | .setting _ _ .await | .awaiting | .receiving => .awaiting
  | .setting .record _ .finish => .finishing
  | .setting _ _ .finish | .ended => .finished

/-- A transfer announces that it is finished exactly when it is. -/
def TransferPoint.Sound : TransferPoint → Prop
  | .setting _ state next => state.isFinished = decide (next = .finish)
  | _ => True

def Held (job : Option Job) (asking : Bool) : Prop :=
  ∃ j, job = some j ∧ j.isFinished = false ∧ j.conflictReply = asking

def Phase.Holds (exchanges : List Exchange) (job : Option Job) (reply : PolicyReply) (cancelled : Bool) :
    Phase → Prop
  | .absent => job = none ∧ reply = .none ∧ exchanges = []
  | .starting => Held job false ∧ reply = .none ∧ exchanges = []
  | .working policy => Held job false ∧ reply = .none ∧ Settled policy exchanges
  | .awaiting =>
    Held job true ∧ reply = .pending ∧ exchanges = [.asks] ∨
      ∃ policy, Held job false ∧ reply = .answered policy ∧ exchanges = [.asks, .given policy]
  | .finishing =>
    reply = .none ∧
      (Held job true ∧ cancelled ∧ exchanges = [.asks] ∨ ∃ policy, Held job false ∧ Settled policy exchanges)
  | .finished =>
    reply = .none ∧ (exchanges = [.asks] ∨ ∃ policy, Settled policy exchanges) ∧
      ∀ j, job = some j → j.isFinished ∧ j.conflictReply = false

/-- How a transfer stands after its exchanges. -/
structure Stands (exchanges : List Exchange) (slot : TransferSlot) : Prop where
  sound : slot.2.point.Sound
  holds : slot.2.point.phase.Holds exchanges slot.1 slot.2.reply slot.2.cancelled

namespace Stands

variable {exchanges : List Exchange} {slot slot' : TransferSlot} {job : Option Job} {transfer transfer' : Transfer}

variable {j : Job} {state : TransferState} {next : Continuation}

theorem of_finished (h : Stands exchanges (some j, transfer)) (hfinished : j.isFinished) :
    transfer.point.phase = .finished := by
  have hnot : ∀ asking, ¬Held (some j) asking := by
    rintro asking ⟨_, hj, hunfinished, -⟩
    cases hj
    rw [hfinished] at hunfinished
    cases hunfinished
  have holds := h.holds
  cases hphase : transfer.point.phase with
  | finished => rfl
  | absent => simp [hphase, Phase.Holds] at holds
  | starting | working policy | awaiting | finishing => simp [hphase, Phase.Holds, hnot] at holds

/-- A transfer whose sender is registered has an open question: the answer is still to come, or the
transfer was cancelled. -/
theorem of_registered (h : Stands exchanges (some j, transfer)) (hreply : j.conflictReply) :
    exchanges = [.asks] ∧ j.isFinished = false ∧
      (transfer.point.phase = .awaiting ∧ transfer.reply = .pending ∨
        transfer.point.phase = .finishing ∧ transfer.reply = .none ∧ transfer.cancelled) := by
  have hnot : ¬Held (some j) false := by
    rintro ⟨_, hj, -, hidle⟩
    cases hj
    rw [hreply] at hidle
    cases hidle
  have hopen : Held (some j) true → j.isFinished = false := by
    rintro ⟨_, hj, hunfinished, -⟩
    cases hj
    exact hunfinished
  have holds := h.holds
  cases hphase : transfer.point.phase with
  | absent => simp [hphase, Phase.Holds] at holds
  | starting | working policy => simp [hphase, Phase.Holds, hnot] at holds
  | awaiting =>
    simp only [hphase, Phase.Holds] at holds
    rcases holds with ⟨hjob, hpending, hexchanges⟩ | ⟨_, hjob, -⟩
    · exact ⟨hexchanges, hopen hjob, .inl ⟨rfl, hpending⟩⟩
    · exact absurd hjob hnot
  | finishing =>
    simp only [hphase, Phase.Holds] at holds
    obtain ⟨hnone, ⟨hjob, hcancelled, hexchanges⟩ | ⟨_, hjob, -⟩⟩ := holds
    · exact ⟨hexchanges, hopen hjob, .inr ⟨rfl, hnone, hcancelled⟩⟩
    · exact absurd hjob hnot
  | finished =>
    simp only [hphase, Phase.Holds] at holds
    rw [(holds.2.2 j rfl).2] at hreply
    cases hreply

theorem of_asks (h : Stands [.asks] (some j, transfer)) (hunfinished : j.isFinished = false) :
    j.conflictReply := by
  have hreply : Held (some j) true → j.conflictReply := by
    rintro ⟨_, hj, -, hreply⟩
    cases hj
    exact hreply
  have hsettled : ∀ policy, ¬Settled policy [.asks] := by
    rintro policy ⟨⟩
  have holds := h.holds
  cases hphase : transfer.point.phase with
  | absent | starting => simp [hphase, Phase.Holds] at holds
  | working policy => simp [hphase, Phase.Holds, hsettled] at holds
  | awaiting =>
    simp only [hphase, Phase.Holds] at holds
    rcases holds with ⟨hjob, -⟩ | ⟨_, -, -, hgiven⟩
    · exact hreply hjob
    · cases hgiven
  | finishing =>
    simp only [hphase, Phase.Holds] at holds
    obtain ⟨-, ⟨hjob, -⟩ | ⟨_, -, hgiven⟩⟩ := holds
    · exact hreply hjob
    · exact absurd hgiven (hsettled _)
  | finished =>
    simp only [hphase, Phase.Holds] at holds
    rw [(holds.2.2 j rfl).1] at hunfinished
    cases hunfinished

theorem forgets (h : Stands exchanges slot) (hforgets : Forgets slot slot') : Stands exchanges slot' := by
  cases hforgets with
  | keeps => exact h
  | forgets transfer hfinished =>
    have hphase := h.of_finished hfinished
    have holds := h.holds
    simp only [hphase, Phase.Holds] at holds
    obtain ⟨hreply, hexchanges, hjob⟩ := holds
    rw [(hjob _ rfl).2, Transfer.without_false]
    refine ⟨h.sound, ?_⟩
    simp only [hphase, Phase.Holds]
    exact ⟨hreply, hexchanges, fun _ h => nomatch h⟩

variable {point : TransferPoint}

theorem within (h : Stands exchanges (job, transfer)) (hsound : point.Sound)
    (hphase : point.phase = transfer.point.phase) : Stands exchanges (job, { transfer with point := point }) := by
  refine ⟨hsound, ?_⟩
  simp only [hphase]
  exact h.holds

theorem turns (h : Stands exchanges (job, transfer)) (hturns : Turns transfer transfer') :
    Stands exchanges (job, transfer') := by
  have holds := h.holds
  cases hturns with
  | announced hpoint | acquires hpoint | refused hpoint | reported hpoint | listens hpoint
  | sleeps hpoint => exact h.within trivial (by rw [hpoint]; rfl)
  | starts hpoint =>
    simp only [hpoint, TransferPoint.phase, Phase.Holds] at holds
    obtain ⟨hjob, hreply, rfl⟩ := holds
    exact ⟨rfl, hjob, hreply, .smooth⟩
  | abandons hpoint =>
    simp only [hpoint, TransferPoint.phase, Phase.Holds] at holds
    obtain ⟨hjob, hreply, rfl⟩ := holds
    exact ⟨rfl, hreply, .inr ⟨none, hjob, .smooth⟩⟩
  | @emitted state next hpoint =>
    have hsound : (TransferPoint.setting .prune state next).Sound := by
      have := h.sound
      simp only [hpoint] at this
      exact this
    apply h.within hsound
    rw [hpoint]
    cases next <;> rfl
  | receives hpoint hreply =>
    simp only [hpoint, TransferPoint.phase, Phase.Holds] at holds
    rcases holds with ⟨-, hpending, -⟩ | ⟨policy, hjob, hanswered, rfl⟩
    · rw [hreply] at hpending
      cases hpending
    · rw [hreply] at hanswered
      obtain rfl := PolicyReply.answered.inj hanswered
      exact ⟨rfl, hjob, rfl, .given _⟩
  | cancels hpoint hcancelled =>
    simp only [hpoint, TransferPoint.phase, Phase.Holds] at holds
    rcases holds with ⟨hjob, -, rfl⟩ | ⟨policy, hjob, -, rfl⟩
    · exact ⟨rfl, rfl, .inl ⟨hjob, hcancelled, rfl⟩⟩
    · exact ⟨rfl, rfl, .inr ⟨_, hjob, .given policy⟩⟩
  | hangsUp hpoint hreply =>
    simp only [hpoint, TransferPoint.phase, Phase.Holds] at holds
    rcases holds with ⟨-, hpending, -⟩ | ⟨policy, -, hanswered, -⟩
    · rw [hreply] at hpending
      cases hpending
    · rw [hreply] at hanswered
      cases hanswered
  | finishes hpoint hstate =>
    simp only [hpoint, TransferPoint.phase, Phase.Holds] at holds
    obtain ⟨hjob, -, hsettled⟩ := holds
    refine ⟨?_, rfl, .inr ⟨_, hjob, hsettled⟩⟩
    simp [TransferPoint.Sound, hstate]

theorem given {policy : ConflictPolicy} (h : Stands exchanges (some j, transfer)) (hreply : j.conflictReply) :
    Stands (exchanges ++ [.given policy])
      (some j.take, { transfer with reply := (transfer.reply.send policy).dropSender }) := by
  obtain ⟨rfl, hunfinished, hcase⟩ := h.of_registered hreply
  have htaken : Held (some j.take) false := ⟨_, rfl, hunfinished, rfl⟩
  refine ⟨h.sound, ?_⟩
  rcases hcase with ⟨hphase, hpending⟩ | ⟨hphase, hnone, -⟩
  · simp only [hphase, hpending, Phase.Holds]
    exact .inr ⟨policy, htaken, rfl, rfl⟩
  · simp only [hphase, hnone, Phase.Holds]
    exact ⟨rfl, .inr ⟨_, htaken, .given policy⟩⟩

variable {asking : Bool}

theorem held_setState (h : Held (some j) asking)
    (hstate : state.isFinished = false) : Held (some (j.setState state)) asking := by
  obtain ⟨_, hj, -, hreply⟩ := h
  cases hj
  refine ⟨_, rfl, hstate, ?_⟩
  simp [Job.setState, hstate, hreply]

theorem records (h : Stands exchanges (some j, transfer))
    (hpoint : transfer.point = .setting .record state next) : Stands exchanges (some (j.setState state),
      { transfer.without (j.conflictReply && state.isFinished) with point := .setting .emit state next }) := by
  have holds := h.holds
  have hsound := h.sound
  simp only [hpoint, TransferPoint.Sound] at hsound
  cases next with
  | work policy =>
    have hstate : state.isFinished = false := hsound
    simp only [hpoint, TransferPoint.phase, Phase.Holds] at holds
    obtain ⟨hjob, hreply, hsettled⟩ := holds
    rw [hstate, Bool.and_false, Transfer.without_false]
    exact ⟨hstate, held_setState hjob hstate, hreply, hsettled⟩
  | await =>
    have hstate : state.isFinished = false := hsound
    simp only [hpoint, TransferPoint.phase, Phase.Holds] at holds
    rw [hstate, Bool.and_false, Transfer.without_false]
    refine ⟨hstate, ?_⟩
    simp only [TransferPoint.phase, Phase.Holds]
    rcases holds with ⟨hjob, hreply, hexchanges⟩ | ⟨policy, hjob, hreply, hexchanges⟩
    · exact .inl ⟨held_setState hjob hstate, hreply, hexchanges⟩
    · exact .inr ⟨policy, held_setState hjob hstate, hreply, hexchanges⟩
  | finish =>
    have hstate : state.isFinished = true := hsound
    simp only [hpoint, TransferPoint.phase, Phase.Holds] at holds
    obtain ⟨hreply, hexchanges⟩ := holds
    have hwithout : transfer.without (j.conflictReply && state.isFinished) = transfer := by
      unfold Transfer.without
      split
      · rw [hreply]
        cases transfer
        cases hreply
        rfl
      · rfl
    rw [hwithout]
    refine ⟨hstate, hreply, ?_, ?_⟩
    · rcases hexchanges with ⟨-, -, h⟩ | ⟨policy, -, h⟩
      · exact .inl h
      · exact .inr ⟨policy, h⟩
    · intro _ hj
      cases hj
      exact ⟨hstate, by simp [Job.setState, hstate]⟩

theorem misses (h : Stands exchanges (none, transfer))
    (hpoint : transfer.point = .setting .record state next) : False := by
  have hnot : ∀ asking, ¬Held none asking := by
    rintro asking ⟨_, hj, -⟩
    cases hj
  have holds := h.holds
  cases next <;> simp [hpoint, TransferPoint.phase, Phase.Holds, hnot] at holds

theorem prunes (h : Stands exchanges slot)
    (hpoint : slot.2.point = .setting .prune state next) (hforgets : Forgets slot slot') :
    Stands exchanges (slot'.1, { slot'.2 with point := next.point }) := by
  have hpoint' : slot'.2.point = .setting .prune state next := by
    cases hforgets with
    | keeps => exact hpoint
    | forgets transfer hfinished =>
      rw [← hpoint]
      unfold Transfer.without
      split <;> rfl
  apply (h.forgets hforgets).within
  · cases next <;> trivial
  · rw [hpoint']
    cases next <;> rfl

variable {info : TransferInfo → TransferInfo}

theorem held_informed (hinfo : ∀ i, (info i).state = i.state)
    (h : Held job asking) : Held (job.map fun j => { j with info := info j.info }) asking := by
  obtain ⟨j, rfl, hunfinished, hreply⟩ := h
  refine ⟨_, rfl, ?_, hreply⟩
  rw [← hunfinished]
  simp only [Job.isFinished, hinfo]

theorem informs {policy : Option ConflictPolicy}
    (h : Stands exchanges (job, transfer)) (hpoint : transfer.point = .working policy)
    (hinfo : ∀ i, (info i).state = i.state)
    (hpoint' : point = .working policy ∨ ∃ progress, point = .reporting policy progress) :
    Stands exchanges (job.map fun j => { j with info := info j.info }, { transfer with point := point }) := by
  have holds := h.holds
  simp only [hpoint, TransferPoint.phase, Phase.Holds] at holds
  obtain ⟨hjob, hreply, hsettled⟩ := holds
  rcases hpoint' with rfl | ⟨progress, rfl⟩
  · exact ⟨trivial, held_informed hinfo hjob, hreply, hsettled⟩
  · exact ⟨trivial, held_informed hinfo hjob, hreply, hsettled⟩

/-- Whatever happens to a transfer, it stands with its exchanges as before. -/
theorem happens {default : Option ConflictPolicy} {fresh : Prop} {exchange : Option Exchange}
    (h : Stands exchanges slot) (hhappens : Happens default fresh exchange slot slot') :
    Stands (exchanges ++ exchange.toList) slot' := by
  cases hhappens with
  | stays => simpa using h
  | cancelled job transfer =>
    have holds := h.holds
    simp only [Option.toList_none, List.append_nil]
    refine ⟨h.sound, ?_⟩
    cases hphase : transfer.point.phase with
    | finishing =>
      simp only [hphase, Phase.Holds] at holds ⊢
      refine ⟨holds.1, ?_⟩
      rcases holds.2 with ⟨hjob, -, hexchanges⟩ | hsettled
      · exact .inl ⟨hjob, trivial, hexchanges⟩
      · exact .inr hsettled
    | _ =>
      simp only [hphase] at holds
      exact holds
  | inserted _ hpoint hfinished hreply =>
    have holds := h.holds
    simp only [hpoint, TransferPoint.phase, Phase.Holds] at holds
    obtain ⟨-, -, rfl⟩ := holds
    exact ⟨trivial, ⟨_, rfl, hfinished, hreply⟩, rfl, rfl⟩
  | given hreply => exact h.given hreply
  | forgets hforgets => simpa using h.forgets hforgets
  | turns job hturns => simpa using h.turns hturns
  | records hpoint => simpa using h.records hpoint
  | misses hpoint => exact (h.misses hpoint).elim
  | prunes hpoint hforgets => simpa using h.prunes hpoint hforgets
  | informs hpoint hinfo hpoint' => simpa using h.informs hpoint hinfo hpoint'
  | decided hpoint hdefault =>
    have holds := h.holds
    simp only [hpoint, TransferPoint.phase, Phase.Holds] at holds
    obtain ⟨hjob, hreply, hsettled⟩ := holds
    cases hsettled
    exact ⟨trivial, hjob, hreply, .decided _⟩
  | asks hpoint hdefault =>
    have holds := h.holds
    simp only [hpoint, TransferPoint.phase, Phase.Holds] at holds
    obtain ⟨⟨j, hj, hunfinished, -⟩, hreply, hsettled⟩ := holds
    cases hj
    cases hsettled
    exact ⟨rfl, .inl ⟨⟨_, rfl, hunfinished, rfl⟩, rfl, rfl⟩⟩
  | asksMissing hpoint hdefault =>
    have holds := h.holds
    simp only [hpoint, TransferPoint.phase, Phase.Holds] at holds
    obtain ⟨⟨_, hj, -⟩, -⟩ := holds
    cases hj

end Stands

end FesTerm
