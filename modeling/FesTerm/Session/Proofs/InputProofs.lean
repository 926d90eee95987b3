import FesTerm.Lib.Runs
import FesTerm.Session.AutomationInput

/-!
# Proofs: reserved automation input is delivered exactly when it was committed

For each point of the reserving half a few values of the slot are possible. The backend half can only
cancel a slot that is open or take one that is ready, so it never leaves these values, and nothing but
the last exchange of `commit_with` makes a slot ready.
-/

namespace FesTerm

open SlotState List Option

variable {T E : Type}

variable {state : SlotState} {call : CancelOpen}

namespace CancelOpen

/-- The call is about to exchange only what it may cancel. -/
def Sound : CancelOpen → Prop
  | .load => True
  | .exchange seen => seen.isOpen

/-- What one atomic step of `cancel_open` can do. -/
structure Stepped (state state' : SlotState) (call' : Option CancelOpen) : Prop where
  moved : state' = state ∨ state.isOpen ∧ state' = .cancelled
  sound : ∀ call ∈ call', call.Sound
  closed : call' = none → state'.isOpen = false

theorem seeing_stepped (state : SlotState) : Stepped state state (seeing state) := by
  unfold seeing
  by_cases hopen : state.isOpen
  · rw [if_pos hopen]
    refine ⟨.inl rfl, ?_, nofun⟩
    intro call hcall
    rw [mem_some_iff] at hcall
    rw [← hcall]
    exact hopen
  · rw [if_neg hopen]
    exact ⟨.inl rfl, fun _ h => (not_mem_none _ h).elim, fun _ => Bool.not_eq_true _ ▸ hopen⟩

theorem next_stepped (state : SlotState) (spurious : Bool) (h : call.Sound) :
    Stepped state (call.next state spurious).1 (call.next state spurious).2 := by
  cases call with
  | load => exact seeing_stepped state
  | exchange seen =>
    rw [next]
    by_cases hseen : state = seen ∧ spurious = false
    · rw [if_pos hseen]
      refine ⟨.inr ⟨hseen.1 ▸ h, rfl⟩, fun _ h => (not_mem_none _ h).elim, fun _ => rfl⟩
    · rw [if_neg hseen]
      exact seeing_stepped state

theorem next_of_closed (hcall : call.Sound)
    (hstate : state.isOpen = false) (spurious : Bool) : call.next state spurious = (state, none) := by
  have hseeing : seeing state = none := by rw [seeing, hstate, if_neg Bool.false_ne_true]
  cases call with
  | load => rw [next, hseeing]
  | exchange seen =>
    have hseen : state ≠ seen := by
      rintro rfl
      rw [Sound, hstate] at hcall
      cases hcall
    rw [next, if_neg (fun h => hseen h.1), hseeing]

end CancelOpen

namespace ReserverPoint

def states : ReserverPoint T E → List SlotState
  | .holding | .entry | .commitExchange => [.pending, .cancelled]
  | .beforeCallback | .callback | .afterCallback _ | .claimExchange _ => [.committing, .cancelled]
  | .afterClaim _ | .readyExchange _ => [.claimed, .cancelled]
  | .cancel _ _ | .dropping _ none => [.pending, .committing, .claimed, .cancelled]
  | .dropping _ (some (.error _)) | .gone none | .gone (some (.error _)) => [.cancelled]
  | .dropping _ (some (.ok _)) | .gone (some (.ok _)) => [.ready, .taken]

/-- The call of `cancel_open` under way. -/
def cancelling : ReserverPoint T E → Option CancelOpen
  | .cancel call _ | .dropping call _ => some call
  | _ => none

/-- The callback has succeeded, and the clock was found to be before the deadline since. -/
def timely : ReserverPoint T E → Bool
  | .claimExchange _ | .afterClaim _ | .readyExchange _ | .dropping _ (some (.ok _))
  | .gone (some (.ok _)) => true
  | _ => false

theorem states_moved {point : ReserverPoint T E} (h : state ∈ point.states) :
    (state.isOpen → .cancelled ∈ point.states) ∧ (state = .ready → .taken ∈ point.states) := by
  unfold states at h ⊢
  split at h <;> cases state <;> simp_all [isOpen]

theorem states_cancelled (h : state ∈ [SlotState.pending, .committing, .claimed, .cancelled])
    (hclosed : state.isOpen = false) : state = .cancelled := by
  cases state <;> simp_all [isOpen]

end ReserverPoint

def BackendPoint.cancelling : BackendPoint → Option CancelOpen
  | .cancel _ cancelling | .dropping cancelling => some cancelling
  | _ => none

namespace Reservation

structure Sound (bytes : List UInt8) (deadline : Nat) (reservation : Reservation T E) : Prop where
  content : reservation.slot.bytes = bytes
  expiry : reservation.slot.deadline = deadline
  possible : reservation.slot.state ∈ reservation.reserver.states
  reserver : ∀ call ∈ reservation.reserver.cancelling, call.Sound
  backend : ∀ call ∈ reservation.backend.cancelling, call.Sound
  /-- Only the backend itself takes the bytes. -/
  taking : reservation.backend = .takeExchange → reservation.slot.state = .ready
  delivered : reservation.delivered = if reservation.slot.state = .taken then [bytes] else []
  authorised : ∀ value, reservation.reserver = .afterCallback value →
    ∃ time, reservation.authorised = some time ∧ time ≤ reservation.now
  timely : reservation.reserver.timely →
    ∃ time, reservation.authorised = some time ∧ time < deadline

variable {bytes : List UInt8} {deadline : Nat} {reservation reservation' : Reservation T E}

theorem start_sound (now : Nat) :
    Sound bytes deadline (slotWithDeadline bytes deadline now : Reservation T E) where
  content := rfl
  expiry := rfl
  possible := mem_cons_self
  reserver := fun _ h => (not_mem_none _ h).elim
  backend := fun _ h => (not_mem_none _ h).elim
  taking := nofun
  delivered := rfl
  authorised := nofun
  timely := nofun

variable {point : ReserverPoint T E} {error : CommitAutomationInputError E} {spurious : Bool}
  {event : ReservationEvent T E} {result : CommitResult T E} {value : T}

theorem Sound.reserved {authorised : Option Nat} (h : Sound bytes deadline reservation)
    (hstate : state = reservation.slot.state ∨ reservation.slot.state.isOpen ∧ state ≠ .taken)
    (hpossible : state ∈ point.states) (hcancelling : ∀ call ∈ point.cancelling, call.Sound)
    (hauthorised : ∀ value, point = .afterCallback value →
      ∃ time, authorised = some time ∧ time ≤ reservation.now)
    (htimely : point.timely → ∃ time, authorised = some time ∧ time < deadline) : Sound bytes deadline
      { reservation.withState state with reserver := point, authorised := authorised } where
  content := h.content
  expiry := h.expiry
  possible := hpossible
  reserver := hcancelling
  backend := h.backend
  taking := by
    intro hpoint
    have hready := h.taking hpoint
    rcases hstate with hsame | ⟨hopen, _⟩
    · exact hsame.trans hready
    · rw [hready] at hopen
      cases hopen
  delivered := by
    have hdelivered := h.delivered
    rcases hstate with hsame | ⟨hopen, htaken⟩
    · rw [hsame]
      exact hdelivered
    · have hstill : reservation.slot.state ≠ .taken := fun heq => by rw [heq] at hopen; cases hopen
      rw [if_neg hstill] at hdelivered
      exact hdelivered.trans (if_neg htaken).symm
  authorised := hauthorised
  timely := htimely

theorem Sound.passed (h : Sound bytes deadline reservation)
    (hpossible : ∀ state, state ∈ reservation.reserver.states → state ∈ point.states)
    (hcancelling : ∀ call ∈ point.cancelling, call.Sound) (hcallback : ∀ value, point ≠ .afterCallback value)
    (htimely : point.timely → ∃ time, reservation.authorised = some time ∧ time < deadline) :
    Sound bytes deadline { reservation with reserver := point } :=
  h.reserved (.inl rfl) (hpossible _ h.possible) hcancelling (fun value hpoint => (hcallback value hpoint).elim)
    htimely

theorem load_sound (hpoint : point.cancelling = some .load) : ∀ call ∈ point.cancelling, call.Sound := by
  intro call hcall
  rw [hpoint, mem_some_iff] at hcall
  rw [← hcall]
  trivial

theorem Sound.cancelled (h : Sound bytes deadline reservation)
    (hopen : ∀ state ∈ reservation.reserver.states, state ≠ .ready ∧ state ≠ .taken) :
    Sound bytes deadline { reservation with reserver := (.cancel .load error : ReserverPoint T E) } := by
  refine h.passed ?_ (load_sound rfl) nofun nofun
  intro state hstate
  have hclosed := hopen state hstate
  cases state <;> simp_all [ReserverPoint.states]

variable {current : SlotState}

theorem Sound.exchanged {new : SlotState} {done : ReserverPoint T E}
    (h : Sound bytes deadline reservation)
    (hstates : reservation.reserver.states = [current, .cancelled]) (hcurrent : current.isOpen)
    (hnew : new ∈ done.states) (htaken : new ≠ .taken) (hcancelling : ∀ call ∈ done.cancelling, call.Sound)
    (hcallback : ∀ value, done ≠ .afterCallback value)
    (htimely : done.timely → ∃ time, reservation.authorised = some time ∧ time < deadline) :
    Sound bytes deadline
      (reservation.reserverExchange current new (.dropping .load (some (.error error))) done) := by
  unfold reserverExchange compareExchange
  by_cases hstate : reservation.slot.state = current
  · rw [if_pos hstate]
    exact h.reserved (.inr ⟨hstate ▸ hcurrent, htaken⟩) hnew hcancelling
      (fun value hpoint => (hcallback value hpoint).elim) htimely
  · rw [if_neg hstate]
    have hpossible := h.possible
    rw [hstates] at hpossible
    have hcancelled := (mem_cons.mp hpossible).resolve_left hstate
    exact h.reserved (.inl rfl) hcancelled (load_sound rfl) nofun nofun

theorem Sound.checked (h : Sound bytes deadline reservation)
    (hstates : reservation.reserver.states = [current, .cancelled]) (hcurrent : current.isOpen)
    (hpoint : point.states = [current, .cancelled]) (hcancelling : point.cancelling = none)
    (hcallback : ∀ value, point ≠ .afterCallback value) (htimely : reservation.expired = false → point.timely →
      ∃ time, reservation.authorised = some time ∧ time < deadline) : Sound bytes deadline { reservation with
      reserver := if reservation.expired then .cancel .load error else point } := by
  by_cases hexpired : reservation.expired
  · rw [if_pos hexpired]
    refine h.cancelled fun state hstate => ?_
    rw [hstates] at hstate
    rcases mem_pair.mp hstate with rfl | rfl
    · constructor
      · rintro rfl
        cases hcurrent
      · rintro rfl
        cases hcurrent
    · exact ⟨nofun, nofun⟩
  · rw [if_neg hexpired]
    refine h.passed (fun state hstate => ?_) (fun call hcall => ?_) hcallback
      (htimely (Bool.not_eq_true _ ▸ hexpired))
    · rw [hpoint]
      rw [hstates] at hstate
      exact hstate
    · rw [hcancelling] at hcall
      exact (not_mem_none _ hcall).elim

/-- A step of `cancel_open` in the reserving half, which then goes on at `point` or to `ended`. -/
theorem Sound.cancelling {point : CancelOpen → ReserverPoint T E}
    {ended : ReserverPoint T E} (h : Sound bytes deadline reservation)
    (hreserver : reservation.reserver = point call) (hpoint : ∀ call, (point call).cancelling = some call)
    (hstates : ∀ call, (point call).states = reservation.reserver.states)
    (hended : ∀ state ∈ reservation.reserver.states, state.isOpen = false → state ∈ ended.states)
    (hcancelling : ∀ call ∈ ended.cancelling, call.Sound)
    (htimely : ∀ point', point' = ended ∨ (∃ call, point' = point call) →
      (∀ value, point' ≠ .afterCallback value) ∧ (point'.timely → reservation.reserver.timely)) :
    Sound bytes deadline
      (let (state, call') := call.next reservation.slot.state spurious
       { reservation.withState state with reserver := call'.elim ended point }) := by
  have hcall : call.Sound := h.reserver call (by rw [hreserver, hpoint]; rfl)
  obtain ⟨hmoved, hsound, hclosed⟩ := CancelOpen.next_stepped reservation.slot.state spurious hcall
  generalize call.next reservation.slot.state spurious = stepped at hmoved hsound hclosed ⊢
  obtain ⟨state, call'⟩ := stepped
  dsimp only at hmoved hsound hclosed
  have hpossible : state ∈ reservation.reserver.states := by
    rcases hmoved with hsame | ⟨hopen, hcancelled⟩
    · rw [hsame]
      exact h.possible
    · rw [hcancelled]
      exact (ReserverPoint.states_moved h.possible).1 hopen
  have hstate : state = reservation.slot.state ∨ reservation.slot.state.isOpen ∧ state ≠ .taken := by
    rcases hmoved with hsame | ⟨hopen, hcancelled⟩
    · exact .inl hsame
    · exact .inr ⟨hopen, fun h => by rw [hcancelled] at h; cases h⟩
  cases call' with
  | none =>
    obtain ⟨hcallback, hended'⟩ := htimely ended (.inl rfl)
    exact h.reserved hstate (hended state hpossible (hclosed rfl)) hcancelling
      (fun value hvalue => (hcallback value hvalue).elim) (fun htime => h.timely (hended' htime))
  | some call' =>
    obtain ⟨hcallback, hpoint'⟩ := htimely (point call') (.inr ⟨call', rfl⟩)
    refine h.reserved hstate ((hstates call').symm ▸ hpossible) (fun call hcall => ?_)
      (fun value hvalue => (hcallback value hvalue).elim) (fun htime => h.timely (hpoint' htime))
    rw [elim_some, hpoint] at hcall
    exact hsound call hcall

theorem Sound.reserverStep (h : Sound bytes deadline reservation)
    (hstep : reservation.reserverStep spurious = some reservation') : Sound bytes deadline reservation' := by
  have hnow : reservation.expired = false → reservation.now < deadline := by
    intro hexpired
    have hlater := of_decide_eq_false hexpired
    rw [h.expiry] at hlater
    exact Nat.lt_of_not_le hlater
  unfold Reservation.reserverStep at hstep
  cases hpoint : reservation.reserver with
  | holding | callback | gone _ =>
    rw [hpoint] at hstep
    cases hstep
  | entry | beforeCallback =>
    rw [hpoint] at hstep
    cases hstep
    exact h.checked (by rw [hpoint]; rfl) rfl rfl rfl nofun nofun
  | commitExchange =>
    rw [hpoint] at hstep
    cases hstep
    exact h.exchanged (by rw [hpoint]; rfl) rfl mem_cons_self nofun
      (fun _ h => (not_mem_none _ h).elim) nofun nofun
  | afterCallback value =>
    rw [hpoint] at hstep
    cases hstep
    refine h.checked (by rw [hpoint]; rfl) rfl rfl rfl nofun fun hexpired _ => ?_
    obtain ⟨time, hauthorised, htime⟩ := h.authorised value hpoint
    exact ⟨time, hauthorised, htime.trans_lt (hnow hexpired)⟩
  | claimExchange value =>
    rw [hpoint] at hstep
    cases hstep
    exact h.exchanged (by rw [hpoint]; rfl) rfl mem_cons_self nofun
      (fun _ h => (not_mem_none _ h).elim) nofun
      (fun _ => h.timely (by rw [hpoint]; rfl))
  | afterClaim value =>
    rw [hpoint] at hstep
    cases hstep
    exact h.checked (by rw [hpoint]; rfl) rfl rfl rfl nofun
      (fun _ _ => h.timely (by rw [hpoint]; rfl))
  | readyExchange value =>
    rw [hpoint] at hstep
    cases hstep
    exact h.exchanged (by rw [hpoint]; rfl) rfl mem_cons_self nofun (load_sound rfl)
      nofun (fun _ => h.timely (by rw [hpoint]; rfl))
  | cancel call error =>
    rw [hpoint] at hstep
    cases hstep
    refine h.cancelling hpoint (fun _ => rfl) (fun _ => by rw [hpoint]; rfl) ?_ (load_sound rfl) ?_
    · intro state hstate hclosed
      rw [hpoint] at hstate
      exact mem_singleton.mpr (ReserverPoint.states_cancelled hstate hclosed)
    · rintro _ (rfl | ⟨call, rfl⟩)
      · exact ⟨nofun, nofun⟩
      · exact ⟨nofun, nofun⟩
  | dropping call result =>
    rw [hpoint] at hstep
    cases hstep
    refine h.cancelling hpoint (fun _ => rfl) (fun _ => by rw [hpoint]; rcases result with _ | _ | _ <;> rfl) ?_
      (fun _ h => (not_mem_none _ h).elim) ?_
    · intro state hstate hclosed
      rw [hpoint] at hstate
      rcases result with _ | _ | _
      · exact mem_singleton.mpr (ReserverPoint.states_cancelled hstate hclosed)
      · exact hstate
      · exact hstate
    · rw [hpoint]
      rintro _ (rfl | ⟨call, rfl⟩)
      · exact ⟨nofun, fun h => by rcases result with _ | _ | _ <;> exact h⟩
      · exact ⟨nofun, fun h => by rcases result with _ | _ | _ <;> exact h⟩

theorem Sound.callbackStep (h : Sound bytes deadline reservation) (hpoint : reservation.reserver = .callback)
    (outcome : Option (Except E T)) : Sound bytes deadline (reservation.callbackStep outcome) := by
  have hopen : ∀ state ∈ reservation.reserver.states, state ≠ .ready ∧ state ≠ .taken := by
    intro state hstate
    rw [hpoint] at hstate
    rcases mem_pair.mp hstate with rfl | rfl
    · exact ⟨nofun, nofun⟩
    · exact ⟨nofun, nofun⟩
  rcases outcome with _ | error | value
  · refine h.passed ?_ (load_sound rfl) nofun nofun
    intro state hstate
    have hclosed := hopen state hstate
    cases state <;> simp_all [ReserverPoint.states]
  · exact h.cancelled hopen
  · refine h.reserved (.inl rfl) ?_ (fun _ h => (not_mem_none _ h).elim) ?_ nofun
    · have hpossible := h.possible
      rw [hpoint] at hpossible
      exact hpossible
    · intro _ _
      exact ⟨reservation.now, rfl, le_rfl⟩

theorem Sound.served {point : BackendPoint} {statuses : List AutomationInputStatus}
    {probes : List Bool} (h : Sound bytes deadline reservation)
    (hstate : state = reservation.slot.state ∨ (reservation.slot.state.isOpen ∧ state = .cancelled) ∨
      (reservation.slot.state = .ready ∧ state = .taken))
    (hcancelling : ∀ call ∈ point.cancelling, call.Sound) (htaking : point = .takeExchange → state = .ready)
    (hdelivered : ({ reservation with statuses := statuses } : Reservation T E).delivered =
      if state = .taken then [bytes] else []) :
    Sound bytes deadline { reservation.withState state with
      backend := point, statuses := statuses, probes := probes } where
  content := h.content
  expiry := h.expiry
  possible := by
    have hmoved := ReserverPoint.states_moved h.possible
    rcases hstate with rfl | ⟨hopen, rfl⟩ | ⟨hready, rfl⟩
    · exact h.possible
    · exact hmoved.1 hopen
    · exact hmoved.2 hready
  reserver := h.reserver
  backend := hcancelling
  taking := htaking
  delivered := hdelivered
  authorised := h.authorised
  timely := h.timely

/-- A step of `cancel_open` in the backend half, which then goes on at `point` or to `ended`. -/
theorem Sound.serving {cancelling : CancelOpen} {point : CancelOpen → BackendPoint} {ended : BackendPoint}
    (h : Sound bytes deadline reservation) (hbackend : reservation.backend = point cancelling)
    (hpoint : ∀ call, (point call).cancelling = some call) (hended : ended.cancelling = none)
    (htaking : ended ≠ .takeExchange) : Sound bytes deadline
      (let (state, cancelling') := cancelling.next reservation.slot.state spurious
       { reservation.withState state with backend := cancelling'.elim ended point }) := by
  have hcall : cancelling.Sound := h.backend cancelling (by rw [hbackend, hpoint]; rfl)
  obtain ⟨hmoved, hsound, _⟩ := CancelOpen.next_stepped reservation.slot.state spurious hcall
  generalize cancelling.next reservation.slot.state spurious = stepped at hmoved hsound ⊢
  obtain ⟨state, cancelling'⟩ := stepped
  dsimp only at hmoved hsound
  have hdelivered : reservation.delivered = if state = .taken then [bytes] else [] := by
    rcases hmoved with rfl | ⟨hopen, rfl⟩
    · exact h.delivered
    · have hstill : reservation.slot.state ≠ .taken := fun heq => by rw [heq] at hopen; cases hopen
      exact h.delivered.trans (if_neg hstill)
  have hstate : state = reservation.slot.state ∨ (reservation.slot.state.isOpen ∧ state = .cancelled) ∨
      (reservation.slot.state = .ready ∧ state = .taken) := hmoved.imp_right .inl
  cases cancelling' with
  | none =>
    refine h.served hstate (fun call hcall => ?_) (fun h => (htaking h).elim) hdelivered
    rw [elim_none, hended] at hcall
    exact (not_mem_none _ hcall).elim
  | some cancelling' =>
    refine h.served hstate (fun call hcall => ?_) (fun htake => ?_) hdelivered
    · rw [elim_some, hpoint] at hcall
      exact hsound call hcall
    · have hnone := hpoint cancelling'
      rw [elim_some] at htake
      rw [htake] at hnone
      cases hnone

theorem delivered_append (reservation : Reservation T E) (status : AutomationInputStatus) :
    ({ reservation with statuses := reservation.statuses ++ [status] } : Reservation T E).delivered =
      reservation.delivered ++ ({ reservation with statuses := [status] } : Reservation T E).delivered :=
  filterMap_append

theorem Sound.backendLoad (h : Sound bytes deadline reservation) (call : BackendCall) :
    Sound bytes deadline (reservation.backendLoad call) := by
  have hnone : ∀ status, ({ reservation with statuses := [status] } : Reservation T E).delivered = [] →
      ({ reservation with statuses := reservation.statuses ++ [status] } : Reservation T E).delivered =
        if reservation.slot.state = .taken then [bytes] else [] := by
    intro status hstatus
    rw [delivered_append, hstatus, append_nil]
    exact h.delivered
  cases call with
  | isCancelled =>
    exact h.served (.inl rfl) (fun _ h => (not_mem_none _ h).elim) nofun h.delivered
  | poll =>
    unfold Reservation.backendLoad
    cases hstate : reservation.slot.state with
    | pending | committing | claimed | cancelled | taken =>
      exact h.served (.inl rfl) (fun _ h => (not_mem_none _ h).elim) nofun (hnone _ rfl)
    | ready =>
      exact h.served (.inl rfl) (fun _ h => (not_mem_none _ h).elim) (fun _ => hstate) h.delivered

theorem Sound.backendStep (h : Sound bytes deadline reservation)
    (hstep : reservation.backendStep spurious = some reservation') : Sound bytes deadline reservation' := by
  unfold Reservation.backendStep at hstep
  cases hpoint : reservation.backend with
  | idle | gone =>
    rw [hpoint] at hstep
    cases hstep
  | clock call =>
    rw [hpoint] at hstep
    cases hstep
    refine h.served (.inl rfl) (fun call' hcall => ?_) (fun htake => ?_) h.delivered
    · split at hcall
      · cases hcall
        trivial
      · exact (not_mem_none _ hcall).elim
    · split at htake
      · cases htake
      · cases htake
  | cancel call cancelling | dropping cancelling =>
    rw [hpoint] at hstep
    cases hstep
    exact h.serving hpoint (fun _ => rfl) rfl nofun
  | load call =>
    rw [hpoint] at hstep
    cases hstep
    exact h.backendLoad call
  | takeExchange =>
    have hready := h.taking hpoint
    rw [hpoint, hready, compareExchange, if_pos rfl] at hstep
    cases hstep
    refine h.served (.inr (.inr ⟨hready, rfl⟩)) (fun _ h => (not_mem_none _ h).elim)
      nofun ?_
    have hdelivered := h.delivered
    rw [hready, if_neg nofun] at hdelivered
    rw [delivered_append, hdelivered, if_pos rfl, ← h.content]
    rfl

theorem Sound.step (h : Sound bytes deadline reservation)
    (hstep : reservation.step event = some reservation') : Sound bytes deadline reservation' := by
  cases event with
  | tick elapsed =>
    cases hstep
    refine { h with authorised := fun value hvalue => ?_ }
    obtain ⟨time, hauthorised, htime⟩ := h.authorised value hvalue
    exact ⟨time, hauthorised, htime.trans (Nat.le_add_right _ _)⟩
  | commit =>
    unfold Reservation.step at hstep
    cases hpoint : reservation.reserver with
    | holding =>
      rw [hpoint] at hstep
      cases hstep
      refine h.passed (fun state hstate => ?_) (fun _ h => (not_mem_none _ h).elim)
        nofun nofun
      rw [hpoint] at hstate
      exact hstate
    | _ =>
      rw [hpoint] at hstep
      cases hstep
  | release =>
    unfold Reservation.step at hstep
    cases hpoint : reservation.reserver with
    | holding =>
      rw [hpoint] at hstep
      cases hstep
      refine h.passed (fun state hstate => ?_) (load_sound rfl) nofun nofun
      rw [hpoint] at hstate
      rcases mem_pair.mp hstate with rfl | rfl
      · exact mem_cons_self
      · exact mem_of_mem_getLast? rfl
    | _ =>
      rw [hpoint] at hstep
      cases hstep
  | reserver spurious => exact h.reserverStep hstep
  | callback outcome =>
    unfold Reservation.step at hstep
    cases hpoint : reservation.reserver with
    | callback =>
      rw [hpoint] at hstep
      cases hstep
      exact h.callbackStep hpoint outcome
    | _ =>
      rw [hpoint] at hstep
      cases hstep
  | call call =>
    unfold Reservation.step at hstep
    cases hpoint : reservation.backend with
    | idle =>
      rw [hpoint] at hstep
      cases hstep
      exact h.served (.inl rfl) (fun _ h => (not_mem_none _ h).elim) nofun h.delivered
    | _ =>
      rw [hpoint] at hstep
      cases hstep
  | abandon =>
    unfold Reservation.step at hstep
    cases hpoint : reservation.backend with
    | idle =>
      rw [hpoint] at hstep
      cases hstep
      refine h.served (.inl rfl) (fun call hcall => ?_) nofun h.delivered
      cases hcall
      trivial
    | _ =>
      rw [hpoint] at hstep
      cases hstep
  | backend spurious => exact h.backendStep hstep

theorem result_cases (h : reservation.result = some result) :
    (∃ call, reservation.reserver = .dropping call (some result)) ∨
      reservation.reserver = .gone (some result) := by
  unfold Reservation.result at h
  cases hpoint : reservation.reserver with
  | dropping call result' =>
    rw [hpoint] at h
    exact .inl ⟨call, congrArg _ h⟩
  | gone result' =>
    rw [hpoint] at h
    exact .inr (congrArg _ h)
  | _ =>
    rw [hpoint] at h
    cases h

theorem backendLoad_reserver (reservation : Reservation T E) (call : BackendCall) :
    (reservation.backendLoad call).reserver = reservation.reserver := by
  cases call with
  | isCancelled => rfl
  | poll =>
    unfold backendLoad
    cases reservation.slot.state <;> rfl

theorem backendStep_reserver (h : reservation.backendStep spurious = some reservation') :
    reservation'.reserver = reservation.reserver := by
  unfold Reservation.backendStep at h
  cases hpoint : reservation.backend with
  | idle | gone =>
    rw [hpoint] at h
    cases h
  | clock | cancel | dropping =>
    rw [hpoint] at h
    cases h
    rfl
  | load call =>
    rw [hpoint] at h
    cases h
    exact reservation.backendLoad_reserver call
  | takeExchange =>
    rw [hpoint] at h
    dsimp only at h
    split at h
    · cases h
      rfl
    · cases h
      rfl

/-- Where the reserving half has decided on its result, its only step is one of its `drop`. -/
theorem step_of_result
    (h : reservation.result = some result) (hstep : reservation.step event = some reservation') :
    reservation'.reserver = reservation.reserver ∨
      ∃ call spurious, reservation.reserver = .dropping call (some result) ∧
        event = .reserver spurious := by
  rcases result_cases h with ⟨call, hpoint⟩ | hpoint
  · cases event with
    | tick =>
      cases hstep
      exact .inl rfl
    | commit | release | callback =>
      simp only [step, hpoint] at hstep
      cases hstep
    | reserver spurious => exact .inr ⟨call, spurious, hpoint, rfl⟩
    | call | abandon =>
      unfold Reservation.step at hstep
      dsimp only at hstep
      split at hstep
      · cases hstep
        exact .inl rfl
      · cases hstep
    | backend => exact .inl (backendStep_reserver hstep)
  · cases event with
    | tick =>
      cases hstep
      exact .inl rfl
    | commit | release | callback | reserver =>
      simp only [step, reserverStep, hpoint] at hstep
      cases hstep
    | call | abandon =>
      unfold Reservation.step at hstep
      dsimp only at hstep
      split at hstep
      · cases hstep
        exact .inl rfl
      · cases hstep
    | backend => exact .inl (backendStep_reserver hstep)

theorem result_kept
    (h : reservation.result = some result) (hstep : reservation.step event = some reservation') :
    reservation'.result = some result := by
  rcases step_of_result h hstep with hsame | ⟨call, spurious, hpoint, rfl⟩
  · unfold Reservation.result
    rw [hsame]
    exact h
  · simp only [step, reserverStep, hpoint] at hstep
    cases hstep
    cases hcall : (call.next reservation.slot.state spurious).2 with
    | none => simp only [Reservation.result, elim_none]
    | some call' => simp only [Reservation.result, elim_some]

theorem Sound.state_of_ok (h : Sound bytes deadline reservation)
    (hresult : reservation.result = some (.ok value)) :
    reservation.slot.state = .ready ∨ reservation.slot.state = .taken := by
  have hpossible := h.possible
  rcases result_cases hresult with ⟨call, hpoint⟩ | hpoint
  · rw [hpoint] at hpossible
    exact mem_pair.mp hpossible
  · rw [hpoint] at hpossible
    exact mem_pair.mp hpossible

theorem Sound.state_of_error (h : Sound bytes deadline reservation)
    (hresult : reservation.result = some (.error error)) : reservation.slot.state = .cancelled := by
  have hpossible := h.possible
  rcases result_cases hresult with ⟨call, hpoint⟩ | hpoint
  · rw [hpoint] at hpossible
    exact mem_singleton.mp hpossible
  · rw [hpoint] at hpossible
    exact mem_singleton.mp hpossible

theorem Sound.ok_of_taken (h : Sound bytes deadline reservation) (htaken : reservation.slot.state = .taken) :
    ∃ value, reservation.result = some (.ok value) := by
  have hpossible := h.possible
  rw [htaken] at hpossible
  unfold Reservation.result
  cases hpoint : reservation.reserver with
  | dropping _ result | gone result =>
    rw [hpoint] at hpossible
    rcases result with _ | _ | value
    · simp [ReserverPoint.states] at hpossible
    · simp [ReserverPoint.states] at hpossible
    · exact ⟨value, rfl⟩
  | _ =>
    rw [hpoint] at hpossible
    simp [ReserverPoint.states] at hpossible

/-- A step of the backend half on a slot that is ready: the bytes are taken, or nothing happens. -/
theorem Sound.backendStep_of_ready (h : Sound bytes deadline reservation)
    (hready : reservation.slot.state = .ready) (hstep : reservation.backendStep spurious = some reservation') :
    (reservation'.slot.state = .ready ∧ reservation'.statuses = reservation.statuses) ∨
      reservation'.statuses = reservation.statuses ++ [.ready bytes] := by
  have hclosed : reservation.slot.state.isOpen = false := by rw [hready]; rfl
  unfold Reservation.backendStep at hstep
  cases hpoint : reservation.backend with
  | idle | gone =>
    rw [hpoint] at hstep
    cases hstep
  | clock call =>
    rw [hpoint] at hstep
    cases hstep
    exact .inl ⟨hready, rfl⟩
  | cancel _ cancelling | dropping cancelling =>
    rw [hpoint] at hstep
    dsimp only at hstep
    rw [CancelOpen.next_of_closed (h.backend cancelling (by rw [hpoint]; rfl)) hclosed] at hstep
    cases hstep
    exact .inl ⟨hready, rfl⟩
  | load call =>
    rw [hpoint] at hstep
    cases hstep
    cases call with
    | isCancelled => exact .inl ⟨hready, rfl⟩
    | poll =>
      rw [Reservation.backendLoad, hready]
      exact .inl ⟨hready, rfl⟩
  | takeExchange =>
    rw [hpoint, hready, compareExchange, if_pos rfl] at hstep
    cases hstep
    rw [← h.content]
    exact .inr rfl

/-- What a step can do after `Ok` to a slot that is ready. -/
theorem Sound.step_of_ready (h : Sound bytes deadline reservation)
    (hresult : reservation.result = some (.ok value)) (hready : reservation.slot.state = .ready)
    (hstep : reservation.step event = some reservation') :
    (reservation'.slot.state = .ready ∧ reservation'.statuses = reservation.statuses) ∨
      reservation'.statuses = reservation.statuses ++ [.ready bytes] := by
  have hclosed : reservation.slot.state.isOpen = false := by rw [hready]; rfl
  rcases step_of_result hresult hstep with hsame | ⟨call, spurious, hpoint, rfl⟩
  · cases event with
    | tick =>
      cases hstep
      exact .inl ⟨hready, rfl⟩
    | commit | release | call | abandon =>
      unfold Reservation.step at hstep
      dsimp only at hstep
      split at hstep
      · cases hstep
        exact .inl ⟨hready, rfl⟩
      · cases hstep
    | callback =>
      rcases result_cases hresult with ⟨_, hpoint⟩ | hpoint
      · simp only [Reservation.step, hpoint] at hstep
        cases hstep
      · simp only [Reservation.step, hpoint] at hstep
        cases hstep
    | reserver =>
      rcases result_cases hresult with ⟨call, hpoint⟩ | hpoint
      · simp only [Reservation.step, Reservation.reserverStep, hpoint] at hstep
        rw [CancelOpen.next_of_closed (h.reserver call (by rw [hpoint]; rfl)) hclosed] at hstep
        cases hstep
        exact .inl ⟨hready, rfl⟩
      · simp only [Reservation.step, Reservation.reserverStep, hpoint] at hstep
        cases hstep
    | backend => exact h.backendStep_of_ready hready hstep
  · simp only [Reservation.step, Reservation.reserverStep, hpoint] at hstep
    rw [CancelOpen.next_of_closed (h.reserver call (by rw [hpoint]; rfl)) hclosed] at hstep
    cases hstep
    exact .inl ⟨hready, rfl⟩

theorem backendStep_statuses (h : reservation.backendStep spurious = some reservation') :
    reservation.statuses <+: reservation'.statuses := by
  unfold Reservation.backendStep at h
  cases hpoint : reservation.backend with
  | idle | gone =>
    rw [hpoint] at h
    cases h
  | clock | cancel | dropping =>
    rw [hpoint] at h
    cases h
    exact prefix_rfl
  | load call =>
    rw [hpoint] at h
    cases h
    cases call with
    | isCancelled => exact prefix_rfl
    | poll =>
      unfold backendLoad
      cases reservation.slot.state with
      | ready => exact prefix_rfl
      | _ => exact prefix_append _ _
  | takeExchange =>
    rw [hpoint] at h
    dsimp only at h
    split at h
    · cases h
      exact prefix_append _ _
    · cases h
      exact prefix_rfl

theorem step_statuses (h : reservation.step event = some reservation') :
    reservation.statuses <+: reservation'.statuses := by
  cases event with
  | tick =>
    cases h
    exact prefix_rfl
  | commit | release | call | abandon =>
    unfold Reservation.step at h
    dsimp only at h
    split at h
    · cases h
      exact prefix_rfl
    · cases h
  | callback outcome =>
    unfold Reservation.step at h
    dsimp only at h
    split at h
    · cases h
      rcases outcome with _ | _ | _
      · exact prefix_rfl
      · exact prefix_rfl
      · exact prefix_rfl
    · cases h
  | reserver spurious =>
    unfold Reservation.step reserverStep reserverExchange at h
    dsimp only at h
    split at h <;> cases h <;> exact prefix_rfl
  | backend => exact backendStep_statuses h

/-- A step of the backend half. -/
def ofBackend : ReservationEvent T E → Prop
  | .call _ | .backend _ => True
  | _ => False

def Obtains (bytes : List UInt8) (reservation : Reservation T E) : Prop :=
  ∃ later, Runs.Reaches step (fun _ event => ofBackend event) reservation later ∧ later.delivered = [bytes]

theorem Obtains.step (hstep : reservation.step event = some reservation')
    (hevent : ofBackend event) (h : Obtains bytes reservation') : Obtains bytes reservation := by
  obtain ⟨later, hreaches, hdelivered⟩ := h
  exact ⟨later, .trans (.step .refl hevent hstep) hreaches, hdelivered⟩

theorem Sound.obtains_take (h : Sound bytes deadline reservation) (hready : reservation.slot.state = .ready)
    (hpoint : reservation.backend = .takeExchange) : Obtains bytes reservation := by
  have hstep : reservation.step (.backend false) = some { reservation.withState .taken with
      backend := .idle, statuses := reservation.statuses ++ [.ready reservation.slot.bytes] } := by
    simp only [Reservation.step, Reservation.backendStep, hpoint, hready, compareExchange, if_pos]
  exact Obtains.step hstep trivial ⟨_, .refl, (h.step hstep).delivered⟩

theorem Sound.obtains_load (h : Sound bytes deadline reservation) (hready : reservation.slot.state = .ready)
    (hpoint : reservation.backend = .load .poll) : Obtains bytes reservation := by
  have hstep : reservation.step (.backend false) = some { reservation with backend := .takeExchange } := by
    simp only [Reservation.step, Reservation.backendStep, hpoint, Reservation.backendLoad, hready]
  exact Obtains.step hstep trivial ((h.step hstep).obtains_take hready rfl)

theorem Sound.cancel_ready {call : BackendCall} {cancelling : CancelOpen}
    (h : Sound bytes deadline reservation) (hready : reservation.slot.state = .ready)
    (hpoint : reservation.backend = .cancel call cancelling) :
    reservation.step (.backend false) = some { reservation with backend := .load call } := by
  have hclosed : reservation.slot.state.isOpen = false := by rw [hready]; rfl
  simp only [Reservation.step, Reservation.backendStep, hpoint]
  rw [CancelOpen.next_of_closed (h.backend cancelling (by rw [hpoint]; rfl)) hclosed]
  rfl

theorem Sound.obtains_clock {call : BackendCall} (h : Sound bytes deadline reservation)
    (hready : reservation.slot.state = .ready) (hpoint : reservation.backend = .clock call)
    (hload : ∀ {reservation : Reservation T E}, Sound bytes deadline reservation →
      reservation.slot.state = .ready → reservation.backend = .load call → Obtains bytes reservation) :
    Obtains bytes reservation := by
  have hstep : reservation.step (.backend false) = some { reservation with
      backend := if reservation.expired then .cancel call .load else .load call } := by
    simp only [Reservation.step, Reservation.backendStep, hpoint]
  refine Obtains.step hstep trivial ?_
  have hsound := h.step hstep
  by_cases hexpired : reservation.expired
  · rw [if_pos hexpired] at hsound ⊢
    have hcancel := hsound.cancel_ready hready rfl
    exact Obtains.step hcancel trivial (hload (hsound.step hcancel) hready rfl)
  · rw [if_neg hexpired] at hsound ⊢
    exact hload hsound hready rfl

theorem Sound.obtains_idle (h : Sound bytes deadline reservation) (hready : reservation.slot.state = .ready)
    (hpoint : reservation.backend = .idle) : Obtains bytes reservation := by
  have hstep : reservation.step (.call .poll) = some { reservation with backend := .clock .poll } := by
    simp only [Reservation.step, hpoint]
  exact Obtains.step hstep trivial ((h.step hstep).obtains_clock hready rfl fun h => h.obtains_load)

theorem Sound.obtains (h : Sound bytes deadline reservation) (hready : reservation.slot.state = .ready)
    (hpolls : reservation.polls) : Obtains bytes reservation := by
  have hload : ∀ {call : BackendCall} {reservation : Reservation T E}, Sound bytes deadline reservation →
      reservation.slot.state = .ready → reservation.backend = .load call → Obtains bytes reservation := by
    intro call reservation h hready hpoint
    cases call with
    | poll => exact h.obtains_load hready hpoint
    | isCancelled =>
      have hstep : reservation.step (.backend false) = some (reservation.backendLoad .isCancelled) := by
        simp only [Reservation.step, Reservation.backendStep, hpoint]
      exact Obtains.step hstep trivial ((h.step hstep).obtains_idle hready rfl)
  unfold polls at hpolls
  cases hpoint : reservation.backend with
  | idle => exact h.obtains_idle hready hpoint
  | clock call => exact h.obtains_clock hready hpoint hload
  | cancel call cancelling =>
    have hcancel := h.cancel_ready hready hpoint
    exact Obtains.step hcancel trivial (hload (h.step hcancel) hready rfl)
  | load call => exact hload h hready hpoint
  | takeExchange => exact h.obtains_take hready hpoint
  | dropping | gone =>
    rw [hpoint] at hpolls
    cases hpolls

/-- `commit_with` has returned the result, or does so at its next step. -/
def Returns (result : CommitResult T E) (reservation : Reservation T E) : Prop :=
  reservation.reserver = .gone (some result) ∨
    ∀ spurious, (reservation.reserverStep spurious).map (·.reserver) = some (.gone (some result))

/-- The bytes reach the backend exactly when they were committed. -/
structure DeliveredAsCommitted (bytes : List UInt8) (deadline : Nat) (reservation : Reservation T E) : Prop where
  once : reservation.delivered = [] ∨ reservation.delivered = [bytes]
  /-- They are obtained only when `commit_with` returns `Ok` and the callback succeeded in time. -/
  committed : reservation.delivered ≠ [] → (∃ value, reservation.Returns (.ok value)) ∧
    ∃ time, reservation.authorised = some time ∧ time < deadline
  /-- After an error they never are. -/
  refused : ∀ error, reservation.result = some (.error error) →
    ∀ later, Runs.Reaches step (fun _ _ => True) reservation later → later.delivered = []
  /-- After `Ok`, whatever else happens, the next poll that returns has them, -/
  kept : ∀ value, reservation.result = some (.ok value) → reservation.delivered = [] →
    ∀ later, Runs.Reaches step (fun _ _ => True) reservation later →
      later.statuses = reservation.statuses ∨ reservation.statuses ++ [.ready bytes] <+: later.statuses
  /-- and unless the backend drops its half it can go on to get them. -/
  obtainable : ∀ value, reservation.result = some (.ok value) → reservation.delivered = [] →
    reservation.polls → reservation.Obtains bytes

theorem Sound.returns (h : Sound bytes deadline reservation)
    (hresult : reservation.result = some (.ok value)) : reservation.Returns (.ok value) := by
  rcases result_cases hresult with ⟨call, hpoint⟩ | hpoint
  · right
    intro spurious
    have hclosed : reservation.slot.state.isOpen = false := by
      rcases h.state_of_ok hresult with hstate | hstate
      · rw [hstate]
        rfl
      · rw [hstate]
        rfl
    simp only [Reservation.reserverStep, hpoint]
    rw [CancelOpen.next_of_closed (h.reserver call (by rw [hpoint]; rfl)) hclosed]
    rfl
  · exact .inl hpoint

theorem Sound.ready_of_ok (h : Sound bytes deadline reservation)
    (hresult : reservation.result = some (.ok value)) (hdelivered : reservation.delivered = []) :
    reservation.slot.state = .ready := by
  refine (h.state_of_ok hresult).resolve_right fun htaken => ?_
  have hall := h.delivered
  rw [hdelivered, if_pos htaken] at hall
  cases hall

variable {later : Reservation T E}

theorem Sound.kept (h : Sound bytes deadline reservation)
    (hresult : reservation.result = some (.ok value)) (hready : reservation.slot.state = .ready)
    (hreaches : Runs.Reaches Reservation.step (fun _ _ => True) reservation later) :
    (Sound bytes deadline later ∧ later.result = some (.ok value)) ∧
      ((later.slot.state = .ready ∧ later.statuses = reservation.statuses) ∨
        reservation.statuses ++ [.ready bytes] <+: later.statuses) := by
  induction hreaches with
  | refl => exact ⟨⟨h, hresult⟩, .inl ⟨hready, rfl⟩⟩
  | step _ _ hstep ih =>
    obtain ⟨⟨hsound, hresult'⟩, hbefore⟩ := ih
    refine ⟨⟨hsound.step hstep, result_kept hresult' hstep⟩, ?_⟩
    rcases hbefore with ⟨hready', hsame⟩ | hbefore
    · rcases hsound.step_of_ready hresult' hready' hstep with ⟨hready'', hsame'⟩ | htaken
      · exact .inl ⟨hready'', hsame'.trans hsame⟩
      · right
        rw [htaken, hsame]
    · exact .inr (hbefore.trans (step_statuses hstep))

theorem Sound.refused
    (h : Sound bytes deadline reservation) (hresult : reservation.result = some (.error error))
    (hreaches : Runs.Reaches Reservation.step (fun _ _ => True) reservation later) : later.delivered = [] := by
  have hkept : Sound bytes deadline later ∧ later.result = some (.error error) := by
    induction hreaches with
    | refl => exact ⟨h, hresult⟩
    | step _ _ hstep ih => exact ⟨ih.1.step hstep, result_kept ih.2 hstep⟩
  rw [hkept.1.delivered, hkept.1.state_of_error hkept.2]
  rfl

theorem Sound.deliveredAsCommitted (h : Sound bytes deadline reservation) :
    DeliveredAsCommitted bytes deadline reservation where
  once := by
    rw [h.delivered]
    by_cases htaken : reservation.slot.state = .taken
    · rw [if_pos htaken]
      exact .inr rfl
    · rw [if_neg htaken]
      exact .inl rfl
  committed := by
    intro hdelivered
    rw [h.delivered] at hdelivered
    have htaken : reservation.slot.state = .taken := by
      by_contra hstill
      exact hdelivered (if_neg hstill)
    obtain ⟨value, hresult⟩ := h.ok_of_taken htaken
    refine ⟨⟨value, h.returns hresult⟩, h.timely ?_⟩
    rcases result_cases hresult with ⟨_, hpoint⟩ | hpoint
    · rw [hpoint]
      rfl
    · rw [hpoint]
      rfl
  refused := fun _ hresult _ hreaches => h.refused hresult hreaches
  kept := fun _ hresult hdelivered _ hreaches =>
    (h.kept hresult (h.ready_of_ok hresult hdelivered) hreaches).2.imp_left And.right
  obtainable := fun _ hresult hdelivered => h.obtains (h.ready_of_ok hresult hdelivered)

end Reservation

/-- Reserved automation input is delivered exactly when it was committed, in every interleaving of the
steps of the two halves and the clock. -/
theorem automation_input_is_delivered_as_committed {bytes : List UInt8} {deadline now : Nat}
    {reservation : Reservation T E}
    (h : Runs.Reaches Reservation.step (fun _ _ => True) (.slotWithDeadline bytes deadline now) reservation) :
    reservation.DeliveredAsCommitted bytes deadline :=
  (h.invariant (Reservation.start_sound now) fun hsound _ hstep => hsound.step hstep).deliveredAsCommitted

/-- The application commits before the deadline, and the backend polls long after it. -/
def lateSteps : List (ReservationEvent Unit Unit) :=
  [.commit, .reserver false, .reserver false, .reserver false, .callback (some (.ok ())), .tick 3,
    .reserver false, .reserver false, .reserver false, .reserver false, .reserver false, .tick 100,
    .call .poll, .backend false, .backend false, .backend false, .backend false]

def latePoll : Option (Reservation Unit Unit) := lateSteps.foldlM Reservation.step (.slotWithDeadline [97] 10 5)

theorem latePoll_delivers : latePoll.map (fun reservation => (reservation.delivered, reservation.now)) =
    some ([[97]], 108) := by decide +kernel

theorem automation_input_is_delivered_after_the_deadline : ∃ reservation : Reservation Unit Unit,
      reservation.delivered = [[97]] ∧ reservation.now = 108 ∧ reservation.DeliveredAsCommitted [97] 10 := by
  obtain ⟨reservation, hrun, hvalues⟩ := map_eq_some_iff.mp latePoll_delivers
  obtain ⟨hdelivered, hnow⟩ := Prod.mk.inj hvalues
  exact ⟨reservation, hdelivered, hnow,
    automation_input_is_delivered_as_committed (Runs.reaches_of_foldlM hrun)⟩

end FesTerm
