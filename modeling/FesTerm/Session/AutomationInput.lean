import Mathlib

/-!
# Reserved automation input

A reservation of a place in the input queue of a session backend: one half is committed by the
application, the other is polled by the backend, and both work on one slot. The two halves and the clock
take their atomic steps in any order.
-/

namespace FesTerm

/-- The value of the atomic that both halves share. -/
inductive SlotState where
  | pending
  | committing
  | claimed
  | ready
  | cancelled
  | taken
  deriving DecidableEq, Repr

structure Slot where
  bytes : List UInt8
  deadline : Nat
  state : SlotState
  deriving DecidableEq

inductive AutomationInputStatus where
  | pending
  | ready (bytes : List UInt8)
  | cancelled
  deriving DecidableEq, Repr

inductive CommitAutomationInputError (E : Type) where
  | closedOrExpired
  | refused (error : E)
  | lostAfterCommit
  deriving DecidableEq, Repr

abbrev CommitResult (T E : Type) := Except (CommitAutomationInputError E) T

namespace SlotState

def isOpen : SlotState → Bool
  | .pending | .committing | .claimed => true
  | .ready | .cancelled | .taken => false

def compareExchange (state current new : SlotState) : SlotState × Bool :=
  if state = current then (new, true) else (state, false)

end SlotState

/-- Where a call of `cancel_open` stands: before its load, or before an exchange of the value seen last. -/
inductive CancelOpen where
  | load
  | exchange (seen : SlotState)
  deriving DecidableEq

namespace CancelOpen

def seeing (state : SlotState) : Option CancelOpen := if state.isOpen then some (.exchange state) else none

/-- The next atomic step: what it leaves in the slot, and where the call stands then unless it has
returned. A weak exchange may fail although the value is the expected one. -/
def next (state : SlotState) (spurious : Bool) : CancelOpen → SlotState × Option CancelOpen
  | .load => (state, seeing state)
  | .exchange seen =>
    if state = seen ∧ spurious = false then (.cancelled, none) else (state, seeing state)

end CancelOpen

/-- The next step of the reserving half. -/
inductive ReserverPoint (T E : Type) where
  /-- The reservation is held, and not committed yet. -/
  | holding
  /-- The clock is read on entry. -/
  | entry
  | commitExchange
  /-- The clock is read before the callback. -/
  | beforeCallback
  | callback
  /-- The clock is read after the callback. -/
  | afterCallback (value : T)
  | claimExchange (value : T)
  /-- The clock is read after the claim. -/
  | afterClaim (value : T)
  | readyExchange (value : T)
  /-- `cancel_open` on the way to an error. -/
  | cancel (call : CancelOpen) (error : CommitAutomationInputError E)
  /-- `drop` of the reservation, at the end of `commit_with` or without a result. -/
  | dropping (call : CancelOpen) (result : Option (CommitResult T E))
  | gone (result : Option (CommitResult T E))
  deriving DecidableEq

inductive BackendCall where
  | poll
  | isCancelled
  deriving DecidableEq

/-- The next step of the backend half. -/
inductive BackendPoint where
  | idle
  | clock (call : BackendCall)
  | cancel (call : BackendCall) (cancelling : CancelOpen)
  | load (call : BackendCall)
  | takeExchange
  | dropping (cancelling : CancelOpen)
  | gone
  deriving DecidableEq

/-- The slot of an input, and both sides at work on it. -/
structure Reservation (T E : Type) where
  slot : Slot
  now : Nat
  reserver : ReserverPoint T E
  backend : BackendPoint
  /-- When the authority callback succeeded. -/
  authorised : Option Nat
  /-- What the polls returned so far. -/
  statuses : List AutomationInputStatus
  /-- What `is_cancelled` returned so far. -/
  probes : List Bool
  deriving DecidableEq

/-- An access of one side, or time that passes. -/
inductive ReservationEvent (T E : Type) where
  | tick (elapsed : Nat)
  /-- The application calls `commit_with`. -/
  | commit
  /-- The application drops its half without a commit. -/
  | release
  | reserver (spurious : Bool)
  /-- The callback returns, or panics. -/
  | callback (outcome : Option (Except E T))
  | call (call : BackendCall)
  /-- The backend drops its half. -/
  | abandon
  | backend (spurious : Bool)

namespace Reservation

variable {T E : Type}

/-- The input is reserved. -/
def slotWithDeadline (bytes : List UInt8) (deadline now : Nat) : Reservation T E where
  slot := ⟨bytes, deadline, .pending⟩
  now := now
  reserver := .holding
  backend := .idle
  authorised := none
  statuses := []
  probes := []

def expired (reservation : Reservation T E) : Bool := reservation.slot.deadline ≤ reservation.now

def withState (reservation : Reservation T E) (state : SlotState) : Reservation T E :=
  { reservation with slot := { reservation.slot with state := state } }

/-- The compare-and-exchange of the reserving half, with where it goes on when it fails and when not. -/
def reserverExchange (reservation : Reservation T E) (current new : SlotState)
    (failed done : ReserverPoint T E) : Reservation T E :=
  let (state, exchanged) := reservation.slot.state.compareExchange current new
  { reservation.withState state with reserver := if exchanged then done else failed }

def reserverStep (reservation : Reservation T E) (spurious : Bool) : Option (Reservation T E) :=
  let at' (point : ReserverPoint T E) : Option (Reservation T E) := some { reservation with reserver := point }
  match reservation.reserver with
  | .entry => at' (if reservation.expired then .cancel .load .closedOrExpired else .commitExchange)
  | .commitExchange =>
    some (reservation.reserverExchange .pending .committing
      (.dropping .load (some (.error .closedOrExpired))) .beforeCallback)
  | .beforeCallback => at' (if reservation.expired then .cancel .load .closedOrExpired else .callback)
  | .afterCallback value =>
    at' (if reservation.expired then .cancel .load .lostAfterCommit else .claimExchange value)
  | .claimExchange value =>
    some (reservation.reserverExchange .committing .claimed
      (.dropping .load (some (.error .lostAfterCommit))) (.afterClaim value))
  | .afterClaim value =>
    at' (if reservation.expired then .cancel .load .lostAfterCommit else .readyExchange value)
  | .readyExchange value =>
    some (reservation.reserverExchange .claimed .ready
      (.dropping .load (some (.error .lostAfterCommit))) (.dropping .load (some (.ok value))))
  | .cancel call error =>
    let (state, call) := call.next reservation.slot.state spurious
    some { reservation.withState state with
      reserver := call.elim (.dropping .load (some (.error error))) (.cancel · error) }
  | .dropping call result =>
    let (state, call) := call.next reservation.slot.state spurious
    some { reservation.withState state with reserver := call.elim (.gone result) (.dropping · result) }
  | .holding | .callback | .gone _ => none

/-- The outcome of the callback. A panic unwinds through `commit_with`, which drops the reservation. -/
def callbackStep (reservation : Reservation T E) : Option (Except E T) → Reservation T E
  | some (.ok value) =>
    { reservation with reserver := .afterCallback value, authorised := some reservation.now }
  | some (.error error) => { reservation with reserver := .cancel .load (.refused error) }
  | none => { reservation with reserver := .dropping .load none }

/-- The load that ends `is_cancelled`, or that `poll` decides by. -/
def backendLoad (reservation : Reservation T E) : BackendCall → Reservation T E
  | .isCancelled =>
    { reservation with
      backend := .idle
      probes := reservation.probes ++
        [(reservation.slot.state == .cancelled || reservation.slot.state == .taken)] }
  | .poll =>
    match reservation.slot.state with
    | .pending | .committing | .claimed =>
      { reservation with backend := .idle, statuses := reservation.statuses ++ [.pending] }
    | .ready => { reservation with backend := .takeExchange }
    | .cancelled | .taken =>
      { reservation with backend := .idle, statuses := reservation.statuses ++ [.cancelled] }

def backendStep (reservation : Reservation T E) (spurious : Bool) : Option (Reservation T E) :=
  match reservation.backend with
  | .clock call =>
    some { reservation with backend := if reservation.expired then .cancel call .load else .load call }
  | .cancel call cancelling =>
    let (state, cancelling) := cancelling.next reservation.slot.state spurious
    some { reservation.withState state with backend := cancelling.elim (.load call) (.cancel call ·) }
  | .load call => some (reservation.backendLoad call)
  | .takeExchange =>
    match reservation.slot.state.compareExchange .ready .taken with
    | (state, true) =>
      some { reservation.withState state with
        backend := .idle
        statuses := reservation.statuses ++ [.ready reservation.slot.bytes] }
    | (state, false) => some { reservation.withState state with backend := .load .poll }
  | .dropping cancelling =>
    let (state, cancelling) := cancelling.next reservation.slot.state spurious
    some { reservation.withState state with backend := cancelling.elim .gone .dropping }
  | .idle | .gone => none

/-- What an access does; none where its side is not at it. -/
def step (reservation : Reservation T E) : ReservationEvent T E → Option (Reservation T E)
  | .tick elapsed => some { reservation with now := reservation.now + elapsed }
  | .commit =>
    match reservation.reserver with
    | .holding => some { reservation with reserver := .entry }
    | _ => none
  | .release =>
    match reservation.reserver with
    | .holding => some { reservation with reserver := .dropping .load none }
    | _ => none
  | .reserver spurious => reservation.reserverStep spurious
  | .callback outcome =>
    match reservation.reserver with
    | .callback => some (reservation.callbackStep outcome)
    | _ => none
  | .call call =>
    match reservation.backend with
    | .idle => some { reservation with backend := .clock call }
    | _ => none
  | .abandon =>
    match reservation.backend with
    | .idle => some { reservation with backend := .dropping .load }
    | _ => none
  | .backend spurious => reservation.backendStep spurious

/-- What `commit_with` returns, once that is decided. -/
def result (reservation : Reservation T E) : Option (CommitResult T E) :=
  match reservation.reserver with
  | .dropping _ result | .gone result => result
  | _ => none

/-- What the backend got to send. -/
def delivered (reservation : Reservation T E) : List (List UInt8) :=
  reservation.statuses.filterMap fun status =>
    match status with
    | .ready bytes => some bytes
    | .pending | .cancelled => none

/-- The backend has not dropped its half. -/
def polls (reservation : Reservation T E) : Bool :=
  match reservation.backend with
  | .dropping _ | .gone => false
  | _ => true

end Reservation

end FesTerm
