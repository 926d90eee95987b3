import FesTerm.Lib.Runs

/-!
# The admission window of a script run

`supervisor.rs`: the state of the window, its gate and its deadline, with every thread that enters, claims,
cancels or cuts it, and the watchdog that writes to the worker through it. A step of a party is one access to
what the threads share: a load, store or exchange of an atomic, the gate, or a reading of the clock. Of the
watchdog's loop there is what touches the window or the pipe; what makes the loop end is left open.
-/

namespace FesTerm.AutomationJs

/-- Time on the clock of the supervisor. -/
abbrev Instant := Nat

abbrev DisclosureGuard := Nat

structure Outbound where
  bytes : List UInt8
  disclosure : Option DisclosureGuard
  deriving DecidableEq

namespace Outbound

def unguarded (bytes : List UInt8) : Outbound where
  bytes := bytes
  disclosure := none

end Outbound

/-- What the loop queues for the worker: an acknowledgement, or a result with its guard. -/
inductive Staged where
  | admitted (bytes : List UInt8)
  | result (bytes : List UInt8) (disclosure : DisclosureGuard)

def Staged.outbound : Staged → Outbound
  | admitted bytes => .unguarded bytes
  | result bytes disclosure => { bytes, disclosure := some disclosure }

inductive AdmissionState where
  | opened
  | claimed
  | closed
  deriving DecidableEq

/-- A thread of the application, or the watchdog. -/
inductive Party where
  | application (thread : Nat)
  | watchdog
  deriving DecidableEq

structure Admission where
  state : AdmissionState
  cancelled : Bool
  /-- Who holds the gate, and whether somebody panicked with it. -/
  gate : Option Party
  poisoned : Bool
  deadline : Instant
  deriving DecidableEq

/-- Where a party stands. -/
inductive Point where
  | outside
  /-- `with_open`: the gate is wanted. -/
  | entering
  /-- It was poisoned: the window is about to be cancelled. -/
  | revoking
  /-- `check`: the gate is held and the state is to be read, then the clock. -/
  | checking
  | timing
  | expiring
  /-- The operation runs, with the permit that it has not used. -/
  | operating
  /-- `commit`: the claim is made and the clock is to be read. -/
  | claimed
  | expired
  | admitted (now : Instant)
  /-- The closure runs. -/
  | committing (now : Instant)
  /-- The claim is about to be released. -/
  | dropping (panicked : Bool)
  /-- The operation goes on without the permit. -/
  | operated
  | leaving (panicked : Bool)
  /-- `close_with`: the window is closed and the gate is wanted. -/
  | closing
  /-- The cut runs. -/
  | cutting
  /-- The cancellation is about to be signalled. -/
  | signalling (panicked : Bool)
  deriving DecidableEq

structure Watchdog where
  frames : List Outbound
  sent : Nat
  cancelling : Bool
  /-- The disclosure boundary of the front frame was entered, with the permit that is held. -/
  entered : Bool
  permit : Option DisclosureGuard
  ended : Bool
  deriving DecidableEq

/-- One write to the pipe of the worker. -/
structure PipeWrite where
  frame : Outbound
  sent : Nat
  count : Nat
  permit : Option DisclosureGuard
  deriving DecidableEq

/-- The admission window, the threads at it, and what the watchdog wrote to the pipe. -/
structure Window where
  admission : Admission
  clock : Instant
  points : Party → Point
  watchdog : Watchdog
  /-- The closure of a `cancel_with` has started. -/
  cut : Bool
  written : List PipeWrite

/-- One access of a thread to the state, the gate, the clock or the pipe. -/
inductive WindowAction where
  | tick (elapsed : Nat)
  | withAdmission (thread : Nat)
  | cancel (thread : Nat)
  | cancelWith (thread : Nat)
  | lock (party : Party)
  | check (party : Party)
  | readClock (party : Party)
  | stop (party : Party)
  | signal (party : Party)
  | commit (party : Party)
  | run (party : Party)
  | finish (thread : Nat) (panicked : Bool)
  | release (party : Party)
  | leave (party : Party)
  | stage (staged : Staged)
  | beginCancelling
  | writeGuarded
  | tryEnter (granted : Bool)
  | write (count : Nat)
  | finishWrite
  | writeCancel (count : Nat)
  | endLoop

namespace Watchdog

/-- The loop goes on after `count` bytes of the front frame were taken by the pipe. -/
def advance (watchdog : Watchdog) (count : Nat) : Watchdog :=
  match watchdog.frames with
  | [] => watchdog
  | frame :: frames =>
    if watchdog.sent + count = frame.bytes.length then { watchdog with frames, sent := 0 }
    else { watchdog with sent := watchdog.sent + count }

/-- The write of `count` bytes of the front frame. -/
def pipeWrite (watchdog : Watchdog) (count : Nat) : Option PipeWrite :=
  watchdog.frames.head?.bind fun frame =>
    if watchdog.sent + count ≤ frame.bytes.length then
      some { frame, sent := watchdog.sent, count, permit := watchdog.permit }
    else none

end Watchdog

namespace Window

/-- The window is open; the frames wait to be written. -/
def start (deadline : Instant) (frames : List (List UInt8)) : Window where
  admission := { state := .opened, cancelled := false, gate := none, poisoned := false, deadline }
  clock := 0
  points _ := .outside
  watchdog :=
    { frames := frames.map .unguarded, sent := 0, cancelling := false, entered := false, permit := none,
      ended := false }
  cut := false
  written := []

def goto (window : Window) (party : Party) (point : Point) : Window :=
  { window with points := Function.update window.points party point }

def close (window : Window) : Window :=
  { window with admission.state := .closed }

def hold (window : Window) (party : Party) : Window :=
  { window with admission.gate := some party }

def isBefore (window : Window) : Bool := window.clock < window.admission.deadline

def lock (window : Window) (party : Party) : Option Window :=
  if window.admission.gate.isSome then none
  else match window.points party with
  | .entering => some ((window.hold party).goto party (if window.admission.poisoned then .revoking else .checking))
  | .closing => some ({ window.hold party with cut := true }.goto party .cutting)
  | _ => none

def readClock (window : Window) (party : Party) : Option Window :=
  match window.points party with
  | .timing => some (window.goto party (if window.isBefore then .operating else .expiring))
  | .claimed => some (window.goto party (if window.isBefore then .admitted window.clock else .expired))
  | _ => none

def stop (window : Window) (party : Party) : Option Window :=
  match window.points party with
  | .expiring => some (window.close.goto party (.leaving false))
  | .expired => some (window.close.goto party (.dropping false))
  | .revoking => some (window.close.goto party (.signalling false))
  | _ => none

def signal (window : Window) (party : Party) : Option Window :=
  match window.points party with
  | .signalling panicked => some ({ window with admission.cancelled := true }.goto party
      (if window.admission.gate = some party then .leaving panicked else .outside))
  | _ => none

/-- The claim. The watchdog makes it inside the disclosure boundary. -/
def commit (window : Window) (party : Party) : Option Window :=
  if window.points party = .operating ∧ (party = .watchdog → window.watchdog.entered) then
    if window.admission.state = .opened then
      some ({ window with admission.state := .claimed }.goto party .claimed)
    else some (window.goto party .operated)
  else none

/-- A closure of the application ends. -/
def finish (window : Window) (party : Party) (panicked : Bool) : Option Window :=
  match window.points party with
  | .operating | .operated => some (window.goto party (.leaving panicked))
  | .committing _ => some (window.goto party (.dropping panicked))
  | .cutting => some (window.goto party (.signalling panicked))
  | _ => none

/-- The claim is dropped: the window opens again, unless it was closed. -/
def release (window : Window) (party : Party) : Option Window :=
  match window.points party with
  | .dropping panicked =>
    let window := window.goto party (if panicked then .leaving true else .operated)
    some (if window.admission.state = .claimed then { window with admission.state := .opened } else window)
  | _ => none

/-- The gate is released. The permit of the watchdog went before it. -/
def leave (window : Window) (party : Party) : Option Window :=
  match window.points party with
  | .leaving panicked =>
    let window := { window with
      admission.gate := none, admission.poisoned := window.admission.poisoned || panicked }.goto party .outside
    some (if party = .watchdog then { window with watchdog.entered := false, watchdog.permit := none } else window)
  | _ => none

def looping (window : Window) : Bool := window.points .watchdog = .outside && !window.watchdog.ended

/-- `Cancel`, as it is framed. -/
def cancelFrame : List UInt8 := [0, 0, 0, 17] ++ "\x7b\"type\":\"cancel\"\x7d".toUTF8.toList

/-- What an access does; none where the thread is not at it. -/
def step (window : Window) : WindowAction → Option Window
  | .tick elapsed => some { window with clock := window.clock + elapsed }
  | .withAdmission thread =>
    if window.points (.application thread) = .outside then some (window.goto (.application thread) .entering)
    else none
  | .cancel thread =>
    if window.points (.application thread) = .outside then
      some (window.close.goto (.application thread) (.signalling false))
    else none
  | .cancelWith thread =>
    if window.points (.application thread) = .outside then some (window.close.goto (.application thread) .closing)
    else none
  | .lock party => window.lock party
  | .check party =>
    if window.points party = .checking then
      some (window.goto party (if window.admission.state = .opened then .timing else .leaving false))
    else none
  | .readClock party => window.readClock party
  | .stop party => window.stop party
  | .signal party => window.signal party
  | .commit party => window.commit party
  | .run party =>
    match window.points party with
    | .admitted now => some (window.goto party (.committing now))
    | _ => none
  | .finish thread panicked => window.finish (.application thread) panicked
  | .release party => window.release party
  | .leave party => window.leave party
  | .stage staged =>
    if window.looping ∧ !window.watchdog.cancelling then
      some { window with watchdog.frames := window.watchdog.frames ++ [staged.outbound] }
    else none
  | .beginCancelling =>
    if window.looping ∧ window.admission.cancelled ∧ !window.watchdog.cancelling then
      some { window with
        watchdog.frames := [.unguarded cancelFrame], watchdog.sent := 0, watchdog.cancelling := true }
    else none
  | .writeGuarded =>
    if window.looping ∧ !window.watchdog.cancelling ∧ window.watchdog.frames ≠ [] then
      -- A gate that is held puts the write off.
      some (if window.admission.gate.isSome then window
        else (window.hold .watchdog).goto .watchdog (if window.admission.poisoned then .revoking else .checking))
    else none
  | .tryEnter granted =>
    if window.points .watchdog = .operating ∧ !window.watchdog.entered then
      let disclosure := window.watchdog.frames.head?.bind (·.disclosure)
      if granted then some { window with watchdog.entered := true, watchdog.permit := disclosure }
      else if disclosure.isSome then some (window.goto .watchdog (.leaving false))
      else none
    else none
  | .write count =>
    match window.points .watchdog with
    | .committing _ => (window.watchdog.pipeWrite count).map fun write =>
      { window with watchdog := window.watchdog.advance count, written := write :: window.written }.goto
        .watchdog (.dropping false)
    | _ => none
  | .finishWrite =>
    if window.points .watchdog = .operated then some (window.goto .watchdog (.leaving false)) else none
  | .writeCancel count =>
    if window.looping ∧ window.watchdog.cancelling then
      (window.watchdog.pipeWrite count).map fun write =>
        { window with watchdog := window.watchdog.advance count, written := write :: window.written }
    else none
  | .endLoop =>
    if window.looping then some { window.close with watchdog.ended := true } else none

end Window

/-- No effect starts once the window was cut, or at its deadline. -/
structure CutsEffects (window : Window) : Prop where
  /-- Once the closure of a `cancel_with` has started no commit closure runs. -/
  cut : window.cut = true → ∀ party now, window.points party ≠ .committing now
  /-- A window that is closed stays closed. -/
  closed : window.admission.state = .closed → ∀ later,
    Runs.Reaches Window.step (fun _ _ => True) window later → later.admission.state = .closed
  /-- The clock that was read after the claim, and handed to the closure, was before the deadline. -/
  timely : ∀ party now, window.points party = .committing now → now < window.admission.deadline
  single : ∀ party other now now', window.points party = .committing now →
    window.points other = .committing now' → party = other
  /-- What is written of a result is written with the permit of its guard. -/
  disclosed : ∀ write ∈ window.written, ∀ disclosure, write.frame.disclosure = some disclosure →
    write.permit = some disclosure

end FesTerm.AutomationJs
