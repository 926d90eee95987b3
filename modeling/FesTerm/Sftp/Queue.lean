import FesTerm.Sftp.Upload
import FesTerm.Lib.Table

/-!
# The transfer queue

The calls of a transfer manager and the steps of its transfers. Each region under the lock of the queue
is one step, and so is each poll of a transfer that waits: what a call or a transfer does between two
of them is not seen by the others. What a transfer does to the files is left open here.
-/

namespace FesTerm

abbrev TransferId := Nat

/-- What is known of a transfer. -/
inductive TransferState where
  | queued
  | running
  /-- Waiting for `resolveConflict`. -/
  | awaitingConflict (conflict : Conflict)
  | completed
  /-- The policy left the existing target untouched. -/
  | skipped
  | failed (error : SftpError)
  | cancelled
  deriving DecidableEq, Repr

def TransferState.isFinished : TransferState → Bool
  | .completed | .skipped | .failed _ | .cancelled => true
  | _ => false

structure Progress where
  bytesDone : Nat
  bytesTotal : Option Nat
  deriving DecidableEq, Repr

structure TransferInfo where
  id : TransferId
  direction : Direction
  source : FilePath
  destinationDir : FilePath
  /-- The final name of the file, which settles after the conflict. -/
  name : FilePath
  state : TransferState
  progress : Progress
  /-- A remote temporary file that could not be removed after a failure. -/
  leftoverRemoteTemp : Option FilePath
  deriving DecidableEq, Repr

/-- What the consumer is told. -/
inductive TransferEvent where
  | stateChanged (id : TransferId) (state : TransferState)
  | progress (id : TransferId) (progress : Progress)
  deriving DecidableEq, Repr

namespace TransferEvent

def isProgress : TransferEvent → Bool
  | .progress _ _ => true
  | .stateChanged _ _ => false

def isProgressOf (id : TransferId) : TransferEvent → Bool
  | .progress other _ => other == id
  | .stateChanged _ _ => false

end TransferEvent

def maxPendingEvents : Nat := 4096

/-- The entry of a transfer. -/
structure Job where
  info : TransferInfo
  /-- The sender of the channel that the answer goes to is registered. -/
  conflictReply : Bool
  deriving DecidableEq

namespace Job

/-- Its state is a final one. -/
def isFinished (job : Job) : Bool := job.info.state.isFinished

def setState (job : Job) (state : TransferState) : Job :=
  { info := { job.info with state := state }
    conflictReply := job.conflictReply && !state.isFinished }

def register (job : Job) : Job := { job with conflictReply := true }

def take (job : Job) : Job := { job with conflictReply := false }

end Job

structure QueueState where
  nextId : TransferId
  jobs : Table TransferId Job
  order : List TransferId
  events : List TransferEvent
  defaultPolicy : Option ConflictPolicy

/-- The receiver of the channel that the answer comes from. -/
inductive PolicyReply where
  /-- There is no channel, or the receiver was dropped. -/
  | none
  | pending
  | answered (policy : ConflictPolicy)
  /-- The sender was dropped with nothing sent. -/
  | closed
  deriving DecidableEq, Repr

namespace PolicyReply

def send (reply : PolicyReply) (policy : ConflictPolicy) : PolicyReply :=
  if reply = .pending then .answered policy else reply

def dropSender (reply : PolicyReply) : PolicyReply := if reply = .pending then .closed else reply

end PolicyReply

/-- How a transfer goes on once it has announced its state. -/
inductive Continuation where
  /-- The work on the files, past a conflict if there is a policy. -/
  | work (policy : Option ConflictPolicy)
  | await
  | finish
  deriving DecidableEq, Repr

/-- The regions under the lock that announcing a state goes through. -/
inductive Stage where
  | record
  | emit
  | prune
  deriving DecidableEq, Repr

/-- Where a transfer is between two steps. -/
inductive TransferPoint where
  | absent
  /-- Inserted, and not announced by the caller of `enqueue` yet. -/
  | announcing
  /-- About to look for a cancellation, and then for a permit. -/
  | acquiring
  | admitting
  | setting (stage : Stage) (state : TransferState) (next : Continuation)
  | working (policy : Option ConflictPolicy)
  /-- The progress is stored, and not emitted yet. -/
  | reporting (policy : Option ConflictPolicy) (progress : Progress)
  /-- About to look for a cancellation, and then for the answer. -/
  | awaiting
  | receiving
  | ended
  deriving DecidableEq, Repr

def Continuation.point : Continuation → TransferPoint
  | .work policy => .working policy
  | .await => .awaiting
  | .finish => .ended

structure Transfer where
  point : TransferPoint
  /-- The flag of its cancel token. -/
  cancelled : Bool
  reply : PolicyReply
  deriving DecidableEq, Repr

/-- What the work on the files tells of a transfer. -/
inductive InfoUpdate where
  | total (bytes : Option Nat)
  | named (name : FilePath)
  | leftover (path : FilePath)
  deriving DecidableEq, Repr

def InfoUpdate.apply (info : TransferInfo) : InfoUpdate → TransferInfo
  | .total bytes => { info with progress := { info.progress with bytesTotal := bytes } }
  | .named name => { info with name := name }
  | .leftover path => { info with leftoverRemoteTemp := some path }

/-- The queue, the permits and the tasks of the transfers. -/
structure TransferManager where
  config : TransferConfig
  /-- The permits that the semaphore has left. -/
  permits : Nat
  state : QueueState
  transfers : TransferId → Transfer

namespace TransferManager

def new (config : TransferConfig) : TransferManager where
  config := config
  permits := config.maxConcurrent
  state := ⟨0, Table.empty, [], [], none⟩
  transfers := fun _ => ⟨.absent, false, .none⟩

def setTransfer (manager : TransferManager) (id : TransferId) (transfer : Transfer) : TransferManager :=
  { manager with transfers := Function.update manager.transfers id transfer }

def goTo (manager : TransferManager) (id : TransferId) (point : TransferPoint) : TransferManager :=
  manager.setTransfer id { manager.transfers id with point := point }

def isWaiting (manager : TransferManager) (id : TransferId) : Bool :=
  (manager.state.jobs.get id).any Job.conflictReply

/-- The jobs are replaced. A sender that is no longer among them was dropped. -/
def withJobs (manager : TransferManager) (jobs : Table TransferId Job) : TransferManager :=
  { manager with
    state := { manager.state with jobs := jobs }
    transfers := fun id =>
      if manager.isWaiting id ∧ ¬(jobs.get id).any Job.conflictReply then
        { manager.transfers id with reply := (manager.transfers id).reply.dropSender }
      else manager.transfers id }

end TransferManager

/-- The last progress event of a transfer is replaced, where there is one. -/
def replaceProgress (id : TransferId) (progress : Progress) (events : List TransferEvent) :
    Option (List TransferEvent) :=
  match events.reverse.findIdx? (TransferEvent.isProgressOf id) with
  | some index => some (events.reverse.set index (.progress id progress)).reverse
  | none => none

/-- While there are too many, the first progress event goes, or else the oldest event. -/
def trimEvents (events : List TransferEvent) : List TransferEvent :=
  if maxPendingEvents < events.length then
    trimEvents (events.eraseIdx ((events.findIdx? TransferEvent.isProgress).getD 0))
  else events
termination_by events.length
decreasing_by
  have hlength : 0 < events.length := by omega
  rw [List.length_eraseIdx]
  cases h : events.findIdx? TransferEvent.isProgress with
  | none => simp [hlength]
  | some index =>
    have := (List.findIdx?_eq_some_iff_getElem.mp h).1
    simp [this, hlength]

def pushEvent (events : List TransferEvent) (event : TransferEvent) : List TransferEvent :=
  match event with
  | .progress id progress => (replaceProgress id progress events).getD (events ++ [event])
  | .stateChanged _ _ => events ++ [event]

namespace TransferManager

def emit (manager : TransferManager) (event : TransferEvent) : TransferManager :=
  { manager with state := { manager.state with events := trimEvents (pushEvent manager.state.events event) } }

/-- The order keeps what the jobs still hold. -/
def retainOrder (manager : TransferManager) : TransferManager :=
  { manager with
    state := { manager.state with order := manager.state.order.filter manager.state.jobs.contains } }

end TransferManager

/-- The first finished jobs in the given order are removed, as many as are in excess. -/
def removeFinished : Nat → List TransferId → Table TransferId Job → Table TransferId Job
  | 0, _, jobs => jobs
  | _, [], jobs => jobs
  | excess + 1, id :: rest, jobs =>
    if (jobs.get id).any Job.isFinished then removeFinished excess rest (jobs.erase id)
    else removeFinished (excess + 1) rest jobs

namespace TransferManager

def pruneHistory (manager : TransferManager) : TransferManager :=
  let finished := manager.state.jobs.count Job.isFinished
  (manager.withJobs (removeFinished (finished - manager.config.maxHistory) manager.state.order
    manager.state.jobs)).retainOrder

/-- How many jobs are not finished. -/
def unfinished (manager : TransferManager) : Nat :=
  manager.state.jobs.count fun job => !job.isFinished

/-- The part of `enqueue` that runs under the lock. -/
def insertJob (manager : TransferManager) (request : TransferRequest) (name : FilePath) :
    Except SftpError TransferId × TransferManager :=
  if manager.config.maxQueued ≤ manager.unfinished then
    (.error (.limitExceeded "transfer queue is full"), manager)
  else
    let id := manager.state.nextId + 1
    let job : Job :=
      { info :=
          { id := id
            direction := request.direction
            source := request.source
            destinationDir := request.destinationDir
            name := name
            state := .queued
            progress := ⟨0, none⟩
            leftoverRemoteTemp := none }
        conflictReply := false }
    (.ok id, { manager with
        state :=
          { manager.state with
            nextId := id
            jobs := manager.state.jobs.insert id job
            order := manager.state.order ++ [id] }
        transfers := Function.update manager.transfers id ⟨.announcing, false, .none⟩ })

/-- The client still has its runtime when `connected` holds. -/
def enqueue (manager : TransferManager) (request : TransferRequest) (connected : Bool) :
    Except SftpError TransferId × TransferManager :=
  match request.validate with
  | .error error => (.error error, manager)
  | .ok () =>
    match request.targetName with
    | .error error => (.error error, manager)
    | .ok name =>
      if connected then manager.insertJob request name
      else (.error (.disconnected "client closed"), manager)

def cancel (manager : TransferManager) (id : TransferId) : TransferManager :=
  if manager.state.jobs.contains id then
    manager.setTransfer id { manager.transfers id with cancelled := true }
  else manager

def cancelAll (manager : TransferManager) : TransferManager :=
  { manager with
    transfers := fun id =>
      if manager.state.jobs.contains id then { manager.transfers id with cancelled := true }
      else manager.transfers id }

/-- The sender of a transfer is taken, and the policy sent. -/
def answer (manager : TransferManager) (id : TransferId) (policy : ConflictPolicy) : TransferManager :=
  let transfer := manager.transfers id
  (manager.setTransfer id { transfer with reply := transfer.reply.send policy }).withJobs
    (manager.state.jobs.modify id Job.take)

/-- Every sender is taken, and the policy sent to each. -/
def answerAll (manager : TransferManager) (policy : ConflictPolicy) : TransferManager :=
  { manager with
    transfers := fun id =>
      let transfer := manager.transfers id
      if manager.isWaiting id then { transfer with reply := transfer.reply.send policy }
      else transfer }.withJobs (manager.state.jobs.mapValues fun _ => Job.take)

def setDefaultPolicy (manager : TransferManager) (policy : Option ConflictPolicy) : TransferManager :=
  { manager with state := { manager.state with defaultPolicy := policy } }

/-- With `rememberForRemaining` the policy also resolves every transfer that waits and every later
conflict. -/
def resolveConflict (manager : TransferManager) (id : TransferId) (policy : ConflictPolicy)
    (rememberForRemaining : Bool) : Except SftpError Unit × TransferManager :=
  if manager.isWaiting id then
    (.ok (), if rememberForRemaining then (manager.setDefaultPolicy (some policy)).answerAll policy
      else manager.answer id policy)
  else (.error (.invalidPath "transfer is not waiting on a conflict"), manager)

def pollEvents (manager : TransferManager) : List TransferEvent × TransferManager :=
  (manager.state.events, { manager with state := { manager.state with events := [] } })

def clearFinished (manager : TransferManager) : TransferManager :=
  (manager.withJobs (manager.state.jobs.retain fun _ job => !job.isFinished)).retainOrder

def setState (manager : TransferManager) (id : TransferId) (state : TransferState) (next : Continuation) :
    Stage → TransferManager
  | .record =>
    if manager.state.jobs.contains id then
      (manager.withJobs (manager.state.jobs.modify id fun job => job.setState state)).goTo id
        (.setting .emit state next)
    else manager.goTo id next.point
  | .emit => (manager.emit (.stateChanged id state)).goTo id (.setting .prune state next)
  | .prune => manager.pruneHistory.goTo id next.point

/-- The state that a transfer ends in. -/
def finalState : Except SftpError Outcome → TransferState
  | .ok (.done _) => .completed
  | .ok .skipped => .skipped
  | .error .cancelled => .cancelled
  | .error error => .failed error

/-- The work on the files is over: the permit goes back, and so does what is left of a channel. -/
def finishWork (manager : TransferManager) (id : TransferId) (result : Except SftpError Outcome) :
    TransferManager :=
  { manager with permits := manager.permits + 1 }.setTransfer id
    { manager.transfers id with
      point := .setting .record (finalState result) .finish
      reply := .none }

/-- The part of `policy_for` that runs under the lock. -/
def policyFor (manager : TransferManager) (id : TransferId) (conflict : Conflict) : TransferManager :=
  match manager.state.defaultPolicy with
  | some policy => manager.goTo id (.working (some policy))
  | none =>
    if manager.state.jobs.contains id then
      (manager.withJobs (manager.state.jobs.modify id Job.register)).setTransfer id
        { manager.transfers id with
          point := .setting .record (.awaitingConflict conflict) .await
          reply := .pending }
    else manager.finishWork id (.error .cancelled)

/-- The poll of the receiver, after no cancellation was found. -/
def receive (manager : TransferManager) (id : TransferId) : TransferManager :=
  match (manager.transfers id).reply with
  | .answered policy =>
    manager.setTransfer id
      { manager.transfers id with
        point := .setting .record .running (.work (some policy))
        reply := .none }
  | .closed => manager.finishWork id (.error .cancelled)
  | .pending | .none => manager.goTo id .awaiting

/-- The next step of a transfer, where it is not up to its work on the files. -/
def advance (manager : TransferManager) (id : TransferId) : Option TransferManager :=
  match (manager.transfers id).point with
  | .absent | .working _ | .ended => none
  | .announcing => some ((manager.emit (.stateChanged id .queued)).goTo id .acquiring)
  | .acquiring =>
    some (manager.goTo id
      (if (manager.transfers id).cancelled then .setting .record .cancelled .finish else .admitting))
  | .admitting =>
    some (if manager.permits = 0 then manager.goTo id .acquiring
      else { manager with permits := manager.permits - 1 }.goTo id
        (.setting .record .running (.work none)))
  | .setting stage state next => some (manager.setState id state next stage)
  | .reporting policy progress => some ((manager.emit (.progress id progress)).goTo id (.working policy))
  | .awaiting =>
    some (if (manager.transfers id).cancelled then manager.finishWork id (.error .cancelled)
      else manager.goTo id .receiving)
  | .receiving => some (manager.receive id)

end TransferManager

/-- What the work on the files comes to next. -/
inductive TransferWork where
  | conflict (conflict : Conflict)
  | update (update : InfoUpdate)
  | report (progress : Progress)
  | result (result : Except SftpError Outcome)

namespace TransferManager

def updateInfo (manager : TransferManager) (id : TransferId) (update : TransferInfo → TransferInfo) :
    TransferManager :=
  manager.withJobs (manager.state.jobs.modify id fun job => { job with info := update job.info })

/-- A step of the work on the files. It meets one conflict at most, and ends at once when it is to skip. -/
def work (manager : TransferManager) (id : TransferId) (policy : Option ConflictPolicy) :
    TransferWork → Option TransferManager
  | .conflict conflict => if policy = none then some (manager.policyFor id conflict) else none
  | .update update =>
    if policy = some .skip then none else some (manager.updateInfo id fun info => update.apply info)
  | .report progress =>
    if policy = some .skip then none
    else some ((manager.updateInfo id fun info => { info with progress := progress }).goTo id
      (.reporting policy progress))
  | .result (.ok .skipped) =>
    if policy = some .skip then some (manager.finishWork id (.ok .skipped)) else none
  | .result result => if policy = some .skip then none else some (manager.finishWork id result)

end TransferManager

/-- A call of the manager or a step of a transfer. -/
inductive QueueAction where
  | enqueue (request : TransferRequest) (connected : Bool)
  | cancel (id : TransferId)
  | cancelAll
  | resolveConflict (id : TransferId) (policy : ConflictPolicy) (rememberForRemaining : Bool)
  | setDefaultPolicy (policy : Option ConflictPolicy)
  | pollEvents
  | clearFinished
  | advance (id : TransferId)
  | work (id : TransferId) (work : TransferWork)

namespace TransferManager

def step (manager : TransferManager) : QueueAction → Option TransferManager
  | .enqueue request connected => some (manager.enqueue request connected).2
  | .cancel id => some (manager.cancel id)
  | .cancelAll => some manager.cancelAll
  | .resolveConflict id policy remember => some (manager.resolveConflict id policy remember).2
  | .setDefaultPolicy policy => some (manager.setDefaultPolicy policy)
  | .pollEvents => some manager.pollEvents.2
  | .clearFinished => some manager.clearFinished
  | .advance id => manager.advance id
  | .work id work =>
    match (manager.transfers id).point with
    | .working policy => manager.work id policy work
    | _ => none

end TransferManager

end FesTerm
