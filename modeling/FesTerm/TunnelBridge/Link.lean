import FesTerm.Sessiond.ClientWorker
import FesTerm.TunnelBridge.Reclaim

/-!
# A client and its host

`serve_with_reclaim` on one stream, and the client at its other end: `client_io_with_files` of the desktop with the
`PersistentSession` that reads what it writes, or `establish` and `run` of the portable client. A frame that was
written is delivered, in its order. Any step of any of them may come next, and reading or writing may fail at any
time; what the terminal is sent is of no interest here.
-/

namespace FesTerm.TunnelBridge

/-- Which of the two clients. -/
inductive ClientKind where
  | desktop
  | portable
  deriving DecidableEq

inductive HostFrame where
  | capabilities (read windows : Bool)
  | snapshot
  /-- Output, a change of size or a command for the mirror. -/
  | event
  | refused
  | displaced (code : UInt8)
  | exited
  deriving DecidableEq

inductive ClientFrame where
  | adopted
  | command
  | detach
  deriving DecidableEq

/-- What `client_io_with_files` writes for the session of the desktop. -/
inductive SessionFrame where
  | snapshot
  | event
  | stolen
  | exited
  deriving DecidableEq

/-- Why the host ends the attachment. -/
inductive Reason where
  | refused
  | displaced (displacer : Displacer)
  | exited
  deriving DecidableEq

/-- How the session or the handshake of the client has ended. -/
inductive Report where
  | refused
  | displaced (displacer : Option Displacer)
  | exited
  /-- The user detached or cancelled. -/
  | detached
  | lost
  | protocol
  deriving DecidableEq

/-- A report that does the reason justice. -/
def Report.fits : Report → Reason → Bool
  | .detached, _ => true
  | .refused, .refused | .displaced _, .refused => true
  | .displaced found, .displaced displacer => found.all (· = displacer)
  | .exited, .exited => true
  | _, _ => false

def HostFrame.reason : HostFrame → Option Reason
  | .refused => some .refused
  | .displaced code => some (.displaced ((Displacer.fromCode code).getD .unknown))
  | .exited => some .exited
  | _ => none

def SessionFrame.isLast : SessionFrame → Bool
  | .stolen | .exited => true
  | _ => false

inductive HostPoint where
  | waiting
  /-- CAPABILITIES are written. -/
  | admitting
  | attached
  /-- The snapshot is written. -/
  | offered
  | running
  | ended
  deriving DecidableEq

/-- Where `client_io_with_files` is, or `establish` and `run`. -/
inductive ClientPoint where
  | greeting
  | admitted
  /-- The portable client has the snapshot, and the application has not adopted it. -/
  | adopting
  | running
  | ended
  deriving DecidableEq

/-- The worker of the desktop's session. -/
inductive SessionPoint where
  /-- It reads the header of the snapshot. -/
  | recovering
  /-- It has read something else, which is shorter than the header. -/
  | garbled
  | running
  deriving DecidableEq

/-- Host and client, with the frames between them. -/
structure Link where
  kind : ClientKind
  host : Host
  hello : Hello
  hostPoint : HostPoint
  toClient : List HostFrame
  toHost : List ClientFrame
  point : ClientPoint
  commands : List ClientFrame
  -- The session of the desktop.
  output : List SessionFrame
  session : SessionPoint
  report : Option Report
  -- What is remembered: the reason that the host has written to a client that was there.
  told : Option Reason

/-- A step of one side. -/
inductive LinkAction where
  -- The host.
  | accept
  | admitClient (admitted : Bool)
  | offer
  | hostRead
  | event
  | displace (displacer : Displacer)
  | exit
  | hostFail
  -- The client.
  | read
  | write
  | fail
  | cancel
  -- The session of the desktop, and the application.
  | sessionRead
  | command (frame : ClientFrame)
  deriving DecidableEq

namespace Link

/-- The portable client asks for no files. -/
def start (kind : ClientKind) (host : Host) (hello : Hello) : Link where
  kind := kind
  host := host
  hello := if kind = .portable then { hello with files := { read := false, windowsPaths := false } } else hello
  hostPoint := .waiting
  toClient := []
  toHost := []
  point := .greeting
  commands := []
  output := []
  session := .recovering
  report := none
  told := none

def hostWrite (link : Link) (frame : HostFrame) : Link :=
  if link.point = .ended then link
  else { link with
    toClient := link.toClient ++ [frame]
    told := frame.reason.orElse fun _ => link.told }

def say (link : Link) (frame : HostFrame) : Link := { link.hostWrite frame with hostPoint := .ended }

def accept (link : Link) : Link :=
  if link.host.accepts link.hello then
    { link.hostWrite (.capabilities link.hello.files.read link.host.windows) with hostPoint := .admitting }
  else link.say .refused

def admitClient (link : Link) (admitted : Bool) : Link :=
  if admitted then { link with hostPoint := .attached } else link.say .refused

def hostRead (link : Link) : Option Link :=
  match link.toHost, link.hostPoint with
  | frame :: frames, .offered =>
    some { link with toHost := frames, hostPoint := if frame = .adopted then .running else .ended }
  | frame :: frames, .running =>
    some { link with toHost := frames, hostPoint := if frame = .command then .running else .ended }
  | _, _ => none

/-- The client ends. What it reports is the portable client's result; the desktop's session reads its output first. -/
def finish (link : Link) (report : Report) : Link :=
  { link with
    point := .ended
    report := if link.kind = .portable then some report else link.report }

def forward (link : Link) (frame : SessionFrame) : Link :=
  if link.kind = .desktop then { link with output := link.output ++ [frame] } else link

/-- The two bytes of CAPABILITIES are what was asked for. -/
def capable (link : Link) (read windows : Bool) : Bool :=
  match link.kind with
  | .desktop => read = link.hello.files.read && (!link.hello.files.read || windows = link.hello.files.windowsPaths)
  | .portable => !read

/-- A frame that the client takes from the stream. -/
def take (link : Link) (frame : HostFrame) : Link :=
  match link.point, frame with
  | .greeting, .refused => (link.forward .stolen).finish .refused
  | .greeting, .capabilities read windows =>
    if link.capable read windows then { link with point := .admitted } else link.finish .protocol
  | .greeting, _ => link.finish .protocol
  | .admitted, .snapshot =>
    { link.forward .snapshot with point := if link.kind = .desktop then .running else .adopting }
  -- The desktop does not look for a refusal here.
  | .admitted, .refused => link.finish .refused
  | .admitted, _ => link.finish .protocol
  | .running, .event => link.forward .event
  | .running, .exited => (link.forward .exited).finish .exited
  | .running, .displaced code =>
    (link.forward .stolen).finish (.displaced (some ((Displacer.fromCode code).getD .unknown)))
  | .running, _ => link.finish .lost
  | _, _ => link

/-- The next frame. The portable client reads none before the snapshot is adopted. -/
def read (link : Link) : Option Link :=
  match link.toClient with
  | [] => none
  | frame :: frames =>
    if link.point = .adopting ∨ link.point = .ended then none
    else some (take { link with toClient := frames } frame)

/-- A command of the application is written to the host. -/
def write (link : Link) : Option Link :=
  match link.commands, link.point with
  | frame :: commands, .running =>
    let link := { link with commands, toHost := link.toHost ++ [frame] }
    some (if frame = .detach then link.finish .detached else link)
  | frame :: commands, .adopting =>
    match frame with
    | .adopted => some { link with commands, toHost := link.toHost ++ [.adopted], point := .running }
    | .detach => some ({ link with commands }.finish .detached)
    | .command => some { link with commands }
  | _, _ => none

def endSession (link : Link) (report : Report) : Link := { link with point := .ended, report := some report }

def sessionTake (link : Link) (frame : SessionFrame) : Link :=
  match link.session, frame with
  | .recovering, .snapshot => { link with session := .running }
  | .recovering, _ => { link with session := .garbled }
  | .garbled, _ => link
  | .running, .stolen => link.endSession (.displaced none)
  | .running, .exited => link.endSession .exited
  | .running, _ => link

/-- The next frame, or the end of the output, which is a lost connection. -/
def sessionRead (link : Link) : Option Link :=
  match link.kind, link.report, link.output with
  | .desktop, none, frame :: frames => some (sessionTake { link with output := frames } frame)
  | .desktop, none, [] => if link.point = .ended then some (link.endSession .lost) else none
  | _, _, _ => none

/-- A command is handed to the client. The session of the desktop meets a broken pipe when its client has ended. -/
def command (link : Link) (frame : ClientFrame) : Option Link :=
  match link.kind, link.report with
  | .desktop, none =>
    if link.session ≠ .running ∨ frame = .detach then none
    else if link.point = .ended then some (link.endSession .lost)
    else some { link with commands := link.commands ++ [frame] }
  | .portable, none => some { link with commands := link.commands ++ [frame] }
  | _, _ => none

/-- What a step does; none where its side is not at it. -/
def step (link : Link) : LinkAction → Option Link
  | .accept => if link.hostPoint = .waiting then some link.accept else none
  | .admitClient admitted => if link.hostPoint = .admitting then some (link.admitClient admitted) else none
  | .offer => if link.hostPoint = .attached then some { link.hostWrite .snapshot with hostPoint := .offered } else none
  | .hostRead => link.hostRead
  | .event => if link.hostPoint = .running then some (link.hostWrite .event) else none
  | .displace displacer => if link.hostPoint = .running then some (link.say (.displaced displacer.code)) else none
  | .exit => if link.hostPoint = .running then some (link.say .exited) else none
  | .hostFail => some { link with hostPoint := .ended }
  | .read => link.read
  | .write => link.write
  | .fail => if link.point = .ended then none else some (link.finish .lost)
  | .cancel => if link.report.isSome then none else some (link.endSession .detached)
  | .sessionRead => link.sessionRead
  | .command frame => link.command frame

/-- What the host says to the client is read: the desktop is not refused; no read, write or deadline of a client
fails, and its session writes to no client that has ended, before the last frame of the host was read. -/
def Allows (link : Link) : LinkAction → Prop
  | .accept => link.kind = .desktop → link.host.accepts link.hello
  | .admitClient admitted => link.kind = .desktop → admitted
  | .fail => ∀ frame ∈ link.toClient, frame.reason = none
  | .command _ => link.point = .ended → ∀ frame ∈ link.output, frame.isLast = false
  | _ => True

instance (link : Link) (action : LinkAction) : Decidable (link.Allows action) := by
  unfold Allows
  cases action <;> infer_instance

/-- A refusal, a displacement or an exit is reported as what it is. -/
structure ReportsReason (link : Link) : Prop where
  fits : ∀ reason ∈ link.told, ∀ report ∈ link.report, report.fits reason
  /-- Until it is reported, there is something to read. -/
  reads : link.told.isSome → link.report = none → link.read.isSome ∨ link.sessionRead.isSome

end Link

end FesTerm.TunnelBridge
