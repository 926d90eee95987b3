import FesTerm.TunnelBridge.Protocol

/-!
# Who holds the attachment

The record that the connections of one bridge share of the client tab that holds the live attachment (`Holder` in
`transport.rs`), how `serve_with_reclaim` uses it when it checks a HELLO, and the daemon, which lets one client in
at a time and replaces the attached one when the new one has adopted its snapshot. A connection may end at any
time. What a run remembers besides, no code reads.
-/

namespace FesTerm.TunnelBridge

abbrev Holder := Option (ClientId × Nat)

namespace Holder

def is (holder : Holder) (client : ClientId) : Bool := holder.any (·.1 = client)

def claim (client : Option ClientId) (token : Nat) : Holder := client.map (·, token)

/-- `HolderGuard::drop`. -/
def release (holder : Holder) (token : Nat) : Holder := if holder.any (·.2 = token) then none else holder

end Holder

/-- What the connections of a bridge share, apart from the record. -/
structure Host where
  target : Target
  takeover : Bool
  allowsRead : Bool
  windows : Bool

namespace Host

/-- The host of the examples. -/
def reference : Host where
  target := { name := ['s'], pid := 7, generation := ['9'] }
  takeover := true
  allowsRead := false
  windows := false

def accepts (host : Host) (hello : Hello) : Bool :=
  hello.version = version && hello.snapshotSchema = snapshotSchema && hello.target = host.target &&
    !(hello.files.read && (!host.allowsRead || hello.files.windowsPaths != host.windows))

def reclaims (host : Host) (holder : Holder) (hello : Hello) : Bool :=
  host.takeover && hello.client.any holder.is

def grantsTakeover (host : Host) (holder : Holder) (hello : Hello) : Bool :=
  host.takeover && hello.takeover || host.reclaims holder hello

end Host

/-- Where `serve_with_reclaim` is. -/
inductive Stage where
  | waiting
  | greeted (takeover : Bool)
  | attached
  /-- It has the guard with a token. -/
  | holding (token : Nat)
  | ended
  deriving DecidableEq

structure Connection where
  stage : Stage
  client : Option ClientId
  /-- The client has adopted the snapshot, and the daemon is told. -/
  acknowledged : Bool
  -- What the daemon made of its attachment.
  adopted : Bool
  retired : Bool

inductive AttachedClient where
  /-- A connection of this bridge. -/
  | bridge (connection : Nat)
  /-- A local client, or one of another bridge. -/
  | other (client : Nat)
  deriving DecidableEq

/-- A takeover that was granted only because the client was recorded. -/
structure ReclaimGrant where
  client : ClientId
  /-- The daemon's attachment when the HELLO was checked. -/
  active : Option AttachedClient

/-- The connections of a bridge, the record of the holder, and the daemon. -/
structure Bridge where
  host : Host
  connections : Nat → Connection
  holder : Holder
  nextToken : Nat
  -- The daemon: the client whose adoption it waits for, and the attached one.
  pending : Option AttachedClient
  active : Option AttachedClient
  -- What is remembered: the connections that have claimed the record, and the grants.
  owner : Nat → Nat
  grants : List ReclaimGrant

/-- A step of a connection or of the daemon. -/
inductive BridgeAction where
  | hello (connection : Nat) (hello : Hello)
  | request (connection : Nat)
  | claim (connection : Nat)
  | acknowledge (connection : Nat)
  | finish (connection : Nat)
  -- The daemon, and the clients of others.
  | attach (client : Nat) (takeover : Bool)
  | adopt
  | abandon
  | leave

namespace Bridge

/-- No connection has spoken. -/
def start (host : Host) : Bridge where
  host := host
  connections _ := { stage := .waiting, client := none, acknowledged := false, adopted := false, retired := false }
  holder := none
  nextToken := 1
  pending := none
  active := none
  owner _ := 0
  grants := []

def setConnection (bridge : Bridge) (id : Nat) (connection : Connection) : Bridge :=
  { bridge with connections := Function.update bridge.connections id connection }

def setStage (bridge : Bridge) (id : Nat) (stage : Stage) : Bridge :=
  bridge.setConnection id { bridge.connections id with stage }

/-- The check of a HELLO. A client that is refused, or whose takeover is not allowed, ends here or is let in by
the daemon only if no client is attached. -/
def greet (bridge : Bridge) (id : Nat) (hello : Hello) : Bridge :=
  if bridge.host.accepts hello then
    let greeted := bridge.setConnection id { bridge.connections id with
      stage := .greeted (bridge.host.grantsTakeover bridge.holder hello), client := hello.client }
    match hello.client with
    | some client =>
      if bridge.host.reclaims bridge.holder hello ∧ ¬ (bridge.host.takeover ∧ hello.takeover) then
        { greeted with grants := { client, active := bridge.active } :: bridge.grants }
      else greeted
    | none => greeted
  else bridge.setStage id .ended

/-- `admit_client`: an attached client keeps its place unless a takeover was granted. -/
def lets (bridge : Bridge) (takeover : Bool) : Bool := takeover || bridge.active.isNone

/-- `retire_active`. -/
def retire (bridge : Bridge) : Option AttachedClient → Bridge
  | some (.bridge id) => bridge.setConnection id { bridge.connections id with retired := true }
  | _ => bridge

def markAdopted (bridge : Bridge) : AttachedClient → Bridge
  | .bridge id => bridge.setConnection id { bridge.connections id with adopted := true }
  | .other _ => bridge

def finish (bridge : Bridge) (id : Nat) : Bridge :=
  match (bridge.connections id).stage with
  | .holding token => { bridge.setStage id .ended with holder := bridge.holder.release token }
  | _ => bridge.setStage id .ended

/-- The client has acknowledged its snapshot. -/
def ready (bridge : Bridge) : AttachedClient → Bool
  | .bridge id => (bridge.connections id).acknowledged
  | .other _ => true

/-- What a step does; none where it is not due. -/
def step (bridge : Bridge) : BridgeAction → Option Bridge
  | .hello id hello =>
    match (bridge.connections id).stage with
    | .waiting => some (bridge.greet id hello)
    | _ => none
  | .request id =>
    match (bridge.connections id).stage, bridge.pending with
    | .greeted takeover, none =>
      some (if bridge.lets takeover then { bridge.setStage id .attached with pending := some (.bridge id) }
        else bridge.setStage id .ended)
    | _, _ => none
  | .claim id =>
    match (bridge.connections id).stage with
    | .attached =>
      some { bridge.setStage id (.holding bridge.nextToken) with
        holder := .claim (bridge.connections id).client bridge.nextToken
        nextToken := bridge.nextToken + 1
        owner := Function.update bridge.owner bridge.nextToken id }
    | _ => none
  | .acknowledge id =>
    match (bridge.connections id).stage with
    | .holding _ => some (bridge.setConnection id { bridge.connections id with acknowledged := true })
    | _ => none
  | .finish id => some (bridge.finish id)
  | .attach client takeover =>
    if bridge.pending.isNone ∧ bridge.lets takeover then some { bridge with pending := some (.other client) }
    else none
  | .adopt =>
    match bridge.pending with
    | some client =>
      if bridge.ready client then
        some { (bridge.retire bridge.active).markAdopted client with pending := none, active := some client }
      else none
    | none => none
  | .abandon => bridge.pending.map fun client => { bridge.retire (some client) with pending := none }
  | .leave => bridge.active.map fun client => { bridge.retire (some client) with active := none }

/-- A HELLO is checked only while the recorded connection has been adopted by the daemon and not been retired. -/
def Allows (bridge : Bridge) : BridgeAction → Prop
  | .hello _ _ => ∀ record ∈ bridge.holder, (bridge.connections (bridge.owner record.2)).adopted = true ∧
      (bridge.connections (bridge.owner record.2)).retired = false
  | _ => True

instance (bridge : Bridge) (action : BridgeAction) : Decidable (bridge.Allows action) := by
  unfold Allows
  cases action <;> infer_instance

/-- A client that was taken over from does not reclaim. -/
structure KeepsHolder (bridge : Bridge) : Prop where
  /-- A client that is granted takeover because it is recorded has the daemon's attachment. -/
  grants : ∀ grant ∈ bridge.grants, ∃ id, grant.active = some (.bridge id) ∧
    (bridge.connections id).client = some grant.client
  /-- A connection that ends leaves the record of another one. -/
  records : ∀ id other client token next, bridge.step (.finish id) = some next → other ≠ id →
    (bridge.connections other).stage = .holding token → bridge.holder = some (client, token) →
      next.holder = bridge.holder

end Bridge

end FesTerm.TunnelBridge
