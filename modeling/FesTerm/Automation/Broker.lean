import FesTerm.Automation.Types
import FesTerm.Lib.Procedure

/-!
# The state of the automation broker

The records of `broker.rs` and `presentation.rs`, and what both files ask of them. A map is a table whose
entries stand in the order of their keys, because every key that is inserted was minted last.
-/

namespace FesTerm.Automation

open Procedure

structure Usage where
  operations : Nat
  bytes : Nat
  deriving DecidableEq

def Usage.zero : Usage where
  operations := 0
  bytes := 0

inductive GrantSlot where
  | ordinary
  | metadata
  | enrollmentMetadata (registration : ControllerRegistrationId) (enrollment : ControllerEnrollmentId)
  deriving DecidableEq

structure ControllerEnrollment where
  id : ControllerEnrollmentId
  target : TargetRef
  deriving DecidableEq

structure EnrollmentCrossConsent where
  ordinaryEpoch : Nat
  metadataEpoch : Nat
  sinks : Finset TargetRef
  deriving DecidableEq

structure Grant where
  epoch : Nat
  request : GrantRequest
  handoffs : Handoffs
  expires : Instant
  usage : Usage
  deriving DecidableEq

structure MetadataGrant where
  epoch : Nat
  targets : Finset TargetRef
  expires : Instant
  usage : Usage
  deriving DecidableEq

structure PresentationGrant where
  enrollment : ControllerEnrollmentId
  target : TargetRef
  epoch : Nat
  expires : Instant
  attempts : Nat
  deriving DecidableEq

structure ControllerRegistration where
  localId : List UInt8
  revision : Nat
  enrollment : Option ControllerEnrollment
  presentationReview : Option Nat
  presentationGrant : Option PresentationGrant
  metadataReview : Option Nat
  metadataDecision : Option EnrollmentMetadataDecision
  metadataGrant : Option MetadataGrant
  metadataCrossConsent : Option EnrollmentCrossConsent
  deriving DecidableEq

abbrev Registrations := Table ControllerRegistrationId ControllerRegistration

structure Principal where
  grant : Option Grant
  metadata : Option MetadataGrant
  revisions : GrantRevisions
  crossConsent : Option (Nat × Nat)
  usage : Usage
  approvalsRequested : Nat
  controllerRegistrations : Registrations
  deriving DecidableEq

namespace Principal

def hasAnyGrant (principal : Principal) : Bool :=
  principal.grant.isSome || principal.metadata.isSome ||
    principal.controllerRegistrations.entries.any fun entry => entry.2.metadataGrant.isSome

def controls (principal : Principal) : Finset TargetRef :=
  (principal.grant.map fun grant => grant.request.scope.control).getD ∅

def enrollmentMetadataSources (principal : Principal) (connection : ConnectionId) :
    List NativeEnrollmentMetadataGrant :=
  principal.controllerRegistrations.entries.filterMap fun entry => do
    let enrollment ← entry.2.enrollment
    let grant ← entry.2.metadataGrant
    return { connection, registration := entry.1, enrollment := enrollment.id, target := enrollment.target,
             epoch := grant.epoch, expires := grant.expires }

def modifyRegistration (principal : Principal) (registration : ControllerRegistrationId)
    (f : ControllerRegistration → ControllerRegistration) : Principal :=
  { principal with controllerRegistrations := principal.controllerRegistrations.modify registration f }

/-- The epochs of the grants that the principal holds. -/
def epochs (principal : Principal) : Finset Nat :=
  (principal.grant.map (·.epoch)).toFinset ∪ (principal.metadata.map (·.epoch)).toFinset ∪
    (principal.controllerRegistrations.entries.filterMap fun entry =>
      entry.2.metadataGrant.map (·.epoch)).toFinset

end Principal

inductive PendingProposal where
  | ordinary (request : GrantRequest)
  | metadata (request : MetadataGrantRequest)
  | enrollmentMetadata (registration : ControllerRegistrationId) (enrollment : ControllerEnrollmentId)
    (target : TargetRef)
  deriving DecidableEq

namespace PendingProposal

def slot : PendingProposal → GrantSlot
  | ordinary _ => .ordinary
  | metadata _ => .metadata
  | enrollmentMetadata registration enrollment _ => .enrollmentMetadata registration enrollment

end PendingProposal

structure PendingApproval where
  connection : ConnectionId
  proposal : PendingProposal
  expires : Instant
  ownership : Ownership
  revisions : GrantRevisions
  deriving DecidableEq

structure Target where
  reference : TargetRef
  active : Bool
  ownershipEpoch : Nat
  writer : Option LeaseRef
  deriving DecidableEq

/-- Its two delivery flags are the ones that its identity names. -/
structure Run where
  connection : ConnectionId
  slot : GrantSlot
  grantEpoch : Nat
  parent : Option RunId
  spec : RunSpec
  frozenSources : Finset TargetRef
  frozenControls : Finset TargetRef
  usage : Usage
  status : RunStatus
  startedWorkflow : Option (StartKey × RunId)
  directInputPrepared : Bool
  deriving DecidableEq

/-- What `cut` does to a run that it affects: only a running one changes its state. -/
def Run.leave (run : Run) (state : RunState) (failure : Option Error) : Run :=
  if run.status.state = .running then { run with status := { run.status with state := state, failure := failure } }
  else run

structure Request where
  run : RunId
  operation : Operation
  committed : Bool
  deriving DecidableEq

structure StartReceipt where
  grantEpoch : Nat
  spec : RunSpec
  run : RunId
  deriving DecidableEq

structure Monitor where
  id : PresentationMonitorId
  transitions : Nat
  samples : Nat
  deriving DecidableEq

inductive Phase where
  | prepared
  | waiting (afterSample : Nat)
  | confirmed (revision : PresentationRevision) (transitions workspaceRevision lastSample : Nat)
  deriving DecidableEq

def Phase.isConfirmed : Phase → Bool
  | confirmed .. => true
  | _ => false

structure Slot where
  attempt : PresentationAttempt
  registration : ControllerRegistrationId
  enrollment : ControllerEnrollmentId
  grantEpoch : Nat
  grantExpires : Instant
  monitor : PresentationMonitorId
  phase : Phase
  deriving DecidableEq

structure PresentationState where
  monitor : Option Monitor
  slot : Option Slot
  attempts : Nat
  deriving DecidableEq

/-- `cleared` are the liveness flags that were set to false, wherever the handles to them are. -/
structure Broker where
  applicationInstance : Instance
  sequence : Nat
  limits : Limits
  usage : Usage
  approvalsRequested : Nat
  principals : Table ConnectionId Principal
  pending : Table ApprovalId PendingApproval
  targets : Table Nat Target
  forgottenGeneration : Option Nat
  runs : Table RunId Run
  requests : Table RequestId Request
  starts : Table (ConnectionId × StartKey) StartReceipt
  presentation : PresentationState
  cleared : Finset Flag

/-- What a method on `&mut self` does that may fail. -/
abbrev Command := Procedure Broker Error

def Limits.atMost (limits ceiling : Limits) : Limits where
  connections := min limits.connections ceiling.connections
  targets := min limits.targets ceiling.targets
  controllerRegistrations := min limits.controllerRegistrations ceiling.controllerRegistrations
  controllerRegistrationsPerConnection :=
    min limits.controllerRegistrationsPerConnection ceiling.controllerRegistrationsPerConnection
  retainedRuns := min limits.retainedRuns ceiling.retainedRuns
  globalOperations := min limits.globalOperations ceiling.globalOperations
  globalDisclosedBytes := min limits.globalDisclosedBytes ceiling.globalDisclosedBytes

namespace Broker

def withLimits (applicationInstance : Instance) (limits : Limits) : Broker where
  applicationInstance := applicationInstance
  sequence := 0
  limits := limits.atMost .default
  usage := .zero
  approvalsRequested := 0
  principals := .empty
  pending := .empty
  targets := .empty
  forgottenGeneration := none
  runs := .empty
  requests := .empty
  starts := .empty
  presentation := { monitor := none, slot := none, attempts := 0 }
  cleared := ∅

def issue (broker : Broker) : Broker := { broker with sequence := broker.sequence + 1 }

/-- The next number, which nothing was named by before. -/
def mint : Command Nat := do
  ask fun broker => refuse (maxU64 ≤ broker.sequence) .quotaExceeded
  change issue
  ask fun broker => .ok broker.sequence

def epochsOf (principals : Table ConnectionId Principal) : Finset Nat :=
  (principals.entries.map fun entry => entry.2.epochs).foldr (· ∪ ·) ∅

def epochs (broker : Broker) : Finset Nat := epochsOf broker.principals

def modifyPrincipal (broker : Broker) (connection : ConnectionId) (f : Principal → Principal) : Broker :=
  { broker with principals := broker.principals.modify connection f }

def modifyRegistration (broker : Broker) (connection : ConnectionId) (registration : ControllerRegistrationId)
    (f : ControllerRegistration → ControllerRegistration) : Broker :=
  broker.modifyPrincipal connection (·.modifyRegistration registration f)

/-- The principals become these, and a grant that none of them holds any more is dropped. -/
def withPrincipals (broker : Broker) (principals : Table ConnectionId Principal) : Broker :=
  { broker with
    principals := principals
    cleared := broker.cleared ∪ (broker.epochs \ epochsOf principals).image .grant }

/-- `principals.get(&connection).ok_or(Error::Unauthorized)` -/
def principal (broker : Broker) (connection : ConnectionId) : Except Error Principal :=
  okOr (broker.principals.get connection) .unauthorized

def registrationOf (broker : Broker) (connection : ConnectionId) (registration : ControllerRegistrationId) :
    Option ControllerRegistration :=
  (broker.principals.get connection).bind (·.controllerRegistrations.get registration)

def registration (broker : Broker) (connection : ConnectionId) (registration : ControllerRegistrationId) :
    Except Error ControllerRegistration :=
  okOr (broker.registrationOf connection registration) .unauthorized

def target (broker : Broker) (reference : TargetRef) : Except Error Target :=
  okOr ((broker.targets.get reference.session).filter fun target => target.active ∧ target.reference = reference)
    .staleTarget

/-- `target` finds the reference. -/
def Attached (broker : Broker) (reference : TargetRef) : Prop :=
  ((broker.targets.get reference.session).filter fun target =>
    target.active ∧ target.reference = reference).isSome

instance (broker : Broker) (reference : TargetRef) : Decidable (broker.Attached reference) :=
  inferInstanceAs (Decidable (_ = true))

/-- `self.target(target)?` for each of several targets. -/
def attached (broker : Broker) (targets : Finset TargetRef) : Except Error Unit :=
  refuse (¬ ∀ target ∈ targets, broker.Attached target) .staleTarget

def resolveControllerEnrollment (broker : Broker) (connection : ConnectionId)
    (registration : ControllerRegistrationId) (enrollment : ControllerEnrollmentId) : Except Error TargetRef := do
  let association ← okOr (((broker.registrationOf connection registration).bind (·.enrollment)).filter
    fun association => association.id = enrollment) .unauthorized
  let _ ← broker.target association.target
  return association.target

/-- The run, its parent and so on; no run is older than its parent, so the chain is not longer than there
are runs. -/
def lineageWithin (runs : Table RunId Run) : Nat → RunId → List RunId
  | 0, _ => []
  | fuel + 1, id =>
    match runs.get id with
    | none => []
    | some run =>
      match run.parent with
      | some parent => id :: lineageWithin runs fuel parent
      | none => [id]

def lineage (broker : Broker) (id : RunId) : List RunId :=
  lineageWithin broker.runs broker.runs.entries.length id

def descendants (broker : Broker) (id : RunId) : List RunId :=
  (broker.runs.entries.map Prod.fst).filter fun candidate => id ∈ broker.lineage candidate

def clearSlot (broker : Broker) : Broker :=
  { broker with presentation := { broker.presentation with slot := none } }

def clearSlotWhere (broker : Broker) (condition : Slot → Bool) : Broker :=
  if broker.presentation.slot.any condition then broker.clearSlot else broker

def cancelPresentationForConnection (broker : Broker) (connection : ConnectionId) : Broker :=
  broker.clearSlotWhere fun slot => slot.attempt.connection = connection

def cancelPresentationForRegistration (broker : Broker) (connection : ConnectionId)
    (registration : ControllerRegistrationId) : Broker :=
  broker.clearSlotWhere fun slot => slot.attempt.connection = connection ∧ slot.registration = registration

def expirePresentations (broker : Broker) (now : Instant) : Broker :=
  let broker := { broker with
    principals := broker.principals.mapValues fun _ principal =>
      { principal with
        controllerRegistrations := principal.controllerRegistrations.mapValues fun _ record =>
          { record with presentationGrant := record.presentationGrant.filter fun grant => now < grant.expires } } }
  broker.clearSlotWhere fun slot =>
    slot.grantExpires ≤ now ∨ (slot.phase.isConfirmed = false ∧ slot.attempt.deadline ≤ now)

end Broker

end FesTerm.Automation
