import FesTerm.Lib.Table

/-!
# What the automation broker is asked and answers

`types.rs` and the host-side records of `presentation.rs` and `enrollment_metadata.rs`. A set of targets
is a `Finset`, an array of bytes that is only compared is the bit vector of its width, and the shared
flags of a disclosure are named by what they belong to.
-/

namespace FesTerm.Automation

abbrev Instance := BitVec 128
abbrev Digest := BitVec 256
abbrev StartKey := BitVec 128

/-- Time on the clock of the broker. -/
abbrev Instant := Nat
abbrev Duration := Nat

def seconds (count : Nat) : Duration := count * 10 ^ 9

/-- `Instant::checked_add`, over a clock with 64-bit signed seconds. -/
def checkedAdd (now : Instant) (duration : Duration) : Option Instant :=
  if now + duration < seconds (2 ^ 63) then some (now + duration) else none

def maxU64 : Nat := 2 ^ 64 - 1

def maxGrantLifetime : Duration := seconds 300
def maxInputBytes : Nat := 16384
def maxScopeTargets : Nat := 32

structure RunId where
  applicationInstance : Instance
  sequence : Nat
  deriving DecidableEq

structure RequestId where
  applicationInstance : Instance
  sequence : Nat
  deriving DecidableEq

/-- The number of a request that waits for the user. -/
structure ApprovalId where
  applicationInstance : Instance
  sequence : Nat
  deriving DecidableEq

/-- The number of a principal. -/
structure ConnectionId where
  applicationInstance : Instance
  sequence : Nat
  deriving DecidableEq

structure ControllerRegistrationId where
  applicationInstance : Instance
  sequence : Nat
  deriving DecidableEq

/-- The number of an enrolment. -/
structure ControllerEnrollmentId where
  applicationInstance : Instance
  sequence : Nat
  deriving DecidableEq

structure TargetRef where
  applicationInstance : Instance
  session : Nat
  generation : Nat
  deriving DecidableEq

structure PresentationWindowId where
  host : Nat
  deriving DecidableEq

structure PresentationRevision where
  applicationInstance : Instance
  sequence : Nat
  deriving DecidableEq

structure PresentationMonitorId where
  applicationInstance : Instance
  sequence : Nat
  deriving DecidableEq

structure LeaseRef where
  target : TargetRef
  run : RunId
  epoch : Nat
  deriving DecidableEq

inductive DirectKind where
  | discovery
  | observation
  | workflowStart
  | runStatus
  | runCancel
  deriving DecidableEq

inductive Invocation where
  | direct (operation : DirectKind)
  | directInput (target : TargetRef) (input : Digest) (bytes : Nat)
  | workflow (bundle manifest : Digest)
  deriving DecidableEq

structure InvocationBinding where
  apiVersion : Nat
  invocation : Invocation
  parameters : Digest
  deriving DecidableEq

structure Scope where
  discover : Finset TargetRef
  observe : Finset TargetRef
  control : Finset TargetRef
  invokeWorkflows : Bool
  returnResults : Bool
  deriving DecidableEq

def Scope.SubsetOf (scope parent : Scope) : Prop :=
  scope.discover ⊆ parent.discover ∧ scope.observe ⊆ parent.observe ∧ scope.control ⊆ parent.control ∧
    (scope.invokeWorkflows = true → parent.invokeWorkflows = true) ∧
    (scope.returnResults = true → parent.returnResults = true)

instance (scope parent : Scope) : Decidable (scope.SubsetOf parent) :=
  inferInstanceAs (Decidable (_ ∧ _ ∧ _ ∧ (_ → _) ∧ (_ → _)))

def Scope.sources (scope : Scope) : Finset TargetRef := scope.discover ∪ scope.observe

def Scope.targets (scope : Scope) : Finset TargetRef := scope.sources ∪ scope.control

structure GrantRequest where
  scope : Scope
  bindings : Finset InvocationBinding
  directReadCalls : Finset DirectKind
  deriving DecidableEq

structure MetadataGrantRequest where
  targets : Finset TargetRef
  deriving DecidableEq

structure GrantRevisions where
  ordinary : Nat
  metadata : Nat
  enrollmentMetadata : Nat
  deriving DecidableEq

abbrev Handoffs := Table TargetRef (Finset TargetRef)

abbrev Ownership := Finset (TargetRef × Nat × Option LeaseRef)

structure NativeControlGrant where
  applicationInstance : Instance
  epoch : Nat
  deriving DecidableEq

structure NativeEnrollmentMetadataGrant where
  connection : ConnectionId
  registration : ControllerRegistrationId
  enrollment : ControllerEnrollmentId
  target : TargetRef
  epoch : Nat
  expires : Instant
  deriving DecidableEq

structure NativeOrdinaryEnrollmentReview where
  connection : ConnectionId
  id : ApprovalId
  revisions : GrantRevisions
  ordinaryEpoch : Option Nat
  grants : List NativeEnrollmentMetadataGrant
  sinks : Finset TargetRef
  deriving DecidableEq

/-- What the user approves of an ordinary request. -/
structure NativeApproval where
  request : GrantRequest
  lifetime : Duration
  handoffs : Handoffs
  enrollmentMetadata : Finset NativeEnrollmentMetadataGrant
  enrollmentDisclosures : Table NativeEnrollmentMetadataGrant (Finset TargetRef)
  enrollmentReview : Option NativeOrdinaryEnrollmentReview

/-- What the user approves of a metadata request. -/
structure NativeMetadataApproval where
  request : MetadataGrantRequest
  lifetime : Duration
  controlDisclosures : Handoffs

structure ControllerEnrollmentProposal where
  connection : ConnectionId
  registration : ControllerRegistrationId
  target : TargetRef
  revision : Nat
  deriving DecidableEq

/-- The enrolment that the user approves. -/
structure NativeControllerEnrollment where
  proposal : ControllerEnrollmentProposal
  deriving DecidableEq

structure EnrollmentMetadataGrantProposal where
  id : ApprovalId
  connection : ConnectionId
  registration : ControllerRegistrationId
  enrollment : ControllerEnrollmentId
  target : TargetRef
  controls : Finset TargetRef
  controlGrant : Option NativeControlGrant
  deriving DecidableEq

/-- What the user approves of the metadata grant of an enrolment. -/
structure NativeEnrollmentMetadataGrantApproval where
  proposal : EnrollmentMetadataGrantProposal
  lifetime : Duration
  controlSinks : Finset TargetRef
  controlDisclosures : Table NativeControlGrant (Finset TargetRef)

structure EnrollmentMetadataDecision where
  applicationInstance : Instance
  sequence : Nat
  enrollment : ControllerEnrollmentId
  ordinaryRevision : Nat
  expires : Instant
  deriving DecidableEq

structure PresentationRequirement where
  registration : ControllerRegistrationId
  enrollment : ControllerEnrollmentId
  revision : PresentationRevision
  deriving DecidableEq

structure PresentationAttempt where
  connection : ConnectionId
  id : Nat
  target : TargetRef
  window : PresentationWindowId
  deadline : Instant
  deriving DecidableEq

structure Budget where
  operations : Nat
  disclosedBytes : Nat
  deriving DecidableEq

structure RunSpec where
  binding : InvocationBinding
  scope : Scope
  budget : Budget
  deadline : Instant
  deriving DecidableEq

inductive Operation where
  | discover (maxBytes : Nat)
  | observe (target : TargetRef) (maxBytes : Nat)
  | control (lease : LeaseRef) (input : Digest) (bytes : Nat) (presentation : Option PresentationRequirement)
  | result (maxBytes : Nat)
  deriving DecidableEq

/-- Why a request is refused. -/
inductive Error where
  | unauthorized
  | invalidRequest
  | staleTarget
  | expired
  | revoked
  | quotaExceeded
  | busy
  | closed
  | bindingMismatch
  | unavailable
  | foregroundRefused
  | unsettledHostCalls
  | unsettledChildRuns
  deriving DecidableEq

inductive RunState where
  | running
  | completed
  | failed
  | cancelled
  | timedOut
  | interrupted
  deriving DecidableEq

structure RunStatus where
  state : RunState
  failure : Option Error
  admittedEffects : Nat
  executionOutcomeUnknown : Bool
  deriving DecidableEq

structure Limits where
  connections : Nat
  targets : Nat
  controllerRegistrations : Nat
  controllerRegistrationsPerConnection : Nat
  retainedRuns : Nat
  globalOperations : Nat
  globalDisclosedBytes : Nat
  deriving DecidableEq

def Limits.default : Limits where
  connections := 16
  targets := 128
  controllerRegistrations := 128
  controllerRegistrationsPerConnection := 16
  retainedRuns := 128
  globalOperations := 4096
  globalDisclosedBytes := 16 * 1048576

/-- An atomic that starts as true and is only ever set to false. -/
inductive Flag where
  | grant (epoch : Nat)
  | run (id : RunId)
  | descendants (id : RunId)
  deriving DecidableEq

end FesTerm.Automation
