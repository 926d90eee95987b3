import FesTerm.Automation.Registrations

/-!
# Proposals and native decisions

`broker.rs` and `enrollment_metadata.rs`: what a client proposes and what a native decision grants. The
checks of a decision come before anything changes and are a question on their own.
-/

namespace FesTerm.Automation

open Procedure

/-- An approved direct input is for a target in the control scope and has a length that may be sent. -/
def Invocation.FitsControl (control : Finset TargetRef) : Invocation → Prop
  | directInput target _ bytes => target ∈ control ∧ bytes ≠ 0 ∧ bytes ≤ maxInputBytes
  | _ => True

instance (control : Finset TargetRef) : DecidablePred (Invocation.FitsControl control)
  | .directInput .. => inferInstanceAs (Decidable (_ ∧ _ ∧ _))
  | .direct _ => .isTrue trivial
  | .workflow .. => .isTrue trivial

def Principal.freshUsage (principal : Principal) : Principal :=
  if principal.hasAnyGrant then principal else { principal with usage := .zero }

def Principal.install (principal : Principal) (grant : Grant) : Principal :=
  let principal := principal.freshUsage
  { principal with
    revisions := { principal.revisions with ordinary := principal.revisions.ordinary + 1 }
    grant := some grant }

def Principal.installMetadata (principal : Principal) (grant : MetadataGrant)
    (crossConsent : Option (Nat × Nat)) : Principal :=
  let principal := principal.freshUsage
  { principal with
    revisions := { principal.revisions with metadata := principal.revisions.metadata + 1 }
    metadata := some grant
    crossConsent := crossConsent }

namespace Broker

def validateScope (broker : Broker) (scope : Scope) : Except Error Unit := do
  refuse (maxScopeTargets < scope.discover.card ∨ maxScopeTargets < scope.observe.card ∨
    maxScopeTargets < scope.control.card ∨ maxScopeTargets < scope.targets.card) .invalidRequest
  broker.attached scope.targets

def validateRequest (broker : Broker) (request : GrantRequest) : Except Error Unit := do
  refuse ((request.bindings = ∅ ∧ request.directReadCalls = ∅) ∨ 16 < request.bindings.card ∨
    (∃ binding ∈ request.bindings, binding.apiVersion ≠ 1) ∨
    (∃ kind ∈ request.directReadCalls, kind ≠ .discovery ∧ kind ≠ .observation)) .invalidRequest
  broker.validateScope request.scope
  refuse (¬ ∀ binding ∈ request.bindings, binding.invocation.FitsControl request.scope.control) .invalidRequest

def validateMetadataTargets (broker : Broker) (targets : Finset TargetRef) : Except Error Unit := do
  refuse (targets = ∅ ∨ maxScopeTargets < targets.card) .invalidRequest
  broker.attached targets

def revisions (broker : Broker) (connection : ConnectionId) : Except Error GrantRevisions := do
  let principal ← broker.principal connection
  let revisions := principal.revisions
  refuse (revisions.ordinary = maxU64 ∨ revisions.metadata = maxU64 ∨ revisions.enrollmentMetadata = maxU64)
    .quotaExceeded
  return revisions

def ownershipOf (broker : Broker) (reference : TargetRef) : Nat × Option LeaseRef :=
  match broker.targets.get reference.session with
  | some target => (target.ownershipEpoch, target.writer)
  | none => (0, none)

def ownershipSnapshot (broker : Broker) (controls : Finset TargetRef) : Except Error Ownership := do
  broker.attached controls
  return controls.image fun reference => (reference, broker.ownershipOf reference)

/-- The identity of the ordinary grant, where it has a control scope. -/
def controlGrant (broker : Broker) (principal : Principal) : Option NativeControlGrant :=
  principal.grant.bind fun grant =>
    if grant.request.scope.control = ∅ then none
    else some { applicationInstance := broker.applicationInstance, epoch := grant.epoch }

def validateClosure (sources controls : Finset TargetRef) (handoffs : Handoffs) : Except Error Unit :=
  refuse (¬ ∀ target ∈ controls, ∃ approved ∈ handoffs.get target, sources ⊆ approved) .unauthorized

def validateCrossClosure (ordinary : Scope) (handoffs : Handoffs) (metadata : Finset TargetRef) :
    Except Error Unit := do
  refuse (ordinary.control ≠ ∅ ∧ ¬ metadata ⊆ ordinary.sources) .unauthorized
  validateClosure metadata ordinary.control handoffs

/-- The closure is validated against the ordinary grant, where there is one. -/
def validateGrantClosure (grant : Option Grant) (metadata : Finset TargetRef) : Except Error Unit :=
  match grant with
  | some grant => validateCrossClosure grant.request.scope grant.handoffs metadata
  | none => pure ()

/-- The revision of a slot and whether the slot holds a grant. -/
def slotRevision (principal : Principal) (slot : GrantSlot) : Except Error (Nat × Bool) :=
  match slot with
  | .ordinary => return (principal.revisions.ordinary, principal.grant.isSome)
  | .metadata => return (principal.revisions.metadata, principal.metadata.isSome)
  | .enrollmentMetadata registration enrollment => do
    let record ← okOr (principal.controllerRegistrations.get registration) .unauthorized
    refuse (record.enrollment.all fun current => current.id ≠ enrollment) .unauthorized
    return (principal.revisions.enrollmentMetadata, record.metadataGrant.isSome)

/-- There is room for the revision of the grant that is dropped and for that of the new one. -/
def validateRevisionTransition (broker : Broker) (connection : ConnectionId) (slot : GrantSlot) :
    Except Error Unit := do
  let principal ← broker.principal connection
  let revision ← slotRevision principal slot
  refuse (maxU64 < revision.1 + (1 + revision.2.toNat)) .quotaExceeded

/-- What is known of an approval when its checks are done. -/
structure ApprovalTerms where
  metadataEpoch : Option Nat
  enrollmentSources : List NativeEnrollmentMetadataGrant
  expires : Instant

/-- Every enrolled metadata grant is accepted as a source for exactly these sinks, and nothing else is. -/
def validateDisclosures (approval : NativeApproval) (enrollmentSources : List NativeEnrollmentMetadataGrant)
    (controlSinks : Finset TargetRef) : Except Error Unit :=
  if controlSinks = ∅ then
    refuse (approval.enrollmentMetadata ≠ ∅ ∨ approval.enrollmentDisclosures.entries ≠ []) .unauthorized
  else
    refuse (approval.enrollmentMetadata ≠ enrollmentSources.toFinset ∨
      approval.enrollmentDisclosures.entries.length ≠ enrollmentSources.toFinset.card ∨
      ∃ grant ∈ enrollmentSources.toFinset, approval.enrollmentDisclosures.get grant ≠ some controlSinks)
      .unauthorized

/-- The review that the decision was made on is of this proposal and of what the connection holds. -/
def validateReview (connection : ConnectionId) (id : ApprovalId) (approval : NativeApproval)
    (pending : PendingApproval) (principal : Principal) : Except Error Unit :=
  match approval.enrollmentReview with
  | some review =>
    refuse (review.connection ≠ connection ∨ review.id ≠ id ∨ review.revisions ≠ pending.revisions ∨
      review.ordinaryEpoch ≠ principal.grant.map (·.epoch) ∨
      review.grants ≠ principal.enrollmentMetadataSources connection ∨
      review.sinks ≠ approval.request.scope.control) .unauthorized
  | none =>
    refuse (approval.request.scope.control ≠ ∅ ∧ principal.enrollmentMetadataSources connection ≠ []) .unauthorized

/-- The metadata grant may flow to the sinks that are approved; its epoch, where there are any. -/
def consentedMetadata (broker : Broker) (approval : NativeApproval) (metadata : Option MetadataGrant) :
    Except Error (Option Nat) :=
  match metadata with
  | some metadata => do
    broker.validateMetadataTargets metadata.targets
    validateCrossClosure approval.request.scope approval.handoffs metadata.targets
    return if approval.request.scope.control = ∅ then none else some metadata.epoch
  | none => return none

/-- `approve` up to where it mints the epoch. -/
def approvable (broker : Broker) (connection : ConnectionId) (id : ApprovalId) (approval : NativeApproval)
    (now : Instant) : Except Error ApprovalTerms := do
  let pending ← okOr (broker.pending.get id) .unauthorized
  match pending.proposal with
  | .ordinary proposal =>
    refuse (pending.connection ≠ connection ∨ ¬ approval.request.scope.SubsetOf proposal.scope ∨
      ¬ approval.request.bindings ⊆ proposal.bindings ∨
      ¬ approval.request.directReadCalls ⊆ proposal.directReadCalls) .unauthorized
    let revisions ← broker.revisions connection
    refuse (pending.revisions ≠ revisions) .revoked
    broker.validateRequest approval.request
    broker.attached approval.request.scope.control
    refuse (¬ ∀ reference ∈ approval.request.scope.control,
      (reference, broker.ownershipOf reference) ∈ pending.ownership) .revoked
    refuse (approval.lifetime = 0 ∨ maxGrantLifetime < approval.lifetime) .invalidRequest
    validateClosure approval.request.scope.sources approval.request.scope.control approval.handoffs
    let principal ← broker.principal connection
    let metadataEpoch ← broker.consentedMetadata approval principal.metadata
    let enrollmentSources := principal.enrollmentMetadataSources connection
    validateReview connection id approval pending principal
    validateDisclosures approval enrollmentSources approval.request.scope.control
    validateCrossClosure approval.request.scope approval.handoffs (enrollmentSources.map (·.target)).toFinset
    broker.validateRevisionTransition connection .ordinary
    let expires ← okOr (checkedAdd now approval.lifetime) .invalidRequest
    return { metadataEpoch, enrollmentSources, expires }
  | _ => throw .unauthorized

/-- A grant for a request that waits: it replaces the ordinary one of the principal. -/
def approve (connection : ConnectionId) (id : ApprovalId) (approval : NativeApproval) (now : Instant) :
    Command Unit := do
  change (·.pollExpiry now)
  let terms ← ask (·.approvable connection id approval now)
  let controlSinks := approval.request.scope.control
  let epoch ← mint
  change (·.revokeSlot connection .ordinary)
  let _ ← ask (·.principal connection)
  change fun broker => broker.withPrincipals (broker.principals.modify connection (·.install
    { epoch := epoch, request := approval.request, handoffs := approval.handoffs, expires := terms.expires,
      usage := .zero }))
  (if controlSinks = ∅ then [] else terms.enrollmentSources).forM fun source => do
    let _ ← ask fun broker => okOr (broker.registrationOf connection source.registration) .revoked
    change (·.modifyRegistration connection source.registration fun record =>
      { record with
        metadataCrossConsent := some
          { ordinaryEpoch := epoch, metadataEpoch := source.epoch, sinks := controlSinks } })
  change (·.modifyPrincipal connection fun principal =>
    { principal with crossConsent := terms.metadataEpoch.map fun metadata => (epoch, metadata) })
  change (·.discardStaleProposals connection)

/-- `approve_metadata` up to where it mints the epoch: the epoch of the ordinary grant that is consented
to with it, and when it expires. -/
def approvableMetadata (broker : Broker) (connection : ConnectionId) (id : ApprovalId)
    (approval : NativeMetadataApproval) (now : Instant) : Except Error (Option Nat × Instant) := do
  let pending ← okOr (broker.pending.get id) .unauthorized
  match pending.proposal with
  | .metadata proposal =>
    refuse (pending.connection ≠ connection ∨ ¬ approval.request.targets ⊆ proposal.targets) .unauthorized
    let revisions ← broker.revisions connection
    refuse (pending.revisions ≠ revisions) .revoked
    broker.validateMetadataTargets approval.request.targets
    refuse (approval.lifetime = 0 ∨ maxGrantLifetime < approval.lifetime) .invalidRequest
    let principal ← broker.principal connection
    let ownership ← broker.ownershipSnapshot principal.controls
    refuse (pending.ownership ≠ ownership) .revoked
    refuse (approval.controlDisclosures.entries.length ≠ principal.controls.card ∨
      ∃ target ∈ principal.controls, approval.controlDisclosures.get target ≠ some approval.request.targets)
      .unauthorized
    validateGrantClosure principal.grant approval.request.targets
    let ordinaryEpoch := if principal.controls = ∅ then none else principal.grant.map (·.epoch)
    broker.validateRevisionTransition connection .metadata
    let expires ← okOr (checkedAdd now approval.lifetime) .invalidRequest
    return (ordinaryEpoch, expires)
  | _ => throw .unauthorized

/-- The metadata grant that was asked for; it replaces the earlier one. -/
def approveMetadata (connection : ConnectionId) (id : ApprovalId) (approval : NativeMetadataApproval)
    (now : Instant) : Command Unit := do
  change (·.pollExpiry now)
  let (ordinaryEpoch, expires) ← ask (·.approvableMetadata connection id approval now)
  let epoch ← mint
  change (·.revokeSlot connection .metadata)
  let _ ← ask (·.principal connection)
  change fun broker => broker.withPrincipals (broker.principals.modify connection (·.installMetadata
    { epoch := epoch, targets := approval.request.targets, expires := expires, usage := .zero }
    (ordinaryEpoch.map fun ordinary => (ordinary, epoch))))
  change (·.discardStaleProposals connection)

/-- The sinks of the control grant that there is are acknowledged, and no others. -/
def validateControlDisclosures (approval : NativeEnrollmentMetadataGrantApproval)
    (current : Option NativeControlGrant) (controls : Finset TargetRef) : Except Error Unit :=
  match current with
  | some control =>
    refuse (¬ (approval.controlDisclosures.entries.length = 1 ∧
      approval.controlDisclosures.get control = some controls)) .unauthorized
  | none => refuse (approval.controlDisclosures.entries ≠ []) .unauthorized

/-- `approve_enrollment_metadata_grant` up to where it mints the epoch. -/
def approvableEnrollmentMetadata (broker : Broker) (connection : ConnectionId)
    (approval : NativeEnrollmentMetadataGrantApproval) (now : Instant) :
    Except Error (Option NativeControlGrant × Finset TargetRef × Instant) := do
  let proposal := approval.proposal
  refuse (proposal.connection ≠ connection) .unauthorized
  let pending ← okOr (broker.pending.get proposal.id) .unauthorized
  refuse (pending.connection ≠ connection ∨
    pending.proposal ≠ .enrollmentMetadata proposal.registration proposal.enrollment proposal.target) .unauthorized
  let revisions ← broker.revisions connection
  refuse (pending.revisions ≠ revisions) .revoked
  refuse (approval.lifetime = 0 ∨ maxGrantLifetime < approval.lifetime) .invalidRequest
  let target ← broker.resolveControllerEnrollment connection proposal.registration proposal.enrollment
  refuse (target ≠ proposal.target) .revoked
  let principal ← broker.principal connection
  let controls := principal.controls
  refuse (controls ≠ proposal.controls ∨ controls ≠ approval.controlSinks) .unauthorized
  let ownership ← broker.ownershipSnapshot controls
  refuse (pending.ownership ≠ ownership) .unauthorized
  let currentControl := broker.controlGrant principal
  refuse (currentControl ≠ proposal.controlGrant) .revoked
  validateControlDisclosures approval currentControl controls
  validateGrantClosure principal.grant {proposal.target}
  broker.validateRevisionTransition connection (.enrollmentMetadata proposal.registration proposal.enrollment)
  let expires ← okOr (checkedAdd now approval.lifetime) .invalidRequest
  return (currentControl, controls, expires)

/-- The metadata grant of one enrolled controller. -/
def approveEnrollmentMetadataGrant (connection : ConnectionId) (approval : NativeEnrollmentMetadataGrantApproval)
    (now : Instant) : Command Unit := do
  change (·.pollExpiry now)
  let (currentControl, controls, expires) ← ask (·.approvableEnrollmentMetadata connection approval now)
  let proposal := approval.proposal
  let epoch ← mint
  change (·.revokeSlot connection (.enrollmentMetadata proposal.registration proposal.enrollment))
  let _ ← ask (·.principal connection)
  change (·.modifyPrincipal connection fun principal =>
    let principal := principal.freshUsage
    { principal with
      revisions := { principal.revisions with
        enrollmentMetadata := principal.revisions.enrollmentMetadata + 1 } })
  let _ ← ask (·.registration connection proposal.registration)
  change fun broker => broker.withPrincipals (broker.principals.modify connection
    (·.modifyRegistration proposal.registration fun record =>
      { record with
        metadataGrant := some { epoch := epoch, targets := {proposal.target}, expires := expires, usage := .zero }
        metadataCrossConsent := currentControl.map fun control =>
          { ordinaryEpoch := control.epoch, metadataEpoch := epoch, sinks := controls } }))
  change (·.discardStaleProposals connection)

end Broker

end FesTerm.Automation
