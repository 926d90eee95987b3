import FesTerm.Automation.Revocation

/-!
# Connections, registrations and targets

`broker.rs`: what names the parties, with the guard of the shared admission boundary left to the caller.
-/

namespace FesTerm.Automation

open Procedure

namespace Broker

/-- A reference with the next number. -/
def mintAs {α : Type} (make : Instance → Nat → α) : Command α := do
  let sequence ← mint
  ask fun broker => .ok (make broker.applicationInstance sequence)

/-- The metadata grant of the association that a registration has is revoked. -/
def revokeEnrollment (broker : Broker) (connection : ConnectionId) (registration : ControllerRegistrationId)
    (enrollment : Option ControllerEnrollment) : Broker :=
  match enrollment with
  | some old => broker.revokeSlot connection (.enrollmentMetadata registration old.id)
  | none => broker

/-- The enrolment of a registered controller at a target; an earlier one is revoked. -/
def approveControllerEnrollment (connection : ConnectionId) (decision : NativeControllerEnrollment) :
    Command ControllerEnrollmentId := do
  let proposal := decision.proposal
  refuse (proposal.connection ≠ connection) .unauthorized
  let record ← ask (·.registration connection proposal.registration)
  refuse (record.revision ≠ proposal.revision) .bindingMismatch
  let _ ← ask (·.target proposal.target)
  let id ← mintAs ControllerEnrollmentId.mk
  change (·.revokeEnrollment connection proposal.registration record.enrollment)
  let _ ← ask (·.registration connection proposal.registration)
  change (·.modifyRegistration connection proposal.registration fun record =>
    { record with
      revision := id.sequence
      enrollment := some { id := id, target := proposal.target }
      presentationReview := none
      presentationGrant := none
      metadataReview := none
      metadataDecision := none })
  change (·.cancelPresentationForRegistration connection proposal.registration)
  return id

end Broker

end FesTerm.Automation
