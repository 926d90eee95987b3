import FesTerm.Automation.Broker

/-!
# What ends runs and grants

`broker.rs`: the cut of a run with its descendants, the revocation of a grant with its runs, and the
expiry that every entry point begins with.
-/

namespace FesTerm.Automation

def saturatingSucc (revision : Nat) : Nat := min (revision + 1) maxU64

def Principal.modifyRegistrations (principal : Principal) (f : ControllerRegistration → ControllerRegistration) :
    Principal :=
  { principal with controllerRegistrations := principal.controllerRegistrations.mapValues fun _ => f }

/-- What `revoke_slot` does to the principal. -/
def Principal.revokeSlot (principal : Principal) (slot : GrantSlot) : Principal :=
  match slot with
  | .ordinary =>
    let principal := principal.modifyRegistrations fun record =>
      { record with presentationReview := none, presentationGrant := none, metadataCrossConsent := none }
    if principal.grant.isSome then
      { principal with
        grant := none
        revisions := { principal.revisions with ordinary := saturatingSucc principal.revisions.ordinary }
        crossConsent := none }
    else principal
  | .metadata =>
    if principal.metadata.isSome then
      { principal with
        metadata := none
        revisions := { principal.revisions with metadata := saturatingSucc principal.revisions.metadata }
        crossConsent := none }
    else principal
  | .enrollmentMetadata registration enrollment =>
    match (principal.controllerRegistrations.get registration).filter fun record =>
        record.enrollment.any (·.id = enrollment) with
    | none => principal
    | some record =>
      let principal := principal.modifyRegistration registration fun record =>
        { record with metadataCrossConsent := none, metadataGrant := none }
      if record.metadataGrant.isSome then
        { principal with
          revisions := { principal.revisions with
            enrollmentMetadata := saturatingSucc principal.revisions.enrollmentMetadata } }
      else principal

namespace Broker

/-- The state in which `cut` leaves one of the runs it affects, if that is running. -/
def cutState (id : RunId) (state : RunState) (affected : RunId) : RunState :=
  if affected = id then state else .cancelled

def cut (broker : Broker) (id : RunId) (state : RunState) (failure : Option Error) : Broker :=
  let affected := broker.descendants id
  { broker with
    requests := broker.requests.retain fun _ request => request.run ∉ affected
    targets := broker.targets.mapValues fun _ target =>
      { target with writer := target.writer.filter fun lease => lease.run ∉ affected }
    runs := broker.runs.mapValues fun child run =>
      if child ∈ affected then run.leave (cutState id state child) failure else run
    cleared := broker.cleared ∪ affected.toFinset.image .descendants ∪
      (affected.toFinset.filter fun child => cutState id state child ≠ .completed).image .run }

def cutAll (broker : Broker) (ids : List RunId) (state : RunState) (failure : Option Error) : Broker :=
  ids.foldl (fun broker id => broker.cut id state failure) broker

def discardStaleProposals (broker : Broker) (connection : ConnectionId) : Broker :=
  let revisions := (broker.principals.get connection).map (·.revisions)
  { broker with
    pending := broker.pending.retain fun _ pending =>
      pending.connection ≠ connection ∨ some pending.revisions = revisions }

def runsWhere (broker : Broker) (condition : Run → Bool) : List RunId :=
  (broker.runs.entries.filter fun entry => condition entry.2).map Prod.fst

/-- `revoke_slot` up to the runs that it cuts. -/
def withdrawSlot (broker : Broker) (connection : ConnectionId) (slot : GrantSlot) : Broker :=
  let broker := broker.withPrincipals (broker.principals.modify connection (·.revokeSlot slot))
  let broker := if slot = .ordinary then broker.cancelPresentationForConnection connection else broker
  let broker := { broker with
    pending := broker.pending.retain fun _ pending =>
      pending.connection ≠ connection ∨ pending.proposal.slot ≠ slot }
  broker.discardStaleProposals connection

def revokeSlot (broker : Broker) (connection : ConnectionId) (slot : GrantSlot) : Broker :=
  let broker := broker.withdrawSlot connection slot
  broker.cutAll
    (broker.runsWhere fun run => run.connection = connection ∧ run.slot = slot ∧ run.status.state = .running)
    .interrupted (some .revoked)

def revokeSlots (broker : Broker) (slots : List (ConnectionId × GrantSlot)) : Broker :=
  slots.foldl (fun broker entry => broker.revokeSlot entry.1 entry.2) broker

/-- The slots of the enrollments of some registrations. -/
def enrollmentSlots (connection : ConnectionId) (registrations : Registrations)
    (condition : ControllerRegistration → ControllerEnrollment → Bool) : List (ConnectionId × GrantSlot) :=
  registrations.entries.filterMap fun entry => do
    let enrollment ← entry.2.enrollment
    if condition entry.2 enrollment then
      some (connection, GrantSlot.enrollmentMetadata entry.1 enrollment.id)
    else none

/-- The ordinary and the metadata slots of each connection whose grants meet a condition. -/
def grantSlots (broker : Broker) (ordinary : Grant → Bool) (metadata : MetadataGrant → Bool) :
    List (ConnectionId × GrantSlot) :=
  broker.principals.entries.flatMap fun entry =>
    (if entry.2.grant.any ordinary then [(entry.1, GrantSlot.ordinary)] else []) ++
      (if entry.2.metadata.any metadata then [(entry.1, GrantSlot.metadata)] else [])

/-- Everything whose time is over at `now` is dropped, cut or revoked. -/
def pollExpiry (broker : Broker) (now : Instant) : Broker :=
  let broker := broker.expirePresentations now
  let broker := { broker with pending := broker.pending.retain fun _ pending => now < pending.expires }
  let broker := broker.cutAll
    (broker.runsWhere fun run => run.status.state = .running ∧ run.spec.deadline ≤ now) .timedOut (some .expired)
  let broker := broker.revokeSlots
    (broker.grantSlots (fun grant => grant.expires ≤ now) fun grant => grant.expires ≤ now)
  broker.revokeSlots (broker.principals.entries.flatMap fun entry =>
    enrollmentSlots entry.1 entry.2.controllerRegistrations fun record _ =>
      record.metadataGrant.any fun grant => grant.expires ≤ now)

end Broker

end FesTerm.Automation
