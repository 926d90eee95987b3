import FesTerm.Automation.Proofs.RevocationProofs

/-!
# Refused decisions

A native decision that is refused leaves everything as it is. The lookups that stand behind the first
change cannot fail, because what they look for was found before and a revocation drops none of it.
-/

namespace FesTerm.Automation

open Procedure Option

namespace Broker

/-- Nothing changed but the numbers that were handed out. -/
def Unchanged (broker after : Broker) : Prop := ∃ sequence, after = { broker with sequence := sequence }

theorem Unchanged.refl (broker : Broker) : Unchanged broker broker := ⟨broker.sequence, rfl⟩

variable {broker : Broker} {connection : ConnectionId} {now : Instant}

variable {registration : ControllerRegistrationId}

theorem registration_eq_ok {record : ControllerRegistration} :
    broker.registration connection registration = .ok record ↔
      ∃ principal, broker.principals.get connection = some principal ∧
        principal.controllerRegistrations.get registration = some record := by
  rw [Broker.registration, okOr_eq_ok, registrationOf, bind_eq_some_iff]

variable {id : ApprovalId} {principal : Principal}

theorem approvable_principal {approval : NativeApproval} {terms : ApprovalTerms}
    (h : broker.approvable connection id approval now = .ok terms) :
    ∃ principal, broker.principals.get connection = some principal ∧
      terms.enrollmentSources = principal.enrollmentMetadataSources connection := by
  rw [approvable] at h
  obtain ⟨pending, -, h⟩ := bind_eq_ok.mp h
  split at h
  · obtain ⟨-, -, h⟩ := bind_eq_ok.mp h
    obtain ⟨revisions, -, h⟩ := bind_eq_ok.mp h
    obtain ⟨-, -, h⟩ := bind_eq_ok.mp h
    obtain ⟨-, -, h⟩ := bind_eq_ok.mp h
    obtain ⟨-, -, h⟩ := bind_eq_ok.mp h
    obtain ⟨-, -, h⟩ := bind_eq_ok.mp h
    obtain ⟨-, -, h⟩ := bind_eq_ok.mp h
    obtain ⟨-, -, h⟩ := bind_eq_ok.mp h
    obtain ⟨principal, hprincipal, h⟩ := bind_eq_ok.mp h
    obtain ⟨metadataEpoch, -, h⟩ := bind_eq_ok.mp h
    obtain ⟨-, -, h⟩ := bind_eq_ok.mp h
    obtain ⟨-, -, h⟩ := bind_eq_ok.mp h
    obtain ⟨-, -, h⟩ := bind_eq_ok.mp h
    obtain ⟨-, -, h⟩ := bind_eq_ok.mp h
    obtain ⟨expires, -, h⟩ := bind_eq_ok.mp h
    obtain rfl := pure_eq_ok.mp h
    exact ⟨principal, okOr_eq_ok.mp hprincipal, rfl⟩
  · exact (throw_eq_ok.mp h).elim

theorem approvableMetadata_principal {approval : NativeMetadataApproval}
    {terms : Option Nat × Instant} (h : broker.approvableMetadata connection id approval now = .ok terms) :
    ∃ principal, broker.principals.get connection = some principal := by
  rw [approvableMetadata] at h
  obtain ⟨pending, -, h⟩ := bind_eq_ok.mp h
  split at h
  · obtain ⟨-, -, h⟩ := bind_eq_ok.mp h
    obtain ⟨revisions, -, h⟩ := bind_eq_ok.mp h
    obtain ⟨-, -, h⟩ := bind_eq_ok.mp h
    obtain ⟨-, -, h⟩ := bind_eq_ok.mp h
    obtain ⟨-, -, h⟩ := bind_eq_ok.mp h
    obtain ⟨principal, hprincipal, -⟩ := bind_eq_ok.mp h
    exact ⟨principal, okOr_eq_ok.mp hprincipal⟩
  · exact (throw_eq_ok.mp h).elim

theorem resolve_registration {enrollment : ControllerEnrollmentId}
    {target : TargetRef} (h : broker.resolveControllerEnrollment connection registration enrollment = .ok target) :
    ∃ principal record, broker.principals.get connection = some principal ∧
      principal.controllerRegistrations.get registration = some record := by
  rw [resolveControllerEnrollment] at h
  obtain ⟨association, hassociation, -⟩ := bind_eq_ok.mp h
  obtain ⟨hsome, -⟩ := filter_eq_some_iff.mp (okOr_eq_ok.mp hassociation)
  obtain ⟨record, hrecord, -⟩ := bind_eq_some_iff.mp hsome
  obtain ⟨principal, hprincipal, hget⟩ := bind_eq_some_iff.mp hrecord
  exact ⟨principal, record, hprincipal, hget⟩

variable {approval : NativeEnrollmentMetadataGrantApproval}

theorem approvableEnrollmentMetadata_registration
    {terms : Option NativeControlGrant × Finset TargetRef × Instant}
    (h : broker.approvableEnrollmentMetadata connection approval now = .ok terms) :
    ∃ principal record, broker.principals.get connection = some principal ∧
      principal.controllerRegistrations.get approval.proposal.registration = some record := by
  rw [approvableEnrollmentMetadata] at h
  obtain ⟨-, -, h⟩ := bind_eq_ok.mp h
  obtain ⟨pending, -, h⟩ := bind_eq_ok.mp h
  obtain ⟨-, -, h⟩ := bind_eq_ok.mp h
  obtain ⟨revisions, -, h⟩ := bind_eq_ok.mp h
  obtain ⟨-, -, h⟩ := bind_eq_ok.mp h
  obtain ⟨-, -, h⟩ := bind_eq_ok.mp h
  obtain ⟨target, htarget, -⟩ := bind_eq_ok.mp h
  exact resolve_registration htarget

theorem get_revokeSlot_self {slot : GrantSlot} (h : broker.principals.get connection = some principal) :
    (broker.revokeSlot connection slot).principals.get connection = some (principal.revokeSlot slot) := by
  rw [revokeSlot_principals, Table.get_modify, if_pos rfl, h]
  rfl

theorem get_modify_self {principals : Table ConnectionId Principal}
    {f : Principal → Principal} (h : principals.get connection = some principal) :
    (principals.modify connection f).get connection = some (f principal) := by
  rw [Table.get_modify, if_pos rfl, h]
  rfl

theorem contains_enrollmentMetadataSources {source : NativeEnrollmentMetadataGrant}
    (h : source ∈ principal.enrollmentMetadataSources connection) :
    principal.controllerRegistrations.contains source.registration = true := by
  obtain ⟨⟨registration, record⟩, hmem, hsource⟩ := List.mem_filterMap.mp h
  obtain ⟨enrollment, -, hsource⟩ := bind_eq_some_iff.mp hsource
  obtain ⟨grant, -, hsource⟩ := bind_eq_some_iff.mp hsource
  cases hsource
  exact Table.contains_iff.mpr ⟨record, Table.get_eq_some.mpr hmem⟩

/-- The principal is there with all of these registrations. -/
def Holds (connection : ConnectionId) (sources : List NativeEnrollmentMetadataGrant) (broker : Broker) : Prop :=
  ∃ principal, broker.principals.get connection = some principal ∧
    ∀ source ∈ sources, principal.controllerRegistrations.contains source.registration = true

variable {sources : List NativeEnrollmentMetadataGrant}

theorem leads_consents {f : NativeEnrollmentMetadataGrant →
    ControllerRegistration → ControllerRegistration} {failed : Error → Broker → Prop}
    (h : Holds connection sources broker) :
    (sources.forM fun source => do
      let _ ← ask fun broker => okOr (broker.registrationOf connection source.registration) .revoked
      change (·.modifyRegistration connection source.registration (f source)) : Command Unit).Leads broker
      (fun _ after => Holds connection sources after) failed := by
  refine leads_forM h ?_
  rintro source hsource broker ⟨principal, hprincipal, hsources⟩
  refine leads_ask_bind (fun _ _ => ?_) (fun error herror => ?_)
  · rw [leads_change]
    refine ⟨_, get_modify_self hprincipal, fun other hother => ?_⟩
    rw [Principal.modifyRegistration, Table.contains_modify]
    exact hsources other hother
  · obtain ⟨record, hrecord⟩ := Table.contains_iff.mp (hsources source hsource)
    rw [registrationOf, hprincipal, bind_some, hrecord] at herror
    cases herror

theorem holds_install {grant : Grant} (h : broker.principals.get connection = some principal)
    (hsources : ∀ source ∈ sources, source ∈ principal.enrollmentMetadataSources connection) :
    Holds connection sources ((broker.revokeSlot connection .ordinary).withPrincipals
      ((broker.revokeSlot connection .ordinary).principals.modify connection (·.install grant))) := by
  refine ⟨_, get_modify_self (get_revokeSlot_self h), fun source hsource => ?_⟩
  have hcontains := contains_enrollmentMetadataSources (hsources source hsource)
  rw [← Principal.contains_revokeSlot principal .ordinary] at hcontains
  unfold Principal.install Principal.freshUsage
  split <;> exact hcontains

theorem approve_refused {approval : NativeApproval} :
    (approve connection id approval now).Leads broker (fun _ _ => True)
      fun _ after => Unchanged (broker.pollExpiry now) after := by
  rw [approve]
  refine leads_change_bind ?_
  generalize broker.pollExpiry now = broker
  refine leads_ask_bind (fun terms hterms => ?_) (fun _ _ => .refl _)
  obtain ⟨principal, hprincipal, hsources⟩ := approvable_principal hterms
  rw [leads_bind]
  refine leads_mint (fun _ => ?_) (.refl _)
  have hprincipal : broker.issue.principals.get connection = some principal := hprincipal
  generalize broker.issue = issued at hprincipal ⊢
  refine leads_change_bind ?_
  refine leads_ask_bind (fun _ _ => ?_) (fun error herror => ?_)
  · refine leads_change_bind ?_
    rw [leads_bind]
    refine (leads_consents (holds_install hprincipal fun source hsource => ?_)).mono (fun _ _ _ => ?_) fun _ _ h => h
    · rw [← hsources]
      split at hsource
      · cases hsource
      · exact hsource
    · exact leads_change_bind (leads_change.mpr trivial)
  · rw [Broker.principal, get_revokeSlot_self hprincipal] at herror
    cases herror

theorem approveMetadata_refused {approval : NativeMetadataApproval} :
    (approveMetadata connection id approval now).Leads broker (fun _ _ => True)
      fun _ after => Unchanged (broker.pollExpiry now) after := by
  rw [approveMetadata]
  refine leads_change_bind ?_
  generalize broker.pollExpiry now = broker
  refine leads_ask_bind (fun terms hterms => ?_) (fun _ _ => .refl _)
  obtain ⟨principal, hprincipal⟩ := approvableMetadata_principal hterms
  rw [leads_bind]
  refine leads_mint (fun _ => ?_) (.refl _)
  have hprincipal : broker.issue.principals.get connection = some principal := hprincipal
  generalize broker.issue = issued at hprincipal ⊢
  refine leads_change_bind ?_
  refine leads_ask_bind (fun _ _ => ?_) (fun error herror => ?_)
  · exact leads_change_bind (leads_change.mpr trivial)
  · rw [Broker.principal, get_revokeSlot_self hprincipal] at herror
    cases herror

theorem approveEnrollmentMetadataGrant_refused :
    (approveEnrollmentMetadataGrant connection approval now).Leads broker (fun _ _ => True)
      fun _ after => Unchanged (broker.pollExpiry now) after := by
  rw [approveEnrollmentMetadataGrant]
  refine leads_change_bind ?_
  generalize broker.pollExpiry now = broker
  refine leads_ask_bind (fun terms hterms => ?_) (fun _ _ => .refl _)
  obtain ⟨principal, record, hprincipal, hrecord⟩ := approvableEnrollmentMetadata_registration hterms
  rw [leads_bind]
  refine leads_mint (fun _ => ?_) (.refl _)
  have hprincipal : broker.issue.principals.get connection = some principal := hprincipal
  generalize broker.issue = issued at hprincipal ⊢
  refine leads_change_bind ?_
  refine leads_ask_bind (fun _ _ => ?_) (fun error herror => ?_)
  · refine leads_change_bind ?_
    refine leads_ask_bind (fun _ _ => ?_) (fun error herror => ?_)
    · exact leads_change_bind (leads_change.mpr trivial)
    · obtain ⟨found, hfound⟩ := Principal.get_registration_revokeSlot
        (.enrollmentMetadata approval.proposal.registration approval.proposal.enrollment) hrecord
      rw [Broker.registration, registrationOf, modifyPrincipal, get_modify_self (get_revokeSlot_self hprincipal),
        bind_some, Principal.freshUsage] at herror
      split at herror
      · rw [hfound] at herror
        cases herror
      · rw [hfound] at herror
        cases herror
  · rw [Broker.principal, get_revokeSlot_self hprincipal] at herror
    cases herror

theorem approveControllerEnrollment_refused {decision : NativeControllerEnrollment} :
    (approveControllerEnrollment connection decision).Leads broker (fun _ _ => True)
      fun _ after => Unchanged broker after := by
  rw [approveControllerEnrollment]
  refine leads_refuse_bind (fun _ => ?_) fun _ => .refl _
  refine leads_ask_bind (fun record hrecord => ?_) (fun _ _ => .refl _)
  obtain ⟨principal, hprincipal, hget⟩ := registration_eq_ok.mp hrecord
  refine leads_refuse_bind (fun _ => ?_) fun _ => .refl _
  refine leads_ask_bind (fun _ _ => ?_) (fun _ _ => .refl _)
  rw [leads_bind]
  refine leads_mintAs (fun _ => ?_) (.refl _)
  have hprincipal : broker.issue.principals.get connection = some principal := hprincipal
  generalize broker.issue = issued at hprincipal ⊢
  refine leads_change_bind ?_
  refine leads_ask_bind (fun _ _ => ?_) (fun error herror => ?_)
  · exact leads_change_bind (leads_change_bind (leads_pure.mpr trivial))
  · unfold revokeEnrollment at herror
    split at herror
    · next old _ =>
      obtain ⟨found, hfound⟩ := Principal.get_registration_revokeSlot
        (.enrollmentMetadata decision.proposal.registration old.id) hget
      rw [Broker.registration, registrationOf, get_revokeSlot_self hprincipal, bind_some, hfound] at herror
      cases herror
    · rw [Broker.registration, registrationOf, hprincipal, bind_some, hget] at herror
      cases herror

/-- A decision that is refused leaves the broker as an expiry at the same instant leaves it; one about a
controller's enrollment, which does not look at the clock, leaves it as it was. -/
theorem refused_approvals_change_nothing (broker : Broker) (connection : ConnectionId) (now : Instant)
    (error : Error) :
    (∀ id approval, (approve connection id approval now broker).1 = .error error →
      Unchanged (broker.pollExpiry now) (approve connection id approval now broker).2) ∧
    (∀ id approval, (approveMetadata connection id approval now broker).1 = .error error →
      Unchanged (broker.pollExpiry now) (approveMetadata connection id approval now broker).2) ∧
    (∀ approval, (approveEnrollmentMetadataGrant connection approval now broker).1 = .error error →
      Unchanged (broker.pollExpiry now) (approveEnrollmentMetadataGrant connection approval now broker).2) ∧
    ∀ decision, (approveControllerEnrollment connection decision broker).1 = .error error →
      Unchanged broker (approveControllerEnrollment connection decision broker).2 := by
  refine ⟨fun id approval herror => ?_, fun id approval herror => ?_, fun approval herror => ?_,
    fun decision herror => ?_⟩
  · exact approve_refused.error (Prod.ext herror rfl)
  · exact approveMetadata_refused.error (Prod.ext herror rfl)
  · exact approveEnrollmentMetadataGrant_refused.error (Prod.ext herror rfl)
  · exact approveControllerEnrollment_refused.error (Prod.ext herror rfl)

def controller : ConnectionId := ⟨1, 1⟩

def screen : TargetRef := ⟨1, 1, 1⟩

def typeLetter : InvocationBinding := ⟨1, .directInput screen 0 1, 0⟩

def typing : GrantRequest where
  scope := { discover := ∅, observe := ∅, control := {screen}, invokeWorkflows := false, returnResults := false }
  bindings := {typeLetter}
  directReadCalls := ∅

/-- A controller types under a grant, waits for an answer, and has proposed another grant. -/
def busyBroker : Broker :=
  { withLimits 1 .default with
    sequence := 5
    principals := Table.empty.insert controller
      { grant := some { epoch := 2, request := typing, handoffs := .empty, expires := 100, usage := ⟨1, 1⟩ }
        metadata := none, revisions := ⟨1, 0, 0⟩, crossConsent := none, usage := ⟨1, 1⟩, approvalsRequested := 2
        controllerRegistrations := .empty }
    targets := Table.empty.insert 1 { reference := screen, active := true, ownershipEpoch := 1, writer := none }
    runs := Table.empty.insert ⟨1, 3⟩
      { connection := controller, slot := .ordinary, grantEpoch := 2, parent := none
        spec := { binding := typeLetter, scope := typing.scope, budget := ⟨8, 64⟩, deadline := 50 }
        frozenSources := ∅, frozenControls := {screen}, usage := ⟨1, 1⟩
        status := { state := .running, failure := none, admittedEffects := 1, executionOutcomeUnknown := false }
        startedWorkflow := none, directInputPrepared := false }
    requests := Table.empty.insert ⟨1, 4⟩ { run := ⟨1, 3⟩, operation := .result 16, committed := false }
    pending := Table.empty.insert ⟨1, 5⟩
      { connection := controller, proposal := .ordinary typing, expires := 60, ownership := {(screen, 1, none)}
        revisions := ⟨1, 0, 0⟩ } }

def overlong : NativeApproval where
  request := typing
  lifetime := maxGrantLifetime + 1
  handoffs := Table.empty.insert screen ∅
  enrollmentMetadata := ∅
  enrollmentDisclosures := .empty
  enrollmentReview := none

/-- An approval for too long is refused while the grant, its run and the request are live. -/
theorem overlong_approval_changes_nothing :
    (approve controller ⟨1, 5⟩ overlong 5 busyBroker).1 = .error .invalidRequest ∧
      Unchanged (busyBroker.pollExpiry 5) (approve controller ⟨1, 5⟩ overlong 5 busyBroker).2 ∧
      ((busyBroker.pollExpiry 5).principals.get controller).map (·.grant.isSome) = some true ∧
      ((busyBroker.pollExpiry 5).runs.get ⟨1, 3⟩).map (·.status.state) = some .running ∧
      ((busyBroker.pollExpiry 5).requests.get ⟨1, 4⟩).isSome = true ∧
      ((busyBroker.pollExpiry 5).pending.get ⟨1, 5⟩).isSome = true := by
  have herror : (approve controller ⟨1, 5⟩ overlong 5 busyBroker).1 = .error .invalidRequest := by decide +kernel
  refine ⟨herror, (refused_approvals_change_nothing busyBroker controller 5 .invalidRequest).1 _ _ herror, ?_⟩
  decide +kernel

end Broker

end FesTerm.Automation
