import FesTerm.Automation.Approvals

/-!
# What cuts and revocations change

Each function of the model by the parts of the state that it leaves alone, and by what it makes of an
entry of the others.
-/

namespace FesTerm.Automation

open Procedure

namespace Broker

variable {broker : Broker} {connection : ConnectionId} {slot : GrantSlot} {id : RunId} {state : RunState}
  {failure : Option Error}

variable {failed : Error → Broker → Prop}

theorem leads_mint {done : Nat → Broker → Prop}
    (hdone : broker.sequence < maxU64 → done broker.issue.sequence broker.issue)
    (hfailed : failed .quotaExceeded broker) : mint.Leads broker done failed := by
  rw [mint]
  refine leads_ask_bind (fun _ h => ?_) (fun error herror => ?_)
  · refine leads_change_bind (leads_ask.mpr ⟨fun sequence hsequence => ?_, nofun⟩)
    cases hsequence
    exact hdone (not_le.mp (refuse_eq_ok.mp h))
  · unfold refuse at herror
    split at herror
    · cases herror
      exact hfailed
    · cases herror

variable {α : Type}

theorem leads_mintAs {make : Instance → Nat → α} {done : α → Broker → Prop}
    (hdone : broker.sequence < maxU64 → done (make broker.applicationInstance broker.issue.sequence) broker.issue)
    (hfailed : failed .quotaExceeded broker) : (mintAs make).Leads broker done failed := by
  rw [mintAs, leads_bind]
  refine leads_mint (fun h => leads_ask.mpr ⟨fun a ha => ?_, nofun⟩) hfailed
  cases ha
  exact hdone h

theorem cutAll_eq (f : Broker → α) (h : ∀ broker id, f (cut broker id state failure) = f broker)
    (ids : List RunId) : f (broker.cutAll ids state failure) = f broker := by
  induction ids generalizing broker with
  | nil => rfl
  | cons id ids ih => exact ih.trans (h _ _)

@[simp] theorem cutAll_principals (ids : List RunId) :
    (broker.cutAll ids state failure).principals = broker.principals :=
  cutAll_eq (·.principals) (fun _ _ => rfl) ids

@[simp] theorem clearSlotWhere_principals (condition : Slot → Bool) :
    (broker.clearSlotWhere condition).principals = broker.principals := by
  unfold clearSlotWhere
  split <;> rfl

@[simp] theorem discardStaleProposals_principals :
    (broker.discardStaleProposals connection).principals = broker.principals := rfl

@[simp] theorem withdrawSlot_principals : (broker.withdrawSlot connection slot).principals =
    broker.principals.modify connection (·.revokeSlot slot) := by
  simp only [withdrawSlot, discardStaleProposals_principals]
  split
  · exact clearSlotWhere_principals _
  · rfl

@[simp] theorem revokeSlot_principals : (broker.revokeSlot connection slot).principals =
    broker.principals.modify connection (·.revokeSlot slot) := by
  rw [revokeSlot, cutAll_principals, withdrawSlot_principals]

end Broker

theorem Principal.contains_revokeSlot (principal : Principal) (slot : GrantSlot)
    (registration : ControllerRegistrationId) :
    (principal.revokeSlot slot).controllerRegistrations.contains registration =
      principal.controllerRegistrations.contains registration := by
  unfold Principal.revokeSlot
  split
  · dsimp only
    split
    · exact Table.contains_mapValues _ _ _
    · exact Table.contains_mapValues _ _ _
  · split <;> rfl
  · split
    · rfl
    · dsimp only
      split
      · exact Table.contains_modify _ _ _ _
      · exact Table.contains_modify _ _ _ _

theorem Principal.get_registration_revokeSlot {principal : Principal} {registration : ControllerRegistrationId}
    {record : ControllerRegistration} (slot : GrantSlot)
    (h : principal.controllerRegistrations.get registration = some record) :
    ∃ found, (principal.revokeSlot slot).controllerRegistrations.get registration = some found := by
  rw [← Table.contains_iff, Principal.contains_revokeSlot, Table.contains_iff]
  exact ⟨record, h⟩

end FesTerm.Automation
