import FesTerm.TunnelBridge.Reclaim
import FesTerm.Lib.Runs

/-!
# A client that was taken over from does not reclaim

The record names a connection that holds its guard, and a connection that was adopted and not retired is the one
that the daemon has attached. So while the recorded connection is such a one, the record and the daemon agree.
-/

namespace FesTerm.TunnelBridge

open Option

namespace Bridge

variable {bridge bridge' : Bridge} {action : BridgeAction} {id : Nat} {connection : Connection}

theorem setConnection_self : (bridge.setConnection id connection).connections id = connection :=
  Function.update_self _ _ _

variable {other : Nat}

theorem setConnection_of_ne (h : other ≠ id) :
    (bridge.setConnection id connection).connections other = bridge.connections other :=
  Function.update_of_ne h _ _

/-- Every guard has a token of its own, the record names the connection that has the guard, and the daemon has
attached the connection that it has adopted last. -/
structure Sound (bridge : Bridge) : Prop where
  tokens : ∀ id token, (bridge.connections id).stage = .holding token →
    token < bridge.nextToken ∧ bridge.owner token = id
  holder : ∀ client token, bridge.holder = some (client, token) →
    (bridge.connections (bridge.owner token)).stage = .holding token ∧
      (bridge.connections (bridge.owner token)).client = some client
  active : ∀ id, (bridge.connections id).adopted = true → (bridge.connections id).retired = false →
    bridge.active = some (.bridge id)
  grants : ∀ grant ∈ bridge.grants, ∃ id, grant.active = some (.bridge id) ∧
    (bridge.connections id).client = some grant.client ∧ (bridge.connections id).stage ≠ .waiting

theorem start_sound (host : Host) : Sound (start host) where
  tokens _ _ hstage := by cases hstage
  holder _ _ hholder := by cases hholder
  active _ hadopted := by cases hadopted
  grants _ hgrant := by cases hgrant

variable {client : ClientId} {token : Nat}

theorem Sound.owner_ne (h : Sound bridge)
    (hold : ∀ token, (bridge.connections id).stage ≠ .holding token)
    (hholder : bridge.holder = some (client, token)) :
    bridge.owner token ≠ id := by
  intro howner
  refine hold token ?_
  rw [← howner]
  exact (h.holder client token hholder).1

variable {stage : Stage}

/-- A connection without a guard goes on without one. -/
theorem Sound.goesOn (h : Sound bridge) {client : Option ClientId}
    (hold : ∀ token, (bridge.connections id).stage ≠ .holding token) (hnew : ∀ token, stage ≠ .holding token)
    (hgreeted : stage ≠ .waiting)
    (hclient : (bridge.connections id).stage = .waiting ∨ client = (bridge.connections id).client) :
    Sound (bridge.setConnection id { bridge.connections id with stage, client }) where
  tokens other token hstage := by
    by_cases hother : other = id
    · rw [hother, setConnection_self] at hstage
      exact absurd hstage (hnew token)
    · rw [setConnection_of_ne hother] at hstage
      exact h.tokens other token hstage
  holder holder token hholder := by
    have howner : bridge.owner token ≠ id := h.owner_ne hold hholder
    dsimp only [setConnection]
    rw [Function.update_of_ne howner]
    exact h.holder holder token hholder
  active other hadopted hretired := by
    by_cases hother : other = id
    · rw [hother, setConnection_self] at hadopted hretired
      rw [hother]
      exact h.active id hadopted hretired
    · rw [setConnection_of_ne hother] at hadopted hretired
      exact h.active other hadopted hretired
  grants grant hgrant := by
    obtain ⟨other, hactive, hgranted, hstage⟩ := h.grants grant hgrant
    refine ⟨other, hactive, ?_⟩
    by_cases hother : other = id
    · subst hother
      rw [setConnection_self]
      refine ⟨?_, hgreeted⟩
      rcases hclient with hwaiting | hsame
      · exact absurd hwaiting hstage
      · exact hsame.trans hgranted
    · rw [setConnection_of_ne hother]
      exact ⟨hgranted, hstage⟩

theorem Sound.setStage (h : Sound bridge)
    (hold : ∀ token, (bridge.connections id).stage ≠ .holding token) (hnew : ∀ token, stage ≠ .holding token)
    (hgreeted : stage ≠ .waiting) : Sound (bridge.setStage id stage) :=
  h.goesOn hold hnew hgreeted (.inr rfl)

theorem Sound.greet (h : Sound bridge) {hello : Hello} (hwaiting : (bridge.connections id).stage = .waiting)
    (hallows : bridge.Allows (.hello id hello)) : Sound (bridge.greet id hello) := by
  have hold : ∀ token, (bridge.connections id).stage ≠ .holding token := by
    intro token hstage
    rw [hwaiting] at hstage
    cases hstage
  unfold Bridge.greet
  split
  · have hgreeted : Sound (bridge.setConnection id { bridge.connections id with
        stage := .greeted (bridge.host.grantsTakeover bridge.holder hello), client := hello.client }) :=
      h.goesOn hold nofun nofun (.inl hwaiting)
    split
    next client hclient =>
      split
      next hreclaims =>
        refine { hgreeted with grants := fun grant hgrant => ?_ }
        rcases List.mem_cons.mp hgrant with rfl | hmem
        · -- The recorded connection is attached, and it is not the one that is greeted.
          unfold Host.reclaims Holder.is at hreclaims
          rw [hclient] at hreclaims
          simp only [any_some, Bool.and_eq_true, Option.any_eq_true, decide_eq_true_eq] at hreclaims
          obtain ⟨⟨-, ⟨held, token⟩, hholder, rfl⟩, -⟩ := hreclaims
          obtain ⟨hadopted, hretired⟩ := hallows (held, token) hholder
          obtain ⟨hholding, hheld⟩ := h.holder held token hholder
          refine ⟨bridge.owner token, h.active _ hadopted hretired, ?_⟩
          dsimp only
          rw [setConnection_of_ne (h.owner_ne hold hholder), hholding]
          exact ⟨hheld, nofun⟩
        · exact hgreeted.grants grant hmem
      · exact hgreeted
    · exact hgreeted
  · exact h.setStage hold nofun nofun

/-- What the daemon makes of an attachment. -/
theorem Sound.marks (h : Sound bridge) {acknowledged adopted retired : Bool}
    (hactive : adopted = true → retired = false → bridge.active = some (.bridge id)) :
    Sound (bridge.setConnection id { bridge.connections id with acknowledged, adopted, retired }) := by
  have hsame : ∀ other, ((bridge.setConnection id
      { bridge.connections id with acknowledged, adopted, retired }).connections other).stage =
        (bridge.connections other).stage ∧ ((bridge.setConnection id
          { bridge.connections id with acknowledged, adopted, retired }).connections other).client =
            (bridge.connections other).client := by
    intro other
    by_cases hother : other = id
    · subst hother
      rw [setConnection_self]
      exact ⟨rfl, rfl⟩
    · rw [setConnection_of_ne hother]
      exact ⟨rfl, rfl⟩
  refine ⟨fun other token hstage => ?_, fun client token hholder => ?_, fun other hadopted hretired => ?_,
    fun grant hgrant => ?_⟩
  · exact h.tokens other token ((hsame other).1 ▸ hstage)
  · dsimp only [setConnection] at hsame ⊢
    rw [(hsame _).1, (hsame _).2]
    exact h.holder client token hholder
  · by_cases hother : other = id
    · rw [hother, setConnection_self] at hadopted hretired
      rw [hother]
      exact hactive hadopted hretired
    · rw [setConnection_of_ne hother] at hadopted hretired
      exact h.active other hadopted hretired
  · obtain ⟨other, hother⟩ := h.grants grant hgrant
    refine ⟨other, ?_⟩
    rw [(hsame other).1, (hsame other).2]
    exact hother

theorem Sound.retire (h : Sound bridge) (client : Option AttachedClient) : Sound (bridge.retire client) := by
  unfold Bridge.retire
  split
  · exact h.marks nofun
  · exact h

theorem Sound.retired (h : Sound bridge) (hadopted : ((bridge.retire bridge.active).connections id).adopted = true) :
    ((bridge.retire bridge.active).connections id).retired = true := by
  by_contra hretired
  rw [Bool.not_eq_true] at hretired
  have hactive := (h.retire bridge.active).active id hadopted hretired
  have hsame : (bridge.retire bridge.active).active = bridge.active := by
    unfold Bridge.retire
    split <;> rfl
  rw [hsame] at hactive
  rw [hactive] at hretired
  unfold Bridge.retire at hretired
  dsimp only at hretired
  rw [setConnection_self] at hretired
  cases hretired

theorem Sound.attaches (h : Sound bridge)
    (hnone : ∀ id, (bridge.connections id).adopted = true → (bridge.connections id).retired = true)
    (pending active : Option AttachedClient) : Sound { bridge with pending, active } :=
  ⟨h.tokens, h.holder, fun id hadopted hretired => absurd (hnone id hadopted) (Bool.not_eq_true _ ▸ hretired), h.grants⟩

theorem Sound.adopts (h : Sound bridge) (client : AttachedClient) :
    Sound { (bridge.retire bridge.active).markAdopted client with pending := none, active := some client } := by
  have hattaches := (h.retire bridge.active).attaches (fun _ => h.retired) none (some client)
  cases client with
  | bridge id => exact hattaches.marks fun _ _ => rfl
  | other => exact hattaches

theorem setStage_keeps (other : Nat) :
    ((bridge.setStage id stage).connections other).client = (bridge.connections other).client ∧
      ((bridge.setStage id stage).connections other).adopted = (bridge.connections other).adopted ∧
        ((bridge.setStage id stage).connections other).retired = (bridge.connections other).retired := by
  unfold Bridge.setStage
  by_cases hother : other = id
  · rw [hother, setConnection_self]
    exact ⟨rfl, rfl, rfl⟩
  · rw [setConnection_of_ne hother]
    exact ⟨rfl, rfl, rfl⟩

theorem setStage_greeted (hgreeted : stage ≠ .waiting)
    (hother : (bridge.connections other).stage ≠ .waiting) :
    ((bridge.setStage id stage).connections other).stage ≠ .waiting := by
  unfold Bridge.setStage
  by_cases heq : other = id
  · rw [heq, setConnection_self]
    exact hgreeted
  · rw [setConnection_of_ne heq]
    exact hother

theorem Sound.restage (h : Sound bridge) (hgreeted : stage ≠ .waiting) {holder : Holder}
    {nextToken : Nat} {owner : Nat → Nat}
    (htokens : ∀ other token, ((bridge.setStage id stage).connections other).stage = .holding token →
      token < nextToken ∧ owner token = other)
    (hholder : ∀ client token, holder = some (client, token) →
      ((bridge.setStage id stage).connections (owner token)).stage = .holding token ∧
        (bridge.connections (owner token)).client = some client) :
    Sound { bridge.setStage id stage with holder, nextToken, owner } where
  tokens := htokens
  holder client token hrecord := by
    obtain ⟨hstage, hclient⟩ := hholder client token hrecord
    exact ⟨hstage, (setStage_keeps _).1.trans hclient⟩
  active other hadopted hretired :=
    h.active other ((setStage_keeps other).2.1 ▸ hadopted) ((setStage_keeps other).2.2 ▸ hretired)
  grants grant hgrant := by
    obtain ⟨other, hactive, hgranted, hstage⟩ := h.grants grant hgrant
    exact ⟨other, hactive, (setStage_keeps other).1.trans hgranted, setStage_greeted hgreeted hstage⟩

theorem Sound.claims (h : Sound bridge) : Sound { bridge.setStage id (.holding bridge.nextToken) with
      holder := .claim (bridge.connections id).client bridge.nextToken
      nextToken := bridge.nextToken + 1
      owner := Function.update bridge.owner bridge.nextToken id } := by
  apply h.restage (fun hwaiting => by cases hwaiting)
  · intro other token hstage
    unfold Bridge.setStage at hstage
    by_cases hother : other = id
    · rw [hother, setConnection_self] at hstage
      cases hstage
      rw [hother, Function.update_self]
      exact ⟨Nat.lt_succ_self _, rfl⟩
    · rw [setConnection_of_ne hother] at hstage
      obtain ⟨hless, howner⟩ := h.tokens other token hstage
      rw [Function.update_of_ne hless.ne]
      exact ⟨hless.trans (Nat.lt_succ_self _), howner⟩
  · intro client token hholder
    obtain ⟨held, hheld, hpair⟩ := map_eq_some_iff.mp hholder
    cases hpair
    rw [Function.update_self]
    unfold Bridge.setStage
    rw [setConnection_self]
    exact ⟨rfl, hheld⟩

theorem Sound.release_eq (h : Sound bridge)
    (hstage : (bridge.connections id).stage = .holding token) {held : Nat}
    (hholder : bridge.holder.release token = some (client, held)) :
    bridge.holder = some (client, held) ∧ bridge.owner held ≠ id := by
  unfold Holder.release at hholder
  split at hholder
  · cases hholder
  next hother =>
    refine ⟨hholder, fun howner => hother ?_⟩
    have hheld := (h.holder client held hholder).1
    rw [howner, hstage] at hheld
    cases hheld
    rw [hholder, any_some, decide_eq_true rfl]

theorem Sound.finish (h : Sound bridge) (id : Nat) : Sound (bridge.finish id) := by
  unfold Bridge.finish
  split
  next token hholding =>
    apply h.restage (fun hwaiting => by cases hwaiting)
    · intro other otherToken hstage
      unfold Bridge.setStage at hstage
      by_cases hother : other = id
      · rw [hother, setConnection_self] at hstage
        cases hstage
      · rw [setConnection_of_ne hother] at hstage
        exact h.tokens other otherToken hstage
    · intro client held hholder
      obtain ⟨hheld, howner⟩ := h.release_eq hholding hholder
      refine ⟨?_, (h.holder client held hheld).2⟩
      rw [← (h.holder client held hheld).1]
      exact congrArg Connection.stage (setConnection_of_ne howner)
  next hnot =>
    exact h.setStage (fun token hstage => hnot token hstage) nofun
      nofun

theorem Sound.step (h : Sound bridge) (hallows : bridge.Allows action) (hstep : bridge.step action = some bridge') :
    Sound bridge' := by
  cases action with
  | hello id hello =>
    unfold Bridge.step at hstep
    dsimp only at hstep
    split at hstep
    next hwaiting =>
      cases hstep
      exact h.greet hwaiting hallows
    · cases hstep
  | request id =>
    unfold Bridge.step at hstep
    dsimp only at hstep
    split at hstep
    next takeover hgreeted hpending =>
      have hold : ∀ token, (bridge.connections id).stage ≠ .holding token := by
        intro token hstage
        rw [hgreeted] at hstage
        cases hstage
      cases hstep
      split
      · have hattached : Sound (bridge.setStage id .attached) :=
          h.setStage hold nofun nofun
        exact { hattached with }
      · exact h.setStage hold nofun nofun
    · cases hstep
  | claim id =>
    unfold Bridge.step at hstep
    dsimp only at hstep
    split at hstep
    · cases hstep
      exact h.claims
    · cases hstep
  | acknowledge id =>
    unfold Bridge.step at hstep
    dsimp only at hstep
    split at hstep
    · cases hstep
      exact h.marks (h.active id)
    · cases hstep
  | finish id =>
    cases hstep
    exact h.finish id
  | attach client takeover =>
    unfold Bridge.step at hstep
    dsimp only at hstep
    split at hstep
    · cases hstep
      exact { h with }
    · cases hstep
  | adopt =>
    unfold Bridge.step at hstep
    dsimp only at hstep
    split at hstep
    · split at hstep
      · cases hstep
        exact h.adopts _
      · cases hstep
    · cases hstep
  | abandon =>
    obtain ⟨client, -, rfl⟩ := map_eq_some_iff.mp hstep
    exact { h.retire (some client) with }
  | leave =>
    obtain ⟨client, hactive, rfl⟩ := map_eq_some_iff.mp hstep
    have hnone : ∀ id, ((bridge.retire bridge.active).connections id).adopted = true →
        ((bridge.retire bridge.active).connections id).retired = true := fun _ => h.retired
    rw [hactive] at hnone
    exact (h.retire (some client)).attaches hnone _ none

theorem Sound.keepsHolder (h : Sound bridge) : KeepsHolder bridge where
  grants grant hgrant := by
    obtain ⟨id, hactive, hclient, -⟩ := h.grants grant hgrant
    exact ⟨id, hactive, hclient⟩
  records id other client token next hstep hother hholding hholder := by
    cases hstep
    unfold Bridge.finish
    split
    next held hheld =>
      have htoken : held ≠ token := by
        rintro rfl
        exact hother ((h.tokens other held hholding).2.symm.trans (h.tokens id held hheld).2)
      dsimp only
      unfold Holder.release
      rw [if_neg]
      rw [hholder, any_some, decide_eq_true_eq]
      exact htoken.symm
    · rfl

/-- In every run whose steps are allowed. -/
theorem bridge_keeps_holder {host : Host} (h : Runs.Reaches step Allows (start host) bridge) :
    KeepsHolder bridge := by
  have hsound : Sound bridge := h.invariant (start_sound host) fun hsound hallows hstep => hsound.step hallows hstep
  exact hsound.keepsHolder

def tab : ClientId := ⟨List.replicate 32 'a', by decide⟩

/-- The tab asks for the attachment without asking for a takeover. -/
def tabHello : Hello where
  files := { read := false, windowsPaths := false }
  takeover := false
  version := 1
  snapshotSchema := 3
  target := Host.reference.target
  client := some tab

def attachedRun : List BridgeAction := [.hello 1 tabHello, .request 1, .claim 1, .acknowledge 1, .adopt]

def reclaimedRun : List BridgeAction :=
  attachedRun ++ [.hello 2 tabHello, .request 2, .claim 2, .acknowledge 2, .adopt, .finish 1]

theorem reclaimed_run_keeps_holder : ∃ bridge, Runs.Reaches step Allows (start .reference) bridge ∧
    bridge.grants.map ReclaimGrant.active = [some (.bridge 1)] ∧ bridge.holder = some (tab, 2) ∧
      KeepsHolder bridge := by
  have hruns : ((reclaimedRun.foldlM (fun bridge action =>
      if decide (Allows bridge action) then step bridge action else none) (start .reference)).map fun bridge =>
        (bridge.grants.map ReclaimGrant.active, bridge.holder)) = some ([some (.bridge 1)], some (tab, 2)) := by
    decide +kernel
  obtain ⟨bridge, hrun, hresult⟩ := map_eq_some_iff.mp hruns
  obtain ⟨hgrants, hholder⟩ := Prod.mk.inj hresult
  have hreaches : Runs.Reaches step Allows (start .reference) bridge :=
    Runs.reaches_of_checked (fun _ _ => of_decide_eq_true) hrun
  exact ⟨bridge, hreaches, hgrants, hholder, bridge_keeps_holder hreaches⟩

def takenOverRun : List BridgeAction := attachedRun ++ [.attach 0 true, .adopt, .hello 2 tabHello]

theorem taken_over_tab_reclaims : ∃ bridge, Runs.Reaches step (fun _ _ => True) (start .reference) bridge ∧
    bridge.grants.map (fun grant => (grant.client, grant.active)) = [(tab, some (.other 0))] := by
  have hruns : (takenOverRun.foldlM step (start .reference)).any (fun bridge =>
      decide (bridge.grants.map (fun grant => (grant.client, grant.active)) = [(tab, some (.other 0))])) = true := by
    decide +kernel
  obtain ⟨bridge, hreaches, hcheck⟩ := Runs.exists_of_foldlM hruns
  exact ⟨bridge, hreaches, of_decide_eq_true hcheck⟩

end Bridge

end FesTerm.TunnelBridge
