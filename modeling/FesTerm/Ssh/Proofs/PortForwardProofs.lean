import FesTerm.Ssh.PortForward

/-!
# Port forwards are not confused

Whoever holds an incarnation keeps its address from being handed out again, so that among all that are held
two with one address are the same. A binding is reserved as the incarnation of its only reservation since the
last reset.
-/

namespace FesTerm.Ssh

open List
open Option hiding or_assoc

/-! ## The index of the inventory -/

namespace PortForwardInventory

variable {inventory inventory' : PortForwardInventory} {forward : ActivePortForward} {key : PortForwardBindingKey}

def Indexed (inventory : PortForwardInventory) : Prop :=
  inventory.bindings.Indexes (inventory.entries.map (·.key))

theorem Indexed.insert (h : inventory.Indexed) (hinsert : inventory.insert forward = some inventory') :
    inventory'.Indexed ∧ inventory'.entries = inventory.entries ++ [forward] := by
  unfold PortForwardInventory.insert at hinsert
  split at hinsert
  · next hasserted =>
    cases hinsert
    refine ⟨?_, rfl⟩
    have happended := Table.Indexes.append h hasserted.2
    unfold Indexed
    rw [map_append]
    rwa [length_map] at happended
  · cases hinsert

theorem perm_eraseIdx {α : Type} {l : List α} {a : α} {n : Nat} (h : l[n]? = some a) :
    (l.eraseIdx n ++ [a]).Perm l := by
  obtain ⟨hlt, rfl⟩ := List.getElem?_eq_some_iff.mp h
  exact perm_append_singleton _ _ |>.trans (getElem_cons_eraseIdx_perm hlt)

theorem Indexed.remove (h : inventory.Indexed) (key : PortForwardBindingKey) :
    ∃ forward inventory', inventory.remove key = some (forward, inventory') ∧ inventory'.Indexed ∧
      (inventory'.entries ++ forward.toList).Perm inventory.entries := by
  unfold PortForwardInventory.remove
  cases hget : inventory.bindings.get key with
  | none => exact ⟨none, inventory, rfl, h, by simp⟩
  | some index =>
    have hkey := (h key index).mp hget
    rw [getElem?_map] at hkey
    obtain ⟨removed, hremoved, -⟩ := map_eq_some_iff.mp hkey
    obtain ⟨bindings, hbindings, hindexes⟩ := Table.Indexes.erase h hget
    rw [eraseIdx_map] at hbindings hindexes
    rw [← map_drop] at hbindings
    simp only [hremoved, hbindings, bind_eq_bind, bind_some, Option.pure_def, some.injEq,
      Prod.mk.injEq]
    refine ⟨some removed, _, ⟨rfl, rfl⟩, ?_, perm_eraseIdx hremoved⟩
    unfold Indexed
    split
    · next hempty =>
      rw [List.isEmpty_iff.mp hempty]
      exact .empty
    · exact hindexes

end PortForwardInventory

/-! ## The invariant -/

namespace PortForwards

variable {forwards after : PortForwards} {op : PortForwardOp} {reservation : PortForwardReservation}

structure Bookkept (forwards : PortForwards) : Prop where
  indexed : forwards.inventory.Indexed
  numbered : (forwards.reservations.map (·.incarnation.allocation)).Nodup
  allocated : ∀ incarnation ∈ forwards.incarnations, incarnation.allocation < forwards.allocated
  /-- The address tells incarnations apart that somebody holds. -/
  apart : ∀ incarnation ∈ forwards.incarnations, ∀ other ∈ forwards.incarnations,
    incarnation.address = other.address → incarnation = other
  reserved : ∀ key incarnation, forwards.admissions.bindings.get key = some incarnation ↔
    ∃ reservation ∈ forwards.reservations, reservation.key = key ∧ reservation.incarnation = incarnation ∧
      forwards.OfCurrentGeneration reservation
  generation : ∀ reservation ∈ forwards.reservations, forwards.OfCurrentGeneration reservation →
    reservation.generation = forwards.admissions.generation
  limit : forwards.admissions.bindings.entries.length ≤ maxSshPortForwardEntries
  since_le : forwards.since ≤ forwards.allocated

variable {incarnation : PortForwardIncarnation}

theorem mem_incarnations : incarnation ∈ forwards.incarnations ↔
    (∃ key, forwards.admissions.bindings.get key = some incarnation) ∨
      (∃ reservation ∈ forwards.reservations, reservation.incarnation = incarnation) ∨
      ∃ key, (key, incarnation) ∈ forwards.tokens := by
  unfold incarnations
  rw [mem_append, mem_append, or_assoc, List.mem_map, List.mem_map, List.mem_map]
  refine or_congr ?_ (or_congr Iff.rfl ?_)
  · constructor
    · rintro ⟨⟨key, _⟩, hmem, rfl⟩
      exact ⟨key, Table.get_eq_some.mpr hmem⟩
    · rintro ⟨key, hget⟩
      exact ⟨(key, incarnation), Table.get_eq_some.mp hget, rfl⟩
  · constructor
    · rintro ⟨⟨key, _⟩, hmem, rfl⟩
      exact ⟨key, hmem⟩
    · rintro ⟨key, hmem⟩
      exact ⟨(key, incarnation), hmem, rfl⟩

theorem mem_of_reservation (h : reservation ∈ forwards.reservations) :
    reservation.incarnation ∈ forwards.incarnations := mem_incarnations.mpr (.inr (.inl ⟨reservation, h, rfl⟩))

variable {position : Nat}

theorem mem_of_held {admitted : AdmittedPortForward}
    (h : forwards.held[position]? = some admitted) : admitted.reservation ∈ forwards.reservations :=
  mem_append_left _ (List.mem_map_of_mem (mem_of_getElem? h))

variable {other : PortForwardReservation}

theorem Bookkept.eq_of_allocation (h : Bookkept forwards)
    (hmem : reservation ∈ forwards.reservations) (hother : other ∈ forwards.reservations)
    (hsame : reservation.incarnation.allocation = other.incarnation.allocation) : reservation = other :=
  inj_on_of_nodup_map h.numbered hmem hother hsame

theorem Bookkept.eq_of_key (h : Bookkept forwards)
    (hmem : reservation ∈ forwards.reservations) (hother : other ∈ forwards.reservations)
    (hkey : reservation.key = other.key) (hcurrent : forwards.OfCurrentGeneration reservation)
    (hcurrent' : forwards.OfCurrentGeneration other) : reservation = other := by
  have hfirst := (h.reserved reservation.key _).mpr ⟨reservation, hmem, rfl, rfl, hcurrent⟩
  have hsecond := (h.reserved reservation.key _).mpr ⟨other, hother, hkey.symm, rfl, hcurrent'⟩
  have hsame := some.inj (hfirst.symm.trans hsecond)
  exact h.eq_of_allocation hmem hother (congrArg PortForwardIncarnation.allocation hsame)

theorem Bookkept.isCurrent_iff (h : Bookkept forwards) (hmem : reservation ∈ forwards.reservations) :
    reservation.isCurrent forwards.admissions = true ↔ forwards.OfCurrentGeneration reservation := by
  unfold PortForwardReservation.isCurrent
  rw [Bool.and_eq_true, decide_eq_true_eq, Option.any_eq_true]
  constructor
  · rintro ⟨-, incarnation, hget, hsame⟩
    have hheld := mem_incarnations.mpr (.inl ⟨reservation.key, hget⟩)
    obtain rfl := h.apart incarnation hheld _ (mem_of_reservation hmem) (of_decide_eq_true hsame)
    obtain ⟨other, hother, -, hincarnation, hcurrent⟩ := (h.reserved _ _).mp hget
    obtain rfl := h.eq_of_allocation hother hmem (congrArg PortForwardIncarnation.allocation hincarnation)
    exact hcurrent
  · intro hcurrent
    refine ⟨(h.generation reservation hmem hcurrent).symm, reservation.incarnation, ?_, decide_eq_true rfl⟩
    exact (h.reserved _ _).mpr ⟨reservation, hmem, rfl, rfl, hcurrent⟩

/-! ## Every operation keeps it -/

theorem Bookkept.moved (h : Bookkept forwards) (hadmissions : after.admissions = forwards.admissions)
    (hallocated : after.allocated = forwards.allocated) (hsince : after.since = forwards.since)
    (hindexed : after.inventory.Indexed) (hreservations : after.reservations.Perm forwards.reservations)
    (htokens : ∀ token ∈ after.tokens, token.2 ∈ forwards.incarnations) : Bookkept after := by
  have hmem : ∀ incarnation ∈ after.incarnations, incarnation ∈ forwards.incarnations := by
    intro incarnation hincarnation
    rcases mem_incarnations.mp hincarnation with ⟨key, hget⟩ | ⟨reservation, hreservation, rfl⟩ | ⟨key, htoken⟩
    · exact mem_incarnations.mpr (.inl ⟨key, hadmissions ▸ hget⟩)
    · exact mem_of_reservation (hreservations.mem_iff.mp hreservation)
    · exact htokens _ htoken
  refine
    { indexed := hindexed
      numbered := (hreservations.map _).nodup_iff.mpr h.numbered
      allocated := fun incarnation hincarnation => hallocated ▸ h.allocated incarnation (hmem _ hincarnation)
      apart := fun incarnation hincarnation other hother =>
        h.apart incarnation (hmem _ hincarnation) other (hmem _ hother)
      reserved := fun key incarnation => ?_
      generation := fun reservation hreservation hcurrent => ?_
      limit := hadmissions ▸ h.limit
      since_le := hsince ▸ hallocated ▸ h.since_le }
  · rw [hadmissions, h.reserved]
    unfold OfCurrentGeneration
    rw [hsince]
    exact exists_congr fun reservation => and_congr_left fun _ => hreservations.mem_iff.symm
  · rw [hadmissions]
    unfold OfCurrentGeneration at hcurrent
    rw [hsince] at hcurrent
    exact h.generation reservation (hreservations.mem_iff.mp hreservation) hcurrent

theorem Bookkept.start : Bookkept start where
  indexed := .empty
  numbered := nodup_nil
  allocated _ hincarnation := by cases hincarnation
  apart _ hincarnation := by cases hincarnation
  reserved key incarnation := by
    constructor
    · intro hget
      cases hget
    · rintro ⟨_, hmem, -⟩
      cases hmem
  generation _ hmem := by cases hmem
  limit := Nat.zero_le _
  since_le := le_rfl

theorem Bookkept.reset (h : Bookkept forwards) (generation : UInt64) :
    Bookkept { forwards with admissions := .reset generation, since := forwards.allocated } := by
  have hmem : ∀ incarnation ∈ ({ forwards with
      admissions := .reset generation, since := forwards.allocated } : PortForwards).incarnations,
      incarnation ∈ forwards.incarnations := by
    intro incarnation hincarnation
    rcases mem_incarnations.mp hincarnation with ⟨key, hget⟩ | hrest
    · cases hget
    · exact mem_incarnations.mpr (.inr hrest)
  have hold : ∀ reservation ∈ forwards.reservations, ¬ forwards.allocated ≤ reservation.incarnation.allocation :=
    fun reservation hreservation => Nat.not_le.mpr (h.allocated _ (mem_of_reservation hreservation))
  exact
    { indexed := h.indexed
      numbered := h.numbered
      allocated := fun incarnation hincarnation => h.allocated incarnation (hmem _ hincarnation)
      apart := fun incarnation hincarnation other hother =>
        h.apart incarnation (hmem _ hincarnation) other (hmem _ hother)
      reserved := by
        intro key incarnation
        constructor
        · intro hget
          cases hget
        · rintro ⟨reservation, hreservation, -, -, hcurrent⟩
          exact absurd hcurrent (hold reservation hreservation)
      generation := fun reservation hreservation hcurrent => absurd hcurrent (hold reservation hreservation)
      limit := Nat.zero_le _
      since_le := le_rfl }

theorem perm_of_held {admitted : AdmittedPortForward} (hheld : forwards.held[position]? = some admitted) :
    ((forwards.held.eraseIdx position).map (·.reservation) ++ [admitted.reservation]).Perm
      (forwards.held.map (·.reservation)) := by
  have herased := (PortForwardInventory.perm_eraseIdx hheld).map (·.reservation)
  rwa [map_append] at herased

/-- A reservation with an incarnation that is new and a binding that is not reserved. -/
theorem Bookkept.admitted (h : Bookkept forwards) {admitted : AdmittedPortForward}
    (hfresh : admitted.reservation.incarnation.address ∉ forwards.incarnations.map (·.address))
    (hallocation : admitted.reservation.incarnation.allocation = forwards.allocated)
    (hgeneration : admitted.reservation.generation = forwards.admissions.generation)
    (hnone : forwards.admissions.bindings.get admitted.reservation.key = none)
    (hroom : forwards.admissions.bindings.entries.length < maxSshPortForwardEntries) :
    Bookkept { forwards with
      admissions := { forwards.admissions with
        bindings := forwards.admissions.bindings.insert admitted.reservation.key admitted.reservation.incarnation }
      held := forwards.held ++ [admitted]
      allocated := forwards.allocated + 1 } := by
  generalize hafter : ({ forwards with
    admissions := { forwards.admissions with
      bindings := forwards.admissions.bindings.insert admitted.reservation.key admitted.reservation.incarnation }
    held := forwards.held ++ [admitted]
    allocated := forwards.allocated + 1 } : PortForwards) = after
  have hbindings : ∀ key, after.admissions.bindings.get key =
      if key = admitted.reservation.key then some admitted.reservation.incarnation
      else forwards.admissions.bindings.get key := by
    intro key
    rw [← hafter]
    exact Table.get_insert ..
  have hperm : after.reservations.Perm (admitted.reservation :: forwards.reservations) := by
    rw [← hafter]
    unfold reservations
    simp only [map_append, map_cons, map_nil, append_assoc, singleton_append]
    exact perm_middle
  have hmem : ∀ other, other ∈ after.reservations ↔ other = admitted.reservation ∨ other ∈ forwards.reservations :=
    fun other => hperm.mem_iff.trans mem_cons
  have hsince : after.since = forwards.since := by rw [← hafter]
  have hincarnations : ∀ incarnation ∈ after.incarnations,
      incarnation = admitted.reservation.incarnation ∨ incarnation ∈ forwards.incarnations := by
    intro incarnation hincarnation
    rcases mem_incarnations.mp hincarnation with ⟨key, hget⟩ | ⟨other, hother, rfl⟩ | ⟨key, htoken⟩
    · rw [hbindings] at hget
      split at hget
      · exact .inl (some.inj hget).symm
      · exact .inr (mem_incarnations.mpr (.inl ⟨key, hget⟩))
    · rcases (hmem other).mp hother with rfl | hold
      · exact .inl rfl
      · exact .inr (mem_of_reservation hold)
    · rw [← hafter] at htoken
      exact .inr (mem_incarnations.mpr (.inr (.inr ⟨key, htoken⟩)))
  have hnew : ∀ incarnation ∈ forwards.incarnations,
      incarnation.address ≠ admitted.reservation.incarnation.address :=
    fun incarnation hincarnation hsame => hfresh (List.mem_map.mpr ⟨incarnation, hincarnation, hsame⟩)
  have hallocated : after.allocated = forwards.allocated + 1 := by rw [← hafter]
  refine
    { indexed := hafter ▸ h.indexed
      numbered := ?_
      allocated := fun incarnation hincarnation => ?_
      apart := fun incarnation hincarnation other hother hsame => ?_
      reserved := fun key incarnation => ?_
      generation := fun other hother hcurrent => ?_
      limit := ?_
      since_le := ?_ }
  · refine (hperm.map _).nodup_iff.mpr (nodup_cons.mpr ⟨fun hold => ?_, h.numbered⟩)
    obtain ⟨other, hother, hsame⟩ := List.mem_map.mp hold
    have hlt := h.allocated _ (mem_of_reservation hother)
    exact hlt.ne (hsame.trans hallocation)
  · rcases hincarnations incarnation hincarnation with rfl | hold
    · omega
    · have hlt := h.allocated incarnation hold
      omega
  · rcases hincarnations incarnation hincarnation with rfl | hold
    · rcases hincarnations other hother with rfl | hold'
      · rfl
      · exact absurd hsame.symm (hnew other hold')
    · rcases hincarnations other hother with rfl | hold'
      · exact absurd hsame (hnew incarnation hold)
      · exact h.apart incarnation hold other hold' hsame
  · unfold OfCurrentGeneration
    rw [hbindings, hsince]
    by_cases hkey : key = admitted.reservation.key
    · rw [if_pos hkey, some.injEq]
      constructor
      · rintro rfl
        exact ⟨admitted.reservation, (hmem _).mpr (.inl rfl), hkey.symm, rfl, hallocation ▸ h.since_le⟩
      · rintro ⟨other, hother, hotherKey, rfl, hcurrent⟩
        rcases (hmem other).mp hother with rfl | hold
        · rfl
        · have hget := (h.reserved _ _).mpr ⟨other, hold, hotherKey.trans hkey, rfl, hcurrent⟩
          rw [hnone] at hget
          cases hget
    · rw [if_neg hkey, h.reserved]
      constructor
      · rintro ⟨other, hother, hrest⟩
        exact ⟨other, (hmem other).mpr (.inr hother), hrest⟩
      · rintro ⟨other, hother, hotherKey, hrest⟩
        rcases (hmem other).mp hother with rfl | hold
        · exact absurd hotherKey.symm hkey
        · exact ⟨other, hold, hotherKey, hrest⟩
  · have hsame : after.admissions.generation = forwards.admissions.generation := by rw [← hafter]
    rw [hsame]
    rcases (hmem other).mp hother with rfl | hold
    · exact hgeneration
    · unfold OfCurrentGeneration at hcurrent
      rw [hsince] at hcurrent
      exact h.generation other hold hcurrent
  · rw [← hafter]
    exact (Table.length_insert_le ..).trans hroom
  · have hle := h.since_le
    omega

variable {admissions : PortForwardAdmissions}

theorem reserve_eq_ok {admissions' : PortForwardAdmissions} {requested : RequestedSshPortForward}
    {generation : UInt64} {admitted : AdmittedPortForward}
    (h : admissions.reserve requested generation incarnation = .ok (admitted, admissions')) :
    admissions.bindings.get admitted.reservation.key = none ∧
      admissions.bindings.entries.length ≠ maxSshPortForwardEntries ∧
      admitted.reservation.generation = admissions.generation ∧ admitted.reservation.incarnation = incarnation ∧
      admissions' = { admissions with
        bindings := admissions.bindings.insert admitted.reservation.key incarnation } := by
  unfold PortForwardAdmissions.reserve at h
  split at h
  · cases h
  next hgeneration =>
  split at h
  · cases h
  next hunreserved =>
  split at h
  · cases h
  next hroom =>
  cases h
  exact ⟨not_isSome_iff_eq_none.mp hunreserved, hroom, not_not.mp hgeneration, rfl, rfl⟩

theorem drop_of_current (h : reservation.isCurrent admissions = true) :
    reservation.drop admissions = { admissions with bindings := admissions.bindings.erase reservation.key } := if_pos h

theorem drop_of_stale (h : ¬ reservation.isCurrent admissions = true) :
    reservation.drop admissions = admissions := if_neg h

/-- A reservation that is dropped releases its binding where it is the current one. -/
theorem Bookkept.drop (h : Bookkept forwards) {admitted : AdmittedPortForward}
    (hheld : forwards.held[position]? = some admitted) :
    Bookkept { forwards with
      held := forwards.held.eraseIdx position
      admissions := admitted.reservation.drop forwards.admissions } := by
  generalize hafter : ({ forwards with
    held := forwards.held.eraseIdx position
    admissions := admitted.reservation.drop forwards.admissions } : PortForwards) = after
  have hself := mem_of_held hheld
  have hperm : (admitted.reservation :: after.reservations).Perm forwards.reservations := by
    rw [← hafter]
    refine List.Perm.trans ?_ ((perm_of_held hheld).append_right _)
    unfold reservations
    rw [append_assoc, singleton_append]
    exact List.perm_middle.symm
  have hnodup := (hperm.map (·.incarnation.allocation)).nodup_iff.mpr h.numbered
  have hmem : ∀ other, other ∈ after.reservations ↔ other ∈ forwards.reservations ∧ other ≠ admitted.reservation := by
    intro other
    rw [← hperm.mem_iff, mem_cons]
    constructor
    · intro hother
      refine ⟨.inr hother, ?_⟩
      rintro rfl
      exact (nodup_cons.mp hnodup).1 (List.mem_map_of_mem hother)
    · rintro ⟨rfl | hother, hne⟩
      · exact absurd rfl hne
      · exact hother
  have hbindings : ∀ key incarnation, after.admissions.bindings.get key = some incarnation ↔
      forwards.admissions.bindings.get key = some incarnation ∧
        ¬ (key = admitted.reservation.key ∧ forwards.OfCurrentGeneration admitted.reservation) := by
    intro key incarnation
    rw [← hafter, ← h.isCurrent_iff hself]
    by_cases hcurrent : admitted.reservation.isCurrent forwards.admissions = true
    · rw [drop_of_current hcurrent]
      by_cases hkey : key = admitted.reservation.key
      · simp [hkey, hcurrent]
      · simp [hkey]
    · rw [drop_of_stale hcurrent]
      simp [hcurrent]
  have hsince : after.since = forwards.since := by rw [← hafter]
  have hallocated : after.allocated = forwards.allocated := by rw [← hafter]
  have hgeneration : after.admissions.generation = forwards.admissions.generation := by
    rw [← hafter]
    unfold PortForwardReservation.drop
    split <;> rfl
  have hincarnations : ∀ incarnation ∈ after.incarnations, incarnation ∈ forwards.incarnations := by
    intro incarnation hincarnation
    rcases mem_incarnations.mp hincarnation with ⟨key, hget⟩ | ⟨other, hother, rfl⟩ | ⟨key, htoken⟩
    · exact mem_incarnations.mpr (.inl ⟨key, ((hbindings key incarnation).mp hget).1⟩)
    · exact mem_of_reservation ((hmem other).mp hother).1
    · rw [← hafter] at htoken
      exact mem_incarnations.mpr (.inr (.inr ⟨key, htoken⟩))
  refine
    { indexed := hafter ▸ h.indexed
      numbered := (nodup_cons.mp hnodup).2
      allocated := fun incarnation hincarnation => hallocated ▸ h.allocated incarnation (hincarnations _ hincarnation)
      apart := fun incarnation hincarnation other hother =>
        h.apart incarnation (hincarnations _ hincarnation) other (hincarnations _ hother)
      reserved := fun key incarnation => ?_
      generation := fun other hother hcurrent => ?_
      limit := ?_
      since_le := hsince ▸ hallocated ▸ h.since_le }
  · unfold OfCurrentGeneration
    rw [hbindings, h.reserved, hsince]
    constructor
    · rintro ⟨⟨other, hother, hkey, hsame, hcurrent⟩, hnot⟩
      refine ⟨other, (hmem other).mpr ⟨hother, ?_⟩, hkey, hsame, hcurrent⟩
      rintro rfl
      exact hnot ⟨hkey.symm, hcurrent⟩
    · rintro ⟨other, hother, hkey, hsame, hcurrent⟩
      obtain ⟨hold, hne⟩ := (hmem other).mp hother
      refine ⟨⟨other, hold, hkey, hsame, hcurrent⟩, ?_⟩
      rintro ⟨hdropped, hcurrent'⟩
      exact hne (h.eq_of_key hold hself (hkey.trans hdropped) hcurrent hcurrent')
  · unfold OfCurrentGeneration at hcurrent
    rw [hsince] at hcurrent
    rw [hgeneration]
    exact h.generation other ((hmem other).mp hother).1 hcurrent
  · rw [← hafter]
    unfold PortForwardReservation.drop
    split
    · exact (Table.length_erase_le ..).trans h.limit
    · exact h.limit

theorem Bookkept.step (h : Bookkept forwards) (hstep : forwards.step op = some after) : Bookkept after := by
  have htokens : ∀ token ∈ forwards.tokens, token.2 ∈ forwards.incarnations :=
    fun token htoken => mem_incarnations.mpr (.inr (.inr ⟨token.1, htoken⟩))
  cases op with
  | reset generation =>
    cases hstep
    exact h.reset generation
  | reserve requested generation address =>
    simp only [PortForwards.step] at hstep
    split at hstep
    · cases hstep
    next hfresh =>
    split at hstep
    · cases hstep
      exact h
    next admitted admissions hreserve =>
    cases hstep
    obtain ⟨hnone, hroom, hgeneration, hincarnation, rfl⟩ := reserve_eq_ok hreserve
    have hadmitted := @Bookkept.admitted _ h admitted (by rw [hincarnation]; exact hfresh)
      (by rw [hincarnation]) hgeneration hnone (Nat.lt_of_le_of_ne h.limit hroom)
    rwa [hincarnation] at hadmitted
  | drop position =>
    obtain ⟨admitted, hheld, hstep⟩ := bind_eq_some_iff.mp hstep
    cases hstep
    exact h.drop hheld
  | insert position state failureReason =>
    obtain ⟨admitted, hheld, hstep⟩ := bind_eq_some_iff.mp hstep
    obtain ⟨inventory, hinsert, hstep⟩ := bind_eq_some_iff.mp hstep
    cases hstep
    obtain ⟨hindexed, hentries⟩ := h.indexed.insert hinsert
    refine h.moved rfl rfl rfl hindexed ?_ htokens
    unfold reservations
    simp only [hentries, map_append, map_cons, map_nil]
    refine List.Perm.trans ?_ ((perm_of_held hheld).append_right _)
    rw [append_assoc]
    exact List.perm_append_comm.append_left _
  | remove key =>
    obtain ⟨forward, inventory, hremove, hindexed, hperm⟩ := h.indexed.remove key
    simp only [PortForwards.step, hremove, bind_eq_bind, bind_some, Option.pure_def,
      some.injEq] at hstep
    subst hstep
    refine h.moved rfl rfl rfl hindexed ?_ htokens
    unfold reservations
    have hentries := hperm.map (·.reservation)
    rw [map_append] at hentries
    rw [map_append, List.map_map, append_assoc]
    exact (List.perm_append_comm.trans hentries).append_left _
  | listen position =>
    obtain ⟨admitted, hheld, hstep⟩ := bind_eq_some_iff.mp hstep
    cases hstep
    refine h.moved rfl rfl rfl h.indexed (.refl _) fun token htoken => ?_
    rcases mem_append.mp htoken with hold | hnew
    · exact htokens token hold
    · rw [mem_singleton.mp hnew]
      exact mem_of_reservation (mem_of_held hheld)
  | accept position =>
    obtain ⟨accepted, haccepted, hstep⟩ := bind_eq_some_iff.mp hstep
    cases hstep
    refine h.moved rfl rfl rfl h.indexed (.refl _) fun token htoken => ?_
    rcases mem_append.mp htoken with hold | hnew
    · exact htokens token hold
    · rw [mem_singleton.mp hnew]
      exact htokens accepted (mem_of_getElem? haccepted)
  | forwarded key =>
    simp only [PortForwards.step] at hstep
    split at hstep
    · cases hstep
      exact h
    next incarnation hincarnation =>
    cases hstep
    refine h.moved rfl rfl rfl h.indexed (.refl _) fun token htoken => ?_
    rcases mem_append.mp htoken with hold | hnew
    · exact htokens token hold
    · rw [mem_singleton.mp hnew]
      exact mem_incarnations.mpr (.inl ⟨key, hincarnation⟩)
  | forget position =>
    cases hstep
    refine h.moved rfl rfl rfl h.indexed (.refl _) fun token htoken => ?_
    exact htokens token (mem_of_mem_eraseIdx htoken)

/-! ## What is promised -/

/-- The current reservations of the inventory are no more than the reserved bindings. -/
theorem Bookkept.insert_accepts (h : Bookkept forwards) {admitted : AdmittedPortForward}
    (state : SshPortForwardState) (failureReason : Option String)
    (hheld : forwards.held[position]? = some admitted)
    (hcurrent : admitted.reservation.isCurrent forwards.admissions = true)
    (hentries : ∀ entry ∈ forwards.inventory.entries, entry.reservation.isCurrent forwards.admissions = true) :
    ∃ after, forwards.step (.insert position state failureReason) = some after := by
  have hself := mem_of_held hheld
  have hmem : ∀ entry ∈ forwards.inventory.entries, entry.reservation ∈ forwards.reservations :=
    fun entry hentry => mem_append_right _ (List.mem_map_of_mem hentry)
  have hcurrentSelf := (h.isCurrent_iff hself).mp hcurrent
  have hother : ∀ entry ∈ forwards.inventory.entries, entry.reservation ≠ admitted.reservation := by
    intro entry hentry hsame
    have hnumbered := h.numbered
    unfold reservations at hnumbered
    rw [map_append] at hnumbered
    refine (nodup_append.mp hnumbered).2.2 _ (List.mem_map_of_mem (List.mem_map_of_mem
      (mem_of_getElem? hheld))) _ (List.mem_map_of_mem (List.mem_map_of_mem hentry)) ?_
    rw [hsame]
  have hkey : admitted.reservation.key ∉ forwards.inventory.entries.map (·.key) := by
    intro hmapped
    obtain ⟨entry, hentry, hsame⟩ := List.mem_map.mp hmapped
    have hcurrentEntry := (h.isCurrent_iff (hmem entry hentry)).mp (hentries entry hentry)
    exact hother entry hentry (h.eq_of_key (hmem entry hentry) hself hsame hcurrentEntry hcurrentSelf)
  have hnew : forwards.inventory.bindings.contains admitted.reservation.key = false := by
    rw [← Bool.not_eq_true, Table.contains_iff]
    rintro ⟨position, hposition⟩
    exact hkey (mem_of_getElem? ((h.indexed _ _).mp hposition))
  have hroom : forwards.inventory.entries.length < maxSshPortForwardEntries := by
    have hkeys : (admitted.reservation.key :: forwards.inventory.entries.map (·.key)).Nodup :=
      nodup_cons.mpr ⟨hkey, h.indexed.nodup⟩
    have hle := @Table.length_le_of_keys _ _ _ forwards.admissions.bindings _ hkeys fun key hmember => ?_
    · rw [length_cons, length_map] at hle
      exact Nat.lt_of_succ_le (hle.trans h.limit)
    · rcases mem_cons.mp hmember with rfl | hmapped
      · exact ⟨_, (h.reserved _ _).mpr ⟨admitted.reservation, hself, rfl, rfl, hcurrentSelf⟩⟩
      · obtain ⟨entry, hentry, rfl⟩ := List.mem_map.mp hmapped
        have hcurrentEntry := (h.isCurrent_iff (hmem entry hentry)).mp (hentries entry hentry)
        exact ⟨_, (h.reserved _ _).mpr ⟨entry.reservation, hmem entry hentry, rfl, rfl, hcurrentEntry⟩⟩
  simp only [PortForwards.step, hheld, bind_eq_bind, bind_some, PortForwardInventory.insert]
  rw [if_pos ⟨hroom, hnew⟩]
  exact ⟨_, rfl⟩

theorem Bookkept.lookup (h : Bookkept forwards) {key : PortForwardBindingKey}
    (htoken : (key, incarnation) ∈ forwards.tokens) :
    ∃ found, forwards.inventory.getCurrent key incarnation = some found ∧
      ∀ entry ∈ found, entry ∈ forwards.inventory.entries ∧ entry.key = key ∧ entry.runtime.state = .active ∧
        entry.reservation.incarnation = incarnation := by
  unfold PortForwardInventory.getCurrent PortForwardInventory.get
  cases hget : forwards.inventory.bindings.get key with
  | none => exact ⟨none, rfl, by simp⟩
  | some index =>
    have hkey := (h.indexed key index).mp hget
    rw [getElem?_map] at hkey
    obtain ⟨entry, hentry, hentryKey⟩ := map_eq_some_iff.mp hkey
    simp only [hentry, map_some, bind_eq_bind, bind_some, Option.pure_def]
    refine ⟨_, rfl, fun found hfound => ?_⟩
    obtain ⟨hsame, hmatches⟩ := filter_eq_some_iff.mp hfound
    cases hsame
    rw [Bool.and_eq_true, decide_eq_true_eq] at hmatches
    have hmem := mem_of_getElem? hentry
    refine ⟨hmem, hentryKey, hmatches.1, ?_⟩
    exact h.apart _ (mem_of_reservation (mem_append_right _ (List.mem_map_of_mem hmem))) incarnation
      (mem_incarnations.mpr (.inr (.inr ⟨key, htoken⟩))) (of_decide_eq_true hmatches.2)

/-- Only a reset and the drop of the current reservation take a binding out. -/
theorem Bookkept.released (h : Bookkept forwards) {key : PortForwardBindingKey} (hstep : forwards.step op = some after)
    (hget : forwards.admissions.bindings.get key = some incarnation)
    (hgone : after.admissions.bindings.get key ≠ some incarnation) :
    (∃ generation, op = .reset generation) ∨ ∃ position admitted, op = .drop position ∧
      forwards.held[position]? = some admitted ∧ admitted.reservation.key = key ∧
      admitted.reservation.incarnation = incarnation := by
  cases op with
  | reset generation => exact .inl ⟨generation, rfl⟩
  | reserve requested generation address =>
    simp only [PortForwards.step] at hstep
    split at hstep
    · cases hstep
    split at hstep
    · cases hstep
      exact absurd hget hgone
    next admitted admissions hreserve =>
    cases hstep
    obtain ⟨hnone, -, -, -, rfl⟩ := reserve_eq_ok hreserve
    simp only [Table.get_insert] at hgone
    split at hgone
    · next hkey =>
      rw [hkey, hnone] at hget
      cases hget
    · exact absurd hget hgone
  | drop position =>
    obtain ⟨admitted, hheld, hstep⟩ := bind_eq_some_iff.mp hstep
    cases hstep
    by_cases hcurrent : admitted.reservation.isCurrent forwards.admissions = true
    · simp only [drop_of_current hcurrent, Table.get_erase] at hgone
      split at hgone
      · next hkey =>
        have hself := mem_of_held hheld
        have hreserved := (h.reserved _ _).mpr
          ⟨admitted.reservation, hself, hkey.symm, rfl, (h.isCurrent_iff hself).mp hcurrent⟩
        exact .inr ⟨position, admitted, rfl, hheld, hkey.symm, some.inj (hreserved.symm.trans hget)⟩
      · exact absurd hget hgone
    · simp only [drop_of_stale hcurrent] at hgone
      exact absurd hget hgone
  | insert position state failureReason =>
    obtain ⟨admitted, -, hstep⟩ := bind_eq_some_iff.mp hstep
    obtain ⟨inventory, -, hstep⟩ := bind_eq_some_iff.mp hstep
    cases hstep
    exact absurd hget hgone
  | remove key =>
    obtain ⟨removed, -, hstep⟩ := bind_eq_some_iff.mp hstep
    cases hstep
    exact absurd hget hgone
  | listen position =>
    obtain ⟨admitted, -, hstep⟩ := bind_eq_some_iff.mp hstep
    cases hstep
    exact absurd hget hgone
  | accept position =>
    obtain ⟨token, -, hstep⟩ := bind_eq_some_iff.mp hstep
    cases hstep
    exact absurd hget hgone
  | forwarded key =>
    simp only [PortForwards.step] at hstep
    split at hstep
    · cases hstep
      exact absurd hget hgone
    · cases hstep
      exact absurd hget hgone
  | forget position =>
    cases hstep
    exact absurd hget hgone

theorem Bookkept.newest (h : Bookkept forwards) {key : PortForwardBindingKey}
    (hget : forwards.admissions.bindings.get key = some incarnation) :
    ∃ reservation ∈ forwards.reservations, reservation.key = key ∧ reservation.incarnation = incarnation ∧
      ∀ other ∈ forwards.reservations, other.key = key → other ≠ reservation →
        other.incarnation.allocation < incarnation.allocation := by
  obtain ⟨reservation, hmem, hkey, rfl, hcurrent⟩ := (h.reserved _ _).mp hget
  refine ⟨reservation, hmem, hkey, rfl, fun other hother hotherKey hne => ?_⟩
  by_contra hle
  have hotherCurrent : forwards.OfCurrentGeneration other := le_trans hcurrent (Nat.not_lt.mp hle)
  exact hne (h.eq_of_key hother hmem (hotherKey.trans hkey.symm) hotherCurrent hcurrent)

theorem Bookkept.unconfused (h : Bookkept forwards) : Unconfused forwards where
  index key position := by
    rw [h.indexed key position, getElem?_map, map_eq_some_iff]
  limit := h.limit
  reserved key := by
    rw [Table.contains_iff]
    constructor
    · rintro ⟨incarnation, hget⟩
      obtain ⟨reservation, hmem, hkey, -, hcurrent⟩ := (h.reserved _ _).mp hget
      exact ⟨reservation, hmem, hkey, hcurrent⟩
    · rintro ⟨reservation, hmem, hkey, hcurrent⟩
      exact ⟨_, (h.reserved _ _).mpr ⟨reservation, hmem, hkey, rfl, hcurrent⟩⟩
  newest _ _ hget := h.newest hget
  current _ hmem := h.isCurrent_iff hmem
  released _ _ _ _ hstep hget hgone := h.released hstep hget hgone
  lookup _ _ htoken := h.lookup htoken
  inserted _ _ state failureReason hheld hcurrent hentries :=
    h.insert_accepts state failureReason hheld hcurrent hentries

theorem bookkept_of_reaches {allowed : PortForwards → PortForwardOp → Prop}
    (h : Runs.Reaches step allowed .start forwards) : Bookkept forwards := by
  induction h with
  | refl => exact .start
  | step _ _ hstep ih => exact ih.step hstep

/-- What an operation other than a reset does to the reservations: a new one is of the current generation. -/
theorem Bookkept.reservations_of_step (h : Bookkept forwards) (hstep : forwards.step op = some after)
    (hreset : ∀ generation, op ≠ .reset generation) :
    after.admissions.generation = forwards.admissions.generation ∧ after.since = forwards.since ∧
      ∀ reservation ∈ after.reservations,
        reservation ∈ forwards.reservations ∨ reservation.incarnation.allocation = forwards.allocated := by
  cases op with
  | reset generation => exact absurd rfl (hreset generation)
  | reserve requested generation address =>
    simp only [PortForwards.step] at hstep
    split at hstep
    · cases hstep
    split at hstep
    · cases hstep
      exact ⟨rfl, rfl, fun _ hmem => .inl hmem⟩
    next admitted admissions hreserve =>
    cases hstep
    obtain ⟨-, -, -, hincarnation, rfl⟩ := reserve_eq_ok hreserve
    refine ⟨rfl, rfl, fun reservation hmem => ?_⟩
    unfold reservations at hmem
    simp only [map_append, map_cons, map_nil, mem_append, mem_singleton] at hmem
    rcases hmem with (hheld | rfl) | hentry
    · exact .inl (mem_append_left _ hheld)
    · rw [hincarnation]
      exact .inr rfl
    · exact .inl (mem_append_right _ hentry)
  | drop position =>
    obtain ⟨admitted, -, hstep⟩ := bind_eq_some_iff.mp hstep
    cases hstep
    refine ⟨?_, rfl, fun reservation hmem => .inl ?_⟩
    · unfold PortForwardReservation.drop
      split <;> rfl
    · rcases mem_append.mp hmem with hheld | hentry
      · obtain ⟨other, hother, rfl⟩ := List.mem_map.mp hheld
        exact mem_append_left _ (List.mem_map_of_mem (mem_of_mem_eraseIdx hother))
      · exact mem_append_right _ hentry
  | insert position state failureReason =>
    obtain ⟨admitted, hheld, hstep⟩ := bind_eq_some_iff.mp hstep
    obtain ⟨inventory, hinsert, hstep⟩ := bind_eq_some_iff.mp hstep
    cases hstep
    refine ⟨rfl, rfl, fun reservation hmem => .inl ?_⟩
    obtain ⟨-, hentries⟩ := h.indexed.insert hinsert
    unfold reservations at hmem
    simp only [hentries, map_append, map_cons, map_nil, mem_append, mem_singleton] at hmem
    rcases hmem with hrest | hentry | rfl
    · obtain ⟨other, hother, rfl⟩ := List.mem_map.mp hrest
      exact mem_append_left _ (List.mem_map_of_mem (mem_of_mem_eraseIdx hother))
    · exact mem_append_right _ hentry
    · exact mem_of_held hheld
  | remove key =>
    obtain ⟨forward, inventory, hremove, -, hperm⟩ := h.indexed.remove key
    simp only [PortForwards.step, hremove, bind_eq_bind, bind_some, Option.pure_def,
      some.injEq] at hstep
    subst hstep
    refine ⟨rfl, rfl, fun reservation hmem => .inl ?_⟩
    unfold reservations at hmem
    rw [map_append, List.map_map, mem_append, mem_append] at hmem
    rcases hmem with (hheld | hremoved) | hentry
    · exact mem_append_left _ hheld
    · obtain ⟨entry, hentry, rfl⟩ := List.mem_map.mp hremoved
      exact mem_append_right _ (List.mem_map_of_mem (hperm.mem_iff.mp (mem_append_right _ hentry)))
    · obtain ⟨entry, hleft, rfl⟩ := List.mem_map.mp hentry
      exact mem_append_right _ (List.mem_map_of_mem (hperm.mem_iff.mp (mem_append_left _ hleft)))
  | listen position =>
    obtain ⟨admitted, -, hstep⟩ := bind_eq_some_iff.mp hstep
    cases hstep
    exact ⟨rfl, rfl, fun _ hmem => .inl hmem⟩
  | accept position =>
    obtain ⟨token, -, hstep⟩ := bind_eq_some_iff.mp hstep
    cases hstep
    exact ⟨rfl, rfl, fun _ hmem => .inl hmem⟩
  | forwarded key =>
    simp only [PortForwards.step] at hstep
    split at hstep
    · cases hstep
      exact ⟨rfl, rfl, fun _ hmem => .inl hmem⟩
    · cases hstep
      exact ⟨rfl, rfl, fun _ hmem => .inl hmem⟩
  | forget position =>
    cases hstep
    exact ⟨rfl, rfl, fun _ hmem => .inl hmem⟩

theorem generation_of_reaches (h : Runs.Reaches step NewGeneration .start forwards) :
    ∀ reservation ∈ forwards.reservations, reservation.generation = forwards.admissions.generation →
      forwards.OfCurrentGeneration reservation := by
  induction h with
  | refl =>
    intro reservation hmem
    cases hmem
  | @step before after op hreaches hallowed hstep ih =>
    have hkept := bookkept_of_reaches hreaches
    intro reservation hmem hgeneration
    by_cases hreset : ∃ generation, op = .reset generation
    · obtain ⟨generation, rfl⟩ := hreset
      cases hstep
      exact absurd hgeneration (hallowed reservation hmem)
    · obtain ⟨hsame, hsince, hold⟩ := hkept.reservations_of_step hstep fun generation heq => hreset ⟨generation, heq⟩
      unfold OfCurrentGeneration
      rw [hsince]
      rcases hold reservation hmem with hbefore | hnew
      · rw [hsame] at hgeneration
        exact ih reservation hbefore hgeneration
      · rw [hnew]
        exact hkept.since_le

/-- Incarnations are not confused in any run; and where every reset brings a new generation, the reservations of
the current generation are those made since the last reset. -/
theorem incarnations_stay_apart (h : Runs.Reaches step (fun _ _ => True) .start forwards) :
    Unconfused forwards ∧ (Runs.Reaches step NewGeneration .start forwards →
      ∀ reservation ∈ forwards.reservations,
        reservation.generation = forwards.admissions.generation ↔ forwards.OfCurrentGeneration reservation) := by
  have hkept := bookkept_of_reaches h
  refine ⟨hkept.unconfused, fun hnew reservation hmem => ⟨?_, ?_⟩⟩
  · exact generation_of_reaches hnew reservation hmem
  · exact hkept.generation reservation hmem

/-- A remote forward that is asked for, taken out and asked for again while a connection is queued; the address
of the first incarnation is not free. -/
theorem readded_binding_is_apart : ∃ forwards, Runs.Reaches step (fun _ _ => True) .start forwards ∧
      forwards.tokens.map (·.2.allocation) = [0] ∧
      forwards.inventory.entries.map (·.reservation.incarnation.allocation) = [1] ∧ Unconfused forwards := by
  let requested : RequestedSshPortForward := ⟨.remoteForward, "127.0.0.1", 12345, "127.0.0.1", 9000, .ephemeral⟩
  let ops : List PortForwardOp :=
    [.reset 1, .reserve requested 1 7, .insert 0 .active none, .forwarded requested.bindingKey,
      .remove requested.bindingKey, .drop 0, .reserve requested 1 8, .insert 0 .active none]
  have hruns : (ops.foldlM step .start).map (fun forwards =>
      (forwards.tokens.map (·.2.allocation), forwards.inventory.entries.map (·.reservation.incarnation.allocation))) =
      some ([0], [1]) := by
    decide +kernel
  obtain ⟨forwards, hrun, hchecks⟩ := map_eq_some_iff.mp hruns
  obtain ⟨htokens, hentries⟩ := Prod.mk.inj hchecks
  have hreaches := Runs.reaches_of_foldlM hrun
  exact ⟨forwards, hreaches, htokens, hentries, (incarnations_stay_apart hreaches).1⟩

end PortForwards

end FesTerm.Ssh
