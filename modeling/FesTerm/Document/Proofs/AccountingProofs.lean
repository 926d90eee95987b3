import FesTerm.Document.Proofs.SessionProofs

/-!
# Accounting proofs

A retention plan foretells what the history will hold before anything of it happens: the number of
entries, their payload and the slots of the deque. `Affordable` is what the plan promises, and
`Accounted` what the commit makes of it. `Housed` adds that no string and no deque had to grow
behind the plan, as far as the allocator keeps its word.
-/

namespace FesTerm.Document

open Checked Splicing List

variable [Allocation]

/-- What the allocator documents: a capacity is at least what was asked for. -/
structure Allocation.Lawful : Prop where
  transaction_pos : 0 < Allocation.sizeOfTransaction
  string_le (n : Nat) : n ≤ Allocation.stringWithCapacity n
  deque_le (n : Nat) : n ≤ Allocation.dequeWithCapacity n

omit [Allocation] in
def TextEdit.Housed (edit : TextEdit) : Prop :=
  utf8Len edit.removed ≤ edit.removedCapacity ∧ utf8Len edit.inserted ≤ edit.insertedCapacity

namespace UndoHistory

/-- The books of a history: the payload is the sum of the weights and everything is within the
limits. -/
structure Accounted (history : UndoHistory) : Prop extends Sound history where
  entries_le : history.entries.length ≤ history.maxEntries
  retained_le : history.retainedBytes ≤ history.maxBytes

omit [Allocation] in
/-- Everything the history holds fits in the storage it is charged for. -/
structure Housed (history : UndoHistory) : Prop where
  slots : history.entries.length ≤ history.slotCapacity
  edits : ∀ entry ∈ history.entries, ∀ edit ∈ entry.edits, edit.Housed

/-- What a retention plan promises for a number of entries. -/
structure Affordable (history : UndoHistory) (count : Nat) (plan : RetentionPlan) : Prop where
  retired_le : plan.retired ≤ count
  count_le : count - plan.retired ≤ history.maxEntries
  retained_le :
    plan.payloadBytes + slotStorage (plan.slots.getD history.slotCapacity) ≤ history.maxBytes
  slots : Allocation.Lawful → count - plan.retired ≤ plan.slots.getD history.slotCapacity

/-! ## Plans -/

theorem retire_within {maxEntries maxBytes : Nat} :
    ∀ {retirable : List Transaction} {retired payloadBytes count retired' payloadBytes' count' : Nat},
      retire maxEntries maxBytes retirable retired payloadBytes count =
        some (.ok (retired', payloadBytes', count')) →
      count' + retired' = count + retired ∧ retired ≤ retired' ∧ count' ≤ maxEntries ∧
        payloadBytes' + slotStorage count' ≤ maxBytes := by
  intro retirable
  induction retirable with
  | nil =>
    intro retired payloadBytes count retired' payloadBytes' count' h
    rw [retire] at h
    split at h
    · cases h
    · cases h
      exact ⟨rfl, le_rfl, by omega, by omega⟩
  | cons entry retirable ih =>
    intro retired payloadBytes count retired' payloadBytes' count' h
    rw [retire] at h
    split at h
    · simp only [Option.bind_eq_bind, Option.bind_eq_some_iff, sub_eq_some] at h
      obtain ⟨payload, -, fewer, ⟨hpos, hfewer⟩, hrun⟩ := h
      obtain ⟨hsum, hle, hcount, hbytes⟩ := ih hrun
      exact ⟨by omega, by omega, hcount, hbytes⟩
    · cases h
      exact ⟨rfl, le_rfl, by omega, by omega⟩

variable {history history' : UndoHistory} {edits : List TextEdit} {prepared : PreparedUndo}
  {entries : List Transaction} {applied : Nat}

theorem count_le_slots {payloadBytes count maximumSlots : Nat}
    (hlawful : Allocation.Lawful) (hcount : count ≤ history.maxEntries)
    (hbytes : payloadBytes + slotStorage count ≤ history.maxBytes)
    (hslots : maximumSlots = (history.maxBytes - payloadBytes) / Allocation.sizeOfTransaction) :
    count ≤ Allocation.dequeWithCapacity
      (min (min (max (max (history.slotCapacity * 2) 4) count) history.maxEntries) maximumSlots) := by
  have hroom : count ≤ maximumSlots := by
    rw [hslots, Nat.le_div_iff_mul_le hlawful.transaction_pos]
    unfold slotStorage at hbytes
    omega
  have hasked : count ≤
      min (min (max (max (history.slotCapacity * 2) 4) count) history.maxEntries) maximumSlots :=
    le_min (le_min (le_max_right _ _) hcount) hroom
  exact hasked.trans (hlawful.deque_le _)

theorem planRetention_affordable {payloadBytes count protectedCount : Nat} {plan : RetentionPlan}
    (h : history.planRetention payloadBytes count protectedCount = some (.ok plan)) :
    Affordable history count plan := by
  simp only [planRetention, Option.bind_eq_bind, Option.bind_eq_some_iff] at h
  obtain ⟨retirable, -, result, hretire, h⟩ := h
  rcases result with bytes | ⟨retired, payload, count'⟩
  · cases h
  obtain ⟨hsum, -, hcount, hbytes⟩ := retire_within hretire
  simp only [Option.bind_eq_some_iff, sub_eq_some] at h
  obtain ⟨left, ⟨hle, hleft⟩, h⟩ := h
  have hretired : retired ≤ count := by omega
  have hkept : count - retired = count' := by omega
  split at h
  · rename_i hkeep
    cases h
    refine ⟨hretired, hkept ▸ hcount, ?_, fun _ => hkept ▸ hkeep.1⟩
    have hfit := Nat.div_mul_le_self left Allocation.sizeOfTransaction
    have hslots := Nat.mul_le_mul_right Allocation.sizeOfTransaction hkeep.2
    simp only [Option.getD_none, slotStorage]
    omega
  · split at h
    · cases h
    · rename_i hfits
      cases h
      refine ⟨hretired, hkept ▸ hcount, Nat.le_of_not_lt hfits, fun hlawful => ?_⟩
      subst hleft
      exact hkept.le.trans (count_le_slots hlawful hcount hbytes rfl)

theorem mergeReplacement_room {previous next : TextEdit} {maximumCapacity : Nat} (hlawful : Allocation.Lawful)
    (hneeded : utf8Len previous.inserted + utf8Len next.inserted ≤ maximumCapacity) :
    utf8Len previous.inserted + utf8Len next.inserted ≤
      (mergeReplacement previous next maximumCapacity).elim previous.insertedCapacity Prod.snd := by
  unfold mergeReplacement
  simp only
  split
  · have hasked : utf8Len previous.inserted + utf8Len next.inserted ≤
        min (max (previous.insertedCapacity * 2)
          (utf8Len previous.inserted + utf8Len next.inserted)) maximumCapacity :=
      le_min (le_max_right _ _) hneeded
    exact hasked.trans (hlawful.string_le _)
  · rw [Option.elim_none]
    omega

/-- What `prepare` promises beside admission. -/
structure Prepared (history : UndoHistory) (prepared : PreparedUndo) : Prop where
  plan : Affordable history (if prepared.merge then history.applied else history.applied + 1)
    prepared.retention
  room : ∀ index last previous next, prepared.merge = true → history.applied = index + 1 →
    history.entries[index]? = some last → last.edits.getLast? = some previous →
    prepared.edits[0]? = some next → Allocation.Lawful →
    utf8Len previous.inserted + utf8Len next.inserted ≤
      prepared.replacement.elim previous.insertedCapacity Prod.snd

theorem prepareMerge_prepared {coalescable : Bool} {appliedBytes : Nat}
    (h : history.prepareMerge edits coalescable appliedBytes = some (some prepared)) :
    Prepared history prepared := by
  unfold prepareMerge at h
  split at h
  · cases h
  · rename_i index happlied
    split at h
    · cases h
    · rename_i last hlast
      split at h
      · simp only [Option.bind_eq_bind, Option.bind_eq_some_iff] at h
        obtain ⟨previous, hprevious, next, hnext, fixed, -, h⟩ := h
        split at h
        · rename_i hneeded
          simp only [Option.bind_eq_some_iff] at h
          obtain ⟨rest, -, result, hplan, h⟩ := h
          rcases result with bytes | plan
          · cases h
          cases h
          refine ⟨planRetention_affordable hplan, ?_⟩
          intro index' last' previous' next' _ happlied' hlast' hprevious' hnext' hlawful
          obtain rfl : index' = index := by omega
          obtain rfl : last = last' := Option.some.inj (hlast.symm.trans hlast')
          obtain rfl : previous = previous' := Option.some.inj (hprevious.symm.trans hprevious')
          obtain rfl : next = next' := Option.some.inj (hnext.symm.trans hnext')
          exact mergeReplacement_room hlawful hneeded
        · cases h
      · cases h

theorem prepare_prepared {coalescable : Bool}
    (h : history.prepare edits coalescable = some (.ok (some prepared))) : Prepared history prepared := by
  unfold prepare at h
  simp only at h
  split at h
  · cases h
  · simp only [Option.bind_eq_bind, Option.bind_eq_some_iff] at h
    obtain ⟨appliedBytes, -, merged, hmerge, h⟩ := h
    cases merged with
    | some merged =>
      cases h
      exact prepareMerge_prepared hmerge
    | none =>
      simp only [Option.bind_eq_some_iff] at h
      obtain ⟨result, hplan, h⟩ := h
      rcases result with bytes | plan
      · cases h
      cases h
      exact ⟨planRetention_affordable hplan, nofun⟩

/-! ## Calls -/

omit [Allocation] in
theorem popFront_keeps : ∀ {retired : Nat} {history history' : UndoHistory},
    popFront retired history = some history' →
    history'.maxEntries = history.maxEntries ∧ history'.maxBytes = history.maxBytes ∧
      history'.slotCapacity = history.slotCapacity := by
  intro retired
  induction retired with
  | zero =>
    intro history history' h
    cases h
    exact ⟨rfl, rfl, rfl⟩
  | succ retired ih =>
    intro history history' h
    unfold popFront at h
    split at h
    · cases h
    · obtain ⟨hentries, hbytes, hslots⟩ := ih h
      exact ⟨hentries, hbytes, hslots⟩

omit [Allocation] in
theorem commit_charges (h : history.commit prepared = some history') :
    history'.maxEntries = history.maxEntries ∧ history'.maxBytes = history.maxBytes ∧
      history'.slotCapacity = prepared.retention.slots.getD history.slotCapacity ∧
      history'.payloadBytes = prepared.retention.payloadBytes := by
  simp only [commit, Option.bind_eq_bind, Option.bind_eq_some_iff] at h
  obtain ⟨popped, hpop, h⟩ := h
  obtain ⟨hentries, hbytes, hslots⟩ := popFront_keeps hpop
  split at h
  · obtain ⟨entries, -, hjoined⟩ := Option.bind_eq_some_iff.mp h
    cases hjoined
    exact ⟨hentries, hbytes, hslots ▸ rfl, rfl⟩
  · cases h
    exact ⟨hentries, hbytes, hslots ▸ rfl, rfl⟩

theorem Committed.accounted {m : Nat} {entry : Transaction}
    (hprepared : Prepared history prepared) (hcommit : history.commit prepared = some history')
    (hsound : history'.Sound) (hcommitted : Committed history edits prepared m entry history')
    (hle : history.applied ≤ history.entries.length) : Accounted history' := by
  obtain ⟨hentries, hbytes, hslots, hpayload⟩ := commit_charges hcommit
  have hretired := hcommitted.retired_le
  have hposition := hcommitted.position
  have hcount := hprepared.plan.count_le
  have hlength : history'.entries.length = m - prepared.retention.retired + 1 := by
    rw [hcommitted.entries]
    simp only [length_append, length_drop, length_take, length_singleton]
    split at hposition <;> omega
  refine ⟨hsound, ?_, ?_⟩
  · rw [hlength, hentries]
    split at hposition
    · rename_i hmerge
      have := hcommitted.applied_pos hmerge
      rw [if_pos hmerge] at hcount
      omega
    · rename_i hmerge
      rw [if_neg hmerge] at hcount
      omega
  · rw [retainedBytes, hpayload, hslots, hbytes]
    exact hprepared.plan.retained_le

/-- The entry that a commit joins fits in its buffers. -/
theorem Committed.housed (hlawful : Allocation.Lawful) (hhoused : history.Housed)
    (hedits : ∀ edit ∈ edits, edit.Housed) (hsound : history.Sound)
    (hprepared : Prepared history prepared) (hadmitted : Admitted history edits prepared)
    (hcommit : history.commit prepared = some history') : Housed history' := by
  have hle := hsound.applied_le
  have hplan := hprepared.plan.slots hlawful
  obtain ⟨-, -, hslots, -⟩ := commit_charges hcommit
  cases hadmitted with
  | fresh isOpen plan hopen hretired hpayload =>
    obtain ⟨token, hcommit', -⟩ := commit_fresh history ⟨edits, isOpen, false, none, plan⟩ rfl
      hretired hle
    cases hcommit'.symm.trans hcommit
    simp only [Bool.false_eq_true, if_false] at hplan
    refine ⟨?_, ?_⟩
    · rw [hslots]
      simp only [rejoined, length_append, length_drop, length_take, length_singleton]
      omega
    · intro entry hentry
      rcases mem_append.mp hentry with hentry | hentry
      · exact hhoused.edits entry (mem_of_mem_take (mem_of_mem_drop hentry))
      · obtain rfl := mem_singleton.mp hentry
        exact hedits
  | merged index last previous next replacement plan happlied hlast hprevious hinsertion hnext
      hnextInsertion hstart hreplacement hretired hpayload =>
    subst hnext
    obtain ⟨token, hcommit', -⟩ := commit_merged history ⟨[next], true, true, replacement, plan⟩ rfl
      hretired happlied hlast hprevious rfl hreplacement
    cases hcommit'.symm.trans hcommit
    simp only [if_true] at hplan
    have hroom := hprepared.room index last previous next rfl happlied hlast
      (by rw [hprevious, getLast?_singleton]) rfl hlawful
    have hprevious_housed : previous.Housed :=
      hhoused.edits last (mem_of_getElem? hlast) previous (by rw [hprevious]; simp)
    refine ⟨?_, ?_⟩
    · rw [hslots]
      simp only [rejoined, length_append, length_drop, length_take, length_singleton]
      omega
    · intro entry hentry
      rcases mem_append.mp hentry with hentry | hentry
      · exact hhoused.edits entry (mem_of_mem_take (mem_of_mem_drop hentry))
      · obtain rfl := mem_singleton.mp hentry
        intro edit hedit
        obtain rfl := mem_singleton.mp hedit
        refine ⟨hprevious_housed.1, ?_⟩
        rw [utf8Len_append]
        exact hroom

theorem Accounted.moved (h : history.Accounted)
    (halike : Alike history.entries entries) (happlied : applied ≤ entries.length) :
    { history with entries := entries, applied := applied }.Accounted := by
  refine ⟨h.toSound.alike halike happlied, ?_, h.retained_le⟩
  exact halike.length.le.trans h.entries_le

omit [Allocation] in
theorem Housed.moved (h : history.Housed) (halike : Alike history.entries entries) :
    { history with entries := entries, applied := applied }.Housed := by
  refine ⟨halike.length.le.trans h.slots, ?_⟩
  intro entry hentry
  have hmem : entry.edits ∈ history.entries.map Transaction.edits :=
    halike.edits ▸ List.mem_map_of_mem hentry
  obtain ⟨entry', hentry', hsame⟩ := List.mem_map.mp hmem
  rw [← hsame]
  exact h.edits entry' hentry'

omit [Allocation] in
theorem withLimits_housed (maxEntries maxBytes : Nat) : (withLimits maxEntries maxBytes).Housed :=
  ⟨Nat.le_refl 0, nofun⟩

theorem withLimits_accounted (maxEntries maxBytes : Nat) : (withLimits maxEntries maxBytes).Accounted := by
  refine ⟨⟨Nat.le_refl 0, rfl, nofun⟩, Nat.zero_le _, ?_⟩
  simp [withLimits, retainedBytes, slotStorage]

omit [Allocation] in
/-- The texts that a call hands over fit in their buffers. -/
def Call.Housed : Call → Prop
  | .record edits _ _ => ∀ edit ∈ edits, edit.Housed
  | _ => True

/-- What one call leaves: the books are kept under the same limits, and the storage with them. -/
structure Kept (history : UndoHistory) (call : Call) (history' : UndoHistory) : Prop where
  accounted : history'.Accounted
  maxEntries : history'.maxEntries = history.maxEntries
  maxBytes : history'.maxBytes = history.maxBytes
  housed : Allocation.Lawful → call.Housed → history.Housed → history'.Housed

theorem Accounted.kept (h : history.Accounted) (call : Call) : Kept history call history :=
  ⟨h, rfl, rfl, fun _ _ hhoused => hhoused⟩

theorem Accounted.kept_moved (h : history.Accounted) (call : Call) (halike : Alike history.entries entries)
    (happlied : applied ≤ entries.length) : Kept history call { history with entries := entries, applied := applied } :=
  ⟨h.moved halike happlied, rfl, rfl, fun _ _ hhoused => hhoused.moved halike⟩

theorem Accounted.kept_record (h : history.Accounted) (edits : List TextEdit) (coalescable accepted : Bool) :
    Yields (history.call (.record edits coalescable accepted))
      (Kept history (.record edits coalescable accepted)) := by
  obtain ⟨result, hprepare, -, hadmits⟩ := h.toSound.prepare_spec edits coalescable
  simp only [call, hprepare, some_bind]
  rcases result with reason | prepared
  · exact .some (h.kept _)
  cases prepared with
  | none => exact .some (h.kept _)
  | some prepared =>
    cases accepted with
    | false => exact .some (h.kept _)
    | true =>
      have hadmitted := hadmits prepared rfl
      have hprepared := prepare_prepared hprepare
      obtain ⟨m, entry, history', hcommit, hsound, hcommitted⟩ := commit_spec h.toSound hadmitted
      obtain ⟨hentries, hbytes, -, -⟩ := commit_charges hcommit
      refine ⟨history', hcommit, ?_, hentries, hbytes, ?_⟩
      · exact hcommitted.accounted hprepared hcommit hsound h.applied_le
      · intro hlawful hedits hhoused
        have hchanged : ∀ edit ∈ edits.filter (fun edit => edit.removed ≠ edit.inserted),
            edit.Housed := fun edit hedit => hedits edit (mem_of_mem_filter hedit)
        exact Committed.housed hlawful hhoused hchanged h.toSound hprepared hadmitted hcommit

theorem Accounted.kept_stepBack (h : history.Accounted) :
    Yields (history.call .stepBack) (Kept history .stepBack) := by
  have hle := h.applied_le
  obtain ⟨entries, hclose, halike⟩ := closeTransaction_spec hle
  cases happlied : history.applied with
  | zero =>
    refine ⟨history, ?_, h.kept _⟩
    simp only [call, stepBack, happlied]
    rfl
  | succ index =>
    have hlt : index < entries.length := by
      rw [halike.length]
      omega
    refine ⟨{ history with entries := entries, applied := index }, ?_,
      h.kept_moved _ halike hlt.le⟩
    simp only [call, stepBack, happlied, hclose, some_bind, getElem?_eq_getElem hlt]
    rfl

theorem Accounted.kept_stepForward (h : history.Accounted) :
    Yields (history.call .stepForward) (Kept history .stepForward) := by
  cases hentry : history.entries[history.applied]? with
  | none =>
    refine ⟨history, ?_, h.kept _⟩
    simp only [call, stepForward, hentry]
    rfl
  | some entry =>
    have hlt := (List.getElem?_eq_some_iff.mp hentry).1
    obtain ⟨entries, hclose, halike⟩ := closeEntry_spec hlt
    refine ⟨{ history with entries := entries, applied := history.applied + 1 }, ?_,
      h.kept_moved _ halike (by rw [halike.length]; exact hlt)⟩
    simp only [call, stepForward, hentry, hclose, some_bind]
    rfl

theorem Accounted.kept_call (h : history.Accounted) (call : Call) :
    Yields (history.call call) (Kept history call) := by
  cases call with
  | record edits coalescable accepted => exact h.kept_record edits coalescable accepted
  | closeTransaction =>
    obtain ⟨entries, hclose, halike⟩ := closeTransaction_spec h.applied_le
    exact ⟨_, hclose, h.kept_moved _ halike (halike.length ▸ h.applied_le)⟩
  | stepBack => exact h.kept_stepBack
  | stepForward => exact h.kept_stepForward
  | clear =>
    refine ⟨history.clear, rfl, ⟨⟨Nat.le_refl 0, rfl, nofun⟩, Nat.zero_le _, ?_⟩,
      rfl, rfl, fun _ _ _ => ⟨Nat.le_refl 0, nofun⟩⟩
    simp [clear, retainedBytes, slotStorage]

theorem Accounted.run (h : history.Accounted) (calls : List Call) : Yields (history.run calls) fun history' =>
      history'.Accounted ∧ history'.maxEntries = history.maxEntries ∧
        history'.maxBytes = history.maxBytes ∧
        (Allocation.Lawful → (∀ call ∈ calls, call.Housed) → history.Housed → history'.Housed) := by
  induction calls generalizing history with
  | nil => exact .some ⟨h, rfl, rfl, fun _ _ hhoused => hhoused⟩
  | cons call calls ih =>
    obtain ⟨next, hcall, hkept⟩ := h.kept_call call
    obtain ⟨last, hrun, haccounted, hentries, hbytes, hhoused⟩ := ih hkept.accounted
    refine ⟨last, ?_, haccounted, hentries.trans hkept.maxEntries, hbytes.trans hkept.maxBytes, ?_⟩
    · rw [UndoHistory.run, foldlM_cons, hcall]
      exact hrun
    · intro hlawful hcalls hstart
      have hnext := hkept.housed hlawful (hcalls call (by simp)) hstart
      exact hhoused hlawful (fun c hc => hcalls c (by simp [hc])) hnext

/-- In every run of accepted and refused transactions, steps back and forward, closings and clears,
no subtraction stops the program and the books are exact and within the limits. Where the allocator
hands out at least what it is asked for and the texts that come in fit in their buffers, so does
everything that is retained: the storage charged is the storage in use. -/
theorem undo_accounting_is_exact (maxEntries maxBytes : Nat) (calls : List Call) :
    ∃ history, (withLimits maxEntries maxBytes).run calls = some history ∧
      history.payloadBytes = (history.entries.map Transaction.weight).sum ∧
      history.retainedBytes ≤ maxBytes ∧
      history.entries.length ≤ history.maxEntries ∧ history.maxEntries = max maxEntries 1 ∧
      history.applied ≤ history.entries.length ∧
      (Allocation.Lawful → (∀ call ∈ calls, call.Housed) → history.Housed) := by
  obtain ⟨history, hrun, haccounted, hentries, hbytes, hhoused⟩ :=
    (withLimits_accounted maxEntries maxBytes).run calls
  refine ⟨history, hrun, haccounted.payload, ?_, haccounted.entries_le, hentries, haccounted.applied_le, ?_⟩
  · have hretained := haccounted.retained_le
    rwa [hbytes] at hretained
  · exact fun hlawful hcalls => hhoused hlawful hcalls (withLimits_housed maxEntries maxBytes)

end UndoHistory

end FesTerm.Document
