import FesTerm.Document.Proofs.EditProofs
import FesTerm.Lib.Timeline

/-!
# Undo history proofs

`UndoHistory.Sound` is what keeps the history's bookkeeping from stopping: the entries that are
applied are there, and the payload is the sum of what they weigh. `Admitted` says everything that
`prepare` can return, so that `commit` is described by its effect on the entries alone: the redo
tail is discarded, some of the oldest entries are forgotten, and the edits are joined to the last
entry or follow it as a new one.
-/

namespace FesTerm.Document

open Checked Splicing Timeline List Option

def weights [Allocation] (entries : List Transaction) : Nat := (entries.map Transaction.weight).sum

namespace UndoHistory

variable {last : Transaction} {previous next : TextEdit} {history : UndoHistory}

theorem mergeable_spec {edits : List TextEdit}
    (hprevious : last.edits = [previous]) (h : mergeable last edits = true) :
    ∃ next : TextEdit, edits = [next] ∧ next.removed = [] ∧ previous.removed = [] ∧
      next.start = previous.start + utf8Len previous.inserted := by
  unfold mergeable at h
  rw [hprevious] at h
  match edits with
  | [] => simp at h
  | _ :: _ :: _ => simp at h
  | [next] =>
    simp only [getLast?_singleton] at h
    split at h
    · cases h
    · rename_i hnext
      simp only [Bool.or_eq_true, Bool.not_eq_true', not_or, Bool.not_eq_false] at hnext
      simp only [Bool.and_eq_true, List.isEmpty_iff, beq_iff_eq] at h
      exact ⟨next, rfl, by simpa using hnext.1, h.1, h.2.symm⟩

def labels (history : UndoHistory) : List (Option Nat) :=
  history.baseToken :: history.entries.map fun entry => some entry.serial

theorem length_labels (history : UndoHistory) : history.labels.length = history.entries.length + 1 := by
  simp [labels]

theorem labels_applied (h : history.applied ≤ history.entries.length) :
    history.labels[history.applied]? = some history.token := by
  unfold labels token
  cases happlied : history.applied with
  | zero => rfl
  | succ index =>
    rw [happlied] at h
    simp only [getElem?_cons_succ, getElem?_map,
      getElem?_eq_getElem (show index < history.entries.length by omega)]
    rfl

theorem popFront_spec : ∀ (retired : Nat) (history : UndoHistory), retired ≤ history.entries.length →
    ∃ token, popFront retired history =
        some { history with entries := history.entries.drop retired, baseToken := token } ∧
      token :: (history.entries.drop retired).map (fun entry => some entry.serial) =
        history.labels.drop retired := by
  intro retired
  induction retired with
  | zero => exact fun history _ => ⟨history.baseToken, rfl, rfl⟩
  | succ retired ih =>
    intro history hle
    cases hentries : history.entries with
    | nil => simp [hentries] at hle
    | cons entry entries =>
      obtain ⟨token, hpop, hlabels⟩ :=
        ih { history with entries := entries, baseToken := some entry.serial }
          (by simp only [hentries, length_cons] at hle; exact Nat.le_of_succ_le_succ hle)
      refine ⟨token, ?_, ?_⟩
      · rw [popFront]
        simp only [hentries]
        exact hpop
      · simp only [labels, hentries, map_cons, drop_succ_cons] at hlabels ⊢
        exact hlabels

theorem edits_continued {joined : TextEdit} {before text after : Text}
    (hinsertion : previous.removed = []) (hnextInsertion : next.removed = [])
    (hstart : next.start = previous.start + utf8Len previous.inserted)
    (hjoinedStart : joined.start = previous.start) (hjoinedRemoved : joined.removed = [])
    (hjoined : joined.inserted = previous.inserted ++ next.inserted)
    (hprevious : Edits 0 [previous] before text) (hnext : Edits 0 [next] text after) :
    Edits 0 [joined] before after := by
  obtain ⟨front, back, hfront, rfl, rfl⟩ := edits_single_iff.mp hprevious
  obtain ⟨front', back', hfront', htext, rfl⟩ := edits_single_iff.mp hnext
  rw [hnextInsertion, nil_append, ← append_assoc] at htext
  obtain ⟨rfl, rfl⟩ := append_inj_of_utf8Len htext (by rw [utf8Len_append]; omega)
  refine edits_single_iff.mpr ⟨front, back, by omega, ?_, ?_⟩
  · rw [hjoinedRemoved, hinsertion]
  · rw [hjoined]
    simp only [append_assoc]

/-- A history after a commit that leaves it with the given entries. -/
def rejoined (history : UndoHistory) (prepared : PreparedUndo) (token : Option Nat)
    (entries : List Transaction) : UndoHistory :=
  { history with
    entries := entries
    slotCapacity := prepared.retention.slots.getD history.slotCapacity
    applied := entries.length
    baseToken := token
    nextSerial := history.nextSerial + 1
    payloadBytes := prepared.retention.payloadBytes }

theorem labels_take (history : UndoHistory) (n : Nat) :
    { history with entries := history.entries.take n }.labels = history.labels.take (n + 1) := by
  simp [labels]

theorem commit_fresh (history : UndoHistory) (prepared : PreparedUndo)
    (hmerge : prepared.merge = false) (hretired : prepared.retention.retired ≤ history.applied)
    (happlied : history.applied ≤ history.entries.length) :
    ∃ token, history.commit prepared = some (history.rejoined prepared token
        ((history.entries.take history.applied).drop prepared.retention.retired ++
          [⟨history.nextSerial, prepared.edits, prepared.isOpen⟩])) ∧
      token :: ((history.entries.take history.applied).drop prepared.retention.retired).map
          (fun entry => some entry.serial) =
        (history.labels.take (history.applied + 1)).drop prepared.retention.retired := by
  obtain ⟨token, hpop, hlabels⟩ := popFront_spec prepared.retention.retired
    { history with entries := history.entries.take history.applied }
    (by simp only [length_take]; omega)
  rw [labels_take] at hlabels
  refine ⟨token, ?_, hlabels⟩
  simp only [commit, hpop, hmerge, some_bind, Bool.false_eq_true, if_false]
  rfl

/-- A commit that continues the last insertion. -/
theorem commit_merged (history : UndoHistory) (prepared : PreparedUndo) {index : Nat}
    (hmerge : prepared.merge = true) (hretired : prepared.retention.retired ≤ index)
    (happlied : history.applied = index + 1) (hlast : history.entries[index]? = some last)
    (hprevious : last.edits = [previous]) (hnext : prepared.edits = [next])
    (hreplacement : ∀ text capacity, prepared.replacement = some (text, capacity) →
      text = previous.inserted ++ next.inserted) :
    ∃ token, history.commit prepared = some (history.rejoined prepared token
        ((history.entries.take index).drop prepared.retention.retired ++
          [⟨history.nextSerial, [{ previous with
                inserted := previous.inserted ++ next.inserted
                insertedCapacity := prepared.replacement.elim previous.insertedCapacity Prod.snd }],
            last.isOpen⟩])) ∧
      token :: ((history.entries.take index).drop prepared.retention.retired).map
          (fun entry => some entry.serial) =
        (history.labels.take (index + 1)).drop prepared.retention.retired := by
  have hlt := (List.getElem?_eq_some_iff.mp hlast).1
  obtain ⟨token, hpop, hlabels⟩ := popFront_spec prepared.retention.retired
    { history with entries := history.entries.take history.applied }
    (by simp only [length_take]; omega)
  have hkept : (history.entries.take history.applied).drop prepared.retention.retired =
      (history.entries.take index).drop prepared.retention.retired ++ [last] := by
    rw [happlied, take_add_one, hlast, drop_append_of_le_length]
    · rfl
    · simp only [length_take]
      omega
  refine ⟨token, ?_, ?_⟩
  · simp only [commit, hpop, hmerge, some_bind, if_true, continueLast,
      hkept, getLast?_concat, hprevious, getLast?_singleton, hnext,
      getElem?_cons_zero, dropLast_concat, dropLast_singleton, nil_append]
    cases hrep : prepared.replacement with
    | none => rfl
    | some moved =>
      obtain ⟨text, capacity⟩ := moved
      obtain rfl := hreplacement text capacity hrep
      rfl
  · rw [labels_take, hkept, map_append, map_singleton] at hlabels
    have hfront := congrArg List.dropLast hlabels
    rw [← cons_append, dropLast_concat, happlied] at hfront
    rw [hfront, dropLast_eq_take, length_drop, length_take, length_labels,
      drop_take, take_take, drop_take]
    congr 1
    omega

variable [Allocation]

def OpenInsertion (entry : Transaction) : Prop :=
  entry.isOpen = true → ∃ edit : TextEdit, entry.edits = [edit] ∧ edit.removed = []

structure Sound (history : UndoHistory) : Prop where
  applied_le : history.applied ≤ history.entries.length
  payload : history.payloadBytes = weights history.entries
  opens : ∀ entry ∈ history.entries, OpenInsertion entry

/-! ## Admission -/

/-- The loop of `plan_retention` forgets a beginning of the entries it may forget. -/
theorem retire_spec (maxEntries maxBytes : Nat) :
    ∀ (retirable : List Transaction) (retired payloadBytes count : Nat),
      weights retirable ≤ payloadBytes → retirable.length ≤ count →
      ∃ result, retire maxEntries maxBytes retirable retired payloadBytes count = some result ∧
        ∀ retired' payloadBytes' count', result = .ok (retired', payloadBytes', count') →
          ∃ k ≤ retirable.length, retired' = retired + k ∧
            payloadBytes' + weights (retirable.take k) = payloadBytes ∧
            payloadBytes' ≤ maxBytes := by
  intro retirable
  induction retirable with
  | nil =>
    intro retired payloadBytes count _ _
    rw [retire]
    split
    · exact ⟨_, rfl, by rintro _ _ _ ⟨⟩⟩
    · refine ⟨_, rfl, ?_⟩
      rintro _ _ _ ⟨⟩
      exact ⟨0, by simp, by simp, by simp [weights], by omega⟩
  | cons entry retirable ih =>
    intro retired payloadBytes count hweights hcount
    have hcons : weights (entry :: retirable) = entry.weight + weights retirable := by
      simp [weights]
    simp only [length_cons] at hcount
    rw [retire]
    split
    · obtain ⟨result, hrun, hresult⟩ := ih (retired + 1) (payloadBytes - entry.weight) (count - 1)
        (by omega) (by omega)
      refine ⟨result, ?_, ?_⟩
      · simp only [sub_eq (show entry.weight ≤ payloadBytes by omega),
          sub_eq (show 1 ≤ count by omega), some_bind]
        exact hrun
      · intro retired' payloadBytes' count' hok
        obtain ⟨k, hk, hretired, hpayload, hfit⟩ := hresult _ _ _ hok
        refine ⟨k + 1, by simpa using hk, by omega, ?_, hfit⟩
        have htake : weights ((entry :: retirable).take (k + 1)) =
            entry.weight + weights (retirable.take k) := by simp [weights]
        omega
    · refine ⟨_, rfl, ?_⟩
      rintro _ _ _ ⟨⟩
      exact ⟨0, by simp, by simp, by simp [weights], by omega⟩

/-- `plan_retention` does not stop, and charges what is left. -/
theorem planRetention_spec (history : UndoHistory) (payloadBytes count protectedCount : Nat)
    (hprotected : protectedCount ≤ history.applied)
    (hweights : weights (history.entries.take (history.applied - protectedCount)) ≤ payloadBytes)
    (hcount : history.applied - protectedCount ≤ count) :
    ∃ result, history.planRetention payloadBytes count protectedCount = some result ∧
      ∀ plan, result = .ok plan →
        plan.retired ≤ history.applied - protectedCount ∧
          plan.payloadBytes + weights (history.entries.take plan.retired) = payloadBytes := by
  obtain ⟨result, hrun, hresult⟩ := retire_spec history.maxEntries history.maxBytes
    (history.entries.take (history.applied - protectedCount)) 0 payloadBytes count hweights
    (by simp only [length_take]; omega)
  simp only [planRetention, sub_eq hprotected, bind_eq_bind, bind_some, hrun]
  rcases result with bytes | ⟨retired, payload, count'⟩
  · exact ⟨_, rfl, by rintro _ ⟨⟩⟩
  · obtain ⟨k, hk, hretired, hpayload, hfit⟩ := hresult _ _ _ rfl
    have hplan : retired ≤ history.applied - protectedCount ∧
        payload + weights (history.entries.take retired) = payloadBytes := by
      simp only [length_take] at hk
      refine ⟨by omega, ?_⟩
      rw [hretired, Nat.zero_add]
      rwa [take_take, Nat.min_eq_left (by omega)] at hpayload
    simp only [sub_eq hfit, bind_some]
    split
    · refine ⟨_, rfl, ?_⟩
      rintro _ ⟨⟩
      exact hplan
    · split
      · exact ⟨_, rfl, by rintro _ ⟨⟩⟩
      · refine ⟨_, rfl, ?_⟩
        rintro _ ⟨⟩
        exact hplan

/-- What a history admits: a new transaction, or a continuation of the insertion it last applied. -/
inductive Admitted (history : UndoHistory) (edits : List TextEdit) : PreparedUndo → Prop
  | fresh (isOpen : Bool) (plan : RetentionPlan)
      (hopen : isOpen = true → ∃ edit : TextEdit, edits = [edit] ∧ edit.removed = [])
      (hretired : plan.retired ≤ history.applied)
      (hpayload : plan.payloadBytes + weights (history.entries.take plan.retired) =
        weights (history.entries.take history.applied) + editStorage edits) :
      Admitted history edits ⟨edits, isOpen, false, none, plan⟩
  | merged (index : Nat) (last : Transaction) (previous next : TextEdit)
      (replacement : Option (Text × Nat)) (plan : RetentionPlan)
      (happlied : history.applied = index + 1) (hlast : history.entries[index]? = some last)
      (hprevious : last.edits = [previous]) (hinsertion : previous.removed = [])
      (hnext : edits = [next]) (hnextInsertion : next.removed = [])
      (hstart : next.start = previous.start + utf8Len previous.inserted)
      (hreplacement : ∀ text capacity, replacement = some (text, capacity) →
        text = previous.inserted ++ next.inserted)
      (hretired : plan.retired ≤ index)
      (hpayload : plan.payloadBytes + weights (history.entries.take plan.retired) =
        weights (history.entries.take index) + (last.weight - previous.insertedCapacity +
          replacement.elim previous.insertedCapacity Prod.snd)) :
      Admitted history edits ⟨edits, true, true, replacement, plan⟩

theorem mergeReplacement_text {maximumCapacity : Nat} {text : Text}
    {capacity : Nat} (h : mergeReplacement previous next maximumCapacity = some (text, capacity)) :
    text = previous.inserted ++ next.inserted := by
  simp only [mergeReplacement] at h
  split at h
  · cases h
    rfl
  · cases h

theorem weights_take_succ {entries : List Transaction} {index : Nat} (hlast : entries[index]? = some last) :
    weights (entries.take (index + 1)) = weights (entries.take index) + last.weight := by
  rw [weights, take_add_one, hlast]
  simp [weights]

theorem Sound.appliedBytes (h : history.Sound) :
    sub history.payloadBytes ((history.entries.drop history.applied).map Transaction.weight).sum =
      some (weights (history.entries.take history.applied)) := by
  have hsplit : weights history.entries = weights (history.entries.take history.applied) +
      ((history.entries.drop history.applied).map Transaction.weight).sum := by
    conv_lhs => rw [← take_append_drop history.applied history.entries]
    simp [weights]
  rw [h.payload, hsplit, sub_eq (by omega), Nat.add_sub_cancel]

/-- The coalescing branch does not stop, and admits only a continuation. -/
theorem prepareMerge_spec (h : history.Sound) (edits : List TextEdit) (coalescable : Bool) :
    ∃ result, history.prepareMerge edits coalescable (weights (history.entries.take history.applied)) =
        some result ∧
      ∀ prepared, result = some prepared → Admitted history edits prepared := by
  unfold prepareMerge
  match happlied : history.applied with
  | 0 => exact ⟨none, rfl, by rintro _ ⟨⟩⟩
  | index + 1 =>
    have hlt : index < history.entries.length := by
      have := h.applied_le
      omega
    have hlast : history.entries[index]? = some (history.entries[index]) :=
      getElem?_eq_getElem hlt
    generalize history.entries[index] = last at hlast
    simp only [hlast]
    split
    · rename_i hmerge
      rw [Bool.and_eq_true, Bool.and_eq_true] at hmerge
      obtain ⟨previous, hprevious, hinsertion⟩ :=
        h.opens last (mem_of_getElem? hlast) hmerge.1.2
      obtain ⟨next, rfl, hnext, -, hstart⟩ := mergeable_spec hprevious hmerge.2
      have hcap : previous.insertedCapacity ≤ last.weight := by
        simp only [Transaction.weight, editStorage, hprevious, map_cons, map_nil,
          sum_cons, sum_nil]
        omega
      have htake := weights_take_succ hlast
      simp only [hprevious, getLast?_singleton, getElem?_cons_zero, bind_eq_bind,
        bind_some, sub_eq hcap]
      split
      · rw [sub_eq (by omega)]
        simp only [bind_some]
        generalize hrep : mergeReplacement previous next _ = replacement
        obtain ⟨result, hrun, hresult⟩ := planRetention_spec history
          (weights (history.entries.take (index + 1)) - last.weight +
            (last.weight - previous.insertedCapacity +
              replacement.elim previous.insertedCapacity Prod.snd))
          (index + 1) 1 (by omega)
          (by rw [happlied, Nat.succ_sub_one]; omega) (by omega)
        rw [hrun]
        simp only [bind_some]
        rcases result with bytes | plan
        · exact ⟨none, rfl, by rintro _ ⟨⟩⟩
        · obtain ⟨hretired, hpayload⟩ := hresult plan rfl
          refine ⟨_, rfl, ?_⟩
          rintro _ ⟨⟩
          exact .merged index last previous next replacement plan happlied hlast hprevious
            hinsertion rfl hnext hstart
            (fun text capacity he => mergeReplacement_text (hrep.trans he))
            (by omega) (by omega)
      · exact ⟨none, rfl, by rintro _ ⟨⟩⟩
    · exact ⟨none, rfl, by rintro _ ⟨⟩⟩

/-- `prepare` does not stop, and admits only what it may. -/
theorem Sound.prepare_spec (h : history.Sound) (edits : List TextEdit) (coalescable : Bool) :
    ∃ result, history.prepare edits coalescable = some result ∧
      (result = .ok none → edits.filter (fun edit => edit.removed ≠ edit.inserted) = []) ∧
      ∀ prepared, result = .ok (some prepared) →
        Admitted history (edits.filter fun edit => edit.removed ≠ edit.inserted) prepared := by
  unfold prepare
  generalize edits.filter (fun edit => edit.removed ≠ edit.inserted) = changed
  by_cases hempty : changed.isEmpty = true
  · refine ⟨.ok none, ?_, fun _ => List.isEmpty_iff.mp hempty, by rintro _ ⟨⟩⟩
    simp only [hempty, if_true]
    rfl
  · simp only [hempty, if_false, Bool.false_eq_true]
    rw [h.appliedBytes]
    obtain ⟨merged, hmerge, hmerged⟩ := prepareMerge_spec h changed coalescable
    simp only [bind_eq_bind, bind_some, hmerge]
    cases merged with
    | some prepared =>
      refine ⟨_, rfl, by simp, ?_⟩
      rintro _ ⟨⟩
      exact hmerged prepared rfl
    | none =>
      obtain ⟨result, hrun, hresult⟩ := planRetention_spec history
        (weights (history.entries.take history.applied) + editStorage changed)
        (history.applied + 1) 0 (by omega)
        (by rw [Nat.sub_zero]; omega) (by omega)
      simp only [hrun, bind_some]
      rcases result with bytes | plan
      · exact ⟨_, rfl, by simp, by rintro _ ⟨⟩⟩
      · obtain ⟨hretired, hpayload⟩ := hresult plan rfl
        refine ⟨_, rfl, by simp, ?_⟩
        rintro _ ⟨⟩
        refine .fresh _ plan ?_ hretired hpayload
        intro hopen
        simp only [Bool.and_eq_true, beq_iff_eq, Bool.not_eq_true', List.any_eq_false] at hopen
        obtain ⟨⟨-, hone⟩, hany⟩ := hopen
        obtain ⟨edit, rfl⟩ := length_eq_one_iff.mp hone
        have hedit := hany edit (by simp)
        simp only [Bool.or_eq_true, not_or, Bool.not_eq_true', Bool.not_eq_false] at hedit
        exact ⟨edit, rfl, List.isEmpty_iff.mp hedit.2⟩

/-! ## Committing -/

/-- The position `m` that a commit joins its entry to, and how its text leads to the current one:
the current position itself, or the one before the insertion that is continued. -/
def LeadsTo (history : UndoHistory) (m : Nat) (before text : Text) : Prop :=
  (m = history.applied ∧ before = text) ∨
    ∃ last, m + 1 = history.applied ∧ history.entries[m]? = some last ∧
      Edits 0 last.edits before text

/-- The effect of a commit: what follows position `m` is discarded, the oldest entries are
forgotten, and one entry with a fresh serial is joined to what is left. -/
structure Committed (history : UndoHistory) (edits : List TextEdit) (prepared : PreparedUndo)
    (m : Nat) (entry : Transaction) (history' : UndoHistory) : Prop where
  position : m = if prepared.merge then history.applied - 1 else history.applied
  applied_pos : prepared.merge = true → 0 < history.applied
  retired_le : prepared.retention.retired ≤ m
  entries : history'.entries = (history.entries.take m).drop prepared.retention.retired ++ [entry]
  labels : history'.labels =
    (history.labels.take (m + 1)).drop prepared.retention.retired ++ [some history.nextSerial]
  applied : history'.applied = history'.entries.length
  nextSerial : history'.nextSerial = history.nextSerial + 1
  joins : ∀ {before text after : Text}, history.LeadsTo m before text → Edits 0 edits text after →
    Edits 0 entry.edits before after

theorem weights_append (front back : List Transaction) :
    weights (front ++ back) = weights front + weights back := by
  simp [weights]

theorem weights_take_add_drop (entries : List Transaction) {r m : Nat} (h : r ≤ m) :
    weights (entries.take m) = weights (entries.take r) + weights ((entries.take m).drop r) := by
  conv_lhs => rw [← take_append_drop r (entries.take m)]
  rw [weights_append, take_take, Nat.min_eq_left h]

/-- `commit` does not stop after `prepare`, and keeps the history sound. -/
theorem commit_spec {edits : List TextEdit} {prepared : PreparedUndo}
    (h : history.Sound) (hadmitted : Admitted history edits prepared) :
    ∃ m entry history', history.commit prepared = some history' ∧ history'.Sound ∧
      Committed history edits prepared m entry history' := by
  have happlied_le := h.applied_le
  cases hadmitted with
  | fresh isOpen plan hopen hretired hpayload =>
    obtain ⟨token, hcommit, hlabels⟩ := commit_fresh history
      ⟨edits, isOpen, false, none, plan⟩ rfl hretired happlied_le
    refine ⟨history.applied, _, _, hcommit, ⟨le_rfl, ?_, ?_⟩, ⟨rfl, by simp, hretired, rfl, ?_, rfl, rfl, ?_⟩⟩
    · have hsplit := weights_take_add_drop history.entries hretired
      have hnew : weights [(⟨history.nextSerial, edits, isOpen⟩ : Transaction)] =
          editStorage edits := by simp [weights, Transaction.weight]
      simp only [rejoined, weights_append, hnew]
      omega
    · intro entry hentry
      rcases mem_append.mp hentry with hentry | hentry
      · exact h.opens entry (mem_of_mem_take (mem_of_mem_drop hentry))
      · obtain rfl := mem_singleton.mp hentry
        exact hopen
    · rw [← hlabels]
      simp [labels, rejoined]
    · rintro before text after (⟨-, rfl⟩ | ⟨last, hm, -⟩) hedits
      · exact hedits
      · omega
  | merged index last previous next replacement plan happlied hlast hprevious hinsertion hnext
      hnextInsertion hstart hreplacement hretired hpayload =>
    subst hnext
    obtain ⟨token, hcommit, hlabels⟩ := commit_merged history
      ⟨[next], true, true, replacement, plan⟩ rfl hretired happlied hlast hprevious
      rfl hreplacement
    refine ⟨index, _, _, hcommit, ⟨le_rfl, ?_, ?_⟩, ⟨?_, fun _ => by omega, hretired, rfl, ?_, rfl, rfl, ?_⟩⟩
    · have hsplit := weights_take_add_drop history.entries hretired
      have hweight : last.weight = Allocation.sizeOfTextEdit +
          (previous.removedCapacity + previous.insertedCapacity) := by
        simp [Transaction.weight, editStorage, hprevious]
      simp only [rejoined, weights_append]
      simp only [weights, map_cons, map_nil, sum_cons, sum_nil,
        Transaction.weight, editStorage, length_singleton] at hpayload hsplit hweight ⊢
      omega
    · intro entry hentry
      rcases mem_append.mp hentry with hentry | hentry
      · exact h.opens entry (mem_of_mem_take (mem_of_mem_drop hentry))
      · obtain rfl := mem_singleton.mp hentry
        exact fun _ => ⟨_, rfl, hinsertion⟩
    · simp only [if_true]
      omega
    · rw [← hlabels]
      simp [labels, rejoined]
    · rintro before text after (⟨hm, -⟩ | ⟨last', hm, hlast', hback⟩) hedits
      · omega
      · obtain rfl : last = last' := some.inj (hlast.symm.trans hlast')
        rw [hprevious] at hback
        exact edits_continued hinsertion hnextInsertion hstart rfl hinsertion rfl hback hedits

end UndoHistory

end FesTerm.Document
