import FesTerm.Lib.Runs
import FesTerm.Ssh.EventDelivery

/-!
# The consumer receives the events in the order of their production

The events under way are followed from the call that makes them to the consumer. The order is kept as
long as no progress is sent past pending events.
-/

namespace FesTerm.Ssh

open List Option

variable {bytes : Nat}

namespace Coalesced

variable {produced delivered : List SftpTransferEvent}

theorem concat (h : Coalesced produced delivered) (event : SftpTransferEvent) :
    Coalesced (produced ++ [event]) (delivered ++ [event]) := by
  induction h with
  | nil => exact .deliver .nil
  | deliver _ ih => exact .deliver ih
  | leaveOut hold hnew _ ih => exact .leaveOut hold hnew ih

variable {event : SftpTransferEvent}

theorem head_progress {transferId : Nat}
    (h : Coalesced produced (event :: delivered)) (hevent : event.progress = some (transferId, bytes)) :
    ∃ first rest bytes, produced = first :: rest ∧ first.progress = some (transferId, bytes) := by
  generalize hwhole : event :: delivered = whole at h
  induction h with
  | nil => cases hwhole
  | deliver _ _ =>
    cases hwhole
    exact ⟨_, _, bytes, rfl, hevent⟩
  | @leaveOut other old new event newer _ _ hold hnew _ ih =>
    obtain ⟨first, rest, _, hproduced, hfirst⟩ := ih hwhole
    cases hproduced
    obtain rfl : other = transferId := by
      rw [hnew] at hfirst
      exact congrArg Prod.fst (some.inj hfirst)
    exact ⟨event, _, old, rfl, hold⟩

theorem replace {before : List SftpTransferEvent} {newer : SftpTransferEvent}
    {transferId old new : Nat} (h : Coalesced produced (before ++ [event, newer]))
    (hold : event.progress = some (transferId, old)) (hnew : newer.progress = some (transferId, new)) :
    Coalesced produced (before ++ [newer]) := by
  generalize hwhole : before ++ [event, newer] = whole at h
  induction h generalizing before with
  | nil => simp at hwhole
  | @deliver first produced delivered hrest ih =>
    cases before with
    | nil =>
      cases hwhole
      obtain ⟨next, rest, bytes, rfl, hnext⟩ := head_progress hrest hnew
      exact .leaveOut hold hnext hrest
    | cons _ before =>
      obtain ⟨rfl, htail⟩ := List.cons.inj hwhole
      exact .deliver (ih htail)
  | leaveOut holder hnewer _ ih => exact .leaveOut holder hnewer (ih hwhole)

theorem sublist (h : Coalesced produced delivered) : delivered.Sublist produced := by
  induction h with
  | nil => exact .slnil
  | deliver _ ih => exact ih.cons_cons _
  | leaveOut _ _ _ ih => exact ih.cons _

theorem isProgress_of_progress {report : SftpTransferId × Nat}
    (h : event.progress = some report) : event.isProgress = true := by
  cases event with
  | itemProgress => rfl
  | _ => cases h

theorem lifecycle (h : Coalesced produced delivered) :
    produced.filter (!·.isProgress) = delivered.filter (!·.isProgress) := by
  induction h with
  | nil => rfl
  | @deliver event _ _ _ ih =>
    rw [filter_cons, filter_cons, ih]
  | @leaveOut _ _ _ event _ _ _ hold _ _ ih =>
    rw [filter_cons, isProgress_of_progress hold]
    exact ih

end Coalesced

namespace WorkerPoint

/-- The transfer whose copy is under way. -/
def copies : WorkerPoint → Option SftpTransferId
  | .copying transferId | .flushing transferId _ | .draining transferId _ | .drained transferId
  | .offering transferId _ => some transferId
  | .idle | .emitting _ | .copied => none

/-- The progress that a call of `emit_progress` is about to pass on. -/
def reports : WorkerPoint → Option SftpTransferEvent
  | .flushing _ (.progress event) | .offering _ event => some event
  | _ => none

end WorkerPoint

namespace EventDelivery

def IsProgressOf (transferId : SftpTransferId) (event : SftpTransferEvent) : Prop :=
  ∃ bytes, event.progress = some (transferId, bytes)

structure Sound (delivery : EventDelivery) : Prop where
  coalesced : Coalesced delivery.produced (delivery.received ++ delivery.underway)
  quiet : delivery.point = .idle → delivery.pending = []
  own : ∀ transferId, delivery.point.copies = some transferId → ∀ event ∈ delivery.pending,
    event.isProgress = true → IsProgressOf transferId event
  reported : ∀ transferId event, delivery.point.copies = some transferId →
    delivery.point.reports = some event → IsProgressOf transferId event
  /-- The last place of the buffer is left to a progress. -/
  buffered : delivery.pending.length < transferCallbackEventBufferCapacity ∨
    delivery.pending.length = transferCallbackEventBufferCapacity ∧ delivery.endsInProgress = true
  asserted : delivery.asserted = true

variable {delivery delivery' : EventDelivery}

theorem start_sound (capacity : Nat) (positive : 0 < capacity) : (start capacity positive).Sound where
  coalesced := .nil
  quiet _ := rfl
  own _ h := by cases h
  reported _ _ h := by cases h
  buffered := .inl (Nat.succ_pos _)
  asserted := rfl

theorem underway_eq (delivery : EventDelivery) :
    delivery.underway = delivery.channel ++ delivery.pending ++ delivery.inHand := rfl

variable {transferId : SftpTransferId} {event : SftpTransferEvent}

theorem isProgressOf_isProgress (h : IsProgressOf transferId event) : event.isProgress = true :=
  Coalesced.isProgress_of_progress h.choose_spec

variable {pending : List SftpTransferEvent}

theorem endsInProgress_append
    (h : delivery.pending = pending ++ [event]) : delivery.endsInProgress = event.isProgress := by
  rw [endsInProgress, h, getLast?_concat]

theorem buffered_tail {first : SftpTransferEvent}
    (h : (first :: pending).length < transferCallbackEventBufferCapacity ∨
      (first :: pending).length = transferCallbackEventBufferCapacity ∧ delivery.endsInProgress = true) :
    pending.length < transferCallbackEventBufferCapacity := by
  rw [length_cons] at h
  omega

theorem Sound.receive (h : delivery.Sound) (hstep : delivery.receive = some delivery') : delivery'.Sound := by
  unfold EventDelivery.receive at hstep
  split at hstep
  · cases hstep
  next event channel hchannel =>
    cases hstep
    refine { h with coalesced := ?_ }
    have hcoalesced := h.coalesced
    rw [underway_eq, hchannel] at hcoalesced
    rw [underway_eq]
    simpa [inHand] using hcoalesced

theorem Sound.goto (h : delivery.Sound) (point : WorkerPoint)
    (hhand : ({ delivery with point } : EventDelivery).inHand = delivery.inHand)
    (hquiet : point = .idle → delivery.pending = [])
    (hcopies : point.copies = none ∨ point.copies = delivery.point.copies ∨ delivery.pending = [])
    (hreports : point.reports = none ∨
      point.reports = delivery.point.reports ∧ point.copies = delivery.point.copies) :
    ({ delivery with point } : EventDelivery).Sound where
  coalesced := by
    rw [underway_eq, hhand]
    exact h.coalesced
  quiet := hquiet
  own transferId hpoint event hmem := by
    rcases hcopies with hnone | hsame | hempty
    · rw [hnone] at hpoint
      cases hpoint
    · exact h.own transferId (hsame ▸ hpoint) event hmem
    · rw [hempty] at hmem
      cases hmem
  reported transferId event hpoint hreport := by
    rcases hreports with hnone | ⟨hsame, hcopy⟩
    · rw [hnone] at hreport
      cases hreport
    · exact h.reported transferId event (hcopy ▸ hpoint) (hsame ▸ hreport)
  buffered := h.buffered
  asserted := h.asserted

theorem Sound.emit (h : delivery.Sound) (event : SftpTransferEvent) (hhand : delivery.inHand = []) :
    ({ delivery with
        point := .emitting event, produced := delivery.produced ++ [event] } : EventDelivery).Sound where
  coalesced := by
    have hcoalesced := h.coalesced.concat event
    rw [underway_eq, hhand, append_nil, append_assoc] at hcoalesced
    exact hcoalesced
  quiet hpoint := by cases hpoint
  own _ hpoint := by cases hpoint
  reported _ _ hpoint := by cases hpoint
  buffered := h.buffered
  asserted := h.asserted

theorem Sound.send (h : delivery.Sound) (hpoint : delivery.point = .emitting event)
    (hstep : delivery.send event = some delivery') : delivery'.Sound := by
  have hcoalesced := h.coalesced
  have hhand : delivery.inHand = [event] := by rw [inHand, hpoint]
  rw [underway_eq, hhand] at hcoalesced
  unfold EventDelivery.send at hstep
  rw [ite_none_right_eq_some] at hstep
  obtain ⟨-, hstep⟩ := hstep
  split at hstep
  next first pending hpending =>
    cases hstep
    have hbuffered := h.buffered
    rw [hpending] at hcoalesced hbuffered
    constructor
    · rw [underway_eq]
      simpa [deliver, inHand, hpoint] using hcoalesced
    · intro hidle
      exact absurd (hpoint.symm.trans hidle) (by simp)
    · intro transferId hcopies
      rw [deliver, hpoint] at hcopies
      cases hcopies
    · intro transferId _ hcopies
      rw [deliver, hpoint] at hcopies
      cases hcopies
    · exact .inl (buffered_tail hbuffered)
    · exact h.asserted
  next hpending =>
    cases hstep
    rw [hpending] at hcoalesced
    constructor
    · rw [underway_eq]
      simpa [deliver, inHand, hpending] using hcoalesced
    · exact fun _ => hpending
    · intro _ hcopies
      cases hcopies
    · intro _ _ hcopies
      cases hcopies
    · exact h.buffered
    · exact h.asserted

variable {after : AfterFlush}

theorem Sound.endFlush (h : delivery.Sound)
    (hpoint : delivery.point = .flushing transferId after) :
    ({ delivery with point := after.point transferId } : EventDelivery).Sound := by
  apply h.goto
  · rw [inHand, inHand, hpoint]
    cases after <;> rfl
  · intro hidle
    cases after <;> cases hidle
  · rw [hpoint]
    cases after <;> exact .inr (.inl rfl)
  · rw [hpoint]
    cases after with
    | drain => exact .inl rfl
    | progress => exact .inr ⟨rfl, rfl⟩

theorem Sound.flush (h : delivery.Sound)
    (hpoint : delivery.point = .flushing transferId after) : (delivery.flush transferId after).Sound := by
  unfold EventDelivery.flush
  split
  · exact h.endFlush hpoint
  next first pending hpending =>
    split
    · have hcoalesced := h.coalesced
      have hbuffered := h.buffered
      rw [underway_eq, hpending] at hcoalesced
      rw [hpending] at hbuffered
      constructor
      · rw [underway_eq]
        simpa [deliver, inHand] using hcoalesced
      · intro hidle
        exact absurd (hpoint.symm.trans hidle) (by simp)
      · intro other hcopies event hmem
        exact h.own other hcopies event (hpending ▸ mem_cons_of_mem first hmem)
      · exact h.reported
      · exact .inl (buffered_tail hbuffered)
      · exact h.asserted
    · exact h.endFlush hpoint

theorem Sound.command {rounds : Nat}
    {batch : Option (SftpTransferBatchId × List SftpTransferId)} (h : delivery.Sound)
    (hpoint : delivery.point = .draining transferId rounds)
    (hstep : delivery.command transferId rounds batch = some delivery') : delivery'.Sound := by
  have hhand : delivery.inHand = [] := by rw [inHand, hpoint]
  unfold EventDelivery.command at hstep
  rw [ite_none_left_eq_some] at hstep
  obtain ⟨hroom, hstep⟩ := hstep
  split at hstep
  · cases hstep
  · cases hstep
    apply h.goto
    · rw [hhand, inHand]
    · intro hidle
      cases hidle
    · rw [hpoint]
      exact .inr (.inl rfl)
    · exact .inl rfl
  next rounds batchId transferIds =>
    cases hstep
    have hcoalesced := h.coalesced.concat (.batchQueued batchId transferIds)
    rw [underway_eq, hhand] at hcoalesced
    constructor
    · rw [underway_eq]
      simpa [inHand] using hcoalesced
    · intro hidle
      cases hidle
    · intro other hcopies event hmem hprogress
      rcases mem_append.mp hmem with hmem | hmem
      · exact h.own other (by rw [hpoint]; exact hcopies) event hmem hprogress
      · rw [mem_singleton.mp hmem] at hprogress
        cases hprogress
    · intro _ _ _ hreports
      cases hreports
    · left
      rw [length_append, length_singleton]
      omega
    · exact h.asserted

theorem Sound.progress {transferId batchId : Nat} {path : SftpPath} {total : Option Nat}
    (h : delivery.Sound) (hpoint : delivery.point = .drained transferId) :
    ({ delivery with
        point := .flushing transferId (.progress (.itemProgress batchId transferId path bytes total))
        produced := delivery.produced ++ [.itemProgress batchId transferId path bytes total] } :
      EventDelivery).Sound where
  coalesced := by
    have hhand : delivery.inHand = [] := by rw [inHand, hpoint]
    have hcoalesced := h.coalesced.concat (.itemProgress batchId transferId path bytes total)
    rw [underway_eq, hhand, append_nil, append_assoc] at hcoalesced
    exact hcoalesced
  quiet hidle := by cases hidle
  own other hcopies := h.own other (by rw [hpoint]; exact hcopies)
  reported other event hcopies hreports := by
    cases hcopies
    cases hreports
    exact ⟨bytes, rfl⟩
  buffered := h.buffered
  asserted := h.asserted

section

variable {transferId : SftpTransferId} {event : SftpTransferEvent}

theorem offer_replaces (hends : delivery.endsInProgress = true) : delivery.offer transferId event =
      { delivery with point := .copying transferId, pending := delivery.pending.dropLast ++ [event] } :=
  if_pos hends

theorem offer_sends (hends : ¬ delivery.endsInProgress = true) (hroom : delivery.hasRoom = true) :
    delivery.offer transferId event =
      { delivery with point := .copying transferId, channel := delivery.channel ++ [event] } :=
  (if_neg hends).trans (if_pos hroom)

theorem offer_keeps (hends : ¬ delivery.endsInProgress = true) (hroom : ¬ delivery.hasRoom = true) :
    delivery.offer transferId event =
      { delivery with
        point := .copying transferId
        asserted := delivery.asserted && delivery.pending.length < transferCallbackEventBufferCapacity
        pending := delivery.pending ++ [event] } :=
  (if_neg hends).trans (if_neg hroom)

end

/-- The end of `emit_progress`, where it does not overtake. -/
theorem Sound.offer (h : delivery.Sound) (hpoint : delivery.point = .offering transferId event)
    (horder : delivery.pending = [] ∨ delivery.endsInProgress = true ∨ delivery.hasRoom = false) :
    (delivery.offer transferId event).Sound := by
  have hcoalesced := h.coalesced
  have hhand : delivery.inHand = [event] := by rw [inHand, hpoint]
  have hevent : IsProgressOf transferId event := h.reported transferId event (by rw [hpoint]; rfl) (by rw [hpoint]; rfl)
  rw [underway_eq, hhand] at hcoalesced
  have hcopies : delivery.point.copies = some transferId := by rw [hpoint]; rfl
  by_cases hends : delivery.endsInProgress = true
  · -- The newest pending event is a progress of this copy, and gives way.
    obtain ⟨before, last, hpending⟩ : ∃ before last, delivery.pending = before ++ [last] := by
      rcases eq_nil_or_concat delivery.pending with hnil | ⟨before, last, hlast⟩
      · rw [endsInProgress, hnil] at hends
        cases hends
      · exact ⟨before, last, by rw [hlast, concat_eq_append]⟩
    have hlast : last.isProgress = true := (endsInProgress_append hpending).symm.trans hends
    obtain ⟨old, hold⟩ := h.own transferId hcopies last (by rw [hpending]; simp) hlast
    obtain ⟨new, hnew⟩ := hevent
    rw [offer_replaces hends, hpending, dropLast_concat]
    constructor
    · rw [underway_eq]
      have hboth : Coalesced delivery.produced
          ((delivery.received ++ (delivery.channel ++ before)) ++ [last, event]) := by
        simpa [hpending] using hcoalesced
      simpa [inHand] using hboth.replace hold hnew
    · intro hidle
      cases hidle
    · intro other hother found hmem hprogress
      cases hother
      rcases mem_append.mp hmem with hmem | hmem
      · exact h.own transferId hcopies found (by rw [hpending]; exact mem_append_left _ hmem) hprogress
      · rw [mem_singleton.mp hmem]
        exact ⟨new, hnew⟩
    · intro _ _ _ hreports
      cases hreports
    · have hbuffered := h.buffered
      rw [hpending, length_append, length_singleton] at hbuffered
      have hprogress := Coalesced.isProgress_of_progress hnew
      rw [length_append, length_singleton]
      rcases hbuffered with hlt | ⟨heq, -⟩
      · exact .inl hlt
      · exact .inr ⟨heq, (endsInProgress_append rfl).trans hprogress⟩
    · exact h.asserted
  · have hlength : delivery.pending.length < transferCallbackEventBufferCapacity := by
      rcases h.buffered with hlt | ⟨-, hprogress⟩
      · exact hlt
      · exact absurd hprogress hends
    by_cases hroom : delivery.hasRoom = true
    · have hempty : delivery.pending = [] := by
        rcases horder with hempty | hprogress | hfull
        · exact hempty
        · exact absurd hprogress hends
        · exact absurd (hfull.symm.trans hroom) (by simp)
      rw [offer_sends hends hroom]
      constructor
      · rw [underway_eq]
        simpa [inHand, hempty] using hcoalesced
      · intro hidle
        cases hidle
      · intro other _ found hmem
        rw [show ({ delivery with point := .copying transferId, channel := delivery.channel ++ [event] } :
          EventDelivery).pending = [] from hempty] at hmem
        cases hmem
      · intro _ _ _ hreports
        cases hreports
      · exact .inl hlength
      · exact h.asserted
    · rw [offer_keeps hends hroom]
      constructor
      · rw [underway_eq]
        simpa [inHand] using hcoalesced
      · intro hidle
        cases hidle
      · intro other hother found hmem hprogress
        cases hother
        rcases mem_append.mp hmem with hmem | hmem
        · exact h.own transferId hcopies found hmem hprogress
        · rw [mem_singleton.mp hmem]
          exact hevent
      · intro _ _ _ hreports
        cases hreports
      · have hprogress := isProgressOf_isProgress hevent
        rw [length_append, length_singleton]
        by_cases hlast : delivery.pending.length + 1 < transferCallbackEventBufferCapacity
        · exact .inl hlast
        · exact .inr ⟨by omega, (endsInProgress_append rfl).trans hprogress⟩
      · simp only [h.asserted, hlength, decide_true, Bool.and_true]

theorem Sound.step (h : delivery.Sound) {action : DeliveryAction} (horder : delivery.overtakes action = false)
    (hstep : delivery.step action = some delivery') : delivery'.Sound := by
  unfold EventDelivery.step at hstep
  split at hstep
  · exact h.receive hstep
  next event hpoint =>
    obtain ⟨-, hstep⟩ := ite_none_left_eq_some.mp hstep
    cases hstep
    exact h.emit event (by rw [inHand, hpoint])
  next event hpoint =>
    obtain ⟨-, hstep⟩ := ite_none_left_eq_some.mp hstep
    cases hstep
    exact h.emit event (by rw [inHand, hpoint])
  next event hpoint => exact h.send hpoint hstep
  next transferId hpoint =>
    -- Nothing is pending when a copy is started.
    cases hstep
    refine h.goto _ ?_ nofun (.inr (.inr (h.quiet hpoint))) (.inl rfl)
    rw [inHand, inHand, hpoint]
  next transferId hpoint =>
    cases hstep
    refine h.goto _ ?_ nofun (.inr (.inl ?_)) (.inl rfl)
    · rw [inHand, inHand, hpoint]
    · rw [hpoint]
      rfl
  next transferId after hpoint =>
    cases hstep
    exact h.flush hpoint
  next transferId rounds hpoint => exact h.command hpoint hstep
  next transferId rounds hpoint =>
    cases hstep
    refine h.goto _ ?_ nofun (.inr (.inl ?_)) (.inl rfl)
    · rw [inHand, inHand, hpoint]
    · rw [hpoint]
      rfl
  next transferId hpoint =>
    cases hstep
    refine h.goto _ ?_ nofun (.inr (.inl ?_)) (.inl rfl)
    · rw [inHand, inHand, hpoint]
    · rw [hpoint]
      rfl
  next transferId hpoint =>
    cases hstep
    exact h.progress hpoint
  next transferId event hpoint =>
    cases hstep
    apply h.offer hpoint
    simp only [overtakes, decide_true, Bool.true_and, Bool.and_eq_false_iff, Bool.not_eq_false',
      List.isEmpty_iff] at horder
    rcases horder with (hempty | hprogress) | hfull
    · exact .inl hempty
    · exact .inr (.inl hprogress)
    · exact .inr (.inr hfull)
  next transferId hpoint =>
    cases hstep
    refine h.goto _ ?_ nofun (.inl rfl) (.inl rfl)
    rw [inHand, inHand, hpoint]
  · cases hstep

theorem reportedBytes_sublist {events events' : List SftpTransferEvent} (h : events.Sublist events')
    (transferId : SftpTransferId) :
    (reportedBytes transferId events).Sublist (reportedBytes transferId events') :=
  h.filterMap _

theorem Sound.deliversInOrder (h : delivery.Sound) : DeliversInOrder delivery where
  coalesced := h.coalesced
  settled hidle := by
    rw [underway_eq, h.quiet hidle, inHand, hidle, append_nil, append_nil]
  inOrder := (sublist_append_left _ _).trans h.coalesced.sublist
  lifecycle := by
    rw [h.coalesced.lifecycle, filter_append]
    exact prefix_append _ _
  neverBackwards transferId hproduced :=
    hproduced.sublist
      (reportedBytes_sublist ((sublist_append_left _ _).trans h.coalesced.sublist) transferId)
  bounded := by
    rcases h.buffered with hlt | ⟨heq, -⟩
    · exact hlt.le
    · exact heq.le
  asserted := h.asserted

/-- The states that the worker and the consumer reach when no progress overtakes pending events. -/
theorem events_are_delivered_in_order {capacity : Nat} {positive : 0 < capacity}
    (h : Runs.Reaches EventDelivery.step (fun delivery action => delivery.overtakes action = false)
      (start capacity positive) delivery) : DeliversInOrder delivery := by
  have hsound : delivery.Sound := h.invariant (start_sound capacity positive) fun hsound horder hstep =>
    hsound.step horder hstep
  exact hsound.deliversInOrder

/-- A file of 20 bytes is copied. A batch is queued while the second half is reported, and the channel,
which has one place, is full until the consumer receives the report of the first half at the moment that
is given. -/
def twoReports (receiveBetween : Bool) : List DeliveryAction :=
  let source := .localPath "/a".toList
  let target := .remotePath "/b".toList
  [.emit (.batchQueued 1 [1]), .send, .receive, .emit (.itemStarted 1 1 source target .upload (some 20)), .send,
    .receive, .startCopy 1, .callBack, .flush, .endCommands, .progress 1 source 10 (some 20), .flush, .offer,
    .callBack, .flush, .command (some (2, [2])), .endCommands, .progress 1 source 20 (some 20), .flush] ++
  (if receiveBetween then [.receive, .offer, .receive] else [.offer, .receive]) ++
  [.endCopy, .emit (.destinationDirectoryRefreshRequested 1 1 (.remotePath ['/'])), .send, .receive, .send, .receive]

theorem two_reports_are_delivered_in_order :
    ∃ delivery, Runs.Reaches EventDelivery.step (fun delivery action => delivery.overtakes action = false)
        (start 1 Nat.one_pos) delivery ∧
      delivery.received.length = 5 ∧ DeliversInOrder delivery := by
  have hruns : ((twoReports false).foldlM
      (fun delivery action => if !delivery.overtakes action then delivery.step action else none)
      (start 1 Nat.one_pos)).map (·.received.length) = some 5 := by
    decide +kernel
  obtain ⟨delivery, hrun, hlength⟩ := map_eq_some_iff.mp hruns
  have hreaches : Runs.Reaches EventDelivery.step (fun delivery action => delivery.overtakes action = false)
      (start 1 Nat.one_pos) delivery := by
    refine Runs.reaches_of_checked (fun delivery action hcheck => ?_) hrun
    rw [Bool.not_eq_true'] at hcheck
    exact hcheck
  exact ⟨delivery, hreaches, hlength, events_are_delivered_in_order hreaches⟩

/-- The report of the second half overtakes the event of the batch that was queued before it. -/
theorem report_overtakes_queued_batch :
    ∃ delivery, Runs.Reaches EventDelivery.step (fun _ _ => True) (start 1 Nat.one_pos) delivery ∧
      ¬ DeliversInOrder delivery := by
  have hruns : ((twoReports true).foldlM EventDelivery.step (start 1 Nat.one_pos)).map
      (fun delivery => decide (delivery.received.Sublist delivery.produced)) = some false := by
    decide +kernel
  obtain ⟨delivery, hrun, hsublist⟩ := map_eq_some_iff.mp hruns
  refine ⟨delivery, Runs.reaches_of_foldlM hrun, fun hdelivers => ?_⟩
  exact of_decide_eq_false hsublist hdelivers.inOrder

end EventDelivery

end FesTerm.Ssh
