import FesTerm.AutomationJs.Admission

/-!
# No effect of a script after the cut

Who runs a closure holds the gate and has claimed an open window. A cut closes the window first and then waits
for the gate; what was claimed before is over when it starts, and nothing can be claimed afterwards.
-/

namespace FesTerm.AutomationJs

open Option List Function

namespace Point

/-- The gate is held. A party that signals a cancellation may hold it or not. -/
def holds : Point → Bool
  | outside | entering | closing | signalling _ => false
  | _ => true

/-- The window is claimed, and the closure runs or may run. -/
def claims : Point → Bool
  | claimed | admitted _ | committing _ => true
  | _ => false

/-- The operation has begun. -/
def begun : Point → Bool
  | operating | operated | leaving _ | dropping _ | expired => true
  | point => point.claims

/-- The watchdog may still write. -/
def discloses : Point → Bool
  | operating => true
  | point => point.claims

/-- The window was closed for a cut. -/
def closes : Point → Bool
  | closing | cutting => true
  | _ => false

/-- The clock that the closure is handed. -/
def handed : Point → Option Instant
  | admitted now | committing now => some now
  | _ => none

end Point

/-! ## What a step does -/

/-- The gate is wanted: by `with_open`, or by the watchdog for a write. -/
def Window.Wants (window : Window) (party : Party) : Prop :=
  window.points party = .entering ∨
    window.points party = .outside ∧ window.watchdog.cancelling = false

/-- What a party does with the admission, and where it stands then. -/
inductive Turn (window : Window) (party : Party) : Admission → Point → Prop
  | wants (hparty : party ≠ .watchdog) (hpoint : window.points party = .outside) :
    Turn window party window.admission .entering
  | cancels (hparty : party ≠ .watchdog) (hpoint : window.points party = .outside) :
    Turn window party { window.admission with state := .closed } (.signalling false)
  | closes (hparty : party ≠ .watchdog) (hpoint : window.points party = .outside) :
    Turn window party { window.admission with state := .closed } .closing
  | locks (hgate : window.admission.gate = none) (hwants : window.Wants party) :
    Turn window party { window.admission with gate := some party } .checking
  | locksPoisoned (hgate : window.admission.gate = none) (hwants : window.Wants party) :
    Turn window party { window.admission with gate := some party } .revoking
  | cuts (hgate : window.admission.gate = none) (hpoint : window.points party = .closing) :
    Turn window party { window.admission with gate := some party } .cutting
  | revokes (hpoint : window.points party = .revoking) :
    Turn window party { window.admission with state := .closed } (.signalling false)
  | checks (hpoint : window.points party = .checking) : Turn window party window.admission .timing
  | turnsAway (hpoint : window.points party = .checking) : Turn window party window.admission (.leaving false)
  | operates (hpoint : window.points party = .timing) : Turn window party window.admission .operating
  | overruns (hpoint : window.points party = .timing) : Turn window party window.admission .expiring
  | stops (hpoint : window.points party = .expiring) :
    Turn window party { window.admission with state := .closed } (.leaving false)
  | commits (hentered : party = .watchdog → window.watchdog.entered = true)
    (hopened : window.admission.state = .opened) (hpoint : window.points party = .operating) :
    Turn window party { window.admission with state := .claimed } .claimed
  | refused (hpoint : window.points party = .operating) : Turn window party window.admission .operated
  | admits (hclock : window.clock < window.admission.deadline) (hpoint : window.points party = .claimed) :
    Turn window party window.admission (.admitted window.clock)
  | expires (hpoint : window.points party = .claimed) : Turn window party window.admission .expired
  | stopsLate (hpoint : window.points party = .expired) :
    Turn window party { window.admission with state := .closed } (.dropping false)
  | runs {now : Instant} (hpoint : window.points party = .admitted now) :
    Turn window party window.admission (.committing now)
  | commitEnds {now : Instant} {panicked : Bool} (hpoint : window.points party = .committing now) :
    Turn window party window.admission (.dropping panicked)
  | releases {panicked : Bool} {state : AdmissionState}
    (hstate : state = window.admission.state ∨ window.admission.state = .claimed)
    (hpoint : window.points party = .dropping panicked) :
    Turn window party { window.admission with state } (if panicked then .leaving true else .operated)
  | givesUp {panicked : Bool} (hpoint : window.points party = .operating) :
    Turn window party window.admission (.leaving panicked)
  | finishes {panicked : Bool} (hpoint : window.points party = .operated) :
    Turn window party window.admission (.leaving panicked)
  | cutEnds {panicked : Bool} (hpoint : window.points party = .cutting) :
    Turn window party window.admission (.signalling panicked)
  | signals {panicked : Bool} (hpoint : window.points party = .signalling panicked) :
    Turn window party { window.admission with cancelled := true }
      (if window.admission.gate = some party then .leaving panicked else .outside)

namespace Window

/-- The window after a turn of a party. -/
def turned (window : Window) (party : Party) (admission : Admission) (point : Point) : Window :=
  { window with
    admission, points := update window.points party point, cut := window.cut || point = .cutting }

/-- What is left of the window by a step. -/
inductive Effect (window : Window) : Window → Prop
  | tick (elapsed : Nat) : Effect window { window with clock := window.clock + elapsed }
  | putOff : Effect window window
  | turn {party : Party} {admission : Admission} {point : Point} (h : Turn window party admission point) :
    Effect window (window.turned party admission point)
  | left {party : Party} {panicked : Bool} (hpoint : window.points party = .leaving panicked) {watchdog : Watchdog}
    (hwatchdog : party = .watchdog ∧ watchdog = { window.watchdog with entered := false, permit := none } ∨
      party ≠ .watchdog ∧ watchdog = window.watchdog) :
    Effect window { window with
      admission.gate := none, admission.poisoned := window.admission.poisoned || panicked
      points := update window.points party .outside
      watchdog }
  | staged (staged : Staged) (hlooping : window.points .watchdog = .outside)
    (hcancelling : window.watchdog.cancelling = false) :
    Effect window { window with watchdog.frames := window.watchdog.frames ++ [staged.outbound] }
  | cancelling (hlooping : window.points .watchdog = .outside) :
    Effect window { window with
      watchdog.frames := [.unguarded cancelFrame], watchdog.sent := 0, watchdog.cancelling := true }
  | entered (hpoint : window.points .watchdog = .operating) :
    Effect window { window with
      watchdog.entered := true, watchdog.permit := window.watchdog.frames.head?.bind (·.disclosure) }
  | wrote {now : Instant} {count : Nat} {write : PipeWrite} (hpoint : window.points .watchdog = .committing now)
    (hwrite : window.watchdog.pipeWrite count = some write) :
    Effect window { window with
      watchdog := window.watchdog.advance count, written := write :: window.written
      points := update window.points .watchdog (.dropping false) }
  | wroteCancel {count : Nat} {write : PipeWrite} (hcancelling : window.watchdog.cancelling = true)
    (hwrite : window.watchdog.pipeWrite count = some write) :
    Effect window { window with watchdog := window.watchdog.advance count, written := write :: window.written }
  | ended : Effect window { window.close with watchdog.ended := true }

variable {window window' : Window} {action : WindowAction} {party : Party}

theorem turn_eq {admission : Admission} {point : Point} (hpoint : point ≠ .cutting) :
    window.turned party admission point =
      { window with admission, points := update window.points party point } := by
  unfold turned
  rw [decide_eq_false hpoint, Bool.or_false]

theorem Effect.ofTurn {admission : Admission} {point : Point} (h : Turn window party admission point)
    (hpoint : point ≠ .cutting) :
    Effect window { window with admission, points := update window.points party point } := by
  rw [← turn_eq hpoint]
  exact .turn h

theorem lock_effect (h : window.lock party = some window') : Effect window window' := by
  unfold lock at h
  obtain ⟨hgate, h⟩ := ite_none_left_eq_some.mp h
  have hfree : window.admission.gate = none := not_isSome_iff_eq_none.mp hgate
  split at h
  next hpoint =>
    cases h
    split
    · exact .ofTurn (.locksPoisoned hfree (.inl hpoint)) nofun
    · exact .ofTurn (.locks hfree (.inl hpoint)) nofun
  next hpoint =>
    cases h
    have heffect := Effect.turn (Turn.cuts hfree hpoint)
    unfold turned at heffect
    rw [decide_eq_true rfl, Bool.or_true] at heffect
    exact heffect
  · cases h

theorem readClock_effect (h : window.readClock party = some window') : Effect window window' := by
  unfold readClock at h
  split at h
  next hpoint =>
    cases h
    split
    · exact .ofTurn (.operates hpoint) nofun
    · exact .ofTurn (.overruns hpoint) nofun
  next hpoint =>
    cases h
    split
    next hbefore => exact .ofTurn (.admits (of_decide_eq_true hbefore) hpoint) nofun
    · exact .ofTurn (.expires hpoint) nofun
  · cases h

theorem stop_effect (h : window.stop party = some window') : Effect window window' := by
  unfold stop at h
  split at h
  next hpoint =>
    cases h
    exact .ofTurn (.stops hpoint) nofun
  next hpoint =>
    cases h
    exact .ofTurn (.stopsLate hpoint) nofun
  next hpoint =>
    cases h
    exact .ofTurn (.revokes hpoint) nofun
  · cases h

theorem signal_effect (h : window.signal party = some window') : Effect window window' := by
  unfold signal at h
  split at h
  next hpoint =>
    cases h
    refine .ofTurn (.signals hpoint) (fun h => ?_)
    split at h
    · cases h
    · cases h
  · cases h

theorem commit_effect (h : window.commit party = some window') : Effect window window' := by
  unfold commit at h
  obtain ⟨⟨hpoint, hentered⟩, h⟩ := ite_none_right_eq_some.mp h
  split at h
  next hopened =>
    cases h
    exact .ofTurn (.commits hentered hopened hpoint) nofun
  · cases h
    exact .ofTurn (.refused hpoint) nofun

variable {panicked : Bool}

theorem finish_effect (h : window.finish party panicked = some window') : Effect window window' := by
  unfold finish at h
  split at h
  next hpoint =>
    cases h
    exact .ofTurn (.givesUp hpoint) nofun
  next hpoint =>
    cases h
    exact .ofTurn (.finishes hpoint) nofun
  next hpoint =>
    cases h
    exact .ofTurn (.commitEnds hpoint) nofun
  next hpoint =>
    cases h
    exact .ofTurn (.cutEnds hpoint) nofun
  · cases h

theorem release_effect (h : window.release party = some window') : Effect window window' := by
  unfold release at h
  split at h
  next panicked hpoint =>
    cases h
    have hcut : (if panicked then Point.leaving true else .operated) ≠ .cutting := by
      cases panicked
      · intro hcut
        cases hcut
      · intro hcut
        cases hcut
    by_cases hclaimed : window.admission.state = .claimed
    · have hturn : Turn window party { window.admission with state := .opened } _ :=
        .releases (.inr hclaimed) hpoint
      change Effect window (if window.admission.state = .claimed then _ else _)
      rw [if_pos hclaimed]
      exact .ofTurn hturn hcut
    · change Effect window (if window.admission.state = .claimed then _ else _)
      rw [if_neg hclaimed]
      exact .ofTurn (.releases (.inl rfl) hpoint) hcut
  · cases h

theorem leave_effect (h : window.leave party = some window') : Effect window window' := by
  unfold leave at h
  split at h
  next panicked hpoint =>
    cases h
    split
    next hparty => exact .left hpoint (.inl ⟨hparty, rfl⟩)
    next hparty => exact .left hpoint (.inr ⟨hparty, rfl⟩)
  · cases h

theorem looping_outside (h : window.looping = true) : window.points .watchdog = .outside := by
  rw [looping, Bool.and_eq_true] at h
  exact of_decide_eq_true h.1

theorem step_effect (h : window.step action = some window') : Effect window window' := by
  cases action with
  | tick elapsed =>
    cases h
    exact .tick elapsed
  | withAdmission thread =>
    obtain ⟨hpoint, h⟩ := ite_none_right_eq_some.mp h
    cases h
    exact .ofTurn (.wants nofun hpoint) nofun
  | cancel thread =>
    obtain ⟨hpoint, h⟩ := ite_none_right_eq_some.mp h
    cases h
    exact .ofTurn (.cancels nofun hpoint) nofun
  | cancelWith thread =>
    obtain ⟨hpoint, h⟩ := ite_none_right_eq_some.mp h
    cases h
    exact .ofTurn (.closes nofun hpoint) nofun
  | lock party => exact lock_effect h
  | check party =>
    obtain ⟨hpoint, h⟩ := ite_none_right_eq_some.mp h
    cases h
    split
    · exact .ofTurn (.checks hpoint) nofun
    · exact .ofTurn (.turnsAway hpoint) nofun
  | readClock party => exact readClock_effect h
  | stop party => exact stop_effect h
  | signal party => exact signal_effect h
  | commit party => exact commit_effect h
  | run party =>
    simp only [step] at h
    split at h
    next hpoint =>
      cases h
      exact .ofTurn (.runs hpoint) nofun
    · cases h
  | finish thread panicked => exact finish_effect h
  | release party => exact release_effect h
  | leave party => exact leave_effect h
  | stage staged =>
    obtain ⟨⟨hlooping, hcancelling⟩, h⟩ := ite_none_right_eq_some.mp h
    cases h
    rw [Bool.not_eq_true'] at hcancelling
    exact .staged staged (looping_outside hlooping) hcancelling
  | beginCancelling =>
    obtain ⟨⟨hlooping, -⟩, h⟩ := ite_none_right_eq_some.mp h
    cases h
    exact .cancelling (looping_outside hlooping)
  | writeGuarded =>
    obtain ⟨⟨hlooping, hcancelling, -⟩, h⟩ := ite_none_right_eq_some.mp h
    cases h
    rw [Bool.not_eq_true'] at hcancelling
    have hpoint := looping_outside hlooping
    split
    · exact .putOff
    next hgate =>
      have hfree : window.admission.gate = none := not_isSome_iff_eq_none.mp hgate
      split
      · exact .ofTurn (.locksPoisoned hfree (.inr ⟨hpoint, hcancelling⟩)) nofun
      · exact .ofTurn (.locks hfree (.inr ⟨hpoint, hcancelling⟩)) nofun
  | tryEnter granted =>
    obtain ⟨⟨hpoint, -⟩, h⟩ := ite_none_right_eq_some.mp h
    split at h
    · cases h
      exact .entered hpoint
    · obtain ⟨-, h⟩ := ite_none_right_eq_some.mp h
      cases h
      exact .ofTurn (.givesUp hpoint) nofun
  | write count =>
    simp only [step] at h
    split at h
    next hpoint =>
      obtain ⟨write, hwrite, rfl⟩ := map_eq_some_iff.mp h
      exact .wrote hpoint hwrite
    · cases h
  | finishWrite =>
    obtain ⟨hpoint, h⟩ := ite_none_right_eq_some.mp h
    cases h
    exact .ofTurn (.finishes hpoint) nofun
  | writeCancel count =>
    obtain ⟨⟨-, hcancelling⟩, h⟩ := ite_none_right_eq_some.mp h
    obtain ⟨write, hwrite, rfl⟩ := map_eq_some_iff.mp h
    exact .wroteCancel hcancelling hwrite
  | endLoop =>
    obtain ⟨-, h⟩ := ite_none_right_eq_some.mp h
    cases h
    exact .ended

/-! ## What every turn keeps -/

variable {now : Instant}

section

variable {admission : Admission} {point : Point} (h : Turn window party admission point)

include h

theorem turn_deadline : admission.deadline = window.admission.deadline := by
  cases h with
  | _ => rfl

theorem turn_gate : admission.gate = window.admission.gate ∨
    window.admission.gate = none ∧ admission.gate = some party := by
  cases h with
  | locks hgate | locksPoisoned hgate | cuts hgate => exact .inr ⟨hgate, rfl⟩
  | _ => exact .inl rfl

theorem turn_holds (hgate : (window.points party).holds = true → window.admission.gate = some party)
    (hholds : point.holds = true) : admission.gate = some party := by
  cases h with
  | locks | locksPoisoned | cuts => rfl
  | signals =>
    split at hholds
    · assumption
    · cases hholds
  | wants | cancels | closes | revokes | cutEnds => cases hholds
  | _ =>
    rename_i hpoint
    apply hgate
    rw [hpoint]
    rfl

theorem turn_closed (hclosed : window.admission.state = .closed) : admission.state = .closed := by
  cases h with
  | commits _ hopened =>
    rw [hclosed] at hopened
    cases hopened
  | releases hstate =>
    rcases hstate with rfl | hclaimed
    · exact hclosed
    · rw [hclosed] at hclaimed
      cases hclaimed
  | cancels | closes | revokes | stops | stopsLate => rfl
  | _ => exact hclosed

theorem turn_claims (hclaims : point.claims = true) : (window.points party).claims = true ∨
    window.admission.state = .opened ∧ (party = .watchdog → window.watchdog.entered = true) := by
  cases h with
  | commits hentered hopened => exact .inr ⟨hopened, hentered⟩
  | admits _ hpoint | runs hpoint => exact .inl (by rw [hpoint]; rfl)
  | releases | signals => split at hclaims <;> cases hclaims
  | _ => cases hclaims

theorem turn_closes (hcloses : point.closes = true) :
    (window.points party).closes = true ∨ admission.state = .closed := by
  cases h with
  | closes => exact .inr rfl
  | cuts _ hpoint => exact .inl (by rw [hpoint]; rfl)
  | releases | signals => split at hcloses <;> cases hcloses
  | _ => cases hcloses

theorem turn_handed (hhanded : point.handed = some now) :
    (window.points party).handed = some now ∨ now < window.admission.deadline := by
  cases h with
  | admits hclock =>
    cases hhanded
    exact .inr hclock
  | runs hpoint => exact .inl (by rw [hpoint]; exact hhanded)
  | releases | signals => split at hhanded <;> cases hhanded
  | _ => cases hhanded

theorem turn_cutting (hcutting : point = .cutting) :
    window.points party = .closing ∧ window.admission.gate = none := by
  cases h with
  | cuts hgate hpoint => exact ⟨hpoint, hgate⟩
  | releases | signals => split at hcutting <;> cases hcutting
  | _ => cases hcutting

theorem turn_begun (hbegun : (window.points party).begun = true) :
    point.begun = true ∧ (point.discloses = true → (window.points party).discloses = true) := by
  cases h with
  | commits _ _ hpoint | admits _ hpoint | runs hpoint => exact ⟨rfl, fun _ => by rw [hpoint]; rfl⟩
  | refused | expires | stopsLate | commitEnds | givesUp | finishes => exact ⟨rfl, nofun⟩
  | releases =>
    split
    · exact ⟨rfl, nofun⟩
    · exact ⟨rfl, nofun⟩
  | locks _ hwants | locksPoisoned _ hwants =>
    rcases hwants with hpoint | ⟨hpoint, -⟩ <;> rw [hpoint] at hbegun <;> cases hbegun
  | _ =>
    rename_i hpoint
    rw [hpoint] at hbegun
    cases hbegun

theorem turn_outside (hparty : party = .watchdog) (hcancelling : window.watchdog.cancelling = true) :
    window.points party ≠ .outside := by
  intro houtside
  have hnot : ¬ window.Wants party := by
    rintro (hpoint | ⟨-, hgoing⟩)
    · rw [houtside] at hpoint
      cases hpoint
    · rw [hcancelling] at hgoing
      cases hgoing
  cases h with
  | wants hother | cancels hother | closes hother => exact hother hparty
  | locks _ hwants | locksPoisoned _ hwants => exact hnot hwants
  | _ =>
    rename_i hpoint
    rw [houtside] at hpoint
    cases hpoint

end

/-! ## What a run keeps -/

/-- Why a closure that runs is alone and runs before the cut, and why what the watchdog writes was let out. -/
structure Sound (window : Window) : Prop where
  gate : ∀ party, (window.points party).holds = true → window.admission.gate = some party
  closes : ∀ party, (window.points party).closes = true → window.admission.state = .closed
  cut : window.cut = true →
    window.admission.state = .closed ∧ ∀ party, (window.points party).claims = false
  handed : ∀ party now, (window.points party).handed = some now → now < window.admission.deadline
  claims : (window.points .watchdog).claims = true → window.watchdog.entered = true
  begun : window.watchdog.entered = true → (window.points .watchdog).begun = true
  unentered : window.watchdog.entered = false → window.watchdog.permit = none
  entered : window.watchdog.entered = true → (window.points .watchdog).discloses = true →
    window.watchdog.permit = window.watchdog.frames.head?.bind (·.disclosure)
  cancelling : window.watchdog.cancelling = true →
    window.points .watchdog = .outside ∧ ∀ frame ∈ window.watchdog.frames, frame.disclosure = none
  written : ∀ write ∈ window.written, write.permit = write.frame.disclosure

theorem holds_of_claims {point : Point} (h : point.claims = true) : point.holds = true := by
  cases point with
  | claimed | admitted | committing => rfl
  | _ => cases h

theorem start_sound (deadline : Instant) (frames : List (List UInt8)) : (start deadline frames).Sound where
  gate _ hholds := by cases hholds
  closes _ hcloses := by cases hcloses
  cut hcut := by cases hcut
  handed _ _ hhanded := by cases hhanded
  claims hclaims := by cases hclaims
  begun hentered := by cases hentered
  unentered _ := rfl
  entered hentered := by cases hentered
  cancelling hcancelling := by cases hcancelling
  written _ hwrite := by cases hwrite

theorem forall_update {points : Party → Point} {party : Party} {point : Point} {motive : Party → Point → Prop}
    (hself : motive party point) (hothers : ∀ other, other ≠ party → motive other (points other)) (other : Party) :
    motive other (update points party point other) := by
  by_cases hother : other = party
  · subst hother
    rw [update_self]
    exact hself
  · rw [update_of_ne hother]
    exact hothers other hother

theorem Sound.free (h : window.Sound) (hgate : window.admission.gate = none) (party : Party) :
    (window.points party).claims = false := by
  by_contra hclaims
  have hheld := h.gate party (holds_of_claims (Bool.not_eq_false _ ▸ hclaims))
  rw [hgate] at hheld
  cases hheld

section

variable {admission : Admission} {point : Point}

theorem Sound.turn_gate (h : window.Sound) (hturn : Turn window party admission point) (other : Party) :
    (update window.points party point other).holds = true → admission.gate = some other := by
  apply forall_update (motive := fun other point => point.holds = true → admission.gate = some other)
  · exact turn_holds hturn (h.gate party)
  · intro other hother hholds
    have hheld := h.gate other hholds
    rcases Window.turn_gate hturn with hsame | ⟨hfree, -⟩
    · rw [hsame]
      exact hheld
    · rw [hheld] at hfree
      cases hfree

theorem Sound.turn_closes (h : window.Sound) (hturn : Turn window party admission point) (other : Party) :
    (update window.points party point other).closes = true → admission.state = .closed := by
  apply forall_update (motive := fun _ point => point.closes = true → admission.state = .closed)
  · intro hcloses
    rcases Window.turn_closes hturn hcloses with hold | hclosed
    · exact turn_closed hturn (h.closes party hold)
    · exact hclosed
  · intro other _ hcloses
    exact turn_closed hturn (h.closes other hcloses)

theorem Sound.turn_cut (h : window.Sound) (hturn : Turn window party admission point)
    (hcut : (window.cut || decide (point = .cutting)) = true) :
    admission.state = .closed ∧ ∀ other, (update window.points party point other).claims = false := by
  rw [Bool.or_eq_true, decide_eq_true_iff] at hcut
  rcases hcut with hcut | hcutting
  · obtain ⟨hclosed, hnone⟩ := h.cut hcut
    refine ⟨turn_closed hturn hclosed, ?_⟩
    apply forall_update (motive := fun _ point => point.claims = false)
    · by_contra hclaims
      rcases turn_claims hturn (Bool.not_eq_false _ ▸ hclaims) with hold | ⟨hopened, -⟩
      · rw [hnone party] at hold
        cases hold
      · rw [hclosed] at hopened
        cases hopened
    · intro other _
      exact hnone other
  · obtain ⟨hpoint, hfree⟩ := turn_cutting hturn hcutting
    refine ⟨turn_closed hturn (h.closes party (by rw [hpoint]; rfl)), ?_⟩
    apply forall_update (motive := fun _ point => point.claims = false)
    · rw [hcutting]
      rfl
    · intro other _
      exact h.free hfree other

theorem Sound.turn_handed (h : window.Sound) (hturn : Turn window party admission point) (other : Party)
    (now : Instant) : (update window.points party point other).handed = some now →
      now < admission.deadline := by
  rw [turn_deadline hturn]
  apply forall_update (motive := fun _ point => point.handed = some now → now < window.admission.deadline)
  · intro hhanded
    rcases Window.turn_handed hturn hhanded with hold | hbefore
    · exact h.handed party now hold
    · exact hbefore
  · intro other _ hhanded
    exact h.handed other now hhanded

theorem Sound.turn (h : window.Sound) (hturn : Turn window party admission point) :
    (window.turned party admission point).Sound := by
  by_cases hparty : party = .watchdog
  · subst hparty
    have hself : (window.turned .watchdog admission point).points .watchdog = point := by
      simp only [turned, update_self]
    refine ⟨h.turn_gate hturn, h.turn_closes hturn, h.turn_cut hturn, h.turn_handed hturn, ?_, ?_, h.unentered, ?_, ?_,
      h.written⟩
    · rw [hself]
      intro hclaims
      rcases turn_claims hturn hclaims with hold | ⟨-, hentered⟩
      · exact h.claims hold
      · exact hentered rfl
    · rw [hself]
      intro hentered
      exact (turn_begun hturn (h.begun hentered)).1
    · rw [hself]
      intro hentered hdiscloses
      exact h.entered hentered ((turn_begun hturn (h.begun hentered)).2 hdiscloses)
    · intro hcancelling
      exact absurd (h.cancelling hcancelling).1 (turn_outside hturn rfl hcancelling)
  · have hother : (window.turned party admission point).points .watchdog = window.points .watchdog :=
      update_of_ne (Ne.symm hparty) _ _
    refine ⟨h.turn_gate hturn, h.turn_closes hturn, h.turn_cut hturn, h.turn_handed hturn, ?_, ?_, h.unentered, ?_, ?_,
      h.written⟩
    · rw [hother]
      exact h.claims
    · rw [hother]
      exact h.begun
    · rw [hother]
      exact h.entered
    · rw [hother]
      exact h.cancelling

end

/-! ## The watchdog -/

variable {watchdog : Watchdog} {write : PipeWrite} {count : Nat}

theorem pipeWrite_eq_some (h : watchdog.pipeWrite count = some write) :
    write.permit = watchdog.permit ∧ ∃ frames, watchdog.frames = write.frame :: frames := by
  unfold Watchdog.pipeWrite at h
  obtain ⟨frame, hframe, h⟩ := bind_eq_some_iff.mp h
  obtain ⟨-, h⟩ := ite_none_right_eq_some.mp h
  cases h
  exact ⟨rfl, head?_eq_some_iff.mp hframe⟩

theorem advance_keeps (watchdog : Watchdog) (count : Nat) :
    (watchdog.advance count).entered = watchdog.entered ∧ (watchdog.advance count).permit = watchdog.permit ∧
      (watchdog.advance count).cancelling = watchdog.cancelling ∧
      ∀ frame ∈ (watchdog.advance count).frames, frame ∈ watchdog.frames := by
  unfold Watchdog.advance
  split
  · exact ⟨rfl, rfl, rfl, fun _ hframe => hframe⟩
  next frame frames hframes =>
    split
    · refine ⟨rfl, rfl, rfl, fun other hother => ?_⟩
      rw [hframes]
      exact mem_cons_of_mem _ hother
    · exact ⟨rfl, rfl, rfl, fun _ hframe => hframe⟩

/-- The points of all parties where one of them has released the gate. -/
theorem Sound.left (h : window.Sound) (hpoint : window.points party = .leaving panicked)
    (hwatchdog : party = .watchdog ∧ watchdog = { window.watchdog with entered := false, permit := none } ∨
      party ≠ .watchdog ∧ watchdog = window.watchdog) :
    Sound { window with
      admission.gate := none, admission.poisoned := window.admission.poisoned || panicked
      points := update window.points party .outside
      watchdog } := by
  have hgate : ∀ other, (update window.points party .outside other).holds = true → none = some other := by
    apply forall_update (motive := fun other point => point.holds = true → none = some other)
    · intro hholds
      cases hholds
    · intro other hother hholds
      have hheld := h.gate party (by rw [hpoint]; rfl)
      rw [h.gate other hholds] at hheld
      exact absurd (some.inj hheld) hother
  have hcloses : ∀ other, (update window.points party .outside other).closes = true →
      window.admission.state = .closed := by
    apply forall_update (motive := fun _ point => point.closes = true → window.admission.state = .closed)
    · intro hcloses
      cases hcloses
    · intro other _
      exact h.closes other
  have hcut : window.cut = true → window.admission.state = .closed ∧
      ∀ other, (update window.points party .outside other).claims = false := by
    intro hcut
    obtain ⟨hclosed, hnone⟩ := h.cut hcut
    exact ⟨hclosed, forall_update (motive := fun _ point => point.claims = false) rfl fun other _ => hnone other⟩
  have hhanded : ∀ other now, (update window.points party .outside other).handed = some now →
      now < window.admission.deadline := by
    intro other now
    apply forall_update (motive := fun _ point => point.handed = some now → now < window.admission.deadline)
    · intro hhanded
      cases hhanded
    · intro other _
      exact h.handed other now
  rcases hwatchdog with ⟨rfl, rfl⟩ | ⟨hparty, rfl⟩
  · refine ⟨hgate, hcloses, hcut, hhanded, ?_, ?_, fun _ => rfl, ?_, ?_, h.written⟩
    · simp only [update_self]
      intro hclaims
      cases hclaims
    · intro hentered
      cases hentered
    · intro hentered
      cases hentered
    · intro hcancelling
      refine ⟨?_, (h.cancelling hcancelling).2⟩
      simp only [update_self]
  · have hother : update window.points party .outside .watchdog = window.points .watchdog :=
      update_of_ne (Ne.symm hparty) _ _
    refine ⟨hgate, hcloses, hcut, hhanded, ?_, ?_, h.unentered, ?_, ?_, h.written⟩
    · simp only [hother]
      exact h.claims
    · simp only [hother]
      exact h.begun
    · simp only [hother]
      exact h.entered
    · simp only [hother]
      exact h.cancelling

/-- The watchdog has written, and its claim is about to be released. -/
theorem Sound.wrote (h : window.Sound)
    (hpoint : window.points .watchdog = .committing now) (hwrite : window.watchdog.pipeWrite count = some write) :
    Sound { window with
      watchdog := window.watchdog.advance count, written := write :: window.written
      points := update window.points .watchdog (.dropping false) } := by
  obtain ⟨hentered, hpermit, hcancelling, hframes⟩ := advance_keeps window.watchdog count
  have hturn : Turn window .watchdog window.admission (.dropping false) := .commitEnds hpoint
  have hsound := h.turn hturn
  rw [turn_eq (by intro h; cases h)] at hsound
  refine ⟨hsound.gate, hsound.closes, hsound.cut, hsound.handed, ?_, ?_, ?_, ?_, ?_, ?_⟩
  · simp only [update_self]
    intro hclaims
    cases hclaims
  · intro _
    simp only [update_self]
    rfl
  · rw [hentered, hpermit]
    exact h.unentered
  · simp only [update_self]
    intro _ hdiscloses
    cases hdiscloses
  · rw [hcancelling]
    intro hgoing
    have houtside := (h.cancelling hgoing).1
    rw [hpoint] at houtside
    cases houtside
  · -- The front frame is the one whose boundary was entered.
    intro other hother
    rcases mem_cons.mp hother with rfl | hold
    · obtain ⟨hsame, frames, hfront⟩ := pipeWrite_eq_some hwrite
      rw [hsame, h.entered (h.claims (by rw [hpoint]; rfl)) (by rw [hpoint]; rfl), hfront]
      rfl
    · exact h.written other hold

theorem Sound.step (h : window.Sound) (hstep : window.step action = some window') : window'.Sound := by
  cases step_effect hstep with
  | tick => exact { h with }
  | putOff => exact h
  | turn hturn => exact h.turn hturn
  | left hpoint hwatchdog => exact h.left hpoint hwatchdog
  | staged staged hlooping hcancelling =>
    refine { h with entered := ?_, cancelling := ?_ }
    · intro hentered
      have hbegun := h.begun hentered
      rw [hlooping] at hbegun
      cases hbegun
    · intro hgoing
      rw [hcancelling] at hgoing
      cases hgoing
  | cancelling hlooping =>
    refine { h with entered := ?_, cancelling := ?_ }
    · intro hentered
      have hbegun := h.begun hentered
      rw [hlooping] at hbegun
      cases hbegun
    · intro _
      refine ⟨hlooping, fun frame hframe => ?_⟩
      obtain rfl := mem_singleton.mp hframe
      rfl
  | entered hpoint =>
    refine { h with claims := ?_, begun := ?_, unentered := ?_, entered := ?_ }
    · intro _
      rfl
    · intro _
      rw [hpoint]
      rfl
    · intro hentered
      cases hentered
    · intro _ _
      rfl
  | wrote hpoint hwrite => exact h.wrote hpoint hwrite
  | @wroteCancel count write hcancelling hwrite =>
    obtain ⟨houtside, hunguarded⟩ := h.cancelling hcancelling
    obtain ⟨hentered, hpermit, hcancelling', hframes⟩ := advance_keeps window.watchdog count
    have hoff : window.watchdog.entered = false := by
      by_contra hon
      have hbegun := h.begun (Bool.not_eq_false _ ▸ hon)
      rw [houtside] at hbegun
      cases hbegun
    refine { h with claims := ?_, begun := ?_, unentered := ?_, entered := ?_, cancelling := ?_, written := ?_ }
    · rw [hentered]
      exact h.claims
    · rw [hentered]
      exact h.begun
    · rw [hentered, hpermit]
      exact h.unentered
    · rw [hentered, hoff]
      intro hon
      cases hon
    · intro _
      exact ⟨houtside, fun frame hframe => hunguarded frame (hframes frame hframe)⟩
    · intro other hother
      rcases mem_cons.mp hother with rfl | hold
      · obtain ⟨hsame, frames, hfront⟩ := pipeWrite_eq_some hwrite
        rw [hsame, h.unentered hoff, hunguarded other.frame (by rw [hfront]; exact mem_cons_self)]
      · exact h.written other hold
  | ended =>
    refine { h with closes := ?_, cut := ?_ }
    · intro _ _
      rfl
    · intro hcut
      exact ⟨rfl, (h.cut hcut).2⟩

/-! ## Runs -/

theorem closed_of_reaches {later : Window} (hclosed : window.admission.state = .closed)
    (h : Runs.Reaches step (fun _ _ => True) window later) : later.admission.state = .closed := by
  induction h with
  | refl => exact hclosed
  | step _ _ hstep ih =>
    cases step_effect hstep with
    | turn hturn => exact turn_closed hturn ih
    | ended => rfl
    | _ => exact ih

/-- For any number of threads, in every interleaving. -/
theorem no_effect_after_cut {deadline : Instant} {frames : List (List UInt8)}
    (h : Runs.Reaches step (fun _ _ => True) (start deadline frames) window) : CutsEffects window := by
  have hsound : window.Sound := by
    induction h with
    | refl => exact start_sound deadline frames
    | step _ _ hstep ih => exact ih.step hstep
  refine ⟨?_, ?_, ?_, ?_, ?_⟩
  · intro hcut party now hcommitting
    have hnone := (hsound.cut hcut).2 party
    rw [hcommitting] at hnone
    cases hnone
  · intro hclosed later hlater
    exact closed_of_reaches hclosed hlater
  · intro party now hcommitting
    exact hsound.handed party now (by rw [hcommitting]; rfl)
  · intro party other now now' hcommitting hcommitting'
    have hgate := hsound.gate party (by rw [hcommitting]; rfl)
    rw [hsound.gate other (by rw [hcommitting']; rfl)] at hgate
    exact (some.inj hgate).symm
  · intro write hwrite disclosure hdisclosure
    rw [hsound.written write hwrite, hdisclosure]

def claims (party : Party) : List WindowAction :=
  [.lock party, .check party, .readClock party, .commit party, .readClock party, .run party]

/-- A thread commits an effect, the watchdog writes a part of a result, and another thread cuts. -/
def cutRun : List WindowAction :=
  .withAdmission 0 :: claims (.application 0) ++
  [.finish 0 false, .release (.application 0), .finish 0 false, .leave (.application 0), .stage (.result [1, 2, 3] 7),
    .writeGuarded, .check .watchdog, .readClock .watchdog, .tryEnter true, .commit .watchdog, .readClock .watchdog,
    .run .watchdog, .cancelWith 1, .write 2, .release .watchdog, .finishWrite, .leave .watchdog,
    .lock (.application 1), .finish 1 false, .signal (.application 1), .leave (.application 1), .beginCancelling,
    .writeCancel 21]

theorem cut_run_cuts_effects : ∃ window, cutRun.foldlM step (start 5 []) = some window ∧
    window.written.map (·.permit) = [none, some 7] ∧ window.cut = true ∧ CutsEffects window := by
  have hruns : ((cutRun.foldlM step (start 5 [])).map fun window => (window.written.map (·.permit), window.cut)) =
      some ([none, some 7], true) := by
    decide +kernel
  obtain ⟨window, hrun, hresult⟩ := map_eq_some_iff.mp hruns
  obtain ⟨hwritten, hcut⟩ := Prod.mk.inj hresult
  exact ⟨window, hrun, hwritten, hcut, no_effect_after_cut (Runs.reaches_of_foldlM hrun)⟩

/-- The deadline passes between the clock that is read after the claim and the start of the closure. -/
theorem commit_starts_at_deadline : ∃ window next party now,
    Runs.Reaches step (fun _ _ => True) (start 5 []) window ∧ window.step (.run party) = some next ∧
      next.points party = .committing now ∧ window.admission.deadline ≤ window.clock := by
  have hruns : (([.withAdmission 0, .lock (.application 0), .check (.application 0), .readClock (.application 0),
      .commit (.application 0), .readClock (.application 0), .tick 5].foldlM step (start 5 [])).any fun window =>
        (window.step (.run (.application 0))).any fun next =>
          decide (next.points (.application 0) = .committing 0 ∧ window.admission.deadline ≤ window.clock)) =
      true := by
    decide +kernel
  obtain ⟨window, hrun, hnext⟩ := (Option.any_eq_true _ _).mp hruns
  obtain ⟨next, hstep, hchecks⟩ := (Option.any_eq_true _ _).mp hnext
  obtain ⟨hcommitting, hclock⟩ := of_decide_eq_true hchecks
  exact ⟨window, next, .application 0, 0, Runs.reaches_of_foldlM hrun, hstep, hcommitting, hclock⟩

end Window

end FesTerm.AutomationJs
