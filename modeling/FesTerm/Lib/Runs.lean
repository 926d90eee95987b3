import Mathlib

/-!
# Runs

The states that a system reaches when each of its steps is answered by a partial function and each
step taken meets a condition on the state before it.
-/

namespace Runs

variable {σ ε : Type} {next : σ → ε → Option σ} {allowed allowed' : σ → ε → Prop}
  {start state state' : σ}

/-- The states of all runs whose steps are allowed. -/
inductive Reaches (next : σ → ε → Option σ) (allowed : σ → ε → Prop) (start : σ) : σ → Prop
  | refl : Reaches next allowed start start
  | step {state state' : σ} {event : ε} (h : Reaches next allowed start state)
    (hallowed : allowed state event) (hstep : next state event = some state') :
    Reaches next allowed start state'

theorem Reaches.invariant {holds : σ → Prop} (h : Reaches next allowed start state) (hstart : holds start)
    (hstep : ∀ {state state' event}, holds state → allowed state event →
      next state event = some state' → holds state') : holds state := by
  induction h with
  | refl => exact hstart
  | step _ hallowed hnext ih => exact hstep ih hallowed hnext

theorem Reaches.trans {middle : σ} (h : Reaches next allowed start middle)
    (h' : Reaches next allowed middle state) : Reaches next allowed start state := by
  induction h' with
  | refl => exact h
  | step _ hallowed hnext ih => exact ih.step hallowed hnext

theorem Reaches.stays_unused {ι : Type} (current used : σ → ι → Prop) {name : ι}
    (h : Reaches next allowed start state) (hused : used start name) (hgone : ¬ current start name)
    (hstep : ∀ {state state' event}, allowed state event → next state event = some state' →
      used state name → used state' name ∧ (current state' name → current state name)) :
    ¬ current state name := by
  have hboth : used state name ∧ ¬ current state name := by
    induction h with
    | refl => exact ⟨hused, hgone⟩
    | step _ hallowed hnext ih =>
      obtain ⟨hlater, hback⟩ := hstep hallowed hnext ih.1
      exact ⟨hlater, fun hcurrent => ih.2 (hback hcurrent)⟩
  exact hboth.2

variable {events : List ε}

theorem reaches_of_foldlM (h : events.foldlM next start = some state) :
    Reaches next (fun _ _ => True) start state := by
  induction events generalizing start with
  | nil =>
    cases h
    exact .refl
  | cons event events ih =>
    rw [List.foldlM_cons] at h
    obtain ⟨middle, hmiddle, hrest⟩ := Option.bind_eq_some_iff.mp h
    exact Reaches.trans (.step .refl trivial hmiddle) (ih hrest)

theorem exists_of_foldlM {check : σ → Bool}
    (h : (events.foldlM next start).any check = true) :
    ∃ state, Reaches next (fun _ _ => True) start state ∧ check state = true := by
  obtain ⟨state, hrun, hcheck⟩ := (Option.any_eq_true _ _).mp h
  exact ⟨state, reaches_of_foldlM hrun, hcheck⟩

theorem reaches_of_checked {check : σ → ε → Bool}
    (hcheck : ∀ state event, check state event → allowed state event)
    (h : events.foldlM (fun state event => if check state event then next state event else none) start =
      some state) : Reaches next allowed start state := by
  have hrun := reaches_of_foldlM h
  refine hrun.invariant .refl fun hreaches _ hstep => ?_
  split at hstep
  · next hevent => exact hreaches.step (hcheck _ _ hevent) hstep
  · cases hstep

end Runs
