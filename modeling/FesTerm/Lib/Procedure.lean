import Mathlib

/-!
# Procedures

A computation that reads and changes a state and may fail. What it changed before it failed stays
changed.
-/

def Procedure (σ ε α : Type) := σ → Except ε α × σ

namespace Procedure

variable {σ ε α β : Type}

instance : Monad (Procedure σ ε) where
  pure a := fun state => (.ok a, state)
  bind x f := fun state =>
    match x state with
    | (.ok a, state) => f a state
    | (.error error, state) => (.error error, state)

instance : MonadExceptOf ε (Procedure σ ε) where
  throw error := fun state => (.error error, state)
  tryCatch x handle := fun state =>
    match x state with
    | (.ok a, state) => (.ok a, state)
    | (.error error, state) => handle error state

def ask (f : σ → Except ε α) : Procedure σ ε α := fun state => (f state, state)

def change (f : σ → σ) : Procedure σ ε Unit := fun state => (.ok (), f state)

/-- From the state the procedure ends with a result and a state that meet the first condition, or
fails in a state that meets the second. -/
def Leads (x : Procedure σ ε α) (state : σ) (done : α → σ → Prop) (failed : ε → σ → Prop) : Prop :=
  match x state with
  | (.ok a, state') => done a state'
  | (.error error, state') => failed error state'

variable {x : Procedure σ ε α} {state : σ} {done done' : α → σ → Prop} {failed failed' : ε → σ → Prop}

theorem leads_iff : x.Leads state done failed ↔
    (∀ a state', x state = (.ok a, state') → done a state') ∧
      ∀ error state', x state = (.error error, state') → failed error state' := by
  unfold Leads
  rcases x state with ⟨_ | _, _⟩
  · simp
  · simp

variable {a : α} {state' : σ}

theorem Leads.ok (h : x.Leads state done failed) (hx : x state = (.ok a, state')) :
    done a state' := (leads_iff.mp h).1 a state' hx

theorem Leads.error {error : ε} (h : x.Leads state done failed)
    (hx : x state = (.error error, state')) : failed error state' := (leads_iff.mp h).2 error state' hx

theorem Leads.mono (h : x.Leads state done failed) (hdone : ∀ a state', done a state' → done' a state')
    (hfailed : ∀ error state', failed error state' → failed' error state') :
    x.Leads state done' failed' :=
  leads_iff.mpr ⟨fun _ _ hx => hdone _ _ (h.ok hx), fun _ _ hx => hfailed _ _ (h.error hx)⟩

theorem leads_pure : (pure a : Procedure σ ε α).Leads state done failed ↔ done a state := Iff.rfl

theorem leads_change {f : σ → σ} {done : Unit → σ → Prop} :
    (change f : Procedure σ ε Unit).Leads state done failed ↔ done () (f state) := Iff.rfl

variable {f : σ → Except ε α}

theorem leads_ask : (ask f).Leads state done failed ↔
    (∀ a, f state = .ok a → done a state) ∧ ∀ error, f state = .error error → failed error state := by
  unfold Leads ask
  cases f state with
  | ok | error => simp

theorem leads_bind {f : α → Procedure σ ε β} {done : β → σ → Prop} :
    (x >>= f).Leads state done failed ↔ x.Leads state (fun a state => (f a).Leads state done failed) failed := by
  unfold Leads
  simp only [bind]
  rcases x state with ⟨_ | _, _⟩
  · simp
  · simp

theorem leads_ask_bind {g : α → Procedure σ ε β} {done : β → σ → Prop}
    (hdone : ∀ a, f state = .ok a → (g a).Leads state done failed)
    (hfailed : ∀ error, f state = .error error → failed error state) : (ask f >>= g).Leads state done failed :=
  leads_bind.mpr (leads_ask.mpr ⟨hdone, hfailed⟩)

variable {g : Unit → Procedure σ ε β}

theorem leads_change_bind {f : σ → σ} {done : β → σ → Prop}
    (h : (g ()).Leads (f state) done failed) : (change f >>= g).Leads state done failed :=
  leads_bind.mpr (leads_change.mpr h)

variable {c : Prop}

theorem leads_ite [Decidable c] {y : Procedure σ ε α} : (if c then x else y).Leads state done failed ↔
      (c → x.Leads state done failed) ∧ (¬ c → y.Leads state done failed) := by
  by_cases h : c
  · simp [h]
  · simp [h]

theorem leads_forM {l : List α} {f : α → Procedure σ ε Unit} {holds : σ → Prop} (h : holds state)
    (hstep : ∀ a ∈ l, ∀ state, holds state → (f a).Leads state (fun _ state => holds state) failed) :
    (l.forM f).Leads state (fun _ state => holds state) failed := by
  induction l generalizing state with
  | nil => exact h
  | cons a l ih =>
    show (f a >>= fun _ => l.forM f).Leads state _ failed
    rw [leads_bind]
    refine (hstep a List.mem_cons_self state h).mono (fun _ state hstate => ?_) fun _ _ hfailed => hfailed
    exact ih hstate fun b hb => hstep b (List.mem_cons_of_mem a hb)

def refuse {m : Type → Type} [Monad m] [MonadExcept ε m] (condition : Prop) [Decidable condition] (error : ε) :
    m Unit := if condition then throw error else pure ()

def okOr (value : Option α) (error : ε) : Except ε α :=
  match value with
  | some a => .ok a
  | none => .error error

theorem leads_refuse [Decidable c] {error : ε} {done : Unit → σ → Prop} :
    (refuse c error : Procedure σ ε Unit).Leads state done failed ↔
      (c → failed error state) ∧ (¬ c → done () state) := leads_ite

theorem leads_refuse_bind [Decidable c] {error : ε} {done : β → σ → Prop}
    (hdone : ¬ c → (g ()).Leads state done failed) (hfailed : c → failed error state) :
    (refuse c error >>= g : Procedure σ ε β).Leads state done failed :=
  leads_bind.mpr (leads_refuse.mpr ⟨hfailed, hdone⟩)

section

variable {y : Except ε α} {error : ε}

theorem bind_eq_ok {f : α → Except ε β} {b : β} : y >>= f = .ok b ↔ ∃ a, y = .ok a ∧ f a = .ok b := by
  cases y with
  | ok a | error => simp [bind, Except.bind]

theorem foldlM_cons_eq_ok {f : β → α → Except ε β} {items : List α} {b b' : β} :
    (a :: items).foldlM f b = .ok b' ↔ ∃ middle, f b a = .ok middle ∧ items.foldlM f middle = .ok b' := by
  rw [List.foldlM_cons, bind_eq_ok]

theorem refuse_eq_ok [Decidable c] {u : Unit} : (refuse c error : Except ε Unit) = .ok u ↔ ¬ c := by
  unfold refuse
  by_cases h : c
  · simp [h, throw, throwThe, MonadExceptOf.throw]
  · simp [h, pure, Except.pure]

theorem okOr_eq_ok {value : Option α} : okOr value error = .ok a ↔ value = some a := by
  cases value with
  | none | some => simp [okOr]

theorem pure_eq_ok {b : α} : (pure a : Except ε α) = .ok b ↔ a = b := Except.ok.injEq a b ▸ Iff.rfl

theorem throw_eq_ok {b : α} : (throw error : Except ε α) = .ok b ↔ False := by
  simp [throw, throwThe, MonadExceptOf.throw]

end

end Procedure
