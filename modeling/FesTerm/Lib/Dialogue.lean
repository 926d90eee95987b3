import Mathlib

/-!
# Dialogues

A computation that does nothing but put questions to its surroundings and go on as they answer. The
surroundings are a relation: in some state they may give some answer to a question, and are in another
state then.
-/

/-- A program that asks its surroundings; the reply to a question decides how it goes on. -/
inductive Dialogue (ι : Type) (ρ : ι → Type) (α : Type) where
  | done (result : α)
  | ask (question : ι) (next : ρ question → Dialogue ι ρ α)

namespace Dialogue

variable {ι : Type} {ρ : ι → Type} {α β ε σ : Type}

def bind : Dialogue ι ρ α → (α → Dialogue ι ρ β) → Dialogue ι ρ β
  | .done result, f => f result
  | .ask question next, f => .ask question fun reply => (next reply).bind f

instance : Monad (Dialogue ι ρ) where
  pure := .done
  bind := bind

def question (question : ι) : Dialogue ι ρ (ρ question) := .ask question .done

def attempt (dialogue : ExceptT ε (Dialogue ι ρ) α) : ExceptT ε (Dialogue ι ρ) (Except ε α) :=
  ExceptT.lift dialogue.run

/-- The dialogue that is begun in the first state may end with the result in the second one. -/
inductive Ends (answers : σ → (question : ι) → ρ question → σ → Prop) :
    σ → Dialogue ι ρ α → α → σ → Prop
  | done {state : σ} {result : α} : Ends answers state (.done result) result state
  | ask {state middle state' : σ} {question : ι} {reply : ρ question}
    {next : ρ question → Dialogue ι ρ α} {result : α} (hreply : answers state question reply middle)
    (hrest : Ends answers middle (next reply) result state') :
    Ends answers state (.ask question next) result state'

/-- One question is answered. -/
inductive Step (answers : σ → (question : ι) → ρ question → σ → Prop) :
    σ × Dialogue ι ρ α → σ × Dialogue ι ρ α → Prop
  | ask {state state' : σ} {question : ι} {reply : ρ question} {next : ρ question → Dialogue ι ρ α}
    (hreply : answers state question reply state') : Step answers (state, .ask question next) (state', next reply)

variable {answers : σ → (question : ι) → ρ question → σ → Prop}

theorem step_wellFounded : WellFounded (flip (Step answers : σ × Dialogue ι ρ α → _ → Prop)) := by
  refine ⟨fun ⟨state, dialogue⟩ => ?_⟩
  induction dialogue generalizing state with
  | done result => exact ⟨_, nofun⟩
  | ask question next ih =>
    refine ⟨_, ?_⟩
    rintro _ ⟨hreply⟩
    exact ih _ _

theorem exists_ends (hanswers : ∀ state question, ∃ reply state', answers state question reply state')
    (state : σ) (dialogue : Dialogue ι ρ α) : ∃ result state', Ends answers state dialogue result state' := by
  induction dialogue generalizing state with
  | done result => exact ⟨result, state, .done⟩
  | ask question next ih =>
    obtain ⟨reply, middle, hreply⟩ := hanswers state question
    obtain ⟨result, state', hrest⟩ := ih reply middle
    exact ⟨result, state', .ask hreply hrest⟩

/-- The run in which the surroundings answer as a function says, as long as it has an answer. -/
def run (answer : σ → (question : ι) → Option (ρ question × σ)) : σ → Dialogue ι ρ α → Option (α × σ)
  | state, .done result => some (result, state)
  | state, .ask question next =>
    (answer state question).bind fun (reply, state') => (next reply).run answer state'

variable {dialogue : Dialogue ι ρ α}

variable {result : α}

theorem ends_of_run {answer : σ → (question : ι) → Option (ρ question × σ)}
    (hanswer : ∀ state question reply state', answer state question = some (reply, state') →
      answers state question reply state') {state state' : σ}
    (h : dialogue.run answer state = some (result, state')) : Ends answers state dialogue result state' := by
  induction dialogue generalizing state with
  | done result =>
    cases h
    exact .done
  | ask question next ih =>
    obtain ⟨⟨reply, middle⟩, hreply, hrest⟩ := Option.bind_eq_some_iff.mp h
    exact .ask (hanswer _ _ _ _ hreply) (ih reply hrest)

/-- Every run from the state ends as the postcondition says. -/
def Ensures (answers : σ → (question : ι) → ρ question → σ → Prop) (post : α → σ → Prop) :
    Dialogue ι ρ α → σ → Prop
  | .done result, state => post result state
  | .ask question next, state =>
    ∀ reply state', answers state question reply state' → (next reply).Ensures answers post state'

variable {post post' : α → σ → Prop} {state state' : σ}

theorem Ensures.ends (h : dialogue.Ensures answers post state)
    (hends : Ends answers state dialogue result state') : post result state' := by
  induction hends with
  | done => exact h
  | ask hreply _ ih => exact ih (h _ _ hreply)

theorem Ensures.mono (h : dialogue.Ensures answers post state)
    (hpost : ∀ result state, post result state → post' result state) :
    dialogue.Ensures answers post' state := by
  induction dialogue generalizing state with
  | done result => exact hpost _ _ h
  | ask question next ih => exact fun reply state' hreply => ih reply (h reply state' hreply)

theorem ensures_bind {f : α → Dialogue ι ρ β} {post : β → σ → Prop} :
    (dialogue.bind f).Ensures answers post state ↔
      dialogue.Ensures answers (fun result state => (f result).Ensures answers post state) state := by
  induction dialogue generalizing state with
  | done result => exact Iff.rfl
  | ask question next ih =>
    exact forall_congr' fun reply => forall_congr' fun state' => imp_congr_right fun _ => ih reply

section

variable {post : Except ε α → σ → Prop}

theorem ensures_liftExcept {result : Except ε α} :
    Ensures answers post (liftExcept result : ExceptT ε (Dialogue ι ρ) α).run state ↔ post result state := by
  cases result with
  | ok | error => exact Iff.rfl

theorem ensures_question {question : ι} {post : Except ε (ρ question) → σ → Prop} :
    Ensures answers post (ExceptT.lift (.question question) : ExceptT ε (Dialogue ι ρ) (ρ question)).run state ↔
      ∀ reply state', answers state question reply state' → post (.ok reply) state' := Iff.rfl

variable {dialogue : ExceptT ε (Dialogue ι ρ) α}

theorem ensures_attempt {post : Except ε (Except ε α) → σ → Prop} :
    Ensures answers post (attempt dialogue).run state ↔
      Ensures answers (fun result state => post (.ok result) state) dialogue.run state := by
  unfold attempt
  exact ensures_bind

variable {f : α → ExceptT ε (Dialogue ι ρ) β}

theorem ensures_seq {post : Except ε β → σ → Prop} :
    Ensures answers post (dialogue >>= f).run state ↔
      Ensures answers (fun result state =>
        match result with
        | .ok result => Ensures answers post (f result).run state
        | .error error => post (.error error) state) dialogue.run state := by
  refine ensures_bind.trans ?_
  constructor
  · refine fun h => h.mono fun result state hrest => ?_
    cases result with
    | ok | error => exact hrest
  · refine fun h => h.mono fun result state hrest => ?_
    cases result with
    | ok | error => exact hrest

theorem Ensures.seq
    {middle : Except ε α → σ → Prop} {post : Except ε β → σ → Prop}
    (h : Ensures answers middle dialogue.run state)
    (hok : ∀ result state, middle (.ok result) state → Ensures answers post (f result).run state)
    (herror : ∀ error state, middle (.error error) state → post (.error error) state) :
    Ensures answers post (dialogue >>= f).run state := by
  refine ensures_seq.mpr (h.mono fun result state hmiddle => ?_)
  cases result with
  | ok result => exact hok result state hmiddle
  | error error => exact herror error state hmiddle

end

end Dialogue
