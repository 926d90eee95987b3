import FesTerm.Document.Vi.Keystrokes
import FesTerm.Document.Vi.Proofs.BufferProofs

/-!
# Keystroke proofs

Recording the keys of a change does not disturb the command: `SameCommand` says that two engines are
in the same place of it. A key whose step is known is known to its caller by `press_step`.
-/

namespace FesTerm.Document.Vi

open Checked Splicing Option

/-- Engines that differ only in what they recorded. -/
structure SameCommand (engine engine' : ViEngine) : Prop where
  mode : engine'.mode = engine.mode
  stage : engine'.stage = engine.stage
  count : engine'.count = engine.count
  operatorCount : engine'.operatorCount = engine.operatorCount
  register : engine'.register = engine.register
  visualAnchor : engine'.visualAnchor = engine.visualAnchor
  replaying : engine'.replaying = engine.replaying

theorem SameCommand.trans {a b c : ViEngine} (h : SameCommand a b) (h' : SameCommand b c) : SameCommand a c :=
  ⟨h'.mode.trans h.mode, h'.stage.trans h.stage, h'.count.trans h.count,
    h'.operatorCount.trans h.operatorCount, h'.register.trans h.register,
    h'.visualAnchor.trans h.visualAnchor, h'.replaying.trans h.replaying⟩

variable {op : Operator} {new : Nat} {text : Text}

namespace ViEngine

theorem sameCommand_refl (engine : ViEngine) : SameCommand engine engine :=
  ⟨rfl, rfl, rfl, rfl, rfl, rfl, rfl⟩

theorem recordKey_same (engine : ViEngine) (key : ViKey) : SameCommand engine (engine.recordKey key) := by
  unfold recordKey
  split
  · split <;> exact ⟨rfl, rfl, rfl, rfl, rfl, rfl, rfl⟩
  · exact engine.sameCommand_refl

theorem updateRecording_same (engine : ViEngine) (action : ViAction) :
    SameCommand engine (engine.updateRecording action).1 := by
  unfold updateRecording clearRecording
  simp only
  split_ifs <;> exact ⟨rfl, rfl, rfl, rfl, rfl, rfl, rfl⟩

variable [Unicode] [Build]

variable {engine : ViEngine} {c : Char}

theorem recordedKey_step {next : ViEngine} {key : ViKey} {caret : Nat} {action : ViAction}
    (hborrowed : (engine.recordKey key).borrowedNormalMotion key text
      (floorTextBoundary text caret) = some none)
    (hstep : (engine.recordKey key).step (.new text) key (floorTextBoundary text caret) =
      some (next, action, new)) :
    ∃ engine' response, engine.recordedKey key text caret = some (engine', response) ∧
      response.action = action ∧ response.caret = new ∧ SameCommand next engine' := by
  simp only [recordedKey, hborrowed, hstep, some_bind]
  split
  · exact ⟨_, _, rfl, rfl, rfl, next.sameCommand_refl⟩
  · exact ⟨_, _, rfl, rfl, rfl, next.updateRecording_same action⟩

theorem onKey_recorded (engine : ViEngine) (hdot : c ≠ '.') (hundo : c ≠ 'u') (text : Text) (caret : Nat) :
    engine.onKey (.char c) text caret = engine.recordedKey (.char c) text caret := by
  unfold onKey
  split
  · rw [if_neg (by simp [hdot]), if_neg (by simp [hundo]), if_neg (by simp)]
  · rfl

omit [Unicode] in
theorem consumeCountDigit_other (engine : ViEngine) (hc : c.isDigit = false) :
    engine.consumeCountDigit c = some none := by
  simp [consumeCountDigit, hc]

theorem borrowedNormalMotion_other (engine : ViEngine) {caret : Nat}
    (hc : c.isDigit = false) (htarget : ∀ count, borrowedTarget text caret c count = some none) :
    engine.borrowedNormalMotion (.char c) text caret = some none := by
  unfold borrowedNormalMotion
  by_cases hready : engine.mode ≠ .normal ∨ engine.stage ≠ .ready
  · simp only
    rw [if_pos hready]
    rfl
  · simp only
    rw [if_neg hready, consumeCountDigit_other engine hc]
    have hmotion : borrowedMotion text caret c engine.count = some none := by
      unfold borrowedMotion
      rw [htarget]
      split <;> rfl
    simp only [hmotion, some_bind]
    rfl

theorem borrowedNormalMotion_pending (engine : ViEngine) (c : Char) (text : Text) (caret : Nat)
    (hstage : engine.stage ≠ .ready) :
    engine.borrowedNormalMotion (.char c) text caret = some none := by
  unfold borrowedNormalMotion
  simp only
  rw [if_pos (.inr hstage)]
  rfl

variable (buf : Buffer) (caret : Nat)

theorem step_of_normal (key : ViKey)
    (hmode : engine.mode = .normal) : engine.step buf key caret = engine.stepNormal buf key caret := by
  unfold step
  rw [hmode]

theorem step_command
    (hmode : engine.mode = .normal) (hstage : engine.stage = .ready) (hc : c.isDigit = false) :
    engine.step buf (.char c) caret =
      ({ engine with count := none } : ViEngine).normalCommand buf c engine.count caret := by
  have hready : engine.step buf (.char c) caret = engine.normalReady buf (.char c) caret := by
    rw [step_of_normal _ _ _ hmode]
    unfold stepNormal
    rw [hstage]
  rw [hready]
  unfold normalReady
  simp only [consumeCountDigit_other engine hc, some_bind]

theorem step_operatorKey
    (hmode : engine.mode = .normal) (hstage : engine.stage = .afterOperator op) (hc : c.isDigit = false) :
    engine.step buf (.char c) caret = engine.operatorKey buf op c caret := by
  have hpending : engine.step buf (.char c) caret = engine.afterOperator buf op (.char c) caret := by
    rw [step_of_normal _ _ _ hmode]
    unfold stepNormal
    rw [hstage]
  rw [hpending]
  unfold afterOperator
  simp only [consumeCountDigit_other engine hc, some_bind]

end ViEngine

namespace Editing

variable [Unicode] [Build]

/-- The text after an action. -/
def applied (text : Text) : ViAction → Option Text
  | .edit edits => applyEditsToString text edits
  | _ => some text

variable {editing : Editing} {c : Char} {next : ViEngine} {action : ViAction}

variable {after : Text}

theorem press_step {next' : ViEngine} (hdot : c ≠ '.') (hundo : c ≠ 'u')
    (hborrowed : (editing.engine.recordKey (.char c)).borrowedNormalMotion (.char c) editing.text
      (ViEngine.floorTextBoundary editing.text editing.caret) = some none)
    (hstep : (editing.engine.recordKey (.char c)).step (.new editing.text) (.char c)
      (ViEngine.floorTextBoundary editing.text editing.caret) = some (next', action, new))
    (hnext : SameCommand next next') (hafter : applied editing.text action = some after) :
    ∃ editing', editing.press (.char c) = some editing' ∧ editing'.text = after ∧
      editing'.caret = new ∧ SameCommand next editing'.engine := by
  obtain ⟨engine', response, hkey, haction, hcaret, hsame⟩ :=
    ViEngine.recordedKey_step hborrowed hstep
  simp only [press, ViEngine.onKey_recorded _ hdot hundo, hkey, haction, hcaret,
    bind_eq_bind, bind_some]
  cases action with
  | edit edits =>
    simp only [applied] at hafter
    simp only [hafter, bind_some]
    exact ⟨_, rfl, rfl, rfl, hnext.trans hsame⟩
  | _ =>
    cases hafter
    exact ⟨_, rfl, rfl, rfl, hnext.trans hsame⟩

theorem press_stop (hdot : c ≠ '.') (hundo : c ≠ 'u')
    (hborrowed : (editing.engine.recordKey (.char c)).borrowedNormalMotion (.char c) editing.text
      (ViEngine.floorTextBoundary editing.text editing.caret) = some none)
    (hstep : (editing.engine.recordKey (.char c)).step (.new editing.text) (.char c)
      (ViEngine.floorTextBoundary editing.text editing.caret) = none) : editing.press (.char c) = none := by
  have hrecorded : editing.engine.recordedKey (.char c) editing.text editing.caret = none := by
    simp only [ViEngine.recordedKey, hborrowed, hstep, bind_eq_bind, bind_some,
      bind_none]
  simp only [press, ViEngine.onKey_recorded _ hdot hundo, hrecorded, bind_eq_bind, bind_none]

section

omit [Unicode] [Build]

theorem applied_removal (front removed back : Text) :
    applied (front ++ (removed ++ back)) (ViEngine.removal (utf8Len front) removed) =
      some (front ++ back) := by
  have hedits : Edits 0 [TextEdit.owned (utf8Len front) removed []]
      (front ++ (removed ++ back)) (front ++ back) :=
    edits_single_iff.mpr ⟨front, back, rfl, rfl, rfl⟩
  exact rewriteOrderedEdits_eq .forward hedits

theorem applied_insertion (front inserted back : Text) :
    applied (front ++ back) (.edit [insertAt (utf8Len front) inserted]) =
      some (front ++ (inserted ++ back)) := by
  have hedits : Edits 0 [insertAt (utf8Len front) inserted] (front ++ back)
      (front ++ (inserted ++ back)) :=
    edits_single_iff.mpr ⟨front, back, rfl, rfl, rfl⟩
  exact rewriteOrderedEdits_eq .forward hedits

theorem exists_position (editing : Editing) : ∃ i ≤ editing.text.length,
    ViEngine.floorTextBoundary editing.text editing.caret = offset editing.text i :=
  floorCharBoundary_offset _ _

theorem floorTextBoundary_offset {i : Nat} (hi : i ≤ text.length) :
    ViEngine.floorTextBoundary text (offset text i) = offset text i := by
  have hle : offset text i ≤ utf8Len text := by
    rw [← offset_length]
    exact offset_mono hi
  have hboundary : isCharBoundary text (offset text i) = true :=
    isCharBoundary_iff.mpr ⟨text.take i, text.drop i, (split_at hi).1, rfl⟩
  rw [ViEngine.floorTextBoundary, Nat.min_eq_left hle]
  cases hoffset : offset text i with
  | zero => rfl
  | succ k =>
    rw [hoffset] at hboundary
    rw [floorCharBoundary, if_pos hboundary]

end

variable {boundary : Nat}

theorem press_command (hmode : editing.engine.mode = .normal) (hstage : editing.engine.stage = .ready)
    (hcaret : ViEngine.floorTextBoundary editing.text editing.caret = boundary)
    (hdot : c ≠ '.') (hundo : c ≠ 'u') (hc : c.isDigit = false)
    (htarget : ∀ count, borrowedTarget editing.text boundary c count = some none)
    (hcommand : ∀ engine, SameCommand editing.engine engine →
      ∃ next', ({ engine with count := none } : ViEngine).normalCommand (.new editing.text) c
          engine.count boundary = some (next', action, new) ∧ SameCommand next next')
    (hafter : applied editing.text action = some after) :
    ∃ editing', editing.press (.char c) = some editing' ∧ editing'.text = after ∧
      editing'.caret = new ∧ SameCommand next editing'.engine := by
  subst hcaret
  have hsame := editing.engine.recordKey_same (.char c)
  obtain ⟨next', hnext, hsame'⟩ := hcommand _ hsame
  refine press_step hdot hundo (ViEngine.borrowedNormalMotion_other _ hc htarget) ?_ hsame' hafter
  rw [ViEngine.step_command _ _ (hsame.mode.trans hmode) (hsame.stage.trans hstage) hc]
  exact hnext

theorem press_operatorKey
    (hmode : editing.engine.mode = .normal) (hstage : editing.engine.stage = .afterOperator op)
    (hcaret : ViEngine.floorTextBoundary editing.text editing.caret = boundary)
    (hdot : c ≠ '.') (hundo : c ≠ 'u') (hc : c.isDigit = false)
    (hkey : ∀ engine, SameCommand editing.engine engine →
      ∃ next', engine.operatorKey (.new editing.text) op c boundary = some (next', action, new) ∧
        SameCommand next next') (hafter : applied editing.text action = some after) :
    ∃ editing', editing.press (.char c) = some editing' ∧ editing'.text = after ∧
      editing'.caret = new ∧ SameCommand next editing'.engine := by
  subst hcaret
  have hsame := editing.engine.recordKey_same (.char c)
  have hpending := hsame.stage.trans hstage
  obtain ⟨next', hnext, hsame'⟩ := hkey _ hsame
  refine press_step hdot hundo (ViEngine.borrowedNormalMotion_pending _ c _ _ ?_) ?_ hsame' hafter
  · rw [hpending]
    exact Stage.noConfusion
  · rw [ViEngine.step_operatorKey _ _ (hsame.mode.trans hmode) hpending hc]
    exact hnext

theorem press_operatorKey_stop
    (hmode : editing.engine.mode = .normal) (hstage : editing.engine.stage = .afterOperator op)
    (hdot : c ≠ '.') (hundo : c ≠ 'u') (hc : c.isDigit = false)
    (hkey : ∀ engine, SameCommand editing.engine engine →
      engine.operatorKey (.new editing.text) op c
        (ViEngine.floorTextBoundary editing.text editing.caret) = none) : editing.press (.char c) = none := by
  have hsame := editing.engine.recordKey_same (.char c)
  have hpending := hsame.stage.trans hstage
  refine press_stop hdot hundo (ViEngine.borrowedNormalMotion_pending _ c _ _ ?_) ?_
  · rw [hpending]
    exact Stage.noConfusion
  · rw [ViEngine.step_operatorKey _ _ (hsame.mode.trans hmode) hpending hc]
    exact hkey _ hsame

theorem press_operator (op : Operator)
    (hmode : editing.engine.mode = .normal) (hstage : editing.engine.stage = .ready) :
    ∃ editing', editing.press (.char (ViEngine.doublingKey op)) = some editing' ∧
      editing'.text = editing.text ∧
      editing'.caret = ViEngine.floorTextBoundary editing.text editing.caret ∧
      SameCommand { editing.engine with
        count := none, operatorCount := editing.engine.count, stage := .afterOperator op }
        editing'.engine := by
  have hkeys : ViEngine.doublingKey op ≠ '.' ∧ ViEngine.doublingKey op ≠ 'u' ∧
      (ViEngine.doublingKey op).isDigit = false := by cases op <;> decide
  refine press_command hmode hstage rfl hkeys.1 hkeys.2.1 hkeys.2.2 ?_ ?_
    (show applied editing.text .none = some editing.text from rfl)
  · intro count
    cases op <;> rfl
  · intro engine hsame
    refine ⟨{ engine with
      count := none, operatorCount := engine.count, stage := .afterOperator op }, ?_, ?_⟩
    · cases op <;> rfl
    · exact ⟨hsame.mode, rfl, rfl, hsame.count, hsame.register, hsame.visualAnchor, hsame.replaying⟩

end Editing

end FesTerm.Document.Vi
