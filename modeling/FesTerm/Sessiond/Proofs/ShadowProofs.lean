import FesTerm.Core.Proofs.DamageProofs
import FesTerm.Sessiond.Shadow

/-!
# Proofs: the shadow terminal

The daemon never takes the dirty rows of its terminal, so every row stays marked, and it empties the
reply queue whenever it has mirrored output. Its terminal is therefore its own recovery clone: what a
client decodes from the snapshot is the terminal that the snapshot was made from.
-/

namespace FesTerm

open Checked Option List

variable (dimensions : Dimensions)

namespace Screen

def FullyDirty (screen : Screen) : Prop := ∀ mark ∈ screen.dirtyRows, mark = true

variable {screen screen' : Screen}

theorem FullyDirty.markAllDirty_eq (h : screen.FullyDirty) : screen.markAllDirty = screen := by
  have hmarks : screen.dirtyRows.map (fun _ => true) = screen.dirtyRows := by
    refine (map_congr_left fun mark hmark => ?_).trans (List.map_id _)
    exact (h mark hmark).symm
  rw [markAllDirty, hmarks]

theorem markAllDirty_fullyDirty (screen : Screen) : screen.markAllDirty.FullyDirty := by
  intro mark hmark
  obtain ⟨-, -, rfl⟩ := List.mem_map.mp hmark
  rfl

theorem FullyDirty.congr (h : screen.FullyDirty) (heq : screen'.dirtyRows = screen.dirtyRows) :
    screen'.FullyDirty := by
  rw [FullyDirty, heq]
  exact h

variable [Platform]

theorem new_fullyDirty : (Screen.new dimensions).FullyDirty :=
  fun _ hmark => (mem_replicate.mp hmark).2

theorem FullyDirty.edited (h : screen.FullyDirty) (hsized : screen.Sized) (hedit : screen.Edited screen') :
    screen'.FullyDirty := by
  obtain ⟨hsized', htracked⟩ := hedit.tracked hsized
  intro mark hmark
  obtain ⟨row, hrow⟩ := getElem?_of_mem hmark
  have hlt : row < screen.dirtyRows.length := by
    rw [← show screen'.dirtyRows.length = screen.dirtyRows.length from htracked.dirty_length]
    exact (List.getElem?_eq_some_iff.mp hrow).1
  have hbefore : screen.dirtyRows[row]? = some true := by
    rw [getElem?_eq_getElem hlt, h _ (getElem_mem hlt)]
  exact some.inj (hrow.symm.trans (htracked.kept row hbefore))

omit [Platform] in
theorem modifyLine_dirtyRows {row : Nat} {change : Line → Option Line} :
    Ensures (screen.modifyLine row change) fun result => result.dirtyRows = screen.dirtyRows :=
  .bind fun _ _ => .bind fun _ _ => .bind fun _ _ => .some rfl

theorem repairWideCells_dirtyRows :
    Ensures screen.repairWideCells fun result => result.dirtyRows = screen.dirtyRows := by
  refine forRange_ensures rfl fun current row _ _ h => ?_
  exact modifyLine_dirtyRows.mono fun _ hnext => hnext.trans h

theorem fromRows_fullyDirty (rows : List ScreenRow) : Ensures (Screen.fromRows dimensions rows) FullyDirty :=
  .bind fun _ _ => .bind fun _ _ => .some (markAllDirty_fullyDirty _)

theorem resized_fullyDirty : Ensures (screen.resized dimensions) FullyDirty := by
  refine .bind fun resized hresized => ?_
  have hdirty : resized.FullyDirty := by
    refine forRange_ensures (new_fullyDirty dimensions) (fun current row _ _ h => ?_) resized hresized
    exact .bind fun _ _ => .bind fun _ _ => .bind fun _ _ => .some h
  exact repairWideCells_dirtyRows.mono fun _ heq => hdirty.congr heq

end Screen

namespace BufferState

variable [Platform] {buffer : BufferState}

omit [Platform] in
theorem clampSavedStates_screen :
    Ensures (buffer.clampSavedStates dimensions) fun result => result.screen = buffer.screen := by
  unfold clampSavedStates
  cases buffer.decSaved with
  | none => exact .some rfl
  | some saved => exact .bind fun _ _ => .some rfl

theorem resized_fullyDirty : Ensures (buffer.resized dimensions) fun result => result.screen.FullyDirty := by
  refine .bind fun _ _ => .bind fun screen hscreen => ?_
  refine (clampSavedStates_screen dimensions).mono fun result heq => ?_
  rw [heq]
  exact Screen.resized_fullyDirty dimensions screen hscreen

theorem reflowed_fullyDirty (scrollback : Scrollback) (positions : List ContentPosition) :
    Ensures (buffer.reflowed dimensions scrollback positions) fun result => result.1.screen.FullyDirty := by
  refine .bind fun _ _ => .bind fun _ _ => .bind fun _ _ => .bind fun _ _ => .bind fun _ _ =>
    .bind fun _ _ => .bind fun _ _ => .bind fun _ _ => .bind fun _ _ => .bind fun ⟨_, _⟩ _ =>
    .bind fun _ _ => .bind fun screen hscreen => .bind fun resized hresized => .some ?_
  rw [clampSavedStates_screen dimensions resized hresized]
  exact Screen.fromRows_fullyDirty dimensions _ screen hscreen

end BufferState

namespace Terminal

variable [Platform] {terminal terminal' : Terminal}

/-- Every row of both screens is marked. -/
structure FullyDirty (terminal : Terminal) : Prop where
  primary : terminal.primary.screen.Sized ∧ terminal.primary.screen.FullyDirty
  alternate : ∀ buffer ∈ terminal.alternate, buffer.screen.Sized ∧ buffer.screen.FullyDirty

section

omit [Platform]

theorem FullyDirty.congr (h : terminal.FullyDirty) (hprimary : terminal'.primary = terminal.primary)
    (halternate : terminal'.alternate = terminal.alternate) : terminal'.FullyDirty where
  primary := by
    rw [hprimary]
    exact h.primary
  alternate := by
    rw [halternate]
    exact h.alternate

theorem FullyDirty.active (h : terminal.FullyDirty) {buffer : BufferState}
    (hb : terminal.activeBuffer = some buffer) : buffer.screen.Sized ∧ buffer.screen.FullyDirty := by
  unfold activeBuffer at hb
  split at hb
  · cases hb
    exact h.primary
  · exact h.alternate buffer hb

theorem markAllDirty_sized {screen : Screen} (h : screen.Sized) : screen.markAllDirty.Sized :=
  (Screen.markAllDirty_covers h fun _ => none).toSized

end

theorem FullyDirty.move (h : terminal.FullyDirty) (hmove : Move terminal terminal') :
    terminal'.FullyDirty := by
  cases hmove with
  | pen hpen => exact h.congr hpen.primary hpen.alternate
  | draw hb hedit =>
    obtain ⟨hsized, hdirty⟩ := h.active hb
    have hafter := And.intro (hedit.tracked hsized).1 (hdirty.edited hsized hedit)
    unfold setActiveBuffer
    split
    · exact ⟨hafter, h.alternate⟩
    · refine ⟨h.primary, fun buffer hbuffer => ?_⟩
      rw [← mem_some.mp hbuffer]
      exact hafter
  | reply hbytes => exact h.congr rfl rfl
  | behind hscreen hedit =>
    refine ⟨h.primary, fun buffer hbuffer => ?_⟩
    rw [← mem_some.mp hbuffer]
    have hbefore : (terminal.alternate.getD (.new terminal.dimensions)).screen.Sized ∧
        (terminal.alternate.getD (.new terminal.dimensions)).screen.FullyDirty := by
      cases halternate : terminal.alternate with
      | none =>
        have hgood : (Screen.new terminal.dimensions).Good .nothing := Screen.new_good _
        exact ⟨hgood.sized, Screen.new_fullyDirty _⟩
      | some alternate => exact h.alternate alternate halternate
    exact ⟨(hedit.tracked hbefore.1).1, hbefore.2.edited hbefore.1 hedit⟩
  | enter hscreen hb =>
    refine ⟨h.primary, fun buffer hbuffer => ?_⟩
    rw [← mem_some.mp hbuffer]
    exact ⟨markAllDirty_sized (h.alternate _ hb).1, Screen.markAllDirty_fullyDirty _⟩
  | leave hscreen =>
    exact ⟨⟨markAllDirty_sized h.primary.1, Screen.markAllDirty_fullyDirty _⟩, h.alternate⟩

theorem FullyDirty.moves (h : terminal.FullyDirty) (hmoves : Moves terminal terminal') :
    terminal'.FullyDirty := by
  induction hmoves with
  | refl => exact h
  | tail _ hmove ih => exact ih.move hmove

theorem Steady.fullyDirty (h : terminal.Steady .nothing) (hprimary : terminal.primary.screen.FullyDirty)
    (halternate : ∀ buffer ∈ terminal.alternate, buffer.screen.FullyDirty) : terminal.FullyDirty where
  primary := ⟨h.buffers.1.screen.sized, hprimary⟩
  alternate buffer hbuffer := ⟨(h.buffers.2 buffer hbuffer).screen.sized, halternate buffer hbuffer⟩

theorem resize_fullyDirty :
    Ensures (terminal.resize dimensions) fun result => result.primary.screen.FullyDirty ∧
      ∀ buffer ∈ result.alternate, buffer.screen.FullyDirty := by
  refine .bind fun ⟨resized, positions⟩ hresized => .some ?_
  obtain ⟨⟨primary, scrollback, moved⟩, hprimary, hrest⟩ := bind_eq_some_iff.mp hresized
  obtain ⟨alternate, halternate, heq⟩ := bind_eq_some_iff.mp hrest
  cases heq
  refine ⟨BufferState.reflowed_fullyDirty dimensions _ _ _ hprimary, fun buffer hbuffer => ?_⟩
  have hbuffer : alternate = some buffer := hbuffer
  unfold resizedAlternate at halternate
  split at halternate
  · cases halternate
    cases hbuffer
  · next before =>
    obtain ⟨after, hafter, hsome⟩ := map_eq_some_iff.mp halternate
    cases hsome.trans hbuffer
    exact BufferState.resized_fullyDirty dimensions buffer hafter

/-- What holds of the terminal of a daemon, and of the terminals that its clients follow it with. -/
structure Shadowing (terminal : Terminal) : Prop where
  steady : terminal.Steady .nothing
  dirty : terminal.FullyDirty
  quiet : terminal.replyQueue = [] ∧ terminal.replyQueueOverflowed = false

theorem withScrollbackLimit_shadowing (limitBytes : ByteLimit) :
    (withScrollbackLimit dimensions limitBytes).Shadowing where
  steady := withScrollbackLimit_steady dimensions limitBytes
  dirty := (withScrollbackLimit_steady dimensions limitBytes).fullyDirty (Screen.new_fullyDirty dimensions)
    fun _ hbuffer => nomatch hbuffer
  quiet := ⟨rfl, rfl⟩

theorem Shadowing.recoveryClone_eq (h : terminal.Shadowing) : terminal.recoveryClone = terminal := by
  have halternate : (terminal.alternate.map fun alternate =>
      { alternate with screen := alternate.screen.markAllDirty }) = terminal.alternate := by
    rcases hbuffer : terminal.alternate with _ | buffer
    · rfl
    · rw [map_some, (h.dirty.alternate buffer hbuffer).2.markAllDirty_eq]
  rw [recoveryClone, halternate, h.dirty.primary.2.markAllDirty_eq, ← h.quiet.1]
  conv_lhs => rw [← h.quiet.2]

theorem Steady.drained (h : terminal.Steady .nothing) (hdirty : terminal.FullyDirty) :
    terminal.drainReplies.2.takeReplyQueueOverflowed.2.Shadowing where
  steady := ⟨{ h.toGood with }, h.taken⟩
  dirty := hdirty.congr rfl rfl
  quiet := ⟨rfl, rfl⟩

theorem Shadowing.mirror (h : terminal.Shadowing) (bytes : List UInt8) :
    Yields (mirrorTerminalOutput terminal bytes) fun mirrored => mirrored.2.Shadowing := by
  obtain ⟨after, hingest, hsteady⟩ := h.steady.ingest bytes (holdsAlong_of_all byteKeeps_nothing)
  unfold mirrorTerminalOutput
  rw [hingest]
  exact .some (hsteady.drained (h.dirty.moves (ingest_moves bytes after hingest)))

theorem Shadowing.resize (h : terminal.Shadowing) (dimensions : Dimensions) :
    Yields (terminal.resize dimensions) Shadowing := by
  obtain ⟨after, hresize, hsteady⟩ := h.steady.resize dimensions
  obtain ⟨hprimary, halternate⟩ := resize_fullyDirty dimensions after hresize
  refine ⟨after, hresize, hsteady, hsteady.fullyDirty hprimary halternate, ?_⟩
  obtain ⟨⟨resized, positions⟩, hresized, heq⟩ := bind_eq_some_iff.mp hresize
  obtain ⟨⟨primary, scrollback, moved⟩, -, hrest⟩ := bind_eq_some_iff.mp hresized
  obtain ⟨alternate, -, heq'⟩ := bind_eq_some_iff.mp hrest
  cases heq'
  rw [← some.inj heq]
  exact h.quiet

theorem Shadowing.apply (h : terminal.Shadowing) (command : RecoverySyncCommand) :
    Yields (applyRecoverySyncCommand terminal command) Shadowing := by
  cases command with
  | setScrollbackLimit limitBytes =>
    obtain ⟨after, hset, hsteady⟩ := h.steady.setScrollbackLimit limitBytes
    obtain ⟨scrollback, -, heq⟩ := bind_eq_some_iff.mp hset
    have hafter : after = { terminal with scrollback } := (some.inj heq).symm
    refine ⟨after, hset, hsteady, ?_, ?_⟩
    · exact h.dirty.congr (by rw [hafter]) (by rw [hafter])
    · rw [hafter]
      exact h.quiet
  | setColorScheme scheme =>
    exact .some ⟨⟨{ h.steady.toGood with }, h.steady.taken⟩, h.dirty.congr rfl rfl, h.quiet⟩
  | mirrorBytes bytes =>
    obtain ⟨mirrored, hmirrored, hshadowing⟩ := h.mirror bytes
    exact ⟨mirrored.2, by rw [applyRecoverySyncCommand, hmirrored]; rfl, hshadowing⟩
  | resetToInitialState =>
    refine .some (h.steady.resetToInitialState.drained ?_)
    refine h.steady.resetToInitialState.fullyDirty ?_ fun _ hbuffer => nomatch hbuffer
    exact (Screen.markAllDirty_fullyDirty terminal.primary.screen).congr rfl

end Terminal

namespace Screen

theorem firstError_total {check : Nat → Option (Except String Unit)} {indices : List Nat}
    (h : ∀ index ∈ indices, ∃ result, check index = some result) :
    ∃ result, firstError check indices = some result := by
  induction indices with
  | nil => exact ⟨.ok (), rfl⟩
  | cons index rest ih =>
    obtain ⟨result, hresult⟩ := h index (.head _)
    rw [firstError, hresult]
    cases result with
    | error error => exact ⟨.error error, rfl⟩
    | ok => exact ih fun other hother => h other (.tail _ hother)

variable [Platform] {promise : Promise}

omit [Platform] in
theorem validateCell_total {columns row column : Nat} {line : Line} (hg : line.Good promise columns)
    (hcolumn : column < columns) : ∃ result, validateCell line columns row column = some result := by
  have hcells {index : Nat} (hindex : index < columns) : ∃ cell, line.cells[index]? = some cell :=
    ⟨_, getElem?_eq_getElem (by rw [hg.cells_length]; exact hindex)⟩
  obtain ⟨cell, hcell⟩ := hcells hcolumn
  unfold validateCell
  rw [hcell, bind_eq_bind, bind_some]
  split
  · exact ⟨_, rfl⟩
  · split
    · by_cases hzero : column = 0
      · exact ⟨_, if_pos hzero⟩
      · obtain ⟨previous, hprevious⟩ := hcells (show column - 1 < columns by omega)
        rw [if_neg hzero, hprevious, bind_some]
        split <;> exact ⟨_, rfl⟩
    · by_cases hend : column + 1 ≥ columns
      · exact ⟨_, if_pos hend⟩
      · obtain ⟨following, hfollowing⟩ := hcells (show column + 1 < columns by omega)
        rw [if_neg hend, hfollowing, bind_some]
        split <;> exact ⟨_, rfl⟩
    · exact ⟨_, rfl⟩

omit [Platform] in
theorem Good.validate_total {screen : Screen} (h : screen.Good promise) :
    ∃ result, screen.validateRecoveryState = some result := by
  unfold validateRecoveryState
  simp only [Option.pure_def]
  repeat' split
  any_goals exact ⟨_, rfl⟩
  refine firstError_total fun row _ => ?_
  obtain ⟨line, hline⟩ := h.line_some row
  unfold validateLine
  rw [hline, some_bind]
  split
  · exact ⟨_, rfl⟩
  · split
    · exact ⟨_, rfl⟩
    · refine firstError_total fun column hcolumn => ?_
      exact validateCell_total (h.line_good hline) (mem_range.mp hcolumn)

end Screen

namespace Terminal

variable [Platform] {terminal : Terminal}

omit [Platform] in
theorem buffer_validate_total {promise : Promise} {dimensions : Dimensions} {buffer : BufferState}
    (h : buffer.Good promise dimensions) : ∃ result, buffer.validateRecoveryState = some result := by
  obtain ⟨screen, hscreen⟩ := h.screen.validate_total
  unfold BufferState.validateRecoveryState
  rw [hscreen]
  exact ⟨_, rfl⟩

theorem Shadowing.validate_total (h : terminal.Shadowing) :
    ∃ result, terminal.recoveryClone.validateRecoverySnapshot = some result := by
  rw [h.recoveryClone_eq]
  obtain ⟨hprimary, halternate⟩ := h.steady.toGood.buffers
  obtain ⟨primary, hprimary⟩ := buffer_validate_total hprimary
  have halternate : ∃ alternate, terminal.validateAlternate = some alternate := by
    unfold validateAlternate
    split
    · exact ⟨_, rfl⟩
    · next buffer hbuffer => exact buffer_validate_total (halternate buffer hbuffer)
  obtain ⟨alternate, halternate⟩ := halternate
  unfold validateRecoverySnapshot
  rw [h.steady.utf8.validate, hprimary, halternate]
  exact ⟨_, rfl⟩

end Terminal

end FesTerm
