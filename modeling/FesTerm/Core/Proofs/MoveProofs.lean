import FesTerm.Core.Replies
import FesTerm.Core.Grid
import FesTerm.Core.Proofs.ScreenProofs

/-!
# What an operation can do

Whatever the bytes are, a terminal only does seven kinds of things with them: it changes its own
registers, works on the grid of the active buffer, queues a reply, prepares the alternate buffer behind
the primary one, and enters or leaves it. `Move` lists them, and every operation is a sequence of moves.
An invariant of the moves is then an invariant of `ingest`.
-/

namespace FesTerm

open Checked List

/-- Screen operations lead from one screen to the other. -/
def Screen.Edited [Platform] : Screen → Screen → Prop :=
  Relation.ReflTransGen fun screen screen' =>
    ∃ operation removed, screen.perform operation = some (removed, screen')

namespace Terminal

/-- The screens, the colours and the replies are the same. -/
structure Penned (terminal terminal' : Terminal) : Prop where
  primary : terminal'.primary = terminal.primary
  alternate : terminal'.alternate = terminal.alternate
  activeScreen : terminal'.activeScreen = terminal.activeScreen
  replyQueue : terminal'.replyQueue = terminal.replyQueue
  colorScheme : terminal'.colorScheme = terminal.colorScheme

/-- One thing that an operation does. -/
inductive Move [Platform] : Terminal → Terminal → Prop
  | pen {terminal terminal' : Terminal} (h : Penned terminal terminal') : Move terminal terminal'
  | draw {terminal : Terminal} {buffer buffer' : BufferState} (hb : terminal.activeBuffer = some buffer)
    (hedit : buffer.screen.Edited buffer'.screen) : Move terminal (terminal.setActiveBuffer buffer')
  | reply {terminal : Terminal} {bytes : List UInt8} (h : Reply (Eq terminal.colorScheme) bytes) :
    Move terminal (terminal.queueReply bytes)
  | behind {terminal : Terminal} {buffer : BufferState} (hscreen : terminal.activeScreen = .primary)
    (hedit : (terminal.alternate.getD (.new terminal.dimensions)).screen.Edited buffer.screen) :
    Move terminal { terminal with alternate := some buffer }
  | enter {terminal : Terminal} {buffer : BufferState} (hscreen : terminal.activeScreen = .primary)
    (hb : terminal.alternate = some buffer) :
    Move terminal { terminal with
      activeScreen := .alternate
      alternate := some { buffer with screen := buffer.screen.markAllDirty } }
  | leave {terminal : Terminal} (hscreen : terminal.activeScreen = .alternate) :
    Move terminal { terminal with
      activeScreen := .primary
      primary := { terminal.primary with screen := terminal.primary.screen.markAllDirty } }

variable [Platform]

abbrev Moves : Terminal → Terminal → Prop := Relation.ReflTransGen Move

variable {terminal terminal' : Terminal}

omit [Platform] in
theorem Penned.refl (terminal : Terminal) : Penned terminal terminal := ⟨rfl, rfl, rfl, rfl, rfl⟩

theorem Moves.pen (h : Penned terminal terminal') : Moves terminal terminal' := .single (.pen h)

omit [Platform] in
theorem Penned.trans {terminal'' : Terminal} (h : Penned terminal terminal')
    (h' : Penned terminal' terminal'') : Penned terminal terminal'' where
  primary := h'.primary.trans h.primary
  alternate := h'.alternate.trans h.alternate
  activeScreen := h'.activeScreen.trans h.activeScreen
  replyQueue := h'.replyQueue.trans h.replyQueue
  colorScheme := h'.colorScheme.trans h.colorScheme

variable {x : Option Terminal}

theorem Ensures.then {f : Terminal → Option Terminal}
    (h : Ensures x (Moves terminal)) (hf : ∀ current, Ensures (f current) (Moves current)) :
    Ensures (x >>= f) (Moves terminal) :=
  .bind fun current hcurrent => (hf current).mono fun _ hlast => (h current hcurrent).trans hlast

theorem forRange_moves {low high : Nat} {body : Terminal → Nat → Option Terminal}
    (hbody : ∀ current i, Ensures (body current i) (Moves current)) :
    Ensures (forRange low high terminal body) (Moves terminal) :=
  forRange_ensures .refl fun current i _ _ h => (hbody current i).mono fun _ hnext => h.trans hnext

theorem edited_of_perform {screen screen' : Screen} (operation : ScreenOp) {removed : List ScreenRow}
    (h : screen.perform operation = some (removed, screen')) : screen.Edited screen' :=
  .single ⟨operation, removed, h⟩

theorem edited_of_map {screen screen' : Screen} {x : Option Screen} (operation : ScreenOp)
    (hperform : screen.perform operation = x.map ([], ·)) (h : x = some screen') :
    screen.Edited screen' :=
  edited_of_perform operation (by rw [hperform, h]; rfl)

theorem setActiveBuffer_moves {buffer buffer' : BufferState} (hb : terminal.activeBuffer = some buffer)
    (hedit : buffer.screen.Edited buffer'.screen) : Moves terminal (terminal.setActiveBuffer buffer') :=
  .single (.draw hb hedit)

theorem modifyActive_moves {change : BufferState → Option BufferState}
    (hchange : ∀ buffer, Ensures (change buffer) fun buffer' => buffer.screen.Edited buffer'.screen) :
    Ensures (terminal.modifyActive change) (Moves terminal) := by
  refine .bind fun buffer hb => .bind fun buffer' hbuffer' => .some ?_
  exact setActiveBuffer_moves hb (hchange buffer buffer' hbuffer')

theorem moveActive_moves {change : BufferState → BufferState}
    (hchange : ∀ buffer, (change buffer).screen = buffer.screen) :
    Ensures (terminal.modifyActive fun buffer => some (change buffer)) (Moves terminal) :=
  modifyActive_moves fun buffer => .some (by rw [hchange]; exact .refl)

theorem modifyScreen_moves {change : Screen → Option Screen}
    (hchange : ∀ screen, Ensures (change screen) screen.Edited) :
    Ensures (terminal.modifyScreen change) (Moves terminal) :=
  modifyActive_moves fun buffer => .bind fun screen hscreen => .some (hchange buffer.screen screen hscreen)

theorem queueReply_moves {bytes : List UInt8} (h : Reply (Eq terminal.colorScheme) bytes) :
    Moves terminal (terminal.queueReply bytes) := .single (.reply h)

omit [Platform] in
theorem dropHyperlink_penned (terminal : Terminal) : Penned terminal terminal.dropHyperlink :=
  ⟨rfl, rfl, rfl, rfl, rfl⟩

theorem clearGraphemeAnchor_moves : Ensures terminal.clearGraphemeAnchor (Moves terminal) :=
  moveActive_moves fun _ => rfl

theorem clearPendingWrap_moves : Ensures terminal.clearPendingWrap (Moves terminal) :=
  moveActive_moves fun _ => rfl

variable (screen : Screen) (column : Nat)

theorem setCursorColumn_moves :
    Ensures (terminal.setCursorColumn column) (Moves terminal) := moveActive_moves fun _ => rfl

theorem moveCursor_moves (move : BufferState → Cursor) :
    Ensures (terminal.moveCursor move) (Moves terminal) := moveActive_moves fun _ => rfl

theorem endLogicalLine_moves : Ensures terminal.endLogicalLine (Moves terminal) :=
  modifyActive_moves fun buffer => .bind fun _ hscreen =>
    .some (edited_of_map (.clearSoftWrapped buffer.cursor.row) rfl hscreen)

variable (count : Nat)

theorem scrollRegionUp_moves (span : ColumnSpan) :
    Ensures (terminal.scrollRegionUp count span) (Moves terminal) := by
  refine .bind fun buffer hb => .bind fun (removed, screen) hscroll => ?_
  have hdraw : Moves terminal (terminal.setActiveBuffer { buffer with screen := screen }) :=
    setActiveBuffer_moves hb (edited_of_perform (.scrollUp _ _ count terminal.eraseCell span) hscroll)
  refine .ite (fun _ => .bind fun scrollback _ => .some ?_) fun _ => .some hdraw
  exact hdraw.trans (Moves.pen ⟨rfl, rfl, rfl, rfl, rfl⟩)

theorem index_moves : Ensures terminal.index (Moves terminal) := by
  refine .bind fun span _ => .bind fun within _ => .bind fun buffer hb => ?_
  refine .ite (fun _ => .ite (fun _ => scrollRegionUp_moves 1 span) fun _ => .some .refl) fun _ => ?_
  exact .ite (fun _ => .some (setActiveBuffer_moves hb .refl)) fun _ => .some .refl

theorem scrollDown_edits (top bottom count : Nat) (cell : Cell) (span : ColumnSpan) :
    Ensures (screen.scrollDown top bottom count cell span) screen.Edited :=
  fun _ h => edited_of_map (.scrollDown top bottom count cell span) rfl h

theorem reverseIndex_moves : Ensures terminal.reverseIndex (Moves terminal) := by
  refine .bind fun span _ => .bind fun within _ => .bind fun buffer hb => .ite (fun _ => ?_) fun _ => ?_
  · exact .ite (fun _ => modifyScreen_moves fun screen => scrollDown_edits screen _ _ _ _ _)
      fun _ => .some .refl
  · exact .some (setActiveBuffer_moves hb .refl)

variable (parameters : CsiParameters)

theorem scrollUp_moves : Ensures (terminal.scrollUp parameters) (Moves terminal) :=
  .bind fun span _ => scrollRegionUp_moves _ span

theorem scrollDown_moves : Ensures (terminal.scrollDown parameters) (Moves terminal) :=
  .bind fun _ _ => .bind fun _ _ => modifyScreen_moves fun screen => scrollDown_edits screen _ _ _ _ _

theorem lineBreak_moves : Ensures terminal.lineBreak (Moves terminal) := by
  refine .bind fun ended hended => ?_
  have hfirst : Moves terminal ended :=
    (Moves.pen (dropHyperlink_penned terminal)).trans (endLogicalLine_moves ended hended)
  exact index_moves.mono fun _ h => hfirst.trans h

theorem carriageReturn_moves : Ensures terminal.carriageReturn (Moves terminal) :=
  .bind fun column _ => setCursorColumn_moves column

omit [Platform] in
theorem placeCursorAfterCluster_screen (buffer : BufferState) (anchor : Cursor) (width wrapLimit : Nat)
    (autoWrap : Bool) :
    (placeCursorAfterCluster buffer anchor width wrapLimit autoWrap).screen = buffer.screen := by
  unfold placeCursorAfterCluster
  split <;> rfl

theorem wrapCursor_moves (home : Nat) : Ensures (terminal.wrapCursor home) (Moves terminal) :=
  modifyActive_moves fun buffer => .bind fun _ hscreen =>
    .some (edited_of_map (.markSoftWrapped buffer.cursor.row) rfl hscreen)

variable (anchor : Cursor) (row : Nat)

theorem replaceCluster_edits (cell : Cell) : Ensures (screen.replaceCluster column row cell) screen.Edited :=
  fun _ h => edited_of_map (.replaceCluster column row cell) rfl h

theorem placeCluster_moves (position : Cursor) (cell : Cell) (anchor : Option Cursor)
    (width wrapLimit : Nat) (autoWrap : Bool) :
    Ensures (terminal.placeCluster position cell anchor width wrapLimit autoWrap) (Moves terminal) := by
  refine modifyActive_moves fun buffer => .bind fun screen hscreen => .some ?_
  rw [placeCursorAfterCluster_screen]
  exact replaceCluster_edits buffer.screen _ _ cell screen hscreen

theorem rewrapCluster_moves (cell : Cell) (newWidth wrapLimit wrapHome : Nat) :
    Ensures (terminal.rewrapCluster anchor cell newWidth wrapLimit wrapHome) (Moves terminal) := by
  refine Ensures.then (modifyActive_moves fun buffer => ?_) fun erased => ?_
  · refine .bind fun filled hfilled => .bind fun marked hmarked => .some ?_
    have hfill : buffer.screen.Edited filled := edited_of_map (.fillLinear _ _ terminal.eraseCell) rfl hfilled
    exact hfill.trans (edited_of_map (.markSoftWrapped anchor.row) rfl hmarked)
  · exact Ensures.then index_moves fun indexed => placeCluster_moves _ cell _ _ _ _

theorem rewriteCluster_edits (cell : Cell) (oldWidth newWidth : Nat) :
    Ensures (rewriteCluster screen anchor cell oldWidth newWidth) screen.Edited := by
  refine .ite (fun _ _ h => ?_) fun _ => replaceCluster_edits screen _ _ cell
  exact edited_of_map (.replaceCell anchor.column anchor.row cell) rfl h

theorem extendCluster_moves (cell : Cell) (character : Char) :
    Ensures (terminal.extendCluster anchor cell character) (Moves terminal) := by
  refine .ite (fun _ => .bind fun geometry _ => placeCluster_moves _ _ _ _ _ _) fun _ => ?_
  refine .ite (fun _ => .some .refl) fun _ => .bind fun (wrapLimit, wrapHome) _ => ?_
  refine .ite (fun _ => .ite (fun _ => ?_) fun _ => rewrapCluster_moves _ _ _ _ _) fun _ => ?_
  · exact modifyActive_moves fun buffer => .bind fun screen hscreen =>
      .some (replaceCluster_edits buffer.screen _ _ _ screen hscreen)
  · refine modifyActive_moves fun buffer => .bind fun screen hscreen => .some ?_
    rw [placeCursorAfterCluster_screen]
    exact rewriteCluster_edits buffer.screen _ _ _ _ screen hscreen

variable (character : Char)

theorem tryExtendGrapheme_moves :
    Ensures (terminal.tryExtendGrapheme character) fun result => Moves terminal result.1 := by
  refine .bind fun buffer _ => .bind fun target _ => ?_
  cases target with
  | none => exact .some .refl
  | some target =>
    obtain ⟨anchor, cell⟩ := target
    exact .bind fun extended hextended =>
      .some (extendCluster_moves anchor cell character extended hextended)

theorem makeRoom_moves (width wrapLimit : Nat) :
    Ensures (terminal.makeRoom width wrapLimit) (Moves terminal) := by
  refine .ite (fun _ => .bind fun right _ => ?_) fun _ => .some .refl
  exact modifyScreen_moves fun screen _ h =>
    edited_of_map (.insertCharacters _ _ width terminal.eraseCell ⟨0, right⟩) rfl h

omit [Platform] in
theorem spendHyperlinkCredit_penned (terminal : Terminal) :
    Penned terminal terminal.spendHyperlinkCredit := by
  unfold spendHyperlinkCredit
  split
  · exact ⟨rfl, rfl, rfl, rfl, rfl⟩
  · exact .refl terminal

theorem printCluster_moves (width wrapLimit : Nat) :
    Ensures (terminal.printCluster character width wrapLimit) (Moves terminal) := by
  refine Ensures.then (makeRoom_moves width wrapLimit) fun roomy => ?_
  exact (placeCluster_moves _ _ _ _ _ _).mono fun _ h =>
    (Moves.pen (spendHyperlinkCredit_penned roomy)).trans h

theorem takePendingWrap_moves : Ensures terminal.takePendingWrap (Moves terminal) := by
  refine .bind fun buffer _ => .ite (fun _ => .bind fun (_, home) _ => ?_) fun _ => .some .refl
  exact Ensures.then (wrapCursor_moves home) fun _ => index_moves

variable {fallback : Terminal → Option Terminal}

theorem printAt_moves (width : Nat) (hfallback : ∀ current, Ensures (fallback current) (Moves current)) :
    Ensures (terminal.printAt character width fallback) (Moves terminal) := by
  refine .bind fun (wrapLimit, wrapHome) _ => .ite (fun _ => ?_) fun _ => printCluster_moves _ _ _
  refine .ite (fun _ => ?_) fun _ => hfallback terminal
  exact Ensures.then (wrapCursor_moves wrapHome) fun _ =>
    Ensures.then index_moves fun _ => printCluster_moves _ _ _

theorem printWith_moves (hfallback : ∀ current, Ensures (fallback current) (Moves current)) :
    Ensures (printWith fallback terminal character) (Moves terminal) := by
  refine .bind fun (extended, taken) hextended => ?_
  have hfirst : Moves terminal extended := tryExtendGrapheme_moves character _ hextended
  refine .ite (fun _ => .some hfirst) fun _ => ?_
  refine .ite (fun _ => clearGraphemeAnchor_moves.mono fun _ h => hfirst.trans h) fun _ => ?_
  refine .bind fun wrapped hwrapped => ?_
  have hpen : Moves terminal { extended with lastGraphicCharacter := some character } :=
    hfirst.trans (Moves.pen ⟨rfl, rfl, rfl, rfl, rfl⟩)
  exact (printAt_moves character _ hfallback).mono fun _ h =>
    (hpen.trans (takePendingWrap_moves wrapped hwrapped)).trans h

theorem print_moves : Ensures (terminal.print character) (Moves terminal) :=
  printWith_moves character fun _ => printWith_moves replacementCharacter fun _ => .none

theorem repeatPrecedingCharacter_moves :
    Ensures (terminal.repeatPrecedingCharacter parameters) (Moves terminal) := by
  unfold repeatPrecedingCharacter
  cases terminal.lastGraphicCharacter with
  | none => exact .some .refl
  | some character => exact forRange_moves fun _ _ => print_moves character

theorem tab_moves : Ensures terminal.tab (Moves terminal) :=
  .bind fun _ _ => setCursorColumn_moves _

theorem moveVertical_moves (down : Bool) :
    Ensures (terminal.moveVertical parameters down) (Moves terminal) :=
  .bind fun _ _ => moveCursor_moves _

theorem moveCursorBack_moves : Ensures (terminal.moveCursorBack count) (Moves terminal) :=
  .bind fun _ _ => .bind fun _ _ => .bind fun _ _ => moveCursor_moves _

theorem moveHorizontal_moves (forward : Bool) :
    Ensures (terminal.moveHorizontal parameters forward) (Moves terminal) :=
  .ite (fun _ => moveCursorBack_moves _) fun _ => .bind fun _ _ => moveCursor_moves _

theorem cursorHorizontalAbsolute_moves (originRelative : Bool) :
    Ensures (terminal.cursorHorizontalAbsolute parameters originRelative) (Moves terminal) := by
  refine .bind fun requested _ => .ite (fun _ => ?_) fun _ => ?_
  · exact .bind fun _ _ => moveCursor_moves _
  · exact .bind fun _ _ => moveCursor_moves _

theorem cursorPosition_moves : Ensures (terminal.cursorPosition parameters) (Moves terminal) :=
  .bind fun _ _ => .bind fun _ _ => .bind fun _ _ => .bind fun _ _ => moveCursor_moves _

theorem verticalPositionAbsolute_moves :
    Ensures (terminal.verticalPositionAbsolute parameters) (Moves terminal) :=
  .bind fun _ _ => .bind fun _ _ => moveCursor_moves _

theorem homeCursor_moves : Ensures terminal.homeCursor (Moves terminal) :=
  .bind fun _ _ => moveCursor_moves _

theorem setScrollRegion_moves : Ensures (terminal.setScrollRegion parameters) (Moves terminal) := by
  refine .bind fun top _ => .bind fun bottom _ => .ite (fun _ => .some .refl) fun _ => ?_
  exact Ensures.then (moveActive_moves fun _ => rfl) fun _ => homeCursor_moves

theorem setHorizontalMargins_moves : Ensures (terminal.setHorizontalMargins parameters) (Moves terminal) := by
  refine .bind fun left _ => .bind fun right _ => .ite (fun _ => .some .refl) fun _ => ?_
  exact Ensures.then (moveActive_moves fun _ => rfl) fun _ => homeCursor_moves

theorem saveDec_moves : Ensures terminal.saveDec (Moves terminal) := moveActive_moves fun _ => rfl

theorem saveAnsi_moves : Ensures terminal.saveAnsi (Moves terminal) := moveActive_moves fun _ => rfl

theorem restoreDec_moves : Ensures terminal.restoreDec (Moves terminal) := by
  refine .bind fun buffer hb => ?_
  cases buffer.decSaved with
  | none =>
    exact .bind fun moved hmoved =>
      .some ((moveCursor_moves _ moved hmoved).trans (Moves.pen ⟨rfl, rfl, rfl, rfl, rfl⟩))
  | some saved =>
    refine .bind fun row _ => .some ?_
    refine .tail (setActiveBuffer_moves hb ?_) (.pen ⟨rfl, rfl, rfl, rfl, rfl⟩)
    exact .refl

theorem restoreAnsi_moves : Ensures terminal.restoreAnsi (Moves terminal) := by
  have hfirst : Moves terminal { terminal with modes := { terminal.modes with originMode := false } } :=
    Moves.pen ⟨rfl, rfl, rfl, rfl, rfl⟩
  refine .bind fun buffer hb => ?_
  cases buffer.ansiSaved with
  | none | some saved =>
    exact .bind fun moved hmoved => .some ((hfirst.trans (moveCursor_moves _ moved hmoved)).trans
      (Moves.pen ⟨rfl, rfl, rfl, rfl, rfl⟩))

theorem fillLinearWith_edits (start stop : Nat) (cell : Cell) (spare : Bool) :
    Ensures (screen.fillLinearWith start stop cell spare) screen.Edited := by
  intro screen' h
  cases spare with
  | false => exact edited_of_map (.fillLinear start stop cell) rfl h
  | true => exact edited_of_map (.fillLinearSparingProtected start stop cell) rfl h

variable (selective : Bool)

theorem eraseDisplay_moves : Ensures (terminal.eraseDisplay parameters selective) (Moves terminal) := by
  refine .ite (fun _ => .some ?_) fun _ => modifyScreen_moves fun screen => ?_
  · split
    · exact Moves.pen ⟨rfl, rfl, rfl, rfl, rfl⟩
    · exact .refl
  · refine .ite (fun _ => .some (edited_of_perform (.clearAll terminal.eraseCell) rfl)) fun _ => ?_
    cases terminal.eraseDisplayRun (rawParameter parameters 0 0) with
    | none => exact .some .refl
    | some run => exact fillLinearWith_edits screen run.1 run.2 _ _

theorem eraseLine_moves : Ensures (terminal.eraseLine parameters selective) (Moves terminal) := by
  unfold eraseLine
  cases terminal.eraseLineRun (rawParameter parameters 0 0) with
  | none => exact .some .refl
  | some run => exact modifyScreen_moves fun screen => fillLinearWith_edits screen _ _ _ _

theorem eraseCharacters_moves : Ensures (terminal.eraseCharacters parameters) (Moves terminal) :=
  modifyScreen_moves fun screen => fillLinearWith_edits screen _ _ _ _

theorem fillRectangle_edits (rectangle : Rectangle) (cell : Cell) (spare : Bool) :
    Ensures (screen.fillRectangle rectangle cell spare) screen.Edited :=
  fun _ h => edited_of_map (.fillRectangle rectangle cell spare) rfl h

theorem fillRectangle_moves : Ensures (terminal.fillRectangle parameters) (Moves terminal) := by
  unfold Terminal.fillRectangle
  cases parameters.value 0 with
  | none => exact .some .refl
  | some value =>
    refine .ite (fun _ => .bind fun rectangle _ => ?_) fun _ => .some .refl
    cases rectangle with
    | none => exact .some .refl
    | some rectangle => exact modifyScreen_moves fun screen => fillRectangle_edits screen _ _ _

theorem eraseRectangle_moves : Ensures (terminal.eraseRectangle parameters selective) (Moves terminal) := by
  refine .bind fun rectangle _ => ?_
  cases rectangle with
  | none => exact .some .refl
  | some rectangle => exact modifyScreen_moves fun screen => fillRectangle_edits screen _ _ _

theorem copyRectangle_moves : Ensures (terminal.copyRectangle parameters) (Moves terminal) := by
  refine .bind fun source _ => ?_
  cases source with
  | none => exact .some .refl
  | some source =>
    refine .bind fun _ _ => .bind fun _ _ => .bind fun _ _ => modifyScreen_moves fun screen => ?_
    exact fun _ h => edited_of_map (.copyRectangle source _ _) rfl h

theorem shiftRegion_moves {shift : Screen → Nat → Option Screen}
    (hshift : ∀ screen row, Ensures (shift screen row) screen.Edited) :
    Ensures (terminal.shiftRegion shift) (Moves terminal) := by
  refine .bind fun buffer _ => modifyScreen_moves fun screen => ?_
  exact forRange_ensures .refl fun current row _ _ h =>
    (hshift current row).mono fun _ hnext => h.trans hnext

theorem insertCharacters_edits (count : Nat) (cell : Cell)
    (span : ColumnSpan) : Ensures (screen.insertCharacters column row count cell span) screen.Edited :=
  fun _ h => edited_of_map (.insertCharacters column row count cell span) rfl h

theorem deleteCharacters_edits (count : Nat) (cell : Cell)
    (span : ColumnSpan) : Ensures (screen.deleteCharacters column row count cell span) screen.Edited :=
  fun _ h => edited_of_map (.deleteCharacters column row count cell span) rfl h

theorem insertColumns_moves : Ensures (terminal.insertColumns parameters) (Moves terminal) := by
  refine .bind fun within _ => .ite (fun _ => .bind fun span _ => ?_) fun _ => .some .refl
  exact shiftRegion_moves fun screen row => insertCharacters_edits screen _ row _ _ span

theorem deleteColumns_moves : Ensures (terminal.deleteColumns parameters) (Moves terminal) := by
  refine .bind fun within _ => .ite (fun _ => .bind fun span _ => ?_) fun _ => .some .refl
  exact shiftRegion_moves fun screen row => deleteCharacters_edits screen _ row _ _ span

theorem backIndex_moves : Ensures terminal.backIndex (Moves terminal) := by
  refine .bind fun margins _ => .ite (fun _ => ?_) fun _ => .ite (fun _ => ?_) fun _ => .some .refl
  · exact shiftRegion_moves fun screen row => insertCharacters_edits screen _ row _ _ margins
  · exact setCursorColumn_moves _

theorem forwardIndex_moves : Ensures terminal.forwardIndex (Moves terminal) := by
  refine .bind fun margins _ => .ite (fun _ => ?_) fun _ => .ite (fun _ => ?_) fun _ => .some .refl
  · exact shiftRegion_moves fun screen row => deleteCharacters_edits screen _ row _ _ margins
  · exact setCursorColumn_moves _

theorem insertCharacters_moves : Ensures (terminal.insertCharacters parameters) (Moves terminal) := by
  refine .bind fun within _ => .ite (fun _ => .bind fun span _ => ?_) fun _ => .some .refl
  exact modifyScreen_moves fun screen => insertCharacters_edits screen _ _ _ _ span

theorem deleteCharacters_moves : Ensures (terminal.deleteCharacters parameters) (Moves terminal) := by
  refine .bind fun within _ => .ite (fun _ => .bind fun span _ => ?_) fun _ => .some .refl
  exact modifyScreen_moves fun screen => deleteCharacters_edits screen _ _ _ _ span

theorem editLines_moves {edit : Screen → Nat → Nat → Cell → ColumnSpan → Option Screen}
    (hedit : ∀ screen row bottom cell span, Ensures (edit screen row bottom cell span) screen.Edited) :
    Ensures (terminal.editLines edit) (Moves terminal) := by
  refine .bind fun within _ => .ite (fun _ => .bind fun span _ => .bind fun buffer _ => ?_)
    fun _ => .some .refl
  exact .ite (fun _ => modifyScreen_moves fun screen => hedit screen _ _ _ span) fun _ => .some .refl

theorem insertLines_moves : Ensures (terminal.insertLines parameters) (Moves terminal) :=
  editLines_moves fun _ row bottom cell span _ h =>
    edited_of_map (.insertLines row bottom (parameterOr parameters 0 1) cell span) rfl h

theorem deleteLines_moves : Ensures (terminal.deleteLines parameters) (Moves terminal) :=
  editLines_moves fun _ row bottom cell span _ h =>
    edited_of_map (.deleteLines row bottom (parameterOr parameters 0 1) cell span) rfl h

theorem screenAlignmentPattern_moves : Ensures terminal.screenAlignmentPattern (Moves terminal) := by
  intro final hfinal
  have hfirst : Moves terminal { terminal with
      modes := { terminal.modes with leftRightMarginMode := false } } :=
    Moves.pen ⟨rfl, rfl, rfl, rfl, rfl⟩
  refine hfirst.trans (modifyActive_moves (fun buffer => ?_) final hfinal)
  exact .bind fun screen hscreen => .some (fillRectangle_edits buffer.screen _ _ _ screen hscreen)

theorem enterAlternate_moves (clear : Bool) : Ensures (terminal.enterAlternate clear) (Moves terminal) := by
  by_cases hscreen : terminal.activeScreen = .alternate
  · rw [enterAlternate, if_pos hscreen]
    exact .some .refl
  · rw [enterAlternate, if_neg hscreen]
    have hprimary : terminal.activeScreen = .primary := by
      cases h : terminal.activeScreen with
      | primary => rfl
      | alternate => exact absurd h hscreen
    have hpen : Moves terminal terminal.dropHyperlink := Moves.pen (dropHyperlink_penned terminal)
    refine .some ?_
    refine ((hpen.tail (.behind hprimary ?_)).tail (.enter hprimary rfl)).tail
      (.pen ⟨rfl, rfl, rfl, rfl, rfl⟩)
    cases clear with
    | false => exact .refl
    | true => exact edited_of_perform (.clearAll terminal.dropHyperlink.eraseCell) rfl

theorem showPrimary_moves :
    let left := if terminal.activeScreen = .alternate then
      advanceScreenGeneration { terminal with
        activeScreen := .primary
        primary := { terminal.primary with screen := terminal.primary.screen.markAllDirty } }
      else terminal
    Moves terminal left ∧ left.activeScreen = .primary := by
  by_cases hscreen : terminal.activeScreen = .alternate
  · rw [if_pos hscreen]
    have hleave : Moves terminal _ := .single (.leave hscreen)
    exact ⟨hleave.tail (.pen ⟨rfl, rfl, rfl, rfl, rfl⟩), rfl⟩
  · rw [if_neg hscreen]
    refine ⟨.refl, ?_⟩
    cases h : terminal.activeScreen with
    | primary => rfl
    | alternate => exact absurd h hscreen

theorem resetBehind_moves (hscreen : terminal.activeScreen = .primary) (reset : Bool) :
    Moves terminal (if reset then { terminal with alternate := terminal.alternate.map BufferState.reset }
      else terminal) := by
  cases reset with
  | false => exact .refl
  | true =>
    cases halternate : terminal.alternate with
    | none => exact Moves.pen ⟨rfl, halternate.symm, rfl, rfl, rfl⟩
    | some buffer =>
      refine .single (.behind hscreen ?_)
      rw [halternate]
      exact edited_of_perform (.clearAll blankCell) rfl

theorem leaveAlternate_moves (reset : Bool) : Moves terminal (terminal.leaveAlternate reset) := by
  have hpen : Moves terminal terminal.dropHyperlink := Moves.pen (dropHyperlink_penned terminal)
  obtain ⟨hshow, hprimary⟩ := @showPrimary_moves _ terminal.dropHyperlink
  have hreset := resetBehind_moves hprimary reset
  exact ((hpen.trans hshow).trans hreset).tail (.pen ⟨rfl, rfl, rfl, rfl, rfl⟩)

omit [Platform] in
theorem setMouseTracking_penned (terminal : Terminal) (requested : MouseTrackingMode) (enabled : Bool) :
    Penned terminal (terminal.setMouseTracking requested enabled) := by
  unfold setMouseTracking
  split
  · exact ⟨rfl, rfl, rfl, rfl, rfl⟩
  · split
    · exact ⟨rfl, rfl, rfl, rfl, rfl⟩
    · exact .refl terminal

omit [Platform] in
theorem setAnsiMode_penned (terminal : Terminal) (enabled : Bool) (mode : Nat) :
    Penned terminal (terminal.setAnsiMode enabled mode) := by
  unfold setAnsiMode
  split
  all_goals first | exact .refl terminal | exact ⟨rfl, rfl, rfl, rfl, rfl⟩

theorem setPrivateMode_moves (enabled : Bool) (mode : Nat) :
    Ensures (terminal.setPrivateMode enabled mode) (Moves terminal) := by
  have hpen : ∀ {modes : TerminalModes}, Moves terminal { terminal with modes := modes } :=
    Moves.pen ⟨rfl, rfl, rfl, rfl, rfl⟩
  have hmouse : ∀ requested, Ensures (some (terminal.setMouseTracking requested enabled)) (Moves terminal) :=
    fun requested => .some (Moves.pen (setMouseTracking_penned terminal requested enabled))
  unfold setPrivateMode
  split
  case h_2 => exact homeCursor_moves.mono fun _ h => hpen.trans h
  case h_3 =>
    refine .ite (fun _ => .some hpen) fun _ => ?_
    exact clearPendingWrap_moves.mono fun _ h => hpen.trans h
  case h_8 =>
    refine .ite (fun _ => .some hpen) fun _ => Ensures.mono (moveActive_moves fun _ => rfl) fun _ h => ?_
    exact hpen.trans h
  case h_9 => exact hmouse _
  case h_10 => exact hmouse _
  case h_11 => exact hmouse _
  case h_12 => exact hmouse _
  case h_16 =>
    exact .ite (fun _ => enterAlternate_moves false) fun _ => .some (leaveAlternate_moves false)
  case h_17 =>
    exact .ite (fun _ => enterAlternate_moves true) fun _ => .some (leaveAlternate_moves true)
  case h_18 => exact .ite (fun _ => saveDec_moves) fun _ => restoreDec_moves
  case h_19 =>
    refine .ite (fun _ => Ensures.then saveDec_moves fun _ => enterAlternate_moves true) fun _ => ?_
    exact restoreDec_moves.mono fun _ h => (leaveAlternate_moves true).trans h
  case h_20 => exact .some .refl
  all_goals exact .some hpen

variable («private» : Bool)

theorem setModes_moves (enabled : Bool) (parameters : CsiParameters) :
    Ensures (terminal.setModes «private» enabled parameters) (Moves terminal) := by
  refine forRange_moves fun current index => ?_
  cases parameters.value index with
  | none => exact .some .refl
  | some mode =>
    refine .ite (fun _ => setPrivateMode_moves enabled mode) fun _ => .some ?_
    exact Moves.pen (setAnsiMode_penned current enabled mode)

omit [Platform] in
theorem resetGraphicsRendition_penned (terminal : Terminal) :
    Penned terminal terminal.resetGraphicsRendition := ⟨rfl, rfl, rfl, rfl, rfl⟩

theorem softReset_moves : Ensures terminal.softReset (Moves terminal) := by
  refine Ensures.mono (moveActive_moves fun _ => rfl) fun final h => ?_
  refine Relation.ReflTransGen.trans (Moves.pen ?_) h
  exact ⟨rfl, rfl, rfl, rfl, rfl⟩

theorem requestRectangleChecksum_moves :
    Ensures (terminal.requestRectangleChecksum parameters) (Moves terminal) := by
  refine .bind fun _ _ => .bind fun _ _ => .bind fun _ _ => .bind fun _ _ => .bind fun _ _ => ?_
  refine .bind fun _ _ => .bind fun checksum _ => .some ?_
  exact queueReply_moves (.checksum _ checksum)

theorem windowOperation_moves : Ensures (terminal.windowOperation parameters) (Moves terminal) := by
  refine .bind fun buffer _ => ?_
  split
  · exact .some (queueReply_moves (.size (.inl rfl) _ _))
  · exact .some (queueReply_moves (.size (.inr rfl) _ _))
  · exact .some .refl

theorem deviceStatus_moves : Ensures (terminal.deviceStatus parameters) (Moves terminal) := by
  unfold deviceStatus
  split
  · exact .some (queueReply_moves (.fixed (by decide)))
  · exact .bind fun _ _ => .bind fun _ _ => .some (queueReply_moves (.cursorPosition _ _))
  · exact .some .refl

theorem requestMode_moves (parameters : CsiParameters) :
    Moves terminal (terminal.requestMode «private» parameters) := by
  unfold requestMode
  cases parameters.value 0 with
  | none => exact .refl
  | some mode =>
    cases «private» with
    | false => exact queueReply_moves (.ansiMode mode _)
    | true => exact queueReply_moves (.privateMode mode _)

theorem decDeviceStatus_moves : Moves terminal (terminal.decDeviceStatus parameters) := by
  have hfixed : ∀ text ∈ fixedReplies, Moves terminal (terminal.reply text) :=
    fun text h => queueReply_moves (.fixed h)
  unfold decDeviceStatus
  split
  · exact queueReply_moves (.extendedCursorPosition _ _)
  case h_8 =>
    refine queueReply_moves ?_
    have hzero : ∀ identifier : Nat, s!"\x1bP{identifier}!~{hexDigits true 0}\x1b\\" =
        s!"\x1bP{identifier}!~0000\x1b\\" := fun identifier => by
      simp only [String.append_assoc]
      rfl
    rw [← hzero]
    exact .checksum (rawParameter parameters 1 0) 0
  case h_11 => exact .refl
  all_goals exact hfixed _ (by decide)

theorem deviceAttributes_moves (secondary : Bool) : Moves terminal (terminal.deviceAttributes secondary) := by
  cases secondary with
  | false | true => exact queueReply_moves (.fixed (by decide))

section

omit [Platform]

variable {report : String}

theorem colorReport_parameter {color : Color} {background : Bool}
    (h : colorReport color background = some report) : Parameter report := by
  cases color with
  | default => cases h
  | indexed index =>
    simp only [colorReport] at h
    split_ifs at h <;> obtain rfl := Option.some.inj h
    all_goals first | exact .decimal _ | exact .indexed _ index
  | rgb red green blue =>
    cases h
    exact .rgb _ red green blue

theorem graphicsRenditionReport_eq (terminal : Terminal) :
    ∃ parameters, terminal.graphicsRenditionReport = String.intercalate ";" parameters ∧
      ∀ parameter ∈ parameters, Parameter parameter := by
  unfold graphicsRenditionReport
  refine ⟨_, rfl, fun parameter hparameter => ?_⟩
  rw [mem_append, mem_append, mem_append] at hparameter
  rcases hparameter with ((hzero | hcode) | hforeground) | hbackground
  · rw [mem_singleton.mp hzero]
    exact .decimal 0
  · obtain ⟨⟨rendition, code⟩, -, hcode⟩ := mem_filterMap.mp hcode
    simp only at hcode
    split_ifs at hcode
    cases hcode
    exact .decimal code
  · exact colorReport_parameter (Option.mem_toList.mp hforeground)
  · exact colorReport_parameter (Option.mem_toList.mp hbackground)

/-- Only the known selectors are answered, with numbers and extended colours. -/
theorem statusReport_eq {selector : List UInt8} (h : terminal.statusReport selector = some (some report)) :
    selector ∈ statusSelectors ∧ ∃ parameters, report = String.intercalate ";" parameters ∧
      ∀ parameter ∈ parameters, Parameter parameter := by
  have hpair : ∀ first second : Nat, ∃ parameters,
      s!"{first};{second}" = String.intercalate ";" parameters ∧
        ∀ parameter ∈ parameters, Parameter parameter := by
    intro first second
    refine ⟨[toString first, toString second], rfl, fun parameter hparameter => ?_⟩
    rcases mem_cons.mp hparameter with rfl | hparameter
    · exact .decimal first
    · rw [mem_singleton.mp hparameter]
      exact .decimal second
  have hone : ∀ value : Nat, ∃ parameters, toString value = String.intercalate ";" parameters ∧
      ∀ parameter ∈ parameters, Parameter parameter := by
    intro value
    refine ⟨[toString value], rfl, fun parameter hparameter => ?_⟩
    rw [mem_singleton.mp hparameter]
    exact .decimal value
  unfold statusReport at h
  split at h
  · next hselector =>
    cases h
    exact ⟨by rw [hselector]; decide, graphicsRenditionReport_eq terminal⟩
  split at h
  · next hselector =>
    obtain ⟨buffer, -, h⟩ := Option.bind_eq_some_iff.mp h
    cases h
    exact ⟨by rw [hselector]; decide, hpair _ _⟩
  split at h
  · next hselector =>
    obtain ⟨margins, -, h⟩ := Option.bind_eq_some_iff.mp h
    cases h
    exact ⟨by rw [hselector]; decide, hpair _ _⟩
  split at h
  · next hselector =>
    cases h
    refine ⟨by rw [hselector]; decide, ?_⟩
    split
    · exact hone 1
    · exact hone 0
  split at h
  · next hselector =>
    cases h
    exact ⟨by rw [hselector]; decide, hone _⟩
  · cases Option.some.inj h

end

theorem applyDcsAction_moves (action : Option DcsAction) :
    Ensures (terminal.applyDcsAction action) (Moves terminal) := by
  cases action with
  | none => exact .some .refl
  | some action =>
    obtain ⟨selector⟩ := action
    refine .bind fun report hreport => ?_
    cases report with
    | none => exact .some (queueReply_moves (.fixed (by decide)))
    | some report =>
      obtain ⟨hselector, parameters, rfl, hparameters⟩ := statusReport_eq hreport
      exact .some (queueReply_moves (.setting hparameters hselector))

theorem dynamicColor_moves (selector : Nat) {color : Rgb} {head : String}
    (hhead : head = s!"\x1b]{selector};") (hcolor : (selector, color) ∈
      [(10, terminal.colorScheme.foreground), (11, terminal.colorScheme.background),
        (12, terminal.colorScheme.cursor)]) (terminator : StringTerminator) :
    Moves terminal (terminal.queueReply (ascii (head ++ color.toXparsecolor) ++ terminator.bytes)) := by
  rw [hhead]
  exact queueReply_moves (.dynamicColor rfl hcolor terminator)

theorem reportColor_moves (query : ColorQuery) (terminator : StringTerminator) :
    Ensures (terminal.reportColor query terminator) (Moves terminal) := by
  cases query with
  | palette index =>
    refine .bind fun color hpalette => .some ?_
    exact queueReply_moves (.palette rfl index hpalette terminator)
  | foreground => exact .some (dynamicColor_moves 10 (by decide) (by simp) terminator)
  | background => exact .some (dynamicColor_moves 11 (by decide) (by simp) terminator)
  | cursor => exact .some (dynamicColor_moves 12 (by decide) (by simp) terminator)

theorem applyOscAction_moves (action : Option OscAction) :
    Ensures (terminal.applyOscAction action) (Moves terminal) := by
  cases action with
  | none => exact .some .refl
  | some action =>
    cases action with
    | setTitle title => exact .some (Moves.pen ⟨rfl, rfl, rfl, rfl, rfl⟩)
    | setHyperlink target => exact .some (Moves.pen ⟨rfl, rfl, rfl, rfl, rfl⟩)
    | reportColors queries terminator =>
      exact foldlM_ensures .refl fun current query _ h =>
        (reportColor_moves query terminator).mono fun _ hnext => h.trans hnext

theorem newLineReturn_moves : Ensures terminal.newLineReturn (Moves terminal) :=
  .ite (fun _ => carriageReturn_moves) fun _ => .some .refl

section

omit [Platform]

theorem setExtendedColor_penned (terminal : Terminal) (parameters : CsiParameters) (index : Nat)
    (foreground : Bool) : Penned terminal (terminal.setExtendedColor parameters index foreground).1 := by
  unfold setExtendedColor
  split
  · exact .refl terminal
  · simp only
    split
    · split
      · exact ⟨rfl, rfl, rfl, rfl, rfl⟩
      · exact ⟨rfl, rfl, rfl, rfl, rfl⟩
    · exact .refl terminal

theorem applyRendition_penned (terminal : Terminal) (code : Nat) :
    Penned terminal (terminal.applyRendition code) := by
  unfold applyRendition
  split
  all_goals first
    | exact ⟨rfl, rfl, rfl, rfl, rfl⟩
    | (repeat' split) <;> exact ⟨rfl, rfl, rfl, rfl, rfl⟩

theorem renditionLoop_penned (fuel : Nat) (terminal : Terminal)
    (index : Nat) : Penned terminal (renditionLoop parameters fuel terminal index) := by
  induction fuel generalizing terminal index with
  | zero => exact .refl terminal
  | succ fuel ih =>
    unfold renditionLoop
    split
    · exact .refl terminal
    · split
      · exact (setExtendedColor_penned terminal parameters index _).trans (ih _ _)
      · exact (applyRendition_penned terminal _).trans (ih _ _)

theorem setGraphicsRendition_penned (terminal : Terminal) (parameters : CsiParameters) :
    Penned terminal (terminal.setGraphicsRendition parameters) := by
  unfold setGraphicsRendition
  split
  · exact resetGraphicsRendition_penned terminal
  · exact renditionLoop_penned parameters _ terminal 0

theorem setCursorStyle_penned (terminal : Terminal) (parameters : CsiParameters) :
    Penned terminal (terminal.setCursorStyle parameters) := by
  unfold setCursorStyle
  dsimp only
  split
  · exact ⟨rfl, rfl, rfl, rfl, rfl⟩
  · exact .refl terminal

theorem clearTabStops_penned (terminal : Terminal) (parameters : CsiParameters) :
    Penned terminal (terminal.clearTabStops parameters) := by
  unfold clearTabStops
  split
  · exact ⟨rfl, rfl, rfl, rfl, rfl⟩
  · exact ⟨rfl, rfl, rfl, rfl, rfl⟩
  · exact .refl terminal

end

variable (operation : TerminalOp)

theorem perform_moves : Ensures (terminal.perform operation) (Moves terminal) := by
  have hcalm : ∀ {x : Option Terminal}, Ensures x (Moves terminal) →
      Ensures (x >>= clearPendingWrap) (Moves terminal) := fun h =>
    Ensures.then h fun _ => clearPendingWrap_moves
  cases operation with
  | print character => exact print_moves character
  | carriageReturn => exact hcalm carriageReturn_moves
  | lineFeed =>
    exact Ensures.then lineBreak_moves fun _ => Ensures.then newLineReturn_moves fun _ =>
      clearPendingWrap_moves
  | index => exact hcalm lineBreak_moves
  | backspace => exact moveCursorBack_moves 1
  | tab => exact hcalm tab_moves
  | cursorForwardTab parameters => exact hcalm (forRange_moves fun _ _ => tab_moves)
  | cursorBackwardTab parameters => exact hcalm (forRange_moves fun _ _ => setCursorColumn_moves _)
  | nextLine =>
    exact Ensures.then lineBreak_moves fun _ => Ensures.then carriageReturn_moves fun _ =>
      clearPendingWrap_moves
  | reverseIndex => exact hcalm reverseIndex_moves
  | saveDec => exact saveDec_moves
  | restoreDec => exact restoreDec_moves
  | setTabStop | setApplicationKeypad enabled | setProtection iso «protected» =>
    exact .some (Moves.pen ⟨rfl, rfl, rfl, rfl, rfl⟩)
  | setCursorStyle parameters => exact .some (Moves.pen (setCursorStyle_penned terminal parameters))
  | cursorUp parameters => exact moveVertical_moves parameters false
  | cursorDown parameters => exact moveVertical_moves parameters true
  | cursorForward parameters => exact moveHorizontal_moves parameters true
  | cursorBack parameters => exact moveHorizontal_moves parameters false
  | cursorNextLine parameters =>
    exact Ensures.then (moveVertical_moves parameters true) fun _ => carriageReturn_moves
  | cursorPreviousLine parameters =>
    exact Ensures.then (moveVertical_moves parameters false) fun _ => carriageReturn_moves
  | cursorHorizontalAbsolute parameters => exact cursorHorizontalAbsolute_moves parameters true
  | horizontalPositionAbsolute parameters => exact cursorHorizontalAbsolute_moves parameters false
  | cursorPosition parameters => exact cursorPosition_moves parameters
  | verticalPositionAbsolute parameters => exact verticalPositionAbsolute_moves parameters
  | eraseDisplay parameters => exact eraseDisplay_moves parameters false
  | eraseLine parameters => exact eraseLine_moves parameters false
  | eraseCharacters parameters => exact eraseCharacters_moves parameters
  | insertCharacters parameters => exact insertCharacters_moves parameters
  | deleteCharacters parameters => exact deleteCharacters_moves parameters
  | insertLines parameters => exact insertLines_moves parameters
  | deleteLines parameters => exact deleteLines_moves parameters
  | scrollUp parameters => exact scrollUp_moves parameters
  | scrollDown parameters => exact scrollDown_moves parameters
  | setScrollRegion parameters => exact setScrollRegion_moves parameters
  | saveAnsiOrSetHorizontalMargins parameters =>
    exact .ite (fun _ => setHorizontalMargins_moves parameters) fun _ =>
      .ite (fun _ => saveAnsi_moves) fun _ => .some .refl
  | restoreAnsi => exact restoreAnsi_moves
  | setGraphicsRendition parameters =>
    exact .some (Moves.pen (setGraphicsRendition_penned terminal parameters))
  | setModes «private» enabled parameters => exact setModes_moves «private» enabled parameters
  | deviceStatus parameters => exact deviceStatus_moves parameters
  | decDeviceStatus parameters => exact .some (decDeviceStatus_moves parameters)
  | repeatPrecedingCharacter parameters => exact repeatPrecedingCharacter_moves parameters
  | screenAlignmentPattern => exact screenAlignmentPattern_moves
  | deviceAttributes secondary => exact .some (deviceAttributes_moves secondary)
  | clearTabStops parameters => exact .some (Moves.pen (clearTabStops_penned terminal parameters))
  | selectiveEraseDisplay parameters => exact eraseDisplay_moves parameters true
  | selectiveEraseLine parameters => exact eraseLine_moves parameters true
  | requestMode «private» parameters => exact .some (requestMode_moves «private» parameters)
  | softReset => exact softReset_moves
  | copyRectangle parameters => exact copyRectangle_moves parameters
  | fillRectangle parameters => exact fillRectangle_moves parameters
  | eraseRectangle parameters selective => exact eraseRectangle_moves parameters selective
  | insertColumns parameters => exact insertColumns_moves parameters
  | deleteColumns parameters => exact deleteColumns_moves parameters
  | backIndex => exact hcalm backIndex_moves
  | forwardIndex => exact hcalm forwardIndex_moves
  | requestRectangleChecksum parameters => exact requestRectangleChecksum_moves parameters
  | windowOperation parameters => exact windowOperation_moves parameters
  | ignored => exact .some .refl

theorem apply_moves : Ensures (terminal.apply operation) (Moves terminal) := by
  refine Ensures.then ?_ fun _ => perform_moves operation
  exact .ite (fun _ => .some .refl) fun _ => clearGraphemeAnchor_moves

omit [Platform] in
theorem withParser_penned (terminal : Terminal) (parser : Parser) :
    Penned terminal { terminal with parser := parser } := ⟨rfl, rfl, rfl, rfl, rfl⟩

omit [Platform] in
theorem withUtf8_penned (terminal : Terminal) (utf8 : Utf8Decoder) :
    Penned terminal { terminal with utf8 := utf8 } := ⟨rfl, rfl, rfl, rfl, rfl⟩

theorem Moves.start (h : Penned terminal terminal') (hx : Ensures x (Moves terminal')) :
    Ensures x (Moves terminal) :=
  hx.mono fun _ hlast => (Moves.pen h).trans hlast

variable (byte : UInt8)

theorem ingestParsed_moves : Ensures (terminal.ingestParsed byte) (Moves terminal) := by
  refine .ite (fun _ => ?_) fun _ => ?_
  · refine .bind fun (utf8, started) _ => .ite (fun _ => .some ?_) fun _ => ?_
    · exact Moves.pen (withUtf8_penned terminal utf8)
    · exact Moves.start (withUtf8_penned terminal utf8) (print_moves replacementCharacter)
  · refine .bind fun (parser, operation) _ => ?_
    refine Ensures.then (Moves.start (withParser_penned terminal parser) (apply_moves operation))
      fun applied => ?_
    refine Ensures.then (Moves.start (withParser_penned applied _) (applyOscAction_moves _))
      fun answered => ?_
    exact Moves.start (withParser_penned answered _) (applyDcsAction_moves _)

theorem ingestByte_moves : Ensures (terminal.ingestByte byte) (Moves terminal) := by
  refine .ite (fun _ => .bind fun (utf8, result) _ => ?_) fun _ => ingestParsed_moves byte
  have hpen := withUtf8_penned terminal utf8
  cases result with
  | pending => exact .some (Moves.pen hpen)
  | character character => exact Moves.start hpen (print_moves character)
  | invalid =>
    exact Moves.start hpen (Ensures.then (print_moves replacementCharacter) fun _ =>
      ingestParsed_moves byte)

theorem ingest_moves (bytes : List UInt8) : Ensures (terminal.ingest bytes) (Moves terminal) :=
  foldlM_ensures .refl fun _ byte _ h => (ingestByte_moves byte).mono fun _ hnext => h.trans hnext

end Terminal

end FesTerm
