import FesTerm.Core.Proofs.ModeProofs

/-!
# Bytes, events and runs

One byte advances the parser or the decoder and applies at most one operation and one string action.
Every byte, and every other event of an embedder, leads from a good terminal to a good one; a run of
events is then good throughout. On the alternate screen no byte changes the primary screen or the
history unless it leaves that screen.
-/

namespace FesTerm

open Checked Option

/-! ## The parser -/

variable {title : List Char}

namespace Parser

variable [Platform] {parser parser' : Parser} {byte : UInt8} {op : TerminalOp}

section

omit [Platform]

theorem advanceEscape_osc (parser : Parser) (byte : UInt8) :
    (parser.advanceEscape byte).1.oscAction = parser.oscAction := by
  unfold advanceEscape
  simp only
  repeat' split
  all_goals rfl

theorem appendCsiDigit_osc (h : parser.appendCsiDigit byte = some (parser', op)) :
    parser'.oscAction = parser.oscAction := by
  unfold appendCsiDigit at h
  simp only [Option.pure_def, bind_eq_bind] at h
  split at h
  · cases h
    rfl
  · obtain ⟨digit, -, h⟩ := bind_eq_some_iff.mp h
    split at h
    · cases h
      rfl
    · cases h
      rfl

theorem appendCsiSeparator_osc (parser : Parser) (separator : ParameterSeparator) :
    (parser.appendCsiSeparator separator).1.oscAction = parser.oscAction := by
  unfold appendCsiSeparator
  split <;> rfl

theorem advanceCsiIntermediate_osc (h : parser.advanceCsiIntermediate byte = some (parser', op)) :
    parser'.oscAction = parser.oscAction := by
  unfold advanceCsiIntermediate at h
  split at h
  · unfold appendCsiIntermediate at h
    simp only [Option.pure_def, bind_eq_bind] at h
    split at h
    · cases h
      rfl
    · obtain ⟨intermediates, -, h⟩ := bind_eq_some_iff.mp h
      cases h
      rfl
  · split at h
    · obtain ⟨operation, -, h⟩ := bind_eq_some_iff.mp h
      cases h
      rfl
    · cases h
      rfl

theorem advanceCsiParam_osc (h : parser.advanceCsiParam byte = some (parser', op)) :
    parser'.oscAction = parser.oscAction := by
  unfold advanceCsiParam at h
  split at h
  · exact appendCsiDigit_osc h
  · split at h
    · have hp : (parser.appendCsiSeparator .semicolon).1 = parser' :=
        congrArg Prod.fst (some.inj h)
      exact hp ▸ appendCsiSeparator_osc parser _
    · split at h
      · have hp : (parser.appendCsiSeparator .colon).1 = parser' :=
          congrArg Prod.fst (some.inj h)
        exact hp ▸ appendCsiSeparator_osc parser _
      · exact advanceCsiIntermediate_osc h

theorem advanceCsiEntry_osc (h : parser.advanceCsiEntry byte = some (parser', op)) :
    parser'.oscAction = parser.oscAction := by
  unfold advanceCsiEntry at h
  split at h
  · cases h
    rfl
  · split at h
    · cases h
      rfl
    · exact advanceCsiParam_osc h

theorem designateCharset_osc (parser : Parser) (slot : CharsetSlot) (byte : UInt8) :
    (parser.designateCharset slot byte).oscAction = parser.oscAction := by
  cases slot <;> rfl

end

/-- An action that a byte leaves for the terminal. -/
def Completes (parser : Parser) (byte : UInt8) (parser' : Parser) : Prop :=
  parser'.oscAction = parser.oscAction ∨
    parser.completesOsc byte = true ∧
      ∃ terminator, parser'.oscAction = parseOsc parser.stringPayload terminator

theorem advanceString_osc (h : parser.advanceString byte = some (parser', op)) :
    Completes parser byte parser' := by
  have hfinish : ∀ {kind bytes terminator}, (parser.state = .string kind bytes ∧ byte = 0x07 ∨
      parser.state = .stringEscape kind bytes ∧ byte = 0x5c) →
      ({ parser with state := .ground }.finishString kind terminator).1 = parser' →
      Completes parser byte parser' := by
    rintro kind bytes terminator hstate rfl
    cases kind with
    | osc =>
      refine .inr ⟨?_, terminator, rfl⟩
      rcases hstate with ⟨hs, rfl⟩ | ⟨hs, rfl⟩
      · simp [completesOsc, hs]
      · simp [completesOsc, hs]
    | dcs | other => exact .inl rfl
  unfold advanceString at h
  split at h
  · next kind bytes hstate =>
    split at h
    · next hend => exact hfinish (.inl ⟨hstate, hend.2⟩) (congrArg Prod.fst (some.inj h))
    · split at h
      · cases h
        exact .inl rfl
      · cases h
        left
        unfold advanceStringPayload
        split
        · rfl
        · simp only
          split <;> rfl
  · next kind bytes hstate =>
    split at h
    · next hend => exact hfinish (.inr ⟨hstate, hend⟩) (congrArg Prod.fst (some.inj h))
    · split at h
      · cases h
        exact .inl rfl
      · have hp : (parser.abandonString.advanceEscape byte).1 = parser' :=
          congrArg Prod.fst (some.inj h)
        exact .inl (hp ▸ advanceEscape_osc _ _)
  · cases h

/-- A byte leaves an action only when it ends the string that holds it. -/
theorem advance_osc (h : parser.advance byte = some (parser', op)) : Completes parser byte parser' := by
  unfold advance at h
  split at h
  · cases h
    exact .inl rfl
  split at h
  · split at h
    · cases h
      exact .inl rfl
    · exact advanceString_osc h
  · split at h
    · cases h
      exact .inl rfl
    · exact advanceString_osc h
  · split at h
    · cases h
      exact .inl rfl
    split at h
    · cases h
      exact .inl rfl
    split at h
    · cases h
      exact .inl rfl
    split at h
    · cases h
      exact .inl rfl
    left
    split at h
    · cases h
      rfl
    · have hp : (parser.advanceEscape byte).1 = parser' := congrArg Prod.fst (some.inj h)
      exact hp ▸ advanceEscape_osc _ _
    · cases h
      rfl
    · cases h
      exact designateCharset_osc _ _ _
    · exact advanceCsiEntry_osc h
    · exact advanceCsiParam_osc h
    · exact advanceCsiIntermediate_osc h
    · split at h
      · cases h
        rfl
      · cases h
        rfl
    · cases h
    · cases h

omit [Platform] in
theorem sanitizeTitle_noControl (value : List Char) :
    ∀ character ∈ sanitizeTitle value, isControl character = false := by
  intro character hc
  have := (List.mem_filter.mp (List.mem_of_mem_take hc)).2
  simpa using this

/-- A title in an action has been cleaned, and does not depend on the terminator. -/
theorem parseOsc_title {payload : List UInt8} {terminator : StringTerminator}
    (h : parseOsc payload terminator = some (.setTitle title)) :
    (∀ character ∈ title, isControl character = false) ∧
      parseOsc payload .bell = some (.setTitle title) := by
  have hcolor : ∀ {queries terminator}, colorAction queries terminator ≠ some (.setTitle title) := by
    intro queries terminator hc
    unfold colorAction at hc
    split at hc <;> cases hc
  unfold parseOsc at h ⊢
  obtain ⟨⟨command, data⟩, hsplit, h⟩ := bind_eq_some_iff.mp h
  simp only [hsplit, some_bind] at h ⊢
  split at h
  · next hcommand =>
    obtain ⟨text, htext, heq⟩ := map_eq_some_iff.mp h
    obtain rfl : sanitizeTitle text = title := by simpa using heq
    refine ⟨sanitizeTitle_noControl text, ?_⟩
    rw [if_pos hcommand, htext]
    rfl
  · split at h
    · exact absurd h hcolor
    split at h
    · exact absurd h hcolor
    split at h
    · exact absurd h hcolor
    split at h
    · exact absurd h hcolor
    split at h
    · obtain ⟨link, -, heq⟩ := map_eq_some_iff.mp h
      cases heq
    · cases h

end Parser

namespace Terminal

variable [Platform] {promise : Promise} {base terminal terminal' terminal'' : Terminal}

/-! ## Operations -/

/-- What one operation does to a good terminal. -/
structure Applied (promise : Promise) (base terminal : Terminal) : Prop where
  good : terminal.Good promise
  parser : terminal.parser = base.parser
  utf8 : terminal.utf8 = base.utf8
  isolated : base.activeScreen = .alternate → terminal.activeScreen = .alternate →
    terminal.primary = base.primary ∧ terminal.scrollback = base.scrollback

theorem SettledAt.applied (hbase : base.Good promise) (h : SettledAt promise base terminal) :
    Applied promise base terminal where
  good := At.good hbase h
  parser := h.parser
  utf8 := h.utf8
  isolated halt _ := (h.isolated halt).2

theorem CalmAt.settled (h : CalmAt promise base terminal) : SettledAt promise base terminal :=
  h.mono fun _ hcalm => hcalm.settled

/-- Every operation but a change of modes stays on its screen. -/
theorem CalmAt.perform (h : CalmAt promise base terminal) (operation : TerminalOp)
    (hmodes : ∀ «private» enabled parameters, operation ≠ .setModes «private» enabled parameters)
    (hkeep : terminal.performKeeps promise operation = true) :
    Yields (terminal.perform operation) (SettledAt promise base) := by
  have calm : ∀ {x : Option Terminal}, Yields x (CalmAt promise base) →
      Yields x (SettledAt promise base) := fun hx => hx.mono fun _ ht => ht.settled
  have rested : ∀ {x : Option Terminal}, Yields x (LooseAt promise base) →
      Yields (x >>= clearPendingWrap) (SettledAt promise base) :=
    fun hx => calm (hx.bind fun _ ht => ht.clearPendingWrap)
  have returned : ∀ {x : Option Terminal}, Yields x (RestedAt promise base) →
      Yields (x >>= carriageReturn) (SettledAt promise base) := fun hx =>
    (hx.bind fun _ ht => ht.carriageReturn fun _ _ hv => ⟨hv.wrap, hv.anchor⟩).mono
      fun _ ht => (RestedAt.calm ht).settled
  cases operation with
  | print character => exact h.settled.print character hkeep
  | carriageReturn => exact rested h.loose.carriageReturn
  | lineFeed =>
    refine Yields.bind h.loose.lineBreak fun broken hbroken => rested ?_
    unfold newLineReturn
    split
    · exact LooseAt.carriageReturn hbroken
    · exact .some hbroken
  | index => exact rested h.loose.lineBreak
  | backspace => exact calm (h.moveCursorBack 1)
  | tab => exact rested h.loose.tab
  | cursorForwardTab parameters =>
    exact rested (forRange_yields h.loose fun _ _ _ _ ht => LooseAt.tab ht)
  | cursorBackwardTab parameters =>
    exact rested (forRange_yields h.loose fun _ _ _ _ ht => LooseAt.backwardTab ht)
  | nextLine =>
    exact Yields.bind h.loose.lineBreak fun _ hbroken => rested (LooseAt.carriageReturn hbroken)
  | reverseIndex => exact rested h.loose.reverseIndex
  | saveDec => exact calm h.saveDec
  | restoreDec => exact calm h.restoreDec
  | setTabStop => exact calm (.some (h.writeTabStop _ _))
  | setApplicationKeypad enabled | setProtection iso «protected» =>
    exact calm (.some (h.same ⟨rfl, rfl, rfl, rfl, id, rfl, rfl, rfl, rfl⟩))
  | setCursorStyle parameters => exact calm (.some (At.setCursorStyle h parameters))
  | cursorUp parameters => exact (h.moveVertical parameters false).mono fun _ ht => ht.calm.settled
  | cursorDown parameters => exact (h.moveVertical parameters true).mono fun _ ht => ht.calm.settled
  | cursorForward parameters => exact calm (h.moveHorizontal parameters true)
  | cursorBack parameters => exact calm (h.moveHorizontal parameters false)
  | cursorNextLine parameters => exact returned (h.moveVertical parameters true)
  | cursorPreviousLine parameters => exact returned (h.moveVertical parameters false)
  | cursorHorizontalAbsolute parameters => exact calm (h.cursorHorizontalAbsolute parameters true)
  | horizontalPositionAbsolute parameters => exact calm (h.cursorHorizontalAbsolute parameters false)
  | cursorPosition parameters => exact calm (h.cursorPosition parameters)
  | verticalPositionAbsolute parameters => exact calm (h.verticalPositionAbsolute parameters)
  | eraseDisplay parameters => exact calm (At.eraseDisplay h parameters false hkeep)
  | eraseLine parameters => exact calm (At.eraseLine h parameters false hkeep)
  | eraseCharacters parameters => exact calm (At.eraseCharacters h parameters hkeep)
  | insertCharacters parameters => exact calm (At.insertCharacters h parameters)
  | deleteCharacters parameters => exact calm (At.deleteCharacters h parameters)
  | insertLines parameters => exact calm (At.insertLines h parameters)
  | deleteLines parameters => exact calm (At.deleteLines h parameters)
  | scrollUp parameters => exact calm (At.scrollUp h parameters)
  | scrollDown parameters => exact calm (At.scrollDown h parameters)
  | setScrollRegion parameters => exact calm (h.setScrollRegion parameters)
  | saveAnsiOrSetHorizontalMargins parameters =>
    refine calm ?_
    simp only [Terminal.perform]
    split
    · exact h.setHorizontalMargins parameters
    · split
      · exact h.saveAnsi
      · exact .some h
  | restoreAnsi => exact calm h.restoreAnsi
  | setGraphicsRendition parameters => exact calm (.some (At.setGraphicsRendition h parameters))
  | setModes «private» enabled parameters => exact absurd rfl (hmodes _ _ _)
  | deviceStatus parameters => exact calm (At.deviceStatus h parameters)
  | decDeviceStatus parameters => exact calm (.some (At.decDeviceStatus h parameters))
  | repeatPrecedingCharacter parameters => exact h.settled.repeatPrecedingCharacter parameters hkeep
  | screenAlignmentPattern => exact calm h.screenAlignmentPattern
  | deviceAttributes secondary => exact calm (.some (At.deviceAttributes h secondary))
  | clearTabStops parameters => exact calm (.some (h.clearTabStops parameters))
  | selectiveEraseDisplay parameters => exact calm (At.eraseDisplay h parameters true hkeep)
  | selectiveEraseLine parameters => exact calm (At.eraseLine h parameters true hkeep)
  | requestMode «private» parameters => exact calm (.some (At.requestMode h «private» parameters))
  | softReset => exact calm h.softReset
  | copyRectangle parameters => exact calm (At.copyRectangle h parameters)
  | fillRectangle parameters => exact calm (At.fillRectangle h parameters)
  | eraseRectangle parameters selective => exact calm (At.eraseRectangle h parameters selective hkeep)
  | insertColumns parameters => exact calm (At.insertColumns h parameters)
  | deleteColumns parameters => exact calm (At.deleteColumns h parameters)
  | backIndex => exact rested h.loose.backIndex
  | forwardIndex => exact rested h.loose.forwardIndex
  | requestRectangleChecksum parameters => exact calm (At.requestRectangleChecksum h parameters)
  | windowOperation parameters => exact calm (At.windowOperation h parameters)
  | ignored => exact calm (.some h)

variable {operation : TerminalOp}

theorem Good.releaseAnchor (h : terminal.Good promise)
    (hends : keepsGraphemeAnchor operation = false) :
    Yields (terminal.releaseAnchor operation) (CalmAt promise terminal) := by
  unfold Terminal.releaseAnchor
  rw [hends, if_neg (by decide)]
  exact h.at.clearGraphemeAnchor fun view hv => ⟨hv.wrap, rfl⟩

theorem Good.apply (h : terminal.Good promise) (operation : TerminalOp)
    (hkeep : terminal.applyKeeps promise operation = true) :
    Yields (terminal.apply operation) (Applied promise terminal) := by
  unfold applyKeeps at hkeep
  unfold Terminal.apply
  cases hends : keepsGraphemeAnchor operation with
  | true =>
    have hrelease : terminal.releaseAnchor operation = some terminal := by
      rw [Terminal.releaseAnchor, hends, if_pos rfl]
    rw [hrelease, all_some] at hkeep
    rw [hrelease, some_bind]
    cases operation with
    | print character => exact (SettledAt.print h.at character hkeep).mono fun _ ht => ht.applied h
    | setGraphicsRendition parameters =>
      exact .some (SettledAt.applied h (At.setGraphicsRendition h.at parameters))
    | ignored => exact .some (SettledAt.applied h h.at)
    | _ => cases hends
  | false =>
    obtain ⟨released, hrelease, hcalm⟩ := h.releaseAnchor hends
    rw [hrelease, all_some] at hkeep
    rw [hrelease, some_bind]
    by_cases hmodes : ∃ «private» enabled parameters,
        operation = .setModes «private» enabled parameters
    · obtain ⟨«private», enabled, parameters, rfl⟩ := hmodes
      refine ((hcalm.quiet h).setModes «private» enabled parameters).mono fun switched hs => ?_
      have hcross := (hcalm.crosses enabled).trans hs.2
      refine ⟨hs.1.toGood, hcross.parser, hcross.utf8, fun halt hstill => ?_⟩
      obtain ⟨-, hprimary, hscrollback⟩ | ⟨-, hleft⟩ := hcross.stay halt
      · exact ⟨hprimary, hscrollback⟩
      · rw [hstill] at hleft
        cases hleft
    · have hstays : ∀ «private» enabled parameters, operation ≠ .setModes «private» enabled parameters :=
        fun «private» enabled parameters heq => hmodes ⟨«private», enabled, parameters, heq⟩
      exact (hcalm.perform operation hstays hkeep).mono fun _ ht => ht.applied h

/-! ## Strings -/

section

omit [Platform]

theorem reportColor_spec (terminal : Terminal) (query : ColorQuery) (terminator : StringTerminator) :
    ∃ bytes, terminal.reportColor query terminator = some (terminal.queueReply bytes) := by
  unfold reportColor
  cases query with
  | palette index =>
    obtain ⟨color, hcolor⟩ := isSome_iff_exists.mp (terminal.colorScheme.palette_isSome index)
    simp only [hcolor, some_bind]
    exact ⟨_, rfl⟩
  | foreground | background | cursor => exact ⟨_, rfl⟩

/-- The parts that strings and the decoder leave alone. -/
structure Untouched (terminal terminal' : Terminal) : Prop where
  activeScreen : terminal'.activeScreen = terminal.activeScreen
  primary : terminal'.primary = terminal.primary
  alternate : terminal'.alternate = terminal.alternate
  scrollback : terminal'.scrollback = terminal.scrollback
  tabStops : terminal'.tabStops = terminal.tabStops

theorem Untouched.refl (terminal : Terminal) : Untouched terminal terminal := ⟨rfl, rfl, rfl, rfl, rfl⟩

theorem Untouched.trans (h : Untouched terminal terminal') (h' : Untouched terminal' terminal'') :
    Untouched terminal terminal'' where
  activeScreen := h'.activeScreen.trans h.activeScreen
  primary := h'.primary.trans h.primary
  alternate := h'.alternate.trans h.alternate
  scrollback := h'.scrollback.trans h.scrollback
  tabStops := h'.tabStops.trans h.tabStops

theorem Untouched.withParser (terminal : Terminal) (parser : Parser) :
    Untouched terminal { terminal with parser := parser } := ⟨rfl, rfl, rfl, rfl, rfl⟩

theorem Untouched.withUtf8 (terminal : Terminal) (utf8 : Utf8Decoder) :
    Untouched terminal { terminal with utf8 := utf8 } := ⟨rfl, rfl, rfl, rfl, rfl⟩

theorem Untouched.dimensions (h : Untouched terminal terminal') :
    terminal'.dimensions = terminal.dimensions := by
  simp only [Terminal.dimensions, h.primary]

theorem Untouched.activeBuffer (h : Untouched terminal terminal') :
    terminal'.activeBuffer = terminal.activeBuffer := by
  simp only [Terminal.activeBuffer, h.activeScreen, h.primary, h.alternate]

theorem Untouched.inactive (h : Untouched terminal terminal') : terminal'.inactive = terminal.inactive := by
  simp only [Terminal.inactive, h.activeScreen, h.primary, h.alternate]

def TitleOk (promise : Promise) (title : List Char) : Prop :=
  (∀ character ∈ title, isControl character = false) ∧ (promise.titles = true → utf8Len title ≤ 256)

end

theorem Good.untouched (h : terminal.Good promise) (hu : Untouched terminal terminal')
    (hparser : terminal'.parser.Ok) (hutf8 : terminal'.utf8.Ok) (htitle : TitleOk promise terminal'.title)
    (hlink : terminal'.currentHyperlink = none → terminal'.currentHyperlinkCellsRemaining = 0) :
    terminal'.Good promise where
  parser := hparser
  utf8 := hutf8
  title := htitle.1
  title_le := htitle.2
  tabStops := by rw [hu.tabStops, hu.dimensions]; exact h.tabStops
  hyperlink := hlink
  history := by rw [hu.scrollback, hu.dimensions]; exact h.history
  active := by rw [hu.activeBuffer, hu.dimensions]; exact h.active
  inactive := by rw [hu.inactive, hu.dimensions]; exact h.inactive

theorem Good.withParser (h : terminal.Good promise) {parser : Parser} (hparser : parser.Ok) :
    Good promise { terminal with parser := parser } :=
  h.untouched (.withParser terminal parser) hparser h.utf8 ⟨h.title, h.title_le⟩ h.hyperlink

theorem Good.withUtf8 (h : terminal.Good promise) {utf8 : Utf8Decoder} (hutf8 : utf8.Ok) :
    Good promise { terminal with utf8 := utf8 } :=
  h.untouched (.withUtf8 terminal utf8) h.parser hutf8 ⟨h.title, h.title_le⟩ h.hyperlink

/-- Good, as the terminal was before a string took effect, with the same parser. -/
structure Answered (promise : Promise) (base terminal : Terminal) : Prop where
  good : terminal.Good promise
  untouched : Untouched base terminal
  parser : terminal.parser = base.parser

theorem Answered.queueReply (h : Answered promise base terminal) (bytes : List UInt8) :
    Answered promise base (terminal.queueReply bytes) where
  good := h.good.untouched ⟨rfl, rfl, rfl, rfl, rfl⟩ h.good.parser h.good.utf8
    ⟨h.good.title, h.good.title_le⟩ h.good.hyperlink
  untouched := h.untouched.trans ⟨rfl, rfl, rfl, rfl, rfl⟩
  parser := h.parser

theorem Good.answered (h : terminal.Good promise) : Answered promise terminal terminal :=
  ⟨h, .refl terminal, rfl⟩

theorem Good.applyOscAction (h : terminal.Good promise) {action : Option OscAction}
    (htitle : ∀ title, action = some (.setTitle title) → TitleOk promise title) :
    Yields (terminal.applyOscAction action) (Answered promise terminal) := by
  cases action with
  | none => exact .some h.answered
  | some action =>
    cases action with
    | setTitle title =>
      exact .some ⟨h.untouched ⟨rfl, rfl, rfl, rfl, rfl⟩ h.parser h.utf8 (htitle title rfl) h.hyperlink,
        ⟨rfl, rfl, rfl, rfl, rfl⟩, rfl⟩
    | setHyperlink target =>
      refine .some ⟨h.untouched ⟨rfl, rfl, rfl, rfl, rfl⟩ h.parser h.utf8 ⟨h.title, h.title_le⟩ ?_,
        ⟨rfl, rfl, rfl, rfl, rfl⟩, rfl⟩
      intro hnone
      simp only at hnone
      rw [hnone]
      rfl
    | reportColors queries terminator =>
      refine foldlM_yields h.answered fun current query _ hcurrent => ?_
      obtain ⟨bytes, hbytes⟩ := reportColor_spec current query terminator
      exact ⟨_, hbytes, hcurrent.queueReply bytes⟩

omit [Platform] in
theorem statusReport_total (hb : ∃ buffer, terminal.activeBuffer = some buffer) (selector : List UInt8) :
    ∃ report, terminal.statusReport selector = some report := by
  obtain ⟨buffer, hb⟩ := hb
  unfold statusReport
  simp only [hb, horizontalMargins_eq hb, some_bind]
  repeat' split
  all_goals exact ⟨_, rfl⟩

theorem Good.applyDcsAction (h : terminal.Good promise) (action : Option DcsAction) :
    Yields (terminal.applyDcsAction action) (Answered promise terminal) := by
  cases action with
  | none => exact .some h.answered
  | some action =>
    obtain ⟨selector⟩ := action
    obtain ⟨buffer, hb, -⟩ := h.active
    obtain ⟨report, hreport⟩ := statusReport_total ⟨buffer, hb⟩ selector
    unfold Terminal.applyDcsAction
    simp only [hreport, some_bind]
    cases report with
    | none => exact .some (h.answered.queueReply _)
    | some report => exact .some (h.answered.queueReply _)

/-! ## Bytes -/

/-- Good, with no string action that waits. -/
structure Steady (promise : Promise) (terminal : Terminal) : Prop extends Good promise terminal where
  taken : terminal.parser.oscAction = none

/-- What a byte does to a steady terminal. -/
structure Fed (promise : Promise) (base terminal : Terminal) : Prop where
  steady : terminal.Steady promise
  isolated : base.activeScreen = .alternate → terminal.activeScreen = .alternate →
    terminal.primary = base.primary ∧ terminal.scrollback = base.scrollback

theorem Fed.ofUntouched (h : Fed promise terminal terminal') (hu : Untouched base terminal) :
    Fed promise base terminal' where
  steady := h.steady
  isolated halt hstill := by
    obtain ⟨hprimary, hscrollback⟩ := h.isolated (hu.activeScreen.trans halt) hstill
    exact ⟨hprimary.trans hu.primary, hscrollback.trans hu.scrollback⟩

theorem Applied.fed (h : Applied promise base terminal) (htaken : base.parser.oscAction = none) :
    Fed promise base terminal where
  steady := ⟨h.good, by rw [h.parser]; exact htaken⟩
  isolated := h.isolated

theorem Steady.print (h : terminal.Steady promise) (character : Char)
    (hkeep : terminal.printKeeps promise character = true) :
    Yields (terminal.print character) fun terminal' =>
      Fed promise terminal terminal' ∧ terminal'.activeScreen = terminal.activeScreen :=
  (SettledAt.print h.toGood.at character hkeep).mono fun _ ht =>
    ⟨(ht.applied h.toGood).fed h.taken, ht.activeScreen⟩

theorem Good.applyStrings (h : terminal.Good promise)
    (htitle : ∀ title, terminal.parser.oscAction = some (.setTitle title) → TitleOk promise title) :
    Yields (do
      let (action, parser) := terminal.parser.takeOscAction
      let terminal ← { terminal with parser := parser }.applyOscAction action
      let (request, parser) := terminal.parser.takeDcsAction
      { terminal with parser := parser }.applyDcsAction request) fun terminal' =>
        terminal'.Steady promise ∧ Untouched terminal terminal' := by
  have hosc : ({ terminal.parser with oscAction := none } : Parser).Ok := { h.parser with }
  refine Yields.bind ((h.withParser hosc).applyOscAction htitle) fun answered ha => ?_
  have hdcs : ({ answered.parser with dcsAction := none } : Parser).Ok := { ha.good.parser with }
  refine ((ha.good.withParser hdcs).applyDcsAction _).mono fun final hf => ?_
  refine ⟨⟨hf.good, ?_⟩, ?_⟩
  · rw [hf.parser]
    show answered.parser.oscAction = none
    rw [ha.parser]
  · exact ((Untouched.withParser terminal _).trans ha.untouched).trans
      ((Untouched.withParser answered _).trans hf.untouched)

theorem completed_titleOk {parser parser' : Parser} {byte : UInt8}
    (hadvance : parser.advance byte = some (parser', operation)) (htaken : parser.oscAction = none)
    (hkeep : parser.titleKeeps promise byte = true)
    (h : parser'.oscAction = some (.setTitle title)) : TitleOk promise title := by
  obtain hsame | ⟨hends, terminator, hparsed⟩ := Parser.advance_osc hadvance
  · rw [hsame, htaken] at h
    cases h
  · rw [h] at hparsed
    obtain ⟨hclean, hbell⟩ := Parser.parseOsc_title hparsed.symm
    refine ⟨hclean, fun htitles => ?_⟩
    have hcompleted : parser.completedTitle byte = some title := by
      rw [Parser.completedTitle, if_pos hends, hbell]
    rw [Parser.titleKeeps, htitles, hcompleted] at hkeep
    simpa using hkeep

theorem Steady.ingestParsed (h : terminal.Steady promise) (byte : UInt8)
    (hkeep : terminal.parsedKeeps promise byte = true) :
    Yields (terminal.ingestParsed byte) (Fed promise terminal) := by
  unfold parsedKeeps at hkeep
  unfold Terminal.ingestParsed
  by_cases hground : terminal.parser.isGround ∧ byte ≥ 0x80
  · rw [if_pos hground] at hkeep ⊢
    obtain ⟨utf8, started, hstart, hutf8, -⟩ := h.utf8.start byte
    have hsteady : Steady promise { terminal with utf8 := utf8 } := ⟨h.toGood.withUtf8 hutf8, h.taken⟩
    rw [hstart] at hkeep
    rw [hstart, some_bind]
    cases started with
    | true => exact .some ⟨hsteady, fun _ _ => ⟨rfl, rfl⟩⟩
    | false =>
      exact (hsteady.print _ hkeep).mono fun _ ht => ht.1.ofUntouched (.withUtf8 terminal utf8)
  · rw [if_neg hground] at hkeep ⊢
    obtain ⟨parser, operation, hadvance, hparser⟩ := h.parser.advance byte
    rw [hadvance, Bool.and_eq_true, all_some] at hkeep
    simp only [hadvance, some_bind]
    refine Yields.bind ((h.toGood.withParser hparser).apply operation hkeep.2) fun applied ha => ?_
    refine (ha.good.applyStrings fun title htitle => ?_).mono fun final hf => ⟨hf.1, fun halt hstill => ?_⟩
    · rw [ha.parser] at htitle
      exact completed_titleOk hadvance h.taken hkeep.1 htitle
    · obtain ⟨hprimary, hscrollback⟩ := ha.isolated halt (hf.2.activeScreen ▸ hstill)
      exact ⟨hf.2.primary.trans hprimary, hf.2.scrollback.trans hscrollback⟩

theorem Steady.ingestByte (h : terminal.Steady promise) (byte : UInt8)
    (hkeep : terminal.byteKeeps promise byte = true) :
    Yields (terminal.ingestByte byte) (Fed promise terminal) := by
  unfold byteKeeps at hkeep
  unfold Terminal.ingestByte
  cases hpending : terminal.utf8.pending with
  | false =>
    rw [hpending, if_neg (by decide)] at hkeep
    rw [if_neg (by decide)]
    exact h.ingestParsed byte hkeep
  | true =>
    rw [hpending, if_pos rfl] at hkeep
    rw [if_pos rfl]
    obtain ⟨utf8, result, hadvance, hutf8⟩ := h.utf8.advance hpending byte
    have hsteady : Steady promise { terminal with utf8 := utf8 } := ⟨h.toGood.withUtf8 hutf8, h.taken⟩
    rw [hadvance] at hkeep
    rw [hadvance, some_bind]
    cases result with
    | pending => exact .some ⟨hsteady, fun _ _ => ⟨rfl, rfl⟩⟩
    | character character =>
      exact (hsteady.print character hkeep).mono fun _ ht => ht.1.ofUntouched (.withUtf8 terminal utf8)
    | invalid =>
      simp only [Bool.and_eq_true] at hkeep
      obtain ⟨printed, hprint, hfed, hscreen⟩ := hsteady.print replacementCharacter hkeep.1
      rw [hprint, all_some] at hkeep
      refine Yields.bind ⟨printed, hprint, rfl⟩ fun current hcurrent => ?_
      obtain rfl : printed = current := hcurrent
      refine (hfed.steady.ingestParsed byte hkeep.2).mono fun final hf => ⟨hf.steady, fun halt hstill => ?_⟩
      have hmiddle : printed.activeScreen = .alternate := hscreen.trans halt
      obtain ⟨hprimary, hscrollback⟩ := hfed.isolated halt hmiddle
      obtain ⟨hprimary', hscrollback'⟩ := hf.isolated hmiddle hstill
      exact ⟨hprimary'.trans hprimary, hscrollback'.trans hscrollback⟩

theorem Steady.ingest (h : terminal.Steady promise) (bytes : List UInt8)
    (hkeep : holdsAlong Terminal.ingestByte (byteKeeps promise) terminal bytes = true) :
    Yields (terminal.ingest bytes) (Steady promise) :=
  foldlM_along (Steady promise) h hkeep fun _ byte hs hok =>
    (hs.ingestByte byte hok).mono fun _ hf => hf.steady

end Terminal

end FesTerm
