import FesTerm.Core.StringSequences
import FesTerm.Core.Proofs.ParserProofs

/-!
# Strings are acted on when they are complete

Reading a stream byte by byte, one is outside every escape sequence that could open a string, behind an
ESC, inside a string, or behind an ESC that interrupts a string. These phases say exactly which string
a stream has open, and the parser follows them. So a string's action comes at its terminator and is
made from the bytes of that string alone.
-/

namespace FesTerm

open Checked List

/-- Behind an ESC that does not interrupt a string. -/
def EscapePending (stream : List UInt8) : Prop :=
  ∃ before gap, stream = before ++ 0x1b :: gap ∧
    (∀ byte ∈ gap, isExecuted byte = true ∨ isShift byte = true) ∧
    ∀ kind payload, ¬ OpenString before kind payload

/-! ## One more byte of a stream -/

section

variable {stream : List UInt8} {byte : UInt8} {kind : StringKind} {payload : List UInt8}

theorem isExecuted_cases (h : isExecuted byte = true) :
    byte = 0x0d ∨ byte = 0x0a ∨ byte = 0x08 ∨ byte = 0x09 ∨ byte = 0x0b ∨ byte = 0x0c := by
  unfold isExecuted c0Operation at h
  by_contra hno
  simp only [not_or] at hno
  obtain ⟨hcr, hlf, hbs, hht, hvt, hff⟩ := hno
  simp [hcr, hlf, hbs, hht, hvt, hff] at h

theorem introduces_cases (h : introduces byte = some kind) :
    byte = 0x5d ∨ byte = 0x50 ∨ byte = 0x58 ∨ byte = 0x5e ∨ byte = 0x5f := by
  by_contra hno
  simp only [not_or] at hno
  obtain ⟨hosc, hdcs, hsos, hpm, hapc⟩ := hno
  simp [introduces, hosc, hdcs, hsos, hpm, hapc] at h

theorem snoc_escape {before gap : List UInt8} (h : stream ++ [byte] = before ++ 0x1b :: gap) :
    gap = [] ∧ byte = 0x1b ∧ stream = before ∨
      ∃ rest, gap = rest ++ [byte] ∧ stream = before ++ 0x1b :: rest := by
  rcases eq_nil_or_concat gap with rfl | ⟨rest, last, rfl⟩
  · obtain ⟨hstream, hlast⟩ := append_inj' h rfl
    exact .inl ⟨rfl, singleton_inj.mp hlast, hstream⟩
  · rw [concat_eq_append, ← cons_append, ← append_assoc] at h
    obtain ⟨hstream, hlast⟩ := append_inj' h rfl
    rw [singleton_inj.mp hlast]
    exact .inr ⟨rest, concat_eq_append, hstream⟩

/-- What is known of a stream behind its last ESC. -/
theorem behind_snoc {P : List UInt8 → Prop} {Q : UInt8 → Prop} :
    (∃ before gap, stream ++ [byte] = before ++ 0x1b :: gap ∧ (∀ other ∈ gap, Q other) ∧ P before) ↔
      byte = 0x1b ∧ P stream ∨
        (∃ before gap, stream = before ++ 0x1b :: gap ∧ (∀ other ∈ gap, Q other) ∧ P before) ∧ Q byte := by
  constructor
  · rintro ⟨before, gap, heq, hgap, hbefore⟩
    rcases snoc_escape heq with ⟨-, hbyte, rfl⟩ | ⟨rest, rfl, rfl⟩
    · exact .inl ⟨hbyte, hbefore⟩
    · refine .inr ⟨⟨before, rest, rfl, fun other hother => ?_, hbefore⟩, hgap byte (by simp)⟩
      exact hgap other (mem_append_left _ hother)
  · rintro (⟨rfl, hbefore⟩ | ⟨⟨before, gap, rfl, hgap, hbefore⟩, hbyte⟩)
    · exact ⟨stream, [], rfl, fun _ hother => absurd hother not_mem_nil, hbefore⟩
    · refine ⟨before, gap ++ [byte], by simp, fun other hother => ?_, hbefore⟩
      rcases mem_append.mp hother with hother | hother
      · exact hgap other hother
      · rw [mem_singleton.mp hother]
        exact hbyte

theorem escapePending_snoc : EscapePending (stream ++ [byte]) ↔
    byte = 0x1b ∧ (∀ kind payload, ¬ OpenString stream kind payload) ∨
      EscapePending stream ∧ (isExecuted byte = true ∨ isShift byte = true) := behind_snoc

theorem interruptedString_snoc : InterruptedString (stream ++ [byte]) kind payload ↔
    byte = 0x1b ∧ OpenString stream kind payload ∨
      InterruptedString stream kind payload ∧ isExecuted byte = true := behind_snoc

def collected (payload : List UInt8) (byte : UInt8) : List UInt8 :=
  if isExecuted byte then payload else payload ++ [byte]

theorem filter_snoc (body : List UInt8) (byte : UInt8) :
    (body ++ [byte]).filter (fun byte => !isExecuted byte) =
      collected (body.filter fun byte => !isExecuted byte) byte := by
  rw [filter_append, collected]
  cases hbyte : isExecuted byte <;> simp [hbyte]

theorem length_le_collected (payload : List UInt8) (byte : UInt8) :
    payload.length ≤ (collected payload byte).length := by
  unfold collected
  split
  · exact le_rfl
  · rw [length_append]
    omega

theorem openString_snoc : OpenString (stream ++ [byte]) kind payload ↔
    (∃ front, OpenString stream kind front ∧ continues kind byte = true ∧
      payload = collected front byte ∧ payload.length < maxStringBytes) ∨
    introduces byte = some kind ∧ payload = [] ∧
      (EscapePending stream ∨ ∃ kind payload, InterruptedString stream kind payload) := by
  constructor
  · intro h
    rw [OpenString] at h
    obtain ⟨before, gap, introducer, body, hlt, heq, hkind, hgap, hbody, rfl, hlen⟩ := h
    rcases eq_nil_or_concat body with rfl | ⟨rest, last, rfl⟩
    · -- the byte is the introducer
      rw [← cons_append, ← append_assoc] at heq
      obtain ⟨hstream, hlast⟩ := append_inj' heq rfl
      rw [singleton_inj.mp hlast]
      refine .inr ⟨hkind, rfl, ?_⟩
      by_cases hopen : ∃ kind payload, OpenString before kind payload
      · obtain ⟨kind', payload', hopen⟩ := hopen
        refine .inr ⟨kind', payload', before, gap, hstream, fun other hother => ?_, hopen⟩
        rcases hgap other hother with hexecuted | ⟨-, hclosed⟩
        · exact hexecuted
        · exact absurd hopen (hclosed kind' payload')
      · refine .inl ⟨before, gap, hstream, fun other hother => ?_, fun kind payload h => hopen ⟨kind, payload, h⟩⟩
        exact (hgap other hother).imp id And.left
    · -- the byte belongs to the string
      rw [concat_eq_append] at heq hbody hlen ⊢
      rw [← cons_append, ← append_assoc, ← cons_append, ← append_assoc] at heq
      obtain ⟨hstream, hlast⟩ := append_inj' heq rfl
      rw [singleton_inj.mp hlast]
      rw [filter_snoc] at hlen ⊢
      have hle := length_le_collected (rest.filter fun byte => !isExecuted byte) last
      refine .inl ⟨rest.filter fun byte => !isExecuted byte, ?_, hbody last (by simp), rfl, hlen⟩
      rw [OpenString]
      refine ⟨before, gap, introducer, rest, ?_, by simpa using hstream, hkind, hgap, fun other hother => ?_,
        rfl, by omega⟩
      · rw [hstream]
        simp only [length_append, length_cons]
        omega
      · exact hbody other (mem_append_left _ hother)
  · rintro (⟨front, hopen, hbyte, rfl, hlen⟩ | ⟨hkind, rfl, hready⟩)
    · rw [OpenString] at hopen ⊢
      obtain ⟨before, gap, introducer, body, hlt, rfl, hkind, hgap, hbody, rfl, -⟩ := hopen
      refine ⟨before, gap, introducer, body ++ [byte], ?_, by simp, hkind, hgap, fun other hother => ?_,
        (filter_snoc body byte).symm, hlen⟩
      · rw [length_append]
        omega
      · rcases mem_append.mp hother with hother | hother
        · exact hbody other hother
        · rw [mem_singleton.mp hother]
          exact hbyte
    · have hmake : ∀ before gap : List UInt8, stream = before ++ 0x1b :: gap →
          (∀ byte ∈ gap, isExecuted byte = true ∨
            isShift byte = true ∧ ∀ kind payload, ¬ OpenString before kind payload) →
          OpenString (stream ++ [byte]) kind [] := by
        rintro before gap rfl hgap
        rw [OpenString]
        refine ⟨before, gap, byte, [], ?_, by simp, hkind, hgap,
          fun _ hother => absurd hother not_mem_nil, rfl, by decide⟩
        simp only [length_append, length_cons]
        omega
      rcases hready with ⟨before, gap, heq, hgap, hclosed⟩ | ⟨kind', payload', before, gap, heq, hgap, -⟩
      · exact hmake before gap heq fun other hother => (hgap other hother).imp id fun h => ⟨h, hclosed⟩
      · exact hmake before gap heq fun other hother => .inl (hgap other hother)

end

/-! ## Phases -/

/-- Where a stream stands with respect to strings. -/
inductive StringPhase where
  | outside
  | escaped
  | inside (kind : StringKind) (payload : List UInt8)
  | interrupted (kind : StringKind) (payload : List UInt8)

namespace StringPhase

/-- The phase behind ESC and one more byte. -/
def enter (byte : UInt8) : StringPhase :=
  match introduces byte with
  | some kind => .inside kind []
  | none => .outside

def next : StringPhase → UInt8 → StringPhase
  | .outside, byte => if byte = 0x1b then .escaped else .outside
  | .escaped, byte =>
    if isExecuted byte ∨ isShift byte ∨ byte = 0x1b then .escaped else enter byte
  | .inside kind payload, byte =>
    if byte = 0x1b then .interrupted kind payload
    else if continues kind byte ∧ (collected payload byte).length < maxStringBytes then
      .inside kind (collected payload byte)
    else .outside
  | .interrupted kind payload, byte =>
    if isExecuted byte then .interrupted kind payload
    else if byte = 0x1b then .escaped
    else enter byte

def of (stream : List UInt8) : StringPhase := stream.foldl next .outside

theorem of_snoc (stream : List UInt8) (byte : UInt8) : of (stream ++ [byte]) = (of stream).next byte := by
  simp [of]

theorem enter_eq_inside {byte : UInt8} {kind : StringKind} {payload : List UInt8} :
    enter byte = .inside kind payload ↔ introduces byte = some kind ∧ payload = [] := by
  unfold enter
  cases introduces byte with
  | none => simp
  | some found => simp [eq_comm]

theorem enter_ne_escaped (byte : UInt8) : enter byte ≠ .escaped := by
  unfold enter
  cases introduces byte <;> simp

theorem enter_ne_interrupted (byte : UInt8) (kind : StringKind) (payload : List UInt8) :
    enter byte ≠ .interrupted kind payload := by
  unfold enter
  cases introduces byte <;> simp

end StringPhase

section

variable {byte : UInt8} {kind : StringKind}

theorem introduces_plain (h : introduces byte = some kind) :
    isExecuted byte = false ∧ isShift byte = false ∧ byte ≠ 0x1b := by
  rcases introduces_cases h with rfl | rfl | rfl | rfl | rfl <;> decide

theorem escape_plain : isExecuted 0x1b = false ∧ isShift 0x1b = false ∧ introduces 0x1b = none ∧
    ∀ kind, continues kind 0x1b = false :=
  ⟨by decide, by decide, by decide, fun _ => rfl⟩

theorem executed_plain (h : isExecuted byte = true) :
    byte ≠ 0x1b ∧ introduces byte = none ∧ ∀ kind, continues kind byte = true := by
  rcases isExecuted_cases h with rfl | rfl | rfl | rfl | rfl | rfl <;>
    exact ⟨by decide, by decide, fun kind => by cases kind <;> decide⟩

/-- The string that a stream has open can be read off its phase. -/
structure Phased (stream : List UInt8) : Prop where
  inside : ∀ kind payload, OpenString stream kind payload ↔
    StringPhase.of stream = .inside kind payload
  interrupted : ∀ kind payload, InterruptedString stream kind payload ↔
    StringPhase.of stream = .interrupted kind payload
  escaped : EscapePending stream ↔ StringPhase.of stream = .escaped

theorem phased_nil : Phased [] := by
  refine ⟨fun kind payload => ⟨fun h => ?_, nofun⟩,
    fun kind payload => ⟨fun h => ?_, nofun⟩, ⟨fun h => ?_, nofun⟩⟩
  · rw [OpenString] at h
    obtain ⟨before, -, -, -, hlt, -⟩ := h
    exact absurd hlt (Nat.not_lt_zero _)
  · obtain ⟨before, gap, heq, -⟩ := h
    simp at heq
  · obtain ⟨before, gap, heq, -⟩ := h
    simp at heq

variable {stream : List UInt8}

/-- The strings that are open after one more byte. -/
theorem Phased.snoc_inside (h : Phased stream) (byte : UInt8) (kind : StringKind)
    (payload : List UInt8) : OpenString (stream ++ [byte]) kind payload ↔
      StringPhase.of (stream ++ [byte]) = .inside kind payload := by
  obtain ⟨-, -, hopens, hgoes⟩ := escape_plain
  rw [openString_snoc, StringPhase.of_snoc, h.escaped]
  simp only [h.inside, h.interrupted]
  cases hphase : StringPhase.of stream with
  | outside =>
    simp only [reduceCtorEq, false_and, exists_false, or_self, and_false, StringPhase.next]
    split <;> simp
  | escaped =>
    simp only [reduceCtorEq, false_and, exists_false, false_or, true_or, and_true, StringPhase.next]
    split
    · rename_i hcontrol
      simp only [reduceCtorEq, iff_false, not_and]
      intro hkind
      obtain ⟨hexecuted, hshift, hne⟩ := introduces_plain hkind
      simp [hexecuted, hshift, hne] at hcontrol
    · exact StringPhase.enter_eq_inside.symm
  | inside kind' payload' =>
    simp only [StringPhase.inside.injEq, reduceCtorEq, exists_false, or_self, and_false, or_false,
      StringPhase.next]
    split
    · rename_i hbyte
      simp [hbyte, hgoes]
    split
    · rename_i hboth
      simp only [StringPhase.inside.injEq]
      constructor
      · rintro ⟨front, ⟨rfl, rfl⟩, -, rfl, -⟩
        exact ⟨rfl, rfl⟩
      · rintro ⟨rfl, rfl⟩
        exact ⟨payload', ⟨rfl, rfl⟩, hboth.1, rfl, hboth.2⟩
    · rename_i hends
      simp only [reduceCtorEq, iff_false, not_exists]
      rintro front ⟨⟨rfl, rfl⟩, hbyte, rfl, hlen⟩
      exact hends ⟨hbyte, hlen⟩
  | interrupted kind' payload' =>
    have hexists : ∃ kind payload, StringPhase.interrupted kind' payload' = .interrupted kind payload :=
      ⟨kind', payload', rfl⟩
    simp only [reduceCtorEq, false_and, exists_false, false_or, hexists, or_true, and_true, StringPhase.next]
    split
    · rename_i hexecuted
      simp [(executed_plain hexecuted).2.1]
    split
    · rename_i hbyte
      simp [hbyte, hopens]
    · exact StringPhase.enter_eq_inside.symm

theorem Phased.snoc_interrupted (h : Phased stream) (byte : UInt8)
    (kind : StringKind) (payload : List UInt8) : InterruptedString (stream ++ [byte]) kind payload ↔
      StringPhase.of (stream ++ [byte]) = .interrupted kind payload := by
  rw [interruptedString_snoc, StringPhase.of_snoc, h.inside, h.interrupted]
  cases hphase : StringPhase.of stream with
  | outside =>
    simp only [StringPhase.next]
    split <;> simp
  | escaped =>
    simp only [reduceCtorEq, and_false, false_and, or_self, false_iff, StringPhase.next]
    split
    · simp
    · exact StringPhase.enter_ne_interrupted byte kind payload
  | inside kind' payload' =>
    simp only [StringPhase.next]
    split
    · rename_i hbyte
      simp [hbyte]
    · rename_i hbyte
      split <;> simp [hbyte]
  | interrupted kind' payload' =>
    simp only [StringPhase.next]
    split
    · rename_i hexecuted
      simp [hexecuted]
    · rename_i hexecuted
      split
      · simp [hexecuted]
      · simp [hexecuted, StringPhase.enter_ne_interrupted]

/-- Whether an ESC is pending after one more byte. -/
theorem Phased.snoc_escaped (h : Phased stream) (byte : UInt8) :
    EscapePending (stream ++ [byte]) ↔ StringPhase.of (stream ++ [byte]) = .escaped := by
  rw [escapePending_snoc, StringPhase.of_snoc, h.escaped]
  simp only [h.inside]
  cases hphase : StringPhase.of stream with
  | outside =>
    simp only [StringPhase.next]
    split
    · rename_i hbyte
      simp [hbyte]
    · rename_i hbyte
      simp [hbyte]
  | escaped =>
    simp only [StringPhase.next]
    split
    · rename_i hcontrol
      simp only [reduceCtorEq, not_false_eq_true, implies_true, and_true, true_and, iff_true]
      tauto
    · rename_i hcontrol
      simp only [reduceCtorEq, not_false_eq_true, implies_true, and_true, true_and,
        StringPhase.enter_ne_escaped, iff_false]
      tauto
  | inside kind' payload' =>
    simp only [StringPhase.next]
    split
    · simp
    · split <;> simp
  | interrupted kind' payload' =>
    simp only [StringPhase.next]
    split
    · rename_i hexecuted
      simp [(executed_plain hexecuted).1]
    · split
      · rename_i hbyte
        simp [hbyte]
      · rename_i hbyte
        simp [hbyte, StringPhase.enter_ne_escaped]

theorem phased (stream : List UInt8) : Phased stream := by
  induction stream using List.reverseRecOn with
  | nil => exact phased_nil
  | append_singleton stream byte ih =>
    exact ⟨ih.snoc_inside byte, ih.snoc_interrupted byte, ih.snoc_escaped byte⟩

end

/-! ## The parser follows the phases -/

/-- Neither in a string nor behind an ESC. -/
def ParserState.Elsewhere : ParserState → Prop
  | .escape | .string _ _ | .stringEscape _ _ => False
  | _ => True

namespace Parser

variable {parser parser' : Parser} {byte : UInt8} {operation : TerminalOp}

/-- The payload of a string that acts, with room for one more byte. -/
structure Holds (parser : Parser) (kind : StringKind) (payload : List UInt8) : Prop where
  room : payload.length < maxStringBytes
  stored : kind ≠ .other → parser.stringPayload = payload

/-- What the parser is in a phase. -/
def Shows (parser : Parser) : StringPhase → Prop
  | .outside => parser.state.Elsewhere
  | .escaped => parser.state = .escape
  | .inside kind payload => parser.state = .string kind payload.length ∧ parser.Holds kind payload
  | .interrupted kind payload => parser.state = .stringEscape kind payload.length ∧ parser.Holds kind payload

/-- Still outside of strings, with the same actions. -/
structure Stays (parser parser' : Parser) : Prop where
  state : parser'.state.Elsewhere
  oscAction : parser'.oscAction = parser.oscAction
  dcsAction : parser'.dcsAction = parser.dcsAction

/-- The same actions wait. -/
structure Waits (parser parser' : Parser) : Prop where
  oscAction : parser'.oscAction = parser.oscAction
  dcsAction : parser'.dcsAction = parser.dcsAction

theorem stays_ignoreCsi (parser : Parser) : Stays parser parser.ignoreCsi.1 := ⟨trivial, rfl, rfl⟩

theorem stays_appendCsiDigit (h : parser.appendCsiDigit byte = some (parser', operation)) :
    Stays parser parser' := by
  unfold appendCsiDigit at h
  dsimp only at h
  split at h
  · cases h
    exact ⟨trivial, rfl, rfl⟩
  · obtain ⟨digit, -, h⟩ := Option.bind_eq_some_iff.mp h
    split at h
    · cases h
      exact ⟨trivial, rfl, rfl⟩
    · cases h
      exact ⟨trivial, rfl, rfl⟩

theorem stays_appendCsiSeparator (parser : Parser) (separator : ParameterSeparator) :
    Stays parser (parser.appendCsiSeparator separator).1 := by
  unfold appendCsiSeparator
  split
  · exact stays_ignoreCsi parser
  · exact ⟨trivial, rfl, rfl⟩

theorem stays_advanceCsiIntermediate
    (h : parser.advanceCsiIntermediate byte = some (parser', operation)) : Stays parser parser' := by
  unfold advanceCsiIntermediate at h
  split at h
  · unfold appendCsiIntermediate at h
    split at h
    · cases h
      exact stays_ignoreCsi parser
    · obtain ⟨intermediates, -, h⟩ := Option.bind_eq_some_iff.mp h
      cases h
      exact ⟨trivial, rfl, rfl⟩
  split at h
  · obtain ⟨completed, -, h⟩ := Option.bind_eq_some_iff.mp h
    cases h
    exact ⟨trivial, rfl, rfl⟩
  · cases h
    exact stays_ignoreCsi parser

theorem stays_advanceCsiParam (h : parser.advanceCsiParam byte = some (parser', operation)) :
    Stays parser parser' := by
  unfold advanceCsiParam at h
  split at h
  · exact stays_appendCsiDigit h
  split at h
  · obtain rfl := congrArg Prod.fst (Option.some.inj h)
    exact stays_appendCsiSeparator parser .semicolon
  split at h
  · obtain rfl := congrArg Prod.fst (Option.some.inj h)
    exact stays_appendCsiSeparator parser .colon
  · exact stays_advanceCsiIntermediate h

theorem stays_advanceCsiEntry (hs : parser.state = .csiEntry)
    (h : parser.advanceCsiEntry byte = some (parser', operation)) : Stays parser parser' := by
  have hstate : parser.state.Elsewhere := by
    rw [hs]
    trivial
  unfold advanceCsiEntry at h
  split at h
  · cases h
    exact ⟨hstate, rfl, rfl⟩
  split at h
  · cases h
    exact ⟨hstate, rfl, rfl⟩
  · exact stays_advanceCsiParam h

theorem shows_advanceEscape (parser : Parser) (byte : UInt8) :
    (parser.advanceEscape byte).1.Shows (.enter byte) ∧ Waits parser (parser.advanceEscape byte).1 := by
  have hopen : ∀ kind, (parser.startString kind).Shows (.inside kind []) :=
    fun kind => ⟨rfl, by decide, fun _ => rfl⟩
  unfold advanceEscape StringPhase.enter introduces
  dsimp only
  split
  · rename_i hbyte
    subst hbyte
    exact ⟨trivial, rfl, rfl⟩
  split
  · exact ⟨hopen .osc, rfl, rfl⟩
  split
  · exact ⟨hopen .dcs, rfl, rfl⟩
  split
  · exact ⟨hopen .other, rfl, rfl⟩
  split
  · exact ⟨trivial, rfl, rfl⟩
  split
  · exact ⟨trivial, rfl, rfl⟩
  split
  · exact ⟨trivial, rfl, rfl⟩
  · exact ⟨trivial, rfl, rfl⟩

variable {kind : StringKind} {payload stream : List UInt8}

/-- A payload byte is stored, unless the string is full with it. -/
theorem shows_advanceStringPayload (h : parser.Holds kind payload) (byte : UInt8) :
    (parser.advanceStringPayload kind payload.length [byte]).Shows
        (if (payload ++ [byte]).length < maxStringBytes then .inside kind (payload ++ [byte])
        else .outside) ∧
      Waits parser (parser.advanceStringPayload kind payload.length [byte]) := by
  have hmax : maxStringBytes < usizeMax := by decide
  have hroom := h.room
  have hlen : (payload ++ [byte]).length = payload.length + 1 := by simp
  have hmake : ∀ stored : Parser, (kind ≠ .other → stored.stringPayload = payload ++ [byte]) →
      Shows { stored with
          state := if payload.length + 1 ≥ maxStringBytes then .ground
            else .string kind (payload.length + 1) }
        (if (payload ++ [byte]).length < maxStringBytes then .inside kind (payload ++ [byte])
        else .outside) := by
    intro stored hstored
    by_cases hfull : payload.length + 1 ≥ maxStringBytes
    · rw [if_pos hfull, if_neg (by omega)]
      trivial
    · rw [if_neg hfull, if_pos (by omega)]
      exact ⟨by rw [hlen], by omega, hstored⟩
  unfold advanceStringPayload
  rw [if_neg (by rw [length_singleton]; omega)]
  by_cases hacts : kind = .osc ∨ kind = .dcs
  · simp only [if_pos hacts, length_singleton]
    refine ⟨hmake { parser with stringPayload := parser.stringPayload ++ [byte] } fun hkind => ?_, rfl, rfl⟩
    show parser.stringPayload ++ [byte] = payload ++ [byte]
    rw [h.stored hkind]
  · simp only [if_neg hacts, length_singleton]
    refine ⟨hmake parser fun hkind => ?_, rfl, rfl⟩
    cases kind with
    | osc => exact absurd (.inl rfl) hacts
    | dcs => exact absurd (.inr rfl) hacts
    | other => exact absurd rfl hkind

variable [Platform]

/-- The action of an operating system command that the byte completes. -/
def completedOsc : StringPhase → UInt8 → Option OscAction
  | .inside .osc payload, byte => if byte = 0x07 then parseOsc payload .bell else none
  | .interrupted .osc payload, byte => if byte = 0x5c then parseOsc payload .string else none
  | _, _ => none

omit [Platform] in
/-- The action of a device control string that the byte completes. -/
def completedDcs : StringPhase → UInt8 → Option DcsAction
  | .interrupted .dcs payload, byte => if byte = 0x5c then parseDcs payload else none
  | _, _ => none

/-- What a byte does to a parser in a phase, when no action waits. -/
structure Follows (phase : StringPhase) (byte : UInt8) (parser' : Parser) (operation : TerminalOp) :
    Prop where
  shows : parser'.Shows (phase.next byte)
  oscAction : parser'.oscAction = completedOsc phase byte
  dcsAction : parser'.dcsAction = completedDcs phase byte
  executed : isExecuted byte = true → c0Operation byte = some operation

section

omit [Platform]

theorem isExecuted_eq (operation : TerminalOp) (h : c0Operation byte = some operation) :
    isExecuted byte = true := by
  rw [isExecuted, h]
  rfl

theorem not_executed (h : c0Operation byte = none) : isExecuted byte = false := by
  rw [isExecuted, h]
  rfl

theorem never_executed (h : c0Operation byte = none) (operation : TerminalOp) (hyes : isExecuted byte = true) :
    c0Operation byte = some operation := by
  rw [not_executed h] at hyes
  cases hyes

theorem cancel_plain (h : byte = 0x18 ∨ byte = 0x1a) :
    isExecuted byte = false ∧ isShift byte = false ∧ byte ≠ 0x1b ∧ introduces byte = none ∧
      byte ≠ 0x07 ∧ byte ≠ 0x5c ∧ ∀ kind, continues kind byte = false := by
  rcases h with rfl | rfl <;>
    exact ⟨by decide, by decide, by decide, by decide, by decide, by decide, fun _ => rfl⟩

theorem next_cancel (h : byte = 0x18 ∨ byte = 0x1a) (phase : StringPhase) :
    phase.next byte = .outside := by
  obtain ⟨hexecuted, hshift, hescape, hopens, -, -, hgoes⟩ := cancel_plain h
  cases phase <;> simp [StringPhase.next, StringPhase.enter, hexecuted, hshift, hescape, hopens, hgoes]

theorem completed_none [Platform] (phase : StringPhase) (hbell : byte ≠ 0x07) (hslash : byte ≠ 0x5c) :
    completedOsc phase byte = none ∧ completedDcs phase byte = none := by
  constructor
  · unfold completedOsc
    split
    · exact if_neg hbell
    · exact if_neg hslash
    · rfl
  · unfold completedDcs
    split
    · exact if_neg hslash
    · rfl

end

theorem follows_cancel (h : byte = 0x18 ∨ byte = 0x1a) (hosc : parser.oscAction = none)
    (hdcs : parser.dcsAction = none) (phase : StringPhase) :
    Follows phase byte ({ parser with state := .ground }.clearCsi) .ignored := by
  obtain ⟨hexecuted, -, -, -, hbell, hslash, -⟩ := cancel_plain h
  obtain ⟨hnoOsc, hnoDcs⟩ := completed_none phase hbell hslash
  refine ⟨?_, hosc.trans hnoOsc.symm, hdcs.trans hnoDcs.symm, fun hyes => ?_⟩
  · rw [next_cancel h]
    trivial
  · rw [hexecuted] at hyes
    cases hyes

omit [Platform] in
theorem executed_completes_nothing (h : isExecuted byte = true) : byte ≠ 0x07 ∧ byte ≠ 0x5c := by
  rcases isExecuted_cases h with rfl | rfl | rfl | rfl | rfl | rfl <;> decide

section

variable (hcancel : ¬ (byte = 0x18 ∨ byte = 0x1a)) (hosc : parser.oscAction = none)
  (hdcs : parser.dcsAction = none) (hadvance : parser.advance byte = some (parser', operation))

include hcancel hosc hdcs hadvance

/-- A byte outside of strings. -/
theorem follows_outside (h : parser.Shows .outside) : Follows .outside byte parser' operation := by
  have hstays : Stays parser parser' → byte ≠ 0x1b → c0Operation byte = none →
      Follows .outside byte parser' operation := by
    intro hstays hescape hc0
    refine ⟨?_, hstays.oscAction.trans hosc, hstays.dcsAction.trans hdcs, never_executed hc0 _⟩
    rw [StringPhase.next, if_neg hescape]
    exact hstays.state
  unfold Parser.advance at hadvance
  rw [if_neg hcancel] at hadvance
  have hplain : parser.state.Elsewhere := h
  split at hadvance
  · rename_i hstate
    rw [hstate] at hplain
    exact hplain.elim
  · rename_i hstate
    rw [hstate] at hplain
    exact hplain.elim
  by_cases hescape : byte = 0x1b
  · rw [if_pos hescape] at hadvance
    cases hadvance
    refine ⟨?_, hosc, hdcs, fun hyes => absurd hescape (executed_plain hyes).1⟩
    rw [StringPhase.next, if_pos hescape]
    rfl
  rw [if_neg hescape] at hadvance
  split at hadvance
  · rename_i hso
    cases hadvance
    refine hstays ⟨hplain, rfl, rfl⟩ hescape ?_
    rw [hso]
    rfl
  split at hadvance
  · rename_i hsi
    cases hadvance
    refine hstays ⟨hplain, rfl, rfl⟩ hescape ?_
    rw [hsi]
    rfl
  cases hc0 : c0Operation byte with
  | some control =>
    rw [hc0] at hadvance
    cases hadvance
    refine ⟨?_, hosc, hdcs, fun _ => hc0⟩
    rw [StringPhase.next, if_neg hescape]
    exact h
  | none =>
    rw [hc0] at hadvance
    refine hstays ?_ hescape hc0
    cases hstate : parser.state with
    | ground =>
      rw [hstate] at hadvance
      cases hadvance
      exact ⟨hplain, rfl, rfl⟩
    | escape =>
      rw [hstate] at hplain
      exact hplain.elim
    | escapeIntermediate intermediate =>
      rw [hstate] at hadvance
      cases hadvance
      exact ⟨trivial, rfl, rfl⟩
    | charsetDesignate slot =>
      rw [hstate] at hadvance
      cases hadvance
      cases slot <;> exact ⟨trivial, rfl, rfl⟩
    | csiEntry =>
      rw [hstate] at hadvance
      exact stays_advanceCsiEntry hstate hadvance
    | csiParam =>
      rw [hstate] at hadvance
      exact stays_advanceCsiParam hadvance
    | csiIntermediate =>
      rw [hstate] at hadvance
      exact stays_advanceCsiIntermediate hadvance
    | csiIgnore =>
      rw [hstate] at hadvance
      dsimp only at hadvance
      split at hadvance
      · cases hadvance
        exact ⟨trivial, rfl, rfl⟩
      · cases hadvance
        exact ⟨hplain, rfl, rfl⟩
    | string kind bytes =>
      rw [hstate] at hplain
      exact hplain.elim
    | stringEscape kind bytes =>
      rw [hstate] at hplain
      exact hplain.elim

/-- A byte behind ESC. -/
theorem follows_escaped (h : parser.Shows .escaped) : Follows .escaped byte parser' operation := by
  have hstate : parser.state = .escape := h
  unfold Parser.advance at hadvance
  rw [if_neg hcancel, hstate] at hadvance
  dsimp only at hadvance
  by_cases hescape : byte = 0x1b
  · rw [if_pos hescape] at hadvance
    cases hadvance
    refine ⟨?_, hosc, hdcs, fun hyes => absurd hescape (executed_plain hyes).1⟩
    rw [StringPhase.next, if_pos (.inr (.inr hescape))]
    rfl
  rw [if_neg hescape] at hadvance
  by_cases hso : byte = 0x0e
  · rw [if_pos hso] at hadvance
    cases hadvance
    subst hso
    exact ⟨rfl, hosc, hdcs, nofun⟩
  rw [if_neg hso] at hadvance
  by_cases hsi : byte = 0x0f
  · rw [if_pos hsi] at hadvance
    cases hadvance
    subst hsi
    exact ⟨rfl, hosc, hdcs, nofun⟩
  rw [if_neg hsi] at hadvance
  cases hc0 : c0Operation byte with
  | some control =>
    rw [hc0] at hadvance
    cases hadvance
    refine ⟨?_, hosc, hdcs, fun _ => hc0⟩
    rw [StringPhase.next, if_pos (.inl (isExecuted_eq _ hc0))]
    exact h
  | none =>
    rw [hc0] at hadvance
    obtain ⟨hshows, hosc', hdcs'⟩ := shows_advanceEscape parser byte
    have hadvance : parser.advanceEscape byte = (parser', operation) := Option.some.inj hadvance
    rw [hadvance] at hshows hosc' hdcs'
    refine ⟨?_, hosc'.trans hosc, hdcs'.trans hdcs, never_executed hc0 _⟩
    rw [StringPhase.next, if_neg]
    · exact hshows
    · simp [not_executed hc0, isShift, hso, hsi, hescape]

/-- A byte of an open string. -/
theorem follows_inside (h : parser.Shows (.inside kind payload)) :
    Follows (.inside kind payload) byte parser' operation := by
  obtain ⟨hstate, hholds⟩ := h
  unfold Parser.advance at hadvance
  rw [if_neg hcancel, hstate] at hadvance
  dsimp only at hadvance
  cases hc0 : c0Operation byte with
  | some control =>
    rw [hc0] at hadvance
    cases hadvance
    have hexecuted := isExecuted_eq _ hc0
    obtain ⟨hescape, -, hgoes⟩ := executed_plain hexecuted
    obtain ⟨hbell, hslash⟩ := executed_completes_nothing hexecuted
    obtain ⟨hnoOsc, hnoDcs⟩ := completed_none (.inside kind payload) hbell hslash
    have hsame : collected payload byte = payload := if_pos hexecuted
    refine ⟨?_, hosc.trans hnoOsc.symm, hdcs.trans hnoDcs.symm, fun _ => hc0⟩
    rw [StringPhase.next, if_neg hescape, hsame, if_pos ⟨hgoes kind, hholds.room⟩]
    exact ⟨hstate, hholds⟩
  | none =>
    rw [hc0] at hadvance
    have hplain := not_executed hc0
    unfold Parser.advanceString at hadvance
    rw [hstate] at hadvance
    dsimp only at hadvance
    by_cases hbell : kind = .osc ∧ byte = 0x07
    · rw [if_pos hbell] at hadvance
      obtain ⟨rfl, rfl⟩ := hbell
      cases hadvance
      refine ⟨trivial, ?_, hdcs, never_executed hc0 _⟩
      show parseOsc parser.stringPayload .bell = parseOsc payload .bell
      rw [hholds.stored (by decide)]
    rw [if_neg hbell] at hadvance
    have hnone : completedOsc (.inside kind payload) byte = none := by
      cases kind with
      | osc => exact if_neg fun hb => hbell ⟨rfl, hb⟩
      | dcs => rfl
      | other => rfl
    by_cases hescape : byte = 0x1b
    · rw [if_pos hescape] at hadvance
      cases hadvance
      refine ⟨?_, hosc.trans hnone.symm, hdcs, never_executed hc0 _⟩
      rw [StringPhase.next, if_pos hescape]
      exact ⟨rfl, hholds.room, hholds.stored⟩
    rw [if_neg hescape] at hadvance
    cases hadvance
    have hgoes : continues kind byte = true := by
      rw [not_or] at hcancel
      rw [not_and] at hbell
      cases kind with
      | osc => simp [continues, hescape, hcancel.1, hcancel.2, hbell rfl]
      | dcs => simp [continues, hescape, hcancel.1, hcancel.2]
      | other => simp [continues, hescape, hcancel.1, hcancel.2]
    have hcollected : collected payload byte = payload ++ [byte] := by rw [collected, hplain]; rfl
    obtain ⟨hshows, hosc', hdcs'⟩ := shows_advanceStringPayload hholds byte
    refine ⟨?_, (hosc'.trans hosc).trans hnone.symm, hdcs'.trans hdcs, never_executed hc0 _⟩
    rw [StringPhase.next, if_neg hescape, hcollected]
    simpa only [hgoes, true_and] using hshows

/-- A byte behind an ESC that interrupts a string. -/
theorem follows_interrupted (h : parser.Shows (.interrupted kind payload)) :
    Follows (.interrupted kind payload) byte parser' operation := by
  obtain ⟨hstate, hholds⟩ := h
  unfold Parser.advance at hadvance
  rw [if_neg hcancel, hstate] at hadvance
  dsimp only at hadvance
  cases hc0 : c0Operation byte with
  | some control =>
    rw [hc0] at hadvance
    cases hadvance
    have hexecuted := isExecuted_eq _ hc0
    obtain ⟨hbell, hslash⟩ := executed_completes_nothing hexecuted
    obtain ⟨hnoOsc, hnoDcs⟩ := completed_none (.interrupted kind payload) hbell hslash
    refine ⟨?_, hosc.trans hnoOsc.symm, hdcs.trans hnoDcs.symm, fun _ => hc0⟩
    rw [StringPhase.next, if_pos hexecuted]
    exact ⟨hstate, hholds⟩
  | none =>
    rw [hc0] at hadvance
    have hplain := not_executed hc0
    unfold Parser.advanceString at hadvance
    rw [hstate] at hadvance
    dsimp only at hadvance
    by_cases hslash : byte = 0x5c
    · rw [if_pos hslash] at hadvance
      subst hslash
      cases hadvance
      cases kind with
      | osc =>
        refine ⟨trivial, ?_, hdcs, never_executed hc0 _⟩
        show parseOsc parser.stringPayload .string = parseOsc payload .string
        rw [hholds.stored (by decide)]
      | dcs =>
        refine ⟨trivial, hosc, ?_, never_executed hc0 _⟩
        show parseDcs parser.stringPayload = parseDcs payload
        rw [hholds.stored (by decide)]
      | other => exact ⟨trivial, hosc, hdcs, never_executed hc0 _⟩
    rw [if_neg hslash] at hadvance
    have hnoOsc : completedOsc (.interrupted kind payload) byte = none := by
      cases kind with
      | osc => exact if_neg hslash
      | dcs => rfl
      | other => rfl
    have hnoDcs : completedDcs (.interrupted kind payload) byte = none := by
      cases kind with
      | osc => rfl
      | dcs => exact if_neg hslash
      | other => rfl
    by_cases hescape : byte = 0x1b
    · rw [if_pos hescape] at hadvance
      cases hadvance
      refine ⟨?_, hosc.trans hnoOsc.symm, hdcs.trans hnoDcs.symm, never_executed hc0 _⟩
      rw [StringPhase.next, if_neg (by rw [hplain]; decide), if_pos hescape]
      rfl
    · rw [if_neg hescape] at hadvance
      obtain ⟨hshows, hosc', hdcs'⟩ := shows_advanceEscape parser.abandonString byte
      have hadvance : parser.abandonString.advanceEscape byte = (parser', operation) :=
        Option.some.inj hadvance
      rw [hadvance] at hshows hosc' hdcs'
      refine ⟨?_, (hosc'.trans hosc).trans hnoOsc.symm, (hdcs'.trans hdcs).trans hnoDcs.symm, never_executed hc0 _⟩
      rw [StringPhase.next, if_neg (by rw [hplain]; decide), if_neg hescape]
      exact hshows

end

theorem follows {phase : StringPhase} (h : parser.Shows phase) (hosc : parser.oscAction = none)
    (hdcs : parser.dcsAction = none) (hadvance : parser.advance byte = some (parser', operation)) :
    Follows phase byte parser' operation := by
  by_cases hcancel : byte = 0x18 ∨ byte = 0x1a
  · rw [Parser.advance, if_pos hcancel] at hadvance
    cases hadvance
    exact follows_cancel hcancel hosc hdcs _
  · cases phase with
    | outside => exact follows_outside hcancel hosc hdcs hadvance h
    | escaped => exact follows_escaped hcancel hosc hdcs hadvance h
    | inside kind payload => exact follows_inside hcancel hosc hdcs hadvance h
    | interrupted kind payload => exact follows_interrupted hcancel hosc hdcs hadvance h

/-! ## Streams -/

/-- What the parser is after a stream. -/
structure Tracks (stream : List UInt8) (parser : Parser) : Prop where
  ok : parser.Ok
  oscTaken : parser.oscAction = none
  dcsTaken : parser.dcsAction = none
  shows : parser.Shows (.of stream)

omit [Platform] in
theorem tracks_new : Tracks [] new := ⟨ok_new, rfl, rfl, trivial⟩

omit [Platform] in
theorem Shows.taken {phase : StringPhase} (h : parser.Shows phase) :
    Shows { parser with oscAction := none, dcsAction := none } phase := by
  cases phase with
  | outside | escaped => exact h
  | inside kind payload | interrupted kind payload => exact ⟨h.1, h.2.room, h.2.stored⟩

theorem Tracks.advanceTaking (h : Tracks stream parser) (byte : UInt8) : ∃ parser' operation,
      parser.advanceTaking byte = some (parser', operation, completedOsc (.of stream) byte,
        completedDcs (.of stream) byte) ∧
      Tracks (stream ++ [byte]) parser' ∧
      (isExecuted byte = true → c0Operation byte = some operation) := by
  obtain ⟨advanced, operation, hadvance, hok⟩ := h.ok.advance byte
  have hfollows := follows h.shows h.oscTaken h.dcsTaken hadvance
  refine ⟨{ advanced with oscAction := none, dcsAction := none }, operation, ?_, ?_, hfollows.executed⟩
  · unfold Parser.advanceTaking
    rw [hadvance, ← hfollows.oscAction, ← hfollows.dcsAction]
    rfl
  · refine ⟨⟨hok.digits, hok.intermediates, hok.intermediateLength, hok.payload, hok.state⟩, rfl, rfl, ?_⟩
    rw [StringPhase.of_snoc]
    exact hfollows.shows.taken

theorem tracks_after (stream : List UInt8) : ∃ parser, after stream = some parser ∧ Tracks stream parser := by
  induction stream using List.reverseRecOn with
  | nil => exact ⟨new, rfl, tracks_new⟩
  | append_singleton stream byte ih =>
    obtain ⟨parser, hafter, htracks⟩ := ih
    obtain ⟨parser', operation, hadvance, htracks', -⟩ := htracks.advanceTaking byte
    refine ⟨parser', ?_, htracks'⟩
    unfold Parser.after at hafter ⊢
    rw [foldlM_append, hafter]
    simp only [some_bind, foldlM_cons, foldlM_nil, hadvance, Option.map_some]
    rfl

theorem completedOsc_iff {action : OscAction} :
    completedOsc (.of stream) byte = some action ↔ ∃ terminator payload,
      CompletesString stream byte .osc terminator payload ∧ parseOsc payload terminator = some action := by
  have hphased := phased stream
  constructor
  · intro h
    unfold completedOsc at h
    split at h
    · rename_i payload hphase
      obtain ⟨hbyte, haction⟩ := Option.ite_none_right_eq_some.mp h
      exact ⟨.bell, payload, ⟨rfl, hbyte, (hphased.inside .osc payload).mpr hphase⟩, haction⟩
    · rename_i payload hphase
      obtain ⟨hbyte, haction⟩ := Option.ite_none_right_eq_some.mp h
      exact ⟨.string, payload, ⟨hbyte, (hphased.interrupted .osc payload).mpr hphase⟩, haction⟩
    · cases h
  · rintro ⟨terminator, payload, hcompletes, haction⟩
    cases terminator with
    | bell =>
      obtain ⟨-, hbyte, hopen⟩ := hcompletes
      rw [(hphased.inside .osc payload).mp hopen]
      exact (if_pos hbyte).trans haction
    | string =>
      obtain ⟨hbyte, hcut⟩ := hcompletes
      rw [(hphased.interrupted .osc payload).mp hcut]
      exact (if_pos hbyte).trans haction

omit [Platform] in
theorem completedDcs_iff {action : DcsAction} :
    completedDcs (.of stream) byte = some action ↔ ∃ terminator payload,
      CompletesString stream byte .dcs terminator payload ∧ parseDcs payload = some action := by
  have hphased := phased stream
  constructor
  · intro h
    unfold completedDcs at h
    split at h
    · rename_i payload hphase
      obtain ⟨hbyte, haction⟩ := Option.ite_none_right_eq_some.mp h
      exact ⟨.string, payload, ⟨hbyte, (hphased.interrupted .dcs payload).mpr hphase⟩, haction⟩
    · cases h
  · rintro ⟨terminator, payload, hcompletes, haction⟩
    cases terminator with
    | bell =>
      obtain ⟨hkind, -⟩ := hcompletes
      cases hkind
    | string =>
      obtain ⟨hbyte, hcut⟩ := hcompletes
      rw [(hphased.interrupted .dcs payload).mp hcut]
      exact (if_pos hbyte).trans haction

/-- After any stream, a byte gives the action of an operating system command exactly when it
terminates one that the stream has open, and the action is that of the bytes collected since it was
opened; and so a device control string. No other byte gives an action, and the controls inside strings
are executed. -/
theorem strings_act_when_complete (stream : List UInt8) :
    ∃ parser, after stream = some parser ∧ ∀ byte, ∃ parser' operation action request,
      parser.advanceTaking byte = some (parser', operation, action, request) ∧
      (∀ osc, action = some osc ↔ ∃ terminator payload,
        CompletesString stream byte .osc terminator payload ∧ parseOsc payload terminator = some osc) ∧
      (∀ dcs, request = some dcs ↔ ∃ terminator payload,
        CompletesString stream byte .dcs terminator payload ∧ parseDcs payload = some dcs) ∧
      (isExecuted byte = true → c0Operation byte = some operation) := by
  obtain ⟨parser, hafter, htracks⟩ := tracks_after stream
  refine ⟨parser, hafter, fun byte => ?_⟩
  obtain ⟨parser', operation, hadvance, -, hexecuted⟩ := htracks.advanceTaking byte
  exact ⟨parser', operation, _, _, hadvance, fun _ => completedOsc_iff, fun _ => completedDcs_iff, hexecuted⟩

end Parser

end FesTerm
