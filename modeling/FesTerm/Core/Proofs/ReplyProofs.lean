import FesTerm.Core.Proofs.MoveProofs
import FesTerm.Core.Proofs.RunProofs

/-!
# The replies that are queued

A reply is taken whole or not at all, so the queue is a sequence of complete replies whatever the
order of queries, overflows and drains. No reply has a byte that a shell would take for the end of a
line: apart from the escape that opens it and the terminator, its bytes are printable.
-/

namespace FesTerm

open Checked List

/-- The bytes a reply may have: ESC, BEL and printable ASCII. -/
def Harmless (byte : UInt8) : Prop := byte = 0x1b ∨ byte = 0x07 ∨ 0x20 ≤ byte ∧ byte ≤ 0x7e

instance (byte : UInt8) : Decidable (Harmless byte) := inferInstanceAs (Decidable (_ ∨ _ ∨ _ ∧ _))

def Plain (text : String) : Prop := ∀ byte ∈ ascii text, Harmless byte

theorem ascii_append (text more : String) : ascii (text ++ more) = ascii text ++ ascii more := by
  rw [ascii, String.toList_append, map_append]
  rfl

variable {text : String}

theorem Plain.append {more : String} (h : Plain text) (h' : Plain more) : Plain (text ++ more) := by
  intro byte hbyte
  rw [ascii_append, mem_append] at hbyte
  rcases hbyte with hbyte | hbyte
  · exact h byte hbyte
  · exact h' byte hbyte

theorem plain_decimal (n : Nat) : Plain (toString n) := by
  intro byte hbyte
  obtain ⟨digit, hdigit, rfl⟩ := List.mem_map.mp hbyte
  rw [Nat.toString_eq_repr, Nat.toList_repr] at hdigit
  have hisDigit := Nat.isDigit_of_mem_toDigits (by decide) (by decide) hdigit
  rw [Char.isDigit, Bool.and_eq_true, decide_eq_true_eq, decide_eq_true_eq] at hisDigit
  obtain ⟨hlow, hhigh⟩ := hisDigit
  rw [ge_iff_le, UInt32.le_iff_toNat_le] at hlow
  rw [UInt32.le_iff_toNat_le] at hhigh
  have hlow' : 48 ≤ digit.toNat := hlow
  have hhigh' : digit.toNat ≤ 57 := hhigh
  refine .inr (.inr ?_)
  rw [UInt8.le_iff_toNat_le, UInt8.le_iff_toNat_le, UInt8.toNat_ofNat_of_lt' (by
    show digit.toNat < 256
    omega)]
  exact ⟨Nat.le_trans (by decide) hlow', Nat.le_trans hhigh' (by decide)⟩

variable (upper : Bool)

theorem hexDigit_harmless : ∀ digit < 16, Harmless (UInt8.ofNat (hexDigit upper digit).toNat) := by
  cases upper <;> decide

theorem plain_hexDigits (value : Nat) : Plain (hexDigits upper value) := by
  intro byte hbyte
  obtain ⟨character, hcharacter, rfl⟩ := List.mem_map.mp hbyte
  rw [hexDigits, String.toList_ofList, List.mem_map] at hcharacter
  obtain ⟨digit, hdigit, rfl⟩ := hcharacter
  apply hexDigit_harmless upper
  simp only [mem_cons, not_mem_nil, or_false] at hdigit
  rcases hdigit with rfl | rfl | rfl | rfl
  all_goals exact Nat.mod_lt _ (by decide)

/-- The texts between the numbers of a reply. -/
def frameTexts : List String :=
  ["", "/", "rgb:", ":", ":5:", ":2::", ";", "\x1b[", "\x1b[?", "$y", "R", "t", "!~", "\x1bP", "\x1bP1$r",
    "\x1b\\", "\x1b]", "\x1b]4;"]

theorem plain_frameTexts : ∀ text ∈ frameTexts ++ fixedReplies, Plain text := by
  simp only [frameTexts, fixedReplies, cons_append, nil_append, forall_mem_cons, Plain, ascii]
  simp [Harmless]

theorem plain_frame (h : text ∈ frameTexts) : Plain text :=
  plain_frameTexts text (mem_append_left _ h)

theorem plain_toXparsecolor (color : Rgb) : Plain color.toXparsecolor := by
  have hslash : Plain "/" := plain_frame (by simp [frameTexts])
  have hhead : Plain "rgb:" := plain_frame (by simp [frameTexts])
  exact ((((hhead.append (plain_hexDigits _ _)).append hslash).append (plain_hexDigits _ _)).append
    hslash).append (plain_hexDigits _ _)

theorem plain_parameter {parameter : String} (h : Parameter parameter) : Plain parameter := by
  have hcolon : Plain ":" := plain_frame (by simp [frameTexts])
  cases h with
  | decimal value => exact plain_decimal value
  | indexed extended index =>
    have hkey : Plain ":5:" := plain_frame (by simp [frameTexts])
    exact ((plain_decimal extended).append hkey).append (plain_decimal index.toNat)
  | rgb extended red green blue =>
    have hspace : Plain ":2::" := plain_frame (by simp [frameTexts])
    exact (((((plain_decimal extended).append hspace).append (plain_decimal red.toNat)).append
      hcolon).append (plain_decimal green.toNat)).append hcolon |>.append (plain_decimal blue.toNat)

theorem plain_parameters {parameters : List String} (h : ∀ parameter ∈ parameters, Parameter parameter) :
    Plain (String.intercalate ";" parameters) := by
  induction parameters with
  | nil =>
    rw [String.intercalate_nil]
    exact plain_frame (by simp [frameTexts])
  | cons parameter rest ih =>
    have hfirst := plain_parameter (h parameter mem_cons_self)
    cases rest with
    | nil =>
      rw [String.intercalate_singleton]
      exact hfirst
    | cons next rest =>
      have hrest := ih fun parameter hmem => h parameter (mem_cons_of_mem _ hmem)
      rw [String.intercalate_cons_cons]
      exact (hfirst.append (show Plain ";" from plain_frame (by simp [frameTexts]))).append hrest

theorem terminator_harmless (terminator : StringTerminator) : ∀ byte ∈ terminator.bytes, Harmless byte := by
  intro byte hbyte
  cases terminator <;> simp only [StringTerminator.bytes, mem_cons, not_mem_nil, or_false] at hbyte
  · rcases hbyte with rfl | rfl <;> decide
  · rw [hbyte]
    decide

variable {bytes : List UInt8}

theorem harmless_append {more : List UInt8} (h : ∀ byte ∈ bytes, Harmless byte)
    (h' : ∀ byte ∈ more, Harmless byte) : ∀ byte ∈ bytes ++ more, Harmless byte := by
  intro byte hbyte
  rcases mem_append.mp hbyte with hbyte | hbyte
  · exact h byte hbyte
  · exact h' byte hbyte

/-- A reply types nothing: it has no carriage return, no line feed and no other control byte than those
that frame it. -/
theorem Reply.harmless {schemes : ColorScheme → Prop} (h : Reply schemes bytes) :
    ∀ byte ∈ bytes, Harmless byte := by
  have hsemicolon : Plain ";" := plain_frame (by simp [frameTexts])
  have hescape : Plain "\x1b[" := plain_frame (by simp [frameTexts])
  have hquestion : Plain "\x1b[?" := plain_frame (by simp [frameTexts])
  have hreport : Plain "$y" := plain_frame (by simp [frameTexts])
  cases h with
  | fixed hfixed => exact plain_frameTexts _ (mem_append_right _ hfixed)
  | cursorPosition row column =>
    exact (((hescape.append (plain_decimal row)).append hsemicolon).append (plain_decimal column)).append
      (show Plain "R" from plain_frame (by simp [frameTexts]))
  | extendedCursorPosition row column =>
    exact (((hquestion.append (plain_decimal row)).append hsemicolon).append (plain_decimal column)).append
      (show Plain "R" from plain_frame (by simp [frameTexts]))
  | ansiMode mode state =>
    exact (((hescape.append (plain_decimal mode)).append hsemicolon).append (plain_decimal state)).append
      hreport
  | privateMode mode state =>
    exact (((hquestion.append (plain_decimal mode)).append hsemicolon).append (plain_decimal state)).append
      hreport
  | setting hparameters hselector =>
    have hselectors : ∀ selector ∈ statusSelectors, ∀ byte ∈ selector, Harmless byte := by decide +kernel
    have hhead : Plain "\x1bP1$r" := plain_frame (by simp [frameTexts])
    have htail : Plain "\x1b\\" := plain_frame (by simp [frameTexts])
    exact harmless_append (harmless_append (harmless_append hhead (plain_parameters hparameters))
      (hselectors _ hselector)) htail
  | checksum identifier checksum =>
    exact ((((show Plain "\x1bP" from plain_frame (by simp [frameTexts])).append (plain_decimal identifier)).append
      (show Plain "!~" from plain_frame (by simp [frameTexts]))).append (plain_hexDigits true checksum)).append
        (show Plain "\x1b\\" from plain_frame (by simp [frameTexts]))
  | size hkind rows columns =>
    exact (((((hescape.append (plain_decimal _)).append hsemicolon).append (plain_decimal rows)).append
      hsemicolon).append (plain_decimal columns)).append (show Plain "t" from plain_frame (by simp [frameTexts]))
  | palette hscheme index hcolor terminator =>
    have hhead : Plain "\x1b]4;" := plain_frame (by simp [frameTexts])
    exact harmless_append (((hhead.append (plain_decimal index.toNat)).append hsemicolon).append
      (plain_toXparsecolor _)) (terminator_harmless terminator)
  | dynamicColor hscheme hcolor terminator =>
    have hhead : Plain "\x1b]" := plain_frame (by simp [frameTexts])
    exact harmless_append (((hhead.append (plain_decimal _)).append hsemicolon).append
      (plain_toXparsecolor _)) (terminator_harmless terminator)

theorem Reply.mono {schemes schemes' : ColorScheme → Prop} (h : Reply schemes bytes)
    (hle : ∀ scheme, schemes scheme → schemes' scheme) : Reply schemes' bytes := by
  cases h with
  | fixed h => exact .fixed h
  | cursorPosition row column => exact .cursorPosition row column
  | extendedCursorPosition row column => exact .extendedCursorPosition row column
  | ansiMode mode state => exact .ansiMode mode state
  | privateMode mode state => exact .privateMode mode state
  | setting hparameters hselector => exact .setting hparameters hselector
  | checksum identifier checksum => exact .checksum identifier checksum
  | size hkind rows columns => exact .size hkind rows columns
  | palette hscheme index hcolor terminator => exact .palette (hle _ hscheme) index hcolor terminator
  | dynamicColor hscheme hcolor terminator => exact .dynamicColor (hle _ hscheme) hcolor terminator

/-- The queue is whole replies, one after the other. -/
def Replies (schemes : ColorScheme → Prop) (queue : List UInt8) : Prop :=
  ∃ replies : List (List UInt8), queue = replies.flatten ∧ ∀ reply ∈ replies, Reply schemes reply

theorem queueTransportBytes_spec {queue : List UInt8} (bytes : List UInt8)
    (h : queue.length ≤ transportQueueHighWatermark) :
    (queueTransportBytes queue bytes).1.length ≤ transportQueueHighWatermark ∧
      ((queueTransportBytes queue bytes).1 = queue ∨ (queueTransportBytes queue bytes).1 = queue ++ bytes) := by
  unfold queueTransportBytes
  by_cases hfull : transportQueueHighWatermark < queue.length
  · rw [if_pos hfull]
    exact ⟨h, .inl rfl⟩
  · rw [if_neg hfull]
    by_cases hfit : transportQueueHighWatermark - queue.length < bytes.length
    · rw [if_pos hfit]
      exact ⟨h, .inl rfl⟩
    · rw [if_neg hfit]
      refine ⟨?_, .inr rfl⟩
      show (queue ++ bytes).length ≤ _
      rw [length_append]
      omega

namespace Terminal

variable {terminal terminal' : Terminal} {schemes : ColorScheme → Prop}

/-- The queue of a terminal that was given certain schemes is in order. -/
structure Answering (schemes : ColorScheme → Prop) (terminal : Terminal) : Prop where
  scheme : schemes terminal.colorScheme
  length_le : terminal.replyQueue.length ≤ transportQueueHighWatermark
  replies : Replies schemes terminal.replyQueue

theorem Answering.congr (h : Answering schemes terminal) (hqueue : terminal'.replyQueue = terminal.replyQueue)
    (hscheme : terminal'.colorScheme = terminal.colorScheme) : Answering schemes terminal' where
  scheme := by rw [hscheme]; exact h.scheme
  length_le := by rw [hqueue]; exact h.length_le
  replies := by rw [hqueue]; exact h.replies

theorem setActiveBuffer_replies (terminal : Terminal) (buffer : BufferState) :
    (terminal.setActiveBuffer buffer).replyQueue = terminal.replyQueue ∧
      (terminal.setActiveBuffer buffer).colorScheme = terminal.colorScheme := by
  unfold setActiveBuffer
  cases terminal.activeScreen <;> exact ⟨rfl, rfl⟩

theorem Answering.queueReply (h : Answering schemes terminal)
    (hbytes : Reply (Eq terminal.colorScheme) bytes) : Answering schemes (terminal.queueReply bytes) := by
  obtain ⟨hlength, hqueue⟩ := queueTransportBytes_spec bytes h.length_le
  refine ⟨h.scheme, hlength, ?_⟩
  obtain ⟨replies, heq, hreplies⟩ := h.replies
  show Replies schemes (queueTransportBytes terminal.replyQueue bytes).1
  rcases hqueue with hqueue | hqueue
  · rw [hqueue]
    exact h.replies
  · rw [hqueue]
    refine ⟨replies ++ [bytes], by rw [flatten_append, ← heq, flatten_singleton], ?_⟩
    intro reply hreply
    rcases mem_append.mp hreply with hreply | hreply
    · exact hreplies reply hreply
    · rw [mem_singleton.mp hreply]
      exact hbytes.mono fun scheme hscheme => hscheme ▸ h.scheme

variable [Platform]

theorem Answering.move (h : Answering schemes terminal) (hmove : Move terminal terminal') :
    Answering schemes terminal' := by
  cases hmove with
  | pen hpen => exact h.congr hpen.replyQueue hpen.colorScheme
  | draw hb hedit =>
    obtain ⟨hqueue, hscheme⟩ := setActiveBuffer_replies terminal _
    exact h.congr hqueue hscheme
  | reply hbytes => exact h.queueReply hbytes
  | behind hscreen hedit | enter hscreen hb | leave hscreen => exact h.congr rfl rfl

theorem Answering.moves (h : Answering schemes terminal) (hmoves : Moves terminal terminal') :
    Answering schemes terminal' := by
  induction hmoves with
  | refl => exact h
  | tail _ hmove ih => exact ih.move hmove

theorem Answering.handle (h : Answering schemes terminal) (event : Event) :
    Ensures (terminal.handle event) (Answering schemes) := by
  cases event with
  | ingest bytes => exact (ingest_moves bytes).mono fun _ hmoves => h.moves hmoves
  | resize dimensions =>
    refine .bind fun ⟨resized, positions⟩ hresized => .some ?_
    obtain ⟨⟨primary, scrollback, moved⟩, -, hrest⟩ := Option.bind_eq_some_iff.mp hresized
    obtain ⟨alternate, -, heq⟩ := Option.bind_eq_some_iff.mp hrest
    cases heq
    exact h.congr rfl rfl
  | setScrollbackLimit limitBytes => exact .bind fun _ _ => .some (h.congr rfl rfl)
  | clearScrollback | resetToInitialState => exact .some (h.congr rfl rfl)
  | takeDirtyRows =>
    refine .bind fun ⟨rows, taken⟩ htaken => .some ?_
    obtain ⟨buffer, -, heq⟩ := Option.bind_eq_some_iff.mp htaken
    cases heq
    obtain ⟨hqueue, hscheme⟩ := setActiveBuffer_replies terminal _
    exact h.congr hqueue hscheme

theorem Answering.serve (h : Answering schemes terminal) (event : SessionEvent)
    (hscheme : ∀ scheme, event = .setColorScheme scheme → schemes scheme) :
    Ensures (terminal.serve event) (Answering schemes) := by
  cases event with
  | terminal event => exact h.handle event
  | setColorScheme scheme => exact .some ⟨hscheme scheme rfl, h.length_le, h.replies⟩
  | drainReplies => exact .some ⟨h.scheme, Nat.zero_le _, [], rfl, by simp⟩
  | takeReplyQueueOverflowed => exact .some (h.congr rfl rfl)

theorem Steady.serve {promise : Promise} (h : terminal.Steady promise) (event : SessionEvent)
    (hkeep : ∀ inner, event = .terminal inner → terminal.eventKeeps promise inner = true) :
    Yields (terminal.serve event) (Steady promise) := by
  cases event with
  | terminal event => exact h.handle event (hkeep event rfl)
  | setColorScheme scheme | drainReplies | takeReplyQueueOverflowed =>
    exact .some ⟨{ h.toGood with }, h.taken⟩

theorem Steady.serve_nothing (h : terminal.Steady .nothing) (event : SessionEvent) :
    Yields (terminal.serve event) (Steady .nothing) := by
  refine h.serve event fun inner _ => ?_
  cases inner with
  | ingest bytes => exact holdsAlong_of_all byteKeeps_nothing
  | _ => rfl

theorem serveAll_steady (dimensions : Dimensions) (limitBytes : ByteLimit) (events : List SessionEvent) :
    Yields ((withScrollbackLimit dimensions limitBytes).serveAll events) (Steady .nothing) :=
  foldlM_yields (withScrollbackLimit_steady dimensions limitBytes) fun _ event _ h =>
    h.serve_nothing event

/-- The schemes that replies may report: the default and those set in the session. -/
def SchemesOf (events : List SessionEvent) (scheme : ColorScheme) : Prop :=
  scheme = .default ∨ .setColorScheme scheme ∈ events

/-- Replies carry no text of the program's choice. Whatever a session does with its terminal and
whatever bytes the program sends, the queue holds at most 64 KiB, it is a sequence of complete replies,
and none of its bytes ends a line. -/
theorem replies_are_complete (dimensions : Dimensions) (limitBytes : ByteLimit) (events : List SessionEvent) :
    ∃ terminal, (withScrollbackLimit dimensions limitBytes).serveAll events = some terminal ∧
      terminal.replyQueue.length ≤ 64 * 1024 ∧ Replies (SchemesOf events) terminal.replyQueue ∧
      ∀ byte ∈ terminal.replyQueue, Harmless byte ∧ byte ≠ 0x0d ∧ byte ≠ 0x0a := by
  have hrun : Yields ((withScrollbackLimit dimensions limitBytes).serveAll events) fun terminal =>
      terminal.Steady .nothing ∧ Answering (SchemesOf events) terminal := by
    refine foldlM_yields ⟨withScrollbackLimit_steady dimensions limitBytes, .inl rfl, Nat.zero_le _,
      [], rfl, by simp⟩ fun terminal event hevent h => ?_
    obtain ⟨hsteady, hanswering⟩ := h
    obtain ⟨next, hnext, hsteady'⟩ := hsteady.serve_nothing event
    refine ⟨next, hnext, hsteady', ?_⟩
    refine hanswering.serve event (fun scheme hscheme => ?_) next hnext
    exact .inr (hscheme ▸ hevent)
  obtain ⟨terminal, hserve, -, hanswering⟩ := hrun
  refine ⟨terminal, hserve, hanswering.length_le, hanswering.replies, fun byte hbyte => ?_⟩
  obtain ⟨replies, heq, hreplies⟩ := hanswering.replies
  rw [heq, mem_flatten] at hbyte
  obtain ⟨reply, hreply, hbyte⟩ := hbyte
  have hharmless := (hreplies reply hreply).harmless byte hbyte
  refine ⟨hharmless, ?_, ?_⟩
  · rintro rfl
    revert hharmless
    decide
  · rintro rfl
    revert hharmless
    decide

end Terminal

end FesTerm
