import FesTerm.Core.Dispatch

/-!
# Replies

What a terminal may write back to the program it shows: `Reply` lists the forms of all its answers,
with the numbers and colours that vary in them. Below stand the operations by which an embedder sets
the colours that are reported and takes the replies that are queued.
-/

namespace FesTerm

/-- A parameter of a graphics rendition report: a number or an extended colour. -/
inductive Parameter : String → Prop
  | decimal (value : Nat) : Parameter (toString value)
  | indexed (extended : Nat) (index : UInt8) : Parameter s!"{extended}:5:{index}"
  | rgb (extended : Nat) (red green blue : UInt8) :
    Parameter s!"{extended}:2::{red}:{green}:{blue}"

def statusSelectors : List (List UInt8) :=
  [ascii "m", ascii "r", ascii "s", ascii "\"q", ascii " q"]

/-- The replies in which nothing varies: DSR, DECDSR, the device attributes and the refusal of
DECRQSS. -/
def fixedReplies : List String :=
  ["\x1b[0n", "\x1b[?13n", "\x1b[?21n", "\x1b[?50n", "\x1b[?57;0n", "\x1b[0*\x7b", "\x1b[?70n",
    "\x1b[?83n", "\x1b[>0;0;0c", "\x1b[?6c", "\x1bP0$r\x1b\\"]

/-- A complete reply of a terminal that was given the colours of certain schemes. -/
inductive Reply (schemes : ColorScheme → Prop) : List UInt8 → Prop
  | fixed {text : String} (h : text ∈ fixedReplies) : Reply schemes (ascii text)
  /-- CPR. -/
  | cursorPosition (row column : Nat) : Reply schemes (ascii s!"\x1b[{row};{column}R")
  /-- DECXCPR. -/
  | extendedCursorPosition (row column : Nat) : Reply schemes (ascii s!"\x1b[?{row};{column}R")
  /-- DECRPM for an ANSI mode. -/
  | ansiMode (mode state : Nat) : Reply schemes (ascii s!"\x1b[{mode};{state}$y")
  /-- DECRPM for a DEC private mode. -/
  | privateMode (mode state : Nat) : Reply schemes (ascii s!"\x1b[?{mode};{state}$y")
  /-- DECRPSS for a known selector. -/
  | setting {parameters : List String} {selector : List UInt8}
    (hparameters : ∀ parameter ∈ parameters, Parameter parameter) (hselector : selector ∈ statusSelectors) :
    Reply schemes (ascii "\x1bP1$r" ++ ascii (String.intercalate ";" parameters) ++ selector ++
      ascii "\x1b\\")
  /-- DECCKSR. -/
  | checksum (identifier checksum : Nat) :
    Reply schemes (ascii s!"\x1bP{identifier}!~{hexDigits true checksum}\x1b\\")
  /-- The size of the text area or of the display. -/
  | size {kind : Nat} (h : kind = 8 ∨ kind = 9) (rows columns : Nat) :
    Reply schemes (ascii s!"\x1b[{kind};{rows};{columns}t")
  /-- A palette colour of the scheme. -/
  | palette {scheme : ColorScheme} (h : schemes scheme) (index : UInt8) {color : Rgb}
    (hcolor : scheme.palette index = some color) (terminator : StringTerminator) :
    Reply schemes (ascii (s!"\x1b]4;{index};" ++ color.toXparsecolor) ++ terminator.bytes)
  /-- A dynamic colour of the scheme. -/
  | dynamicColor {scheme : ColorScheme} (h : schemes scheme) {selector : Nat} {color : Rgb}
    (hcolor : (selector, color) ∈ [(10, scheme.foreground), (11, scheme.background), (12, scheme.cursor)])
    (terminator : StringTerminator) :
    Reply schemes (ascii (s!"\x1b]{selector};" ++ color.toXparsecolor) ++ terminator.bytes)

namespace Terminal

def setColorScheme (terminal : Terminal) (scheme : ColorScheme) : Terminal :=
  { terminal with colorScheme := scheme }

def drainReplies (terminal : Terminal) : List UInt8 × Terminal :=
  (terminal.replyQueue, { terminal with replyQueue := [] })

def takeReplyQueueOverflowed (terminal : Terminal) : Bool × Terminal :=
  (terminal.replyQueueOverflowed, { terminal with replyQueueOverflowed := false })

/-- What a session does with the terminal it serves. -/
inductive SessionEvent where
  | terminal (event : Event)
  | setColorScheme (scheme : ColorScheme)
  | drainReplies
  | takeReplyQueueOverflowed

variable [Platform]

def serve (terminal : Terminal) : SessionEvent → Option Terminal
  | .terminal event => terminal.handle event
  | .setColorScheme scheme => some (terminal.setColorScheme scheme)
  | .drainReplies => some terminal.drainReplies.2
  | .takeReplyQueueOverflowed => some terminal.takeReplyQueueOverflowed.2

/-- Events of a session, in order. -/
def serveAll (terminal : Terminal) (events : List SessionEvent) : Option Terminal :=
  events.foldlM serve terminal

end Terminal

end FesTerm
