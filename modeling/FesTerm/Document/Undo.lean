import FesTerm.Document.Edits

/-!
# Undo history

`undo.rs`: a bounded stack of transactions with a redo tail. An entry is a whole transaction; a run
of ordinary typing coalesces into one entry. Retained history is charged by allocated capacity, so
what `size_of` and the two `with_capacity` functions return is part of the model, as `Allocation`.

The deque of entries is a list beside the capacity of its buffer. Serials are natural numbers.
-/

namespace FesTerm.Document

open Checked Splicing

/-- The layout of the history's types and the capacities the allocator hands out. -/
class Allocation where
  /-- `size_of::<TextEdit>()`. -/
  sizeOfTextEdit : Nat
  /-- `size_of::<Transaction>()`. -/
  sizeOfTransaction : Nat
  /-- The capacity of `String::with_capacity(n)`. -/
  stringWithCapacity : Nat → Nat
  /-- The capacity of `VecDeque::with_capacity(n)`. -/
  dequeWithCapacity : Nat → Nat

/-- The layout on a 64-bit machine, with an allocator that hands out what it is asked for. -/
@[reducible] def Allocation.reference : Allocation where
  sizeOfTextEdit := 56
  sizeOfTransaction := 32
  stringWithCapacity n := n
  dequeWithCapacity n := n

/-- One undoable transaction: the edits that were applied, in order. `isOpen` says whether a
following single-character insertion may be merged into it. -/
structure Transaction where
  serial : Nat
  edits : List TextEdit
  isOpen : Bool
deriving DecidableEq

/-- The deque a retention plan has prepared for the entries, by its capacity, what it retires and
what is charged after it. -/
structure RetentionPlan where
  retired : Nat
  payloadBytes : Nat
  slots : Option Nat
deriving DecidableEq

/-- A transaction that was admitted but not committed. A `replacement` is the text of a coalesced
insertion that had to move, with its capacity. -/
structure PreparedUndo where
  edits : List TextEdit
  isOpen : Bool
  merge : Bool
  replacement : Option (Text × Nat)
  retention : RetentionPlan
deriving DecidableEq

/-- A bounded stack of transactions; the first `applied` entries are applied to the text. -/
structure UndoHistory where
  entries : List Transaction
  slotCapacity : Nat
  applied : Nat
  baseToken : Option Nat
  nextSerial : Nat
  maxEntries : Nat
  maxBytes : Nat
  payloadBytes : Nat
deriving DecidableEq

section Storage

variable [Allocation]

def editStorage (edits : List TextEdit) : Nat :=
  edits.length * Allocation.sizeOfTextEdit +
    (edits.map fun edit => edit.removedCapacity + edit.insertedCapacity).sum

/-- The bytes that its edits keep. -/
def Transaction.weight (transaction : Transaction) : Nat := editStorage transaction.edits

def slotStorage (capacity : Nat) : Nat := capacity * Allocation.sizeOfTransaction

end Storage

namespace UndoHistory

/-- No step yet; at least one is always retained. -/
def withLimits (maxEntries maxBytes : Nat) : UndoHistory where
  entries := []
  slotCapacity := 0
  applied := 0
  baseToken := none
  nextSerial := 1
  maxEntries := max maxEntries 1
  maxBytes := maxBytes
  payloadBytes := 0

def new : UndoHistory := withLimits 2048 (8 * 1024 * 1024)

/-- `UndoHistory::token`: the exact point in history the text currently sits at. -/
def token (history : UndoHistory) : Option Nat :=
  match history.applied with
  | 0 => history.baseToken
  | index + 1 => history.entries[index]?.map Transaction.serial

def canUndo (history : UndoHistory) : Bool := 0 < history.applied

def canRedo (history : UndoHistory) : Bool := history.applied < history.entries.length

/-- `self.entries[index].open = false`. -/
def closeEntry (history : UndoHistory) (index : Nat) : Option UndoHistory := do
  let entry ← history.entries[index]?
  let entries ← setAt history.entries index { entry with isOpen := false }
  return { history with entries := entries }

/-- `UndoHistory::close_transaction`: prevents the next edit from merging into the current
transaction. -/
def closeTransaction (history : UndoHistory) : Option UndoHistory :=
  match history.applied with
  | 0 => some history
  | index + 1 => history.closeEntry index

/-- `UndoHistory::mergeable`: only a single insertion without a line break that begins exactly where
the previous one ended continues it. -/
def mergeable (last : Transaction) (edits : List TextEdit) : Bool :=
  match last.edits.getLast?, edits with
  | some previous, [next] =>
    if !next.removed.isEmpty || next.inserted.contains '\n' then false
    else previous.removed.isEmpty && previous.start + utf8Len previous.inserted == next.start
  | _, _ => false

section Admission

variable [Allocation]

/-- The loop of `plan_retention` over the entries that may be retired: the number retired, the
remaining payload and the remaining count, or the bytes that do not fit. -/
def retire (maxEntries maxBytes : Nat) :
    List Transaction → Nat → Nat → Nat → Option (Except Nat (Nat × Nat × Nat))
  | retirable, retired, payloadBytes, count =>
    if count > maxEntries ∨ payloadBytes + slotStorage count > maxBytes then
      match retirable with
      | [] => some (.error (payloadBytes + slotStorage count))
      | entry :: retirable => do
        let payloadBytes ← sub payloadBytes entry.weight
        let count ← sub count 1
        retire maxEntries maxBytes retirable (retired + 1) payloadBytes count
    else some (.ok (retired, payloadBytes, count))

def planRetention (history : UndoHistory) (payloadBytes count protectedCount : Nat) :
    Option (Except Nat RetentionPlan) := do
  let retirable := history.entries.take (← sub history.applied protectedCount)
  match ← retire history.maxEntries history.maxBytes retirable 0 payloadBytes count with
  | .error bytes => return .error bytes
  | .ok (retired, payloadBytes, count) =>
    let maximumSlots := (← sub history.maxBytes payloadBytes) / Allocation.sizeOfTransaction
    if count ≤ history.slotCapacity ∧ history.slotCapacity ≤ maximumSlots then
      return .ok { retired, payloadBytes, slots := none }
    else
      let capacity :=
        min (min (max (max (history.slotCapacity * 2) 4) count) history.maxEntries) maximumSlots
      let slots := Allocation.dequeWithCapacity capacity
      let actualBytes := payloadBytes + slotStorage slots
      if actualBytes > history.maxBytes then return .error actualBytes
      else return .ok { retired, payloadBytes, slots := some slots }

/-- The text that `prepare` moves a coalesced insertion to when its buffer is too small. -/
def mergeReplacement (previous next : TextEdit) (maximumCapacity : Nat) : Option (Text × Nat) :=
  let needed := utf8Len previous.inserted + utf8Len next.inserted
  if needed > previous.insertedCapacity then
    let capacity := min (max (previous.insertedCapacity * 2) needed) maximumCapacity
    some (previous.inserted ++ next.inserted, Allocation.stringWithCapacity capacity)
  else none

/-- The coalescing branch of `prepare`; `none` inside when the edit must start a transaction of its
own. -/
def prepareMerge (history : UndoHistory) (edits : List TextEdit) (coalescable : Bool)
    (appliedBytes : Nat) : Option (Option PreparedUndo) := do
  match history.applied with
  | 0 => return none
  | index + 1 =>
    match history.entries[index]? with
    | none => return none
    | some last =>
      if coalescable && last.isOpen && mergeable last edits then
        let previous ← last.edits.getLast?
        let next ← edits[0]?
        let needed := utf8Len previous.inserted + utf8Len next.inserted
        let fixed ← sub last.weight previous.insertedCapacity
        let maximumCapacity := history.maxBytes - (fixed + slotStorage 1)
        if needed ≤ maximumCapacity then
          let replacement := mergeReplacement previous next maximumCapacity
          let capacity := replacement.elim previous.insertedCapacity Prod.snd
          let payloadBytes := (← sub appliedBytes last.weight) + (fixed + capacity)
          match ← history.planRetention payloadBytes history.applied 1 with
          | .error _ => return none
          | .ok retention =>
            return some { edits, isOpen := true, merge := true, replacement, retention }
        else return none
      else return none

/-- `UndoHistory::prepare`: stages allocations and admission without changing history or its redo
tail. -/
def prepare (history : UndoHistory) (edits : List TextEdit) (coalescable : Bool) :
    Option (Except RefusalReason (Option PreparedUndo)) := do
  let edits := edits.filter fun edit => edit.removed ≠ edit.inserted
  if edits.isEmpty then return .ok none
  let redoBytes := ((history.entries.drop history.applied).map Transaction.weight).sum
  let appliedBytes ← sub history.payloadBytes redoBytes
  match ← history.prepareMerge edits coalescable appliedBytes with
  | some prepared => return .ok (some prepared)
  | none =>
    let isOpen := coalescable && edits.length == 1 &&
      !edits.any fun edit => edit.inserted.contains '\n' || !edit.removed.isEmpty
    let payloadBytes := appliedBytes + editStorage edits
    match ← history.planRetention payloadBytes (history.applied + 1) 0 with
    | .error bytes => return .error (.undoStorageTooLarge bytes history.maxBytes)
    | .ok retention =>
      return .ok (some { edits, isOpen, merge := false, replacement := none, retention })

end Admission

/-- The part of `commit` that forgets the oldest entries. -/
def popFront : Nat → UndoHistory → Option UndoHistory
  | 0, history => some history
  | retired + 1, history =>
    match history.entries with
    | [] => none
    | entry :: entries =>
      popFront retired { history with entries := entries, baseToken := some entry.serial }

/-- The last entry of a history continued by a coalesced insertion. -/
def continueLast (history : UndoHistory) (prepared : PreparedUndo) : Option (List Transaction) := do
  let last ← history.entries.getLast?
  let previous ← last.edits.getLast?
  let next ← prepared.edits[0]?
  let (inserted, capacity) :=
    prepared.replacement.getD (previous.inserted ++ next.inserted, previous.insertedCapacity)
  let edits := last.edits.dropLast ++
    [{ previous with inserted := inserted, insertedCapacity := capacity }]
  return history.entries.dropLast ++ [{ last with edits := edits, serial := history.nextSerial }]

def commit (history : UndoHistory) (prepared : PreparedUndo) : Option UndoHistory := do
  let history := { history with entries := history.entries.take history.applied }
  let history ← popFront prepared.retention.retired history
  let history :=
    { history with slotCapacity := prepared.retention.slots.getD history.slotCapacity }
  let entries ←
    if prepared.merge then history.continueLast prepared
    else pure (history.entries ++ [⟨history.nextSerial, prepared.edits, prepared.isOpen⟩])
  return { history with
    entries := entries
    nextSerial := history.nextSerial + 1
    applied := entries.length
    payloadBytes := prepared.retention.payloadBytes }

/-- The charge: the texts and the slots. -/
def retainedBytes [Allocation] (history : UndoHistory) : Nat :=
  history.payloadBytes + slotStorage history.slotCapacity

/-- `UndoHistory::step_back`: the transaction to invert, and the history stepped back. -/
def stepBack (history : UndoHistory) : Option (Option (Transaction × UndoHistory)) :=
  match history.applied with
  | 0 => some none
  | index + 1 => do
    let history ← history.closeTransaction
    return history.entries[index]?.map fun entry => (entry, { history with applied := index })

/-- `UndoHistory::step_forward`: the transaction to re-apply, and the history stepped forward. -/
def stepForward (history : UndoHistory) : Option (Option (Transaction × UndoHistory)) :=
  match history.entries[history.applied]? with
  | none => some none
  | some entry => do
    let history ← history.closeEntry history.applied
    return some ({ entry with isOpen := false }, { history with applied := history.applied + 1 })

def clear (history : UndoHistory) : UndoHistory :=
  { history with entries := [], slotCapacity := 0, applied := 0, baseToken := none,
                 payloadBytes := 0 }

/-- A call of the document on its history. `record` prepares a transaction and commits it when the
candidate text is accepted. -/
inductive Call
  | record (edits : List TextEdit) (coalescable accepted : Bool)
  | closeTransaction
  | stepBack
  | stepForward
  | clear

/-- One call. -/
def call [Allocation] (history : UndoHistory) : Call → Option UndoHistory
  | .record edits coalescable accepted => do
    match ← history.prepare edits coalescable with
    | .ok (some prepared) => if accepted then history.commit prepared else return history
    | _ => return history
  | .closeTransaction => history.closeTransaction
  | .stepBack => do return (← history.stepBack).elim history Prod.snd
  | .stepForward => do return (← history.stepForward).elim history Prod.snd
  | .clear => some history.clear

/-- Calls in order; none where one panics. -/
def run [Allocation] (history : UndoHistory) (calls : List Call) : Option UndoHistory :=
  calls.foldlM call history

end UndoHistory

end FesTerm.Document
