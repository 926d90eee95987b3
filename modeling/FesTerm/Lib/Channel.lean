import Mathlib

/-!
# Bounded channels

A queue between threads with room for a fixed number of items, and with its two ends: once the receiver
is gone nothing can be sent, and once the senders are gone the receiver still takes what was queued.
Neither operation waits; each says what it found.
-/

/-- What `try_send` found. -/
inductive TrySend where
  | sent
  | full
  | disconnected
  deriving DecidableEq

/-- What `try_recv` found. -/
inductive TryRecv (α : Type) where
  | item (item : α)
  | empty
  | disconnected
  deriving DecidableEq

structure Channel (α : Type) where
  capacity : Nat
  items : List α
  /-- Some sender is left. -/
  sender : Bool
  receiver : Bool
  within : items.length ≤ capacity
  deriving DecidableEq

namespace Channel

variable {α : Type}

def new (α : Type) (capacity : Nat) : Channel α := ⟨capacity, [], true, true, Nat.zero_le _⟩

def trySend (channel : Channel α) (item : α) : TrySend × Channel α :=
  if !channel.receiver then (.disconnected, channel)
  else if h : channel.items.length < channel.capacity then
    (.sent, { channel with
      items := channel.items ++ [item]
      within := by rw [List.length_append]; exact h })
  else (.full, channel)

/-- The queue without its first item. -/
def pop (channel : Channel α) : Channel α :=
  { channel with
    items := channel.items.tail
    within := by rw [List.length_tail]; exact (Nat.sub_le _ _).trans channel.within }

def tryRecv (channel : Channel α) : TryRecv α × Channel α :=
  match channel.items with
  | item :: _ => (.item item, channel.pop)
  | [] => (if channel.sender then .empty else .disconnected, channel)

def dropSender (channel : Channel α) : Channel α := { channel with sender := false }

def dropReceiver (channel : Channel α) : Channel α := { channel with receiver := false }

/-- The outcome of a send, with the queue that it leaves. -/
inductive Sending (channel : Channel α) (item : α) : TrySend × Channel α → Prop
  | sent {channel' : Channel α} (hreceiver : channel.receiver)
    (hitems : channel'.items = channel.items ++ [item]) (hcapacity : channel'.capacity = channel.capacity)
    (hsender : channel'.sender = channel.sender) (hreceiver' : channel'.receiver = channel.receiver) :
    Sending channel item (.sent, channel')
  | full (hreceiver : channel.receiver) (hfull : channel.items.length = channel.capacity) :
    Sending channel item (.full, channel)
  | disconnected (hreceiver : channel.receiver = false) : Sending channel item (.disconnected, channel)

theorem trySend_sending (channel : Channel α) (item : α) : Sending channel item (channel.trySend item) := by
  unfold trySend
  by_cases hreceiver : channel.receiver
  · rw [hreceiver]
    by_cases hroom : channel.items.length < channel.capacity
    · rw [dif_pos hroom]
      exact .sent hreceiver rfl rfl rfl hreceiver.symm
    · rw [dif_neg hroom]
      have hwithin := channel.within
      exact .full hreceiver (by omega)
  · rw [Bool.not_eq_true] at hreceiver
    rw [hreceiver]
    exact .disconnected hreceiver

@[simp] theorem pop_items (channel : Channel α) : channel.pop.items = channel.items.tail := rfl
@[simp] theorem pop_sender (channel : Channel α) : channel.pop.sender = channel.sender := rfl
@[simp] theorem pop_receiver (channel : Channel α) : channel.pop.receiver = channel.receiver := rfl
@[simp] theorem dropSender_items (channel : Channel α) : channel.dropSender.items = channel.items := rfl
@[simp] theorem dropReceiver_items (channel : Channel α) : channel.dropReceiver.items = channel.items := rfl

/-- The outcome of a receive, with the queue that it leaves. -/
inductive Receiving (channel : Channel α) : TryRecv α × Channel α → Prop
  | item {item : α} {channel' : Channel α} (hitems : channel.items = item :: channel'.items)
    (hcapacity : channel'.capacity = channel.capacity) (hsender : channel'.sender = channel.sender)
    (hreceiver : channel'.receiver = channel.receiver) : Receiving channel (.item item, channel')
  | empty (hitems : channel.items = []) (hsender : channel.sender) : Receiving channel (.empty, channel)
  | disconnected (hitems : channel.items = []) (hsender : channel.sender = false) :
    Receiving channel (.disconnected, channel)

theorem tryRecv_receiving (channel : Channel α) : Receiving channel channel.tryRecv := by
  unfold tryRecv
  split
  · next item items hitems => exact .item (by rw [pop_items, hitems]; rfl) rfl rfl rfl
  · next hitems =>
    by_cases hsender : channel.sender
    · rw [if_pos hsender]
      exact .empty hitems hsender
    · rw [if_neg hsender]
      exact .disconnected hitems (Bool.not_eq_true _ ▸ hsender)

variable {channel channel' : Channel α} {item : α}

theorem items_of_recv
    (h : channel.tryRecv = (.item item, channel')) : channel.items = item :: channel'.items := by
  have hreceiving := channel.tryRecv_receiving
  rw [h] at hreceiving
  cases hreceiving with
  | item hitems => exact hitems

theorem receiver_of_recv {result : TryRecv α}
    (h : channel.tryRecv = (result, channel')) : channel'.receiver = channel.receiver := by
  have hreceiving := channel.tryRecv_receiving
  rw [h] at hreceiving
  cases hreceiving with
  | item _ _ _ hreceiver => exact hreceiver
  | empty | disconnected => rfl

theorem sender_of_recv {result : TryRecv α}
    (h : channel.tryRecv = (result, channel')) : channel'.sender = channel.sender := by
  have hreceiving := channel.tryRecv_receiving
  rw [h] at hreceiving
  cases hreceiving with
  | item _ _ hsender => exact hsender
  | empty | disconnected => rfl

theorem items_of_send
    (h : channel.trySend item = (.sent, channel')) : channel'.items = channel.items ++ [item] := by
  have hsending := channel.trySend_sending item
  rw [h] at hsending
  cases hsending with
  | sent _ hitems => exact hitems

theorem sender_of_send {result : TrySend}
    (h : channel.trySend item = (result, channel')) : channel'.sender = channel.sender := by
  have hsending := channel.trySend_sending item
  rw [h] at hsending
  cases hsending with
  | sent _ _ _ hsender => exact hsender
  | full | disconnected => rfl

theorem receiver_of_send {result : TrySend}
    (h : channel.trySend item = (result, channel')) : channel'.receiver = channel.receiver := by
  have hsending := channel.trySend_sending item
  rw [h] at hsending
  cases hsending with
  | sent _ _ _ _ hreceiver => exact hreceiver
  | full | disconnected => rfl

theorem receiver_of_unsent
    (h : channel.trySend item = (.disconnected, channel')) : channel.receiver = false := by
  have hsending := channel.trySend_sending item
  rw [h] at hsending
  cases hsending with
  | disconnected hreceiver => exact hreceiver

theorem sender_of_unfed (h : channel.tryRecv = (.disconnected, channel')) : channel.sender = false := by
  have hreceiving := channel.tryRecv_receiving
  rw [h] at hreceiving
  cases hreceiving with
  | disconnected _ hsender => exact hsender

end Channel
