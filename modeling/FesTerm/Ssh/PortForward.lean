import FesTerm.Lib.Index
import FesTerm.Lib.Runs

/-!
# Port forwards

`port_forward.rs`: the bindings that are reserved, the reservations of them, and the inventory of forwards with
the index over its entries. An operation on the reserved bindings holds their lock from its start to its end,
so that a run is a sequence of operations.

An incarnation is an allocation and is told from another one by its address. The allocator may hand out again
any address that nobody holds.
-/

namespace FesTerm.Ssh

def maxSshPortForwardEntries : Nat := 128

inductive SshPortForwardDirection where
  | localForward
  | remoteForward
  deriving DecidableEq

inductive SshPortForwardSource where
  | profile
  | ephemeral
  deriving DecidableEq

inductive SshPortForwardState where
  | active
  | failed
  deriving DecidableEq

inductive SshPortForwardConfigurationError where
  | emptyHost
  | controlCharacter
  | zeroPort
  | duplicateBinding
  | inventoryLimit
  deriving DecidableEq

inductive SshPortForwardRequestError where
  | notRunning
  | queueFull
  | closed
  | inventoryFull
  | invalidConfiguration (error : SshPortForwardConfigurationError)
  deriving DecidableEq

structure PortForwardBindingKey where
  direction : SshPortForwardDirection
  bindHost : String
  bindPort : UInt16
  deriving DecidableEq

structure SshPortForwardRuntime where
  direction : SshPortForwardDirection
  bindHost : String
  bindPort : UInt16
  destinationHost : String
  destinationPort : UInt16
  source : SshPortForwardSource
  state : SshPortForwardState
  failureReason : Option String
  deriving DecidableEq

structure RequestedSshPortForward where
  direction : SshPortForwardDirection
  bindHost : String
  bindPort : UInt16
  destinationHost : String
  destinationPort : UInt16
  source : SshPortForwardSource
  deriving DecidableEq

namespace RequestedSshPortForward

def bindingKey (requested : RequestedSshPortForward) : PortForwardBindingKey where
  direction := requested.direction
  bindHost := requested.bindHost
  bindPort := requested.bindPort

def runtime (requested : RequestedSshPortForward) (state : SshPortForwardState) (failureReason : Option String) :
    SshPortForwardRuntime where
  direction := requested.direction
  bindHost := requested.bindHost
  bindPort := requested.bindPort
  destinationHost := requested.destinationHost
  destinationPort := requested.destinationPort
  source := requested.source
  state
  failureReason

end RequestedSshPortForward

structure PortForwardIncarnation where
  address : Nat
  /-- Which allocation it is, counted from the first. The code cannot see it. -/
  allocation : Nat
  deriving DecidableEq

/-- `matches`: the two point to the same allocation. -/
def PortForwardIncarnation.ptrEq (incarnation other : PortForwardIncarnation) : Bool :=
  incarnation.address = other.address

/-- The claim on a binding, and which of its lives it is. -/
structure PortForwardReservation where
  key : PortForwardBindingKey
  generation : UInt64
  incarnation : PortForwardIncarnation
  deriving DecidableEq

structure AdmittedPortForward where
  requested : RequestedSshPortForward
  reservation : PortForwardReservation
  deriving DecidableEq

structure PortForwardAdmissions where
  generation : UInt64
  bindings : Table PortForwardBindingKey PortForwardIncarnation

namespace PortForwardAdmissions

def reset (generation : UInt64) : PortForwardAdmissions where
  generation
  bindings := .empty

/-- The incarnation is the allocation that is made where the binding is admitted. -/
def reserve (admissions : PortForwardAdmissions) (requested : RequestedSshPortForward) (generation : UInt64)
    (incarnation : PortForwardIncarnation) :
    Except SshPortForwardRequestError (AdmittedPortForward × PortForwardAdmissions) :=
  if generation ≠ admissions.generation then .error .notRunning
  else if admissions.bindings.contains requested.bindingKey then
    .error (.invalidConfiguration .duplicateBinding)
  else if admissions.bindings.entries.length = maxSshPortForwardEntries then .error .inventoryFull
  else .ok (⟨requested, ⟨requested.bindingKey, generation, incarnation⟩⟩,
    { admissions with bindings := admissions.bindings.insert requested.bindingKey incarnation })

def incarnation (admissions : PortForwardAdmissions) (key : PortForwardBindingKey) : Option PortForwardIncarnation :=
  admissions.bindings.get key

end PortForwardAdmissions

namespace PortForwardReservation

def isCurrent (reservation : PortForwardReservation) (admissions : PortForwardAdmissions) : Bool :=
  admissions.generation = reservation.generation &&
    (admissions.bindings.get reservation.key).any fun incarnation => incarnation.ptrEq reservation.incarnation

def drop (reservation : PortForwardReservation) (admissions : PortForwardAdmissions) : PortForwardAdmissions :=
  if admissions.generation = reservation.generation &&
      (admissions.bindings.get reservation.key).any fun incarnation => incarnation.ptrEq reservation.incarnation then
    { admissions with bindings := admissions.bindings.erase reservation.key }
  else admissions

end PortForwardReservation

structure ActivePortForward where
  requested : RequestedSshPortForward
  runtime : SshPortForwardRuntime
  reservation : PortForwardReservation
  deriving DecidableEq

def ActivePortForward.key (forward : ActivePortForward) : PortForwardBindingKey := forward.reservation.key

structure PortForwardInventory where
  entries : List ActivePortForward
  bindings : Table PortForwardBindingKey Nat
  dirty : Bool

namespace PortForwardInventory

def empty : PortForwardInventory where
  entries := []
  bindings := .empty
  dirty := true

/-- Nothing where an assertion fails. -/
def insert (inventory : PortForwardInventory) (forward : ActivePortForward) : Option PortForwardInventory :=
  if inventory.entries.length < maxSshPortForwardEntries ∧ inventory.bindings.contains forward.key = false then
    some {
      entries := inventory.entries ++ [forward]
      bindings := inventory.bindings.insert forward.key inventory.entries.length
      dirty := true }
  else none

/-- The outer option is none where the index is beyond the entries. -/
def get (inventory : PortForwardInventory) (key : PortForwardBindingKey) : Option (Option ActivePortForward) :=
  match inventory.bindings.get key with
  | none => some none
  | some index => inventory.entries[index]?.map some

def getCurrent (inventory : PortForwardInventory) (key : PortForwardBindingKey)
    (incarnation : PortForwardIncarnation) : Option (Option ActivePortForward) := do
  let forward ← inventory.get key
  return forward.filter fun forward =>
    forward.runtime.state = .active && forward.reservation.incarnation.ptrEq incarnation

/-- The entries behind the one that is removed are indexed anew. -/
def remove (inventory : PortForwardInventory) (key : PortForwardBindingKey) :
    Option (Option ActivePortForward × PortForwardInventory) :=
  match inventory.bindings.get key with
  | none => some (none, inventory)
  | some index => do
    let forward ← inventory.entries[index]?
    let entries := inventory.entries.eraseIdx index
    let bindings ← (inventory.bindings.erase key).renumber ((entries.drop index).map (·.key)) index
    return (some forward, { entries, bindings := if entries.isEmpty then .empty else bindings, dirty := true })

end PortForwardInventory

/-- Who holds which binding: the admissions, the inventory, the listeners. -/
structure PortForwards where
  admissions : PortForwardAdmissions
  inventory : PortForwardInventory
  /-- The reservations outside the inventory: in the command queue, of a forward that is being started, or of one
  that was removed and is being stopped. -/
  held : List AdmittedPortForward
  /-- The incarnations that the listeners and the queued connections hold, with the binding they are for. -/
  tokens : List (PortForwardBindingKey × PortForwardIncarnation)
  /-- How many incarnations were allocated. -/
  allocated : Nat
  /-- How many were allocated when the admissions were last reset. -/
  since : Nat

/-- A step of the registry, the queue or a listener. -/
inductive PortForwardOp where
  | reset (generation : UInt64)
  /-- The address is the one that the allocator picks. -/
  | reserve (requested : RequestedSshPortForward) (generation : UInt64) (address : Nat)
  /-- A reservation outside the inventory is dropped. -/
  | drop (position : Nat)
  | insert (position : Nat) (state : SshPortForwardState) (failureReason : Option String)
  | remove (key : PortForwardBindingKey)
  /-- A listener is started for a forward that is not in the inventory yet. -/
  | listen (position : Nat)
  /-- A connection is accepted by a listener, or its token is cloned otherwise. -/
  | accept (position : Nat)
  /-- The server opens a channel for a remote forward. -/
  | forwarded (key : PortForwardBindingKey)
  /-- A listener ends, or a queued connection is dropped. -/
  | forget (position : Nat)

namespace PortForwards

/-- No forward. -/
def start : PortForwards where
  admissions := .reset 0
  inventory := .empty
  held := []
  tokens := []
  allocated := 0
  since := 0

/-- All reservations, inside and outside the inventory. -/
def reservations (forwards : PortForwards) : List PortForwardReservation :=
  forwards.held.map (·.reservation) ++ forwards.inventory.entries.map (·.reservation)

/-- Every incarnation that somebody holds. -/
def incarnations (forwards : PortForwards) : List PortForwardIncarnation :=
  forwards.admissions.bindings.entries.map Prod.snd ++ forwards.reservations.map (·.incarnation) ++
    forwards.tokens.map Prod.snd

/-- Nothing where the program stops, and where the allocator would hand out what is held. -/
def step (forwards : PortForwards) : PortForwardOp → Option PortForwards
  | .reset generation => some { forwards with admissions := .reset generation, since := forwards.allocated }
  | .reserve requested generation address =>
    if address ∈ forwards.incarnations.map (·.address) then none
    else
      match forwards.admissions.reserve requested generation ⟨address, forwards.allocated⟩ with
      | .error _ => some forwards
      | .ok (admitted, admissions) => some { forwards with
          admissions, held := forwards.held ++ [admitted], allocated := forwards.allocated + 1 }
  | .drop position => do
    let admitted ← forwards.held[position]?
    return { forwards with
      held := forwards.held.eraseIdx position, admissions := admitted.reservation.drop forwards.admissions }
  | .insert position state failureReason => do
    let admitted ← forwards.held[position]?
    let inventory ← forwards.inventory.insert
      { requested := admitted.requested
        runtime := admitted.requested.runtime state failureReason
        reservation := admitted.reservation }
    return { forwards with held := forwards.held.eraseIdx position, inventory }
  | .remove key => do
    let (forward, inventory) ← forwards.inventory.remove key
    return { forwards with
      inventory
      held := forwards.held ++ forward.toList.map fun forward => ⟨forward.requested, forward.reservation⟩ }
  | .listen position => do
    let admitted ← forwards.held[position]?
    return { forwards with
      tokens := forwards.tokens ++ [(admitted.requested.bindingKey, admitted.reservation.incarnation)] }
  | .accept position => do
    let token ← forwards.tokens[position]?
    return { forwards with tokens := forwards.tokens ++ [token] }
  | .forwarded key =>
    match forwards.admissions.incarnation key with
    | none => some forwards
    | some incarnation => some { forwards with tokens := forwards.tokens ++ [(key, incarnation)] }
  | .forget position => some { forwards with tokens := forwards.tokens.eraseIdx position }

/-- It was made since the last reset. -/
def OfCurrentGeneration (forwards : PortForwards) (reservation : PortForwardReservation) : Prop :=
  forwards.since ≤ reservation.incarnation.allocation

/-- A reset brings a generation that no reservation has. -/
def NewGeneration (forwards : PortForwards) : PortForwardOp → Prop
  | .reset generation => ∀ reservation ∈ forwards.reservations, reservation.generation ≠ generation
  | _ => True

/-- What is promised of the bookkeeping. -/
structure Unconfused (forwards : PortForwards) : Prop where
  index : ∀ key position, forwards.inventory.bindings.get key = some position ↔
    ∃ entry, forwards.inventory.entries[position]? = some entry ∧ entry.key = key
  limit : forwards.admissions.bindings.entries.length ≤ maxSshPortForwardEntries
  reserved : ∀ key, forwards.admissions.bindings.contains key ↔
    ∃ reservation ∈ forwards.reservations, reservation.key = key ∧ forwards.OfCurrentGeneration reservation
  /-- A binding is reserved as the newest of its reservations. -/
  newest : ∀ key incarnation, forwards.admissions.bindings.get key = some incarnation →
    ∃ reservation ∈ forwards.reservations, reservation.key = key ∧ reservation.incarnation = incarnation ∧
      ∀ other ∈ forwards.reservations, other.key = key → other ≠ reservation →
        other.incarnation.allocation < incarnation.allocation
  current : ∀ reservation ∈ forwards.reservations,
    reservation.isCurrent forwards.admissions ↔ forwards.OfCurrentGeneration reservation
  /-- Only a reset and the drop of its own reservation release a binding. -/
  released : ∀ op after key incarnation, forwards.step op = some after →
    forwards.admissions.bindings.get key = some incarnation → after.admissions.bindings.get key ≠ some incarnation →
    (∃ generation, op = .reset generation) ∨ ∃ position admitted, op = .drop position ∧
      forwards.held[position]? = some admitted ∧ admitted.reservation.key = key ∧
      admitted.reservation.incarnation = incarnation
  /-- A connection finds the forward that accepted it or none. -/
  lookup : ∀ key incarnation, (key, incarnation) ∈ forwards.tokens →
    ∃ found, forwards.inventory.getCurrent key incarnation = some found ∧
      ∀ entry ∈ found, entry ∈ forwards.inventory.entries ∧ entry.key = key ∧ entry.runtime.state = .active ∧
        entry.reservation.incarnation = incarnation
  /-- The assertions of `insert` hold for a current reservation where every entry is current. -/
  inserted : ∀ position admitted state failureReason, forwards.held[position]? = some admitted →
    admitted.reservation.isCurrent forwards.admissions →
    (∀ entry ∈ forwards.inventory.entries, entry.reservation.isCurrent forwards.admissions) →
    ∃ after, forwards.step (.insert position state failureReason) = some after

end PortForwards

end FesTerm.Ssh
