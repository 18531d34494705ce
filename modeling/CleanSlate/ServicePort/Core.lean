import CleanSlate.Lib.Ring
import CleanSlate.ServicePort.Transfer

/-!
# The port core: pools, queues and lookups

The data of `port/src/engine.rs` and its read-only internals. Counters the source keeps in `u8` and
`u16` are `Nat`s bounded by the checks before each increment; sequence numbers wrap at `2 ^ 64` and
skip `0`, as `Port::next_seq` does.
-/

namespace CleanSlate.ServicePort

open Lib
open Capability

variable {P C N : Nat} {B : Type}

inductive RegistrationError where
  | classHasNoPort
  | params (error : PortParamError)
  | alreadyRegistered
  | registryFull
  | serverNotLive
  deriving DecidableEq, Repr

/-- The server's work set and the bits its requests and notices set. -/
structure WakeBinding (B : Type) where
  target : B
  requestBit : UInt32
  noticeBit : UInt32
  deriving DecidableEq

/-! ## Requests and events -/

def placeholderConnection : ConnectionId := ⟨0, 1⟩

structure Request where
  /-- 0 marks a free entry. -/
  seq : Nat
  connection : ConnectionId
  pid : UInt64
  domain : UInt64
  generation : UInt64
  rights : UInt32
  transfer : Option TransferredCap
  frame : Frame
  deriving DecidableEq

def Request.empty : Request where
  seq := 0
  connection := placeholderConnection
  pid := 0
  domain := 0
  generation := 0
  rights := 0
  transfer := none
  frame := zeroFrame

def Request.isLive (self : Request) : Bool := self.seq ≠ 0

@[simp] theorem Request.isLive_empty : Request.empty.isLive = false := rfl

/-- A frame queued for a client. -/
structure QueuedEvent where
  seq : Nat
  frame : Frame
  deriving DecidableEq

def QueuedEvent.empty : QueuedEvent := ⟨0, zeroFrame⟩

/-! ## Connections -/

inductive ConnState where
  | free
  | «open»
  /-- The client closed, exited or lost its capability; the slot is the server's notice. -/
  | closePending (kind : RecvKind) (reason : UInt32)
  /-- The server disconnected; queued events stay deliverable before `Disconnected`. -/
  | serverClosed (reason : UInt32)
  | serverGone
  deriving DecidableEq, Repr

def ConnState.isClosePending : ConnState → Bool
  | closePending _ _ => true
  | _ => false

structure Connection where
  /-- Bumped on allocation; a `Free` slot at `u32::MAX` is retired. -/
  generation : UInt32
  state : ConnState
  port : PortKey
  client : HolderId
  clientGeneration : UInt64
  clientDomain : UInt64
  clientCap : CapabilityHandle
  outstanding : Nat
  transfersInFlight : Nat
  closeSeq : Nat
  /-- `event_head`, `event_len` and `events`. -/
  events : Ring QueuedEvent portMaxEventQueueDepth

def noPort : PortKey := ⟨0, 0⟩

def Connection.empty : Connection where
  generation := 0
  state := .free
  port := noPort
  client := .kernel
  clientGeneration := 0
  clientDomain := 0
  clientCap := .invalid
  outstanding := 0
  transfersInFlight := 0
  closeSeq := 0
  events := ⟨0, 0, fun _ => .empty⟩

/-- What `free_connection` leaves: an empty connection of the same generation. -/
def Connection.release (self : Connection) : Connection := { self with
  state := .free
  port := noPort
  client := .kernel
  clientGeneration := 0
  clientDomain := 0
  clientCap := .invalid
  outstanding := 0
  transfersInFlight := 0
  closeSeq := 0
  events := self.events.clear }

/-! ## Ports -/

/-- The sequence number after `seq`: `wrapping_add(1).max(1)`. -/
def seqAfter (seq : Nat) : Nat := max ((seq + 1) % 2 ^ 64) 1

structure Port (B : Type) where
  /-- Bumped on registration; a free slot at `u32::MAX` is retired. -/
  generation : UInt32
  live : Bool
  resource : ResourceRef
  rights : PortRights
  server : HolderId
  serverGeneration : UInt64
  params : PortParams
  nextSeq : Nat
  transfersInFlight : Nat
  wake : Option (WakeBinding B)
  requests : Fin portMaxRequestQueueDepth → Request

def Port.empty : Port B where
  generation := 0
  live := false
  resource := .graphics 0 0
  rights := ⟨.empty, .empty⟩
  server := .kernel
  serverGeneration := 0
  params := ⟨0, 0, 0, 0, 0⟩
  nextSeq := 0
  transfersInFlight := 0
  wake := none
  requests := fun _ => .empty

def Port.queuedRequests (self : Port B) : Nat := Slots.count Request.isLive self.requests

/-- `next_seq`: the number drawn is `self.nextSeq`; this is the port afterwards. -/
def Port.advance (self : Port B) : Port B := { self with
  nextSeq := seqAfter self.nextSeq }

/-! ## The core -/

/-- `P` registry slots and one pool of `C` connections shared by every port. -/
structure PortCore (P C : Nat) (B : Type) where
  ports : Fin P → Port B
  connections : Fin C → Connection

namespace PortCore

/-- The bounds `PortCore::new` asserts. -/
structure Fits (P C : Nat) : Prop where
  ports : 0 < P ∧ P ≤ 255
  connections : 0 < C ∧ C ≤ 65535
  effects : 4 * P + C ≤ effectsCapacity
  transfers : P * portMaxTransfersInFlight ≤ revokedTransfersCapacity

instance : Decidable (Fits P C) :=
  decidable_of_iff ((0 < P ∧ P ≤ 255) ∧ (0 < C ∧ C ≤ 65535) ∧ 4 * P + C ≤ effectsCapacity ∧
    P * portMaxTransfersInFlight ≤ revokedTransfersCapacity)
    ⟨fun ⟨h1, h2, h3, h4⟩ => ⟨h1, h2, h3, h4⟩, fun ⟨h1, h2, h3, h4⟩ => ⟨h1, h2, h3, h4⟩⟩

/-- A fresh core; `none` where an assertion of the source fails. -/
def new : Option (PortCore P C B) :=
  if Fits P C then some ⟨fun _ => .empty, fun _ => .empty⟩ else none

variable (core : PortCore P C B)

def setPort (p : Fin P) (port : Port B) : PortCore P C B := { core with
  ports := Function.update core.ports p port }

def setConnection (c : Fin C) (conn : Connection) : PortCore P C B := { core with
    connections := Function.update core.connections c conn }

/-! ## Lookups -/

def key (p : Fin P) : PortKey := ⟨UInt8.ofNat p, (core.ports p).generation⟩

def portIndex (key : PortKey) : Option (Fin P) :=
  if h : key.slot.toNat < P then
    if (core.ports ⟨key.slot.toNat, h⟩).live ∧
        (core.ports ⟨key.slot.toNat, h⟩).generation = key.generation then
      some ⟨key.slot.toNat, h⟩
    else none
  else none

def portFor (resourceClass : ResourceClass) (id : UInt64) : Option (Fin P) :=
  Slots.position (fun port =>
    port.live ∧ port.resource.class = resourceClass ∧ port.resource.id = id) core.ports

def connectionId (c : Fin C) : ConnectionId :=
  match SlotGenerationId.new (UInt16.ofNat c) (core.connections c).generation with
  | .ok id => id
  | .error _ => placeholderConnection

def connectionIndex (raw : UInt64) : Except PortError (Fin C) :=
  match SlotGenerationId.decode raw with
  | .error _ => .error .invalid
  | .ok id =>
    if h : id.slot.toNat < C then
      let conn := core.connections ⟨id.slot.toNat, h⟩
      if conn.state = .free ∨ conn.generation ≠ id.generation then .error .stale
      else .ok ⟨id.slot.toNat, h⟩
    else .error .stale

def clientConnection (caller : Caller) (raw : UInt64) : Except PortError (Fin C) :=
  if !caller.isProcess then .error .denied
  else match core.connectionIndex raw with
    | .error error => .error error
    | .ok index =>
      if (core.connections index).client ≠ caller.holder then .error .denied
      else if (core.connections index).clientGeneration ≠ caller.generation then .error .stale
      else .ok index

def servedConnection (p : Fin P) (raw : UInt64) : Except PortError (Fin C) :=
  match core.connectionIndex raw with
  | .error error => .error error
  | .ok index =>
    if (core.connections index).port ≠ core.key p then .error .stale else .ok index

def connectionPort (c : Fin C) : Except PortError (Fin P) :=
  match core.portIndex (core.connections c).port with
  | some p => .ok p
  | none => .error .stale

def authorizeServe (table : CapabilityTable N) (caller : Caller)
    (serve : UInt64) : Except PortError (Fin P) :=
  match CapabilityHandle.decode serve with
  | .error _ => .error .invalid
  | .ok handle =>
    match table.record handle with
    | .error error => .error (capabilityError error)
    | .ok record =>
      match Slots.position (fun port : Port B => port.live ∧ port.resource = record.resource)
          core.ports with
      | none =>
        .error (if (core.portFor record.resource.class record.resource.id).isSome then .stale
          else .denied)
      | some p =>
        if !caller.isProcess ∨ caller.holder ≠ (core.ports p).server ∨
            caller.generation ≠ (core.ports p).serverGeneration then
          .error .denied
        else match table.authorize caller.holder handle (core.ports p).resource
            (core.ports p).rights.serve with
          | .error error => .error (capabilityError error)
          | .ok _ => .ok p

/-- A connection in use and bound to the port `key`. -/
def bound (key : PortKey) (conn : Connection) : Bool := conn.state ≠ .free ∧ conn.port = key

/-- A notice for the port `key`. -/
def notice (key : PortKey) (conn : Connection) : Bool := conn.port = key ∧ conn.state.isClosePending

end PortCore

def decodeClass (raw : UInt64) : Except PortError (ResourceClass × PortRights) :=
  -- `u8::try_from`
  if raw.toNat < 256 then
    match ResourceClass.fromU8 raw.toUInt8 with
    | none => .error .invalid
    | some resourceClass =>
      match portRightsFor resourceClass with
      | none => .error .invalid
      | some rights => .ok (resourceClass, rights)
  else .error .invalid

end CleanSlate.ServicePort
