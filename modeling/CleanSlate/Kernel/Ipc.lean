import CleanSlate.Lib.Run
import CleanSlate.Lib.Slots
import CleanSlate.Lib.Checks

/-!
# IPC endpoints

The table of endpoint slots and send capabilities of the kernel: a capability names an endpoint slot
and its generation, and a handle packs the slot and the generation of both into a word.
-/

namespace CleanSlate.Kernel.Ipc

open Lib Function

def ipcMaxMessageBytes : Nat := 64

def ipcEndpointCapacity : Nat := 4

def ipcCapabilityCapacity : Nat := 8

inductive IpcEndpointState where
  | vacant | active | retired
  deriving DecidableEq

inductive IpcEndpointKind where
  | mailbox | consoleSink | lifecycleControl
  deriving DecidableEq

/-- `lastMessage` is `last_message[..last_message_len]`. -/
structure IpcEndpoint where
  ownerPid : UInt64
  generation : UInt16
  state : IpcEndpointState
  kind : IpcEndpointKind
  lastMessage : List UInt8

def IpcEndpoint.empty : IpcEndpoint := ⟨0, 0, .vacant, .mailbox, []⟩

structure EndpointCapability where
  holderPid : UInt64
  generation : UInt16
  endpointSlot : UInt16
  endpointGeneration : UInt16
  active : Bool
  retired : Bool

def EndpointCapability.empty : EndpointCapability := ⟨0, 0, 0, 0, false, false⟩

@[ext] structure EndpointCapabilityHandleParts where
  capabilitySlot : UInt16
  capabilityGeneration : UInt16
  endpointSlot : UInt16
  endpointGeneration : UInt16

namespace EndpointCapabilityHandleParts

def encode (self : EndpointCapabilityHandleParts) : UInt64 :=
  self.capabilitySlot.toUInt64 ||| (self.capabilityGeneration.toUInt64 <<< 16) |||
    (self.endpointSlot.toUInt64 <<< 32) ||| (self.endpointGeneration.toUInt64 <<< 48)

def decode (raw : UInt64) : EndpointCapabilityHandleParts :=
  ⟨raw.toUInt16, (raw >>> 16).toUInt16, (raw >>> 32).toUInt16, (raw >>> 48).toUInt16⟩

end EndpointCapabilityHandleParts

inductive IpcSendError where
  | invalidCapability | unauthorized | staleCapability | invalidMessageLength
  deriving DecidableEq

structure IpcSendResult where
  bytesSent : Nat
  endpointKind : IpcEndpointKind

structure IpcProcessResources where
  ownedEndpoints : Nat
  heldCapabilities : Nat

abbrev Capabilities : Type := Fin ipcCapabilityCapacity → EndpointCapability

structure IpcEndpointTable where
  endpoints : Fin ipcEndpointCapacity → IpcEndpoint
  capabilities : Capabilities

def nextGeneration (current : UInt16) : Option UInt16 :=
  if current = 65535 then none else some (current + 1)

/-- `endpoints.get(slot)`. -/
def endpointIndex (slot : Nat) : Option (Fin ipcEndpointCapacity) :=
  if h : slot < ipcEndpointCapacity then some ⟨slot, h⟩ else none

def retireCapability (capability : EndpointCapability) : EndpointCapability :=
  match nextGeneration capability.generation with
  | some next => { capability with active := false, holderPid := 0, generation := next }
  | none => { capability with active := false, holderPid := 0, retired := true }

/-- The handle of a capability. -/
def handleOf (i : Fin ipcCapabilityCapacity) (capability : EndpointCapability) : UInt64 :=
  EndpointCapabilityHandleParts.encode ⟨UInt16.ofNat i, capability.generation,
    capability.endpointSlot, capability.endpointGeneration⟩

/-- The search of `grant_send_capability` for a capability slot. -/
def grantIn (holder : UInt64) (endpointSlot endpointGeneration : UInt16) :
    List (Fin ipcCapabilityCapacity) → Capabilities → Except String UInt64 × Capabilities
  | [], caps => (.error "ipc capability table capacity exceeded or generation exhausted", caps)
  | i :: is, caps =>
    if (caps i).active || (caps i).retired then
      grantIn holder endpointSlot endpointGeneration is caps
    else
      match nextGeneration (caps i).generation with
      | none =>
        grantIn holder endpointSlot endpointGeneration is
          (update caps i { caps i with retired := true })
      | some next =>
        let granted : EndpointCapability :=
          ⟨holder, next, endpointSlot, endpointGeneration, true, (caps i).retired⟩
        (.ok (handleOf i granted), update caps i granted)

namespace IpcEndpointTable

def new : IpcEndpointTable := ⟨fun _ => .empty, fun _ => .empty⟩

variable (self : IpcEndpointTable)

def createEndpointWithKind (ownerPid : UInt64) (kind : IpcEndpointKind) :
    Except String (Fin ipcEndpointCapacity) × IpcEndpointTable :=
  match Slots.position (fun e : IpcEndpoint => decide (e.state = .vacant)) self.endpoints with
  | none => (.error "ipc endpoint table capacity exceeded or generation exhausted", self)
  | some slot =>
    let generation := (self.endpoints slot).generation
    (.ok slot, { self with
      endpoints := update self.endpoints slot
        ⟨ownerPid, if generation = 0 then 1 else generation, .active, kind, []⟩ })

def endpointGeneration (endpointSlot : Nat) : Except String (Fin ipcEndpointCapacity × UInt16) := do
  let slot ← okOr (endpointIndex endpointSlot) "ipc endpoint slot was out of range"
  if (self.endpoints slot).state ≠ .active then .error "ipc endpoint was not active"
  else .ok (slot, (self.endpoints slot).generation)

/-- The endpoint slot is below the capacity, so it fits into the handle. -/
def grantSendCapability (holderPid : UInt64) (endpointSlot : Nat) :
    Except String UInt64 × IpcEndpointTable :=
  match self.endpointGeneration endpointSlot with
  | .error message => (.error message, self)
  | .ok (slot, generation) =>
    let (result, caps) := grantIn holderPid (UInt16.ofNat slot) generation
      (List.finRange ipcCapabilityCapacity) self.capabilities
    (result, { self with capabilities := caps })

def lookupSendCapability (senderPid rawHandle : UInt64) :
    Except IpcSendError (Fin ipcEndpointCapacity) :=
  let handle := EndpointCapabilityHandleParts.decode rawHandle
  if h : handle.capabilitySlot.toNat < ipcCapabilityCapacity then
    let capability := self.capabilities ⟨handle.capabilitySlot.toNat, h⟩
    if capability.generation = 0 then .error .invalidCapability
    else if capability.generation ≠ handle.capabilityGeneration then .error .staleCapability
    else if capability.active = false then .error .staleCapability
    else if capability.holderPid ≠ senderPid then .error .unauthorized
    else if capability.endpointSlot ≠ handle.endpointSlot ∨
        capability.endpointGeneration ≠ handle.endpointGeneration then .error .staleCapability
    else
      match endpointIndex capability.endpointSlot.toNat with
      | none => .error .staleCapability
      | some slot =>
        if (self.endpoints slot).state ≠ .active ∨
            (self.endpoints slot).generation ≠ capability.endpointGeneration then
          .error .staleCapability
        else .ok slot
  else .error .invalidCapability

def sendMessage (senderPid rawHandle : UInt64) (message : List UInt8) :
    Except IpcSendError IpcSendResult × IpcEndpointTable :=
  if message = [] ∨ ipcMaxMessageBytes < message.length then (.error .invalidMessageLength, self)
  else
    match self.lookupSendCapability senderPid rawHandle with
    | .error error => (.error error, self)
    | .ok slot =>
      (.ok ⟨message.length, (self.endpoints slot).kind⟩, { self with
        endpoints := update self.endpoints slot
          { self.endpoints slot with lastMessage := message } })

def revokeCapabilitiesHeldBy (holderPid : UInt64) : Nat × IpcEndpointTable :=
  let held (c : EndpointCapability) : Bool := c.active && c.holderPid == holderPid
  (Slots.count held self.capabilities, { self with
    capabilities := fun i =>
      if held (self.capabilities i) then retireCapability (self.capabilities i)
      else self.capabilities i })

def teardownEndpoint (endpointSlot : Nat) : Except String Unit × IpcEndpointTable :=
  match endpointIndex endpointSlot with
  | none => (.error "ipc endpoint slot was out of range during teardown", self)
  | some slot =>
    let endpoint := self.endpoints slot
    if endpoint.state ≠ .active then (.error "ipc endpoint was not active during teardown", self)
    else
      let torn : IpcEndpoint := match nextGeneration endpoint.generation with
        | some next => ⟨0, next, .vacant, .mailbox, []⟩
        | none => ⟨0, endpoint.generation, .retired, .mailbox, []⟩
      (.ok (), {
        endpoints := update self.endpoints slot torn
        capabilities := fun i =>
          if (self.capabilities i).active ∧ (self.capabilities i).endpointSlot = UInt16.ofNat slot ∧
              (self.capabilities i).endpointGeneration = endpoint.generation then
            retireCapability (self.capabilities i)
          else self.capabilities i })

def owns (pid : UInt64) (slot : Fin ipcEndpointCapacity) : Bool :=
  (self.endpoints slot).state = .active && (self.endpoints slot).ownerPid == pid

/-- The loop of `teardown_resources_for_pid` over the endpoints that were found. -/
def teardownEndpoints : List (Fin ipcEndpointCapacity) → IpcEndpointTable →
    Except String Unit × IpcEndpointTable
  | [], self => (.ok (), self)
  | slot :: slots, self =>
    match self.teardownEndpoint slot with
    | (.error message, self) => (.error message, self)
    | (.ok (), self) => teardownEndpoints slots self

def teardownResourcesForPid (pid : UInt64) : Except String IpcProcessResources × IpcEndpointTable :=
  let (revoked, self) := self.revokeCapabilitiesHeldBy pid
  let owned := (List.finRange ipcEndpointCapacity).filter (self.owns pid)
  match teardownEndpoints owned self with
  | (.error message, self) => (.error message, self)
  | (.ok (), self) => (.ok ⟨owned.length, revoked⟩, self)

end IpcEndpointTable

/-! ## Runs -/

inductive IpcOp where
  | create (ownerPid : UInt64) (kind : IpcEndpointKind)
  | grant (holderPid : UInt64) (endpointSlot : Nat)
  | revoke (holderPid : UInt64)
  | teardown (endpointSlot : Nat)
  | teardownPid (pid : UInt64)
  | send (senderPid rawHandle : UInt64) (message : List UInt8)

inductive IpcResult where
  | created (result : Except String (Fin ipcEndpointCapacity))
  | granted (result : Except String UInt64)
  | revoked (count : Nat)
  | tornDown (result : Except String Unit)
  | released (result : Except String IpcProcessResources)
  | sent (result : Except IpcSendError IpcSendResult)

def IpcEndpointTable.step (self : IpcEndpointTable) : IpcOp → IpcResult × IpcEndpointTable
  | .create ownerPid kind => (self.createEndpointWithKind ownerPid kind).map .created id
  | .grant holderPid endpointSlot =>
    (self.grantSendCapability holderPid endpointSlot).map .granted id
  | .revoke holderPid => (self.revokeCapabilitiesHeldBy holderPid).map .revoked id
  | .teardown endpointSlot => (self.teardownEndpoint endpointSlot).map .tornDown id
  | .teardownPid pid => (self.teardownResourcesForPid pid).map .released id
  | .send senderPid rawHandle message =>
    (self.sendMessage senderPid rawHandle message).map .sent id

end CleanSlate.Kernel.Ipc
