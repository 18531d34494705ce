import CleanSlate.Capability.Table

/-!
# The service-port ABI

`native-abi/src/port.rs`, `shared_buffer.rs` and `port/src/lib.rs`: the identities, limits, records
and errors of syscall 17 `SERVICE_PORT`. Sequence numbers are `Nat`s below `2 ^ 64`; frames are 64
opaque bytes.
-/

namespace CleanSlate.ServicePort

open Lib
open Capability

/-! ## Kernel-minted identities -/

/-- Wire/decode failures of an identity. -/
inductive IdError where
  | invalidGeneration
  | reservedBitsSet
  deriving DecidableEq, Repr

/-- What `slot_generation_id!` makes: slot in bits 0..16, generation in 16..48 (0 invalid). -/
structure SlotGenerationId where
  slot : UInt16
  generation : UInt32
  deriving DecidableEq, Repr

namespace SlotGenerationId

def new (slot : UInt16) (generation : UInt32) : Except IdError SlotGenerationId :=
  if generation = 0 then .error .invalidGeneration else .ok ⟨slot, generation⟩

def encode (self : SlotGenerationId) : UInt64 := SlotId.pack self.slot self.generation

def decode (raw : UInt64) : Except IdError SlotGenerationId :=
  if raw &&& SlotId.reserved ≠ 0 then .error .reservedBitsSet
  else if SlotId.generationOf raw = 0 then .error .invalidGeneration
  else .ok ⟨SlotId.slotOf raw, SlotId.generationOf raw⟩

end SlotGenerationId

abbrev ConnectionId := SlotGenerationId

abbrev SharedBufferId := SlotGenerationId

/-- Kernel-internal port identity; never crosses the ABI. -/
structure PortKey where
  slot : UInt8
  generation : UInt32
  deriving DecidableEq, Repr

/-! ## Limits -/

def portFrameBytes : Nat := 64
abbrev portMaxEventQueueDepth : Nat := 64
abbrev portMaxRequestQueueDepth : Nat := 64
def portMaxConnections : Nat := 16
def portMaxOutstandingPerConnection : Nat := 16
def portMaxTransfersInFlightPerConnection : Nat := 1
def portMaxTransfersInFlight : Nat := 4
def workSetBits : UInt32 := 32

instance : NeZero portMaxRequestQueueDepth := ⟨by decide⟩

abbrev Frame := Vector UInt8 portFrameBytes

def zeroFrame : Frame := Vector.replicate portFrameBytes 0

/-- Port queue and connection limits supplied at creation. -/
structure PortParams where
  eventDepth : Nat
  requestDepth : Nat
  maxConnections : Nat
  maxOutstanding : Nat
  maxConnectionsPerHolder : Nat
  deriving DecidableEq, Repr

inductive PortParamError where
  | eventDepth
  | requestDepth
  | connections
  | outstanding
  | perHolder
  | inconsistent
  deriving DecidableEq, Repr

def PortParams.validate (self : PortParams) : Except PortParamError Unit :=
  if self.eventDepth = 0 ∨ self.eventDepth > portMaxEventQueueDepth then .error .eventDepth
  else if self.requestDepth = 0 ∨ self.requestDepth > portMaxRequestQueueDepth then
    .error .requestDepth
  else if self.maxConnections = 0 ∨ self.maxConnections > portMaxConnections then
    .error .connections
  else if self.maxOutstanding = 0 ∨ self.maxOutstanding > portMaxOutstandingPerConnection then
    .error .outstanding
  else if self.maxConnectionsPerHolder = 0 ∨ self.maxConnectionsPerHolder > portMaxConnections then
    .error .perHolder
  else if self.maxOutstanding > self.requestDepth ∨
      self.maxConnectionsPerHolder > self.maxConnections then
    .error .inconsistent
  else .ok ()

/-- An accepted event queue fits the ring, and an accepted request queue the pool. -/
theorem PortParams.validate_ok {params : PortParams} (h : params.validate = .ok ()) :
    params.eventDepth ≤ portMaxEventQueueDepth ∧
      params.requestDepth ≤ portMaxRequestQueueDepth := by
  unfold PortParams.validate at h
  split at h
  · cases h
  next he =>
  split at h
  · cases h
  · next hr =>
    constructor <;> omega

/-- Rights required to connect vs serve on a class-specific port. -/
structure PortRights where
  connect : Rights
  serve : Rights
  deriving DecidableEq, Repr

def portRightsFor : ResourceClass → Option PortRights
  | .graphics => some ⟨.gfxConnect, .gfxServe⟩
  | _ => none

/-! ## Records -/

/-- Server-side receive classification. -/
inductive RecvKind where
  | request
  | clientClosed
  | clientExited
  | clientRevoked
  deriving DecidableEq, Repr

/-- Client-side event classification. -/
inductive EventKind where
  | frame
  | disconnected
  | serverGone
  deriving DecidableEq, Repr

/-- Capability transfer embedded in a trusted envelope when present. -/
structure TransferredCap where
  handle : UInt64
  bufferId : UInt64
  byteLen : UInt64
  rights : UInt32
  «class» : UInt8
  deriving DecidableEq, Repr

/-- Kernel-trusted metadata for an inbound port request. -/
structure TrustedEnvelope where
  connection : ConnectionId
  pid : UInt64
  domain : UInt64
  instanceGeneration : UInt64
  kernelSeq : Nat
  rights : UInt32
  transfer : Option TransferredCap
  deriving DecidableEq, Repr

structure PortRecvRecord where
  kind : RecvKind
  reason : UInt32
  envelope : TrustedEnvelope
  frame : Frame
  deriving DecidableEq, Repr

structure PortEventRecord where
  kind : EventKind
  reason : UInt32
  kernelSeq : Nat
  frame : Frame
  deriving DecidableEq, Repr

/-! ## Callers and errors (`lib.rs`) -/

/-- Trusted identity of the process making a call, supplied by the kernel. -/
structure Caller where
  holder : HolderId
  /-- Live process instance generation; 0 is never live. -/
  generation : UInt64
  domain : UInt64
  deriving DecidableEq, Repr

def Caller.isProcess (self : Caller) : Bool := self.holder ≠ .kernel ∧ self.generation ≠ 0

inductive PortError where
  | invalid
  | denied
  | stale
  | noSpace
  | wouldBlock
  | peerClosed
  | refused
  deriving DecidableEq, Repr

end CleanSlate.ServicePort
