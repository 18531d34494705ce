import CleanSlate.Lib.SlotId
import Mathlib.Logic.Function.Basic

/-!
# The capability model: identities, rights, records

The data of `capability/src`: holders, resources, rights bitsets, handles, provenance, records
and errors. Wire-visible integers keep their width (`UInt16`, `UInt32`, `UInt64`); the delegation
depth is a `Nat` whose `u8` overflow check is explicit in `Provenance.childOf`.
-/

namespace CleanSlate.Capability

open Lib

/-! ## Holders and resources (`holder.rs`, `resource.rs`) -/

/-- Trusted process identity for capability ownership. -/
structure HolderId where
  raw : UInt64
  deriving DecidableEq, Repr

/-- Reserved holder identity for the kernel. -/
def HolderId.kernel : HolderId := ⟨0⟩

/-- Kind of protected resource referenced by a capability. -/
inductive ResourceClass where
  | persistentObject
  | processControl
  | ipcEndpoint
  | blockDevice
  | lifecycleControl
  | audit
  | network
  | sharedBuffer
  | graphics
  | display
  | input
  deriving DecidableEq, Repr

namespace ResourceClass

def asU8 : ResourceClass → UInt8
  | persistentObject => 1
  | processControl => 2
  | ipcEndpoint => 3
  | blockDevice => 4
  | lifecycleControl => 5
  | audit => 6
  | network => 7
  | sharedBuffer => 8
  | graphics => 9
  | display => 10
  | input => 11

def fromU8 (raw : UInt8) : Option ResourceClass :=
  if raw = 1 then some persistentObject
  else if raw = 2 then some processControl
  else if raw = 3 then some ipcEndpoint
  else if raw = 4 then some blockDevice
  else if raw = 5 then some lifecycleControl
  else if raw = 6 then some audit
  else if raw = 7 then some network
  else if raw = 8 then some sharedBuffer
  else if raw = 9 then some graphics
  else if raw = 10 then some display
  else if raw = 11 then some input
  else none

end ResourceClass

/-- Stable resource key bound by a capability. -/
structure ResourceRef where
  «class» : ResourceClass
  id : UInt64
  instanceGeneration : UInt64
  deriving DecidableEq, Repr

/-- Compositor port resource. -/
def ResourceRef.graphics (serviceId instanceGeneration : UInt64) : ResourceRef :=
  ⟨.graphics, serviceId, instanceGeneration⟩

/-! ## Rights (`rights.rs`) -/

/-- Capability rights as a fixed bitset. -/
structure Rights where
  bits : UInt32
  deriving DecidableEq, Repr

namespace Rights

def read : Rights := ⟨(1 : UInt32) <<< 0⟩
def write : Rights := ⟨(1 : UInt32) <<< 1⟩
def inspect : Rights := ⟨(1 : UInt32) <<< 2⟩
def delegate : Rights := ⟨(1 : UInt32) <<< 3⟩
def revoke : Rights := ⟨(1 : UInt32) <<< 4⟩
def observe : Rights := ⟨(1 : UInt32) <<< 5⟩
def signal : Rights := ⟨(1 : UInt32) <<< 6⟩
def terminate : Rights := ⟨(1 : UInt32) <<< 7⟩
def auditRead : Rights := ⟨(1 : UInt32) <<< 8⟩
def netResolve : Rights := ⟨(1 : UInt32) <<< 9⟩
def netConnect : Rights := ⟨(1 : UInt32) <<< 10⟩
def netSend : Rights := ⟨(1 : UInt32) <<< 11⟩
def netReceive : Rights := ⟨(1 : UInt32) <<< 12⟩
def netRawDevice : Rights := ⟨(1 : UInt32) <<< 13⟩
def gfxConnect : Rights := ⟨(1 : UInt32) <<< 14⟩
def gfxShell : Rights := ⟨(1 : UInt32) <<< 15⟩
def gfxOverlay : Rights := ⟨(1 : UInt32) <<< 16⟩
def gfxServe : Rights := ⟨(1 : UInt32) <<< 17⟩
def displayPresent : Rights := ⟨(1 : UInt32) <<< 18⟩
def inputConsume : Rights := ⟨(1 : UInt32) <<< 19⟩

def empty : Rights := ⟨0⟩

def contains (self required : Rights) : Bool := self.bits &&& required.bits == required.bits

def isSubsetOf (self allowed : Rights) : Bool := self.bits &&& allowed.bits == self.bits

def intersects (self other : Rights) : Bool := self.bits &&& other.bits != 0

def union (self other : Rights) : Rights := ⟨self.bits ||| other.bits⟩

/-- Allowed rights mask for a resource class. -/
def validFor : ResourceClass → Rights
  | .persistentObject => ((((read.union write).union inspect).union delegate).union revoke)
  | .processControl => ((((observe.union signal).union terminate).union delegate).union revoke)
  | .ipcEndpoint => (((read.union write).union delegate).union revoke)
  | .blockDevice => ((((read.union write).union inspect).union delegate).union revoke)
  | .lifecycleControl => ((((observe.union signal).union terminate).union delegate).union revoke)
  | .audit => auditRead.union delegate
  | .network =>
    ((((((netResolve.union netConnect).union netSend).union netReceive).union
      netRawDevice).union delegate).union revoke)
  | .sharedBuffer => (((read.union write).union delegate).union revoke)
  | .graphics =>
    (((((gfxConnect.union gfxShell).union gfxOverlay).union gfxServe).union delegate).union revoke)
  | .display => displayPresent.union inspect
  | .input => inputConsume.union inspect

/-- Rights that may exist only on root kernel grants for a class. -/
def rootOnlyFor : ResourceClass → Rights
  | .graphics => (gfxShell.union gfxOverlay).union gfxServe
  | .sharedBuffer => (write.union delegate).union revoke
  | _ => empty

theorem empty_intersects (a : Rights) : empty.intersects a = false := by
  simp [intersects, empty]

end Rights

/-! ## Errors and lifecycle states (`error.rs`, `state.rs`) -/

inductive CapabilityError where
  | invalidHandle
  | staleHandle
  | revoked
  | unauthorizedHolder
  | wrongResource
  | missingRight
  | invalidRights
  | rightsWidening
  | delegationDepthExceeded
  | capacityExhausted
  | generationExhausted
  | notDelegable
  deriving DecidableEq, Repr

/-- State stored for each slot of the capability table. -/
inductive CapabilityState where
  | empty
  | live
  | revoked
  | retired
  deriving DecidableEq, Repr

/-! ## Handles (`handle.rs`) -/

/-- Slot-table capacity of the kernel's capability space. -/
abbrev maxSlots : Nat := 64

/-- Maximum delegation chain depth (root grant is depth 0). -/
def maxDelegationDepth : Nat := 4

/-- Opaque capability reference presented across syscalls and IPC. -/
structure CapabilityHandle where
  slot : UInt16
  generation : UInt32
  deriving DecidableEq, Repr

namespace CapabilityHandle

/-- Sentinel handle; generation 0 is never valid on the wire. -/
def invalid : CapabilityHandle := ⟨0, 0⟩

/-- Encodes as `slot | generation << 16`. -/
def encode (self : CapabilityHandle) : UInt64 := SlotId.pack self.slot self.generation

def decode (raw : UInt64) : Except CapabilityError CapabilityHandle :=
  if raw &&& SlotId.reserved ≠ 0 then .error .invalidHandle
  else if SlotId.generationOf raw = 0 then .error .invalidHandle
  else .ok ⟨SlotId.slotOf raw, SlotId.generationOf raw⟩

theorem decode_encode {h : CapabilityHandle} (hg : h.generation ≠ 0) : decode h.encode = .ok h := by
  unfold decode encode
  rw [SlotId.pack_and_reserved, SlotId.generationOf_pack, SlotId.slotOf_pack]
  simp [hg]

end CapabilityHandle

/-- The last generation a slot can reach (`u32::MAX`). -/
def generationMax : UInt32 := 0xffffffff

/-- `Generation::next`: the next generation, or `none` at `u32::MAX` (never wraps). -/
def Generation.next (current : UInt32) : Option UInt32 :=
  if current = generationMax then none else some (current + 1)

theorem Generation.next_eq_none {g : UInt32} : Generation.next g = none ↔ g = generationMax := by
  unfold Generation.next
  split <;> simp_all

theorem Generation.toNat_add_one {g : UInt32} (h : g ≠ generationMax) :
    (g + 1).toNat = g.toNat + 1 := by
  have hlt := g.toNat_lt
  have hne : g.toNat ≠ 4294967295 := fun e => h (UInt32.toNat_inj.1 (e.trans rfl))
  rw [UInt32.toNat_add, UInt32.toNat_one]
  omega

theorem Generation.add_one_ne_zero {g : UInt32} (h : g ≠ generationMax) : g + 1 ≠ 0 := by
  intro h0
  have hsc := Generation.toNat_add_one h
  rw [h0] at hsc
  simp at hsc

theorem Generation.toNat_of_next {g g' : UInt32} (h : Generation.next g = some g') :
    g'.toNat = g.toNat + 1 := by
  unfold Generation.next at h
  split at h
  · cases h
  · next hne =>
    cases h
    exact Generation.toNat_add_one hne

/-! ## Provenance and records (`provenance.rs`, `record.rs`) -/

/-- Delegation chain metadata stored in each capability record. -/
structure Provenance where
  parent : Option CapabilityHandle
  /-- `0` for the root grant; increases by one per delegation hop. -/
  depth : Nat
  rootHolder : HolderId
  deriving DecidableEq, Repr

def Provenance.root (holder : HolderId) : Provenance := ⟨none, 0, holder⟩

def Provenance.childOf (parentHandle : CapabilityHandle) (parentProvenance : Provenance) :
    Except CapabilityError Provenance :=
  -- `checked_add(1)` on the `u8` depth
  if parentProvenance.depth + 1 > 255 then .error .delegationDepthExceeded
  else if parentProvenance.depth + 1 > maxDelegationDepth then .error .delegationDepthExceeded
  else .ok ⟨some parentHandle, parentProvenance.depth + 1, parentProvenance.rootHolder⟩

theorem Provenance.childOf_ok {h : CapabilityHandle} {p q : Provenance}
    (hc : Provenance.childOf h p = .ok q) :
    p.depth < maxDelegationDepth ∧ q = ⟨some h, p.depth + 1, p.rootHolder⟩ := by
  unfold Provenance.childOf at hc
  split at hc
  · cases hc
  · split at hc
    · cases hc
    · cases hc
      exact ⟨by omega, rfl⟩

theorem Provenance.childOf_eq_ok {h : CapabilityHandle} {p : Provenance}
    (hd : p.depth < maxDelegationDepth) :
    Provenance.childOf h p = .ok ⟨some h, p.depth + 1, p.rootHolder⟩ := by
  unfold Provenance.childOf maxDelegationDepth at *
  rw [if_neg (by omega), if_neg (by omega)]

/-- One slot in the capability table. -/
structure CapabilityRecord where
  state : CapabilityState
  holder : HolderId
  resource : ResourceRef
  rights : Rights
  provenance : Provenance
  generation : UInt32
  deriving DecidableEq, Repr

/-- `CapabilityRecord::EMPTY`. -/
def CapabilityRecord.empty : CapabilityRecord where
  state := .empty
  holder := ⟨0⟩
  resource := ⟨.persistentObject, 0, 0⟩
  rights := .empty
  provenance := ⟨none, 0, ⟨0⟩⟩
  generation := 0

end CleanSlate.Capability
