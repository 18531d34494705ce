import CleanSlate.Capability.Revocation
import CleanSlate.ServicePort.Effects

/-!
# Capability transfer on send

`port/src/transfer.rs`. Validation is pure; installing the child is the last fallible step of a
SEND.
-/

namespace CleanSlate.ServicePort

open Capability

variable {N : Nat} {B : Type}

def statusEacces : UInt64 := 0xffffffffffffffff - 12
def statusEinval : UInt64 := 0xffffffffffffffff - 21
def statusEnospc : UInt64 := 0xffffffffffffffff - 28

/-- A capability offered with a SEND, and the verdict of the shared-buffer attestation, which the
caller evaluates before the call: the live buffer and its length, or a native status. -/
structure Transfer where
  handle : CapabilityHandle
  attestation : Except UInt64 (SharedBufferId × UInt64)

/-- Children never carry `WRITE` or `DELEGATE`. -/
def transferChildRights : Rights := .read

structure ValidatedTransfer where
  parent : CapabilityRecord
  provenance : Provenance
  buffer : SharedBufferId
  byteLen : UInt64

def capabilityError : CapabilityError → PortError
  | .invalidHandle | .invalidRights => .invalid
  | .staleHandle | .revoked => .stale
  | .unauthorizedHolder | .wrongResource | .missingRight | .rightsWidening | .notDelegable =>
    .denied
  | .delegationDepthExceeded | .capacityExhausted | .generationExhausted => .noSpace

def attestationError (status : UInt64) : PortError :=
  if status = statusEinval then .invalid
  else if status = statusEacces then .denied
  else if status = statusEnospc then .noSpace
  else .stale

variable (table : CapabilityTable N)

/-- The checks of a transfer; mutates nothing. -/
def validate (sender : HolderId) (transfer : Transfer) : Except PortError ValidatedTransfer :=
  match table.record transfer.handle with
  | .error error => .error (capabilityError error)
  | .ok parent =>
    if parent.holder ≠ sender ∨ parent.resource.class ≠ .sharedBuffer then .error .denied
    else match validateDelegation parent transfer.handle sender transferChildRights with
      | .error error => .error (capabilityError error)
      | .ok _ =>
        match SlotGenerationId.decode parent.resource.id with
        | .error _ => .error .invalid
        | .ok buffer =>
          match transfer.attestation with
          | .error status => .error (attestationError status)
          | .ok (attested, byteLen) =>
            if attested ≠ buffer then .error .stale
            else match Provenance.childOf transfer.handle parent.provenance with
              | .error error => .error (capabilityError error)
              | .ok provenance => .ok ⟨parent, provenance, buffer, byteLen⟩

/-- A slot `install` can use without retiring anything. -/
def hasInstallableSlot : Bool := (List.finRange N).any fun slot =>
    table.stateAt slot = .empty ∧ (table.recordAt slot).generation ≠ generationMax

/-- Reclaims `Revoked` slots only if the table is full, then installs the child. -/
def installChild (server : HolderId) (transfer : ValidatedTransfer) :
    Except PortError TransferredCap × CapabilityTable N :=
  let table := if hasInstallableSlot table then table else (releaseRevoked table).2
  if !hasInstallableSlot table then (.error .noSpace, table)
  else
    match table.install
        { state := .live, holder := server, resource := transfer.parent.resource,
          rights := transferChildRights, provenance := transfer.provenance, generation := 0 } with
    | (.error error, table) => (.error (capabilityError error), table)
    | (.ok child, table) =>
      (.ok ⟨child.encode, transfer.buffer.encode, transfer.byteLen, transferChildRights.bits,
        ResourceClass.sharedBuffer.asU8⟩, table)

/-- Revokes and releases an undelivered child, but only if the slot still holds that child, and
notes its resource so that the caller reconciles mappings made through it. -/
def releaseChild (child : TransferredCap) (effects : Effects B) : CapabilityTable N × Effects B :=
  match CapabilityHandle.decode child.handle with
  | .error _ => (table, effects)
  | .ok handle =>
    match table.record handle with
    | .error _ => (table, effects)
    | .ok record =>
      let table := (table.revokeSlot handle.slot.toNat).2
      let table := (table.releaseSlot handle.slot.toNat).2
      (table, effects.noteRevoked record.resource)

end CleanSlate.ServicePort
