import CleanSlate.Capability.Basic
import CleanSlate.Lib.Slots

/-!
# The capability table

`authorize.rs`, `table.rs` and `delegation.rs`. A table operation returns its result together
with the table after it, because a failing call may still have written (`pickEmptySlot` retires
exhausted slots on its way, `grant` fails after its write when the slot number does not fit `u16`).
A `for slot in 0..N` loop is a left fold over `List.finRange N`.
-/

namespace CleanSlate.Capability

open Lib

/-! ## Pure authorization checks (`authorize.rs`) -/

/-- Authorizes an operation against a single capability record; the first failure wins. -/
def authorize (record : CapabilityRecord) (handle : CapabilityHandle) (holder : HolderId)
    (resource : ResourceRef) (required : Rights) : Except CapabilityError Unit :=
  if record.state = .empty then .error .invalidHandle
  else if record.state = .retired then .error .staleHandle
  else if record.generation ≠ handle.generation then .error .staleHandle
  else if record.state = .revoked then .error .revoked
  else if record.holder ≠ holder then .error .unauthorizedHolder
  else if record.resource ≠ resource then .error .wrongResource
  else if !record.rights.contains required then .error .missingRight
  else .ok ()

/-- Validates a delegation request against a parent capability and returns the child's rights. -/
def validateDelegation (parent : CapabilityRecord) (parentHandle : CapabilityHandle)
    (sourceHolder : HolderId) (requested : Rights) : Except CapabilityError Rights :=
  match authorize parent parentHandle sourceHolder parent.resource .delegate with
  | .error error => .error error
  | .ok () =>
    if !requested.isSubsetOf parent.rights then .error .rightsWidening
    else if !requested.isSubsetOf (Rights.validFor parent.resource.class) then
      .error .invalidRights
    else if requested.intersects (Rights.rootOnlyFor parent.resource.class) then
      .error .notDelegable
    else .ok requested

/-! ## The table (`table.rs`) -/

/-- What `revoke_slot` leaves of a live record: everything but the state and the rights stays, so
the handle still resolves and descendants can still be found. -/
def CapabilityRecord.revoke (record : CapabilityRecord) : CapabilityRecord :=
  { record with state := .revoked, rights := .empty }

/-- What `release_slot` leaves of a revoked record: an empty slot with the next generation, or a
retired one when the generation is exhausted. -/
def CapabilityRecord.release (record : CapabilityRecord) : CapabilityRecord :=
  match Generation.next record.generation with
  | some next => { CapabilityRecord.empty with generation := next }
  | none => { CapabilityRecord.empty with generation := record.generation, state := .retired }

/-- Fixed-size capability table with per-slot generation bookkeeping. -/
structure CapabilityTable (N : Nat) where
  slots : Fin N → CapabilityRecord
  liveCount : Nat

def validateRights (resourceClass : ResourceClass) (rights : Rights) :
    Except CapabilityError Unit :=
  if rights = .empty then .error .invalidRights
  else if !rights.isSubsetOf (Rights.validFor resourceClass) then .error .invalidRights
  else .ok ()

def slotIndex (N : Nat) (handle : CapabilityHandle) : Except CapabilityError (Fin N) :=
  if h : handle.slot.toNat < N then .ok ⟨handle.slot.toNat, h⟩ else .error .invalidHandle

def slotAsU16 (slot : Nat) : Except CapabilityError UInt16 :=
  if slot < 65536 then .ok (UInt16.ofNat slot) else .error .capacityExhausted

namespace CapabilityTable

variable {N : Nat}

def new : CapabilityTable N := ⟨fun _ => .empty, 0⟩

/-- The slot of the first empty record whose generation can still advance, with that next
generation. Exhausted empty slots met on the way are retired. -/
def pickEmptySlotFrom :
    List (Fin N) → CapabilityTable N → Except CapabilityError (Fin N × UInt32) × CapabilityTable N
  | [], table => (.error .capacityExhausted, table)
  | slot :: rest, table =>
    if (table.slots slot).state ≠ .empty then pickEmptySlotFrom rest table
    else match Generation.next (table.slots slot).generation with
      | some next => (.ok (slot, next), table)
      | none => pickEmptySlotFrom rest { table with
          slots := Function.update table.slots slot { table.slots slot with state := .retired } }

variable (table : CapabilityTable N)

def pickEmptySlot : Except CapabilityError (Fin N × UInt32) × CapabilityTable N :=
  pickEmptySlotFrom (List.finRange N) table

def grant (holder : HolderId) (resource : ResourceRef) (rights : Rights) (provenance : Provenance) :
    Except CapabilityError CapabilityHandle × CapabilityTable N :=
  match validateRights resource.class rights with
  | .error error => (.error error, table)
  | .ok () =>
    match table.pickEmptySlot with
    | (.error error, table) => (.error error, table)
    | (.ok (slot, generation), table) =>
      let record : CapabilityRecord :=
        { state := .live, holder, resource, rights, provenance, generation }
      let table := ⟨Function.update table.slots slot record, table.liveCount + 1⟩
      match slotAsU16 slot with
      | .error error => (.error error, table)
      | .ok slot => (.ok ⟨slot, generation⟩, table)

/-- `install` is `grant` with the fields taken from a record; its state and generation are
ignored. -/
def install (record : CapabilityRecord) :
    Except CapabilityError CapabilityHandle × CapabilityTable N :=
  table.grant record.holder record.resource record.rights record.provenance

def record (table : CapabilityTable N) (handle : CapabilityHandle) :
    Except CapabilityError CapabilityRecord :=
  match slotIndex N handle with
  | .error error => .error error
  | .ok slot =>
    let record := table.slots slot
    if record.state = .empty then
      -- A never-used slot has generation 0; a released slot keeps a nonzero bumped generation.
      .error (if record.generation = 0 then .invalidHandle else .staleHandle)
    else if record.state = .retired then .error .staleHandle
    else if record.generation ≠ handle.generation then .error .staleHandle
    else .ok record

def authorize (table : CapabilityTable N) (holder : HolderId) (handle : CapabilityHandle)
    (resource : ResourceRef) (required : Rights) : Except CapabilityError CapabilityRecord :=
  match table.record handle with
  | .error error => .error error
  | .ok record =>
    match Capability.authorize record handle holder resource required with
    | .error error => .error error
    | .ok () => .ok record

def handleAt (slot : Nat) : Option CapabilityHandle :=
  if h : slot < N then
    let record := table.slots ⟨slot, h⟩
    if record.state = .empty then none
    else
      let slot := match slotAsU16 slot with
        | .ok slot => slot
        | .error _ => 0
      some ⟨slot, record.generation⟩
  else none

abbrev recordAt (slot : Fin N) : CapabilityRecord :=
  table.slots slot

def stateAt (slot : Nat) : CapabilityState :=
  if h : slot < N then (table.slots ⟨slot, h⟩).state else .empty

/-- Revokes a live slot in place; any other slot is left alone. -/
def revokeSlot (slot : Nat) : Bool × CapabilityTable N :=
  if h : slot < N then
    match (table.slots ⟨slot, h⟩).state with
    | .live =>
      (true, ⟨Function.update table.slots ⟨slot, h⟩ (table.slots ⟨slot, h⟩).revoke,
        table.liveCount - 1⟩)
    | .revoked | .retired | .empty => (false, table)
  else (false, table)

def revoke (handle : CapabilityHandle) : Except CapabilityError Bool × CapabilityTable N :=
  match slotIndex N handle with
  | .error error => (.error error, table)
  | .ok slot =>
    let record := table.slots slot
    if record.state = .empty ∧ record.generation = 0 then (.ok false, table)
    else if record.generation ≠ handle.generation ∨ record.state = .empty then
      (.error .staleHandle, table)
    else
      let (revoked, table) := table.revokeSlot slot
      (.ok revoked, table)

/-- Returns a revoked slot to the pool, bumping its generation; any other slot is left alone. -/
def releaseSlot (slot : Nat) : Bool × CapabilityTable N :=
  if h : slot < N then
    if (table.slots ⟨slot, h⟩).state ≠ .revoked then (false, table)
    else (true, { table with
      slots := Function.update table.slots ⟨slot, h⟩ (table.slots ⟨slot, h⟩).release })
  else (false, table)

/-- The loop `revoke_holder`, `revoke_resource` and `revoke_resource_id` share: every live record
that is `selected` is revoked and released. -/
def revokeWhere (selected : CapabilityRecord → Bool) (table : CapabilityTable N) :
    Nat × CapabilityTable N :=
  (List.finRange N).foldl (fun (count, table) slot =>
    if (table.slots slot).state = .live ∧ selected (table.slots slot) then
      let (revoked, table) := table.revokeSlot slot
      if revoked then (count + 1, (table.releaseSlot slot).2) else (count, table)
    else (count, table)) (0, table)

def revokeHolder (holder : HolderId) : Nat × CapabilityTable N :=
  table.revokeWhere fun record => record.holder = holder

def revokeResource (resource : ResourceRef) : Nat × CapabilityTable N :=
  table.revokeWhere fun record => record.resource = resource

def revokeResourceId (resourceClass : ResourceClass) (id : UInt64) : Nat × CapabilityTable N :=
  table.revokeWhere fun record =>
    record.resource.class = resourceClass ∧ record.resource.id = id

end CapabilityTable

/-! ## Delegation (`delegation.rs`) -/

variable {N : Nat}

/-- Delegates an attenuated child of `parent` (held by `source`) to `target`. -/
def delegate (table : CapabilityTable N) (source : HolderId) (parent : CapabilityHandle)
    (target : HolderId) (rights : Rights) :
    Except CapabilityError CapabilityHandle × CapabilityTable N :=
  match table.record parent with
  | .error error => (.error error, table)
  | .ok record =>
    match validateDelegation record parent source rights with
    | .error error => (.error error, table)
    | .ok rights =>
      if target = .kernel then (.error .invalidRights, table)
      else match Provenance.childOf parent record.provenance with
        | .error error => (.error error, table)
        | .ok provenance =>
          table.install
            { state := .live, holder := target, resource := record.resource, rights, provenance,
              generation := 0 }

/-- Cursor-based listing of live capabilities held by `holder` (slot order): the first one at or
after `cursor`, with the cursor after it. -/
def listHolder (table : CapabilityTable N) (holder : HolderId) (cursor : Nat) :
    Option (Nat × CapabilityHandle × CapabilityRecord) :=
  match Slots.position (fun slot : Fin N => cursor ≤ slot.val ∧
      (table.recordAt slot).state = .live ∧ (table.recordAt slot).holder = holder) id with
  | none => none
  | some slot =>
    -- `expect("live slot must expose a handle")`
    match table.handleAt slot with
    | none => none
    | some handle => some (slot + 1, handle, table.recordAt slot)

end CleanSlate.Capability
