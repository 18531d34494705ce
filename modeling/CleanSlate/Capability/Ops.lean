import CleanSlate.Capability.Revocation
import CleanSlate.Lib.Run

/-!
# The capability table as a transition system

Every public operation of the table as one input of a transition function, so that a history of a
table is a run. `ForestOp` is the part of it the kernel's delegation policy uses: root grants,
delegation, and the revocations that respect subtrees.
-/

namespace CleanSlate.Capability

variable {N : Nat}

/-- A call of a capability-table operation. -/
inductive TableOp where
  | grant (holder : HolderId) (resource : ResourceRef) (rights : Rights) (provenance : Provenance)
  | install (record : CapabilityRecord)
  | delegate (source : HolderId) (parent : CapabilityHandle) (target : HolderId) (rights : Rights)
  | revoke (handle : CapabilityHandle)
  | revokeSlot (slot : Nat)
  | releaseSlot (slot : Nat)
  | revokeHolder (holder : HolderId)
  | revokeResource (resource : ResourceRef)
  | revokeResourceId (resourceClass : ResourceClass) (id : UInt64)
  | revokeSubtree (handle : CapabilityHandle)
  | revokeHolderTree (holder : HolderId)
  | revokeHolderTreeVisiting (holder : HolderId)
  | revokeResourceTree (resourceClass : ResourceClass) (id : UInt64)
  | releaseRevoked

/-- What a call returns. -/
inductive TableResult where
  | handle (result : Except CapabilityError CapabilityHandle)
  | revoked (result : Except CapabilityError Bool)
  | flag (result : Bool)
  | subtree (result : Except CapabilityError Nat)
  | count (result : Nat)
  | visited (result : Nat × List ResourceRef)

/-- The handle a successful `grant`, `install` or `delegate` returned. -/
def TableResult.issued : TableResult → Option CapabilityHandle
  | handle (.ok h) => some h
  | _ => none

/-- One call on the table. -/
def tableStep (table : CapabilityTable N) : TableOp → TableResult × CapabilityTable N
  | .grant holder resource rights provenance =>
    let (result, table) := table.grant holder resource rights provenance
    (.handle result, table)
  | .install record =>
    let (result, table) := table.install record
    (.handle result, table)
  | .delegate source parent target rights =>
    let (result, table) := Capability.delegate table source parent target rights
    (.handle result, table)
  | .revoke handle =>
    let (result, table) := table.revoke handle
    (.revoked result, table)
  | .revokeSlot slot =>
    let (result, table) := table.revokeSlot slot
    (.flag result, table)
  | .releaseSlot slot =>
    let (result, table) := table.releaseSlot slot
    (.flag result, table)
  | .revokeHolder holder =>
    let (result, table) := table.revokeHolder holder
    (.count result, table)
  | .revokeResource resource =>
    let (result, table) := table.revokeResource resource
    (.count result, table)
  | .revokeResourceId resourceClass id =>
    let (result, table) := table.revokeResourceId resourceClass id
    (.count result, table)
  | .revokeSubtree handle =>
    let (result, table) := Capability.revokeSubtree table handle
    (.subtree result, table)
  | .revokeHolderTree holder =>
    let (result, table) := Capability.revokeHolderTree table holder
    (.count result, table)
  | .revokeHolderTreeVisiting holder =>
    let (result, table) := Capability.revokeHolderTreeVisiting table holder
    (.visited result, table)
  | .revokeResourceTree resourceClass id =>
    let (result, table) := Capability.revokeResourceTree table resourceClass id
    (.count result, table)
  | .releaseRevoked =>
    let (result, table) := Capability.releaseRevoked table
    (.count result, table)

/-- The calls that build and prune the delegation forest. -/
inductive ForestOp where
  | grantRoot (holder : HolderId) (resource : ResourceRef) (rights : Rights)
  | delegate (source : HolderId) (parent : CapabilityHandle) (target : HolderId) (rights : Rights)
  | revokeSubtree (handle : CapabilityHandle)
  | revokeHolderTree (holder : HolderId)
  | revokeHolderTreeVisiting (holder : HolderId)
  | revokeResourceTree (resourceClass : ResourceClass) (id : UInt64)
  | releaseRevoked

/-- A root grant carries the provenance `Provenance::root(holder)`. -/
def ForestOp.toTableOp : ForestOp → TableOp
  | grantRoot holder resource rights => .grant holder resource rights (.root holder)
  | delegate source parent target rights => .delegate source parent target rights
  | revokeSubtree handle => .revokeSubtree handle
  | revokeHolderTree holder => .revokeHolderTree holder
  | revokeHolderTreeVisiting holder => .revokeHolderTreeVisiting holder
  | revokeResourceTree resourceClass id => .revokeResourceTree resourceClass id
  | releaseRevoked => .releaseRevoked

def forestStep (table : CapabilityTable N) (op : ForestOp) : TableResult × CapabilityTable N :=
  tableStep table op.toTableOp

end CleanSlate.Capability
