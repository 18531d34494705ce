import CleanSlate.Capability.Table

/-!
# Subtree, holder and resource revocation

`revocation.rs`: the bounded fixpoint that collects a delegation subtree, and the sweeps built on
it.
-/

namespace CleanSlate.Capability

variable {N : Nat} (table : CapabilityTable N)

def slotForHandle (handle : CapabilityHandle) : Except CapabilityError (Fin N) :=
  match table.record handle with
  | .error error => .error error
  | .ok _ => slotIndex N handle

/-- One pass of the fixpoint over the slots: a live slot outside the set joins it when its parent
is already in. Returns whether anything was added; a parent that does not resolve aborts. -/
def subtreePass (inSet : Fin N → Bool) : Except CapabilityError ((Fin N → Bool) × Bool) :=
  (List.finRange N).foldlM (fun (inSet, added) slot =>
    if inSet slot then .ok (inSet, added)
    else
      let record := table.recordAt slot
      if record.state ≠ .live then .ok (inSet, added)
      else match record.provenance.parent with
        | none => .ok (inSet, added)
        | some parentHandle =>
          match slotForHandle table parentHandle with
          | .error error => .error error
          | .ok parentSlot =>
            if inSet parentSlot then .ok (Function.update inSet slot true, true)
            else .ok (inSet, added)) (inSet, false)

/-- At most `passes` passes, stopping after one that adds nothing. -/
def subtreePasses (table : CapabilityTable N) :
    Nat → (Fin N → Bool) → Except CapabilityError (Fin N → Bool)
  | 0, inSet => .ok inSet
  | passes + 1, inSet =>
    match subtreePass table inSet with
    | .error error => .error error
    | .ok (inSet, added) => if added then subtreePasses table passes inSet else .ok inSet

/-- Revokes every slot of a set and counts the records newly revoked. -/
def revokeSet (inSet : Fin N → Bool) : Nat × CapabilityTable N :=
  (List.finRange N).foldl (fun (count, table) slot =>
    if inSet slot then
      let (revoked, table) := table.revokeSlot slot
      (if revoked then count + 1 else count, table)
    else (count, table)) (0, table)

/-- Revokes `handle` and every descendant; returns the number of records newly revoked. -/
def revokeSubtree (handle : CapabilityHandle) : Except CapabilityError Nat × CapabilityTable N :=
  match slotForHandle table handle with
  | .error error => (.error error, table)
  | .ok rootSlot =>
    let maxPasses := maxDelegationDepth + 1
    match subtreePasses table maxPasses (Function.update (fun _ => false) rootSlot true) with
    | .error error => (.error error, table)
    | .ok inSet =>
      let (count, table) := revokeSet table inSet
      (.ok count, table)

/-- The first sweep of the holder and resource revocations: the subtree of every live record that
is `selected` is revoked, a failing `revoke_subtree` counting `0`. Returns the count and the
resources of the selected records, in slot order. -/
def revokeTrees (selected : CapabilityRecord → Bool) (table : CapabilityTable N) :
    (Nat × List ResourceRef) × CapabilityTable N :=
  (List.finRange N).foldl (fun ((revoked, visited), table) slot =>
    let record := table.recordAt slot
    if record.state ≠ .live ∨ !selected record then ((revoked, visited), table)
    else
      -- `expect("live slot must have a handle")`
      match table.handleAt slot with
      | none => ((revoked, visited), table)
      | some handle =>
        match revokeSubtree table handle with
        | (.ok count, table) => ((revoked + count, visited ++ [record.resource]), table)
        | (.error _, table) => ((revoked, visited ++ [record.resource]), table))
    ((0, []), table)

/-- The second sweep: every revoked record that is `selected` is released. -/
def releaseWhere (selected : CapabilityRecord → Bool) (table : CapabilityTable N) :
    CapabilityTable N :=
  (List.finRange N).foldl (fun table slot =>
    let record := table.recordAt slot
    if selected record ∧ record.state = .revoked then (table.releaseSlot slot).2 else table) table

/-- Revokes every live capability held by `holder` together with each one's subtree, then
releases the slots `holder` held. Returns the number newly revoked and the resources the visitor
is called with. -/
def revokeHolderTreeVisiting (holder : HolderId) : (Nat × List ResourceRef) × CapabilityTable N :=
  let (result, table) := revokeTrees (fun record => record.holder = holder) table
  (result, releaseWhere (fun record => record.holder = holder) table)

def revokeHolderTree (holder : HolderId) : Nat × CapabilityTable N :=
  let ((revoked, _), table) := revokeHolderTreeVisiting table holder
  (revoked, table)

/-- Revokes and releases every capability on `(class, id)`, plus subtrees. -/
def revokeResourceTree (resourceClass : ResourceClass) (id : UInt64) : Nat × CapabilityTable N :=
  let selected := fun record : CapabilityRecord =>
    record.resource.class = resourceClass ∧ record.resource.id = id
  let ((revoked, _), table) := revokeTrees (fun record => selected record) table
  (revoked, releaseWhere (fun record => selected record) table)

/-- The walk of `authorize_revoke` up the parents: whether `actor` holds one of the next `steps`. A
parent that does not resolve ends it. -/
def holdsAncestor (table : CapabilityTable N) (actor : HolderId) :
    Nat → Option CapabilityHandle → Bool
  | 0, _ | _, none => false
  | steps + 1, some parentHandle =>
    match table.record parentHandle with
    | .error _ => false
    | .ok parentRecord =>
      parentRecord.holder = actor || holdsAncestor table actor steps parentRecord.provenance.parent

/-- Whether `actor` may revoke `handle`: it holds the record itself or an ancestor. -/
def authorizeRevoke (actor : HolderId) (handle : CapabilityHandle) : Except CapabilityError Unit :=
  match table.record handle with
  | .error error => .error error
  | .ok record =>
    if record.holder = actor then .ok ()
    else if holdsAncestor table actor maxDelegationDepth record.provenance.parent then .ok ()
    else .error .unauthorizedHolder

/-- Releases every revoked slot back to the pool. Returns the count released. -/
def releaseRevoked : Nat × CapabilityTable N :=
  (List.finRange N).foldl (fun (count, table) (slot : Fin N) =>
    let (released, table) := table.releaseSlot slot
    (if released then count + 1 else count, table)) (0, table)

end CleanSlate.Capability
