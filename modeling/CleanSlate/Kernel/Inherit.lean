import CleanSlate.Capability.Ops

/-!
# The kernel's paths into the capability table

`kernel/src/capability/mod.rs` and its siblings. Besides the forest operations the kernel rolls
back a record it has just installed, and copies a process's capabilities on `fork(2)`.
-/

namespace CleanSlate.Kernel

open Capability

variable {N : Nat} (table : CapabilityTable N)

/-- `rollback_installed_capability` and `rollback_installed_child`: revoke and release the record
a handle names. -/
def rollbackInstalled (handle : CapabilityHandle) : CapabilityTable N :=
  match table.revoke handle with
  | (.ok _, table) => (table.releaseSlot handle.slot.toNat).2
  | (.error _, table) => table

/-- Revokes the records a failed inheritance installed. -/
def rollbackForkInherited (handles : List CapabilityHandle) : CapabilityTable N :=
  handles.foldl (fun table handle => (table.revoke handle).2) table

/-- The record `fork` installs for the child: the parent's resource and rights, `provenance` one
level below the parent's record. -/
def childRecord (child : HolderId) (record : CapabilityRecord) (provenance : Provenance) :
    CapabilityRecord where
  state := .live
  holder := child
  resource := record.resource
  rights := record.rights
  provenance := provenance
  generation := 0

theorem listHolder_cursor {table : CapabilityTable N} {holder : HolderId} {cursor next : Nat}
    {handle : CapabilityHandle} {record : CapabilityRecord}
    (h : listHolder table holder cursor = some (next, handle, record)) :
    cursor < next ∧ next ≤ N := by
  unfold listHolder at h
  split at h
  · cases h
  next slot hsl =>
  split at h
  · cases h
  cases h
  have hfn := Lib.Slots.position_some hsl
  simp only [id, decide_eq_true_eq] at hfn
  omega

/-- The loop of `inherit_capabilities_for_fork` from `cursor` on. -/
def inheritFrom (parent child : HolderId) (table : CapabilityTable N) (cursor : Nat)
    (installed : List CapabilityHandle) : Except CapabilityError Unit × CapabilityTable N :=
  match _h : listHolder table parent cursor with
  | none => (.ok (), table)
  | some (nextCursor, handle, record) =>
    match Provenance.childOf handle record.provenance with
    -- the `?` returns at once: what was installed so far stays
    | .error error => (.error error, table)
    | .ok provenance =>
      if installed.length ≥ N then
        (.error .capacityExhausted, rollbackForkInherited table installed)
      else
        match table.install (childRecord child record provenance) with
        | (.ok childHandle, table) =>
          inheritFrom parent child table nextCursor (installed ++ [childHandle])
        | (.error error, table) => (.error error, rollbackForkInherited table installed)
termination_by N - cursor
decreasing_by
  have := listHolder_cursor _h
  omega

/-- Duplicates every live capability held by `parent` onto `child` for Linux `fork(2)`. -/
def inheritCapabilitiesForFork (parent child : HolderId) :
    Except CapabilityError Unit × CapabilityTable N :=
  inheritFrom parent child table 0 []

/-! ## The kernel's table as a transition system -/

/-- A call the kernel makes on its capability table. The children that the SENDs of a service port
install there, and its purges release, are left out. -/
inductive KernelOp where
  | forest (op : ForestOp)
  /-- A grant or delegation whose bookkeeping failed, so the new record is rolled back. -/
  | rolledBack (op : ForestOp)
  | inherit (parent child : HolderId)

inductive KernelResult where
  | table (result : TableResult)
  | inherit (result : Except CapabilityError Unit)

def kernelStep : KernelOp → KernelResult × CapabilityTable N
  | .forest op =>
    let (result, table) := forestStep table op
    (.table result, table)
  | .rolledBack op =>
    let (result, table) := forestStep table op
    match result.issued with
    | some handle => (.table result, rollbackInstalled table handle)
    | none => (.table result, table)
  | .inherit parent child =>
    let (result, table) := inheritCapabilitiesForFork table parent child
    (.inherit result, table)

end CleanSlate.Kernel
