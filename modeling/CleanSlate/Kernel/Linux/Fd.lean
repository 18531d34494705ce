import CleanSlate.Kernel.Linux.Pipe
import CleanSlate.Lib.Checks

/-!
# File descriptors of the Linux personality

`kernel/src/process/linux_fd`: the pool of open descriptions with their reference counts, the
descriptor table of a process, and the registry of the tables. A description attaches to its pipe
with its first reference and is released from it with the last one. Offset, status and owner of a
description are left out, and so is what the kinds other than pipes refer to.
-/

namespace CleanSlate.Kernel.Linux

open Lib Function

def openDescriptionCapacity : Nat := 48
def openDescriptionRefMax : Nat := 4096
def linuxFdTableCapacity : Nat := 16
def kernelProcessId : UInt64 := 0

/-! ## Open descriptions -/

structure OpenDescriptionId where
  index : Fin openDescriptionCapacity
  generation : UInt32
  deriving DecidableEq, Repr

inductive DescriptorKind where
  | console
  | file
  | dir
  | pipeRead (pipe : PipeRef)
  | pipeWrite (pipe : PipeRef)
  | socket
  deriving DecidableEq, Repr

/-- The pipe end a description attaches to. -/
def DescriptorKind.pipe : DescriptorKind → Option PipeRef
  | .pipeRead pipe | .pipeWrite pipe => some pipe
  | .console | .file | .dir | .socket => none

structure OpenDescription where
  kind : DescriptorKind
  refcount : Nat
  generation : UInt32
  deriving DecidableEq, Repr

structure PoolSlot where
  live : Bool
  generation : UInt32
  description : OpenDescription
  deriving DecidableEq, Repr

/-- The open-description pool, with the pipe pool it reports to. -/
structure Descriptors where
  slots : Fin openDescriptionCapacity → PoolSlot
  pipes : PipePool

namespace Descriptors

def new : Descriptors := ⟨fun _ => ⟨false, 1, ⟨.file, 0, 0⟩⟩, .new⟩

variable (ds : Descriptors) (id : OpenDescriptionId)

def write (index : Fin openDescriptionCapacity) (slot : PoolSlot) : Descriptors :=
  { ds with slots := update ds.slots index slot }

/-- `alloc_console`, `alloc_socket`, `alloc_file_or_dir`: a description without references. -/
def alloc (kind : DescriptorKind) : Except LinuxErrno (OpenDescriptionId × Descriptors) :=
  match Slots.position (fun slot => !slot.live) ds.slots with
  | none => .error .enfile
  | some index =>
    let generation := (ds.slots index).generation
    .ok (⟨index, generation⟩, ds.write index ⟨true, generation, ⟨kind, 0, generation⟩⟩)

def allocPipe (pipe : PipeRef) : Except LinuxErrno (OpenDescriptionId × Descriptors) :=
  ds.alloc <| match pipe.pipeEnd with
    | .read => .pipeRead pipe
    | .write => .pipeWrite pipe

/-- `get` and `get_mut`. -/
def get : Except LinuxErrno OpenDescription :=
  let slot := ds.slots id.index
  if !slot.live then .error .ebadf
  else if slot.generation ≠ id.generation ∨ slot.description.generation ≠ id.generation then
    .error .ebadf
  else .ok slot.description

def setRefcount (index : Fin openDescriptionCapacity) (refcount : Nat) : Descriptors :=
  let slot := ds.slots index
  ds.write index { slot with description := { slot.description with refcount } }

def addRef : Except LinuxErrno Descriptors := do
  let desc ← ds.get id
  if desc.refcount ≥ openDescriptionRefMax then .error .emfile
  else .ok (ds.setRefcount id.index (desc.refcount + 1))

/-- `attach_pipe_open_description`. -/
def attachPipe (kind : DescriptorKind) : Descriptors :=
  match kind.pipe with
  | none => ds
  | some pipe => { ds with pipes := ds.pipes.addEnd pipe }

/-- `detach_pipe_open_description`. -/
def detachPipe (kind : DescriptorKind) : Descriptors :=
  match kind.pipe with
  | none => ds
  | some pipe => { ds with pipes := ds.pipes.releaseEnd pipe }

def attachFirstRef : Except LinuxErrno Descriptors := do
  let desc ← ds.get id
  if desc.refcount = 0 then .ok ((ds.setRefcount id.index 1).attachPipe desc.kind)
  else ds.addRef id

def finalizeSlot (index : Fin openDescriptionCapacity) : Descriptors :=
  let slot := ds.slots index
  if !slot.live then ds
  else ds.write index { slot with
    live := false
    generation := nextU32 slot.generation }

def releaseRef : Except LinuxErrno Descriptors :=
  let slot := ds.slots id.index
  if !slot.live then .error .ebadf
  else if slot.generation ≠ id.generation then .error .ebadf
  else if slot.description.refcount = 0 then .error .ebadf
  else
    let refcount := slot.description.refcount - 1
    let ds := ds.setRefcount id.index refcount
    if refcount = 0 then .ok ((ds.detachPipe slot.description.kind).finalizeSlot id.index)
    else .ok ds

/-- Frees a description whose install into a table failed before any descriptor referred to it. -/
def freeUnattached : Descriptors :=
  match ds.get id with
  | .ok desc => if desc.refcount = 0 then ds.finalizeSlot id.index else ds
  | .error _ => ds

end Descriptors

/-! ## The table of a process -/

structure FdEntry where
  openId : OpenDescriptionId
  cloexec : Bool
  deriving DecidableEq, Repr

abbrev LinuxFdTable := Fin linuxFdTableCapacity → Option FdEntry

namespace LinuxFdTable

def empty : LinuxFdTable := fun _ => none

/-- The index of a descriptor the table has room for. -/
def indexOf (fd : Nat) : Option (Fin linuxFdTableCapacity) :=
  if h : fd < linuxFdTableCapacity then some ⟨fd, h⟩ else none

variable (table : LinuxFdTable) (ds : Descriptors)

def get (fd : Nat) : Option FdEntry := (indexOf fd).bind table

def clear (index : Fin linuxFdTableCapacity) : LinuxFdTable := update table index none

def allocLowest (id : OpenDescriptionId) (cloexec : Bool) :
    Except LinuxErrno (Fin linuxFdTableCapacity × LinuxFdTable × Descriptors) :=
  match Slots.position (fun entry => entry.isNone) table with
  | none => .error .emfile
  | some index => do
    let ds ← ds.attachFirstRef id
    .ok (index, update table index (some ⟨id, cloexec⟩), ds)

/-- `set_at`, for an index inside the table. -/
def setAt (index : Fin linuxFdTableCapacity)
    (id : OpenDescriptionId) (cloexec : Bool) : Except LinuxErrno (LinuxFdTable × Descriptors) :=
  if (table index).isSome then .error .emfile
  else do
    let ds ← ds.attachFirstRef id
    .ok (update table index (some ⟨id, cloexec⟩), ds)

/-- `close_fd_entry`: the entry goes, whatever its release says. -/
def closeFdEntry (fd : Nat) : Except LinuxErrno Unit × LinuxFdTable × Descriptors :=
  match indexOf fd with
  | none => (.error .ebadf, table, ds)
  | some index =>
    match table index with
    | none => (.error .ebadf, table, ds)
    | some entry =>
      match ds.releaseRef entry.openId with
      | .error errno => (.error errno, table.clear index, ds)
      | .ok ds => (.ok (), table.clear index, ds)

def dup2Fd (oldFd newFd : Nat) : Except LinuxErrno (LinuxFdTable × Descriptors) :=
  match table.get oldFd with
  | none => .error .ebadf
  | some old =>
    if oldFd = newFd then .ok (table, ds)
    else match indexOf newFd with
      | none => .error .ebadf
      | some index => do
        let ds ← ds.addRef old.openId
        let replaced := table index
        let table := update table index (some ⟨old.openId, false⟩)
        match replaced with
        | none => .ok (table, ds)
        -- errors from the implicit close are not reported
        | some replaced => .ok (table, (ds.releaseRef replaced.openId).toOption.getD ds)

/-- The loop of `close_on_exec` and `release_table` over the indices left: it stops at an error. -/
def closeEntries (closes : FdEntry → Bool) : List (Fin linuxFdTableCapacity) → LinuxFdTable →
    Descriptors → Except LinuxErrno Unit × LinuxFdTable × Descriptors
  | [], table, ds => (.ok (), table, ds)
  | index :: indices, table, ds =>
    if (table index).any closes then
      match table.closeFdEntry ds index with
      | (.error errno, table, ds) => (.error errno, table, ds)
      | (.ok (), table, ds) => closeEntries closes indices table ds
    else closeEntries closes indices table ds

def closeOnExec : Except LinuxErrno Unit × LinuxFdTable × Descriptors :=
  closeEntries FdEntry.cloexec (List.finRange _) table ds

def releaseTable : Except LinuxErrno Unit × LinuxFdTable × Descriptors :=
  closeEntries (fun _ => true) (List.finRange _) table ds

/-- The loop of `inherit_table`: a reference that cannot be taken releases those taken so far. -/
def inheritEntries (parent : LinuxFdTable) : List (Fin linuxFdTableCapacity) → LinuxFdTable →
    Descriptors → Except LinuxErrno Unit × LinuxFdTable × Descriptors
  | [], child, ds => (.ok (), child, ds)
  | index :: indices, child, ds =>
    match parent index with
    | none => inheritEntries parent indices child ds
    | some entry =>
      match ds.addRef entry.openId with
      | .error errno =>
        let (_, child, ds) := child.releaseTable ds
        (.error errno, child, ds)
      | .ok ds => inheritEntries parent indices (update child index (some entry)) ds

def inheritTable (parent : LinuxFdTable) (ds : Descriptors) :
    Except LinuxErrno Unit × LinuxFdTable × Descriptors :=
  inheritEntries parent (List.finRange _) empty ds

end LinuxFdTable

/-! ## The registry -/

structure LinuxFdRegistrySlot where
  id : ProcId
  table : LinuxFdTable

/-- The tables of the processes, and the descriptions they refer to. -/
structure LinuxFdRegistry (P : Nat) where
  slots : Fin P → Option LinuxFdRegistrySlot
  descriptors : Descriptors

namespace LinuxFdRegistry

variable {P : Nat}

def new : LinuxFdRegistry P := ⟨fun _ => none, .new⟩

variable (r : LinuxFdRegistry P) (id : ProcId)

def isSlotOf (slot : Option LinuxFdRegistrySlot) : Bool := slot.any fun entry => entry.id = id

def slotIndex : Option (Fin P) := Slots.position (isSlotOf id) r.slots

def table (r : LinuxFdRegistry P) (index : Fin P) : LinuxFdTable :=
  match r.slots index with
  | some entry => entry.table
  | none => .empty

/-- Writes a table and the descriptions back. -/
def put (index : Fin P) (id : ProcId) (table : LinuxFdTable)
    (ds : Descriptors) : LinuxFdRegistry P where
  slots := update r.slots index (some ⟨id, table⟩)
  descriptors := ds

/-- `ensure_slot_index`. -/
def ensureSlotIndex : Option (Fin P × LinuxFdRegistry P) :=
  if id.pid = kernelProcessId then none
  else match r.slotIndex id with
    | some index => some (index, r)
    | none => (Slots.position Option.isNone r.slots).map fun free =>
      (free, r.put free id .empty r.descriptors)

/-- The entry of a descriptor. -/
def entry (fd : Nat) : Option FdEntry := do
  let index ← r.slotIndex id
  (r.table index).get fd

/-- `open_description_kind`. -/
def openDescriptionKind (fd : Nat) : Except LinuxErrno DescriptorKind := do
  let entry ← okOr (r.entry id fd) .ebadf
  let desc ← r.descriptors.get entry.openId
  .ok desc.kind

def pipeWriteRef (fd : Nat) : Option PipeRef :=
  match r.openDescriptionKind id fd with
  | .ok (.pipeWrite pipe) => some pipe
  | _ => none

def pipeReadRef (fd : Nat) : Option PipeRef :=
  match r.openDescriptionKind id fd with
  | .ok (.pipeRead pipe) => some pipe
  | _ => none

/-- `install_pipe_ends`, at two free indices. -/
def installPipeEnds (table : LinuxFdTable) (ds : Descriptors)
    (readFd writeFd : Fin linuxFdTableCapacity) (read write : PipeRef) :
    Except LinuxErrno Unit × LinuxFdTable × Descriptors :=
  match ds.allocPipe read with
  | .error errno => (.error errno, table, ds)
  | .ok (readOpen, ds) =>
    match ds.allocPipe write with
    | .error errno => (.error errno, table, ds.freeUnattached readOpen)
    | .ok (writeOpen, ds) =>
      match table.setAt ds readFd readOpen false with
      | .error errno =>
        (.error errno, table, (ds.freeUnattached readOpen).freeUnattached writeOpen)
      | .ok (table, ds) =>
        match table.setAt ds writeFd writeOpen false with
        | .error errno =>
          let (_, table, ds) := table.closeFdEntry ds readFd
          (.error errno, table, ds.freeUnattached writeOpen)
        | .ok (table, ds) => (.ok (), table, ds)

/-- `open_pipe`: `[read_fd, write_fd]` of a new pipe at the two lowest free descriptors. -/
def openPipe :
    Except LinuxErrno (Fin linuxFdTableCapacity × Fin linuxFdTableCapacity) × LinuxFdRegistry P :=
  match r.ensureSlotIndex id with
  | none => (.error .ebadf, r)
  | some (index, r) =>
    match (List.finRange _).filter fun fd => ((r.table index) fd).isNone with
    | readFd :: writeFd :: _ =>
      match r.descriptors.pipes.allocPipe with
      | .error errno => (.error errno, r)
      | .ok (pipe, pipes) =>
        match installPipeEnds (r.table index) { r.descriptors with pipes } readFd writeFd
            ⟨pipe, .read⟩ ⟨pipe, .write⟩ with
        | (.error errno, table, ds) =>
          (.error errno, r.put index id table { ds with pipes := ds.pipes.discardUnattached pipe })
        | (.ok (), table, ds) => (.ok (readFd, writeFd), r.put index id table ds)
    | _ => (.error .emfile, r)

/-- `alloc_description_and_fd`: a descriptor for a new description of a kind that is no pipe. -/
def allocDescriptionAndFd (kind : DescriptorKind)
    (cloexec : Bool) : Except LinuxErrno (Fin linuxFdTableCapacity) × LinuxFdRegistry P :=
  match r.slotIndex id with
  | none => (.error .ebadf, r)
  | some index =>
    match r.descriptors.alloc kind with
    | .error errno => (.error errno, r)
    | .ok (openId, ds) =>
      match (r.table index).allocLowest ds openId cloexec with
      | .error errno => (.error errno, { r with descriptors := ds.freeUnattached openId })
      | .ok (fd, table, ds) => (.ok fd, r.put index id table ds)

def closeFd (fd : Nat) : Except LinuxErrno Unit × LinuxFdRegistry P :=
  match r.slotIndex id with
  | none => (.error .ebadf, r)
  | some index =>
    let (result, table, ds) := (r.table index).closeFdEntry r.descriptors fd
    (result, r.put index id table ds)

def dup2 (oldFd newFd : Nat) : Except LinuxErrno Unit × LinuxFdRegistry P :=
  match r.slotIndex id with
  | none => (.error .ebadf, r)
  | some index =>
    match (r.table index).dup2Fd r.descriptors oldFd newFd with
    | .error errno => (.error errno, r)
    | .ok (table, ds) => (.ok (), r.put index id table ds)

/-- `dup_to_lowest_at_or_above`. -/
def dupToLowestAtOrAbove (oldFd minFd : Nat) :
    Except LinuxErrno (Fin linuxFdTableCapacity) × LinuxFdRegistry P :=
  match r.slotIndex id with
  | none => (.error .ebadf, r)
  | some index =>
    match (r.table index).get oldFd with
    | none => (.error .ebadf, r)
    | some old =>
      if minFd ≥ linuxFdTableCapacity then (.error .einval, r)
      else
        match (List.finRange _).find? fun fd => decide (minFd ≤ fd.val) && ((r.table index) fd).isNone with
        | none => (.error .emfile, r)
        | some fd =>
          match r.descriptors.addRef old.openId with
          | .error errno => (.error errno, r)
          | .ok ds =>
            (.ok fd, r.put index id (update (r.table index) fd (some ⟨old.openId, true⟩)) ds)

/-- `set_fd_cloexec`. -/
def setFdCloexec (fd : Nat) (cloexec : Bool) : Except LinuxErrno Unit × LinuxFdRegistry P :=
  match r.slotIndex id, LinuxFdTable.indexOf fd with
  | some index, some fd =>
    match r.table index fd with
    | none => (.error .ebadf, r)
    | some entry => (.ok (), r.put index id
      (update (r.table index) fd (some { entry with cloexec })) r.descriptors)
  | _, _ => (.error .ebadf, r)

/-- `inherit_for_child`. -/
def inheritForChild (parent child : ProcId) : Except LinuxErrno Unit × LinuxFdRegistry P :=
  match r.slotIndex parent with
  | none => (.error .ebadf, r)
  | some parentIndex =>
    let parentTable := r.table parentIndex
    match r.ensureSlotIndex child with
    | none => (.error .ebadf, r)
    | some (childIndex, r) =>
      let (result, table, ds) := parentTable.inheritTable r.descriptors
      (result, r.put childIndex child table ds)

/-- `close_on_exec_for_process`. -/
def closeOnExec (r : LinuxFdRegistry P) (id : ProcId) :
    Except LinuxErrno Unit × LinuxFdRegistry P :=
  match r.slotIndex id with
  | none => (.ok (), r)
  | some index =>
    let (result, table, ds) := (r.table index).closeOnExec r.descriptors
    (result, r.put index id table ds)

/-- Releases the table at `index` and empties the slot. -/
def releaseAt (index : Fin P) : LinuxFdRegistry P where
  slots := update r.slots index none
  descriptors := ((r.table index).releaseTable r.descriptors).2.2

/-- `release`: the table of the instance, or else the first one of its pid. -/
def release : Option (LinuxFdRegistry P) :=
  ((r.slotIndex id).or (Slots.position (fun slot => slot.any fun entry => entry.id.pid = id.pid)
    r.slots)).map r.releaseAt

/-- `release_by_pid`: every table of the pid. -/
def releaseByPid (pid : UInt64) : LinuxFdRegistry P := (List.finRange P).foldl (fun r index =>
    if (r.slots index).any fun entry => entry.id.pid = pid then r.releaseAt index else r) r

/-- `release_for_process`. -/
def releaseForProcess : LinuxFdRegistry P := (r.release id).getD (r.releaseByPid id.pid)

end LinuxFdRegistry

end CleanSlate.Kernel.Linux
