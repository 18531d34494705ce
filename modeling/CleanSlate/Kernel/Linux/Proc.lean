import CleanSlate.Kernel.Linux.Pipe
import CleanSlate.Lib.Run

/-!
# The process table of the Linux personality

`kernel/src/process/linux_proc`: parents and their children by `(pid, generation)`, what an exit
publishes to the parent, and `wait4`. The init pid, which only `getppid` reads, is left out, and so
is waking the waiters: a call that blocks is restarted from the top. `ProcSystem` puts the table
beside the process registry; the steps of `fork(2)` outside the table may fail as they like.
-/

namespace CleanSlate.Kernel.Linux

open Lib

def linuxMaxProcEntries : Nat := 6
def linuxProcMaxChildrenPerParent : Nat := 4

inductive ChildState where
  | running
  | zombie (status : Int32)
  | reaped
  deriving DecidableEq, Repr

structure ChildSlot where
  child : ProcId
  pgid : UInt64
  state : ChildState
  deriving DecidableEq, Repr

/-- The child list of a parent. -/
abbrev Children : Type := Fin linuxProcMaxChildrenPerParent → Option ChildSlot

structure ProcSlot where
  live : Bool
  id : ProcId
  parent : ProcId
  pgid : UInt64
  children : Children

/-- The parent of a launched process. -/
def noParent : ProcId := ⟨0, 0⟩

def ProcSlot.empty : ProcSlot := ⟨false, ⟨0, 0⟩, noParent, 0, fun _ => none⟩

structure LinuxProcessTable where
  slots : Fin linuxMaxProcEntries → ProcSlot

/-- What `log_proc_table_invariant` reports. -/
inductive ProcTableInvariant where
  | childMissingInParentList (exitee parent : ProcId)
  | parentSlotMissing (exitee parent : ProcId)
  | exiteeSlotMissing (exitee : ProcId)
  deriving DecidableEq, Repr

/-- Whether a child entry is the one of `id`. -/
def isChild (id : ProcId) : Option ChildSlot → Bool
  | none => false
  | some entry => entry.child = id

/-- `child_matches_wait`; negating the least selector wraps. -/
def ChildSlot.matchesWait (entry : ChildSlot) (waitPid : Int64) (parentPgid : UInt64) : Bool :=
  if waitPid = -1 then true
  else if waitPid = 0 then entry.pgid = parentPgid
  else if waitPid < -1 then entry.pgid = (-waitPid).toUInt64
  else entry.child.pid = waitPid.toUInt64

/-- The loop of `find_zombie_child`: every entry is marked before it is returned or skipped. -/
def scanChildren (liveGeneration : UInt64 → Option UInt64) (waitPid : Int64) (parentPgid : UInt64) :
    List (Fin linuxProcMaxChildrenPerParent) → Children → Option (ProcId × Int32) × Children
  | [], children => (none, children)
  | k :: ks, children =>
    match children k with
    | none => scanChildren liveGeneration waitPid parentPgid ks children
    | some entry =>
      if entry.matchesWait waitPid parentPgid then
        match entry.state with
        | .running | .reaped => scanChildren liveGeneration waitPid parentPgid ks children
        | .zombie status =>
          let marked := Function.update children k (some { entry with state := .reaped })
          if (liveGeneration entry.child.pid).any (· ≠ entry.child.generation) then
            scanChildren liveGeneration waitPid parentPgid ks marked
          else (some (entry.child, status), marked)
      else scanChildren liveGeneration waitPid parentPgid ks children

namespace LinuxProcessTable

def new : LinuxProcessTable := ⟨fun _ => .empty⟩

variable (t : LinuxProcessTable) (id : ProcId)

def write (index : Fin linuxMaxProcEntries) (slot : ProcSlot) : LinuxProcessTable :=
  ⟨Function.update t.slots index slot⟩

def slotIndex : Option (Fin linuxMaxProcEntries) :=
  Slots.position (fun slot => slot.live && decide (slot.id = id)) t.slots

/-- The live slot of a process. -/
def find : Option ProcSlot := (t.slotIndex id).map t.slots

def parentOf : Option ProcId := (t.find id).map (·.parent)

def pgidOf : Option UInt64 := (t.find id).map (·.pgid)

def occupied : Nat := Slots.count (·.live) t.slots

def setChildren (index : Fin linuxMaxProcEntries) (children : Children) : LinuxProcessTable :=
  t.write index { t.slots index with children }

/-- The child's slot is taken before its parent's list is known to have room. -/
def register (id parent : ProcId) : Except String Unit × LinuxProcessTable :=
  if (t.slotIndex id).isSome then (.error "linux proc already registered", t)
  else match Slots.position (fun slot => !slot.live) t.slots with
    | none => (.error "linux proc table full", t)
    | some free =>
      if parent.pid = 0 then (.ok (), t.write free ⟨true, id, parent, id.pid, fun _ => none⟩)
      else match t.pgidOf parent with
        | none => (.error "linux proc parent missing", t)
        | some pgid =>
          let t := t.write free ⟨true, id, parent, pgid, fun _ => none⟩
          match t.slotIndex parent with
          | none => (.error "linux proc parent missing", t)
          | some index =>
            let children := (t.slots index).children
            match Slots.position (·.isNone) children with
            | none => (.error "linux proc child capacity exceeded", t)
            | some k =>
              (.ok (), t.setChildren index (Function.update children k (some ⟨id, pgid, .running⟩)))

def retireSlot : LinuxProcessTable :=
  match t.slotIndex id with
  | none => t
  | some index => t.write index { t.slots index with live := false }

def dropChild (slot : ProcSlot) : ProcSlot :=
  { slot with children := fun k => if isChild id (slot.children k) then none else slot.children k }

def reapZombie : LinuxProcessTable := ⟨fun index => dropChild id ((t.retireSlot id).slots index)⟩

/-- What finalizing does at one child entry. -/
def reapEntry : Option ChildSlot → LinuxProcessTable
  | none => t
  | some entry => if entry.state = .reaped then t else t.reapZombie entry.child

/-- The entries are those the parent had before the first child is reaped. -/
def finalizeChildrenOnParentExit (parent : ProcId) : LinuxProcessTable :=
  match t.find parent with
  | none => t
  | some slot =>
    (List.finRange linuxProcMaxChildrenPerParent).foldl (fun t k => t.reapEntry (slot.children k)) t

def publishExit (status : Int32) : Option ProcTableInvariant × LinuxProcessTable :=
  match t.parentOf id with
  | none => (some (.exiteeSlotMissing id), t.reapZombie id)
  | some parent =>
    if parent.pid = 0 then (none, t.reapZombie id)
    else match t.slotIndex parent with
      | none => (some (.parentSlotMissing id parent), t.reapZombie id)
      | some index =>
        let children := (t.slots index).children
        match Slots.position (isChild id) children with
        | none => (some (.childMissingInParentList id parent), t.reapZombie id)
        | some k =>
          (none, t.setChildren index (Function.update children k
            ((children k).map fun entry => { entry with state := .zombie status })))

def findZombieChild (liveGeneration : UInt64 → Option UInt64)
    (parent : ProcId) (waitPid : Int64) : Option (ProcId × Int32) × LinuxProcessTable :=
  match t.slotIndex parent with
  | none => (none, t)
  | some index =>
    let slot := t.slots index
    let scan := scanChildren liveGeneration waitPid slot.pgid
      (List.finRange linuxProcMaxChildrenPerParent) slot.children
    (scan.1, t.setChildren index scan.2)

def hasWaitableChildren (parent : ProcId) (waitPid : Int64) : Bool :=
  match t.find parent with
  | none => false
  | some slot => decide (∃ k, (slot.children k).any fun entry =>
      entry.matchesWait waitPid slot.pgid && decide (entry.state ≠ .reaped))

/-- `has_child_in_wait_set`: the same entries as `has_waitable_children`. -/
def hasChildInWaitSet (parent : ProcId) (waitPid : Int64) : Bool :=
  t.hasWaitableChildren parent waitPid

/-- Clears `live` on slots whose pid no longer exists in the process registry. -/
def retireStaleLiveSlots (registryLive : UInt64 → Bool) : LinuxProcessTable := ⟨fun index =>
    let slot := t.slots index
    if slot.live && !registryLive slot.id.pid then { slot with live := false } else slot⟩

end LinuxProcessTable

/-! ## Exit -/

def exitStatusFromLinux (statusArg : UInt64) : UInt64 := statusArg &&& 0xff

def wExitcode (code : UInt32) : Int32 := (code <<< 8).toInt32

def wSignalledStatus (signal : UInt32) : Int32 := (signal &&& 0x7f).toInt32

def exitStatusWord (exitCode : UInt32) (faultSignal : Option UInt32) : Int32 :=
  match faultSignal with
  | some signal => wSignalledStatus signal
  | none => wExitcode exitCode

def faultVectorToSignal (vector : UInt64) : UInt32 := if vector = 6 then 4 else 11

namespace LinuxProcessTable

/-- `none` is the fatal error "linux exit without proc-table slot". -/
def publishLinuxExit (t : LinuxProcessTable) (id : ProcId) (status : UInt32)
    (finalizeChildren : Bool) : Option (Option ProcTableInvariant × LinuxProcessTable) :=
  if (t.slotIndex id).isNone then none
  else
    let published := t.publishExit id (exitStatusWord status none)
    let t := if finalizeChildren then published.2.finalizeChildrenOnParentExit id else published.2
    some (published.1, t.retireSlot id)

def publishLinuxSignalledExit (t : LinuxProcessTable) (id : ProcId) (signal : UInt32) :
    Option ProcTableInvariant × LinuxProcessTable :=
  if (t.slotIndex id).isNone then (none, t)
  else
    let published := t.publishExit id (exitStatusWord 0 (some signal))
    (published.1, published.2.retireSlot id)

end LinuxProcessTable

/-! ## `wait4` -/

def wnohang : UInt64 := 1
def wuntraced : UInt64 := 2
def wcontinued : UInt64 := 8
def wnothread : UInt64 := 0x20000000
def wall : UInt64 := 0x40000000
def wclone : UInt64 := 0x80000000
def waitOptionsAllowed : UInt64 := wnohang ||| wuntraced ||| wcontinued ||| wnothread ||| wall ||| wclone

/-- The arguments of `wait4`, and the memory the caller may write when it makes the call. -/
structure WaitCall where
  pid : Int64
  wstatus : UInt64
  options : UInt64
  rusage : UInt64
  writable : UInt64 → UInt64 → Bool

inductive WaitResult where
  /-- Returns the pid of the child, after storing the status where it is wanted. -/
  | child (child : ProcId) (status : Int32)
  /-- Returns 0. -/
  | none
  | failed (errno : LinuxErrno)
  | blocked
  deriving DecidableEq, Repr

/-- A null pointer asks for nothing. -/
def WaitCall.accepts (call : WaitCall) (pointer length : UInt64) : Bool :=
  pointer = 0 || call.writable pointer length

/-- The checks before the table is searched. -/
def LinuxProcessTable.checkWait (t : LinuxProcessTable) (parent : ProcId) (call : WaitCall) :
    Except LinuxErrno Unit :=
  if call.options &&& ~~~waitOptionsAllowed ≠ 0 then .error .einval
  else match t.pgidOf parent with
    | none => .error .einval
    | some pgid =>
      if call.pid < -1 ∧ (-call.pid).toUInt64 ≠ pgid then .error .echild
      else if call.accepts call.rusage 144 then .ok () else .error .efault

def LinuxProcessTable.linuxWait4 (t : LinuxProcessTable) (liveGeneration : UInt64 → Option UInt64)
    (parent : ProcId) (call : WaitCall) : WaitResult × LinuxProcessTable :=
  match t.checkWait parent call with
  | .error errno => (.failed errno, t)
  | .ok () =>
    let found := t.findZombieChild liveGeneration parent call.pid
    match found.1 with
    | some (child, status) =>
      if call.accepts call.wstatus 4 then (.child child status, found.2.reapZombie child)
      else (.failed .efault, found.2)
    | none =>
      if !found.2.hasChildInWaitSet parent call.pid then (.failed .echild, found.2)
      else if call.options &&& wnohang ≠ 0 then (.none, found.2)
      else if !found.2.hasWaitableChildren parent call.pid then (.failed .echild, found.2)
      else (.blocked, found.2)

/-! ## Processes -/

/-- The table, with the processes of the registry: those that have started and not yet ended. Pids
are handed out in increasing order. -/
structure ProcSystem where
  table : LinuxProcessTable
  registry : List ProcId
  lastPid : Nat

/-- Which step of `fork(2)` outside the table fails, if any. -/
inductive ForkFate where
  | completes
  /-- The address space, the registry, the scheduler, the descriptors or the capabilities. -/
  | failsBeforeRegister
  /-- The memory or the signal state. -/
  | failsAfterRegister
  deriving DecidableEq, Repr

inductive ProcOp where
  | launch (id : ProcId)
  | fork (parent id : ProcId) (fate : ForkFate)
  | exit (id : ProcId) (status : UInt64)
  | exitGroup (id : ProcId) (status : UInt64)
  | fault (id : ProcId) (vector : UInt64)
  | wait4 (parent : ProcId) (call : WaitCall)

inductive ProcResult where
  /-- Not a process that runs, or not a new pid. -/
  | ignored
  | started (id : ProcId)
  | failed (errno : LinuxErrno)
  | launchFailed (message : String)
  /-- The process has ended, with what was reported about the table. -/
  | exited (violation : Option ProcTableInvariant)
  /-- The kernel stops with "linux exit without proc-table slot". -/
  | fatal
  | waited (result : WaitResult)
  deriving DecidableEq, Repr

namespace ProcSystem

def new : ProcSystem := ⟨.new, [], 0⟩

variable (s : ProcSystem) (id : ProcId)

/-- `live_instance_generation`. -/
def liveGeneration (pid : UInt64) : Option UInt64 :=
  (s.registry.find? fun id => decide (id.pid = pid)).map (·.generation)

def registryLive (pid : UInt64) : Bool := s.registry.any fun id => decide (id.pid = pid)

/-- What `teardown_current_process` does to the table and the registry. -/
def teardown : ProcSystem := { s with
    table := s.table.retireStaleLiveSlots s.registryLive
    registry := s.registry.erase id }

def launch : ProcResult × ProcSystem :=
  let s := { s with lastPid := id.pid.toNat }
  match s.table.register id noParent with
  | (.error message, table) => (.launchFailed message, { s with table })
  | (.ok (), table) => (.started id, { s with table, registry := id :: s.registry })

/-- A pid is used up once the child is there to be registered. -/
def fork (parent id : ProcId) (fate : ForkFate) : ProcResult × ProcSystem :=
  if (s.table.slotIndex parent).isNone then (.failed .einval, s)
  else if s.table.occupied ≥ linuxMaxProcEntries then (.failed .eagain, s)
  else if fate = .failsBeforeRegister then (.failed .eagain, s)
  else
    let s := { s with lastPid := id.pid.toNat }
    match s.table.register id parent with
    | (.error _, table) => (.failed .eagain, { s with table })
    | (.ok (), table) =>
      if fate = .failsAfterRegister then (.failed .enomem, { s with table := table.reapZombie id })
      else (.started id, { s with table, registry := id :: s.registry })

def exit (status : UInt64) (finalizeChildren : Bool) : ProcResult × ProcSystem :=
  match s.table.publishLinuxExit id (exitStatusFromLinux status).toUInt32 finalizeChildren with
  | none => (.fatal, s)
  | some (violation, table) => (.exited violation, { s with table }.teardown id)

def fault (vector : UInt64) : ProcResult × ProcSystem :=
  let (violation, table) := s.table.publishLinuxSignalledExit id (faultVectorToSignal vector)
  (.exited violation, { s with table }.teardown id)

def wait4 (parent : ProcId) (call : WaitCall) : ProcResult × ProcSystem :=
  let (result, table) := s.table.linuxWait4 s.liveGeneration parent call
  (.waited result, { s with table })

/-- A call is made by a process that runs, and a new process has a pid above all before. -/
def enabled : ProcOp → Bool
  | .launch id => s.lastPid < id.pid.toNat
  | .fork parent id _ => decide (parent ∈ s.registry) && decide (s.lastPid < id.pid.toNat)
  | .exit id _ | .exitGroup id _ | .fault id _ => id ∈ s.registry
  | .wait4 parent _ => parent ∈ s.registry

def perform : ProcOp → ProcResult × ProcSystem
  | .launch id => s.launch id
  | .fork parent id fate => s.fork parent id fate
  | .exit id status => s.exit id status false
  | .exitGroup id status => s.exit id status true
  | .fault id vector => s.fault id vector
  | .wait4 parent call => s.wait4 parent call

def step (op : ProcOp) : ProcResult × ProcSystem :=
  if s.enabled op then s.perform op else (.ignored, s)

end ProcSystem

end CleanSlate.Kernel.Linux
