import CleanSlate.Lib.Ring
import CleanSlate.Lib.Slots

/-!
# Pipes of the Linux personality

`PipePool` of `kernel/src/process/linux_proc/pipe.rs`: eight rings with the number of open
descriptions that read and write them. Waking the waiters is left out; a call that blocks is
restarted from the top, so any later call of the same process may be the restarted one.
-/

namespace CleanSlate.Kernel.Linux

open Lib

inductive LinuxErrno where
  | esrch
  | ebadf
  | echild
  | eagain
  | enomem
  | eacces
  | efault
  | einval
  | enfile
  | emfile
  | epipe
  deriving DecidableEq, Repr

/-- A process by its pid and instance generation. -/
structure ProcId where
  pid : UInt64
  generation : UInt64
  deriving DecidableEq, Repr

def linuxPipeMax : Nat := 8
def linuxPipeCapacity : Nat := 1024

instance : NeZero linuxPipeMax := ⟨by decide⟩
instance : NeZero linuxPipeCapacity := ⟨by decide⟩

/-- The slot and generation of a pipe: `PipeId`, and the `PipeHandle` made of it. -/
structure PipeId where
  index : Fin linuxPipeMax
  generation : UInt32
  deriving DecidableEq, Repr

inductive PipeEnd where
  | read
  | write
  deriving DecidableEq, Repr

structure PipeRef where
  pipe : PipeId
  pipeEnd : PipeEnd
  deriving DecidableEq, Repr

/-- A pipe; the ring is the fields `buffer`, `head` and `len`. -/
structure PipeSlot where
  live : Bool
  generation : UInt32
  ring : Ring UInt8 linuxPipeCapacity
  readers : Nat
  writers : Nat

structure PipePool where
  slots : Fin linuxPipeMax → PipeSlot
  nextGeneration : UInt32

inductive PipeReadOutcome where
  | block
  | stale
  deriving DecidableEq, Repr

inductive PipeWriteOutcome where
  | block
  | epipe
  | stale
  deriving DecidableEq, Repr

/-- `u32::saturating_add(1)`. -/
def nextU32 (n : UInt32) : UInt32 := if n = 0xFFFFFFFF then n else n + 1

/-- `u16::saturating_add(1)` of a counter. -/
def succU16 (n : Nat) : Nat := min (n + 1) 65535

namespace PipeSlot

def emptyRing : Ring UInt8 linuxPipeCapacity := ⟨0, 0, fun _ => 0⟩

def empty : PipeSlot := ⟨false, 0, emptyRing, 0, 0⟩

/-- A pipe nothing is attached to yet. -/
def fresh (generation : UInt32) : PipeSlot := ⟨true, generation, emptyRing, 0, 0⟩

/-- The bytes the pipe has room for. -/
def space (slot : PipeSlot) : Nat := linuxPipeCapacity - slot.ring.len

/-- `release_end` on the slot: a pipe without ends is gone. -/
def releaseEnd (slot : PipeSlot) (pipeEnd : PipeEnd) : PipeSlot := let slot :=
  match pipeEnd with
    | .read => { slot with readers := slot.readers - 1 }
    | .write => { slot with writers := slot.writers - 1 }
  if slot.readers = 0 ∧ slot.writers = 0 then { slot with live := false } else slot

end PipeSlot

namespace PipePool

def new : PipePool := ⟨fun _ => .empty, 1⟩

/-- `slot_mut`. -/
def slot (pool : PipePool) (handle : PipeId) : Option PipeSlot :=
  let slot := pool.slots handle.index
  if slot.live ∧ slot.generation = handle.generation then some slot else none

variable (pool : PipePool)

def write (index : Fin linuxPipeMax) (slot : PipeSlot) : PipePool := { pool with
  slots := Function.update pool.slots index slot }

def allocPipe : Except LinuxErrno (PipeId × PipePool) :=
  match Slots.position (fun slot => !slot.live) pool.slots with
  | none => .error .eagain
  | some index =>
    let generation := pool.nextGeneration
    .ok (⟨index, generation⟩, { pool.write index (.fresh generation) with
      nextGeneration := max (nextU32 pool.nextGeneration) 1 })

/-- `add_reader` and `add_writer`. -/
def addEnd (ref : PipeRef) : PipePool :=
  match pool.slot ref.pipe with
  | none => pool
  | some slot => pool.write ref.pipe.index <| match ref.pipeEnd with
    | .read => { slot with readers := succU16 slot.readers }
    | .write => { slot with writers := succU16 slot.writers }

def releaseEnd (pool : PipePool) (ref : PipeRef) : PipePool :=
  match pool.slot ref.pipe with
  | none => pool
  | some slot => pool.write ref.pipe.index (slot.releaseEnd ref.pipeEnd)

/-- `discard_unattached`: frees a pipe no open description ever attached to. -/
def discardUnattached (handle : PipeId) : PipePool :=
  match pool.slot handle with
  | none => pool
  | some slot =>
    if slot.readers = 0 ∧ slot.writers = 0 then pool.write handle.index { slot with live := false }
    else pool

/-- `read_into` a buffer of `want` bytes: the bytes read, none at the end of the file. -/
def readInto (handle : PipeId) (want : Nat) : Except PipeReadOutcome (List UInt8 × PipePool) :=
  match pool.slot handle with
  | none => .error .stale
  | some slot =>
    if slot.ring.len > 0 then
      let (bytes, ring) := slot.ring.popSlice want
      .ok (bytes, pool.write handle.index { slot with ring })
    else if slot.writers > 0 then .error .block
    else .ok ([], pool)

/-- `write_from`: stores what there is room for. -/
def writeFrom (handle : PipeId) (bytes : List UInt8) : Except PipeWriteOutcome (Nat × PipePool) :=
  match pool.slot handle with
  | none => .error .stale
  | some slot =>
    if slot.readers = 0 then .error .epipe
    else if slot.space = 0 then .error .block
    else
      let (taken, ring) := slot.ring.pushSlice bytes
      .ok (taken, pool.write handle.index { slot with ring })

end PipePool

end CleanSlate.Kernel.Linux
