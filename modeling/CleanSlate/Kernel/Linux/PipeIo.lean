import CleanSlate.Kernel.Linux.Fd

/-!
# Reading and writing pipes

`read(2)`, `write(2)` and `writev(2)` on pipe ends: `kernel/src/syscall/linux/fd.rs`, `write.rs` and
`user_copy.rs` down to the pipe pool. A handler runs to its end or blocks. The kernel stack of a
blocked handler is abandoned, and the woken thread executes the system call again from the top with
the same arguments, so a blocked call has no result and nothing of it is kept.
-/

namespace CleanSlate.Kernel.Linux

open Lib

def linuxReadScratchBytes : Nat := 1024
def linuxUserCopyMaxBytes : Nat := 64
def linuxWriteChunkBytes : Nat := 64
def linuxWriteMaxBytes : Nat := 4096
def linuxWriteMaxChunks : Nat := 64
def linuxIovMax : Nat := 8

/-- How a system call comes out. -/
inductive Outcome (α : Type) where
  | done (value : α)
  | failed (errno : LinuxErrno)
  | blocked
  /-- The descriptor is not a pipe, and its backend takes the call. -/
  | elsewhere
  deriving DecidableEq, Repr

/-! ## User memory -/

/-- The memory of the calling process: no byte where nothing is mapped for it. -/
abbrev UserMemory := Nat → Option UInt8

/-- `validate_user_pointer_range`. -/
def UserMemory.validRange (mem : UserMemory) (ptr len : Nat) : Bool :=
  (List.range len).all fun i => (mem (ptr + i)).isSome

/-- The bytes of a range. -/
def UserMemory.bytes (mem : UserMemory) (ptr len : Nat) : List UInt8 :=
  (List.range len).map fun i => (mem (ptr + i)).getD 0

def copyUserBytes (mem : UserMemory) (ptr length : Nat) : Except LinuxErrno (List UInt8) :=
  if length = 0 then .ok []
  else
    let copyLen := min length linuxUserCopyMaxBytes
    if !mem.validRange ptr copyLen then .error .efault else .ok (mem.bytes ptr copyLen)

/-- The loop of `write_fd` that copies `want` bytes in. -/
def copyIn (mem : UserMemory) (ptr want : Nat) : Except LinuxErrno (List UInt8) :=
  if want = 0 then .ok []
  else match copyUserBytes mem ptr want with
    | .error errno => .error errno
    | .ok chunk =>
      if chunk.length = 0 then .ok []
      else match copyIn mem (ptr + chunk.length) (want - chunk.length) with
        | .error errno => .error errno
        | .ok rest => .ok (chunk ++ rest)
termination_by want

structure IoVec where
  base : Nat
  len : Nat
  deriving DecidableEq, Repr

/-- The checks of `handle_sys_writev` on its vectors; `total` is the length so far. -/
def checkIovecs (mem : UserMemory) : Nat → List IoVec → Except LinuxErrno Nat
  | total, [] => .ok total
  | total, iov :: iovecs =>
    if total + iov.len ≥ 2 ^ 64 then .error .einval
    else if iov.len > 0 ∧ !mem.validRange iov.base iov.len then .error .efault
    else checkIovecs mem (total + iov.len) iovecs

/-- The closure of `handle_sys_writev` that gathers `len` bytes from `pos` on. -/
def fetchIovecs (mem : UserMemory) : List IoVec → Nat → Nat → Except LinuxErrno (List UInt8)
  | [], _, _ => .ok []
  | iov :: iovecs, pos, len =>
    if pos ≥ iov.len then fetchIovecs mem iovecs (pos - iov.len) len
    else do
      let take := min (iov.len - pos) len
      let chunk ← copyUserBytes mem (iov.base + pos) take
      if take ≥ len then .ok chunk
      else
        let rest ← fetchIovecs mem iovecs 0 (len - take)
        .ok (chunk ++ rest)

/-! ## Chunked writes -/

def clampWriteCount (count : Nat) : Nat := min count linuxWriteMaxBytes

/-- An error after some bytes were delivered reports their count. -/
def partialOrError (written : Nat) (errno : LinuxErrno) : Outcome Nat :=
  if written = 0 then .failed errno else .done written

variable {σ : Type}

section
variable (fetch : Nat → Nat → Except LinuxErrno (List UInt8))
  (deliver : σ → List UInt8 → Outcome Nat × σ)

/-- The rounds left of the loop in `write_chunked`. -/
def writeChunks (total : Nat) : Nat → Nat → σ → Outcome Nat × σ
  | 0, written, s => (.done written, s)
  | rounds + 1, written, s =>
    if written ≥ total then (.done written, s)
    else
      let want := min (total - written) linuxWriteChunkBytes
      match fetch written want with
      | .error errno => (partialOrError written errno, s)
      | .ok chunk =>
        if chunk.length ≠ want then (partialOrError written .einval, s)
        else match deliver s chunk with
          | (.failed errno, s) => (partialOrError written errno, s)
          | (.blocked, s) => (.blocked, s)
          | (.elsewhere, s) => (.elsewhere, s)
          | (.done sent, s) =>
            if sent > chunk.length then (partialOrError written .einval, s)
            else if sent < chunk.length then (.done (written + sent), s)
            else writeChunks total rounds (written + sent) s

def writeChunked (count : Nat) (s : σ) : Outcome Nat × σ :=
  if count = 0 then (.done 0, s)
  else writeChunks fetch deliver (clampWriteCount count) linuxWriteMaxChunks 0 s

end

/-! ## Handlers -/

theorem PipePool.writeFrom_taken {pool pool' : PipePool} {handle : PipeId} {bytes : List UInt8}
    {taken : Nat} (h : pool.writeFrom handle bytes = .ok (taken, pool')) :
    0 < min bytes.length taken ∨ bytes = [] := by
  unfold writeFrom at h
  split at h
  · cases h
  split at h
  · cases h
  split at h
  · cases h
  next hsp =>
  cases h
  unfold PipeSlot.space at hsp
  rcases bytes with _ | ⟨b, bytes⟩
  · exact .inr rfl
  · left
    change 0 < min (bytes.length + 1) (min (bytes.length + 1) _)
    omega

/-- The loop of `write_fd_buffer` over the bytes left: it stores until it blocks. -/
def writeBuffer (handle : PipeId) (pool : PipePool) (offset : Nat) (bytes : List UInt8) :
    Outcome Nat × PipePool :=
  if _hbytes : bytes = [] then (.done offset, pool)
  else match _h : pool.writeFrom handle bytes with
    | .ok (taken, pool) => writeBuffer handle pool (offset + taken) (bytes.drop taken)
    | .error .block => (.blocked, pool)
    | .error .epipe => (.failed .epipe, pool)
    | .error .stale => (.failed .ebadf, pool)
termination_by bytes.length
decreasing_by
  have := (PipePool.writeFrom_taken _h).resolve_right _hbytes
  rw [List.length_drop]
  omega

namespace LinuxFdRegistry

variable {P : Nat} (r : LinuxFdRegistry P) (id : ProcId)

def setPipes (pipes : PipePool) : LinuxFdRegistry P :=
  { r with descriptors := { r.descriptors with pipes } }

/-- `read_fd`: the bytes read. -/
def readFd (pipe : PipeRef) (want : Nat) : Outcome (List UInt8) × LinuxFdRegistry P :=
  match r.descriptors.pipes.readInto pipe.pipe want with
  | .ok (bytes, pipes) => (.done bytes, r.setPipes pipes)
  | .error .block => (.blocked, r)
  | .error .stale => (.failed .ebadf, r)

/-- `handle_sys_read`; `writable` says whether the user buffer validates. -/
def sysRead (fd count : Nat) (writable : Bool) : Outcome (List UInt8) × LinuxFdRegistry P :=
  match r.openDescriptionKind id fd with
  | .error errno => (.failed errno, r)
  | .ok kind =>
    if count = 0 then (.done [], r)
    else if !writable then (.failed .efault, r)
    else match kind with
      | .pipeRead pipe => r.readFd pipe (min count linuxReadScratchBytes)
      | .pipeWrite _ | .dir => (.failed .ebadf, r)
      | .console => (.done [], r)
      | .file | .socket => (.elsewhere, r)

/-- `write_fd_buffer`. -/
def writeFdBuffer (fd : Nat) (r : LinuxFdRegistry P) (bytes : List UInt8) :
    Outcome Nat × LinuxFdRegistry P :=
  if bytes = [] then (.done 0, r)
  else match r.pipeWriteRef id fd with
    | none => (.failed .ebadf, r)
    | some pipe =>
      let (outcome, pipes) := writeBuffer pipe.pipe r.descriptors.pipes 0 bytes
      (outcome, r.setPipes pipes)

/-- `write_fd`. -/
def writeFd (fd : Nat) (mem : UserMemory) (ptr count : Nat) : Outcome Nat × LinuxFdRegistry P :=
  if count = 0 then (.done 0, r)
  else match copyIn mem ptr (min count linuxPipeCapacity) with
    | .error errno => (.failed errno, r)
    | .ok bytes => r.writeFdBuffer id fd bytes

/-- `handle_sys_write`, where the descriptor is a pipe. -/
def sysWrite (fd : Nat) (mem : UserMemory) (ptr count : Nat) : Outcome Nat × LinuxFdRegistry P :=
  match r.openDescriptionKind id fd with
  | .error errno => (.failed errno, r)
  | .ok kind => if kind.pipe.isNone then (.elsewhere, r) else r.writeFd id fd mem ptr count

/-- The part of `handle_sys_writev` behind its dispatch; `readable` says whether the array of the
vectors validates. -/
def writevPipe (fd : Nat) (mem : UserMemory) (iovecs : List IoVec) (readable : Bool) :
    Outcome Nat × LinuxFdRegistry P :=
  if iovecs.length = 0 then (.done 0, r)
  else if iovecs.length > linuxIovMax then (.failed .einval, r)
  else if !readable then (.failed .efault, r)
  else match checkIovecs mem 0 iovecs with
    | .error errno => (.failed errno, r)
    | .ok total => writeChunked (fetchIovecs mem iovecs) (writeFdBuffer id fd) total r

/-- `handle_sys_writev`, where the descriptor is a pipe. -/
def sysWritev (fd : Nat) (mem : UserMemory) (iovecs : List IoVec) (readable : Bool) :
    Outcome Nat × LinuxFdRegistry P :=
  match r.openDescriptionKind id fd with
  | .error errno => (.failed errno, r)
  | .ok kind =>
    if kind.pipe.isNone then (.elsewhere, r) else r.writevPipe id fd mem iovecs readable

end LinuxFdRegistry

/-! ## Descriptors and pipes as a transition system -/

/-- The bytes a process asks to be written. -/
inductive WriteCall where
  | write (ptr count : Nat)
  | writev (iovecs : List IoVec) (readable : Bool)

/-- A call on descriptors and pipes. The installing of stdio, and sockets, are left out. -/
inductive FdOp where
  | pipe (id : ProcId)
  | openFile (id : ProcId) (cloexec : Bool)
  | openDir (id : ProcId) (cloexec : Bool)
  | setCloexec (id : ProcId) (fd : Nat) (cloexec : Bool)
  | dup2 (id : ProcId) (oldFd newFd : Nat)
  | dupFd (id : ProcId) (oldFd minFd : Nat)
  | close (id : ProcId) (fd : Nat)
  | fork (parent child : ProcId)
  | exec (id : ProcId)
  | exit (id : ProcId)
  | read (id : ProcId) (fd count : Nat) (writable : Bool)
  | write (id : ProcId) (fd : Nat) (mem : UserMemory) (call : WriteCall)

inductive FdResult where
  | fd (result : Except LinuxErrno (Fin linuxFdTableCapacity))
  | pipe (result : Except LinuxErrno (Fin linuxFdTableCapacity × Fin linuxFdTableCapacity))
  | unit (result : Except LinuxErrno Unit)
  | read (outcome : Outcome (List UInt8))
  | write (outcome : Outcome Nat)

namespace LinuxFdRegistry

variable {P : Nat}

def sysWriteCall (r : LinuxFdRegistry P) (id : ProcId) (fd : Nat) (mem : UserMemory) :
    WriteCall → Outcome Nat × LinuxFdRegistry P
  | .write ptr count => r.sysWrite id fd mem ptr count
  | .writev iovecs readable => r.sysWritev id fd mem iovecs readable

/-- Names the call a result is of. -/
def tagged {α : Type} (tag : α → FdResult) (out : α × LinuxFdRegistry P) :
    FdResult × LinuxFdRegistry P := (tag out.1, out.2)

def step (r : LinuxFdRegistry P) : FdOp → FdResult × LinuxFdRegistry P
  | .pipe id => tagged .pipe (r.openPipe id)
  | .openFile id cloexec => tagged .fd (r.allocDescriptionAndFd id .file cloexec)
  | .openDir id cloexec => tagged .fd (r.allocDescriptionAndFd id .dir cloexec)
  | .setCloexec id fd cloexec => tagged .unit (r.setFdCloexec id fd cloexec)
  | .dup2 id oldFd newFd => tagged .unit (r.dup2 id oldFd newFd)
  | .dupFd id oldFd minFd => tagged .fd (r.dupToLowestAtOrAbove id oldFd minFd)
  | .close id fd => tagged .unit (r.closeFd id fd)
  | .fork parent child => tagged .unit (r.inheritForChild parent child)
  | .exec id => tagged .unit (r.closeOnExec id)
  | .exit id => (.unit (.ok ()), r.releaseForProcess id)
  | .read id fd count writable => tagged .read (r.sysRead id fd count writable)
  | .write id fd mem call => tagged .write (r.sysWriteCall id fd mem call)

end LinuxFdRegistry

end CleanSlate.Kernel.Linux
