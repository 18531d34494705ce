import CleanSlate.Kernel.Linux.PipeIo
import CleanSlate.Kernel.Linux.Verify.Fd

/-!
# What a write stores

A write to a pipe copies its bytes in, in chunks or at once, and stores them until the pipe is full.
Either way it comes to the same: the bytes it offers (`WriteCall.payload`) are stored as far as there
is room, and the call completes exactly when there is room for all of them. A call that blocks has
stored what there was room for.
-/

namespace CleanSlate.Kernel.Linux

open Lib Function List PipePool

variable {n start total : Nat} {iovecs : List IoVec} {bytes : List UInt8} {call : WriteCall}

/-! ## The bytes of a call -/

/-- The bytes the vectors point to. -/
def gather (mem : UserMemory) (iovecs : List IoVec) : List UInt8 :=
  iovecs.flatMap fun iov => mem.bytes iov.base iov.len

/-- The bytes the caller points to. -/
def WriteCall.buffer (mem : UserMemory) : WriteCall → List UInt8
  | .write ptr count => mem.bytes ptr count
  | .writev iovecs _ => gather mem iovecs

/-- The largest write one call does. -/
def WriteCall.limit : WriteCall → Nat
  | .write .. => linuxPipeCapacity
  | .writev .. => linuxWriteMaxBytes

/-- The bytes the call offers to the pipe. -/
def WriteCall.payload (mem : UserMemory) (call : WriteCall) : List UInt8 :=
  (call.buffer mem).take call.limit

/-- The arguments of the call pass its checks. -/
def WriteCall.accepted (mem : UserMemory) : WriteCall → Bool
  | .write ptr count => mem.validRange ptr (min count linuxPipeCapacity)
  | .writev iovecs readable =>
    decide (iovecs.length ≤ linuxIovMax) && readable && (checkIovecs mem 0 iovecs).isOk

/-! ## Copying in -/

variable {mem : UserMemory} {len ptr : Nat}

@[simp] theorem length_bytes (mem : UserMemory) (ptr len : Nat) :
    (mem.bytes ptr len).length = len := by
  simp [UserMemory.bytes]

theorem bytes_add (mem : UserMemory) (ptr a b : Nat) :
    mem.bytes ptr (a + b) = mem.bytes ptr a ++ mem.bytes (ptr + a) b := by
  simp [UserMemory.bytes, range_add, Nat.add_assoc]

theorem take_bytes (mem : UserMemory) (ptr len n : Nat) :
    (mem.bytes ptr len).take n = mem.bytes ptr (min n len) := by
  simp [UserMemory.bytes, ← map_take]

theorem drop_bytes (mem : UserMemory) (ptr : Nat) (h : n ≤ len) :
    (mem.bytes ptr len).drop n = mem.bytes (ptr + n) (len - n) := by
  obtain ⟨m, rfl⟩ := Nat.exists_eq_add_of_le h
  rw [bytes_add, drop_append_of_le_length (length_bytes ..).ge, Nat.add_sub_cancel_left]
  rw [drop_eq_nil_of_le (length_bytes ..).le, nil_append]

theorem validRange_add (mem : UserMemory) (ptr a b : Nat) :
    mem.validRange ptr (a + b) = (mem.validRange ptr a && mem.validRange (ptr + a) b) := by
  simp [UserMemory.validRange, range_add, comp_def, Nat.add_assoc]

theorem validRange_sub (h : mem.validRange ptr len) (hn : start + n ≤ len) :
    mem.validRange (ptr + start) n := by
  obtain ⟨k, rfl⟩ := Nat.exists_eq_add_of_le hn
  simp only [validRange_add, Bool.and_eq_true] at h
  exact h.1.2

theorem copyUserBytes_eq {length : Nat} (hpos : length ≠ 0) : copyUserBytes mem ptr length =
      if mem.validRange ptr (min length linuxUserCopyMaxBytes) then
        .ok (mem.bytes ptr (min length linuxUserCopyMaxBytes))
      else .error .efault := by
  unfold copyUserBytes
  rw [if_neg hpos]
  dsimp only
  cases mem.validRange ptr (min length linuxUserCopyMaxBytes) <;> rfl

theorem copyIn_eq (ptr want : Nat) : copyIn mem ptr want =
      if mem.validRange ptr want then .ok (mem.bytes ptr want) else .error .efault := by
  induction want using Nat.strongRecOn generalizing ptr with
  | ind want ih =>
    unfold copyIn
    by_cases hzr : want = 0
    · subst hzr
      rfl
    rw [if_neg hzr, copyUserBytes_eq hzr]
    generalize hn : min want linuxUserCopyMaxBytes = n
    have hle : n ≤ want := hn ▸ Nat.min_le_left _ _
    have hpos : n ≠ 0 := by
      have : linuxUserCopyMaxBytes = 64 := rfl
      omega
    obtain ⟨m, rfl⟩ := Nat.exists_eq_add_of_le hle
    rw [validRange_add, bytes_add]
    cases mem.validRange ptr n with
    | false => rfl
    | true =>
      rw [if_pos rfl]
      dsimp only
      rw [if_neg (by rw [length_bytes]; exact hpos), length_bytes, Nat.add_sub_cancel_left,
        ih m (by omega)]
      cases mem.validRange (ptr + n) m <;> rfl

theorem checkIovecs_ok (h : checkIovecs mem start iovecs = .ok total) :
    total = start + (gather mem iovecs).length ∧
      ∀ iov ∈ iovecs, mem.validRange iov.base iov.len := by
  induction iovecs generalizing start with
  | nil =>
    cases h
    exact ⟨rfl, fun iov hiov => (by cases hiov)⟩
  | cons iov iovecs ih =>
    unfold checkIovecs at h
    rw [ite_error_eq_ok, ite_error_eq_ok] at h
    obtain ⟨-, hvl, h⟩ := h
    obtain ⟨rfl, hrs⟩ := ih h
    refine ⟨by simp [gather, Nat.add_assoc], forall_mem_cons.2 ⟨?_, hrs⟩⟩
    by_cases hlen : iov.len > 0
    · simpa [hlen] using hvl
    · rw [Nat.eq_zero_of_not_pos hlen]
      rfl

/-- A chunk is fetched from the bytes the vectors point to. -/
theorem fetchIovecs_eq (hvl : ∀ iov ∈ iovecs, mem.validRange iov.base iov.len) (pos : Nat)
    (hlen : len ≤ linuxUserCopyMaxBytes) :
    fetchIovecs mem iovecs pos len = .ok (((gather mem iovecs).drop pos).take len) := by
  induction iovecs generalizing pos len with
  | nil => simp [fetchIovecs, gather]
  | cons iov iovecs ih =>
    obtain ⟨hiov, hrs⟩ := forall_mem_cons.1 hvl
    have hgt : gather mem (iov :: iovecs) = mem.bytes iov.base iov.len ++ gather mem iovecs := rfl
    unfold fetchIovecs
    by_cases hpos : pos ≥ iov.len
    · have hnil : (mem.bytes iov.base iov.len).drop pos = [] :=
        drop_eq_nil_of_le (by rw [length_bytes]; exact hpos)
      rw [if_pos hpos, ih hrs _ hlen, hgt, drop_append, hnil, length_bytes, nil_append]
    · rw [if_neg hpos]
      have hle : pos ≤ iov.len := by omega
      have hcp : copyUserBytes mem (iov.base + pos) (min (iov.len - pos) len) =
          .ok (mem.bytes (iov.base + pos) (min (iov.len - pos) len)) := by
        by_cases hzr : min (iov.len - pos) len = 0
        · rw [hzr]
          rfl
        · rw [copyUserBytes_eq hzr, Nat.min_eq_left (by omega),
            if_pos (validRange_sub hiov (by omega))]
      dsimp only
      rw [hcp, hgt, drop_append_of_le_length (by rw [length_bytes]; exact hle),
        drop_bytes _ _ hle, take_append, length_bytes, take_bytes, Nat.min_comm len]
      by_cases htk : min (iov.len - pos) len ≥ len
      · rw [show len - (iov.len - pos) = 0 by omega, take_zero, append_nil]
        simp only [bind, Except.bind, if_pos htk]
      have hrs : fetchIovecs mem iovecs 0 (len - min (iov.len - pos) len) = _ := ih hrs 0 (by omega)
      rw [drop_zero] at hrs
      simp only [bind, Except.bind, if_neg htk, hrs]
      rw [show min (iov.len - pos) len = iov.len - pos by omega]

/-! ## Storing -/

theorem writeBuffer_of_ne (hby : bytes ≠ []) (handle : PipeId) (pool : PipePool) (offset : Nat) :
    writeBuffer handle pool offset bytes = match pool.writeFrom handle bytes with
      | .ok (taken, pool) => writeBuffer handle pool (offset + taken) (bytes.drop taken)
      | .error .block => (.blocked, pool)
      | .error .epipe => (.failed .epipe, pool)
      | .error .stale => (.failed .ebadf, pool) := by
  rw [writeBuffer, dif_neg hby]
  split <;> next h => rw [h]

/-- The loop over the pipe stores what there is room for and blocks on the rest. -/
theorem writeBuffer_eq {pool : PipePool} {handle : PipeId}
    (hlv : (pool.slot handle).isSome) (hrd : (pool.slots handle.index).readers ≠ 0)
    (hlen : (pool.slots handle.index).ring.len ≤ linuxPipeCapacity) (hby : bytes ≠ []) :
    ∃ ring, ring.toList = (pool.slots handle.index).ring.toList ++
        bytes.take (pool.slots handle.index).space ∧ ring.len ≤ linuxPipeCapacity ∧
      writeBuffer handle pool 0 bytes =
        (if bytes.length ≤ (pool.slots handle.index).space then .done bytes.length else .blocked,
          pool.write handle.index { pool.slots handle.index with ring }) := by
  have hsl := slot_eq hlv
  generalize hof : pool.slots handle.index = slot at *
  have hsp : slot.space = linuxPipeCapacity - slot.ring.len := rfl
  have hfr : ∀ bytes, pool.writeFrom handle bytes = if slot.space = 0 then .error .block
      else .ok ((slot.ring.pushSlice bytes).1,
        pool.write handle.index { slot with ring := (slot.ring.pushSlice bytes).2 }) := by
    intro bytes
    unfold writeFrom
    rw [hsl]
    dsimp only
    rw [if_neg hrd]
  by_cases hfl : slot.space = 0
  · refine ⟨slot.ring, by rw [hfl, take_zero, append_nil], hlen, ?_⟩
    have hsf : pool.write handle.index slot = pool := by
      unfold write
      rw [← hof, update_eq_self]
    have hbl : ¬ bytes.length ≤ slot.space := by
      rw [hfl, Nat.le_zero, length_eq_zero_iff]
      exact hby
    rw [writeBuffer_of_ne hby, hfr, if_pos hfl, if_neg hbl, hsf]
  · have hlen' := slot.ring.len_pushSlice bytes hlen
    refine ⟨(slot.ring.pushSlice bytes).2, slot.ring.toList_pushSlice bytes hlen, by omega, ?_⟩
    have hcn : (slot.ring.pushSlice bytes).1 = min bytes.length slot.space := rfl
    rw [writeBuffer_of_ne hby, hfr, if_neg hfl]
    dsimp only
    rw [hcn, Nat.zero_add]
    by_cases hft : bytes.length ≤ slot.space
    · rw [Nat.min_eq_left hft, drop_length, if_pos hft, writeBuffer]
      rfl
    -- the pipe is full now, so the second round blocks
    have hmr : bytes.drop slot.space ≠ [] := by
      rw [Ne, drop_eq_nil_iff]
      exact hft
    have hag : writeFrom (pool.write handle.index
        { slot with ring := (slot.ring.pushSlice bytes).2 }) handle (bytes.drop slot.space) =
          .error .block := by
      have hlv' := slot_isSome.1 hlv
      rw [hof] at hlv'
      unfold PipePool.writeFrom PipePool.slot PipePool.write
      dsimp only
      rw [update_self, if_pos hlv']
      dsimp only
      rw [if_neg hrd, if_pos]
      unfold PipeSlot.space
      dsimp only
      omega
    rw [Nat.min_eq_right (by omega), if_neg hft, writeBuffer_of_ne hmr, hag]

namespace LinuxFdRegistry

variable {P : Nat} {r r' r'' : LinuxFdRegistry P} {i : Fin linuxPipeMax} {more : List UInt8}

/-- The pipe in slot `i`. -/
def pipeAt (r : LinuxFdRegistry P) (i : Fin linuxPipeMax) : PipeSlot := r.descriptors.pipes.slots i

/-- Nothing changes but the ring of one pipe. -/
def setRing (r : LinuxFdRegistry P) (i : Fin linuxPipeMax) (ring : Ring UInt8 linuxPipeCapacity) :
    LinuxFdRegistry P :=
  r.setPipes (r.descriptors.pipes.write i { r.pipeAt i with ring })

/-- `bytes` are stored in the pipe, and nothing else changes. -/
def Stored (i : Fin linuxPipeMax) (bytes : List UInt8) (r r' : LinuxFdRegistry P) : Prop :=
  ∃ ring, r' = r.setRing i ring ∧ ring.toList = (r.pipeAt i).ring.toList ++ bytes ∧
    ring.len ≤ linuxPipeCapacity

theorem pipeAt_setRing (r : LinuxFdRegistry P) (i : Fin linuxPipeMax)
    (ring : Ring UInt8 linuxPipeCapacity) :
    (r.setRing i ring).pipeAt i = { r.pipeAt i with ring } :=
  update_self _ _ _

theorem Stored.refl (h : (r.pipeAt i).ring.len ≤ linuxPipeCapacity) : Stored i [] r r := by
  refine ⟨(r.pipeAt i).ring, ?_, (append_nil _).symm, h⟩
  unfold setRing setPipes write pipeAt
  rw [update_eq_self]

theorem Stored.trans (h : Stored i bytes r r') (h' : Stored i more r' r'') :
    Stored i (bytes ++ more) r r'' := by
  obtain ⟨ring, rfl, hls, -⟩ := h
  obtain ⟨ring', rfl, hls', hlen⟩ := h'
  refine ⟨ring', ?_, ?_, hlen⟩
  · unfold setRing setPipes write pipeAt
    simp
  · rw [hls', pipeAt_setRing]
    rw [hls, append_assoc]

theorem Stored.pipe (h : Stored i bytes r r') :
    ∃ ring, r'.pipeAt i = { r.pipeAt i with ring } ∧ ring.len ≤ linuxPipeCapacity ∧
      ring.len = (r.pipeAt i).ring.len + bytes.length := by
  obtain ⟨ring, rfl, hls, hlen⟩ := h
  refine ⟨ring, pipeAt_setRing r i ring, hlen, ?_⟩
  rw [← ring.length_toList, hls, length_append, Ring.length_toList]

/-- A pipe with a reader, at a write end. -/
structure Writable (r : LinuxFdRegistry P) (id : ProcId) (fd : Nat) (pipe : PipeRef) : Prop where
  ref : r.pipeWriteRef id fd = some pipe
  live : (r.descriptors.pipes.slot pipe.pipe).isSome
  readers : (r.pipeAt pipe.pipe.index).readers ≠ 0
  bounded : (r.pipeAt pipe.pipe.index).ring.len ≤ linuxPipeCapacity

variable {id : ProcId} {fd : Nat} {pipe : PipeRef}

theorem Writable.stored (h : r.Writable id fd pipe) (hst : Stored pipe.pipe.index bytes r r') :
    r'.Writable id fd pipe := by
  obtain ⟨ring, rfl, -, hlen⟩ := hst
  refine ⟨h.ref, ?_, ?_, ?_⟩
  · have hlv := slot_isSome.1 h.live
    rw [slot_isSome]
    change ((r.setRing _ ring).pipeAt pipe.pipe.index).live ∧
      ((r.setRing _ ring).pipeAt pipe.pipe.index).generation = _
    rw [pipeAt_setRing]
    exact hlv
  · rw [pipeAt_setRing]
    exact h.readers
  · rw [pipeAt_setRing]
    exact hlen

theorem writeFdBuffer_stores (h : r.Writable id fd pipe) (bytes : List UInt8) :
    ∃ r', r.writeFdBuffer id fd bytes =
        (if bytes.length ≤ (r.pipeAt pipe.pipe.index).space then .done bytes.length else .blocked, r') ∧
      Stored pipe.pipe.index (bytes.take (r.pipeAt pipe.pipe.index).space) r r' := by
  unfold writeFdBuffer
  by_cases hby : bytes = []
  · subst hby
    refine ⟨r, rfl, ?_⟩
    rw [take_nil]
    exact .refl h.bounded
  · obtain ⟨ring, hls, hlen, hwr⟩ := writeBuffer_eq h.live h.readers h.bounded hby
    rw [if_neg hby, h.ref]
    dsimp only
    rw [hwr]
    exact ⟨_, rfl, ring, rfl, hls, hlen⟩

/-- The chunks of a write are stored like the bytes they are cut from. -/
theorem writeChunks_stores {fetch : Nat → Nat → Except LinuxErrno (List UInt8)} {data : List UInt8}
    (hft : ∀ pos len, len ≤ linuxWriteChunkBytes → fetch pos len = .ok ((data.drop pos).take len))
    (htt : total ≤ data.length) (rounds written : Nat)
    (hrn : total ≤ written + linuxWriteChunkBytes * rounds) (hwr : written ≤ total)
    (h : r.Writable id fd pipe) :
    ∃ r', writeChunks fetch (writeFdBuffer id fd) total rounds written r =
        (if total - written ≤ (r.pipeAt pipe.pipe.index).space then .done total else .blocked, r') ∧
      Stored pipe.pipe.index
        (((data.drop written).take (total - written)).take (r.pipeAt pipe.pipe.index).space) r r' := by
  induction rounds generalizing written r with
  | zero =>
    obtain rfl : written = total := by omega
    refine ⟨r, ?_, ?_⟩
    · unfold writeChunks
      rw [Nat.sub_self, if_pos (Nat.zero_le _)]
    · rw [Nat.sub_self, take_zero, take_nil]
      exact .refl h.bounded
  | succ rounds ih =>
    unfold writeChunks
    by_cases hdn : written ≥ total
    · obtain rfl : written = total := by omega
      rw [if_pos hdn, Nat.sub_self, take_zero, take_nil]
      exact ⟨r, rfl, .refl h.bounded⟩
    · rw [if_neg hdn]
      generalize hwn : min (total - written) linuxWriteChunkBytes = want
      generalize hlf : data.drop written = left
      have hlt : left.length = data.length - written := by rw [← hlf, length_drop]
      have hln : (left.take want).length = want := by
        rw [length_take]
        omega
      obtain ⟨r₁, hdl, hst⟩ := writeFdBuffer_stores h (left.take want)
      rw [hln] at hdl
      dsimp only
      rw [hft written want (by omega), hlf]
      dsimp only
      rw [if_neg (by rw [hln]; simp), hdl]
      obtain ⟨ring, hpp, hlen, hrg⟩ := hst.pipe
      have hsp : (r.pipeAt pipe.pipe.index).space =
          linuxPipeCapacity - (r.pipeAt pipe.pipe.index).ring.len := rfl
      generalize hrm : (r.pipeAt pipe.pipe.index).space = room at *
      by_cases hfs : want ≤ room
      · rw [if_pos hfs]
        dsimp only
        rw [hln, if_neg (Nat.lt_irrefl _), if_neg (Nat.lt_irrefl _)]
        obtain ⟨r₂, hrs, hst'⟩ := ih (written + want)
          (by rw [Nat.mul_succ] at hrn; omega) (by omega) (h.stored hst)
        -- the room that is left
        have hrm' : (r₁.pipeAt pipe.pipe.index).space = room - want := by
          rw [hpp]
          change linuxPipeCapacity - ring.len = room - want
          rw [hrg, take_of_length_le (by rw [hln]; exact hfs)]
          omega
        rw [hrm'] at hrs hst'
        refine ⟨r₂, ?_, ?_⟩
        · rw [hrs]
          by_cases hall : total - written ≤ room
          · rw [if_pos hall, if_pos (by omega)]
          · rw [if_neg hall, if_neg (by omega)]
        · have hsl : ((left.take (total - written)).take room) = (left.take want).take room ++
                (((left.drop want).take (total - (written + want))).take (room - want)) := by
            rw [take_of_length_le (l := left.take want) (by rw [hln]; exact hfs),
              take_take, take_take]
            rw [show min room (total - written) =
              want + min (room - want) (total - (written + want)) by omega, take_add]
          rw [hsl]
          rw [← hlf, drop_drop] at *
          exact hst.trans hst'
      · rw [if_neg hfs]
        refine ⟨r₁, ?_, ?_⟩
        · rw [if_neg (by omega)]
        · rw [take_take] at hst ⊢
          rwa [show min room (total - written) = min room want by omega]

theorem payload_write (mem : UserMemory) (ptr count : Nat) :
    WriteCall.payload mem (.write ptr count) = mem.bytes ptr (min count linuxPipeCapacity) := by
  rw [Nat.min_comm]
  exact take_bytes mem ptr count linuxPipeCapacity

theorem openDescriptionKind_of_ref (h : r.pipeWriteRef id fd = some pipe) :
    r.openDescriptionKind id fd = .ok (.pipeWrite pipe) := by
  unfold pipeWriteRef at h
  split at h
  · next heq =>
    cases h
    exact heq
  · cases h

variable {errno : LinuxErrno}

section

theorem writeFd_eq (r : LinuxFdRegistry P) (ptr count : Nat) : r.writeFd id fd mem ptr count =
      if WriteCall.accepted mem (.write ptr count) then
        r.writeFdBuffer id fd (WriteCall.payload mem (.write ptr count))
      else (.failed .efault, r) := by
  have hac : WriteCall.accepted mem (.write ptr count) =
      mem.validRange ptr (min count linuxPipeCapacity) := rfl
  rw [payload_write, hac]
  unfold writeFd
  by_cases hzr : count = 0
  · subst hzr
    rfl
  · rw [if_neg hzr, copyIn_eq]
    cases mem.validRange ptr (min count linuxPipeCapacity) <;> rfl

/-- A write behind the dispatch on the kind of its descriptor. -/
def writePipe (r : LinuxFdRegistry P) (id : ProcId) (fd : Nat) (mem : UserMemory) :
    WriteCall → Outcome Nat × LinuxFdRegistry P
  | .write ptr count => r.writeFd id fd mem ptr count
  | .writev iovecs readable => r.writevPipe id fd mem iovecs readable

theorem sysWriteCall_eq (r : LinuxFdRegistry P) (call : WriteCall) :
    r.sysWriteCall id fd mem call = match r.openDescriptionKind id fd with
      | .error errno => (.failed errno, r)
      | .ok kind => if kind.pipe.isNone then (.elsewhere, r) else r.writePipe id fd mem call := by
  cases call <;> rfl

theorem sysWriteCall_of_ref (h : r.pipeWriteRef id fd = some pipe) (call : WriteCall) :
    r.sysWriteCall id fd mem call = r.writePipe id fd mem call := by
  rw [sysWriteCall_eq, openDescriptionKind_of_ref h]
  rfl

theorem length_payload_writev (readable : Bool) (hch : checkIovecs mem 0 iovecs = .ok total) :
    (WriteCall.payload mem (.writev iovecs readable)).length = clampWriteCount total := by
  rw [(checkIovecs_ok hch).1, Nat.zero_add]
  unfold WriteCall.payload clampWriteCount
  rw [length_take, Nat.min_comm]
  rfl

theorem checkIovecs_error (h : checkIovecs mem start iovecs = .error errno) : errno ≠ .epipe := by
  induction iovecs generalizing start with
  | nil => cases h
  | cons iov iovecs ih =>
    unfold checkIovecs at h
    split at h
    · cases h
      decide
    · split at h
      · cases h
        decide
      · exact ih h

/-- The call fails on its arguments, has no vectors, or writes its chunks. -/
theorem writevPipe_cases (r : LinuxFdRegistry P) (iovecs : List IoVec) (readable : Bool) :
    (r.writevPipe id fd mem iovecs readable = (.done 0, r) ∧ iovecs = []) ∨
    (∃ e, r.writevPipe id fd mem iovecs readable = (.failed e, r) ∧ e ≠ .epipe ∧
      WriteCall.accepted mem (.writev iovecs readable) = false) ∨
    ∃ total, checkIovecs mem 0 iovecs = .ok total ∧
      WriteCall.accepted mem (.writev iovecs readable) ∧
      r.writevPipe id fd mem iovecs readable =
        writeChunked (fetchIovecs mem iovecs) (writeFdBuffer id fd) total r := by
  unfold writevPipe WriteCall.accepted
  dsimp only
  by_cases hem : iovecs.length = 0
  · exact .inl ⟨if_pos hem, eq_nil_of_length_eq_zero hem⟩
  right
  rw [if_neg hem]
  by_cases hcn : iovecs.length > linuxIovMax
  · refine .inl ⟨.einval, if_pos hcn, by decide, ?_⟩
    rw [decide_eq_false (Nat.not_le.2 hcn)]
    rfl
  rw [if_neg hcn, decide_eq_true (Nat.not_lt.1 hcn)]
  cases readable with
  | false => exact .inl ⟨.efault, rfl, by decide, rfl⟩
  | true =>
    cases hch : checkIovecs mem 0 iovecs with
    | error e => exact .inl ⟨e, rfl, checkIovecs_error hch, rfl⟩
    | ok total => exact .inr ⟨total, rfl, rfl, rfl⟩

/-- A call whose arguments pass the checks stores what there is room for, and completes exactly when
there is room for all it offers. -/
theorem sysWriteCall_stores (h : r.Writable id fd pipe) (hac : call.accepted mem) :
    ∃ r', r.sysWriteCall id fd mem call =
        (if (call.payload mem).length ≤ (r.pipeAt pipe.pipe.index).space then
          .done (call.payload mem).length else .blocked, r') ∧
      Stored pipe.pipe.index ((call.payload mem).take (r.pipeAt pipe.pipe.index).space) r r' := by
  rw [sysWriteCall_of_ref h.ref]
  cases call with
  | write ptr count =>
    unfold writePipe
    dsimp only
    rw [writeFd_eq, if_pos hac]
    exact writeFdBuffer_stores h _
  | writev iovecs readable =>
    rcases writevPipe_cases r iovecs readable with
      ⟨hout, rfl⟩ | ⟨e, -, -, hrj⟩ | ⟨total, hch, -, hout⟩
    · have hnil : WriteCall.payload mem (.writev [] readable) = [] := rfl
      rw [hnil, take_nil]
      exact ⟨r, hout, .refl h.bounded⟩
    · rw [hac] at hrj
      cases hrj
    · have hln := length_payload_writev readable hch
      unfold writePipe
      dsimp only
      rw [hout]
      unfold writeChunked
      by_cases hzr : total = 0
      · subst hzr
        have hnil := eq_nil_of_length_eq_zero hln
        rw [hnil, take_nil]
        exact ⟨r, rfl, .refl h.bounded⟩
      · rw [if_neg hzr]
        obtain ⟨htt, hvl⟩ := checkIovecs_ok hch
        rw [Nat.zero_add] at htt
        have hcl : clampWriteCount total ≤ (gather mem iovecs).length := htt ▸ Nat.min_le_left _ _
        have hrn : clampWriteCount total ≤ 0 + linuxWriteChunkBytes * linuxWriteMaxChunks :=
          Nat.min_le_right _ _
        obtain ⟨r', hwr, hst⟩ := writeChunks_stores
          (fun pos len hlen => fetchIovecs_eq hvl pos hlen) hcl linuxWriteMaxChunks 0 hrn
          (Nat.zero_le _) h
        rw [drop_zero, Nat.sub_zero] at hst
        have hpy : (gather mem iovecs).take (clampWriteCount total) =
            WriteCall.payload mem (.writev iovecs readable) := by
          unfold clampWriteCount
          rw [htt, Nat.min_comm, ← take_eq_take_min]
          rfl
        rw [hpy] at hst
        rw [hln]
        exact ⟨r', hwr, hst⟩

/-- A call that fails on its first chunk, or has none. -/
def Fruitless (out : Outcome Nat × LinuxFdRegistry P) (r : LinuxFdRegistry P) (errno : LinuxErrno) :
    Prop := out = (.done 0, r) ∨ ∃ e, out = (.failed e, r) ∧ (e = .epipe → errno = .epipe)

theorem Fruitless.unchanged {out : Outcome Nat × LinuxFdRegistry P} (h : Fruitless out r errno) :
    out.2 = r ∧ (∀ n, out.1 = .done n → n = 0) ∧ (out.1 = .failed .epipe → errno = .epipe) := by
  rcases h with rfl | ⟨e, rfl, he⟩
  · exact ⟨rfl, fun n hn => (Outcome.done.inj hn).symm, fun h => (by cases h)⟩
  · exact ⟨rfl, fun n hn => (by cases hn), fun heq => he (Outcome.failed.inj heq)⟩

section

variable (hdeliver : ∀ chunk, chunk ≠ [] → r.writeFdBuffer id fd chunk = (.failed errno, r))
include hdeliver

theorem writeFd_fruitless
    (ptr count : Nat) : Fruitless (r.writeFd id fd mem ptr count) r errno := by
  rw [writeFd_eq]
  split
  · by_cases hem : WriteCall.payload mem (.write ptr count) = []
    · left
      rw [hem]
      rfl
    · exact .inr ⟨errno, hdeliver _ hem, fun h => h⟩
  · exact .inr ⟨.efault, rfl, fun h => (by cases h)⟩

theorem writevPipe_fruitless (iovecs : List IoVec) (readable : Bool) :
    Fruitless (r.writevPipe id fd mem iovecs readable) r errno := by
  rcases writevPipe_cases r iovecs readable with
    ⟨hout, -⟩ | ⟨e, hout, he, -⟩ | ⟨total, hch, -, hout⟩
  · exact .inl hout
  · exact .inr ⟨e, hout, fun h => absurd h he⟩
  rw [hout]
  obtain ⟨htt, hvl⟩ := checkIovecs_ok hch
  unfold writeChunked
  split
  · exact .inl rfl
  next hzr =>
  -- the first chunk is not empty
  have hpos : 0 < min (clampWriteCount total) linuxWriteChunkBytes := by
    have : clampWriteCount total = min total 4096 := rfl
    have : linuxWriteChunkBytes = 64 := rfl
    omega
  have hft := fetchIovecs_eq hvl 0 (Nat.min_le_right (clampWriteCount total) linuxWriteChunkBytes)
  have hln : ((gather mem iovecs).take (min (clampWriteCount total) linuxWriteChunkBytes)).length =
        min (clampWriteCount total) linuxWriteChunkBytes := by
    rw [length_take]
    have : clampWriteCount total = min total 4096 := rfl
    omega
  right
  refine ⟨errno, ?_, fun h => h⟩
  rw [drop_zero] at hft
  unfold linuxWriteMaxChunks writeChunks
  rw [if_neg (by omega), Nat.sub_zero]
  dsimp only
  rw [hft]
  dsimp only
  rw [if_neg (by rw [hln]; simp), hdeliver _ (ne_nil_of_length_pos (by omega))]
  rfl

theorem writePipe_fruitless
    (call : WriteCall) : Fruitless (r.writePipe id fd mem call) r errno := by
  cases call with
  | write ptr count => exact writeFd_fruitless hdeliver ptr count
  | writev iovecs readable => exact writevPipe_fruitless hdeliver iovecs readable

end

theorem sysWriteCall_rejected (h : r.pipeWriteRef id fd = some pipe)
    (hrj : call.accepted mem = false) :
    Fruitless (r.sysWriteCall id fd mem call) r .ebadf := by
  rw [sysWriteCall_of_ref h]
  cases call with
  | write ptr count =>
    unfold writePipe
    dsimp only
    rw [writeFd_eq, if_neg (by rw [hrj]; decide)]
    exact .inr ⟨.efault, rfl, fun h => (by cases h)⟩
  | writev iovecs readable =>
    rcases writevPipe_cases r iovecs readable with
      ⟨hout, -⟩ | ⟨e, hout, he, -⟩ | ⟨total, -, hac, -⟩
    · exact .inl hout
    · exact .inr ⟨e, hout, fun h => absurd h he⟩
    · exact Bool.noConfusion (hrj.symm.trans hac)

theorem sysWriteCall_unread (h : r.pipeWriteRef id fd = some pipe)
    (hlv : (r.descriptors.pipes.slot pipe.pipe).isSome)
    (hrd : (r.pipeAt pipe.pipe.index).readers = 0) (call : WriteCall) :
    Fruitless (r.sysWriteCall id fd mem call) r .epipe := by
  have hfr : ∀ chunk, r.descriptors.pipes.writeFrom pipe.pipe chunk = .error .epipe := by
    intro chunk
    unfold writeFrom
    rw [slot_eq hlv]
    exact if_pos hrd
  have hdeliver : ∀ chunk, chunk ≠ [] → r.writeFdBuffer id fd chunk = (.failed .epipe, r) := by
    intro chunk hch
    unfold writeFdBuffer
    rw [if_neg hch, h]
    dsimp only
    rw [writeBuffer_of_ne hch, hfr]
    rfl
  rw [sysWriteCall_of_ref h]
  exact writePipe_fruitless hdeliver call

theorem openDescriptionKind_error (h : r.openDescriptionKind id fd = .error errno) :
    errno = .ebadf := by
  rcases bind_eq_error.1 h with hen | ⟨entry, -, h⟩
  · cases hfd : r.entry id fd <;> rw [hfd] at hen <;> cases hen
    rfl
  rcases bind_eq_error.1 h with hget | ⟨desc, -, h⟩
  · unfold Descriptors.get at hget
    dsimp only at hget
    split at hget
    · cases hget
      rfl
    · split at hget <;> cases hget
      rfl
  · cases h

theorem sysWriteCall_other (h : r.pipeWriteRef id fd = none) (call : WriteCall) :
    (r.sysWriteCall id fd mem call).2 = r ∧ (r.sysWriteCall id fd mem call).1 ≠ .failed .epipe := by
  have hdeliver : ∀ chunk, chunk ≠ [] → r.writeFdBuffer id fd chunk = (.failed .ebadf, r) := by
    intro chunk hch
    unfold writeFdBuffer
    rw [if_neg hch, h]
  rw [sysWriteCall_eq]
  cases hkn : r.openDescriptionKind id fd with
  | error errno =>
    obtain rfl := openDescriptionKind_error hkn
    exact ⟨rfl, fun h => (by cases h)⟩
  | ok kind =>
    dsimp only
    split
    · exact ⟨rfl, fun h => (by cases h)⟩
    · obtain ⟨hsm, -, hep⟩ := (writePipe_fruitless hdeliver call).unchanged
      exact ⟨hsm, fun heq => (by cases hep heq)⟩

end

end LinuxFdRegistry

end CleanSlate.Kernel.Linux
