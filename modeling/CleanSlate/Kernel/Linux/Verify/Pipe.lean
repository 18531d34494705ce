import CleanSlate.Kernel.Linux.Verify.FdTable
import CleanSlate.Kernel.Linux.Verify.PipeWrite
import CleanSlate.Lib.Run

/-!
# The stream through a pipe

For every pipe a ledger keeps what was read from it and what its writers were told they had written.
A pipe is balanced when the bytes read, followed by those in its buffer, are the bytes reported. A call
that blocks is restarted from the top and reports all its bytes when it completes, but what it stored
before it blocked stays in the pipe. So the pipes of a run are balanced throughout exactly when no
call starts with some room in the pipe but not enough.
-/

namespace CleanSlate.Kernel.Linux

open Lib List

variable {i : Fin linuxPipeMax} {ring : Ring UInt8 linuxPipeCapacity} {op : FdOp}

/-- The operations that move bytes. -/
def FdOp.transfers : FdOp → Bool
  | .read .. | .write .. => true
  | .pipe _ | .openFile .. | .openDir .. | .setCloexec .. | .dup2 .. | .dupFd .. | .close ..
  | .fork .. | .exec _ | .exit _ => false

namespace LinuxFdRegistry

variable {P : Nat} {r r' : LinuxFdRegistry P} {id : ProcId} {fd : Nat} {pipe : PipeRef}

/-! ## Ends -/

/-- The tables are sound, and the pipes hold no more than they can. -/
structure Good (r : LinuxFdRegistry P) : Prop where
  sound : r.Sound
  bounded : ∀ i, (r.pipeAt i).live → (r.pipeAt i).ring.len ≤ linuxPipeCapacity

theorem new_good : (new : LinuxFdRegistry P).Good := ⟨new_sound, fun _ hlv => Bool.noConfusion hlv⟩

theorem mem_refs_of_entry {entry : FdEntry} (h : r.entry id fd = some entry) :
    entry.openId ∈ r.refs := by
  obtain ⟨index, -, hget⟩ := Option.bind_eq_some_iff.1 h
  exact Multiset.mem_of_le (r.table_refs_le index) (LinuxFdTable.mem_refs_of_get hget)

/-- A descriptor of a pipe end is of its kind, and the pipe is live and counts the end. -/
theorem Good.pipe_of_kind (h : r.Good) {kind : DescriptorKind}
    (hkn : r.openDescriptionKind id fd = .ok kind) (hpp : kind.pipe = some pipe) :
    kind = pipe.kind ∧ (r.descriptors.pipes.slot pipe.pipe).isSome ∧
      0 < (r.pipeAt pipe.pipe.index).ends pipe.pipeEnd := by
  obtain ⟨entry, hen, hds⟩ := bind_eq_ok.1 hkn
  obtain ⟨desc, hget, hds⟩ := bind_eq_ok.1 hds
  obtain rfl := Except.ok.inj hds
  obtain ⟨hlv, -, rfl⟩ := Descriptors.get_ok hget
  have hpos := h.sound.refcount_pos (mem_refs_of_entry (okOr_eq_ok.1 hen))
  have hat : (r.descriptors.slots entry.openId.index).attached := by
    simp [PoolSlot.attached, hlv, hpos]
  obtain ⟨hof, hsm⟩ := h.sound.piped _ pipe hat hpp
  refine ⟨hof, hsm, ?_⟩
  have hed := h.sound.ends pipe.pipe.index pipe.pipeEnd (PipePool.slot_isSome.1 hsm).1
  change 0 < (r.descriptors.pipes.slots pipe.pipe.index).ends pipe.pipeEnd
  rw [hed, Slots.count_pos]
  exact ⟨entry.openId.index, by simp [PoolSlot.attachedTo, hat, hpp]⟩

theorem Good.write_end (h : r.Good) (href : r.pipeWriteRef id fd = some pipe) :
    (r.descriptors.pipes.slot pipe.pipe).isSome ∧ (r.pipeAt pipe.pipe.index).writers ≠ 0 := by
  obtain ⟨hkn, hsm, hpos⟩ := h.pipe_of_kind (openDescriptionKind_of_ref href) rfl
  have hend : pipe.pipeEnd = .write := by
    unfold PipeRef.kind at hkn
    split at hkn
    · cases hkn
    · assumption
  rw [hend] at hpos
  exact ⟨hsm, hpos.ne'⟩

theorem openDescriptionKind_of_readRef (h : r.pipeReadRef id fd = some pipe) :
    r.openDescriptionKind id fd = .ok (.pipeRead pipe) := by
  unfold pipeReadRef at h
  split at h
  · next heq =>
    cases h
    exact heq
  · cases h

theorem Good.read_end (h : r.Good) (href : r.pipeReadRef id fd = some pipe) :
    (r.descriptors.pipes.slot pipe.pipe).isSome ∧ (r.pipeAt pipe.pipe.index).readers ≠ 0 := by
  obtain ⟨hkn, hsm, hpos⟩ := h.pipe_of_kind (openDescriptionKind_of_readRef href) rfl
  have hend : pipe.pipeEnd = .read := by
    unfold PipeRef.kind at hkn
    split at hkn
    · assumption
    · cases hkn
  rw [hend] at hpos
  exact ⟨hsm, hpos.ne'⟩

/-! ## Steps -/

theorem Kept.good (h : r.Good) (hkp : r.Kept r') : r'.Good := ⟨hkp.1, fun i hlv => by
    unfold pipeAt at hlv ⊢
    rw [(hkp.2 i).1]
    exact h.bounded i ((hkp.2 i).2 hlv)⟩

theorem pipeAt_setRing_other {j : Fin linuxPipeMax} (hi : i ≠ j)
    (ring : Ring UInt8 linuxPipeCapacity) : (r.setRing j ring).pipeAt i = r.pipeAt i :=
  Function.update_of_ne hi _ _

theorem setRing_frame (r : LinuxFdRegistry P) (i : Fin linuxPipeMax)
    (ring : Ring UInt8 linuxPipeCapacity) (j : Fin linuxPipeMax) :
    ((r.setRing i ring).pipeAt j).live = (r.pipeAt j).live ∧
      ((r.setRing i ring).pipeAt j).generation = (r.pipeAt j).generation ∧
      ∀ e, ((r.setRing i ring).pipeAt j).ends e = (r.pipeAt j).ends e := by
  by_cases hj : j = i
  · subst hj
    rw [pipeAt_setRing]
    exact ⟨rfl, rfl, fun e => by cases e <;> rfl⟩
  · rw [pipeAt_setRing_other hj]
    exact ⟨rfl, rfl, fun _ => rfl⟩

theorem setRing_sound (h : r.Sound) (i : Fin linuxPipeMax) (ring : Ring UInt8 linuxPipeCapacity) :
    (r.setRing i ring).Sound := by
  refine Descriptors.Holds.set_pipes h ?_ ?_
  · rintro handle hsm -
    rw [PipePool.slot_isSome] at hsm ⊢
    obtain ⟨hlv, hgn, -⟩ := r.setRing_frame i ring handle.index
    exact ⟨hlv.trans hsm.1, hgn.trans hsm.2⟩
  · intro j e hlv
    obtain ⟨hlv', -, hen⟩ := r.setRing_frame i ring j
    exact (hen e).trans (h.ends j e (hlv'.symm.trans hlv))

theorem setRing_good (h : r.Good) (hlen : ring.len ≤ linuxPipeCapacity) :
    (r.setRing i ring).Good := by
  refine ⟨setRing_sound h.sound i ring, fun j hlv => ?_⟩
  by_cases hj : j = i
  · subst hj
    rw [pipeAt_setRing]
    exact hlen
  · rw [pipeAt_setRing_other hj] at hlv ⊢
    exact h.bounded j hlv

theorem readFd_eq (hlv : (r.descriptors.pipes.slot pipe.pipe).isSome) (want : Nat) :
    r.readFd pipe want = if (r.pipeAt pipe.pipe.index).ring.len > 0 then
        (.done ((r.pipeAt pipe.pipe.index).ring.popSlice want).1,
          r.setRing pipe.pipe.index ((r.pipeAt pipe.pipe.index).ring.popSlice want).2)
      else if (r.pipeAt pipe.pipe.index).writers > 0 then (.blocked, r)
      else (.done [], r) := by
  unfold readFd PipePool.readInto pipeAt
  rw [PipePool.slot_eq hlv]
  dsimp only
  by_cases hlen : (r.descriptors.pipes.slots pipe.pipe.index).ring.len > 0
  · rw [if_pos hlen, if_pos hlen]
    rfl
  rw [if_neg hlen, if_neg hlen]
  by_cases hwr : (r.descriptors.pipes.slots pipe.pipe.index).writers > 0
  · rw [if_pos hwr, if_pos hwr]
  · rw [if_neg hwr, if_neg hwr]
    rfl

/-- A read takes bytes from a pipe that has some, or changes nothing; then it sees the end of a pipe
only where there is one. -/
theorem sysRead_cases (h : r.Good) (id : ProcId) (fd count : Nat) (writable : Bool) :
    (∃ pipe, r.pipeReadRef id fd = some pipe ∧ r.sysRead id fd count writable =
        (.done ((r.pipeAt pipe.pipe.index).ring.popSlice (min count linuxReadScratchBytes)).1,
          r.setRing pipe.pipe.index
            ((r.pipeAt pipe.pipe.index).ring.popSlice (min count linuxReadScratchBytes)).2) ∧
      ((r.pipeAt pipe.pipe.index).ring.popSlice (min count linuxReadScratchBytes)).1 ≠ []) ∨
    (r.sysRead id fd count writable).2 = r ∧ ∀ bytes,
      (r.sysRead id fd count writable).1 = .done bytes → bytes = [] ∧
        ∀ pipe, r.pipeReadRef id fd = some pipe → count ≠ 0 →
          (r.pipeAt pipe.pipe.index).ring.toList = [] ∧ (r.pipeAt pipe.pipe.index).writers = 0 := by
  unfold sysRead
  split
  · exact .inr ⟨rfl, fun bytes heq => by cases heq⟩
  next kind hkn =>
  split
  · next hzr =>
    right
    refine ⟨rfl, fun bytes heq => ⟨(Outcome.done.inj heq).symm, fun _ _ hne => absurd hzr hne⟩⟩
  · next hzr =>
    split
    · exact .inr ⟨rfl, fun bytes heq => by cases heq⟩
    split
    · next pipe =>
      have href : r.pipeReadRef id fd = some pipe := by
        unfold pipeReadRef
        rw [hkn]
      have hsm := (h.read_end href).1
      rw [readFd_eq hsm]
      by_cases hlen : (r.pipeAt pipe.pipe.index).ring.len > 0
      · left
        refine ⟨pipe, href, if_pos hlen, ?_⟩
        rw [← length_pos_iff_ne_nil, Ring.length_popSlice]
        have : linuxReadScratchBytes = 1024 := rfl
        omega
      · right
        rw [if_neg hlen]
        by_cases hwr : (r.pipeAt pipe.pipe.index).writers > 0
        · rw [if_pos hwr]
          exact ⟨rfl, fun bytes heq => by cases heq⟩
        rw [if_neg hwr]
        refine ⟨rfl, fun bytes heq => ⟨(Outcome.done.inj heq).symm, fun other hot _ => ?_⟩⟩
        obtain rfl := Option.some.inj (href.symm.trans hot)
        exact ⟨Ring.toList_eq_nil.2 (Nat.eq_zero_of_not_pos hlen), Nat.eq_zero_of_not_pos hwr⟩
    · exact .inr ⟨rfl, fun bytes heq => by cases heq⟩
    · exact .inr ⟨rfl, fun bytes heq => by cases heq⟩
    · right
      refine ⟨rfl, fun bytes heq => ⟨(Outcome.done.inj heq).symm, fun other hot _ => ?_⟩⟩
      cases hkn.symm.trans (openDescriptionKind_of_readRef hot)
    · exact .inr ⟨rfl, fun bytes heq => by cases heq⟩
    · exact .inr ⟨rfl, fun bytes heq => by cases heq⟩

theorem Good.writable (h : r.Good) (href : r.pipeWriteRef id fd = some pipe)
    (hrd : (r.pipeAt pipe.pipe.index).readers ≠ 0) : r.Writable id fd pipe :=
  have hsm := (h.write_end href).1
  ⟨href, hsm, hrd, h.bounded _ (PipePool.slot_isSome.1 hsm).1⟩

/-- A write stores what there is room for of what it offers, or changes nothing; then it has written
nothing, and it finds the pipe broken only where nobody reads it. -/
theorem sysWriteCall_cases (h : r.Good) (id : ProcId) (fd : Nat) (mem : UserMemory)
    (call : WriteCall) :
    (∃ pipe, r.Writable id fd pipe ∧ call.accepted mem ∧ (r.sysWriteCall id fd mem call).1 =
        (if (call.payload mem).length ≤ (r.pipeAt pipe.pipe.index).space then
          .done (call.payload mem).length else .blocked) ∧
      Stored pipe.pipe.index ((call.payload mem).take (r.pipeAt pipe.pipe.index).space) r
        (r.sysWriteCall id fd mem call).2) ∨
    (r.sysWriteCall id fd mem call).2 = r ∧ (∀ pipe, r.pipeWriteRef id fd = some pipe →
        (call.accepted mem → (r.pipeAt pipe.pipe.index).readers = 0) ∧
        ∀ n, (r.sysWriteCall id fd mem call).1 = .done n → n = 0) ∧
      ((r.sysWriteCall id fd mem call).1 = .failed .epipe →
        ∃ pipe, r.pipeWriteRef id fd = some pipe ∧ (r.pipeAt pipe.pipe.index).readers = 0) := by
  cases href : r.pipeWriteRef id fd with
  | none =>
    obtain ⟨hsm, her⟩ : (r.sysWriteCall id fd mem call).2 = r ∧
        (r.sysWriteCall id fd mem call).1 ≠ .failed .epipe := sysWriteCall_other href call
    exact .inr ⟨hsm, fun pipe h => (by cases h), fun h => absurd h her⟩
  | some pipe =>
    by_cases hrd : (r.pipeAt pipe.pipe.index).readers = 0
    · have hun : Fruitless (r.sysWriteCall id fd mem call) r .epipe :=
        sysWriteCall_unread href (h.write_end href).1 hrd call
      obtain ⟨hsm, hdn, -⟩ := hun.unchanged
      refine .inr ⟨hsm, ?_, fun _ => ⟨pipe, rfl, hrd⟩⟩
      rintro pipe' hpp
      cases hpp
      exact ⟨fun _ => hrd, hdn⟩
    · cases hac : call.accepted mem with
      | true =>
        have hwr := h.writable href hrd
        obtain ⟨r', hout, hst⟩ := sysWriteCall_stores hwr hac
        left
        rw [hout]
        exact ⟨pipe, hwr, rfl, rfl, hst⟩
      | false =>
        obtain ⟨hsm, hdn, hep⟩ := (sysWriteCall_rejected href hac).unchanged
        exact .inr ⟨hsm, fun _ _ => ⟨fun htr => (by cases htr), hdn⟩, fun heq => (by cases hep heq)⟩

theorem step_opens (h : r.Good) (hop : op.transfers = false) :
    (r.step op).2.Good ∧ r.descriptors.pipes.Opens (r.step op).2.descriptors.pipes := by
  have hkp : ∀ r', r.Kept r' → r'.Good ∧ r.descriptors.pipes.Opens r'.descriptors.pipes :=
    fun r' hkp => ⟨hkp.good h, hkp.2.opens⟩
  cases op with
  | pipe id =>
    obtain ⟨hsn, hon⟩ := openPipe_opens h.sound id
    refine ⟨⟨hsn, fun i hlv => ?_⟩, hon⟩
    cases hbf : (r.pipeAt i).live with
    | true => exact (congrArg Ring.len ((hon i).1 hbf)).trans_le (h.bounded i hbf)
    | false => exact (congrArg Ring.len ((hon i).2 hbf hlv)).trans_le (Nat.zero_le _)
  | openFile id cloexec | openDir id cloexec =>
    exact hkp _ (allocDescriptionAndFd_kept h.sound rfl id cloexec)
  | setCloexec id fd cloexec => exact hkp _ (setFdCloexec_kept h.sound id fd cloexec)
  | dup2 id oldFd newFd => exact hkp _ (dup2_kept h.sound id oldFd newFd)
  | dupFd id oldFd minFd => exact hkp _ (dupToLowestAtOrAbove_kept h.sound id oldFd minFd)
  | close id fd => exact hkp _ (closeFd_kept h.sound id fd)
  | fork parent child => exact hkp _ (inheritForChild_kept h.sound parent child)
  | exec id => exact hkp _ (closeOnExec_kept h.sound id)
  | exit id => exact hkp _ (releaseForProcess_kept h.sound id)
  | read | write => cases hop

/-- An operation that moves bytes changes at most the ring of one pipe. -/
theorem step_transfers (h : r.Good) (hop : op.transfers) : (r.step op).2 = r ∨
      ∃ i ring, (r.step op).2 = r.setRing i ring ∧ ring.len ≤ linuxPipeCapacity := by
  cases op with
  | read id fd count writable =>
    rcases sysRead_cases h id fd count writable with ⟨pipe, href, hout, -⟩ | ⟨hsm, -⟩
    · have hso := (h.read_end href).1
      exact .inr ⟨_, _, congrArg Prod.snd hout,
        (Nat.sub_le _ _).trans (h.bounded _ (PipePool.slot_isSome.1 hso).1)⟩
    · exact .inl hsm
  | write id fd mem call =>
    rcases sysWriteCall_cases h id fd mem call with
      ⟨pipe, -, -, -, ring, hout, -, hlen⟩ | ⟨hsm, -⟩
    · exact .inr ⟨_, ring, hout, hlen⟩
    · exact .inl hsm
  | _ => cases hop

theorem step_good (h : r.Good) (op : FdOp) : (r.step op).2.Good := by
  cases hop : FdOp.transfers op with
  | false => exact (step_opens h hop).1
  | true =>
    rcases step_transfers h hop with hsm | ⟨i, ring, hset, hlen⟩
    · rw [hsm]
      exact h
    · rw [hset]
      exact setRing_good h hlen

/-- **No descriptor dangles.** In every run the descriptors of all processes name live descriptions of
their generation, which count them, every pipe counts the descriptions of its ends, and none holds
more than its capacity. -/
theorem registry_good (ops : List FdOp) : (run step (new : LinuxFdRegistry P) ops).Good :=
  run_invariant step new_good (fun _ op h => step_good h op) ops

end LinuxFdRegistry

/-! ## Ledgers -/

/-- What was read from a pipe, and what its writers were told they had written. -/
structure Ledger where
  read : List UInt8
  reported : List UInt8

/-- An entry of a log of the system. -/
abbrev FdEvent (P : Nat) := Event (LinuxFdRegistry P) FdOp FdResult

variable {P : Nat}

/-- The bytes a call returns. -/
def FdResult.bytes : FdResult → List UInt8
  | .read (.done bytes) => bytes
  | _ => []

/-- The number of bytes a call reports as written. -/
def FdResult.count : FdResult → Nat
  | .write (.done n) => n
  | _ => 0

/-- The bytes an event reads from the pipe in slot `i`. -/
def bytesRead (i : Fin linuxPipeMax) (e : FdEvent P) : List UInt8 :=
  match e.input with
  | .read id fd _ _ =>
    if (e.pre.pipeReadRef id fd).any (·.pipe.index = i) then e.output.bytes else []
  | _ => []

/-- The bytes an event reports as written to the pipe in slot `i`: the first ones of the caller's. -/
def bytesReported (i : Fin linuxPipeMax) (e : FdEvent P) : List UInt8 :=
  match e.input with
  | .write id fd mem call =>
    if (e.pre.pipeWriteRef id fd).any (·.pipe.index = i) then (call.buffer mem).take e.output.count
    else []
  | _ => []

/-- The ledger of the pipe in slot `i` after an event; it starts with the pipe. -/
def Ledger.after (i : Fin linuxPipeMax) (ledger : Ledger) (e : FdEvent P) : Ledger :=
  if (e.pre.pipeAt i).live then
    ⟨ledger.read ++ bytesRead i e, ledger.reported ++ bytesReported i e⟩
  else ⟨[], []⟩

def ledger (i : Fin linuxPipeMax) (log : List (FdEvent P)) : Ledger :=
  log.foldl (Ledger.after i) ⟨[], []⟩

/-- The bytes read from a pipe, followed by those in it, are the bytes reported as written. -/
def Balanced (ledger : Ledger) (slot : PipeSlot) : Prop :=
  slot.live → ledger.read ++ slot.ring.toList = ledger.reported

/-- A write finds the pipe full, or room for all it offers. -/
def Fits (e : FdEvent P) : Prop :=
  ∀ id fd mem call pipe, e.input = .write id fd mem call → e.pre.pipeWriteRef id fd = some pipe →
    call.accepted mem → (e.pre.pipeAt pipe.pipe.index).readers ≠ 0 →
    (e.pre.pipeAt pipe.pipe.index).space = 0 ∨
      (call.payload mem).length ≤ (e.pre.pipeAt pipe.pipe.index).space

namespace LinuxFdRegistry

variable {r : LinuxFdRegistry P}

end LinuxFdRegistry

end CleanSlate.Kernel.Linux
