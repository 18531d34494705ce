import CleanSlate.Kernel.Linux.Fd
import Mathlib.Data.Multiset.Count

/-!
# References to open descriptions

A description counts its references, and a pipe the descriptions attached to its ends. What is
referred to at one time is a multiset of ids, and the pool `Holds` it when every reference is valid
and counted. Each operation of the pool says what it takes from the multiset or adds to it.
-/

namespace CleanSlate.Kernel.Linux

open Lib Function Slots PoolSlot Multiset PipeSlot

/-! ## Pipe ends -/

/-- The descriptions attached to an end. -/
def PipeSlot.ends (slot : PipeSlot) : PipeEnd → Nat
  | .read => slot.readers
  | .write => slot.writers

theorem PipeSlot.ends_releaseEnd (slot : PipeSlot) (pipeEnd e : PipeEnd) :
    (slot.releaseEnd pipeEnd).ends e = slot.ends e - if pipeEnd = e then 1 else 0 := by
  unfold releaseEnd
  cases pipeEnd <;> cases e <;> dsimp only <;> split <;> rfl

theorem PipeSlot.live_releaseEnd (slot : PipeSlot) (pipeEnd : PipeEnd) :
    (slot.releaseEnd pipeEnd).live ↔ slot.live ∧ ∃ e, 0 < (slot.releaseEnd pipeEnd).ends e := by
  have hen : ∀ slot : PipeSlot, (∃ e, 0 < slot.ends e) ↔ ¬ (slot.readers = 0 ∧ slot.writers = 0) := by
    intro slot
    constructor
    · rintro ⟨_ | _, hpos⟩ ⟨hrd, hwr⟩
      · exact absurd hrd hpos.ne'
      · exact absurd hwr hpos.ne'
    · intro hnot
      by_cases hrd : slot.readers = 0
      · exact ⟨.write, Nat.pos_of_ne_zero fun hwr => hnot ⟨hrd, hwr⟩⟩
      · exact ⟨.read, Nat.pos_of_ne_zero hrd⟩
  unfold releaseEnd
  cases pipeEnd <;> dsimp only <;> split <;> simp_all

namespace PipePool

variable {pool : PipePool} {ref : PipeRef} {handle : PipeId}

theorem slot_isSome : (pool.slot handle).isSome ↔ (pool.slots handle.index).live ∧
      (pool.slots handle.index).generation = handle.generation := by
  unfold slot
  dsimp only
  split
  · next h => simpa using h
  · next h => simpa using h

theorem slot_eq (h : (pool.slot handle).isSome) :
    pool.slot handle = some (pool.slots handle.index) := by
  obtain ⟨hlv, hgn⟩ := slot_isSome.1 h
  unfold slot
  rw [if_pos ⟨hlv, hgn⟩]

/-- The rings stay, and no pipe comes to life. -/
def Keeps (pool pool' : PipePool) : Prop := ∀ i, (pool'.slots i).ring = (pool.slots i).ring ∧
    ((pool'.slots i).live → (pool.slots i).live)

theorem Keeps.refl (pool : PipePool) : pool.Keeps pool := fun _ => ⟨rfl, id⟩

theorem Keeps.trans {pool₁ pool₂ pool₃ : PipePool} (h : pool₁.Keeps pool₂) (h' : pool₂.Keeps pool₃) :
    pool₁.Keeps pool₃ :=
  fun i => ⟨(h' i).1.trans (h i).1, fun hlv => (h i).2 ((h' i).2 hlv)⟩

/-- A live pipe keeps its contents, and one that comes to life is empty. -/
def Opens (pool pool' : PipePool) : Prop :=
  ∀ i, ((pool.slots i).live → (pool'.slots i).ring = (pool.slots i).ring) ∧
    ((pool.slots i).live = false → (pool'.slots i).live → (pool'.slots i).ring = PipeSlot.emptyRing)

theorem Keeps.opens {pool' : PipePool} (h : pool.Keeps pool') : pool.Opens pool' :=
  fun i => ⟨fun _ => (h i).1, fun hdd hlv => Bool.noConfusion (hdd.symm.trans ((h i).2 hlv))⟩

theorem keeps_write {index : Fin linuxPipeMax} {slot : PipeSlot}
    (hrn : slot.ring = (pool.slots index).ring)
    (hlv : slot.live → (pool.slots index).live) :
    pool.Keeps (pool.write index slot) := by
  intro i
  dsimp only [write]
  by_cases hi : i = index
  · rw [hi, update_self]
    exact ⟨hrn, hlv⟩
  · rw [update_of_ne hi]
    exact ⟨rfl, id⟩

theorem addEnd_eq (h : (pool.slot ref.pipe).isSome) (i : Fin linuxPipeMax) :
    ((pool.addEnd ref).slots i).live = (pool.slots i).live ∧
    ((pool.addEnd ref).slots i).generation = (pool.slots i).generation ∧
    ∀ e, (pool.slots i).ends e < 65535 → ((pool.addEnd ref).slots i).ends e =
      (pool.slots i).ends e + if ref.pipe.index = i ∧ ref.pipeEnd = e then 1 else 0 := by
  unfold addEnd
  rw [slot_eq h]
  dsimp only [write]
  by_cases hi : i = ref.pipe.index
  · subst hi
    rw [update_self]
    cases hend : ref.pipeEnd
    · refine ⟨rfl, rfl, fun e hrm => ?_⟩
      cases e
      · simp only [ends, succU16, and_self, if_true] at hrm ⊢
        omega
      · simp [ends]
    · refine ⟨rfl, rfl, fun e hrm => ?_⟩
      cases e
      · simp [ends]
      · simp only [ends, succU16, and_self, if_true] at hrm ⊢
        omega
  · rw [update_of_ne hi]
    refine ⟨rfl, rfl, fun e _ => ?_⟩
    rw [if_neg fun h => hi h.1.symm, Nat.add_zero]

theorem addEnd_keeps (pool : PipePool) (ref : PipeRef) : pool.Keeps (pool.addEnd ref) := by
  unfold addEnd
  split
  · exact .refl pool
  · next slot hsl =>
    obtain rfl := Option.some.inj ((slot_eq (by rw [hsl]; rfl)).symm.trans hsl)
    split <;> exact keeps_write rfl id

theorem releaseEnd_eq (h : (pool.slot ref.pipe).isSome) : pool.releaseEnd ref =
      pool.write ref.pipe.index ((pool.slots ref.pipe.index).releaseEnd ref.pipeEnd) := by
  unfold releaseEnd
  rw [slot_eq h]

theorem releaseEnd_keeps (pool : PipePool) (ref : PipeRef) : pool.Keeps (pool.releaseEnd ref) := by
  unfold releaseEnd
  split
  · exact .refl pool
  next slot hsl =>
  obtain rfl := Option.some.inj ((slot_eq (by rw [hsl]; rfl)).symm.trans hsl)
  refine keeps_write ?_ fun hlv => ((live_releaseEnd _ _).1 hlv).1
  unfold PipeSlot.releaseEnd
  cases ref.pipeEnd <;> dsimp only <;> split <;> rfl

theorem discardUnattached_keeps (pool : PipePool) (handle : PipeId) :
    pool.Keeps (pool.discardUnattached handle) := by
  unfold discardUnattached
  split
  · exact .refl pool
  next slot hsl =>
  obtain rfl := Option.some.inj ((slot_eq (by rw [hsl]; rfl)).symm.trans hsl)
  split
  · exact keeps_write rfl fun hlv => Bool.noConfusion hlv
  · exact .refl pool

end PipePool

/-! ## The pool -/

/-- A live description with a reference. -/
def PoolSlot.attached (slot : PoolSlot) : Bool := slot.live && decide (0 < slot.description.refcount)

/-- The description is attached to an end of the pipe at `i`. -/
def PoolSlot.attachedTo (i : Fin linuxPipeMax) (pipeEnd : PipeEnd) (slot : PoolSlot) : Bool :=
  slot.attached && slot.description.kind.pipe.any fun p => p.pipe.index = i && p.pipeEnd = pipeEnd

/-- The kind of the descriptions of a pipe end. -/
def PipeRef.kind (pipe : PipeRef) : DescriptorKind :=
  match pipe.pipeEnd with
  | .read => .pipeRead pipe
  | .write => .pipeWrite pipe

/-- The pool counts the references `refs`. -/
structure Descriptors.Holds (ds : Descriptors) (refs : Multiset OpenDescriptionId) : Prop where
  valid : ∀ id ∈ refs, (ds.slots id.index).live ∧ (ds.slots id.index).generation = id.generation
  counted : ∀ d, refs.countP (·.index = d) ≤ (ds.slots d).description.refcount
  described : ∀ d, (ds.slots d).live → (ds.slots d).description.generation = (ds.slots d).generation
  piped : ∀ d pipe, (ds.slots d).attached → (ds.slots d).description.kind.pipe = some pipe →
    (ds.slots d).description.kind = pipe.kind ∧ (ds.pipes.slot pipe.pipe).isSome
  ends : ∀ i pipeEnd, (ds.pipes.slots i).live →
    (ds.pipes.slots i).ends pipeEnd = Slots.count (PoolSlot.attachedTo i pipeEnd) ds.slots

namespace Descriptors

variable {ds ds' : Descriptors} {refs refs' : Multiset OpenDescriptionId} {id : OpenDescriptionId}

theorem new_holds : new.Holds 0 where
  valid id hid := absurd hid (notMem_zero id)
  counted _ := Nat.zero_le _
  described _ h := Bool.noConfusion h
  piped _ _ h := Bool.noConfusion h
  ends _ _ h := Bool.noConfusion h

theorem Holds.mono (h : ds.Holds refs) (hle : refs' ≤ refs) : ds.Holds refs' := { h with
  valid id hid := h.valid id (mem_of_le hle hid)
  counted d := (countP_le_of_le _ hle).trans (h.counted d) }

variable {slot : PoolSlot} {index d : Fin openDescriptionCapacity} {pipes : PipePool}
  {i : Fin linuxPipeMax}

/-- Writing one slot: the references to the other slots stay, those to the slot are counted in it,
and the pipes move with its standing towards them. -/
theorem Holds.write (h : ds.Holds refs) (hot : ∀ id ∈ refs', id.index ≠ index → id ∈ refs)
    (hoh : ∀ d ≠ index, refs'.countP (·.index = d) ≤ refs.countP (·.index = d))
    (hvl : ∀ id ∈ refs', id.index = index → slot.live ∧ slot.generation = id.generation)
    (hcn : refs'.countP (·.index = index) ≤ slot.description.refcount)
    (hds : slot.live → slot.description.generation = slot.generation)
    (hpp : ∀ pipe, slot.attached → slot.description.kind.pipe = some pipe →
      slot.description.kind = pipe.kind ∧ (pipes.slot pipe.pipe).isSome)
    (hkp : ∀ d pipe, d ≠ index → (ds.slots d).attached →
      (ds.slots d).description.kind.pipe = some pipe → (pipes.slot pipe.pipe).isSome)
    (hen : ∀ i pipeEnd, (pipes.slots i).live →
      (pipes.slots i).ends pipeEnd + (if (ds.slots index).attachedTo i pipeEnd then 1 else 0) =
        count (attachedTo i pipeEnd) ds.slots + if slot.attachedTo i pipeEnd then 1 else 0) :
    Holds ⟨update ds.slots index slot, pipes⟩ refs' where
  valid id hid := by
    dsimp only
    by_cases hd : id.index = index
    · rw [hd, update_self]
      exact hvl id hid hd
    · rw [update_of_ne hd]
      exact h.valid id (hot id hid hd)
  counted d := by
    dsimp only
    by_cases hd : d = index
    · rw [hd, update_self]
      exact hcn
    · rw [update_of_ne hd]
      exact (hoh d hd).trans (h.counted d)
  described d := by
    dsimp only
    by_cases hd : d = index
    · rw [hd, update_self]
      exact hds
    · rw [update_of_ne hd]
      exact h.described d
  piped d pipe := by
    dsimp only
    by_cases hd : d = index
    · rw [hd, update_self]
      exact hpp pipe
    · rw [update_of_ne hd]
      exact fun hat hkn =>
        ⟨(h.piped d pipe hat hkn).1, hkp d pipe hd hat hkn⟩
  ends i pipeEnd hlv := by
    have hup := count_update (attachedTo i pipeEnd) ds.slots index slot
    exact Nat.add_right_cancel ((hen i pipeEnd hlv).trans hup.symm)

theorem attachedTo_of_not (h : slot.attached = false) (i : Fin linuxPipeMax) (pipeEnd : PipeEnd) :
    slot.attachedTo i pipeEnd = false := by
  simp [attachedTo, h]

/-- Writing a slot that no reference names and that is attached neither before nor after. -/
theorem Holds.write_free (h : ds.Holds refs) (hnn : refs.countP (·.index = index) = 0)
    (hbf : (ds.slots index).attached = false) (haf : slot.attached = false)
    (hds : slot.live → slot.description.generation = slot.generation) :
    (ds.write index slot).Holds refs := by
  refine h.write (fun id hid _ => hid) (fun d _ => le_rfl) ?_ ?_ hds ?_ ?_ ?_
  · exact fun id hid hin => absurd hin (countP_eq_zero.1 hnn id hid)
  · rw [hnn]
    exact Nat.zero_le _
  · exact fun _ hat => Bool.noConfusion (haf.symm.trans hat)
  · exact fun d pipe _ hat hkn => (h.piped d pipe hat hkn).2
  · intro i pipeEnd hlv
    rw [attachedTo_of_not hbf, attachedTo_of_not haf, h.ends i pipeEnd hlv]

theorem Holds.countP_of_dead (h : ds.Holds refs) (hdd : (ds.slots index).live = false) :
    refs.countP (·.index = index) = 0 := by
  rw [countP_eq_zero]
  intro id hid heq
  have hlv := (h.valid id hid).1
  rw [heq, hdd] at hlv
  exact Bool.noConfusion hlv

theorem alloc_holds {kind : DescriptorKind} (h : ds.Holds refs)
    (hal : ds.alloc kind = .ok (id, ds')) :
    ds'.Holds refs ∧ ds'.pipes = ds.pipes ∧ (ds.slots id.index).live = false ∧
      ds'.slots id.index = ⟨true, id.generation, ⟨kind, 0, id.generation⟩⟩ ∧
      ∀ d, d ≠ id.index → ds'.slots d = ds.slots d := by
  unfold alloc at hal
  split at hal
  · cases hal
  next index hfr =>
  have hdd : (ds.slots index).live = false := by simpa using position_some hfr
  cases hal
  refine ⟨?_, rfl, hdd, update_self _ _ _, fun d hd => update_of_ne hd _ _⟩
  exact h.write_free (h.countP_of_dead hdd) (by simp [attached, hdd]) rfl fun _ => rfl

theorem get_ok {desc : OpenDescription} (h : ds.get id = .ok desc) :
    (ds.slots id.index).live ∧ (ds.slots id.index).generation = id.generation ∧
      (ds.slots id.index).description = desc := by
  unfold get at h
  rw [ite_error_eq_ok, ite_error_eq_ok] at h
  obtain ⟨hlv, hgn, h⟩ := h
  refine ⟨by simpa using hlv, ?_, Except.ok.inj h⟩
  exact Decidable.not_not.1 fun hne => hgn (.inl hne)

theorem Holds.refcount_pos (h : ds.Holds refs) (hid : id ∈ refs) :
    0 < (ds.slots id.index).description.refcount :=
  (countP_pos_of_mem hid (rfl : id.index = id.index)).trans_le (h.counted id.index)

@[simp] theorem finalizeSlot_pipes (ds : Descriptors) (index : Fin openDescriptionCapacity) :
    (ds.finalizeSlot index).pipes = ds.pipes := by
  unfold finalizeSlot
  dsimp only
  split <;> rfl

@[simp] theorem freeUnattached_pipes (ds : Descriptors) (id : OpenDescriptionId) :
    (ds.freeUnattached id).pipes = ds.pipes := by
  unfold freeUnattached
  split
  · split
    · exact finalizeSlot_pipes ds id.index
    · rfl
  · rfl

theorem freeUnattached_holds (h : ds.Holds refs) (id : OpenDescriptionId) :
    (ds.freeUnattached id).Holds refs := by
  unfold freeUnattached
  split
  · next desc hget =>
    obtain ⟨hlv, -, hds⟩ := get_ok hget
    split
    · next hzr =>
      unfold finalizeSlot
      rw [if_neg (by simp [hlv])]
      have hcn := h.counted id.index
      rw [hds, hzr] at hcn
      exact h.write_free (Nat.le_zero.1 hcn) (by simp [attached, hds, hzr])
        (by simp [attached]) fun hlv => Bool.noConfusion hlv
    · exact h
  · exact h

theorem countP_cons_index (id : OpenDescriptionId) (refs : Multiset OpenDescriptionId) :
    (id ::ₘ refs).countP (·.index = id.index) = refs.countP (·.index = id.index) + 1 :=
  countP_cons_of_pos _ (rfl : id.index = id.index)

theorem countP_cons_other (hd : d ≠ id.index) (refs : Multiset OpenDescriptionId) :
    (id ::ₘ refs).countP (·.index = d) = refs.countP (·.index = d) :=
  countP_cons_of_neg _ fun heq => hd heq.symm

theorem mem_of_mem_cons_other {other : OpenDescriptionId} (hmem : other ∈ id ::ₘ refs)
    (hot : other.index ≠ id.index) : other ∈ refs :=
  (mem_cons.1 hmem).resolve_left fun heq => hot (congrArg _ heq)

/-- A reference to a live slot is valid beside the valid references to it. -/
theorem Holds.valid_cons (h : ds.Holds refs) (hlv : (ds.slots id.index).live)
    (hgn : (ds.slots id.index).generation = id.generation) :
    ∀ other ∈ id ::ₘ refs, other.index = id.index →
      (ds.slots id.index).live ∧ (ds.slots id.index).generation = other.generation := by
  intro other hmem hin
  rcases mem_cons.1 hmem with rfl | hmem
  · exact ⟨hlv, hgn⟩
  · rw [← hin]
    exact h.valid other hmem

/-- A description with references counts one more or one less without changing its standing. -/
theorem attachedTo_setRefcount {refcount : Nat} (hpos : 0 < slot.description.refcount)
    (hpos' : 0 < refcount) (i : Fin linuxPipeMax) (pipeEnd : PipeEnd) :
    attachedTo i pipeEnd { slot with description := { slot.description with refcount } } =
      slot.attachedTo i pipeEnd := by
  simp [attachedTo, attached, hpos, hpos']

theorem addRef_holds (h : ds.Holds refs) (hpos : 0 < (ds.slots id.index).description.refcount)
    (hadd : ds.addRef id = .ok ds') : ds'.Holds (id ::ₘ refs) ∧ ds'.pipes = ds.pipes := by
  obtain ⟨desc, hget, hadd⟩ := bind_eq_ok.1 hadd
  obtain ⟨hlv, hgn, rfl⟩ := get_ok hget
  rw [ite_error_eq_ok] at hadd
  obtain ⟨-, hadd⟩ := hadd
  cases hadd
  refine ⟨?_, rfl⟩
  refine h.write (fun _ => mem_of_mem_cons_other) (fun d hd => (countP_cons_other hd _).le)
    (h.valid_cons hlv hgn) ?_ (h.described _) ?_ ?_ ?_
  · rw [countP_cons_index]
    exact Nat.add_le_add_right (h.counted _) 1
  · intro pipe _ hkn
    exact h.piped _ pipe (by simp [attached, hlv, hpos]) hkn
  · exact fun d pipe _ hat hkn => (h.piped d pipe hat hkn).2
  · intro i pipeEnd hlv
    rw [attachedTo_setRefcount hpos (Nat.succ_pos _), h.ends i pipeEnd hlv]

theorem Holds.ends_lt (h : ds.Holds refs) (e : PipeEnd) (hlv : (ds.pipes.slots i).live) :
    (ds.pipes.slots i).ends e < 65535 := by
  rw [h.ends i e hlv]
  exact (count_le _ _).trans_lt (by decide)

/-- A fresh description takes its first reference. -/
theorem attachFirstRef_holds {kind : DescriptorKind} (h : ds.Holds refs)
    (hsl : ds.slots id.index = ⟨true, id.generation, ⟨kind, 0, id.generation⟩⟩)
    (hpp : ∀ pipe, kind.pipe = some pipe → kind = pipe.kind ∧ (ds.pipes.slot pipe.pipe).isSome) :
    ∃ ds', ds.attachFirstRef id = .ok ds' ∧ ds'.Holds (id ::ₘ refs) ∧ ds.pipes.Keeps ds'.pipes ∧
      (∀ handle, (ds'.pipes.slot handle).isSome = (ds.pipes.slot handle).isSome) ∧
      ∀ d, d ≠ id.index → ds'.slots d = ds.slots d := by
  have hget : ds.get id = .ok ⟨kind, 0, id.generation⟩ := by simp [get, hsl]
  have hnn : refs.countP (·.index = id.index) = 0 := by
    have hcn := h.counted id.index
    rw [hsl] at hcn
    exact Nat.le_zero.1 hcn
  have hbf : ∀ i e, (ds.slots id.index).attachedTo i e = false :=
    attachedTo_of_not (by rw [hsl]; rfl)
  unfold attachFirstRef
  refine ⟨_, by rw [hget]; rfl, ?_⟩
  -- what the write asks for apart from the pipes
  have hwr : ∀ pipes, (∀ handle, (pipes.slot handle).isSome = (ds.pipes.slot handle).isSome) →
      (∀ i e, (pipes.slots i).live → (pipes.slots i).ends e = count (attachedTo i e) ds.slots +
          if kind.pipe.any (fun p => p.pipe.index = i && p.pipeEnd = e) then 1 else 0) →
      Holds ⟨update ds.slots id.index ⟨true, id.generation, ⟨kind, 1, id.generation⟩⟩, pipes⟩
        (id ::ₘ refs) := by
    intro pipes hsm hen
    refine h.write (fun _ => mem_of_mem_cons_other) (fun d hd => (countP_cons_other hd _).le)
      ?_ ?_ (fun _ => rfl) ?_ ?_ ?_
    · intro other hmem hin
      have hvl : (ds.slots id.index).live ∧
          (ds.slots id.index).generation = other.generation :=
        h.valid_cons (by rw [hsl]) (by rw [hsl]) other hmem hin
      rwa [hsl] at hvl
    · rw [countP_cons_index, hnn]
    · intro pipe _ hkn
      exact ⟨(hpp pipe hkn).1, (hsm _).trans (hpp pipe hkn).2⟩
    · intro d pipe _ hat hkn
      exact (hsm _).trans (h.piped d pipe hat hkn).2
    · intro i e hlv
      rw [hbf, hen i e hlv]
      rfl
  have hset : ds.setRefcount id.index 1 =
      ⟨update ds.slots id.index ⟨true, id.generation, ⟨kind, 1, id.generation⟩⟩, ds.pipes⟩ := by
    simp [setRefcount, write, hsl]
  rw [hset]
  unfold attachPipe
  cases hkn : kind.pipe with
  | none =>
    refine ⟨hwr ds.pipes (fun _ => rfl) ?_, .refl _, fun _ => rfl, fun d hd => update_of_ne hd _ _⟩
    intro i e hlv
    rw [hkn]
    exact h.ends i e hlv
  | some pipe =>
    have hso := (hpp pipe hkn).2
    have hsm : ∀ handle, ((ds.pipes.addEnd pipe).slot handle).isSome =
        (ds.pipes.slot handle).isSome := by
      intro handle
      rw [Bool.eq_iff_iff, PipePool.slot_isSome, PipePool.slot_isSome,
        (PipePool.addEnd_eq hso _).1, (PipePool.addEnd_eq hso _).2.1]
    refine ⟨hwr _ hsm ?_, PipePool.addEnd_keeps _ _, hsm, fun d hd => update_of_ne hd _ _⟩
    intro i e hlv
    rw [(PipePool.addEnd_eq hso i).1] at hlv
    rw [(PipePool.addEnd_eq hso i).2.2 e (h.ends_lt e hlv), h.ends i e hlv, hkn]
    simp

/-- What detaching an attached description leaves of the pipes. -/
theorem Holds.detach (h : ds.Holds refs) {pipe : PipeRef} (hat : (ds.slots d).attached)
    (hkn : (ds.slots d).description.kind.pipe = some pipe) :
    (∀ i e, (ds.pipes.slots i).live → ((ds.pipes.releaseEnd pipe).slots i).ends e +
      (if (ds.slots d).attachedTo i e then 1 else 0) = count (attachedTo i e) ds.slots) ∧
    ∀ d' pipe', d' ≠ d → (ds.slots d').attached → (ds.slots d').description.kind.pipe = some pipe' →
      ((ds.pipes.releaseEnd pipe).slot pipe'.pipe).isSome := by
  have hsm := (h.piped d pipe hat hkn).2
  have hto : ∀ i e, (ds.slots d).attachedTo i e ↔ pipe.pipe.index = i ∧ pipe.pipeEnd = e := by
    simp [attachedTo, hat, hkn]
  have hen : ∀ i e, (ds.pipes.slots i).live → ((ds.pipes.releaseEnd pipe).slots i).ends e +
      (if (ds.slots d).attachedTo i e then 1 else 0) = count (attachedTo i e) ds.slots := by
    intro i e hlv
    rw [PipePool.releaseEnd_eq hsm, ← h.ends i e hlv]
    dsimp only [PipePool.write]
    by_cases hi : i = pipe.pipe.index
    · subst hi
      rw [update_self, ends_releaseEnd]
      by_cases he : pipe.pipeEnd = e
      · have hpos : 0 < count (attachedTo pipe.pipe.index e) ds.slots :=
          count_pos.2 ⟨d, (hto _ _).2 ⟨rfl, he⟩⟩
        rw [← h.ends _ e hlv] at hpos
        rw [if_pos he, if_pos ((hto _ _).2 ⟨rfl, he⟩)]
        omega
      · rw [if_neg he, if_neg fun hd => he ((hto _ _).1 hd).2]
        rfl
    · rw [update_of_ne hi, if_neg fun hd => hi ((hto _ _).1 hd).1.symm, Nat.add_zero]
  refine ⟨hen, fun d' pipe' hne hat' hkn' => ?_⟩
  obtain ⟨hlv', hgn'⟩ := PipePool.slot_isSome.1 (h.piped d' pipe' hat' hkn').2
  rw [PipePool.slot_isSome]
  -- the other description still counts
  have hpos : 0 < ((ds.pipes.releaseEnd pipe).slots pipe'.pipe.index).ends pipe'.pipeEnd := by
    have hot : (update ds.slots d ⟨false, 0, ⟨.file, 0, 0⟩⟩ d').attachedTo
        pipe'.pipe.index pipe'.pipeEnd := by
      rw [update_of_ne hne]
      simp [attachedTo, hat', hkn']
    have hcn := count_update (attachedTo pipe'.pipe.index pipe'.pipeEnd) ds.slots d
      ⟨false, 0, ⟨.file, 0, 0⟩⟩
    rw [← hen _ _ hlv', attachedTo_of_not
      (show attached ⟨false, 0, ⟨.file, 0, 0⟩⟩ = false from rfl)] at hcn
    have := count_pos.2 ⟨d', hot⟩
    simp only [Bool.false_eq_true, if_false] at hcn
    omega
  rw [PipePool.releaseEnd_eq hsm] at hpos ⊢
  dsimp only [PipePool.write] at hpos ⊢
  by_cases hi : pipe'.pipe.index = pipe.pipe.index
  · rw [hi, update_self] at hpos ⊢
    refine ⟨(live_releaseEnd _ _).2 ⟨hi ▸ hlv', _, hpos⟩, ?_⟩
    rw [← hgn', hi]
    unfold releaseEnd
    cases pipe.pipeEnd <;> dsimp only <;> split <;> rfl
  · rw [update_of_ne hi]
    exact ⟨hlv', hgn'⟩

/-- A reference is given back; the last one detaches the description and frees it. -/
theorem releaseRef_holds (h : ds.Holds (id ::ₘ refs)) :
    ∃ ds', ds.releaseRef id = .ok ds' ∧ ds'.Holds refs ∧ ds.pipes.Keeps ds'.pipes := by
  obtain ⟨hlv, hgn⟩ := h.valid id (mem_cons_self id refs)
  have hpos := h.refcount_pos (mem_cons_self id refs)
  have hcn := h.counted id.index
  rw [countP_cons_index] at hcn
  have hkp := h.mono (le_cons_self refs id)
  have hat : (ds.slots id.index).attached := by simp [attached, hlv, hpos]
  unfold releaseRef
  rw [if_neg (by simp [hlv]), if_neg (by simp [hgn]), if_neg hpos.ne']
  by_cases hls : (ds.slots id.index).description.refcount - 1 = 0
  · rw [hls]
    have hnn : refs.countP (·.index = id.index) = 0 := by omega
    have hwr : ∀ pipes,
        (∀ i e, (pipes.slots i).live → (pipes.slots i).ends e +
          (if (ds.slots id.index).attachedTo i e then 1 else 0) = count (attachedTo i e) ds.slots) →
        (∀ d pipe, d ≠ id.index → (ds.slots d).attached →
          (ds.slots d).description.kind.pipe = some pipe → (pipes.slot pipe.pipe).isSome) →
        (finalizeSlot { ds.setRefcount id.index 0 with pipes } id.index).Holds refs := by
      intro pipes hen hot
      have hfn : finalizeSlot { ds.setRefcount id.index 0 with pipes } id.index =
          ⟨update ds.slots id.index ⟨false, nextU32 (ds.slots id.index).generation,
            { (ds.slots id.index).description with refcount := 0 }⟩, pipes⟩ := by
        simp [finalizeSlot, setRefcount, write, hlv]
      rw [hfn]
      refine hkp.write (fun _ hmem _ => hmem) (fun _ _ => le_rfl) ?_ ?_
        (fun hfl => Bool.noConfusion hfl) (fun _ hfl => Bool.noConfusion hfl) hot ?_
      · exact fun other hmem hin => absurd hin (countP_eq_zero.1 hnn other hmem)
      · rw [hnn]
      · intro i e hlv
        exact hen i e hlv
    refine ⟨_, rfl, ?_⟩
    unfold detachPipe
    cases hkn : (ds.slots id.index).description.kind.pipe with
    | none =>
      refine ⟨hwr ds.pipes ?_ fun d pipe _ hat hkn => (h.piped d pipe hat hkn).2, ?_⟩
      · intro i e hlv
        rw [h.ends i e hlv]
        simp [attachedTo, hkn]
      · rw [finalizeSlot_pipes]
        exact .refl _
    | some pipe =>
      obtain ⟨hen, hot⟩ := h.detach hat hkn
      refine ⟨hwr _ ?_ hot, ?_⟩
      · exact fun i e hlv => hen i e ((ds.pipes.releaseEnd_keeps pipe i).2 hlv)
      · rw [finalizeSlot_pipes]
        exact PipePool.releaseEnd_keeps _ _
  · rw [if_neg hls]
    refine ⟨_, rfl, ?_, .refl _⟩
    refine hkp.write (fun _ hmem _ => hmem) (fun _ _ => le_rfl) ?_ ?_ (h.described _) ?_ ?_ ?_
    · intro other hmem hin
      rw [← hin]
      exact hkp.valid other hmem
    · change _ ≤ (ds.slots id.index).description.refcount - 1
      omega
    · intro pipe _ hkn
      exact h.piped _ pipe (by simp [attached, hlv, hpos]) hkn
    · exact fun d pipe _ hat hkn => (h.piped d pipe hat hkn).2
    · intro i e hlv
      rw [attachedTo_setRefcount hpos (Nat.pos_of_ne_zero hls), h.ends i e hlv]

section

variable (h : ds.Holds refs)
include h

theorem Holds.set_pipes (hsm : ∀ handle, (ds.pipes.slot handle).isSome →
      (∃ d e, (ds.slots d).attachedTo handle.index e) → (pipes.slot handle).isSome)
    (hen : ∀ i e, (pipes.slots i).live → (pipes.slots i).ends e = count (attachedTo i e) ds.slots) :
    Holds { ds with pipes } refs := { h with
  piped d pipe hat hkn := by
    obtain ⟨hof, hbf⟩ := h.piped d pipe hat hkn
    refine ⟨hof, hsm _ hbf ⟨d, pipe.pipeEnd, ?_⟩⟩
    simp [attachedTo, hat, hkn]
  ends := hen }

theorem Holds.live_of_attachedTo {e : PipeEnd}
    (hto : (ds.slots d).attachedTo i e) : (ds.pipes.slots i).live := by
  unfold attachedTo at hto
  rw [Bool.and_eq_true, Option.any_eq_true] at hto
  obtain ⟨hat, pipe, hkn, hpp⟩ := hto
  have hlv := (PipePool.slot_isSome.1 (h.piped d pipe hat hkn).2).1
  simp only [Bool.and_eq_true, decide_eq_true_eq] at hpp
  rwa [hpp.1] at hlv

/-- Nothing is attached to a pipe that is not live. -/
theorem Holds.count_of_dead (hdd : (ds.pipes.slots i).live = false)
    (e : PipeEnd) : count (attachedTo i e) ds.slots = 0 := by
  rw [count_eq_zero]
  intro d
  rw [← Bool.not_eq_true]
  exact fun hto => Bool.noConfusion (hdd.symm.trans (h.live_of_attachedTo hto))

/-- A new pipe has no ends; the slot it takes was free. -/
theorem allocPipe_holds {pipe : PipeId} (hal : ds.pipes.allocPipe = .ok (pipe, pipes)) :
    Holds { ds with pipes } refs ∧ (pipes.slot pipe).isSome ∧
      (ds.pipes.slots pipe.index).live = false ∧
      (pipes.slots pipe.index).ring = emptyRing ∧
      ∀ i, i ≠ pipe.index → pipes.slots i = ds.pipes.slots i := by
  unfold PipePool.allocPipe at hal
  split at hal
  · cases hal
  next index hfr =>
  have hdd : (ds.pipes.slots index).live = false := by simpa using position_some hfr
  cases hal
  dsimp only [PipePool.write]
  refine ⟨?_, ?_, hdd, ?_, fun i hi => update_of_ne hi _ _⟩
  · refine h.set_pipes ?_ ?_
    · rintro handle hsm ⟨d, e, hto⟩
      have hlv := h.live_of_attachedTo hto
      rw [PipePool.slot_isSome] at hsm ⊢
      dsimp only
      by_cases hi : handle.index = index
      · rw [hi, hdd] at hlv
        exact Bool.noConfusion hlv
      · rwa [update_of_ne hi]
    · intro i e hlv
      dsimp only at hlv ⊢
      by_cases hi : i = index
      · rw [hi, update_self, h.count_of_dead hdd e]
        cases e <;> rfl
      · rw [update_of_ne hi] at hlv ⊢
        exact h.ends i e hlv
  · rw [PipePool.slot_isSome]
    dsimp only
    rw [update_self]
    exact ⟨rfl, rfl⟩
  · rw [update_self]
    rfl

theorem discardUnattached_holds (handle : PipeId) :
    Holds { ds with pipes := ds.pipes.discardUnattached handle } refs := by
  unfold PipePool.discardUnattached
  split
  · exact h
  next slot hsl =>
  have hlv := (PipePool.slot_isSome.1 (by rw [hsl]; rfl)).1
  obtain rfl := Option.some.inj ((PipePool.slot_eq (by rw [hsl]; rfl)).symm.trans hsl)
  split
  · next hzr =>
    refine h.set_pipes ?_ ?_
    · rintro other hsm ⟨d, e, hto⟩
      rw [PipePool.slot_isSome] at hsm ⊢
      dsimp only [PipePool.write]
      by_cases hi : other.index = handle.index
      · have hpos := count_pos.2 ⟨d, hto⟩
        rw [hi, ← h.ends _ e hlv] at hpos
        cases e
        · exact absurd hzr.1 hpos.ne'
        · exact absurd hzr.2 hpos.ne'
      · rwa [update_of_ne hi]
    · intro i e hlv
      dsimp only [PipePool.write] at hlv ⊢
      by_cases hi : i = handle.index
      · rw [hi, update_self] at hlv
        exact Bool.noConfusion hlv
      · rw [update_of_ne hi] at hlv ⊢
        exact h.ends i e hlv
  · exact h

end

end Descriptors

end CleanSlate.Kernel.Linux
