import CleanSlate.Kernel.Linux.Verify.Fd
import Mathlib.Algebra.BigOperators.Group.Multiset.Basic
import Mathlib.Algebra.Order.BigOperators.Group.Finset

/-!
# References of the descriptor tables

What the entries of a table refer to, and what the tables of all processes refer to, as multisets of
ids. Every operation of the registry leaves a pool that holds the references of the tables it leaves,
and no operation but opening a pipe and using one touches what is in the pipes.
-/

namespace CleanSlate.Kernel.Linux

open Lib Function Slots LinuxFdTable Descriptors Multiset

variable {out : LinuxFdTable × Descriptors} {table : LinuxFdTable}
  {readFd writeFd : Fin linuxFdTableCapacity}

/-! ## Tables -/

namespace LinuxFdTable

def entryRefs : Option FdEntry → Multiset OpenDescriptionId
  | none => 0
  | some entry => {entry.openId}

/-- What the entries of a table refer to. -/
def refs (table : LinuxFdTable) : Multiset OpenDescriptionId := ∑ fd, entryRefs (table fd)

variable {ds ds' : Descriptors} {rest : Multiset OpenDescriptionId}
  {index : Fin linuxFdTableCapacity} {entry : FdEntry}

theorem refs_empty : empty.refs = 0 := Finset.sum_const_zero

theorem refs_update (table : LinuxFdTable) (index : Fin linuxFdTableCapacity)
    (value : Option FdEntry) :
    refs (update table index value) + entryRefs (table index) = table.refs + entryRefs value :=
  sum_update (Finset.mem_univ index) entryRefs table value

theorem refs_clear (h : table index = some entry) :
    table.refs = entry.openId ::ₘ (table.clear index).refs := by
  have hup := refs_update table index none
  rw [h] at hup
  rw [← singleton_add, add_comm]
  exact (hup.trans (add_zero _)).symm

theorem refs_set (h : table index = none) (entry : FdEntry) :
    refs (update table index (some entry)) = entry.openId ::ₘ table.refs := by
  have hup := refs_update table index (some entry)
  rw [h] at hup
  rw [← singleton_add, add_comm]
  exact (add_zero _).symm.trans hup

theorem mem_refs (h : table index = some entry) : entry.openId ∈ table.refs := by
  rw [refs_clear h]
  exact mem_cons_self _ _

theorem mem_refs_of_get {fd : Nat} (h : table.get fd = some entry) : entry.openId ∈ table.refs := by
  obtain ⟨index, -, hen⟩ := Option.bind_eq_some_iff.1 h
  exact mem_refs hen

/-- What an operation on a table leaves: the pool holds the references of the new table, and the
pipes have kept their contents. -/
def Serves (ds : Descriptors) (rest : Multiset OpenDescriptionId)
    (out : LinuxFdTable × Descriptors) : Prop :=
  out.2.Holds (out.1.refs + rest) ∧ ds.pipes.Keeps out.2.pipes

theorem Serves.trans (hkp : ds.pipes.Keeps ds'.pipes) (h : Serves ds' rest out) :
    Serves ds rest out :=
  ⟨h.1, hkp.trans h.2⟩

theorem closeFdEntry_serves (h : ds.Holds (table.refs + rest)) (fd : Nat) :
    Serves ds rest (table.closeFdEntry ds fd).2 := by
  unfold closeFdEntry
  split
  · exact ⟨h, .refl _⟩
  next index _ =>
  split
  · exact ⟨h, .refl _⟩
  next entry hen =>
  rw [refs_clear hen, cons_add] at h
  obtain ⟨ds', hrl, hhl, hkp⟩ := releaseRef_holds h
  rw [hrl]
  exact ⟨hhl, hkp⟩

theorem closeEntries_serves (closes : FdEntry → Bool) (indices : List (Fin linuxFdTableCapacity))
    (h : ds.Holds (table.refs + rest)) :
    Serves ds rest (closeEntries closes indices table ds).2 := by
  induction indices generalizing table ds with
  | nil => exact ⟨h, .refl _⟩
  | cons index indices ih =>
    unfold closeEntries
    split
    · have hcl := closeFdEntry_serves h index
      split
      · next heq =>
        rw [heq] at hcl
        exact hcl
      · next heq =>
        rw [heq] at hcl
        exact (ih hcl.1).trans hcl.2
    · exact ih h

theorem releaseTable_serves (h : ds.Holds (table.refs + rest)) :
    Serves ds rest (table.releaseTable ds).2 :=
  closeEntries_serves _ _ h

/-- An entry is put in the place of another, whose reference is left over. -/
theorem holds_replace (index : Fin linuxFdTableCapacity) (entry : FdEntry)
    {replaced : Option FdEntry} (hen : table index = replaced)
    (h : ds.Holds (entry.openId ::ₘ (table.refs + rest))) :
    ds.Holds (entryRefs replaced + (refs (update table index (some entry)) + rest)) := by
  have hup := refs_update table index (some entry)
  rw [hen] at hup
  have heq : entryRefs replaced + (refs (update table index (some entry)) + rest) =
      entry.openId ::ₘ (table.refs + rest) := by
    rw [← add_assoc, add_comm (entryRefs replaced), hup, add_comm table.refs, add_assoc]
    rfl
  rwa [heq]

theorem dup2Fd_serves {oldFd newFd : Nat}
    (h : ds.Holds (table.refs + rest)) (hdup : table.dup2Fd ds oldFd newFd = .ok out) :
    Serves ds rest out := by
  unfold dup2Fd at hdup
  split at hdup
  · cases hdup
  next old hold =>
  split at hdup
  · cases hdup
    exact ⟨h, .refl _⟩
  split at hdup
  · cases hdup
  next index _ =>
  obtain ⟨ds', hadd, hdup⟩ := bind_eq_ok.1 hdup
  have hmem : old.openId ∈ table.refs + rest := mem_add.2 (.inl (mem_refs_of_get hold))
  obtain ⟨hhl, hpp⟩ := addRef_holds h (h.refcount_pos hmem) hadd
  dsimp only at hdup
  split at hdup
  · next hnn =>
    cases hdup
    have hrp := holds_replace _ ⟨old.openId, false⟩ hnn hhl
    rw [entryRefs, zero_add] at hrp
    exact ⟨hrp, by rw [hpp]; exact .refl _⟩
  · next replaced hsm =>
    cases hdup
    have hrp := holds_replace _ ⟨old.openId, false⟩ hsm hhl
    obtain ⟨ds'', hrl, hhl', hkp⟩ := releaseRef_holds hrp
    rw [hrl]
    exact ⟨hhl', by rw [← hpp]; exact hkp⟩

theorem inheritEntries_serves {parent child : LinuxFdTable}
    (indices : List (Fin linuxFdTableCapacity)) (hpr : parent.refs ≤ rest)
    (h : ds.Holds (child.refs + rest)) :
    Serves ds rest (inheritEntries parent indices child ds).2 := by
  induction indices generalizing child ds with
  | nil => exact ⟨h, .refl _⟩
  | cons index indices ih =>
    unfold inheritEntries
    split
    · exact ih h
    next entry hen =>
    split
    · exact releaseTable_serves h
    next ds' hadd =>
    have hmem : entry.openId ∈ child.refs + rest := mem_add.2 (.inr (mem_of_le hpr (mem_refs hen)))
    obtain ⟨hhl, hpp⟩ := addRef_holds h (h.refcount_pos hmem) hadd
    have hset := (holds_replace index entry rfl hhl).mono (le_add_left _ _)
    exact (ih hset).trans (by rw [hpp]; exact .refl _)

theorem attach_serves {kind : DescriptorKind} (index : Fin linuxFdTableCapacity)
    (id : OpenDescriptionId) (cloexec : Bool)
    (h : ds.Holds (table.refs + rest)) (hfr : table index = none)
    (hsl : ds.slots id.index = ⟨true, id.generation, ⟨kind, 0, id.generation⟩⟩)
    (hpp : ∀ pipe, kind.pipe = some pipe → kind = pipe.kind ∧ (ds.pipes.slot pipe.pipe).isSome) :
    ∃ ds', ds.attachFirstRef id = .ok ds' ∧
      Serves ds rest (update table index (some ⟨id, cloexec⟩), ds') ∧
      (∀ handle, (ds'.pipes.slot handle).isSome = (ds.pipes.slot handle).isSome) ∧
      ∀ d, d ≠ id.index → ds'.slots d = ds.slots d := by
  obtain ⟨ds', hat, hhl, hkp, hsm, hot⟩ := attachFirstRef_holds h hsl hpp
  refine ⟨ds', hat, ⟨?_, hkp⟩, hsm, hot⟩
  rw [refs_set hfr, cons_add]
  exact hhl

end LinuxFdTable

/-! ## The registry -/

namespace LinuxFdRegistry

open LinuxFdTable (Serves)

variable {P : Nat} {r r' : LinuxFdRegistry P}

def slotRefs : Option LinuxFdRegistrySlot → Multiset OpenDescriptionId
  | none => 0
  | some slot => slot.table.refs

/-- What the tables of all processes refer to. -/
def refs (r : LinuxFdRegistry P) : Multiset OpenDescriptionId := ∑ p, slotRefs (r.slots p)

/-- Every reference of a table is valid and counted. -/
def Sound (r : LinuxFdRegistry P) : Prop := r.descriptors.Holds r.refs

theorem new_sound : (new : LinuxFdRegistry P).Sound := by
  have hrf : (new : LinuxFdRegistry P).refs = 0 := Finset.sum_const_zero
  unfold Sound
  rw [hrf]
  exact new_holds

/-- The references of one process apart from those of the others. -/
theorem refs_at (r : LinuxFdRegistry P) (index : Fin P) :
    ∃ rest, r.refs = (r.table index).refs + rest ∧ ∀ value ds,
      refs ⟨update r.slots index value, ds⟩ = slotRefs value + rest := by
  have hsum : ∀ value ds, refs ⟨update r.slots index value, ds⟩ + slotRefs (r.slots index) =
      r.refs + slotRefs value :=
    fun value _ => sum_update (Finset.mem_univ index) slotRefs r.slots value
  have htb : slotRefs (r.slots index) = (r.table index).refs := by
    unfold table
    split
    · next hsl => rw [hsl]; rfl
    · next hsl => rw [hsl]; exact refs_empty.symm
  refine ⟨refs ⟨update r.slots index none, r.descriptors⟩, ?_, fun value ds => ?_⟩
  · rw [← htb, add_comm]
    exact ((hsum none r.descriptors).trans (add_zero _)).symm
  · have hnn := (hsum none r.descriptors).trans (add_zero _)
    have hvl := hsum value ds
    rw [← hnn, add_right_comm] at hvl
    exact (add_right_cancel hvl).trans (add_comm _ _)

/-- The tables are sound after an operation, and the pipes have kept their contents. -/
def Kept (r r' : LinuxFdRegistry P) : Prop :=
  r'.Sound ∧ r.descriptors.pipes.Keeps r'.descriptors.pipes

theorem Sound.kept (h : r.Sound) : r.Kept r := ⟨h, .refl _⟩

/-- An operation on the table of one process. -/
theorem kept_put {index : Fin P} (id : ProcId) (out : LinuxFdTable × Descriptors) (h : r.Sound)
    (hsr : ∀ rest, r.descriptors.Holds ((r.table index).refs + rest) →
      Serves r.descriptors rest out) : r.Kept (r.put index id out.1 out.2) := by
  obtain ⟨rest, hrf, hput⟩ := r.refs_at index
  have hhl : r.descriptors.Holds ((r.table index).refs + rest) := hrf ▸ h
  obtain ⟨hout, hkp⟩ := hsr rest hhl
  refine ⟨?_, hkp⟩
  unfold Sound put
  rw [hput]
  exact hout

theorem ensureSlotIndex_kept {id : ProcId} {index : Fin P} (h : r.Sound)
    (hen : r.ensureSlotIndex id = some (index, r')) :
    r'.Sound ∧ r'.descriptors = r.descriptors ∧ r.refs ≤ r'.refs := by
  unfold ensureSlotIndex at hen
  split at hen
  · cases hen
  split at hen
  · cases hen
    exact ⟨h, rfl, le_rfl⟩
  obtain ⟨free, hfr, hput⟩ := Option.map_eq_some_iff.1 hen
  cases hput
  have hnn : r.slots index = none := by simpa using position_some hfr
  have hrf : (r.put index id .empty r.descriptors).refs = r.refs := by
    have hsum : (r.put index id .empty r.descriptors).refs + slotRefs (r.slots index) =
        r.refs + slotRefs (some ⟨id, .empty⟩) :=
      sum_update (Finset.mem_univ index) slotRefs r.slots _
    rw [hnn] at hsum
    refine (add_zero _).symm.trans (hsum.trans ?_)
    change r.refs + empty.refs = r.refs
    rw [refs_empty, add_zero]
  refine ⟨?_, rfl, hrf.ge⟩
  unfold Sound
  rw [hrf]
  exact h

theorem installPipeEnds_serves {ds : Descriptors}
    {rest : Multiset OpenDescriptionId} {pipe : PipeId}
    (h : ds.Holds (table.refs + rest)) (hrd : table readFd = none) (hwr : table writeFd = none)
    (hne : readFd ≠ writeFd) (hpp : (ds.pipes.slot pipe).isSome) :
    Serves ds rest (installPipeEnds table ds readFd writeFd ⟨pipe, .read⟩ ⟨pipe, .write⟩).2 := by
  unfold installPipeEnds
  split
  · exact ⟨h, .refl _⟩
  next readOpen ds₁ halloc₁ =>
  obtain ⟨h₁, hpipes₁, -, hslot₁, -⟩ := alloc_holds h halloc₁
  split
  · refine ⟨freeUnattached_holds h₁ _, ?_⟩
    rw [freeUnattached_pipes, hpipes₁]
    exact .refl _
  · next writeOpen ds₂ halloc₂ =>
    obtain ⟨h₂, hpipes₂, hdead₂, hslot₂, hother₂⟩ := alloc_holds h₁ halloc₂
    have hin : readOpen.index ≠ writeOpen.index := by
      intro heq
      rw [← heq, hslot₁] at hdead₂
      exact Bool.noConfusion hdead₂
    have hkn : ∀ e (ds : Descriptors), (ds.pipes.slot pipe).isSome →
        ∀ pipe', (PipeRef.kind ⟨pipe, e⟩).pipe = some pipe' →
          PipeRef.kind ⟨pipe, e⟩ = pipe'.kind ∧ (ds.pipes.slot pipe'.pipe).isSome := by
      intro e ds hsm pipe' hpp'
      cases e <;> cases hpp' <;> exact ⟨rfl, hsm⟩
    have hsome₂ : (ds₂.pipes.slot pipe).isSome := by rw [hpipes₂, hpipes₁]; exact hpp
    rw [← hother₂ _ hin] at hslot₁
    obtain ⟨ds₃, hattach₃, hserves₃, hsame₃, hother₃⟩ :=
      attach_serves readFd readOpen false h₂ hrd hslot₁ (hkn .read ds₂ hsome₂)
    have hset₃ : table.setAt ds₂ readFd readOpen false =
        .ok (update table readFd (some ⟨readOpen, false⟩), ds₃) := by
      unfold setAt
      rw [hrd, hattach₃]
      rfl
    rw [hset₃]
    dsimp only
    have hwrite₃ : update table readFd (some ⟨readOpen, false⟩) writeFd = none := by
      rw [update_of_ne hne.symm]
      exact hwr
    rw [← hother₃ _ hin.symm] at hslot₂
    obtain ⟨ds₄, hattach₄, hserves₄, -, -⟩ :=
      attach_serves writeFd writeOpen false hserves₃.1 hwrite₃ hslot₂
        (hkn .write ds₃ ((hsame₃ pipe).trans hsome₂))
    have hset₄ : setAt (update table readFd (some ⟨readOpen, false⟩)) ds₃
        writeFd writeOpen false = .ok (update (update table readFd
          (some ⟨readOpen, false⟩)) writeFd (some ⟨writeOpen, false⟩), ds₄) := by
      unfold setAt
      rw [hwrite₃, hattach₄]
      rfl
    rw [hset₄]
    refine ⟨hserves₄.1, ?_⟩
    have hkp := hserves₃.2.trans hserves₄.2
    rw [hpipes₂, hpipes₁] at hkp
    exact hkp

theorem free_pair {more : List (Fin linuxFdTableCapacity)}
    (h : (List.finRange _).filter (fun fd => (table fd).isNone) = readFd :: writeFd :: more) :
    table readFd = none ∧ table writeFd = none ∧ readFd ≠ writeFd := by
  have hmem : ∀ fd ∈ readFd :: writeFd :: more, table fd = none := by
    intro fd hfd
    rw [← h, List.mem_filter] at hfd
    simpa using hfd.2
  have hnd : (readFd :: writeFd :: more).Nodup := h ▸ (List.nodup_finRange _).filter _
  refine ⟨hmem _ (by simp), hmem _ (by simp), ?_⟩
  rintro rfl
  simp at hnd

section

variable (h : r.Sound)
include h

theorem openPipe_opens (id : ProcId) :
    (r.openPipe id).2.Sound ∧ r.descriptors.pipes.Opens (r.openPipe id).2.descriptors.pipes := by
  unfold openPipe
  split
  · exact ⟨h, (PipePool.Keeps.refl _).opens⟩
  next index r₁ hen =>
  obtain ⟨h₁, hsm, -⟩ := ensureSlotIndex_kept h hen
  rw [← hsm]
  split
  · next readFd writeFd more hfr =>
    obtain ⟨hrd, hwr, hne⟩ := free_pair hfr
    split
    · exact ⟨h₁, (PipePool.Keeps.refl _).opens⟩
    next pipe pipes hal =>
    obtain ⟨rest, hrf, hput⟩ := r₁.refs_at index
    have hhl : r₁.descriptors.Holds ((r₁.table index).refs + rest) := hrf ▸ h₁
    obtain ⟨hhl, hso, hdd, hem, hot⟩ := allocPipe_holds hhl hal
    have hsr := installPipeEnds_serves hhl hrd hwr hne hso
    -- whatever keeps the pipes from here on has opened one
    have hop : ∀ pool, pipes.Keeps pool → r₁.descriptors.pipes.Opens pool := by
      intro pool hkp i
      by_cases hi : i = pipe.index
      · rw [hi]
        refine ⟨fun hlv => Bool.noConfusion (hdd.symm.trans hlv), fun _ _ => ?_⟩
        exact (hkp _).1.trans hem
      · rw [← hot i hi]
        exact hkp.opens i
    split
    · next heq =>
      rw [heq] at hsr
      refine ⟨?_, hop _ (hsr.2.trans (PipePool.discardUnattached_keeps _ _))⟩
      unfold Sound put
      rw [hput]
      exact discardUnattached_holds hsr.1 _
    · next heq =>
      rw [heq] at hsr
      refine ⟨?_, hop _ hsr.2⟩
      unfold Sound put
      rw [hput]
      exact hsr.1
  · exact ⟨h₁, (PipePool.Keeps.refl _).opens⟩

theorem allocDescriptionAndFd_kept {kind : DescriptorKind} (hkn : kind.pipe = none)
    (id : ProcId) (cloexec : Bool) : r.Kept (r.allocDescriptionAndFd id kind cloexec).2 := by
  unfold allocDescriptionAndFd
  split
  · exact h.kept
  next index _ =>
  split
  · exact h.kept
  next openId ds hal =>
  obtain ⟨-, hpp, -, hsl, -⟩ := alloc_holds h hal
  split
  · refine ⟨freeUnattached_holds (alloc_holds h hal).1 _, ?_⟩
    rw [freeUnattached_pipes, hpp]
    exact .refl _
  · next fd table ds' hlw =>
    refine kept_put id (table, ds') h fun rest hhl => ?_
    obtain ⟨hhl, -⟩ := alloc_holds hhl hal
    unfold allocLowest at hlw
    split at hlw
    · cases hlw
    next free hfr =>
    obtain ⟨ds'', hat, hsr, -⟩ := attach_serves free openId cloexec
      hhl (by simpa using position_some hfr) hsl
      fun pipe hpi => by rw [hkn] at hpi; cases hpi
    rw [hat] at hlw
    cases hlw
    exact hsr.trans (by rw [hpp]; exact .refl _)

theorem closeFd_kept (id : ProcId) (fd : Nat) : r.Kept (r.closeFd id fd).2 := by
  unfold closeFd
  split
  · exact h.kept
  · exact kept_put id _ h fun _ hhl => closeFdEntry_serves hhl fd

theorem dup2_kept (id : ProcId) (oldFd newFd : Nat) : r.Kept (r.dup2 id oldFd newFd).2 := by
  unfold dup2
  split
  · exact h.kept
  · split
    · exact h.kept
    · next hdup =>
      exact kept_put id (_, _) h fun _ hhl => dup2Fd_serves hhl hdup

theorem dupToLowestAtOrAbove_kept (id : ProcId) (oldFd minFd : Nat) :
    r.Kept (r.dupToLowestAtOrAbove id oldFd minFd).2 := by
  unfold dupToLowestAtOrAbove
  split
  · exact h.kept
  next index _ =>
  split
  · exact h.kept
  next old hold =>
  split
  · exact h.kept
  split
  · exact h.kept
  next fd hfn =>
  split
  · exact h.kept
  next ds hadd =>
  refine kept_put id (update (r.table index) fd (some ⟨old.openId, true⟩), ds) h fun rest hhl => ?_
  have hfr : r.table index fd = none := by
    have hfd := List.find?_some hfn
    rw [Bool.and_eq_true] at hfd
    simpa using hfd.2
  have hmem : old.openId ∈ (r.table index).refs + rest := mem_add.2 (.inl (mem_refs_of_get hold))
  obtain ⟨had, hpp⟩ := addRef_holds hhl (hhl.refcount_pos hmem) hadd
  refine ⟨?_, by rw [hpp]; exact .refl _⟩
  rw [refs_set hfr, cons_add]
  exact had

theorem setFdCloexec_kept (id : ProcId) (fd : Nat) (cloexec : Bool) :
    r.Kept (r.setFdCloexec id fd cloexec).2 := by
  unfold setFdCloexec
  split
  · next index fd _ _ =>
    split
    · exact h.kept
    next entry hen =>
    refine kept_put id (update (r.table index) fd (some { entry with cloexec }), r.descriptors) h
      fun rest hhl => ⟨?_, .refl _⟩
    have hup := refs_update (r.table index) fd (some { entry with cloexec })
    rw [hen] at hup
    rw [add_right_cancel hup]
    exact hhl
  · exact h.kept

theorem closeOnExec_kept (id : ProcId) : r.Kept (r.closeOnExec id).2 := by
  unfold closeOnExec
  split
  · exact h.kept
  · exact kept_put id _ h fun _ hhl => LinuxFdTable.closeEntries_serves _ _ hhl

end

theorem table_refs_le (r : LinuxFdRegistry P) (index : Fin P) : (r.table index).refs ≤ r.refs := by
  obtain ⟨rest, hrf, -⟩ := r.refs_at index
  rw [hrf]
  exact le_add_right _ _

theorem inheritForChild_kept (h : r.Sound) (parent child : ProcId) :
    r.Kept (r.inheritForChild parent child).2 := by
  unfold inheritForChild
  split
  · exact h.kept
  next parentIndex _ =>
  split
  · exact h.kept
  next childIndex r₁ hen =>
  obtain ⟨h₁, hsm, hle⟩ := ensureSlotIndex_kept h hen
  -- the references of the parent are among those held throughout, the child's own are dropped
  have hem : r₁.descriptors.Holds (empty.refs + r₁.refs) := by
    rw [refs_empty, zero_add]
    exact h₁
  have hsr := inheritEntries_serves (List.finRange _) ((r.table_refs_le parentIndex).trans hle) hem
  obtain ⟨rest, hrf, hput⟩ := r₁.refs_at childIndex
  refine ⟨?_, ?_⟩
  · unfold Sound put
    rw [hput]
    refine hsr.1.mono (add_le_add_right ?_ _)
    rw [hrf]
    exact le_add_left _ _
  · rw [← hsm]
    exact hsr.2

theorem releaseAt_kept (h : r.Sound) (index : Fin P) : r.Kept (r.releaseAt index) := by
  obtain ⟨rest, hrf, hput⟩ := r.refs_at index
  have hhl : r.descriptors.Holds ((r.table index).refs + rest) := hrf ▸ h
  obtain ⟨hsr, hkp⟩ := releaseTable_serves hhl
  refine ⟨?_, hkp⟩
  unfold Sound releaseAt
  rw [hput]
  exact hsr.mono (add_le_add_left (zero_le _) _)

theorem releaseByPid_kept (h : r.Sound) (pid : UInt64) : r.Kept (r.releaseByPid pid) := by
  suffices hfl : ∀ (indices : List (Fin P)) (r : LinuxFdRegistry P), r.Sound → r.Kept
      (indices.foldl (fun r index =>
        if (r.slots index).any fun entry => entry.id.pid = pid then r.releaseAt index else r) r) from
    hfl _ r h
  intro indices
  induction indices with
  | nil => exact fun r h => h.kept
  | cons index indices ih =>
    intro r h
    rw [List.foldl_cons]
    split
    · have hrl := releaseAt_kept h index
      obtain ⟨hsn, hkp⟩ := ih _ hrl.1
      exact ⟨hsn, hrl.2.trans hkp⟩
    · exact ih r h

theorem releaseForProcess_kept (h : r.Sound) (id : ProcId) : r.Kept (r.releaseForProcess id) := by
  unfold releaseForProcess release
  generalize (r.slotIndex id).or _ = found
  cases found with
  | none => exact releaseByPid_kept h _
  | some index => exact releaseAt_kept h index

end LinuxFdRegistry

end CleanSlate.Kernel.Linux
