import CleanSlate.Capability.Verify.Delegation
import CleanSlate.Kernel.Inherit

/-!
# The invariant of the kernel's capability table

`fork` copies capabilities without asking for `DELEGATE`, so the kernel's table does not keep the
attenuation of the delegation policy. It keeps the weaker shape that subtree revocation needs:
live records have live parents of the same lineage, and depths are bounded.
-/

namespace CleanSlate.Kernel

open Capability Lib
open CapabilityTable

variable {N : Nat} {holder : HolderId} {provenance : Provenance} {cursor : Nat} {i : Fin N}

/-- A record of bounded depth that, while live, holds rights valid for its class. -/
structure Sound (record : CapabilityRecord) : Prop where
  depth : record.provenance.depth ≤ maxDelegationDepth
  rights : record.state = .live → validateRights record.resource.class record.rights = .ok ()

theorem sound_law : SlotLaw Sound where
  retire h := ⟨h.depth, fun hl => by cases hl⟩
  revoke h := ⟨h.depth, fun hl => by cases hl⟩
  release r := by
    refine ⟨by rw [release_depth]; exact Nat.zero_le _, fun hl => ?_⟩
    unfold CapabilityRecord.release at hl
    split at hl <;> cases hl
  depth h := h.depth

/-- The invariant of the kernel's table. -/
abbrev KernelTable (table : CapabilityTable N) : Prop := Lawful Lineage Sound table

variable {table table' : CapabilityTable N} {handle : CapabilityHandle}
  {installed : List CapabilityHandle}

theorem KernelTable.wellRooted (h : KernelTable table) : WellRooted table :=
  Lawful.wellRooted (fun he => he) sound_law h

theorem kernelTable_new : KernelTable (CapabilityTable.new : CapabilityTable N) :=
  ⟨fun _ hi => (by cases hi), fun _ => ⟨Nat.zero_le _, fun hl => by cases hl⟩⟩

/-! ## Rolling back -/

/-- Rolling back a failed inheritance revokes the records its handles name. -/
theorem rollbackForkInherited_revokes (table : CapabilityTable N) (han : List CapabilityHandle) :
    table.Revokes (rollbackForkInherited table han)
      fun i => ∃ handle ∈ han, table.Names handle i := by
  unfold rollbackForkInherited
  induction han generalizing table with
  | nil => exact ⟨fun i hi => by simp at hi, fun _ _ => rfl⟩
  | cons handle han ih =>
    have hfr := revoke_revokes table handle
    have hnm : ∀ h i, (table.revoke handle).2.Names h i ↔ table.Names h i := by
      intro h i
      unfold Names
      rw [(hfr.frame i).1]
    have hrs := ih (table.revoke handle).2
    simp only [hnm] at hrs
    have htr := hfr.trans hrs
    simpa only [List.foldl_cons, List.mem_cons, exists_eq_or_imp] using htr

theorem KernelTable.revokes (h : KernelTable table) {S : Fin N → Prop}
    (hr : table.Revokes table' S) (hlf : ∀ i j, table.Live i → table.ParentOf j i → S j → S i) :
    KernelTable table' :=
  Lawful.revokes sound_law h hr hlf

theorem KernelTable.rollbackInstalled (h : KernelTable table)
    (hlf : ∀ i j, table.Live i → table.ParentOf j i → ¬table.Names handle j) :
    KernelTable (rollbackInstalled table handle) := by
  have hrev := h.revokes (revoke_revokes table handle) fun i j hi hp hj => absurd hj (hlf i j hi hp)
  unfold Kernel.rollbackInstalled
  rcases hr : table.revoke handle with ⟨res, t⟩
  rw [hr] at hrev
  cases res with
  | error e => exact hrev
  | ok b => exact Lawful.releases sound_law hrev (releaseSlot_releases t _)

/-! ## Filling a slot -/

theorem grant_issued {resource : ResourceRef} {rights : Rights}
    (hi : (TableResult.handle (table.grant holder resource rights provenance).1).issued =
      some handle) :
    ∃ i r, table.Fills (table.grant holder resource rights provenance).2 i r ∧
      (table.grant holder resource rights provenance).2.Names handle i ∧
      r.provenance = provenance := by
  rcases hg : table.grant holder resource rights provenance with ⟨res, t⟩
  rw [hg] at hi
  cases res with
  | error e => cases hi
  | ok h =>
    cases hi
    obtain ⟨-, i, hf, hn⟩ := grant_ok hg
    exact ⟨i, _, hf, hn, rfl⟩

/-- A forest operation that returns a handle filled the slot the handle names, with a root or with
a child of a live record. -/
theorem forestStep_issued {op : ForestOp} (hi : (forestStep table op).1.issued = some handle) :
    ∃ i r, table.Fills (forestStep table op).2 i r ∧ (forestStep table op).2.Names handle i ∧
      ∀ p, r.provenance.parent = some p → ∃ j, table.Resolves p j ∧ table.Live j := by
  cases op with
  | grantRoot holder resource rights =>
    obtain ⟨i, r, hf, hn, hp⟩ := grant_issued hi
    refine ⟨i, r, hf, hn, fun p hp' => ?_⟩
    rw [hp] at hp'
    cases hp'
  | delegate source parent target rights =>
    change (TableResult.handle (delegate table source parent target rights).1).issued =
      some handle at hi
    change ∃ i r, table.Fills (delegate table source parent target rights).2 i r ∧
      (delegate table source parent target rights).2.Names handle i ∧ _
    rcases delegate_cases table source parent target rights with
      ⟨e, he⟩ | ⟨j, hj, hl, -, -, -, -, he⟩
    · rw [he] at hi
      cases hi
    rw [he] at hi ⊢
    obtain ⟨i, r, hf, hn, hp⟩ := grant_issued hi
    refine ⟨i, r, hf, hn, fun p hp' => ?_⟩
    rw [hp] at hp'
    cases hp'
    exact ⟨j, hj, hl⟩
  | _ => cases hi

theorem forestStep_kernelTable (h : KernelTable table) (op : ForestOp) :
    KernelTable (forestStep table op).2 :=
  Lawful.forestStep (fun he => he) sound_law h op
    (fun _ _ _ _ hv => ⟨Nat.zero_le _, fun _ => hv⟩) fun _ _ _ _ _ _ _ _ hd =>
      ⟨fun hv => ⟨hd, fun _ => hv⟩, ⟨rfl, rfl, rfl⟩⟩

/-! ## Inheritance -/

/-- Slot `i` holds a live capability of `holder`. -/
def Held (table : CapabilityTable N) (holder : HolderId) (i : Fin N) : Prop :=
  table.Live i ∧ (table.slots i).holder = holder

instance (table : CapabilityTable N) (holder : HolderId) (i : Fin N) :
    Decidable (Held table holder i) :=
  inferInstanceAs (Decidable (_ ∧ _))

/-- `list_holder` finds the first live capability of the holder at or after the cursor. -/
theorem listHolder_some {next : Nat} {record : CapabilityRecord}
    (h : listHolder table holder cursor = some (next, handle, record)) :
    ∃ i, Held table holder i ∧ cursor ≤ i.val ∧ next = i + 1 ∧
      record = table.slots i ∧ (N ≤ 65536 → table.Resolves handle i) ∧
      ∀ j, cursor ≤ j.val → j < i → ¬Held table holder j := by
  unfold listHolder at h
  split at h
  · cases h
  next i hfn =>
  have hi := Slots.position_some hfn
  simp only [id, decide_eq_true_eq] at hi
  obtain ⟨hc, hl, hh⟩ := hi
  obtain ⟨p, hp, hres⟩ := handleAt_of_live (show table.Live i from hl)
  rw [hp] at h
  cases h
  refine ⟨i, ⟨hl, hh⟩, hc, rfl, rfl, hres, ?_⟩
  intro j hj hlt hhl
  have hfr := Slots.position_first hfn hlt
  simp only [id, decide_eq_false_iff_not] at hfr
  exact hfr ⟨hj, hhl.1, hhl.2⟩

theorem listHolder_none (h : listHolder table holder cursor = none) (hi : cursor ≤ i.val) :
    ¬Held table holder i := by
  unfold listHolder at h
  split at h
  · next hfn =>
    have hnn := Slots.position_none.1 hfn i
    simp only [id, decide_eq_false_iff_not] at hnn
    exact fun hhl => hnn ⟨hi, hhl.1, hhl.2⟩
  · next i hfn =>
    have hl := Slots.position_some hfn
    simp only [id, decide_eq_true_eq] at hl
    obtain ⟨p, hp, -⟩ := handleAt_of_live (show table.Live i from hl.2.1)
    rw [hp] at h
    cases h

/-- The state of the inheritance loop: every live child of an installed record is installed too,
so that rolling the installed records back leaves no orphan. -/
structure Installing (table : CapabilityTable N) (installed : List CapabilityHandle) : Prop where
  kernel : KernelTable table
  closed : ∀ i j, table.Live i → table.ParentOf j i → (∃ h ∈ installed, table.Names h j) →
    ∃ h ∈ installed, table.Names h i

section

variable (h : Installing table installed)
include h

theorem Installing.rollback : KernelTable (rollbackForkInherited table installed) :=
  h.kernel.revokes (rollbackForkInherited_revokes table installed) h.closed

theorem Installing.retires (hr : table.Retires table') : Installing table' installed := by
  refine ⟨Lawful.retires sound_law h.kernel hr, ?_⟩
  rintro i j hi hp ⟨p, hpm, hpn⟩
  have hi := (hr.live_iff i).1 hi
  obtain ⟨q, hqm, hqn⟩ := h.closed i j hi (hr.parentOf hi hp) ⟨p, hpm, (hr.names_iff p j).1 hpn⟩
  exact ⟨q, hqm, (hr.names_iff q i).2 hqn⟩

theorem Installing.fills {k : Fin N} {r : CapabilityRecord}
    (hf : table.Fills table' k r) (hk : table'.Names handle k) (hs : Sound r)
    (hr : ∀ p, r.provenance.parent = some p →
      ∃ j, table.Resolves p j ∧ table.Live j ∧ Lineage (table.slots j) r) :
    Installing table' (installed ++ [handle]) := by
  refine ⟨Lawful.fills sound_law h.kernel hf hs hr, ?_⟩
  intro i j hi hp hj
  rcases (hf.live_iff i).1 hi with rfl | hli
  · exact ⟨handle, by simp, hk⟩
  -- the record in `i` is an old one, so its parent is old and live as well
  have hjk : j ≠ k := by
    rintro rfl
    refine hf.not_parentOf h.kernel.rooted (fun p hp => ?_) hi hp
    obtain ⟨j, hj, hl, -⟩ := hr p hp
    exact ⟨j, hj, hl⟩
  obtain ⟨p, hpp, hres⟩ := hp
  have hsi := (hf.slot_of_live hli).2
  rw [hsi] at hpp
  obtain ⟨m, hm, hlm, -⟩ := h.kernel.rooted i hli p hpp
  obtain rfl : m = j := hm.1.unique hres.1
  have hsm := (hf.slot_of_live hlm).2
  obtain ⟨q, hqm, hqn⟩ := hj
  have hq : q ∈ installed := by
    rcases List.mem_append.1 hqm with hq | hq
    · exact hq
    · obtain rfl : q = handle := by simpa using hq
      exact absurd (hqn.unique hk) hjk
  obtain ⟨q', hq', hn'⟩ := h.closed i m hli ⟨p, hpp, hm⟩ ⟨q, hq, hqn.1, by rw [← hsm]; exact hqn.2⟩
  exact ⟨q', List.mem_append_left _ hq', hn'.1, by rw [hsi]; exact hn'.2⟩

end

theorem inheritFrom_kernelTable (hN : N ≤ 65536) (parent child : HolderId)
    (table : CapabilityTable N) (cursor : Nat) (installed : List CapabilityHandle)
    (h : Installing table installed) :
    KernelTable (inheritFrom parent child table cursor installed).2 := by
  fun_induction inheritFrom parent child table cursor installed with
  | case1 | case2 => exact h.kernel
  | case3 table cursor installed next handle record hls provenance hc hfl => exact h.rollback
  | case4 table cursor installed next handle record hls provenance hc hfl childHandle table'
      hg ih =>
    obtain ⟨i, hhl, -, -, rfl, hres, -⟩ := listHolder_some hls
    have hres := hres hN
    obtain ⟨hv, k, hf, hn⟩ := grant_ok hg
    obtain ⟨hd, rfl⟩ := Provenance.childOf_ok hc
    refine ih (h.fills hf hn ⟨hd, fun _ => hv⟩ fun p hp => ?_)
    cases hp
    exact ⟨i, hres, hhl.1, rfl, rfl, rfl⟩
  | case5 table cursor installed next handle record hls provenance hc hfl e table' hg =>
    rcases grant_cases table child record.resource record.rights provenance with
      ⟨e', -, he⟩ | ⟨-, -, t, ht, he⟩ | ⟨-, i, g, t, -, he⟩
    · cases hg.symm.trans he
      exact h.rollback
    · cases hg.symm.trans he
      exact (h.retires ht).rollback
    · rw [if_pos (Nat.lt_of_lt_of_le i.isLt hN)] at he
      cases hg.symm.trans he

/-- Every call the kernel makes keeps the invariant of its table. -/
theorem kernelStep_kernelTable (hN : N ≤ 65536) (h : KernelTable table) (op : KernelOp) :
    KernelTable (kernelStep table op).2 := by
  cases op with
  | forest op => exact forestStep_kernelTable h op
  | rolledBack op =>
    have hst := forestStep_kernelTable h op
    unfold kernelStep
    simp only
    split
    · next handle hi =>
      obtain ⟨i, r, hf, hn, hr⟩ := forestStep_issued hi
      refine hst.rollbackInstalled fun k j hk hp hj => ?_
      obtain rfl := hj.unique hn
      exact hf.not_parentOf h.rooted hr hk hp
    · exact hst
  | inherit parent child =>
    exact inheritFrom_kernelTable hN parent child table 0 [] ⟨h, fun _ _ _ _ hj => by simp at hj⟩

/-- Every table the kernel reaches is well rooted. -/
theorem run_kernelTable (hN : N ≤ 65536) (ops : List KernelOp) :
    KernelTable (run kernelStep (CapabilityTable.new : CapabilityTable N) ops) :=
  run_invariant kernelStep kernelTable_new (fun _ op h => kernelStep_kernelTable hN h op) ops

end CleanSlate.Kernel
