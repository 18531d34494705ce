import CleanSlate.Kernel.Verify.Table

/-!
# Revocation on the kernel's tables

What `revoke_subtree` and `revoke_holder_tree` leave of a table the kernel reached by any history
of grants, delegations, rollbacks, forks, revocations and releases.
-/

namespace CleanSlate.Kernel

open Capability Lib
open CapabilityTable

variable {N : Nat}

theorem closed_descends {table : CapabilityTable N} (h : WellRooted table) {S : Fin N → Prop}
    (hcl : ∀ i j, table.Live i → table.ParentOf j i → S j → S i) {j i : Fin N} (hj : S j)
    (hd : table.DescendsFrom j i) (hi : table.Live i) : S i := by
  induction hd with
  | refl => exact hj
  | tail _ hp ih => exact hcl _ _ hi hp (ih (h.rooted.live_parent hi hp).1)

theorem revokeSubtree_of_not_live {table : CapabilityTable N} (h : WellRooted table)
    {p : CapabilityHandle} {root : Fin N} (hr : table.Resolves p root)
    (hl : ¬table.Live root) : revokeSubtree table p = (.ok 0, table) := by
  obtain ⟨inSet, hset, heq⟩ := revokeSubtree_eq h hr
  have hon : ∀ i, inSet i → ¬table.Live i := by
    intro i hi
    rw [descends_liveParent_of_not_live h.rooted hl ((hset i).1 hi)]
    exact hl
  have hcn : Slots.count id (fun i => inSet i && decide (table.Live i)) = 0 := by
    rw [Slots.count_eq_zero]
    intro i
    cases hi : inSet i with
    | false => rfl
    | true => simp [hon i hi]
  have hsl : (fun i => if inSet i then (table.slots i).revokeLive else table.slots i) =
      table.slots := by
    funext i
    split
    · next hi => exact if_neg (hon i hi)
    · rfl
  rw [heq, revokeSet_eq, hcn, hsl]
  rfl

/-- **Subtree revocation is exact.** On every table the kernel reaches, `revoke_subtree` of a
handle that resolves to a live record succeeds; it revokes that record and its live descendants
and leaves every other slot as it was; it returns the number of records that stopped being live;
no live record descends from the handle's record afterwards; and calling it again returns `0` and
changes nothing. -/
theorem revokeSubtree_exact (hN : N ≤ 65536) (ops : List KernelOp) (p : CapabilityHandle)
    (root : Fin N)
    (hres : (run kernelStep (CapabilityTable.new : CapabilityTable N) ops).Resolves p root)
    (hlive : (run kernelStep (CapabilityTable.new : CapabilityTable N) ops).Live root) :
    let table := run kernelStep (CapabilityTable.new : CapabilityTable N) ops
    ∃ count table', revokeSubtree table p = (.ok count, table') ∧
      (∀ i, table.Live i → table.DescendsFrom root i →
        table'.slots i = (table.slots i).revoke) ∧
      (∀ i, ¬(table.Live i ∧ table.DescendsFrom root i) → table'.slots i = table.slots i) ∧
      count = Slots.count id (fun i => decide (table.Live i) && !decide (table'.Live i)) ∧
      (∀ i, table'.Live i → ¬table.DescendsFrom root i ∧ ¬table'.DescendsFrom root i) ∧
      revokeSubtree table' p = (.ok 0, table') := by
  intro table
  have h : WellRooted table := (run_kernelTable hN ops).wellRooted
  obtain ⟨S, hrev, hcl, hbl, hrt, hcn⟩ := revokeSubtree_spec h p
  obtain ⟨inSet, -, heq⟩ := revokeSubtree_eq h hres
  -- the revoked live records are exactly the live descendants
  have hS : ∀ i, table.Live i → (S i ↔ table.DescendsFrom root i) := by
    intro i hi
    constructor
    · intro hSi
      obtain ⟨j, hj, hd⟩ := hbl i hSi hi
      obtain rfl := hj.1.unique hres.1
      exact hd
    · exact fun hd => closed_descends h hcl (hrt root hres) hd hi
  have h' : WellRooted (revokeSubtree table p).2 := h.revokes hrev hcl
  have hdd : ¬(revokeSubtree table p).2.Live root := fun hl =>
    ((hrev.live_iff root).1 hl).2 (hrt root hres)
  refine ⟨(revokeSet table inSet).1, (revokeSubtree table p).2, by rw [heq], ?_, ?_, ?_, ?_, ?_⟩
  · intro i hi hd
    rw [hrev.hit i ((hS i hi).2 hd)]
    exact if_pos hi
  · intro i hn
    by_cases hSi : S i
    · rw [hrev.hit i hSi]
      exact if_neg fun hi => hn ⟨hi, (hS i hi).1 hSi⟩
    · exact hrev.miss i hSi
  · rw [← hcn, heq]
  · intro i hi
    obtain ⟨hli, hnS⟩ := (hrev.live_iff i).1 hi
    refine ⟨fun hd => hnS ((hS i hli).2 hd), fun hd => ?_⟩
    exact hdd (h'.rooted.live_ancestor hd hi)
  · exact revokeSubtree_of_not_live h' ((hrev.resolves_iff p root).2 hres) hdd

/-- A history with a delegated child: process `1` shares a readable object with process `2`. -/
def sharedObject : List KernelOp :=
  [.forest (.grantRoot ⟨1⟩ ⟨.persistentObject, 7, 0⟩ (Rights.read.union .delegate)),
    .forest (.delegate ⟨1⟩ ⟨0, 1⟩ ⟨2⟩ .read)]

/-- On that history the root's subtree has two live records, and both are revoked. -/
theorem revokeSubtree_exact_sharedObject :
    let table := run kernelStep (CapabilityTable.new : CapabilityTable maxSlots) sharedObject
    table.Live 0 ∧ table.Live 1 ∧
    ∃ count table', revokeSubtree table ⟨0, 1⟩ = (.ok count, table') ∧
      revokeSubtree table' ⟨0, 1⟩ = (.ok 0, table') := by
  refine ⟨by decide +kernel, by decide +kernel, ?_⟩
  obtain ⟨count, table', h, -, -, -, -, h'⟩ := revokeSubtree_exact (by decide) sharedObject ⟨0, 1⟩
    (0 : Fin maxSlots) ⟨⟨by decide, by decide +kernel⟩, .inl (by decide +kernel)⟩
    (by decide +kernel)
  exact ⟨count, table', h, h'⟩

/-- **Holder revocation.** On every table the kernel reaches, after `revoke_holder_tree`: the
holder has no live capability, and none that descends from one of its capabilities is live;
descendants other holders had are revoked and not released; every record that is neither the
holder's nor a live descendant of one is as it was; and the count returned is the number of
records that stopped being live. -/
theorem revokeHolderTree_isolates (hN : N ≤ 65536) (ops : List KernelOp) (holder : HolderId) :
    let table := run kernelStep (CapabilityTable.new : CapabilityTable N) ops
    let table' := (revokeHolderTree table holder).2
    (∀ i, ¬Held table' holder i) ∧
    (∀ i j, table'.Live i → Held table holder j → ¬table.DescendsFrom j i) ∧
    (∀ i j, table.Live i → (table.slots i).holder ≠ holder → Held table holder j →
      table.DescendsFrom j i → table'.slots i = (table.slots i).revoke) ∧
    (∀ i, (table.slots i).holder ≠ holder →
      (∀ j, Held table holder j → ¬table.DescendsFrom j i) → table'.slots i = table.slots i) ∧
    (revokeHolderTree table holder).1 =
      Slots.count id (fun i => decide (table.Live i) && !decide (table'.Live i)) := by
  intro table table'
  have h : WellRooted table := (run_kernelTable hN ops).wellRooted
  obtain ⟨S, hs⟩ := revokeTrees_spec (fun r => decide (r.holder = holder)) h
  have hcm := hs.complete hN
  have hsn := hs.sound hN
  have hrel := releaseWhere_releases (fun r => decide (r.holder = holder))
    (revokeTrees (fun r => decide (r.holder = holder)) table).2
  have htb' : table' = releaseWhere (fun r => decide (r.holder = holder))
    (revokeTrees (fun r => decide (r.holder = holder)) table).2 := rfl
  have hlv : ∀ i, table'.Live i ↔ table.Live i ∧ ¬S i := fun i =>
    (hrel.live_iff i).trans (hs.revokes.live_iff i)
  have hhl : ∀ j, Held table holder j → S j := fun j hj =>
    hcm j j.isLt hj.1 (decide_eq_true hj.2)
  -- a record of another holder is not touched by the second sweep
  have hot : ∀ i, (table.slots i).holder ≠ holder →
      table'.slots i = (revokeTrees (fun r => decide (r.holder = holder)) table).2.slots i := by
    intro i hne
    rw [htb', releaseWhere_eq]
    simp only [(hs.revokes.frame i).2.1, hne, decide_false, Bool.false_eq_true, if_false]
  refine ⟨?_, ?_, ?_, ?_, ?_⟩
  · exact fun i hi => revokeHolderTree_live hN h hi.1 hi.2
  · intro i j hi hj hd
    obtain ⟨hli, hnS⟩ := (hlv i).1 hi
    exact hnS (closed_descends h hs.closed (hhl j hj) hd hli)
  · intro i j hi hne hj hd
    rw [hot i hne, hs.revokes.hit i (closed_descends h hs.closed (hhl j hj) hd hi)]
    exact if_pos hi
  · intro i hne hnn
    rw [hot i hne]
    by_cases hS : S i
    · rw [hs.revokes.hit i hS]
      refine if_neg fun hi => ?_
      obtain ⟨j, hlj, hsel, hd⟩ := hsn i hS hi
      exact hnn j ⟨hlj, of_decide_eq_true hsel⟩ hd
    · exact hs.revokes.miss i hS
  · have hcn := hs.count
    change (revokeTrees (fun r => decide (r.holder = holder)) table).1.1 = _
    rw [hcn]
    refine Slots.count_congr fun i => ?_
    have hi : table'.Live i ↔ _ := hrel.live_iff i
    rw [decide_eq_decide.2 hi]

/-- On the shared object: process `2` loses its child when process `1` is revoked, and the child's
slot is left revoked. -/
theorem revokeHolderTree_isolates_sharedObject :
    let table := run kernelStep (CapabilityTable.new : CapabilityTable maxSlots) sharedObject
    Held table ⟨1⟩ 0 ∧ (∀ i, ¬Held (revokeHolderTree table ⟨1⟩).2 ⟨1⟩ i) ∧
      ((revokeHolderTree table ⟨1⟩).2.slots 1).state = .revoked :=
  ⟨by decide +kernel,
    (revokeHolderTree_isolates (N := maxSlots) (by decide) sharedObject ⟨1⟩).1,
    by decide +kernel⟩

end CleanSlate.Kernel
