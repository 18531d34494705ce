import CleanSlate.Kernel.Fork
import CleanSlate.Kernel.Verify.Table
import Mathlib.Data.Set.Function

/-!
# Inheritance on fork is all or nothing, except for one exit

`inherit_capabilities_for_fork` rolls back what it installed when an install fails, but returns at
once when a capability of the parent is too deep to have a child. The abort path of `linux_fork`
then skips the revocation of the child's capabilities, since they do not count as inherited yet:
what the loop had installed stays live, held by a process that does not exist.
-/

namespace CleanSlate.Kernel

open Lib Function Slots
open Capability
open ServicePort
open CapabilityTable

variable {P C N : Nat} {B : Type} {table' : CapabilityTable N} {cursor k : Nat} {parent : HolderId}
  {steps : ForkSteps}

/-! ## What the table has room for -/

/-- The number of slots that can be filled. -/
def installableSlots (table : CapabilityTable N) : Nat :=
  Slots.count (fun r => decide r.Installable) table.slots

/-- The number of live capabilities the holder has below slot `k`. -/
def heldBelow (table : CapabilityTable N) (holder : HolderId) (k : Nat) : Nat :=
  Slots.countBelow k fun i => decide (Held table holder i)

variable {table : CapabilityTable N} {i : Fin N} {holder : HolderId}

theorem installableSlots_retires (h : table.Retires table') :
    installableSlots table' = installableSlots table := by
  refine count_congr fun i => ?_
  rcases h.slot i with heq | ⟨hx, heq⟩
  · rw [heq]
  · rw [heq]
    simp [CapabilityRecord.Installable, hx.2]

theorem installableSlots_fills {r : CapabilityRecord} (h : table.Fills table' i r) :
    installableSlots table' + 1 = installableSlots table := by
  have hr : decide r.Installable = false := by
    simp [CapabilityRecord.Installable, h.live]
  have hi : decide (table.slots i).Installable := by
    refine decide_eq_true ⟨h.empty, fun hmax => ?_⟩
    have hnx := h.next
    rw [Generation.next_eq_none.2 hmax] at hnx
    cases hnx
  have hdr := count_update_drop (p := fun r => decide r.Installable) hr table.slots i
  rw [hi, if_pos rfl] at hdr
  unfold installableSlots
  rw [← hdr, Nat.add_right_cancel_iff]
  refine count_congr fun j => ?_
  by_cases hj : j = i
  · subst hj
    rw [update_self, h.slot]
  rw [update_of_ne hj]
  rcases h.others j hj with heq | ⟨hx, heq⟩
  · rw [heq]
  · rw [heq]
    simp [CapabilityRecord.Installable, hx.2]

theorem heldBelow_gap (hcr : cursor ≤ i.val)
    (hfr : ∀ j, cursor ≤ j.val → j < i → ¬Held table holder j) :
    heldBelow table holder i = heldBelow table holder cursor := by
  refine count_congr fun j => ?_
  by_cases hhl : Held table holder j
  · have hiff : j.val < i.val ↔ j.val < cursor := by
      refine ⟨fun hlt => by_contra fun hge => ?_, fun hlt => by omega⟩
      exact hfr j (by omega) (Fin.lt_def.2 hlt) hhl
    simp only [id, decide_eq_true hhl, Bool.and_true, decide_eq_decide]
    exact hiff
  · simp only [id, decide_eq_false hhl, Bool.and_false]

theorem heldBelow_next (hhl : Held table holder i) (hcr : cursor ≤ i.val)
    (hfr : ∀ j, cursor ≤ j.val → j < i → ¬Held table holder j) :
    heldBelow table holder (i + 1) = heldBelow table holder cursor + 1 := by
  rw [← heldBelow_gap hcr hfr]
  unfold heldBelow
  rw [countBelow_succ, decide_eq_true hhl, if_pos rfl]

theorem heldBelow_mono {l : Nat} (h : k ≤ l) :
    heldBelow table holder k ≤ heldBelow table holder l := by
  refine count_mono fun i hi => ?_
  simp only [id, Bool.and_eq_true, decide_eq_true_eq] at hi ⊢
  exact ⟨by omega, hi.2⟩

theorem heldBelow_pos : 0 < heldBelow table holder k ↔ ∃ i, Held table holder i ∧ i.val < k := by
  unfold heldBelow countBelow
  rw [count_pos]
  simp only [id, Bool.and_eq_true, decide_eq_true_eq, and_comm]

/-! ## The loop -/

/-- The child's capabilities are copies of the parent's, one level deeper. -/
def OneLevelDeeper (table : CapabilityTable N) (parent child : HolderId) : Prop :=
  ∃ copy : Fin N → Fin N, Set.BijOn copy {i | Held table parent i} {j | Held table child j} ∧
    ∀ i, Held table parent i → (table.slots (copy i)).resource = (table.slots i).resource ∧
      (table.slots (copy i)).rights = (table.slots i).rights ∧
      (table.slots (copy i)).provenance.depth = (table.slots i).provenance.depth + 1

/-- The parent has a capability too deep for a child after others that are not, and the table has
room for the copies of those. -/
def Stranded (table : CapabilityTable N) (parent : HolderId) : Prop :=
  ∃ d, Held table parent d ∧ maxDelegationDepth ≤ (table.slots d).provenance.depth ∧
    (∀ i < d, Held table parent i → (table.slots i).provenance.depth < maxDelegationDepth ∧
      validateRights (table.slots i).resource.class (table.slots i).rights = .ok ()) ∧
    0 < heldBelow table parent d ∧ heldBelow table parent d ≤ installableSlots table

/-- The inheritance loop at `cursor`: every capability of the parent before it has its copy. -/
structure Inherited (start : CapabilityTable N) (parent child : HolderId) (cursor : Nat)
    (installed : List CapabilityHandle) (copy : Fin N → Fin N) (table : CapabilityTable N) :
    Prop where
  kept : ∀ i, start.Live i → table.slots i = start.slots i
  alive : ∀ i, table.Live i → start.Live i ∨ (table.slots i).holder = child
  copies : ∀ i, Held start parent i → i.val < cursor → Held table child (copy i) ∧
    (table.slots (copy i)).resource = (start.slots i).resource ∧
    (table.slots (copy i)).rights = (start.slots i).rights ∧
    (table.slots (copy i)).provenance.depth = (start.slots i).provenance.depth + 1
  inj : ∀ i j, Held start parent i → i.val < cursor → Held start parent j → j.val < cursor →
    copy i = copy j → i = j
  only : ∀ j, Held table child j → ∃ i, Held start parent i ∧ i.val < cursor ∧ copy i = j
  named : ∀ j, Held table child j → ∃ handle ∈ installed, table.Names handle j
  count : installed.length = heldBelow start parent cursor
  room : installableSlots table + installed.length = installableSlots start
  shallow : ∀ i, Held start parent i → i.val < cursor →
    (start.slots i).provenance.depth < maxDelegationDepth ∧
      validateRights (start.slots i).resource.class (start.slots i).rights = .ok ()

variable {start : CapabilityTable N} {installed : List CapabilityHandle} {copy : Fin N → Fin N}

section Loop
variable {parent child : HolderId}

theorem Inherited.new (hfr : ∀ i, ¬Held start child i) :
    Inherited start parent child 0 [] id start where
  kept _ _ := rfl
  alive _ h := Or.inl h
  copies _ _ h := absurd h (Nat.not_lt_zero _)
  inj _ _ _ h := absurd h (Nat.not_lt_zero _)
  only j h := absurd h (hfr j)
  named j h := absurd h (hfr j)
  count := (countBelow_zero _).symm
  room := rfl
  shallow _ _ h := absurd h (Nat.not_lt_zero _)

theorem Inherited.held_iff (h : Inherited start parent child cursor installed copy table)
    (hne : child ≠ parent) (i : Fin N) : Held table parent i ↔ Held start parent i := by
  constructor
  · rintro ⟨hlv, hhl⟩
    rcases h.alive i hlv with hold | hch
    · refine ⟨hold, ?_⟩
      rw [← h.kept i hold]
      exact hhl
    · exact absurd (hch.symm.trans hhl) hne
  · rintro ⟨hlv, hhl⟩
    unfold Held CapabilityTable.Live
    rw [h.kept i hlv]
    exact ⟨hlv, hhl⟩

section

variable (h : Inherited start parent child cursor installed copy table)
include h

theorem Inherited.next {k : Fin N}
    {handle childHandle : CapabilityHandle} {provenance : Provenance} {g : UInt32}
    (hhl : Held start parent i) (hcr : cursor ≤ i.val)
    (hfr : ∀ j, cursor ≤ j.val → j < i → ¬Held start parent j)
    (hchildOf : Provenance.childOf handle (start.slots i).provenance = .ok provenance)
    (hvl : validateRights (start.slots i).resource.class (start.slots i).rights = .ok ())
    (hfl : table.Fills table' k ⟨.live, child, (start.slots i).resource,
      (start.slots i).rights, provenance, g⟩) (hnm : table'.Names childHandle k) :
    Inherited start parent child (i + 1) (installed ++ [childHandle]) (update copy i k) table' := by
  obtain ⟨hdp, rfl⟩ := Provenance.childOf_ok hchildOf
  -- the capabilities below the new cursor are the ones before and `i`
  have hbl : ∀ j, Held start parent j → j.val < i.val + 1 → j = i ∨ j.val < cursor := by
    intro j hj hlt
    rcases Nat.lt_succ_iff_lt_or_eq.1 hlt with hlt | heq
    · exact .inr (by_contra fun hge => hfr j (Nat.not_lt.1 hge) hlt hj)
    · exact .inl (Fin.ext heq)
  have hsl : ∀ j, j.val < cursor → j ≠ i := by
    omega
  have hold : ∀ j, table.Live j → table'.slots j = table.slots j := fun j hj =>
    (hfl.slot_of_live hj).2
  have hnew : ∀ j, table.Live j → j ≠ k := fun j hj => (hfl.slot_of_live hj).1
  have hheldOld : ∀ j, Held table child j → Held table' child j := by
    intro j hj
    unfold Held CapabilityTable.Live
    rw [hold j hj.1]
    exact hj
  have hheldK : Held table' child k := by
    unfold Held CapabilityTable.Live
    rw [hfl.slot]
    exact ⟨rfl, rfl⟩
  have hheldNew : ∀ j, Held table' child j → j = k ∨ Held table child j := by
    rintro j ⟨hlv, hhd⟩
    rcases (hfl.live_iff j).1 hlv with rfl | hlv
    · exact .inl rfl
    · refine .inr ⟨hlv, ?_⟩
      rw [← hold j hlv]
      exact hhd
  refine ⟨fun j hj => ?_, fun j hj => ?_, fun j hj hlt => ?_, fun j l hj hjlt hl hllt heq => ?_,
    fun j hj => ?_, fun j hj => ?_, ?_, ?_, fun j hj hlt => ?_⟩
  · have hkp := h.kept j hj
    have hlv : table.Live j := by
      unfold CapabilityTable.Live
      rw [hkp]
      exact hj
    rw [hold j hlv, hkp]
  · rcases (hfl.live_iff j).1 hj with rfl | hlv
    · rw [hfl.slot]
      exact .inr rfl
    · rw [hold j hlv]
      exact h.alive j hlv
  · rcases hbl j hj hlt with rfl | hlt
    · rw [update_self, hfl.slot]
      exact ⟨hheldK, rfl, rfl, rfl⟩
    · obtain ⟨hcp, hres, hrg, hdr⟩ := h.copies j hj hlt
      rw [update_of_ne (hsl j hlt), hold _ hcp.1]
      exact ⟨hheldOld _ hcp, hres, hrg, hdr⟩
  · -- a copy made before is live already, so it is not the new one
    have hap : ∀ j, Held start parent j → j.val < cursor → copy j ≠ k := fun j hj hlt =>
      hnew _ (h.copies j hj hlt).1.1
    rcases hbl j hj hjlt with hji | hjc <;> rcases hbl l hl hllt with hli | hlc
    · exact hji.trans hli.symm
    · rw [hji, update_self, update_of_ne (hsl l hlc)] at heq
      exact absurd heq.symm (hap l hl hlc)
    · rw [hli, update_self, update_of_ne (hsl j hjc)] at heq
      exact absurd heq (hap j hj hjc)
    · rw [update_of_ne (hsl j hjc), update_of_ne (hsl l hlc)] at heq
      exact h.inj j l hj hjc hl hlc heq
  · rcases hheldNew j hj with rfl | hj
    · exact ⟨i, hhl, Nat.lt_succ_self _, update_self ..⟩
    · obtain ⟨l, hl, hlt, rfl⟩ := h.only j hj
      exact ⟨l, hl, by omega, update_of_ne (hsl l hlt) ..⟩
  · rcases hheldNew j hj with rfl | hj
    · exact ⟨childHandle, by simp, hnm⟩
    · obtain ⟨q, hq, hqn⟩ := h.named j hj
      refine ⟨q, List.mem_append_left _ hq, hqn.1, ?_⟩
      rw [hold j hj.1]
      exact hqn.2
  · rw [List.length_append, h.count, heldBelow_next hhl hcr hfr]
    rfl
  · have hfd := installableSlots_fills hfl
    have hrm := h.room
    rw [List.length_append, List.length_singleton]
    omega
  · rcases hbl j hj hlt with rfl | hlt
    · exact ⟨hdp, hvl⟩
    · exact h.shallow j hj hlt

theorem Inherited.rollback (i : Fin N) : ¬Held (rollbackForkInherited table installed) child i := by
  have hrv := rollbackForkInherited_revokes table installed
  rintro ⟨hlv, hhl⟩
  obtain ⟨hbf, hnot⟩ := (hrv.live_iff i).1 hlv
  rw [hrv.miss i hnot] at hhl
  exact hnot (h.named i ⟨hbf, hhl⟩)

theorem Inherited.retires (hrt : table.Retires table') :
    Inherited start parent child cursor installed copy table' := by
  have hhl : ∀ holder i, Held table' holder i ↔ Held table holder i := by
    intro holder i
    unfold Held
    rw [hrt.live_iff i]
    refine and_congr_right fun hlv => ?_
    rw [hrt.slot_of_live hlv]
  refine ⟨fun i hi => ?_, fun i hi => ?_, fun i hi hlt => ?_, h.inj, fun j hj => ?_,
    fun j hj => ?_, h.count, ?_, h.shallow⟩
  · have hlv : table.Live i := by
      unfold CapabilityTable.Live
      rw [h.kept i hi]
      exact hi
    rw [hrt.slot_of_live hlv, h.kept i hi]
  · have hlv := (hrt.live_iff i).1 hi
    rw [hrt.slot_of_live hlv]
    exact h.alive i hlv
  · obtain ⟨hcp, hrs⟩ := h.copies i hi hlt
    rw [hrt.slot_of_live hcp.1]
    exact ⟨(hhl child _).2 hcp, hrs⟩
  · exact h.only j ((hhl child j).1 hj)
  · obtain ⟨handle, hmem, hnm⟩ := h.named j ((hhl child j).1 hj)
    exact ⟨handle, hmem, (hrt.names_iff handle j).2 hnm⟩
  · rw [installableSlots_retires hrt]
    exact h.room

/-- The capability that strands the others is not before the cursor, nor between it and the next
one of the parent. -/
theorem Inherited.le_of_deep {d : Fin N} (hfr : ∀ j, cursor ≤ j.val → j < i → ¬Held start parent j)
    (hhl : Held start parent d) (hdp : maxDelegationDepth ≤ (start.slots d).provenance.depth) :
    i ≤ d := by
  by_contra hlt
  by_cases hd : d.val < cursor
  · exact absurd (h.shallow d hhl hd).1 (Nat.not_lt.2 hdp)
  · exact hfr d (Nat.not_lt.1 hd) (Fin.not_le.1 hlt) hhl

/-- The parent's next capability that has a child in depth, but not in the table, is a reason to
roll back and not to strand. -/
theorem Inherited.not_stranded (hhl : Held start parent i) (hcr : cursor ≤ i.val)
    (hfr : ∀ j, cursor ≤ j.val → j < i → ¬Held start parent j)
    (hdp : (start.slots i).provenance.depth < maxDelegationDepth)
    (hin : validateRights (start.slots i).resource.class (start.slots i).rights = .ok () →
      installableSlots table = 0) : ¬Stranded start parent := by
  rintro ⟨d, hd, hde, hbf, -, hrm⟩
  have hlt : i < d := by
    refine lt_of_le_of_ne (h.le_of_deep hfr hd hde) ?_
    rintro rfl
    omega
  have hfl := hin (hbf i hlt hhl).2
  have hnx := heldBelow_next hhl hcr hfr
  have hmn : heldBelow start parent (i + 1) ≤ heldBelow start parent d :=
    heldBelow_mono (Nat.succ_le_of_lt (Fin.lt_def.1 hlt))
  have hcn := h.count
  have hsp := h.room
  omega

/-- When the parent has no capability left, the child has a copy of each. -/
theorem Inherited.oneLevelDeeper
    (hne : child ≠ parent) (hend : ∀ i, cursor ≤ i.val → ¬Held start parent i) :
    OneLevelDeeper table parent child := by
  have hbl : ∀ i, Held start parent i → i.val < cursor := fun i hi =>
    by_contra fun hge => hend i (Nat.not_lt.1 hge) hi
  refine ⟨copy, ⟨fun i hi => ?_, fun i hi j hj heq => ?_, fun j hj => ?_⟩, fun i hi => ?_⟩
  · have hi := (h.held_iff hne i).1 hi
    exact (h.copies i hi (hbl i hi)).1
  · have hi := (h.held_iff hne i).1 hi
    have hj := (h.held_iff hne j).1 hj
    exact h.inj i j hi (hbl i hi) hj (hbl j hj) heq
  · obtain ⟨i, hi, -, hcp⟩ := h.only j hj
    exact ⟨i, (h.held_iff hne i).2 hi, hcp⟩
  · have hi := (h.held_iff hne i).1 hi
    rw [h.kept i hi.1]
    exact (h.copies i hi (hbl i hi)).2

end

end Loop

/-- How the inheritance of `start` comes out. -/
inductive InheritOutcome (start : CapabilityTable N) (parent child : HolderId) :
    Except CapabilityError Unit × CapabilityTable N → Prop
  | copied {table : CapabilityTable N} (copies : OneLevelDeeper table parent child)
      (shallow : ¬Stranded start parent) : InheritOutcome start parent child (.ok (), table)
  | rolledBack {error : CapabilityError} {table : CapabilityTable N}
      (nothing : ∀ i, ¬Held table child i) (shallow : ¬Stranded start parent) :
      InheritOutcome start parent child (.error error, table)
  | stranded {error : CapabilityError} {table : CapabilityTable N} {i : Fin N}
      (left : Held table child i) (deep : Stranded start parent) :
      InheritOutcome start parent child (.error error, table)

theorem inheritFrom_outcome (hN : N ≤ 65536) {child : HolderId} (hne : child ≠ parent)
    (table : CapabilityTable N) (cursor : Nat) (installed : List CapabilityHandle)
    (copy : Fin N → Fin N) (h : Inherited start parent child cursor installed copy table) :
    InheritOutcome start parent child (inheritFrom parent child table cursor installed) := by
  fun_induction inheritFrom parent child table cursor installed generalizing copy with
  | case1 table cursor installed hls =>
    have hend : ∀ i, cursor ≤ i.val → ¬Held start parent i := fun i hi hhl =>
      listHolder_none hls hi ((h.held_iff hne i).2 hhl)
    refine .copied (h.oneLevelDeeper hne hend) ?_
    rintro ⟨d, hd, hdp, -⟩
    have hlt : d.val < cursor := by_contra fun hge => hend d (Nat.not_lt.1 hge) hd
    exact absurd (h.shallow d hd hlt).1 (Nat.not_lt.2 hdp)
  | case2 table cursor installed next handle record hls e hc =>
    obtain ⟨i, hhl, hcr, -, rfl, -, hfr⟩ := listHolder_some hls
    simp only [h.held_iff hne] at hhl hfr
    rw [h.kept i hhl.1] at hc
    have hdp : maxDelegationDepth ≤ (start.slots i).provenance.depth := by
      by_contra hlt
      rw [Provenance.childOf_eq_ok (Nat.not_le.1 hlt)] at hc
      cases hc
    have hgap := heldBelow_gap hcr hfr
    by_cases hnn : 0 < heldBelow start parent cursor
    · obtain ⟨j, hj, hlt⟩ := heldBelow_pos.1 hnn
      refine .stranded (h.copies j hj hlt).1 ⟨i, hhl, hdp, fun k hk hhl => ?_, ?_, ?_⟩
      · refine h.shallow k hhl (by_contra fun hge => ?_)
        exact hfr k (Nat.not_lt.1 hge) hk hhl
      · rw [hgap]
        exact hnn
      · have hcn := h.count
        have hrm := h.room
        omega
    · refine .rolledBack (fun j hj => ?_) ?_
      · obtain ⟨k, hk, hlt, -⟩ := h.only j hj
        exact hnn (heldBelow_pos.2 ⟨k, hk, hlt⟩)
      · rintro ⟨d, hd, hdd, hbf, hsm, -⟩
        rcases lt_or_eq_of_le (h.le_of_deep hfr hd hdd) with hlt | rfl
        · exact absurd (hbf i hlt hhl).1 (Nat.not_lt.2 hdp)
        · rw [hgap] at hsm
          exact hnn hsm
  | case3 table cursor installed next handle record hls provenance hc hfl =>
    obtain ⟨i, hhl, hcr, -, rfl, -, hfr⟩ := listHolder_some hls
    simp only [h.held_iff hne] at hhl hfr
    rw [h.kept i hhl.1] at hc
    -- every record installed took a slot
    refine .rolledBack h.rollback (h.not_stranded hhl hcr hfr
      (Provenance.childOf_ok hc).1 fun _ => ?_)
    have hrm := h.room
    have hle := count_le (fun r => decide r.Installable) start.slots
    unfold installableSlots at hrm ⊢
    omega
  | case4 table cursor installed next handle record hls provenance hc hfl childHandle table'
      hg ih =>
    obtain ⟨i, hhl, hcr, rfl, rfl, -, hfr⟩ := listHolder_some hls
    simp only [h.held_iff hne] at hhl hfr
    obtain ⟨hv, k, hf, hn⟩ := grant_ok hg
    rw [h.kept i hhl.1] at hc hv hf
    exact ih _ (h.next hhl hcr hfr hc hv hf hn)
  | case5 table cursor installed next handle record hls provenance hc hfl e table' hg =>
    obtain ⟨i, hhl, hcr, -, rfl, -, hfr⟩ := listHolder_some hls
    simp only [h.held_iff hne] at hhl hfr
    rw [h.kept i hhl.1] at hc
    have hsh := h.not_stranded hhl hcr hfr (Provenance.childOf_ok hc).1
    rcases grant_cases table child (table.slots i).resource (table.slots i).rights provenance with
      ⟨e', hv, he⟩ | ⟨hv, hfl, t, ht, he⟩ | ⟨-, k, g, t, -, he⟩
    · cases hg.symm.trans he
      refine .rolledBack h.rollback (hsh fun hok => ?_)
      rw [← h.kept i hhl.1, hv] at hok
      cases hok
    · cases hg.symm.trans he
      refine .rolledBack (h.retires ht).rollback (hsh fun _ => ?_)
      exact count_eq_zero.2 fun j => decide_eq_false (hfl j)
    · rw [if_pos (Nat.lt_of_lt_of_le k.isLt hN)] at he
      cases hg.symm.trans he

/-! ## The whole fork -/

/-- No port is served by the process, and no connection is its own. -/
structure Portless (child : ForkChild) (core : PortCore P C B) : Prop where
  serves : ∀ p, ¬((core.ports p).live ∧ (core.ports p).server = child.holder ∧
    (core.ports p).serverGeneration = child.generation)
  connects : ∀ c, (core.connections c).client = child.holder →
    (core.connections c).clientGeneration = child.generation → (core.connections c).state = .free

/-- A process that holds, serves and is connected to nothing yet. -/
structure FreshChild (child : ForkChild) (s : PortSystem P C N B) : Prop where
  holds : ∀ i, ¬Held s.table child.holder i
  portless : Portless child s.core

/-- The inheritance `linux_fork` asks for leaves the child a copy of every capability of the
parent or, when it fails, nothing once the fork has unwound. -/
def AllOrNothing [DecidableEq B] (steps : ForkSteps) (parent : HolderId) (child : ForkChild)
    (s : PortSystem P C N B) : Prop :=
  match inheritCapabilitiesForFork s.table parent child.holder with
  | (.ok (), table) => OneLevelDeeper table parent child.holder
  | (.error _, _) => ∀ i, ¬Held (linuxFork steps parent child s).2.table child.holder i

section Unwind
variable [DecidableEq B] {child : ForkChild}

theorem Portless.onHolderExit {state : CallState P C N B} (h : Portless child state.core) :
    onHolderExit state child.holder child.generation = (⟨0, 0⟩, state) := by
  have hpr : ∀ p, exitPort child.holder child.generation (⟨0, 0⟩, state) p = (⟨0, 0⟩, state) :=
    fun p => if_neg (h.serves p)
  have hcn : ∀ c, exitConnection child.holder child.generation (⟨0, 0⟩, state) c =
      (⟨0, 0⟩, state) := by
    intro c
    unfold exitConnection
    by_cases hcl : (state.core.connections c).client = child.holder ∧
        (state.core.connections c).clientGeneration = child.generation
    · simp [h.connects c hcl.1 hcl.2]
    have hot : (state.core.connections c).client ≠ child.holder ∨
        (state.core.connections c).clientGeneration ≠ child.generation := by
      by_contra hbt
      simp only [not_or, not_not] at hbt
      exact hcl hbt
    simp only [if_pos hot]
  unfold ServicePort.onHolderExit
  rw [List.foldl_fixed' hpr, List.foldl_fixed' hcn]

/-- Unwinding before the capabilities count as inherited changes neither table nor ports. -/
theorem Portless.abortForkChild (s : PortSystem P C N B) (h : Portless child s.core) :
    abortForkChild steps child false s = s := by
  have hex : ServicePort.onHolderExit s.call child.holder child.generation =
    (⟨0, 0⟩, s.call) := Portless.onHolderExit h
  simp [Kernel.abortForkChild, rollbackRegisteredProcess, runTeardownHooks, teardownHookOrder,
    TeardownPath.runs, runTeardownHook, hex]
  rfl

/-- A fork whose inheritance fails leaves the table as the inheritance does. -/
theorem linuxFork_error {s : PortSystem P C N B} (hcl : steps.fdInherited)
    (h : Portless child s.core) {error : CapabilityError}
    (hin : inheritCapabilitiesForFork s.table parent child.holder = (.error error, table)) :
    linuxFork steps parent child s = (false, ⟨s.core, table⟩) := by
  unfold linuxFork
  rw [hcl, hin]
  simp only [Bool.not_true, Bool.false_eq_true, if_false]
  rw [Portless.abortForkChild ⟨s.core, table⟩ h]

end Unwind

/-- Inheritance on fork is all or nothing unless the parent has a capability too deep for a child
after others that were copied. -/
theorem fork_all_or_nothing_iff [DecidableEq B] (hN : N ≤ 65536) (steps : ForkSteps)
    (parent : HolderId) (child : ForkChild) (s : PortSystem P C N B)
    (hcall : steps.fdInherited = true) (hne : child.holder ≠ parent) (hfresh : FreshChild child s) :
    AllOrNothing steps parent child s ↔ ¬Stranded s.table parent := by
  have hot := inheritFrom_outcome hN hne s.table 0 [] id (.new hfresh.holds)
  unfold AllOrNothing
  rw [← inheritCapabilitiesForFork] at hot
  rcases hin : inheritCapabilitiesForFork s.table parent child.holder with ⟨result, table⟩
  rw [hin] at hot
  cases hot with
  | copied copies shallow => exact ⟨fun _ => shallow, fun _ => copies⟩
  | rolledBack nothing shallow =>
    rw [linuxFork_error hcall hfresh.portless hin]
    exact ⟨fun _ => shallow, fun _ => nothing⟩
  | @stranded error _ i left deep =>
    rw [linuxFork_error hcall hfresh.portless hin]
    exact ⟨fun hnn => absurd left (hnn i), fun hsh => absurd deep hsh⟩

/-- Process `5` has an object of its own, and one of process `1` that reached it through `2`, `3`
and `4`, as deep as a delegation goes. -/
def deepShare : List KernelOp := [.forest (.grantRoot ⟨5⟩ ⟨.persistentObject, 7, 0⟩ .read),
    .forest (.grantRoot ⟨1⟩ ⟨.persistentObject, 8, 0⟩ (Rights.read.union .delegate)),
    .forest (.delegate ⟨1⟩ ⟨1, 1⟩ ⟨2⟩ (Rights.read.union .delegate)),
    .forest (.delegate ⟨2⟩ ⟨2, 1⟩ ⟨3⟩ (Rights.read.union .delegate)),
    .forest (.delegate ⟨3⟩ ⟨3, 1⟩ ⟨4⟩ (Rights.read.union .delegate)),
    .forest (.delegate ⟨4⟩ ⟨4, 1⟩ ⟨5⟩ .read)]

/-- The system after it, without ports. -/
def deepShared : PortSystem 0 0 maxSlots Unit where
  core := ⟨fun _ => .empty, fun _ => .empty⟩
  table := run kernelStep .new deepShare

def forkedChild : ForkChild := ⟨⟨6⟩, 1⟩

/-- Every step outside the table and the ports succeeds. -/
def cleanSteps : ForkSteps := ⟨true, true, true, fun _ => false⟩

theorem forkedChild_fresh : FreshChild forkedChild deepShared :=
  ⟨by decide +kernel, ⟨fun p => p.elim0, fun c => c.elim0⟩⟩

/-- A fork of process `1` copies its one capability. -/
theorem fork_all_or_nothing_root : AllOrNothing cleanSteps ⟨1⟩ forkedChild deepShared := by
  have hrt : ∀ d, Held deepShared.table ⟨1⟩ d →
      (deepShared.table.slots d).provenance.depth = 0 := by
    decide +kernel
  refine (fork_all_or_nothing_iff (by decide) cleanSteps ⟨1⟩ forkedChild deepShared rfl (by decide)
    forkedChild_fresh).2 ?_
  rintro ⟨d, hd, hdp, -⟩
  rw [hrt d hd] at hdp
  exact absurd hdp (by decide)

/-- A fork of process `5` fails, and leaves a live capability of the child that was never made. -/
theorem failed_fork_leaves_capability :
    (linuxFork cleanSteps ⟨5⟩ forkedChild deepShared).1 = false ∧
      ∃ i, Held (linuxFork cleanSteps ⟨5⟩ forkedChild deepShared).2.table ⟨6⟩ i := by
  have hst : Stranded deepShared.table ⟨5⟩ :=
    ⟨5, by decide +kernel, by decide +kernel, by decide +kernel, by decide +kernel,
      by decide +kernel⟩
  have hot := inheritFrom_outcome (by decide) (show forkedChild.holder ≠ ⟨5⟩ by decide)
    deepShared.table 0 [] id (.new forkedChild_fresh.holds)
  rw [← inheritCapabilitiesForFork] at hot
  rcases hin : inheritCapabilitiesForFork deepShared.table ⟨5⟩ forkedChild.holder with
    ⟨result, table⟩
  rw [hin] at hot
  cases hot with
  | copied _ shallow | rolledBack _ shallow => exact absurd hst shallow
  | @stranded error _ i left _ =>
    rw [linuxFork_error rfl forkedChild_fresh.portless hin]
    exact ⟨rfl, i, left⟩

end CleanSlate.Kernel
