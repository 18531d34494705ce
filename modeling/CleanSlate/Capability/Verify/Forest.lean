import CleanSlate.Capability.Verify.Slots
import CleanSlate.Lib.Forest

/-!
# The delegation forest

`Rooted E` says that every live record that names a parent handle has that handle resolve to a
live record, and that the two records are related by `E`. It is what makes `revoke_subtree` total
and complete: parents of live records always resolve, so the fixpoint never aborts
(`subtreePass_eq`), and the depth bound makes the five passes of the source reach every descendant
(`revokeSubtree_spec`).

The preservation lemmas are stated once for every `E`: filling an empty slot with a child of a live
record, revoking a set closed under children, and releasing revoked slots.
-/

namespace CleanSlate.Capability

open Lib
open CapabilityTable

variable {N : Nat}

namespace CapabilityTable

/-- Slot `j` holds the record slot `i` names as its parent. -/
def ParentOf (table : CapabilityTable N) (j i : Fin N) : Prop :=
  ∃ p, (table.slots i).provenance.parent = some p ∧ table.Resolves p j

/-- Slot `i` holds `root`, or a record whose parent chain reaches it. -/
def DescendsFrom (table : CapabilityTable N) (root i : Fin N) : Prop :=
  Relation.ReflTransGen table.ParentOf root i

/-- Every live record that names a parent has it resolve to a live record related by `E`. -/
def Rooted (E : CapabilityRecord → CapabilityRecord → Prop) (table : CapabilityTable N) : Prop :=
  ∀ i, table.Live i → ∀ p, (table.slots i).provenance.parent = some p →
    ∃ j, table.Resolves p j ∧ table.Live j ∧ E (table.slots j) (table.slots i)

variable {table table' : CapabilityTable N} {E : CapabilityRecord → CapabilityRecord → Prop}
  {j i : Fin N} {r : CapabilityRecord} {S : Fin N → Prop}

theorem Rooted.mono {F : CapabilityRecord → CapabilityRecord → Prop} (h : table.Rooted E)
    (hEF : ∀ r s, E r s → F r s) : table.Rooted F := by
  intro i hi p hp
  obtain ⟨j, hr, hl, he⟩ := h i hi p hp
  exact ⟨j, hr, hl, hEF _ _ he⟩

theorem Rooted.live_parent (h : table.Rooted E) (hi : table.Live i) (hp : table.ParentOf j i) :
    table.Live j ∧ E (table.slots j) (table.slots i) := by
  obtain ⟨p, hpp, hr⟩ := hp
  obtain ⟨k, hk, hl, he⟩ := h i hi p hpp
  obtain rfl := hr.1.unique hk.1
  exact ⟨hl, he⟩

theorem Rooted.live_ancestor (h : table.Rooted E) (hd : table.DescendsFrom j i)
    (hi : table.Live i) : table.Live j := by
  induction hd using Relation.ReflTransGen.head_induction_on with
  | refl => exact hi
  | head hc _ ih => exact (h.live_parent ih hc).1

/-! ## Preservation -/

/-- Live records that stay live unchanged, together with their live parents, stay rooted. -/
theorem Rooted.of_live_subset (h : table.Rooted E)
    (hsm : ∀ i, table'.Live i → table'.slots i = table.slots i)
    (hpr : ∀ i j, table'.Live i → table.Live j → table.ParentOf j i → table'.Live j) :
    table'.Rooted E := by
  intro i hi p hp
  have hs := hsm i hi
  have hli : table.Live i := by
    unfold Live
    rw [← hs]
    exact hi
  rw [hs] at hp ⊢
  obtain ⟨j, hr, hl, he⟩ := h i hli p hp
  have hlj := hpr i j hi hl ⟨p, hp, hr⟩
  have hsj := hsm j hlj
  refine ⟨j, (resolves_congr hsj).2 hr, hlj, ?_⟩
  rw [hsj]
  exact he

section

variable (h : table.Retires table')
include h

theorem Retires.live_iff (i : Fin N) : table'.Live i ↔ table.Live i := by
  unfold Live
  rcases h.slot i with e | ⟨hx, e⟩
  · rw [e]
  · rw [e, hx.1]
    constructor <;> intro hc <;> cases hc

theorem Retires.slot_of_live (hi : table.Live i) : table'.slots i = table.slots i := by
  rcases h.slot i with e | ⟨hx, -⟩
  · exact e
  · exact absurd (hi.symm.trans hx.1) (by decide)

theorem Retires.names_iff (p : CapabilityHandle) (i : Fin N) :
    table'.Names p i ↔ table.Names p i := by
  unfold Names
  rcases h.slot i with e | ⟨-, e⟩ <;> rw [e]

/-- The parents of a live record are the same after exhausted slots were retired. -/
theorem Retires.parentOf (hi : table.Live i) (hp : table'.ParentOf j i) : table.ParentOf j i := by
  obtain ⟨p, hpp, hn, ho⟩ := hp
  rw [h.slot_of_live hi] at hpp
  refine ⟨p, hpp, (h.names_iff p j).1 hn, ?_⟩
  rcases h.slot j with e | ⟨-, e⟩
  · rw [e] at ho
    exact ho
  · rw [e] at ho
    rcases ho with ho | ho <;> cases ho

end

theorem Rooted.retires (h : table.Rooted E) (hr : table.Retires table') : table'.Rooted E :=
  h.of_live_subset (fun i hi => hr.slot_of_live ((hr.live_iff i).1 hi))
    (fun _ j _ hj _ => (hr.live_iff j).2 hj)

theorem Fills.slot_of_live (h : table.Fills table' i r) (hj : table.Live j) :
    j ≠ i ∧ table'.slots j = table.slots j := by
  have hne : j ≠ i := by
    rintro rfl
    exact absurd (hj.symm.trans h.empty) (by decide)
  refine ⟨hne, ?_⟩
  rcases h.others j hne with e | ⟨hx, -⟩
  · exact e
  · exact absurd (hj.symm.trans hx.1) (by decide)

theorem Fills.live_iff (h : table.Fills table' i r) (j : Fin N) :
    table'.Live j ↔ j = i ∨ table.Live j := by
  constructor
  · intro hj
    by_cases he : j = i
    · exact .inl he
    right
    unfold Live at hj ⊢
    rcases h.others j he with e | ⟨-, e⟩
    · rw [e] at hj
      exact hj
    · rw [e] at hj
      cases hj
  · rintro (rfl | hj)
    · unfold Live
      rw [h.slot]
      exact h.live
    · unfold Live
      rw [(h.slot_of_live hj).2]
      exact hj

theorem Fills.not_parentOf (hf : table.Fills table' i r) (h : table.Rooted E)
    (hr : ∀ p, r.provenance.parent = some p → ∃ j, table.Resolves p j ∧ table.Live j) {k : Fin N}
    (hk : table'.Live k) : ¬table'.ParentOf i k := by
  rintro ⟨p, hp, hres⟩
  -- the parent `k` names was live before the fill, when slot `i` was still empty
  have hold : ∃ j, table.Resolves p j ∧ table.Live j := by
    rcases (hf.live_iff k).1 hk with rfl | hk
    · rw [hf.slot] at hp
      exact hr p hp
    · rw [(hf.slot_of_live hk).2] at hp
      obtain ⟨j, hj, hl, -⟩ := h k hk p hp
      exact ⟨j, hj, hl⟩
  obtain ⟨j, hj, hl⟩ := hold
  obtain rfl := hj.1.unique hres.1
  exact absurd (hl.symm.trans hf.empty) (by decide)

/-- Filling an empty slot with a root, or with a child `E` relates to its live parent, keeps the
forest rooted. -/
theorem Rooted.fills (h : table.Rooted E) (hf : table.Fills table' i r)
    (hr : ∀ p, r.provenance.parent = some p →
      ∃ j, table.Resolves p j ∧ table.Live j ∧ E (table.slots j) r) : table'.Rooted E := by
  intro k hk p hp
  -- the new record's parent is live before the fill, like every other parent
  have hold : ∃ j, table.Resolves p j ∧ table.Live j ∧ E (table.slots j) (table'.slots k) := by
    rcases (hf.live_iff k).1 hk with rfl | hk
    · rw [hf.slot] at hp ⊢
      exact hr p hp
    · rw [(hf.slot_of_live hk).2] at hp ⊢
      exact h k hk p hp
  obtain ⟨j, hres, hlv, he⟩ := hold
  refine ⟨j, (resolves_congr (hf.slot_of_live hlv).2).2 hres, (hf.live_iff j).2 (.inr hlv), ?_⟩
  rw [(hf.slot_of_live hlv).2]
  exact he

/-- The table with the live records of `S` revoked and everything else as it was. -/
structure Revokes (table table' : CapabilityTable N) (S : Fin N → Prop) : Prop where
  hit : ∀ i, S i → table'.slots i = (table.slots i).revokeLive
  miss : ∀ i, ¬S i → table'.slots i = table.slots i

section

variable (h : table.Revokes table' S)
include h

theorem Revokes.live_iff (i : Fin N) : table'.Live i ↔ table.Live i ∧ ¬S i := by
  unfold Live
  by_cases hS : S i
  · rw [h.hit i hS]
    unfold CapabilityRecord.revokeLive
    constructor
    · intro hl
      split at hl
      · cases hl
      · next hn => exact absurd hl hn
    · exact fun hc => absurd hS hc.2
  · rw [h.miss i hS]
    exact ⟨fun hl => ⟨hl, hS⟩, fun hc => hc.1⟩

theorem Revokes.slot_of_live (hi : table'.Live i) : table'.slots i = table.slots i :=
  h.miss i ((h.live_iff i).1 hi).2

/-- Revoking keeps every field a handle or a descendant is found by. -/
theorem Revokes.frame (i : Fin N) : (table'.slots i).generation = (table.slots i).generation ∧
    (table'.slots i).holder = (table.slots i).holder ∧
    (table'.slots i).resource = (table.slots i).resource ∧
    (table'.slots i).provenance = (table.slots i).provenance := by
  by_cases hS : S i
  · rw [h.hit i hS]
    unfold CapabilityRecord.revokeLive
    split <;> exact ⟨rfl, rfl, rfl, rfl⟩
  · rw [h.miss i hS]
    exact ⟨rfl, rfl, rfl, rfl⟩

theorem Revokes.occupied_iff (i : Fin N) :
    (table'.slots i).Occupied ↔ (table.slots i).Occupied := by
  by_cases hS : S i
  · rw [h.hit i hS]
    unfold CapabilityRecord.revokeLive CapabilityRecord.Occupied
    split
    · next hl =>
      exact ⟨fun _ => .inl hl, fun _ => .inr rfl⟩
    · exact Iff.rfl
  · rw [h.miss i hS]

theorem Revokes.resolves_iff (p : CapabilityHandle) (i : Fin N) :
    table'.Resolves p i ↔ table.Resolves p i := by
  unfold Resolves Names
  rw [(h.frame i).1, h.occupied_iff i]

theorem Revokes.parentOf_iff (j i : Fin N) : table'.ParentOf j i ↔ table.ParentOf j i := by
  unfold ParentOf
  rw [(h.frame i).2.2.2]
  exact exists_congr fun p => and_congr_right fun _ => h.resolves_iff p j

end

/-- `revoke` revokes the record its handle names, if that is live, and touches nothing else. -/
theorem revoke_revokes (table : CapabilityTable N) (handle : CapabilityHandle) :
    table.Revokes (table.revoke handle).2 (table.Names handle) := by
  have hkp : ∀ i, table.Names handle i → ¬table.Live i →
      table.slots i = (table.slots i).revokeLive := by
    intro i _ hl
    exact (if_neg hl).symm
  have hsm : (∀ i, table.Names handle i → ¬table.Live i) →
      table.Revokes table (table.Names handle) := fun h =>
    ⟨fun i hi => hkp i hi (h i hi), fun _ _ => rfl⟩
  unfold CapabilityTable.revoke
  cases hs : slotIndex N handle with
  | error e =>
    refine hsm fun i hi => ?_
    rw [slotIndex_ok.2 hi.1] at hs
    cases hs
  | ok i =>
    have hi := slotIndex_ok.1 hs
    have hun : ∀ j, table.Names handle j → j = i := fun j hj => Fin.ext (hj.1.symm.trans hi)
    simp only
    split
    · next hfr =>
      refine hsm fun j hj hl => ?_
      obtain rfl := hun j hj
      exact absurd (hl.symm.trans hfr.1) (by decide)
    · split
      · next hst =>
        refine hsm fun j hj hl => ?_
        obtain rfl := hun j hj
        rcases hst with hg | he
        · exact hg hj.2.symm
        · exact absurd (hl.symm.trans he) (by decide)
      · next hok =>
        rw [not_or, not_not] at hok
        rw [revokeSlot_eq]
        refine ⟨fun j hj => ?_, fun j hj => ?_⟩
        · obtain rfl := hun j hj
          simp
        · have hne : j ≠ i := by
            rintro rfl
            exact hj ⟨hi, hok.1.symm⟩
          simp [Function.update_of_ne hne]

/-- Revoking a set closed under live children keeps the forest rooted. -/
theorem Rooted.revokes (h : table.Rooted E) (hr : table.Revokes table' S)
    (hcl : ∀ i j, table.Live i → table.ParentOf j i → S j → S i) : table'.Rooted E := by
  refine h.of_live_subset (fun i hi => hr.slot_of_live hi) ?_
  intro i j hi hj hp
  obtain ⟨hli, hnS⟩ := (hr.live_iff i).1 hi
  exact (hr.live_iff j).2 ⟨hj, fun hS => hnS (hcl i j hli hp hS)⟩

theorem releaseRevoked_live : r.releaseRevoked.state = .live ↔ r.state = .live := by
  unfold CapabilityRecord.releaseRevoked CapabilityRecord.release
  split
  · next hr =>
    rw [hr]
    split <;> (constructor <;> intro h <;> cases h)
  · exact Iff.rfl

/-- The table with some revoked records released and everything else as it was. -/
structure Releases (table table' : CapabilityTable N) : Prop where
  slot : ∀ i, table'.slots i = table.slots i ∨
    ((table.slots i).state = .revoked ∧ table'.slots i = (table.slots i).release)

theorem Releases.live_iff (h : table.Releases table') (i : Fin N) :
    table'.Live i ↔ table.Live i := by
  unfold Live
  rcases h.slot i with e | ⟨hr, e⟩
  · rw [e]
  · have := releaseRevoked_live (r := table.slots i)
    unfold CapabilityRecord.releaseRevoked at this
    rw [if_pos hr] at this
    rw [e, this]

theorem Releases.slot_of_live (h : table.Releases table') (hi : table.Live i) :
    table'.slots i = table.slots i := by
  rcases h.slot i with e | ⟨hr, -⟩
  · exact e
  · exact absurd (hi.symm.trans hr) (by decide)

theorem releaseSlot_releases (table : CapabilityTable N) (slot : Nat) :
    table.Releases (table.releaseSlot slot).2 := by
  by_cases hlt : slot < N
  · have he := releaseSlot_eq table ⟨slot, hlt⟩
    rw [he]
    refine ⟨fun i => ?_⟩
    by_cases hi : i = ⟨slot, hlt⟩
    · subst hi
      simp only [Function.update_self, CapabilityRecord.releaseRevoked]
      split
      · next hrev => exact .inr ⟨hrev, rfl⟩
      · exact .inl rfl
    · exact .inl (Function.update_of_ne hi ..)
  · unfold CapabilityTable.releaseSlot
    rw [dif_neg hlt]
    exact ⟨fun _ => .inl rfl⟩

/-- Releasing revoked slots keeps the forest rooted. -/
theorem Rooted.releases (h : table.Rooted E) (hr : table.Releases table') : table'.Rooted E :=
  h.of_live_subset (fun i hi => hr.slot_of_live ((hr.live_iff i).1 hi))
    (fun _ j _ hj _ => (hr.live_iff j).2 hj)

end CapabilityTable

theorem releaseRevoked_releases (table : CapabilityTable N) :
    table.Releases (releaseRevoked table).2 := by
  rw [releaseRevoked_eq]
  refine ⟨fun i => ?_⟩
  simp only [CapabilityRecord.releaseRevoked]
  split
  · next h => exact .inr ⟨h, rfl⟩
  · exact .inl rfl

theorem releaseWhere_releases (selected : CapabilityRecord → Bool) (table : CapabilityTable N) :
    table.Releases (releaseWhere selected table) := by
  rw [releaseWhere_eq]
  refine ⟨fun i => ?_⟩
  simp only [CapabilityRecord.releaseRevoked]
  split
  · split
    · next h => exact .inr ⟨h, rfl⟩
    · exact .inl rfl
  · exact .inl rfl

end CleanSlate.Capability
