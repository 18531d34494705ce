import CleanSlate.Capability.Verify.Freshness

/-!
# What every table keeps

The cached live count, the rights of the live records and the fate of retired slots, over whole
histories. A call that fails leaves the live records alone, unless the table has more than 65536
slots: `grant` writes its record before it finds that the slot number does not fit `u16`.
-/

namespace CleanSlate.Capability

open Lib CapabilityTable Slots

variable {N : Nat} {table table' : CapabilityTable N} {r r' : CapabilityRecord}

/-- A live record has rights, all valid for its class, and a generation; a slot retires at the
last generation. -/
structure CapabilityRecord.Sound (record : CapabilityRecord) : Prop where
  rights : record.state = .live → record.rights ≠ .empty ∧
    record.rights.isSubsetOf (Rights.validFor record.resource.class)
  generation : record.state = .live → record.generation ≠ 0
  retired : record.state = .retired → record.generation = generationMax

namespace CapabilityTable

def lives (table : CapabilityTable N) : Nat :=
  Slots.count (fun record : CapabilityRecord => decide (record.state = .live)) table.slots

structure Sound (table : CapabilityTable N) : Prop where
  slots : ∀ i, (table.slots i).Sound
  count : table.liveCount = table.lives

/-- The live records are the same. -/
def KeepsLive (table table' : CapabilityTable N) : Prop :=
  ∀ i, table.Live i ∨ table'.Live i → table'.slots i = table.slots i

end CapabilityTable

/-- Whether a call returned an error. -/
def TableResult.failed : TableResult → Bool
  | handle result => (err result).isSome
  | revoked result => (err result).isSome
  | subtree result => (err result).isSome
  | _ => false

/-! ## One record -/

theorem CapabilityRecord.Sound.of_revoked (h : r.state = .revoked) : r.Sound :=
  ⟨by simp [h], by simp [h], by simp [h]⟩

theorem CapabilityRecord.Sound.release (r : CapabilityRecord) : r.release.Sound := by
  unfold CapabilityRecord.release
  split
  · exact ⟨nofun, nofun, nofun⟩
  · next hn => exact ⟨nofun, nofun, fun _ => Generation.next_eq_none.1 hn⟩

/-- Nothing moves a slot on that is retired at the last generation. -/
theorem CapabilityRecord.Ages.eq_of_retired (h : r.Ages r') (hr : r.Sound)
    (hst : r.state = .retired) : r' = r := by
  rcases h with h | ⟨hl, -⟩ | hlt
  · exact h
  · rw [hst] at hl
    cases hl
  · have hpos : r.position = 3 * 4294967295 + 2 := by
      rw [CapabilityRecord.position, hst, hr.retired hst]
      rfl
    have hgen := r'.generation.toNat_lt
    rw [hpos] at hlt
    unfold CapabilityRecord.position at hlt
    cases hs : r'.state with
    | empty | live | revoked | retired => simp only [hs] at hlt; omega

/-! ## One call -/

namespace CapabilityTable.Sound

variable (h : table.Sound)
include h

/-- A write that moves the count by what the slot held and what it now holds. -/
theorem write {i : Fin N} {n : Nat} (hr : r.Sound)
    (hn : n + (if (table.slots i).state = .live then 1 else 0) =
      table.liveCount + if r.state = .live then 1 else 0) :
    Sound ⟨Function.update table.slots i r, n⟩ := by
  refine ⟨fun j => ?_, ?_⟩
  · dsimp only
    rcases eq_or_ne j i with rfl | hj
    · rwa [Function.update_self]
    · rw [Function.update_of_ne hj]
      exact h.slots j
  · have hup := count_update (fun record => decide (record.state = .live)) table.slots i r
    have hcn := h.count
    simp only [decide_eq_true_eq] at hup
    unfold lives at *
    dsimp only
    omega

theorem releaseSlot (slot : Nat) : (table.releaseSlot slot).2.Sound := by
  unfold CapabilityTable.releaseSlot
  split_ifs with hlt hst
  · exact h
  · refine h.write (.release _) ?_
    have hne : (table.slots ⟨slot, hlt⟩).release.state ≠ .live := by
      unfold CapabilityRecord.release
      split <;> nofun
    simp_all
  · exact h

theorem revokeSlot (slot : Nat) : (table.revokeSlot slot).2.Sound := by
  unfold CapabilityTable.revokeSlot
  split_ifs with hlt
  · split
    · next hl =>
      have hpos : 0 < table.liveCount := h.count ▸ count_pos.2 ⟨_, decide_eq_true hl⟩
      refine h.write (.of_revoked rfl) ?_
      simp only [hl, CapabilityRecord.revoke, if_true, reduceCtorEq, if_false]
      omega
    all_goals exact h
  · exact h

theorem revoke (handle : CapabilityHandle) : (table.revoke handle).2.Sound := by
  unfold CapabilityTable.revoke
  split
  · exact h
  · dsimp only
    split_ifs
    · exact h
    · exact h
    · exact h.revokeSlot _

theorem revokeWhere (selected : CapabilityRecord → Bool) :
    (table.revokeWhere selected).2.Sound := by
  refine foldl_induction _ (fun _ (s : Nat × CapabilityTable N) => s.2.Sound) _ h ?_
  rintro i ⟨count, t⟩ ht
  dsimp only
  split_ifs
  · exact (ht.revokeSlot i).releaseSlot i
  · exact ht.revokeSlot i
  · exact ht

theorem revokeSubtree (handle : CapabilityHandle) : (revokeSubtree table handle).2.Sound := by
  unfold Capability.revokeSubtree
  split
  · exact h
  dsimp only
  split
  · exact h
  refine foldl_induction _ (fun _ (s : Nat × CapabilityTable N) => s.2.Sound) _ h ?_
  rintro i ⟨count, t⟩ ht
  dsimp only
  split_ifs
  · exact ht.revokeSlot i
  · exact ht.revokeSlot i
  · exact ht

theorem releaseRevoked : (releaseRevoked table).2.Sound :=
  foldl_induction _ (fun _ (s : Nat × CapabilityTable N) => s.2.Sound) _ h
    fun i _ ht => ht.releaseSlot i

theorem revokeTree (selected : CapabilityRecord → Bool) :
    (releaseWhere selected (revokeTrees selected table).2).Sound := by
  refine foldl_induction _ (fun _ t => Sound t) _ ?_ ?_
  · refine foldl_induction _
      (fun _ (s : (Nat × List ResourceRef) × CapabilityTable N) => s.2.Sound) _ h ?_
    rintro i ⟨⟨revoked, visited⟩, t⟩ ht
    dsimp only
    split
    · exact ht
    split
    · exact ht
    next handle _ =>
    have hst := ht.revokeSubtree handle
    rcases hr : Capability.revokeSubtree t handle with ⟨res, t'⟩
    rw [hr] at hst
    cases res <;> exact hst
  · intro i t ht
    dsimp only
    split_ifs
    · exact ht.releaseSlot i
    · exact ht

theorem pickEmptySlotFrom (l : List (Fin N)) : (pickEmptySlotFrom l table).2.Sound := by
  induction l generalizing table with
  | nil => exact h
  | cons i l ih =>
    unfold pickEmptySlotFrom
    split
    · exact ih h
    · next hst =>
      split
      · exact h
      · next hn =>
        refine ih (h.write ⟨nofun, nofun, fun _ => Generation.next_eq_none.1 hn⟩ ?_)
        simp_all

theorem grant (holder : HolderId) (resource : ResourceRef) (rights : Rights)
    (provenance : Provenance) : (table.grant holder resource rights provenance).2.Sound := by
  have hpc := h.pickEmptySlotFrom (List.finRange N)
  have hsp := pickEmptySlotFrom_spec table (List.finRange N) table (.refl table)
  unfold CapabilityTable.grant pickEmptySlot
  cases hv : validateRights resource.class rights with
  | error e => exact h
  | ok u =>
    rcases hp : CapabilityTable.pickEmptySlotFrom (List.finRange N) table with ⟨e | ⟨i, g⟩, t⟩ <;>
      rw [hp] at hpc hsp
    · exact hpc
    · obtain ⟨-, hsl, hem, hnx⟩ := hsp
      have hfl := hpc.write (i := i) (n := t.liveCount + 1)
        (r := ⟨.live, holder, resource, rights, provenance, g⟩) ⟨fun _ => ?_, fun _ hz => ?_, nofun⟩
        (by simp [show t.slots i = _ from hsl, hem])
      · dsimp only
        split <;> exact hfl
      · unfold validateRights at hv
        simp_all
      · have hnat := Generation.toNat_of_next hnx
        rw [show g = 0 from hz] at hnat
        simp at hnat

end CapabilityTable.Sound

theorem tableStep_sound (h : table.Sound) (op : TableOp) : (tableStep table op).2.Sound := by
  cases op with
  | grant holder resource rights provenance => exact h.grant ..
  | install record => exact h.grant ..
  | delegate source parent target rights =>
    change (delegate table source parent target rights).2.Sound
    rcases delegate_cases table source parent target rights with
      ⟨e, he⟩ | ⟨j, -, -, -, -, -, -, he⟩
    · rw [he]
      exact h
    · rw [he]
      exact h.grant ..
  | revoke handle => exact h.revoke handle
  | revokeSlot slot => exact h.revokeSlot slot
  | releaseSlot slot => exact h.releaseSlot slot
  | revokeHolder holder => exact h.revokeWhere fun r => r.holder = holder
  | revokeResource resource => exact h.revokeWhere fun r => r.resource = resource
  | revokeResourceId resourceClass id =>
    exact h.revokeWhere fun r => r.resource.class = resourceClass ∧ r.resource.id = id
  | revokeSubtree handle => exact h.revokeSubtree handle
  | revokeHolderTree holder | revokeHolderTreeVisiting holder =>
    exact h.revokeTree fun r => r.holder = holder
  | revokeResourceTree resourceClass id =>
    exact h.revokeTree fun r => r.resource.class = resourceClass ∧ r.resource.id = id
  | releaseRevoked => exact h.releaseRevoked

theorem run_sound (ops : List TableOp) : (run tableStep (new : CapabilityTable N) ops).Sound := by
  have hnew : (new : CapabilityTable N).Sound :=
    ⟨fun _ => ⟨nofun, nofun, nofun⟩, (count_eq_zero.2 fun _ => rfl).symm⟩
  exact run_invariant tableStep hnew (fun t op ht => tableStep_sound ht op) ops

/-! ## Calls that fail -/

variable {e : CapabilityError} {handle : CapabilityHandle}

theorem revoke_failed (h : (table.revoke handle).1 = .error e) : (table.revoke handle).2 = table := by
  revert h
  unfold revoke
  split
  · exact fun _ => rfl
  · dsimp only
    split_ifs
    · exact fun _ => rfl
    · exact fun _ => rfl
    · nofun

theorem revokeSubtree_failed (h : (revokeSubtree table handle).1 = .error e) :
    (revokeSubtree table handle).2 = table := by
  revert h
  unfold revokeSubtree
  split
  · exact fun _ => rfl
  · dsimp only
    split
    · exact fun _ => rfl
    · nofun

theorem grant_keepsLive (hN : N ≤ 65536) {holder : HolderId} {resource : ResourceRef}
    {rights : Rights} {provenance : Provenance}
    (he : (table.grant holder resource rights provenance).1 = .error e) :
    table.KeepsLive (table.grant holder resource rights provenance).2 := by
  rcases grant_cases table holder resource rights provenance with
    ⟨e, -, hg⟩ | ⟨-, -, t, ht, hg⟩ | ⟨-, i, g, t, hf, hg⟩
  · rw [hg]
    exact fun _ _ => rfl
  · rw [hg]
    intro j hj
    rcases ht.slot j with heq | ⟨hx, heq⟩
    · exact heq
    · simp [Live, heq, hx.1] at hj
  · rw [hg, if_pos (by omega)] at he
    cases he

theorem tableStep_keepsLive (hN : N ≤ 65536) {op : TableOp}
    (h : (tableStep table op).1.failed) : table.KeepsLive (tableStep table op).2 := by
  have hsm : ∀ {t}, t = table → table.KeepsLive t := by
    rintro _ rfl _ _
    rfl
  cases op with
  | grant holder resource rights provenance =>
    obtain ⟨e, he⟩ := err_isSome.1 h
    exact grant_keepsLive hN he
  | install record =>
    obtain ⟨e, he⟩ := err_isSome.1 h
    exact grant_keepsLive hN he
  | delegate source parent target rights =>
    obtain ⟨e, he⟩ := err_isSome.1 h
    change (delegate table source parent target rights).1 = .error e at he
    change table.KeepsLive (delegate table source parent target rights).2
    rcases delegate_cases table source parent target rights with
      ⟨e, hd⟩ | ⟨j, -, -, -, -, -, -, hd⟩
    · rw [hd]
      exact hsm rfl
    · rw [hd] at he ⊢
      exact grant_keepsLive hN he
  | revoke handle =>
    obtain ⟨e, he⟩ := err_isSome.1 h
    exact hsm (revoke_failed he)
  | revokeSubtree handle =>
    obtain ⟨e, he⟩ := err_isSome.1 h
    exact hsm (revokeSubtree_failed he)
  | _ => cases h

theorem pickEmptySlotFrom_append {l rest : List (Fin N)}
    (h : ∀ i ∈ l, (table.slots i).state ≠ .empty) :
    CapabilityTable.pickEmptySlotFrom (l ++ rest) table =
      CapabilityTable.pickEmptySlotFrom rest table := by
  induction l with
  | nil => rfl
  | cons i l ih =>
    rw [List.forall_mem_cons] at h
    rw [List.cons_append, CapabilityTable.pickEmptySlotFrom, if_pos h.1]
    exact ih h.2

/-- A grant that fills one slot after the other, and the table after `k` of them. -/
def fill : TableOp := .grant ⟨1⟩ ⟨.persistentObject, 7, 0⟩ .read (.root ⟨1⟩)

def filled (k : Nat) : CapabilityTable N := ⟨fun i => if i.val < k then
    ⟨.live, ⟨1⟩, ⟨.persistentObject, 7, 0⟩, .read, .root ⟨1⟩, 1⟩ else .empty, k⟩

theorem tableStep_filled {k : Nat} (hk : k < N) : tableStep (filled k : CapabilityTable N) fill =
    (.handle (if k < 65536 then .ok ⟨UInt16.ofNat k, 1⟩ else .error .capacityExhausted),
      filled (k + 1)) := by
  have hpk : (filled k : CapabilityTable N).pickEmptySlot = (.ok (⟨k, hk⟩, 1), filled k) := by
    unfold CapabilityTable.pickEmptySlot
    rw [← List.take_append_drop k (List.finRange N), pickEmptySlotFrom_append,
      List.drop_eq_getElem_cons (by simpa using hk)]
    · simp [CapabilityTable.pickEmptySlotFrom, filled, CapabilityRecord.empty, Generation.next,
        generationMax]
    · intro i hi
      obtain ⟨j, hj, rfl⟩ := List.mem_take_iff_getElem.1 hi
      rw [lt_min_iff] at hj
      simp [filled, hj.1]
  have hup : Function.update (filled k : CapabilityTable N).slots ⟨k, hk⟩
      ⟨.live, ⟨1⟩, ⟨.persistentObject, 7, 0⟩, .read, .root ⟨1⟩, 1⟩ = (filled (k + 1)).slots := by
    funext i
    rw [Function.update_apply]
    simp only [filled, Fin.ext_iff]
    grind
  have hrt : validateRights .persistentObject .read = .ok () := rfl
  simp only [tableStep, fill, CapabilityTable.grant, hrt, hpk, hup, slotAsU16]
  by_cases hlt : k < 65536 <;> simp only [hlt, ↓reduceIte] <;> rfl

theorem run_fill {k : Nat} (hk : k ≤ N) :
    run tableStep (new : CapabilityTable N) (.replicate k fill) = filled k := by
  induction k with
  | zero => rfl
  | succ k ih => rw [List.replicate_succ', run_snoc, ih (Nat.le_of_succ_le hk), tableStep_filled hk]

/-- A larger table comes to a slot whose number does not fit. -/
theorem fill_fails (hN : 65536 < N) :
    let table := run tableStep (new : CapabilityTable N) (.replicate 65536 fill)
    (tableStep table fill).1.failed ∧ ¬table.KeepsLive (tableStep table fill).2 := by
  dsimp only
  rw [run_fill hN.le, tableStep_filled hN]
  refine ⟨rfl, fun h => ?_⟩
  have hsl := h ⟨65536, hN⟩ (.inr (by simp [Live, filled]))
  simp [filled, CapabilityRecord.empty] at hsl

/-- In every history of a table the live count is the number of live slots, which is what there is
to take off it; every live record has rights, all valid for its class, and a generation; and what
is retired stays as it is. That a call that fails keeps the live records holds of the tables of up
to 65536 slots. The rounds of the loops are calls of `revokeSlot` and `releaseSlot`. -/
theorem table_sound_iff (N : Nat) :
    (∀ ops, ∀ table, table = run tableStep (new : CapabilityTable N) ops →
      table.liveCount = table.lives ∧
      (∀ i, table.Live i → 0 < table.liveCount ∧ (table.slots i).rights ≠ .empty ∧
        (table.slots i).rights.isSubsetOf (Rights.validFor (table.slots i).resource.class) ∧
        (table.slots i).generation ≠ 0) ∧
      ∀ i later, (table.slots i).state = .retired →
        (run tableStep table later).slots i = table.slots i) ∧
    ((∀ ops op, (tableStep (run tableStep (new : CapabilityTable N) ops) op).1.failed →
      (run tableStep (new : CapabilityTable N) ops).KeepsLive
        (tableStep (run tableStep new ops) op).2) ↔ N ≤ 65536) := by
  refine ⟨?_, fun h => ?_, fun hN ops op => tableStep_keepsLive hN⟩
  · rintro ops table rfl
    have hs := run_sound (N := N) ops
    refine ⟨hs.count, fun i hl => ⟨?_, ?_⟩, fun i later hr => ?_⟩
    · rw [hs.count]
      exact count_pos.2 ⟨i, decide_eq_true hl⟩
    · have hi := hs.slots i
      exact ⟨(hi.rights hl).1, (hi.rights hl).2, hi.generation hl⟩
    · refine run_invariant tableStep (P := fun t => t.slots i = _) rfl (fun t op ht => ?_) later
      have hag := tableStep_ages t op i
      rw [ht] at hag
      exact hag.eq_of_retired (hs.slots i) hr
  · by_contra hN
    obtain ⟨hfl, hkp⟩ := fill_fails (Nat.lt_of_not_le hN)
    exact hkp (h _ _ hfl)

/-- In a table of 65537 slots, after 65536 grants, one more fails and leaves a record more. -/
theorem grant_fails_live :
    let table := run tableStep (new : CapabilityTable 65537) (.replicate 65536 fill)
    (tableStep table fill).1.failed ∧ ¬table.KeepsLive (tableStep table fill).2 :=
  fill_fails (Nat.lt_succ_self _)

end CleanSlate.Capability
