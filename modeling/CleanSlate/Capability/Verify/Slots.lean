import CleanSlate.Capability.Revocation
import CleanSlate.Lib.Checks

/-!
# What the table operations do to each slot

One specification per operation of the table, slot by slot, so that later files never unfold one.
A loop of the source that visits every slot once is a pointwise rewrite of the slots
(`foldl_slots`).
-/

namespace CleanSlate.Capability

open Lib Function Slots

variable {N : Nat} {h : CapabilityHandle} {holder : HolderId} {resource : ResourceRef}
  {required : Rights} {table' : CapabilityTable N} {j i : Fin N} {r : CapabilityRecord}

/-! ## Resolving handles -/

/-- A slot a handle can resolve to: live, or revoked and not yet released. -/
def CapabilityRecord.Occupied (record : CapabilityRecord) : Prop :=
  record.state = .live ∨ record.state = .revoked

/-- `authorize` accepts exactly a live record whose generation, holder, resource and rights all
answer the request. -/
theorem authorize_eq_ok {record : CapabilityRecord} :
    authorize record h holder resource required = .ok () ↔
      record.state = .live ∧ record.generation = h.generation ∧ record.holder = holder ∧
        record.resource = resource ∧ record.rights.contains required := by
  unfold authorize
  cases hs : record.state with
  | empty | retired => simp
  | revoked | live => split_ifs <;> simp_all

namespace CapabilityTable

/-- The handle `h` names slot `i` and carries its current generation. -/
def Names (table : CapabilityTable N) (h : CapabilityHandle) (i : Fin N) : Prop :=
  h.slot.toNat = i.val ∧ h.generation = (table.slots i).generation

/-- `h` resolves to slot `i` through `record`. -/
def Resolves (table : CapabilityTable N) (h : CapabilityHandle) (i : Fin N) : Prop :=
  table.Names h i ∧ (table.slots i).Occupied

/-- Slot `i` holds a live record. -/
def Live (table : CapabilityTable N) (i : Fin N) : Prop := (table.slots i).state = .live
deriving Decidable

variable {table : CapabilityTable N}

theorem Live.occupied (h : table.Live i) : (table.slots i).Occupied := Or.inl h

theorem Names.unique (hi : table.Names h i) (hj : table'.Names h j) : i = j :=
  Fin.ext (hi.1.symm.trans hj.1)

theorem resolves_congr (hsl : table'.slots i = table.slots i) :
    table'.Resolves h i ↔ table.Resolves h i := by
  unfold Resolves Names
  rw [hsl]

theorem slotIndex_ok : slotIndex N h = .ok i ↔ h.slot.toNat = i.val := by
  unfold slotIndex
  split
  · rw [Except.ok.injEq, Fin.ext_iff]
  · next hge =>
    constructor
    · intro e
      cases e
    · intro e
      exact absurd (e ▸ i.isLt) hge

/-- `record` succeeds exactly on the handles that resolve, and returns the slot's record. -/
theorem record_ok : table.record h = .ok r ↔ ∃ i, table.Resolves h i ∧ r = table.slots i := by
  unfold CapabilityTable.record
  cases hs : slotIndex N h with
  | error e =>
    constructor
    · intro e
      cases e
    · rintro ⟨i, ⟨⟨hi, -⟩, -⟩, -⟩
      rw [slotIndex_ok.2 hi] at hs
      cases hs
  | ok i =>
    have hi := slotIndex_ok.1 hs
    have hoc : (table.slots i).Occupied ↔
        ¬(table.slots i).state = .empty ∧ ¬(table.slots i).state = .retired := by
      unfold CapabilityRecord.Occupied
      cases (table.slots i).state <;> simp
    simp only [ite_error_eq_ok, ne_eq, not_not, Except.ok.injEq]
    constructor
    · rintro ⟨hem, hrt, hg, rfl⟩
      exact ⟨i, ⟨⟨hi, hg.symm⟩, hoc.2 ⟨hem, hrt⟩⟩, rfl⟩
    · rintro ⟨j, ⟨⟨hj, hg⟩, ho⟩, rfl⟩
      obtain rfl : j = i := Fin.ext (hj.symm.trans hi)
      obtain ⟨hem, hrt⟩ := hoc.1 ho
      exact ⟨hem, hrt, hg.symm, rfl⟩

theorem record_of_resolves (hr : table.Resolves h i) : table.record h = .ok (table.slots i) :=
  record_ok.2 ⟨i, hr, rfl⟩

/-- An authorized handle resolves. -/
theorem authorize_ok (ha : table.authorize holder h resource required = .ok r) :
    ∃ i, table.Resolves h i := by
  unfold CapabilityTable.authorize at ha
  cases hr : table.record h with
  | error e => rw [hr] at ha; cases ha
  | ok r' => exact (record_ok.1 hr).imp fun _ => And.left

end CapabilityTable

/-! ## Writing one slot -/

/-- `revoke_slot` on a record: live records are revoked, others kept. -/
def CapabilityRecord.revokeLive (record : CapabilityRecord) : CapabilityRecord :=
  if record.state = .live then record.revoke else record

/-- `release_slot` on a record: revoked records are released, others kept. -/
def CapabilityRecord.releaseRevoked (record : CapabilityRecord) : CapabilityRecord :=
  if record.state = .revoked then record.release else record

namespace CapabilityTable

theorem revokeSlot_eq (table : CapabilityTable N) (i : Fin N) :
    table.revokeSlot i = (decide (table.Live i), ⟨update table.slots i (table.slots i).revokeLive,
        if table.Live i then table.liveCount - 1 else table.liveCount⟩) := by
  unfold CapabilityTable.revokeSlot CapabilityRecord.revokeLive
  rw [dif_pos i.isLt]
  by_cases hl : table.Live i
  · have hs : (table.slots i).state = .live := hl
    simp [hl, hs]
  have hs : (table.slots i).state ≠ .live := hl
  simp only [hl, hs, decide_false, if_false, update_eq_self]
  split
  · next h => exact absurd h hs
  · rfl
  · rfl
  · rfl

theorem releaseSlot_eq (table : CapabilityTable N) (i : Fin N) :
    table.releaseSlot i = (decide ((table.slots i).state = .revoked),
      ⟨update table.slots i (table.slots i).releaseRevoked, table.liveCount⟩) := by
  unfold CapabilityTable.releaseSlot CapabilityRecord.releaseRevoked
  rw [dif_pos i.isLt]
  cases hs : (table.slots i).state <;> simp

/-- A loop over the slots whose iteration at `i` rewrites slot `i` from its own value, counts it
when `hit`, and then takes `d` from the live count, rewrites every slot once. -/
theorem foldl_slots (step : Nat × CapabilityTable N → Fin N → Nat × CapabilityTable N)
    (hit : Fin N → CapabilityRecord → Bool) (g : Fin N → CapabilityRecord → CapabilityRecord)
    (d : Nat) (table : CapabilityTable N)
    (hst : ∀ c t i, step (c, t) i = (if hit i (t.slots i) then c + 1 else c,
      ⟨update t.slots i (g i (t.slots i)),
        if hit i (t.slots i) then t.liveCount - d else t.liveCount⟩)) :
    (List.finRange N).foldl step (0, table) = (count id fun i => hit i (table.slots i),
        ⟨fun i => g i (table.slots i),
          table.liveCount - d * count id fun i => hit i (table.slots i)⟩) := by
  have key := foldl_induction step
    (fun k s => (s.2.slots = fun i => if i.val < k then g i (table.slots i) else table.slots i)
      ∧ s.1 = countBelow k (fun i => hit i (table.slots i))
      ∧ s.2.liveCount = table.liveCount - d * s.1)
    (0, table) ⟨by simp, (countBelow_zero _).symm, by simp⟩ (by
      rintro i ⟨c, t⟩ ⟨hsl, hcn, hlv⟩
      simp only at hsl hcn hlv
      have hi : t.slots i = table.slots i := by simp [hsl]
      rw [hst, hi, countBelow_succ, ← hcn]
      refine ⟨?_, ?_, ?_⟩
      · rw [hsl, update_below table.slots fun j => g j (table.slots j)]
      · split <;> rfl
      · rw [hlv]
        split
        · rw [Nat.mul_add, Nat.mul_one, Nat.sub_sub]
        · rfl)
  obtain ⟨hsl, hcn, hlv⟩ := key
  rw [countBelow_all] at hcn
  have hs : ((List.finRange N).foldl step (0, table)).2.slots = fun i => g i (table.slots i) := by
    simpa using hsl
  rw [← hs, ← hcn, ← hlv]

theorem setSlot_self (table : CapabilityTable N) (i : Fin N) :
    (⟨update table.slots i (table.slots i), table.liveCount⟩ : CapabilityTable N) = table := by
  rw [update_eq_self]

/-- `revoke_holder` and its relatives revoke and release the live records they select. -/
theorem revokeWhere_eq (selected : CapabilityRecord → Bool) (table : CapabilityTable N) :
    table.revokeWhere selected =
      (count id fun i => decide (table.Live i) && selected (table.slots i),
        ⟨fun i => if table.Live i ∧ selected (table.slots i) then (table.slots i).revoke.release
          else table.slots i,
          table.liveCount -
            count id fun i => decide (table.Live i) && selected (table.slots i)⟩) := by
  unfold CapabilityTable.revokeWhere
  rw [foldl_slots _ (fun _ r => decide (r.state = .live) && selected r)
    (fun _ r => if r.state = .live ∧ selected r then r.revoke.release else r) 1]
  · simp only [Nat.one_mul]
    rfl
  · intro c t i
    by_cases h : (t.slots i).state = .live ∧ selected (t.slots i)
    · have hl : t.Live i := h.1
      simp only [h, and_self, if_true, decide_true, Bool.true_and, revokeSlot_eq, releaseSlot_eq,
        hl, update_self, update_idem]
      simp [CapabilityRecord.releaseRevoked, CapabilityRecord.revokeLive, h.1,
        CapabilityRecord.revoke]
    · have hb : (decide ((t.slots i).state = .live) && selected (t.slots i)) = false := by
        simpa using h
      simp only [h, hb, if_false, Bool.false_eq_true, setSlot_self]

end CapabilityTable

open CapabilityTable

theorem revokeSet_eq (table : CapabilityTable N) (inSet : Fin N → Bool) : revokeSet table inSet =
      (count id fun i => inSet i && decide (table.Live i),
        ⟨fun i => if inSet i then (table.slots i).revokeLive else table.slots i,
          table.liveCount - count id fun i => inSet i && decide (table.Live i)⟩) := by
  unfold revokeSet
  rw [foldl_slots _ (fun i r => inSet i && decide (r.state = .live))
    (fun i r => if inSet i then r.revokeLive else r) 1]
  · simp only [Nat.one_mul]
    rfl
  · intro c t i
    by_cases h : inSet i
    · simp only [h, if_true, revokeSlot_eq, Bool.true_and, decide_eq_true_eq]
      rfl
    · simp only [h, if_false, Bool.false_and, Bool.false_eq_true, setSlot_self]

theorem releaseRevoked_eq (table : CapabilityTable N) : releaseRevoked table =
      (count id fun i => decide ((table.slots i).state = .revoked),
        ⟨fun i => (table.slots i).releaseRevoked, table.liveCount⟩) := by
  unfold releaseRevoked
  rw [foldl_slots _ (fun _ r => decide (r.state = .revoked)) (fun _ r => r.releaseRevoked) 0]
  · simp
  · intro c t i
    simp only [releaseSlot_eq, Nat.sub_zero, ite_self]

theorem releaseWhere_eq (selected : CapabilityRecord → Bool) (table : CapabilityTable N) :
    releaseWhere selected table =
      ⟨fun i => if selected (table.slots i) then (table.slots i).releaseRevoked
        else table.slots i, table.liveCount⟩ := by
  have h : ∀ c, (List.finRange N).foldl (fun (s : Nat × CapabilityTable N) slot =>
      (s.1, if selected (s.2.recordAt slot) ∧ (s.2.recordAt slot).state = .revoked then
        (s.2.releaseSlot slot).2 else s.2)) (c, table) = (c, releaseWhere selected table) := by
    intro c
    unfold releaseWhere
    generalize List.finRange N = l
    induction l generalizing table with
    | nil => rfl
    | cons i l ih =>
      exact ih _
  have h0 := h 0
  rw [foldl_slots _ (fun _ _ => false)
    (fun _ r => if selected r then r.releaseRevoked else r) 0] at h0
  · have h2 := congrArg Prod.snd h0
    simpa using h2.symm
  · intro c t i
    simp only [CapabilityTable.recordAt, releaseSlot_eq, Bool.false_eq_true, if_false]
    by_cases hs : selected (t.slots i) <;>
      by_cases hr : (t.slots i).state = .revoked <;> simp [hs, hr, CapabilityRecord.releaseRevoked]

/-! ## Filling a slot -/

/-- A slot `install` can use: empty, with a generation that can still advance. -/
def CapabilityRecord.Installable (record : CapabilityRecord) : Prop :=
  record.state = .empty ∧ record.generation ≠ generationMax
deriving Decidable

/-- An empty slot whose generation is used up. -/
def CapabilityRecord.Exhausted (record : CapabilityRecord) : Prop :=
  record.state = .empty ∧ record.generation = generationMax

namespace CapabilityTable

/-- Nothing but exhausted empty slots changed, and those were retired. -/
structure Retires (table table' : CapabilityTable N) : Prop where
  liveCount : table'.liveCount = table.liveCount
  slot : ∀ j, table'.slots j = table.slots j ∨
    ((table.slots j).Exhausted ∧ table'.slots j = { table.slots j with state := .retired })

theorem Retires.refl (table : CapabilityTable N) : table.Retires table := ⟨rfl, fun _ => .inl rfl⟩

variable {table : CapabilityTable N}

theorem Retires.eq_of_empty (h : table.Retires table') (hj : (table'.slots j).state = .empty) :
    table'.slots j = table.slots j := by
  rcases h.slot j with e | ⟨-, e⟩
  · exact e
  · rw [e] at hj
    cases hj

theorem Retires.retire (h : table.Retires table') (hi : (table'.slots i).Exhausted) :
    table.Retires { table' with
      slots := update table'.slots i { table'.slots i with state := .retired } } := by
  refine ⟨h.liveCount, fun j => ?_⟩
  by_cases hj : j = i
  · subst hj
    have e := h.eq_of_empty hi.1
    right
    rw [← e]
    exact ⟨hi, update_self ..⟩
  · simp only [update_of_ne hj]
    exact h.slot j

/-- What the scan of the slots `l` for an empty one found. -/
def Picked (table : CapabilityTable N) (l : List (Fin N))
    (result : Except CapabilityError (Fin N × UInt32) × CapabilityTable N) : Prop :=
  table.Retires result.2 ∧ match result.1 with
    | .ok (i, g) => result.2.slots i = table.slots i ∧ (table.slots i).state = .empty ∧
        Generation.next (table.slots i).generation = some g
    | .error e => e = .capacityExhausted ∧ ∀ i ∈ l, ¬(table.slots i).Installable

theorem Picked.cons {l : List (Fin N)}
    {result : Except CapabilityError (Fin N × UInt32) × CapabilityTable N}
    (h : table.Picked l result) (hi : ¬(table.slots i).Installable) :
    table.Picked (i :: l) result := by
  obtain ⟨_ | ⟨_, _⟩, t⟩ := result
  · exact ⟨h.1, h.2.1, List.forall_mem_cons.2 ⟨hi, h.2.2⟩⟩
  · exact h

/-- The scan for an empty slot retires exhausted ones and stops at the first installable one. -/
theorem pickEmptySlotFrom_spec (table : CapabilityTable N) : ∀ l t, table.Retires t →
      table.Picked l (pickEmptySlotFrom l t)
  | [], t, h => ⟨h, rfl, by simp⟩
  | i :: l, t, h => by
    unfold pickEmptySlotFrom
    split
    · next hs =>
      refine (pickEmptySlotFrom_spec table l t h).cons fun hin => ?_
      rcases h.slot i with e | ⟨hx, -⟩
      · rw [e] at hs
        exact hs hin.1
      · exact hin.2 hx.2
    · next hs =>
      have hs : (t.slots i).state = .empty := not_not.1 hs
      have hi := h.eq_of_empty hs
      cases hn : Generation.next (t.slots i).generation with
      | some g =>
        refine ⟨h, hi, ?_, ?_⟩
        · rw [← hi]
          exact hs
        · rw [← hi]
          exact hn
      | none =>
        have hx : (t.slots i).Exhausted := ⟨hs, Generation.next_eq_none.1 hn⟩
        refine (pickEmptySlotFrom_spec table l _ (h.retire hx)).cons ?_
        rw [← hi]
        exact fun hin => hin.2 hx.2

/-- The table after a live record with the given fields was put in the empty slot `i`. -/
structure Fills (table table' : CapabilityTable N) (i : Fin N) (record : CapabilityRecord) :
    Prop where
  empty : (table.slots i).state = .empty
  next : Generation.next (table.slots i).generation = some record.generation
  slot : table'.slots i = record
  live : record.state = .live
  others : ∀ j, j ≠ i → table'.slots j = table.slots j ∨
    ((table.slots j).Exhausted ∧ table'.slots j = { table.slots j with state := .retired })

/-- The outcomes of `grant`: rejected rights change nothing, a full table only retires exhausted
slots, and otherwise one empty slot is filled; the handle names that slot unless its number does
not fit `u16`. -/
theorem grant_cases (table : CapabilityTable N) (holder : HolderId) (resource : ResourceRef)
    (rights : Rights) (provenance : Provenance) :
    (∃ e, validateRights resource.class rights = .error e ∧
      table.grant holder resource rights provenance = (.error e, table)) ∨
    (validateRights resource.class rights = .ok () ∧ (∀ i, ¬(table.slots i).Installable) ∧
      ∃ t, table.Retires t ∧
        table.grant holder resource rights provenance = (.error .capacityExhausted, t)) ∨
    (validateRights resource.class rights = .ok () ∧
      ∃ i g t, table.Fills t i ⟨.live, holder, resource, rights, provenance, g⟩ ∧
        table.grant holder resource rights provenance =
          (if i.val < 65536 then .ok ⟨UInt16.ofNat i, g⟩ else .error .capacityExhausted, t)) := by
  unfold CapabilityTable.grant
  cases hv : validateRights resource.class rights with
  | error e => exact .inl ⟨e, rfl, rfl⟩
  | ok u =>
    right
    simp only
    have hpc := pickEmptySlotFrom_spec table (List.finRange N) table (Retires.refl table)
    rw [← CapabilityTable.pickEmptySlot] at hpc
    rcases hp : table.pickEmptySlot with ⟨res, t⟩
    rw [hp] at hpc
    obtain ⟨hret, hres⟩ := hpc
    cases res with
    | error e =>
      obtain ⟨rfl, hl⟩ := hres
      exact .inl ⟨trivial, fun i => hl i (List.mem_finRange i), t, hret, rfl⟩
    | ok ig =>
      obtain ⟨i, g⟩ := ig
      obtain ⟨hsl, hem, hnx⟩ := hres
      right
      refine ⟨trivial, i, g, ⟨update t.slots i ⟨.live, holder, resource, rights, provenance, g⟩,
        t.liveCount + 1⟩, ⟨hem, hnx, update_self .., rfl, ?_⟩, ?_⟩
      · intro j hj
        simp only [update_of_ne hj]
        exact hret.slot j
      · simp only [slotAsU16]
        split
        · next h => split at h <;> simp_all
        · next h => split at h <;> simp_all

theorem grant_ok {rights : Rights} {provenance : Provenance}
    (hg : table.grant holder resource rights provenance = (.ok h, table')) :
    validateRights resource.class rights = .ok () ∧
    ∃ i, table.Fills table' i ⟨.live, holder, resource, rights, provenance, h.generation⟩ ∧
      table'.Names h i := by
  rcases grant_cases table holder resource rights provenance with
    ⟨e, -, he⟩ | ⟨-, -, t, -, he⟩ | ⟨hv, i, g, t, hf, he⟩
  · rw [he] at hg
    cases hg
  · rw [he] at hg
    cases hg
  rw [he] at hg
  by_cases hi : i.val < 65536
  · rw [if_pos hi] at hg
    cases hg
    refine ⟨hv, i, hf, UInt16.toNat_ofNat_of_lt' hi, ?_⟩
    rw [hf.slot]
  · rw [if_neg hi] at hg
    cases hg

end CapabilityTable

end CleanSlate.Capability
