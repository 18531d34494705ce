import CleanSlate.Kernel.Linux.Proc
import CleanSlate.Lib.Checks

/-!
# The process table as a map

A process has at most one live slot, so the table is a partial map from processes to slots
(`find`). Every operation is described by what it does to that map.
-/

namespace CleanSlate.Kernel.Linux

open Lib Function Slots

namespace LinuxProcessTable

variable {t t' : LinuxProcessTable} {id x parent : ProcId} {slot : ProcSlot}
  {index : Fin linuxMaxProcEntries}

/-- No process has two live slots. -/
def Unique (t : LinuxProcessTable) : Prop :=
  ∀ i j, (t.slots i).live → (t.slots j).live → (t.slots i).id = (t.slots j).id → i = j

theorem slotIndex_some (h : t.slotIndex id = some index) :
    (t.slots index).live ∧ (t.slots index).id = id := by
  have hp := position_some h
  simpa using hp

theorem slotIndex_none (h : t.slotIndex id = none) (hlv : (t.slots index).live) :
    (t.slots index).id ≠ id := by
  have hp := position_none.1 h index
  simpa [hlv] using hp

theorem Unique.slotIndex (h : t.Unique) (hlv : (t.slots index).live)
    (hid : (t.slots index).id = id) : t.slotIndex id = some index := by
  cases hp : t.slotIndex id with
  | none => exact absurd hid (slotIndex_none hp hlv)
  | some i =>
    obtain ⟨hi, hi'⟩ := slotIndex_some hp
    rw [h i index hi hlv (hi'.trans hid.symm)]

theorem find_eq (h : t.slotIndex id = some index) : t.find id = some (t.slots index) := by
  rw [find, h]
  rfl

theorem find_eq_none : t.find id = none ↔ t.slotIndex id = none := by
  rw [find, Option.map_eq_none_iff]

theorem find_isSome : (t.find id).isSome = (t.slotIndex id).isSome := by
  rw [find, Option.isSome_map]

theorem find_some (h : t.find id = some slot) :
    ∃ index, t.slotIndex id = some index ∧ t.slots index = slot :=
  Option.map_eq_some_iff.1 h

theorem find_live (h : t.find id = some slot) : slot.live := by
  obtain ⟨index, hin, rfl⟩ := find_some h
  exact (slotIndex_some hin).1

theorem find_id (h : t.find id = some slot) : slot.id = id := by
  obtain ⟨index, hin, rfl⟩ := find_some h
  exact (slotIndex_some hin).2

/-! ## Operations on every slot -/

variable {g : ProcSlot → ProcSlot}

section Map

/-- A rewrite of every slot that keeps its process and revives none. -/
structure Keeping (g : ProcSlot → ProcSlot) : Prop where
  id : ∀ slot, (g slot).id = slot.id
  live : ∀ slot, (g slot).live → slot.live

theorem keeping_ite (c : ProcSlot → Bool) :
    Keeping fun slot => if c slot then { slot with live := false } else slot where
  id slot := by split <;> rfl
  live slot := by
    split
    · intro h
      cases h
    · exact fun h => h

theorem Unique.map (h : t.Unique) (hg : Keeping g) : Unique ⟨fun i => g (t.slots i)⟩ := by
  intro i j hi hj hij
  rw [hg.id, hg.id] at hij
  exact h i j (hg.live _ hi) (hg.live _ hj) hij

theorem find_map (h : t.Unique) (hg : Keeping g) : find ⟨fun i => g (t.slots i)⟩ x =
      (t.find x).bind fun slot => if (g slot).live then some (g slot) else none := by
  cases hx : t.find x with
  | none =>
    rw [find_eq_none] at hx
    change _ = none
    rw [find_eq_none, LinuxProcessTable.slotIndex, position_none]
    intro i
    cases hl : (g (t.slots i)).live with
    | false => rfl
    | true =>
      have hne := slotIndex_none hx (hg.live _ hl)
      rw [hg.id]
      simpa using hne
  | some slot =>
    obtain ⟨index, hin, rfl⟩ := find_some hx
    obtain ⟨-, hid⟩ := slotIndex_some hin
    dsimp only [Option.bind_some]
    cases hl : (g (t.slots index)).live with
    | true =>
      exact find_eq ((h.map hg).slotIndex hl ((hg.id _).trans hid))
    | false =>
      rw [if_neg (by decide), find_eq_none, LinuxProcessTable.slotIndex, position_none]
      intro i
      cases hi : (g (t.slots i)).live with
      | false => rfl
      | true =>
        rw [hg.id, Bool.true_and, decide_eq_false_iff_not]
        intro hid'
        have hsm := h i index (hg.live _ hi) (slotIndex_some hin).1 (hid'.trans hid.symm)
        rw [hsm, hl] at hi
        cases hi

end Map

/-! ## Retiring and reaping -/

def retired (id : ProcId) (slot : ProcSlot) : ProcSlot :=
  if slot.live && decide (slot.id = id) then { slot with live := false } else slot

theorem retired_keeping (id : ProcId) : Keeping (retired id) := keeping_ite _

theorem Unique.retireSlot_eq (h : t.Unique) :
    t.retireSlot id = ⟨fun i => retired id (t.slots i)⟩ := by
  unfold retireSlot
  cases hx : t.slotIndex id with
  | none =>
    change mk t.slots = _
    congr 1
    funext i
    unfold retired
    rw [position_none.1 hx i]
    rfl
  | some index =>
    obtain ⟨hlv, hid⟩ := slotIndex_some hx
    change mk (update t.slots index _) = _
    congr 1
    funext i
    by_cases hi : i = index
    · subst hi
      unfold retired
      simp [hlv, hid]
    · rw [update_of_ne hi]
      unfold retired
      rw [if_neg]
      intro hbt
      obtain ⟨hl, hid'⟩ : (t.slots i).live ∧ (t.slots i).id = id := by simpa using hbt
      exact hi (h i index hl hlv (hid'.trans hid.symm))

theorem Unique.retireSlot (h : t.Unique) (id : ProcId) : (t.retireSlot id).Unique := by
  rw [h.retireSlot_eq]
  exact h.map (retired_keeping id)

theorem Unique.find_retireSlot (h : t.Unique) :
    (t.retireSlot id).find x = if x = id then none else t.find x := by
  rw [h.retireSlot_eq, find_map h (retired_keeping id)]
  cases hx : t.find x with
  | none => simp
  | some slot =>
    have hl := find_live hx
    have hid := find_id hx
    subst hid
    by_cases hxi : slot.id = id <;> simp [retired, hl, hxi]

theorem dropChild_keeping (id : ProcId) : Keeping (dropChild id) := ⟨fun _ => rfl, fun _ h => h⟩

theorem Unique.find_reapZombie (h : t.Unique) :
    (t.reapZombie id).find x = if x = id then none else (t.find x).map (dropChild id) := by
  have hmap := find_map (x := x) (h.retireSlot id) (dropChild_keeping id)
  change (t.reapZombie id).find x = _ at hmap
  rw [hmap, h.find_retireSlot]
  by_cases hxi : x = id
  · rw [if_pos hxi, if_pos hxi]
    rfl
  rw [if_neg hxi, if_neg hxi]
  cases hx : t.find x with
  | none => rfl
  | some slot =>
    have hl : slot.live := find_live hx
    change (if (dropChild id slot).live then _ else _) = _
    rw [if_pos (show (dropChild id slot).live from hl)]
    rfl

def unlessStale (registryLive : UInt64 → Bool) (slot : ProcSlot) : ProcSlot :=
  if slot.live && !registryLive slot.id.pid then { slot with live := false } else slot

theorem unlessStale_keeping (registryLive : UInt64 → Bool) : Keeping (unlessStale registryLive) :=
  keeping_ite _

theorem Unique.find_retireStale (h : t.Unique) {registryLive : UInt64 → Bool} :
    (t.retireStaleLiveSlots registryLive).find x =
      if registryLive x.pid then t.find x else none := by
  have hmap := find_map (x := x) h (unlessStale_keeping registryLive)
  change (t.retireStaleLiveSlots registryLive).find x = _ at hmap
  rw [hmap]
  cases hx : t.find x with
  | none => simp
  | some slot =>
    have hl := find_live hx
    have hid := find_id hx
    subst hid
    cases hreg : registryLive slot.id.pid <;> simp [unlessStale, hl, hreg]

/-! ## Child lists -/

theorem setChildren_slot (index i : Fin linuxMaxProcEntries) (children : Children) :
    ((t.setChildren index children).slots i).live = (t.slots i).live ∧
      ((t.setChildren index children).slots i).id = (t.slots i).id := by
  unfold setChildren write
  dsimp only
  by_cases hi : i = index
  · subst hi
    rw [update_self]
    exact ⟨rfl, rfl⟩
  · rw [update_of_ne hi]
    exact ⟨rfl, rfl⟩

theorem Unique.setChildren (h : t.Unique) (index : Fin linuxMaxProcEntries) (children : Children) :
    (t.setChildren index children).Unique := by
  intro i j hi hj hij
  obtain ⟨hlv, hid⟩ := setChildren_slot index i children
  obtain ⟨hlv', hid'⟩ := setChildren_slot index j children
  rw [hlv] at hi
  rw [hlv'] at hj
  rw [hid, hid'] at hij
  exact h i j hi hj hij

theorem slotIndex_setChildren (children : Children) :
    (t.setChildren index children).slotIndex x = t.slotIndex x := by
  refine position_congr fun i => ?_
  obtain ⟨hlv, hid⟩ := setChildren_slot (t := t) index i children
  simp only [hlv, hid]

theorem isSome_setChildren (children : Children) :
    ((t.setChildren index children).find x).isSome = (t.find x).isSome := by
  rw [find_isSome, slotIndex_setChildren, ← find_isSome]

theorem find_setChildren (hpr : t.slotIndex parent = some index) (children : Children) :
    (t.setChildren index children).find x =
      if x = parent then some { t.slots index with children } else t.find x := by
  unfold find
  rw [slotIndex_setChildren]
  by_cases hx : x = parent
  · subst hx
    rw [hpr]
    simp [setChildren, write]
  · rw [if_neg hx]
    cases hi : t.slotIndex x with
    | none => rfl
    | some i =>
      have hne : i ≠ index := by
        rintro rfl
        exact hx ((slotIndex_some hi).2.symm.trans (slotIndex_some hpr).2)
      simp [setChildren, write, update_of_ne hne]

/-! ## Registration -/

section

variable (h : t.Unique) (hfree : (t.slots index).live = false) (slot : ProcSlot)
  (hnew : t.slotIndex slot.id = none)
include h hfree hnew

theorem Unique.write : (t.write index slot).Unique := by
  intro i j hi hj hij
  unfold LinuxProcessTable.write at hi hj hij
  dsimp only at hi hj hij
  by_cases hi' : i = index <;> by_cases hj' : j = index
  · exact hi'.trans hj'.symm
  · subst hi'
    rw [update_self, update_of_ne hj'] at hij
    rw [update_of_ne hj'] at hj
    exact absurd hij.symm (slotIndex_none hnew hj)
  · subst hj'
    rw [update_self, update_of_ne hi'] at hij
    rw [update_of_ne hi'] at hi
    exact absurd hij (slotIndex_none hnew hi)
  · rw [update_of_ne hi'] at hi hij
    rw [update_of_ne hj'] at hj hij
    exact h i j hi hj hij

theorem Unique.find_write (hlv : slot.live) :
    (t.write index slot).find x = if x = slot.id then some slot else t.find x := by
  have hun := h.write hfree slot hnew
  have hsl : (t.write index slot).slots index = slot := update_self ..
  by_cases hx : x = slot.id
  · rw [if_pos hx, hx]
    have hin : (t.write index slot).slotIndex slot.id = some index :=
      hun.slotIndex (by rw [hsl, hlv]) (by rw [hsl])
    rw [find_eq hin, hsl]
  · rw [if_neg hx]
    cases hi : t.find x with
    | some old =>
      obtain ⟨i, hin, rfl⟩ := find_some hi
      obtain ⟨hl, hid⟩ := slotIndex_some hin
      have hne : i ≠ index := by
        rintro rfl
        rw [hl] at hfree
        cases hfree
      have hat : (t.write index slot).slots i = t.slots i := update_of_ne hne ..
      have hin' : (t.write index slot).slotIndex x = some i :=
        hun.slotIndex (by rw [hat, hl]) (by rw [hat, hid])
      rw [find_eq hin', hat]
    | none =>
      rw [find_eq_none] at hi ⊢
      rw [LinuxProcessTable.slotIndex, position_none]
      intro i
      by_cases hi' : i = index
      · subst hi'
        rw [hsl, hlv]
        simpa using fun e => hx e.symm
      · have hat : (t.write index slot).slots i = t.slots i := update_of_ne hi' ..
        rw [hat]
        exact position_none.1 hi i

end

/-- The slot a new process gets. -/
def freshSlot (id parent : ProcId) (pgid : UInt64) : ProcSlot :=
  ⟨true, id, parent, pgid, fun _ => none⟩

/-- The process has a fresh slot in `w`, and all else is as in `t`. -/
structure Enters (t w : LinuxProcessTable) (id parent : ProcId) (pgid : UInt64) : Prop where
  unique : w.Unique
  find : ∀ x, w.find x = if x = id then some (freshSlot id parent pgid) else t.find x

/-- What a registration does: it fails and leaves the table alone; it fails with the slot of the
child taken and no entry for it; or it succeeds, and a parent has a new entry for the child. -/
theorem register_cases (h : t.Unique) (hne : id ≠ parent) {r : Except String Unit}
    (hreg : t.register id parent = (r, t')) :
    (∃ message, r = .error message) ∧
        (t' = t ∨ parent.pid ≠ 0 ∧ ∃ pgid, t.Enters t' id parent pgid) ∨
      r = .ok () ∧ parent.pid = 0 ∧ t.Enters t' id parent id.pid ∨
      r = .ok () ∧ parent.pid ≠ 0 ∧
        ∃ w index k, t.Enters w id parent (w.slots index).pgid ∧ w.slotIndex parent = some index ∧
          (w.slots index).children k = none ∧
          t' = w.setChildren index (update (w.slots index).children k
            (some ⟨id, (w.slots index).pgid, .running⟩)) := by
  unfold register at hreg
  cases hid : t.slotIndex id with
  | some i =>
    rw [hid] at hreg
    cases hreg
    exact .inl ⟨⟨_, rfl⟩, .inl rfl⟩
  | none =>
    rw [hid] at hreg
    cases hfree : position (fun slot => !slot.live) t.slots with
    | none =>
      rw [hfree] at hreg
      cases hreg
      exact .inl ⟨⟨_, rfl⟩, .inl rfl⟩
    | some free =>
      rw [hfree] at hreg
      have hdd : (t.slots free).live = false := by simpa using position_some hfree
      have hen : ∀ pgid, t.Enters (t.write free (freshSlot id parent pgid)) id parent pgid :=
        fun pgid => ⟨h.write hdd (freshSlot id parent pgid) hid,
          fun x => h.find_write hdd (freshSlot id parent pgid) hid rfl⟩
      by_cases hrt : parent.pid = 0
      · simp only [if_pos hrt] at hreg
        cases hreg
        exact .inr (.inl ⟨rfl, hrt, hen id.pid⟩)
      · simp only [if_neg hrt] at hreg
        cases hp : t.find parent with
        | none =>
          rw [pgidOf, hp] at hreg
          cases hreg
          exact .inl ⟨⟨_, rfl⟩, .inl rfl⟩
        | some pslot =>
          rw [pgidOf, hp] at hreg
          dsimp only [Option.map_some] at hreg
          have hw : t.Enters (t.write free ⟨true, id, parent, pslot.pgid, fun _ => none⟩) id parent
            pslot.pgid := hen pslot.pgid
          generalize t.write free ⟨true, id, parent, pslot.pgid, fun _ => none⟩ = w at hreg hw
          have hpf : w.find parent = some pslot := by
            rw [hw.find, if_neg (fun e => hne e.symm), hp]
          obtain ⟨index, hin, rfl⟩ := find_some hpf
          simp only [hin] at hreg
          cases hk : position (·.isNone) (w.slots index).children with
          | none =>
            rw [hk] at hreg
            cases hreg
            exact .inl ⟨⟨_, rfl⟩, .inr ⟨hrt, _, hw⟩⟩
          | some k =>
            rw [hk] at hreg
            cases hreg
            exact .inr (.inr ⟨rfl, hrt, w, index, k, hw, hin, by simpa using position_some hk, rfl⟩)

end LinuxProcessTable

end CleanSlate.Kernel.Linux
