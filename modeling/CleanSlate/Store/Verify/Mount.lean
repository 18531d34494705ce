import CleanSlate.Store.Verify.Layout

/-!
# What a mount finds

On a device whose reads succeed, a mount depends on the medium alone: it takes the newest slot
whose superblock is accepted and whose payloads have their checksums.
-/

namespace CleanSlate.Store

open Lib List

variable {g : BlockGeometry}

/-- The slot's block is accepted as this superblock. -/
def Decodes (g : BlockGeometry) (image : Medium UInt8) (slot : Nat) (superblock : Superblock) :
    Prop :=
  decodeSuperblock g slot (image.peek (slot * g.logicalBlockSize) g.logicalBlockSize) =
    .ok superblock

/-- Every payload has the checksum the table records. -/
def Intact (g : BlockGeometry) (image : Medium UInt8) (superblock : Superblock) : Prop :=
  ∀ layout ∈ superblock.objects, Sound g image layout

instance (g : BlockGeometry) (image : Medium UInt8) (superblock : Superblock) :
    Decidable (Intact g image superblock) :=
  inferInstanceAs (Decidable (∀ layout ∈ superblock.objects, Sound g image layout))

/-- The objects of a superblock as the medium has them. -/
def contents (g : BlockGeometry) (image : Medium UInt8) (superblock : Superblock) :
    List StoredObject :=
  superblock.objects.map (loaded g image)

variable {slot : Nat} {superblock : Superblock} {image : Medium UInt8} {device : Device g}

theorem Decodes.unique {superblock' : Superblock} (h : Decodes g image slot superblock)
    (h' : Decodes g image slot superblock') : superblock = superblock' := by
  unfold Decodes at h h'
  rw [h] at h'
  cases h'
  rfl

/-- The arena of a slot ends where a `u64` can say. -/
theorem arena_lt (hsl : slot < 2) : (slotDataArena g slot).2 < 2 ^ 64 := by
  have hcp := g.capacity_lt
  have hcn : g.blockCount ≤ g.logicalBlockSize * g.blockCount :=
    Nat.le_mul_of_pos_left _ g.blockSize_pos
  have hdef : dataArenaBlocks g = (g.blockCount - 2) / 2 := rfl
  have hmul : slot * dataArenaBlocks g ≤ 1 * dataArenaBlocks g := Nat.mul_le_mul_right _ (by omega)
  rw [slotDataArena_snd]
  omega

/-- The table of a superblock that was accepted is in order. -/
theorem Decodes.table (hsl : slot < 2)
    (h : Decodes g image slot superblock) : Table g slot superblock.objects :=
  validateLayouts_ok (decodeSuperblock_ok_iff.1 h).layouts (arena_lt hsl)

theorem Table.onDevice (hus : Usable g) (hsl : slot < 2) {objects : List ObjectLayout}
    (h : Table g slot objects) : ∀ layout ∈ objects, layout.OnDevice g := by
  intro layout hmem
  have hpl := h.placed layout hmem
  exact ⟨Nat.le_trans hpl.last (slotDataArena_le hus hsl), hpl.len⟩

/-! ## Loading -/

theorem readSuperblockSlot_eq (hus : Usable g) (hrd : device.faults.reads = []) (hsl : slot < 2) :
    readSuperblockSlot device slot =
      (match decodeSuperblock g slot (device.visible.peek (slot * g.logicalBlockSize)
          g.logicalBlockSize) with
        | .error error => .error (.decode error)
        | .ok superblock => .ok superblock, device) := by
  have hbl := slotDataArena_le hus hsl
  rw [slotDataArena_snd] at hbl
  have hmax := g.maxTransfer_pos
  unfold readSuperblockSlot
  rw [Device.readBlocks_eq hrd Nat.one_pos hmax (Nat.one_mul _).symm (by omega)]
  simp only
  cases decodeSuperblock g slot (device.visible.peek (slot * g.logicalBlockSize)
    g.logicalBlockSize) with
  | error | ok => rfl

/-- The first candidate in order is taken, or none is left. -/
theorem trySlots_eq (hrd : device.faults.reads = []) (errors : SlotErrors)
    {candidates : List (Nat × Superblock)}
    (h : ∀ c ∈ candidates, ∀ layout ∈ c.2.objects, layout.OnDevice g) :
    match candidates.find? fun c => decide (Intact g device.visible c.2) with
    | some c => trySlots device errors candidates =
        (.ok (c.1, c.2, contents g device.visible c.2), device)
    | none => ∃ error, trySlots device errors candidates = (.error error, device) := by
  induction candidates generalizing errors with
  | nil => exact ⟨_, rfl⟩
  | cons candidate candidates ih =>
    have hld : loadObjects device candidate.2.objects =
        (if Intact g device.visible candidate.2 then .ok (contents g device.visible candidate.2)
          else .error (.corrupt .objectChecksumMismatch), device) :=
      loadObjects_eq hrd (h candidate mem_cons_self)
    rw [find?_cons]
    by_cases hin : Intact g device.visible candidate.2
    · rw [decide_eq_true hin]
      rw [trySlots, hld, if_pos hin]
    · rw [decide_eq_false hin]
      have hnx : trySlots device errors (candidate :: candidates) =
          trySlots device { errors with corrupt := some .objectChecksumMismatch } candidates := by
        rw [trySlots, hld, if_neg hin]
      rw [hnx]
      exact ih _ fun c hc => h c (mem_cons_of_mem _ hc)

/-! ## Selecting a slot -/

/-- The slot the medium is mounted from: its superblock is accepted and its payloads are in order,
which holds of no newer slot. -/
structure Mounts (g : BlockGeometry) (image : Medium UInt8) (slot : Nat)
    (superblock : Superblock) : Prop where
  inRange : slot < 2
  decodes : Decodes g image slot superblock
  intact : Intact g image superblock
  newest : ∀ superblock', Decodes g image (1 - slot) superblock' →
    Newer (1 - slot, superblock') (slot, superblock) → ¬Intact g image superblock'

theorem Newer.asymm {left right : Nat × Superblock} (h : Newer left right) (hne : left.1 ≠ right.1) :
    ¬Newer right left := by
  unfold Newer at *
  omega

instance : Std.Total Newer where
  total left right := by
    unfold Newer
    omega

instance : IsTrans (Nat × Superblock) Newer where
  trans left middle right h h' := by
    unfold Newer at *
    omega

/-- The accepted superblocks, in the order they are tried. -/
def candidates (g : BlockGeometry) (image : Medium UInt8) : List (Nat × Superblock) :=
  (([0, 1].filterMap fun slot =>
    match decodeSuperblock g slot (image.peek (slot * g.logicalBlockSize) g.logicalBlockSize) with
    | .ok superblock => some (slot, superblock)
    | .error _ => none)).insertionSort Newer

theorem mem_candidates :
    (slot, superblock) ∈ candidates g image ↔ slot < 2 ∧ Decodes g image slot superblock := by
  unfold candidates Decodes
  rw [mem_insertionSort, mem_filterMap]
  constructor
  · rintro ⟨k, hk, hdc⟩
    have hk2 : k < 2 := by
      simp only [mem_cons, not_mem_nil, or_false] at hk
      omega
    split at hdc
    · next found hfn =>
      cases hdc
      exact ⟨hk2, hfn⟩
    · cases hdc
  · rintro ⟨hsl, hdc⟩
    refine ⟨slot, ?_, by rw [hdc]⟩
    simp only [mem_cons, not_mem_nil, or_false]
    omega

theorem selectCommittedState_eq (hus : Usable g) (hrd : device.faults.reads = []) :
    ∃ errors, selectCommittedState device =
      trySlots device errors (candidates g device.visible) := by
  unfold selectCommittedState candidates
  rw [readSuperblockSlot_eq hus hrd (show 0 < 2 by decide)]
  simp only
  rw [readSuperblockSlot_eq hus hrd (show 1 < 2 by decide)]
  simp only [foldl_cons, foldl_nil, filterMap_cons, filterMap_nil]
  rcases decodeSuperblock g 0 (device.visible.peek (0 * g.logicalBlockSize) g.logicalBlockSize)
    with (error0 | error0) | superblock0 <;>
  rcases decodeSuperblock g 1 (device.visible.peek (1 * g.logicalBlockSize) g.logicalBlockSize)
    with (error1 | error1) | superblock1 <;>
  exact ⟨_, rfl⟩

/-- The candidate that is taken is the one the medium is mounted from. -/
theorem find_candidates_iff :
    (candidates g image).find? (fun c => decide (Intact g image c.2)) = some (slot, superblock) ↔
      Mounts g image slot superblock := by
  have hsr : (candidates g image).Pairwise Newer := pairwise_insertionSort _ _
  constructor
  · intro h
    obtain ⟨hin, before, after, hap, hbf⟩ := find?_eq_some_iff_append.1 h
    rw [hap] at hsr
    obtain ⟨hsl, hdc⟩ := mem_candidates.1 (mem_of_find?_eq_some h)
    refine ⟨hsl, hdc, of_decide_eq_true hin, fun superblock' hot hnw hsn => ?_⟩
    have hmem : (1 - slot, superblock') ∈ candidates g image := mem_candidates.2 ⟨by omega, hot⟩
    rw [hap] at hmem
    rcases mem_append.1 hmem with hmem | hmem
    · have hfn := hbf _ hmem
      simp [hsn] at hfn
    rcases mem_cons.1 hmem with heq | hmem
    · have hfst := congrArg Prod.fst heq
      omega
    · have hlt := rel_of_pairwise_cons (pairwise_append.1 hsr).2.1 hmem
      exact hnw.asymm (by simp only; omega) hlt
  · intro h
    have hmem := mem_candidates.2 ⟨h.inRange, h.decodes⟩
    cases hfd : (candidates g image).find? (fun c => decide (Intact g image c.2)) with
    | none =>
      have hnn := find?_eq_none.1 hfd _ hmem
      exact absurd (decide_eq_true h.intact) hnn
    | some c =>
      obtain ⟨slot', superblock'⟩ := c
      obtain ⟨hin, before, after, hap, hbf⟩ := find?_eq_some_iff_append.1 hfd
      obtain ⟨hsl', hdc'⟩ := mem_candidates.1 (mem_of_find?_eq_some hfd)
      by_cases hsl : slot' = slot
      · subst hsl
        rw [hdc'.unique h.decodes]
      -- the one found comes first, so it would be newer
      have hot : slot' = 1 - slot := by
        have := h.inRange
        omega
      subst hot
      rw [hap] at hmem hsr
      have haf : (slot, superblock) ∈ after := by
        rcases mem_append.1 hmem with hmem | hmem
        · have hfn := hbf _ hmem
          simp [h.intact] at hfn
        · rcases mem_cons.1 hmem with heq | hmem
          · exact absurd (congrArg Prod.fst heq).symm hsl
          · exact hmem
      have hnw := rel_of_pairwise_cons (pairwise_append.1 hsr).2.1 haf
      exact absurd (of_decide_eq_true hin) (h.newest superblock' hdc' hnw)

/-- **Mounting.** Without read faults, a mount succeeds exactly with the slot the medium is mounted
from, and reads the objects that slot holds. -/
theorem mount_ok_iff (hus : Usable g) (hrd : device.faults.reads = []) {store : ObjectStore g} :
    ObjectStore.mount device = .ok store ↔
      ∃ superblock, Mounts g device.visible store.activeSlot superblock ∧
        store = ⟨device, superblock.generation, store.activeSlot,
          contents g device.visible superblock⟩ := by
  obtain ⟨errors, hsl⟩ := selectCommittedState_eq hus hrd
  have honDevice : ∀ c ∈ candidates g device.visible, ∀ layout ∈ c.2.objects,
      layout.OnDevice g := by
    intro c hc
    obtain ⟨hst, hdc⟩ := mem_candidates.1 hc
    exact (hdc.table hst).onDevice hus hst
  have htry := trySlots_eq hrd errors honDevice
  unfold ObjectStore.mount
  rw [validateGeometry_ok_iff.2 ⟨rfl, hus⟩]
  rw [hsl]
  cases hfn : (candidates g device.visible).find?
      (fun c => decide (Intact g device.visible c.2)) with
  | none =>
    rw [hfn] at htry
    obtain ⟨error, her⟩ := htry
    rw [her]
    constructor
    · intro h
      cases h
    · rintro ⟨superblock, hmn, -⟩
      rw [find_candidates_iff.2 hmn] at hfn
      cases hfn
  | some c =>
    rw [hfn] at htry
    rw [htry]
    constructor
    · intro h
      cases h
      exact ⟨c.2, find_candidates_iff.1 hfn, rfl⟩
    · rintro ⟨superblock, hmn, hsr⟩
      rw [find_candidates_iff.2 hmn] at hfn
      cases hfn
      rw [hsr]

/-- A slot in order is mounted, or else the other one, as the newer. -/
theorem mounts_cases (hsl : slot < 2) (hdc : Decodes g image slot superblock)
    (hin : Intact g image superblock) :
    Mounts g image slot superblock ∨
    ∃ superblock', Mounts g image (1 - slot) superblock' ∧
      Newer (1 - slot, superblock') (slot, superblock) := by
  by_cases hot : ∃ superblock', Decodes g image (1 - slot) superblock' ∧
      Newer (1 - slot, superblock') (slot, superblock) ∧ Intact g image superblock'
  · obtain ⟨superblock', hdc', hnw, hin'⟩ := hot
    refine .inr ⟨superblock', ⟨by omega, hdc', hin', ?_⟩, hnw⟩
    -- the first slot is not newer in turn
    intro superblock'' hdc'' hnw''
    have hbc : 1 - (1 - slot) = slot := by omega
    rw [hbc] at hdc'' hnw''
    rw [hdc''.unique hdc] at hnw''
    exact absurd hnw'' (hnw.asymm (by simp only; omega))
  · refine .inl ⟨hsl, hdc, hin, fun superblock' hdc' hnw hin' => ?_⟩
    exact hot ⟨superblock', hdc', hnw, hin'⟩

theorem Mounts.mount (hus : Usable g) (hrd : device.faults.reads = [])
    (h : Mounts g device.visible slot superblock) :
    ObjectStore.mount device =
      .ok ⟨device, superblock.generation, slot, contents g device.visible superblock⟩ :=
  (mount_ok_iff hus hrd).2 ⟨superblock, h, rfl⟩

end CleanSlate.Store
