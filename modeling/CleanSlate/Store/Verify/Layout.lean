import CleanSlate.Store.Verify.Codec
import CleanSlate.Store.Verify.Payload

/-!
# Layouts

Where a commit puts the objects, and what a mount knows about the table it accepted: every extent
lies in the arena of its slot, and no two share a block.
-/

namespace CleanSlate.Store

open Lib List ObjectLayout

variable {g : BlockGeometry} {arena : Nat × Nat} {objects : List StoredObject}
  {ranges : List (Nat × Nat)}

/-! ## Arenas -/

theorem slotDataArena_fst (g : BlockGeometry) (slot : Nat) :
    (slotDataArena g slot).1 = 2 + slot * dataArenaBlocks g := rfl

theorem slotDataArena_snd (g : BlockGeometry) (slot : Nat) :
    (slotDataArena g slot).2 = 2 + slot * dataArenaBlocks g + dataArenaBlocks g := rfl

variable {slot a b : Nat} {layouts : List ObjectLayout}

theorem slotDataArena_le (h : Usable g) (hsl : slot < 2) :
    (slotDataArena g slot).2 ≤ g.blockCount := by
  have hpos := h.arena
  have hdef : dataArenaBlocks g = (g.blockCount - 2) / 2 := rfl
  have hmul : slot * dataArenaBlocks g ≤ 1 * dataArenaBlocks g := Nat.mul_le_mul_right _ (by omega)
  rw [slotDataArena_snd]
  omega

/-- Block `lba` is the superblock of the slot or in its arena. -/
def OfSlot (g : BlockGeometry) (slot lba : Nat) : Prop :=
  lba = slot ∨ (slotDataArena g slot).1 ≤ lba ∧ lba < (slotDataArena g slot).2

theorem OfSlot.disjoint {slot' lba : Nat} (hsl : slot < 2) (hsl' : slot' < 2)
    (hne : slot ≠ slot') (h : OfSlot g slot lba) : ¬OfSlot g slot' lba := by
  unfold OfSlot at *
  rw [slotDataArena_fst, slotDataArena_snd] at *
  have hcs : slot = 0 ∧ slot' = 1 ∨ slot = 1 ∧ slot' = 0 := by omega
  rcases hcs with ⟨rfl, rfl⟩ | ⟨rfl, rfl⟩
  · omega
  · omega

/-! ## Accepted tables -/

/-- An entry the table checks accept in the arena. -/
structure Placed (g : BlockGeometry) (arena : Nat × Nat) (layout : ObjectLayout) : Prop where
  len : layout.dataLen ≤ layout.blockCount * g.logicalBlockSize
  blocks : layout.dataLen = 0 → layout.blockCount = 0
  first : arena.1 ≤ layout.startLba
  last : layout.startLba + layout.blockCount ≤ arena.2

/-- Two entries with different ids and names. -/
def Distinct (left right : ObjectLayout) : Prop := left.id ≠ right.id ∧ left.name ≠ right.name

theorem validateEntries_ok_iff {before objects : List ObjectLayout} (har : arena.2 < 2 ^ 64) :
    validateEntries g arena before objects = .ok () ↔
      (∀ o ∈ objects, Placed g arena o) ∧ objects.Pairwise Distinct ∧
        ∀ o ∈ objects, ∀ b ∈ before, Distinct b o := by
  induction objects generalizing before with
  | nil => simp [validateEntries]
  | cons left objects ih =>
    have hbf : (∀ o ∈ objects, ∀ b ∈ before ++ [left], Distinct b o) ↔
        (∀ o ∈ objects, Distinct left o) ∧ ∀ o ∈ objects, ∀ b ∈ before, Distinct b o := by
      constructor
      · intro h
        exact ⟨fun o ho => h o ho left (by simp), fun o ho b hb => h o ho b (by simp [hb])⟩
      · rintro ⟨hlf, hrs⟩ o ho b hb
        rcases mem_append.1 hb with hb | hb
        · exact hrs o ho b hb
        · rw [mem_singleton.1 hb]
          exact hlf o ho
    have hds : (∀ b ∈ before, Distinct b left) ↔
        before.any (·.id = left.id) = false ∧ before.any (·.name = left.name) = false := by
      simp only [any_eq_false, decide_eq_true_eq, Distinct]
      exact ⟨fun h => ⟨fun b hb => (h b hb).1, fun b hb => (h b hb).2⟩,
        fun h b hb => ⟨h.1 b hb, h.2 b hb⟩⟩
    -- the checks of one entry, and the loop on the others
    have hst : validateEntries g arena before (left :: objects) = .ok () ↔
        Placed g arena left ∧ (∀ b ∈ before, Distinct b left) ∧
          validateEntries g arena (before ++ [left]) objects = .ok () := by
      rw [hds, validateEntries]
      cases hid : before.any (·.id = left.id) with
      | true => simp
      | false =>
        cases hnm : before.any (·.name = left.name) with
        | true => simp
        | false =>
          simp only [Bool.false_eq_true, if_false, true_and, and_self]
          constructor
          · intro h
            split_ifs at h with hzr hex hbl hlen hov hrn
            · exact ⟨⟨by omega, by omega, by omega, by omega⟩, h⟩
            · exact ⟨⟨by omega, fun h => absurd h hzr, by omega, by omega⟩, h⟩
          · rintro ⟨⟨hlen, hbl, hfr, hls⟩, hrs⟩
            by_cases hzr : left.dataLen = 0
            · have hnn := hbl hzr
              rw [if_pos hzr, if_neg (by omega)]
              exact hrs
            · have hsm : left.blockCount ≠ 0 := by
                intro hnn
                rw [hnn, Nat.zero_mul] at hlen
                omega
              rw [if_neg hzr, if_neg hsm, if_neg (by omega), if_neg (by omega), if_neg (by omega)]
              exact hrs
    rw [hst, ih, hbf, forall_mem_cons, pairwise_cons, forall_mem_cons]
    constructor
    · rintro ⟨hlf, hbf, hob, hpr, hfr, hrs⟩
      exact ⟨⟨hlf, hob⟩, ⟨hfr, hpr⟩, hbf, hrs⟩
    · rintro ⟨⟨hlf, hob⟩, ⟨hfr, hpr⟩, hbf, hrs⟩
      exact ⟨hlf, hbf, hob, hpr, hfr, hrs⟩

theorem overlapping_of_pairwise (h : ranges.Pairwise fun range range' => range.2 ≤ range'.1) :
    overlapping ranges = false := by
  induction ranges with
  | nil => rfl
  | cons range ranges ih =>
    cases ranges with
    | nil => rfl
    | cons next ranges =>
      have hnx := rel_of_pairwise_cons h mem_cons_self
      rw [overlapping, ih h.of_cons, Bool.or_false, decide_eq_false_iff_not]
      omega

/-- Ranges of which none ends after the next one starts are in order. -/
theorem pairwise_of_not_overlapping
    (hpos : ∀ range ∈ ranges, range.1 < range.2) (h : overlapping ranges = false) :
    ranges.Pairwise fun range range' => range.2 ≤ range'.1 := by
  induction ranges with
  | nil => exact .nil
  | cons range ranges ih =>
    cases ranges with
    | nil => exact pairwise_singleton _ _
    | cons next ranges =>
      rw [overlapping, Bool.or_eq_false_iff, decide_eq_false_iff_not] at h
      have hrs := ih (fun r hr => hpos r (mem_cons_of_mem _ hr)) h.2
      have hnx := hpos next (by simp)
      refine .cons (fun range' hmem => ?_) hrs
      rcases mem_cons.1 hmem with rfl | hmem
      · omega
      · have hlt := rel_of_pairwise_cons hrs hmem
        omega

/-- Two entries that share no block. -/
def Apart (left right : ObjectLayout) : Prop := left.blockCount = 0 ∨ right.blockCount = 0 ∨
    left.startLba + left.blockCount ≤ right.startLba ∨
    right.startLba + right.blockCount ≤ left.startLba

/-- What a mount knows about the table of a superblock it accepted. -/
structure Table (g : BlockGeometry) (slot : Nat) (objects : List ObjectLayout) : Prop where
  placed : ∀ o ∈ objects, Placed g (slotDataArena g slot) o
  distinct : objects.Pairwise Distinct
  apart : objects.Pairwise Apart

theorem mem_extents {objects : List ObjectLayout} {range : Nat × Nat}
    (h : range ∈ extents objects) : range.1 < range.2 := by
  obtain ⟨o, ho, rfl⟩ := mem_map.1 h
  have hpos := (mem_filter.1 ho).2
  simp only [decide_eq_true_eq] at hpos
  omega

theorem validateLayouts_ok {objects : List ObjectLayout}
    (h : validateLayouts g slot objects = .ok ()) (har : (slotDataArena g slot).2 < 2 ^ 64) :
    Table g slot objects := by
  unfold validateLayouts at h
  split at h
  · cases h
  next hen =>
  split_ifs at h with hov
  obtain ⟨hpl, hds, -⟩ := (validateEntries_ok_iff har).1 hen
  refine ⟨hpl, hds, ?_⟩
  have hsr := pairwise_of_not_overlapping (fun range hr => mem_extents ((mem_insertionSort _).1 hr))
    (Bool.eq_false_iff.2 hov)
  -- sorting does not matter to ranges being apart
  have hex : (extents objects).Pairwise fun range range' =>
      range.2 ≤ range'.1 ∨ range'.2 ≤ range.1 := by
    refine ((perm_insertionSort _ _).pairwise_iff ?_).1 (hsr.imp Or.inl)
    intro range range' h
    exact h.symm
  rw [extents, pairwise_map, pairwise_filter] at hex
  refine hex.imp fun {left right} hab => ?_
  simp only [decide_eq_true_eq] at hab
  by_cases hlf : left.blockCount = 0
  · exact .inl hlf
  · by_cases hrg : right.blockCount = 0
    · exact .inr (.inl hrg)
    · exact .inr (.inr (hab hlf hrg))

/-! ## Laying objects out -/

/-- The entry of an object placed at `nextLba`. -/
def layoutOf (g : BlockGeometry) (nextLba : Nat) (object : StoredObject) : ObjectLayout :=
  ⟨object.id, object.name, object.data, object.data.length, nextLba,
    objectBlocks g object.data.length, checksum object.data⟩

/-- The objects laid out one after the other, from block `a` up to block `b`. -/
inductive LaidOut (g : BlockGeometry) : Nat → List StoredObject → List ObjectLayout → Nat → Prop
  | nil (a : Nat) : LaidOut g a [] [] a
  | cons {a b : Nat} {object : StoredObject} {objects : List StoredObject}
      {layouts : List ObjectLayout} (name : validateObjectName object.name = .ok ())
      (len : object.data.length ≤ u32Max) (lba : a + objectBlocks g object.data.length < 2 ^ 64)
      (rest : LaidOut g (a + objectBlocks g object.data.length) objects layouts b) :
      LaidOut g a (object :: objects) (layoutOf g a object :: layouts) b

theorem layoutObjects_ok (h : layoutObjects g a objects = .ok (layouts, b)) :
    LaidOut g a objects layouts b := by
  induction objects generalizing a layouts with
  | nil =>
    cases h
    exact .nil _
  | cons object objects ih =>
    rw [layoutObjects] at h
    split at h
    · cases h
    next hnm =>
    split_ifs at h with hlen
    simp only at h
    split_ifs at h with hlba
    split at h
    · cases h
    · next rest stop hrs =>
      cases h
      exact .cons hnm (Nat.not_lt.1 hlen) (Nat.not_le.1 hlba) (ih hrs)

theorem buildObjectLayout_ok (h : buildObjectLayout g slot objects = .ok layouts) :
    ∃ stop ≤ (slotDataArena g slot).2, LaidOut g (slotDataArena g slot).1 objects layouts stop := by
  unfold buildObjectLayout at h
  simp only at h
  split at h
  · cases h
  · next layouts' stop hly =>
    split_ifs at h with hst
    cases h
    exact ⟨stop, Nat.not_lt.1 hst, layoutObjects_ok hly⟩

theorem le_objectBlocks (g : BlockGeometry) (len : Nat) :
    len ≤ objectBlocks g len * g.logicalBlockSize := by
  have hpos := g.blockSize_pos
  unfold objectBlocks
  split
  · omega
  · have hdiv := Nat.div_add_mod (len + (g.logicalBlockSize - 1)) g.logicalBlockSize
    have hmod := Nat.mod_lt (len + (g.logicalBlockSize - 1)) hpos
    rw [Nat.mul_comm] at hdiv
    omega

theorem objectBlocks_le (g : BlockGeometry) (len : Nat) : objectBlocks g len ≤ len := by
  have hpos := g.blockSize_pos
  unfold objectBlocks
  split
  · exact Nat.zero_le _
  next hlen =>
  apply Nat.le_of_lt_succ
  rw [Nat.div_lt_iff_lt_mul hpos, Nat.succ_mul]
  have hle : len ≤ len * g.logicalBlockSize := Nat.le_mul_of_pos_right _ hpos
  omega

/-- An object of the list, where an entry came from. -/
def ObjectLayout.object (self : ObjectLayout) : StoredObject := ⟨self.id, self.name, self.data⟩

section LaidOut

section

variable (h : LaidOut g a objects layouts b)
include h

theorem LaidOut.le : a ≤ b := by
  induction h with
  | nil => exact le_rfl
  | cons _ _ _ _ ih => omega

theorem LaidOut.map_object : layouts.map object = objects := by
  induction h with
  | nil => rfl
  | cons _ _ _ _ ih => rw [map_cons, ih, layoutOf, object]

theorem LaidOut.mem {layout : ObjectLayout} (hmem : layout ∈ layouts) :
    ∃ lba object, layout = layoutOf g lba object ∧ a ≤ lba ∧
      lba + objectBlocks g object.data.length ≤ b ∧
      lba + objectBlocks g object.data.length < 2 ^ 64 ∧
      validateObjectName object.name = .ok () ∧ object.data.length ≤ u32Max := by
  induction h with
  | nil => cases hmem
  | @cons a b object objects layouts name len lba rest ih =>
    rcases mem_cons.1 hmem with rfl | hmem
    · exact ⟨a, object, rfl, le_rfl, rest.le, lba, name, len⟩
    · obtain ⟨lba', object', heq, hle, hrs⟩ := ih hmem
      exact ⟨lba', object', heq, by omega, hrs⟩

theorem LaidOut.encodable : ∀ layout ∈ layouts, layout.Encodable := by
  intro layout hmem
  obtain ⟨lba, object, rfl, -, -, hlba, hnm, hlen⟩ := h.mem hmem
  have hbl := objectBlocks_le g object.data.length
  unfold u32Max at hlen
  exact ⟨hnm, by simp only [layoutOf]; omega, by simp only [layoutOf]; omega,
    by simp only [layoutOf]; omega⟩

theorem LaidOut.placed (hfr : arena.1 ≤ a) (hls : b ≤ arena.2) :
    ∀ layout ∈ layouts, Placed g arena layout := by
  intro layout hmem
  obtain ⟨lba, object, rfl, hle, hst, -⟩ := h.mem hmem
  refine ⟨le_objectBlocks g _, fun hzr => ?_, by simp only [layoutOf]; omega,
    by simp only [layoutOf]; omega⟩
  simp only [layoutOf] at hzr ⊢
  rw [hzr]
  rfl

theorem LaidOut.pairwise :
    layouts.Pairwise fun left right => left.startLba + left.blockCount ≤ right.startLba := by
  induction h with
  | nil => exact .nil
  | cons _ _ _ rest ih =>
    refine .cons (fun layout hmem => ?_) ih
    obtain ⟨lba, object, rfl, hle, -⟩ := rest.mem hmem
    exact hle

end

end LaidOut

/-- Objects a store may hold: with ids and names of their own, no more than the table takes. -/
structure Staged (objects : List StoredObject) : Prop where
  distinct : objects.Pairwise fun left right => left.id ≠ right.id ∧ left.name ≠ right.name
  capacity : objects.length ≤ maxObjects

theorem LaidOut.validateLayouts (h : LaidOut g a objects layouts b)
    (hst : Staged objects) (hfr : (slotDataArena g slot).1 ≤ a)
    (hls : b ≤ (slotDataArena g slot).2) (har : (slotDataArena g slot).2 < 2 ^ 64) :
    validateLayouts g slot (layouts.map stripped) = .ok () := by
  have hen : validateEntries g (slotDataArena g slot) [] (layouts.map stripped) = .ok () := by
    refine (validateEntries_ok_iff har).2 ⟨?_, ?_, fun o _ b hb => by cases hb⟩
    · intro o ho
      obtain ⟨layout, hmem, rfl⟩ := mem_map.1 ho
      obtain ⟨hlen, hbl, hfr, hls⟩ := h.placed hfr hls layout hmem
      exact ⟨hlen, hbl, hfr, hls⟩
    · have hds := hst.distinct
      rw [← h.map_object, pairwise_map] at hds
      rw [pairwise_map]
      exact hds
  have hex : (extents (layouts.map stripped)).Pairwise fun range range' => range.2 ≤ range'.1 := by
    rw [extents, pairwise_map, pairwise_filter, pairwise_map]
    exact h.pairwise.imp fun hab _ _ => hab
  have hsr : (extents (layouts.map stripped)).Pairwise fun range range' => range.1 ≤ range'.1 := by
    refine List.Pairwise.imp_of_mem (fun {range range'} hr _ hab => ?_) hex
    have := mem_extents hr
    omega
  unfold Store.validateLayouts
  rw [hen]
  rw [hsr.insertionSort_eq, overlapping_of_pairwise hex]
  rfl

/-! ## Reading the objects back -/

theorem mem_dataWrites {w : BlockWrite UInt8} (h : w ∈ dataWrites g layouts) :
    ∃ layout ∈ layouts, layout.startLba ≤ w.lba ∧ w.lba < layout.startLba + layout.blockCount ∧
      w.data.length ≤ g.logicalBlockSize := by
  obtain ⟨layout, hly, hw⟩ := mem_flatMap.1 h
  exact ⟨layout, hly, mem_objectWrites hw⟩

/-- After the writes of all payloads, each of them is on the medium. -/
theorem LaidOut.payload (h : LaidOut g a objects layouts b) (image : Medium UInt8) :
    ∀ layout ∈ layouts,
      payload g (image.apply g.logicalBlockSize (dataWrites g layouts)) layout = layout.data := by
  induction h generalizing image with
  | nil => exact fun _ hmem => by cases hmem
  | @cons a b object objects layouts name len lba rest ih =>
    intro layout hmem
    rw [dataWrites_cons, Medium.apply_append]
    rcases mem_cons.1 hmem with rfl | hmem
    · -- the payloads after this one lie behind it
      have hfit := le_objectBlocks g object.data.length
      rw [payload_apply_of_disjoint hfit, payload_objectWrites rfl hfit]
      · intro w hw
        obtain ⟨layout, -, -, -, hlen⟩ := mem_dataWrites hw
        exact hlen
      · intro w hw
        obtain ⟨layout, hly, hle, -⟩ := mem_dataWrites hw
        obtain ⟨lba', object', rfl, hst, -⟩ := rest.mem hly
        right
        exact Nat.le_trans hst hle
    · exact ih _ layout hmem

end CleanSlate.Store
