import CleanSlate.Store.Service
import CleanSlate.Store.Verify.Crash

/-!
# Opening a store under read faults

A read that succeeds returns what the device holds, whatever other reads fail. A store that was
mounted has thus read its active slot as it is, though a fault may have hidden a newer one.
-/

namespace CleanSlate.Store

open Lib List

variable {g : BlockGeometry}

/-- The device with other reads to fail. -/
def Device.withReads (self : Device g) (reads : List (Option BlockIoError)) : Device g :=
  { self with faults := { self.faults with reads := reads } }

/-- The reads failed, or returned what they return without faults. The device is the same but for
the reads to fail. -/
def Reads {ε α : Type} (device : Device g) (result quiet : Except ε α × Device g) : Prop :=
  (∃ reads error, result = (.error error, device.withReads reads)) ∨
  ∃ reads value, result = (.ok value, device.withReads reads) ∧
    quiet = (.ok value, device.withReads [])

theorem Reads.device {ε α : Type} {device : Device g} {result quiet : Except ε α × Device g}
    (h : Reads device result quiet) : ∃ reads, result.2 = device.withReads reads := by
  rcases h with ⟨reads, error, rfl⟩ | ⟨reads, value, rfl, -⟩
  · exact ⟨reads, rfl⟩
  · exact ⟨reads, rfl⟩

theorem Reads.value {ε α : Type} {device : Device g} {result quiet : Except ε α × Device g}
    (h : Reads device result quiet) {value : α} (hvl : result.1 = .ok value) :
    quiet.1 = .ok value := by
  rcases h with ⟨reads, error, rfl⟩ | ⟨reads, value', rfl, rfl⟩
  · cases hvl
  · exact hvl

theorem readBlocks_reads (device : Device g) (lba blocks len : Nat) :
    Reads device (device.readBlocks lba blocks len)
      ((device.withReads []).readBlocks lba blocks len) := by
  unfold Device.readBlocks
  cases g.validateRead lba blocks len with
  | error error => exact .inl ⟨device.faults.reads, error, rfl⟩
  | ok range =>
    unfold Device.nextRead
    cases device.faults.reads with
    | nil => exact .inr ⟨device.faults.reads, _, rfl, rfl⟩
    | cons fault reads =>
      cases fault with
      | none => exact .inr ⟨reads, _, rfl, rfl⟩
      | some error => exact .inl ⟨reads, error, rfl⟩

theorem readChunks_reads (startLba : Nat) (device : Device g) (buffer : List UInt8)
    (tiles : List (Nat × Nat)) :
    Reads device (readChunks startLba device buffer tiles)
      (readChunks startLba (device.withReads []) buffer tiles) := by
  induction tiles generalizing device buffer with
  | nil => exact .inr ⟨device.faults.reads, buffer, rfl, rfl⟩
  | cons chunk rest ih =>
    rw [readChunks, readChunks]
    rcases readBlocks_reads device (startLba + chunk.1) chunk.2 (chunk.2 * g.logicalBlockSize) with
      ⟨reads, error, hrd⟩ | ⟨reads, bytes, hrd, hqt⟩
    · rw [hrd]
      exact .inl ⟨reads, error, rfl⟩
    · rw [hrd, hqt]
      exact ih (device.withReads reads) _

theorem readObjectData_reads (device : Device g) (object : ObjectLayout) :
    Reads device (readObjectData device object) (readObjectData (device.withReads []) object) := by
  unfold readObjectData
  split
  · exact .inr ⟨device.faults.reads, [], rfl, rfl⟩
  rcases readChunks_reads object.startLba device
    (replicate (object.blockCount * g.logicalBlockSize) 0)
    (chunks g.maxTransferBlocks object.blockCount) with
    ⟨reads, error, hrd⟩ | ⟨reads, bytes, hrd, hqt⟩
  · rw [hrd]
    exact .inl ⟨reads, _, rfl⟩
  rw [hrd, hqt]
  simp only
  split
  · exact .inl ⟨reads, _, rfl⟩
  · exact .inr ⟨reads, _, rfl, rfl⟩

theorem loadObjects_reads (device : Device g) (layouts : List ObjectLayout) :
    Reads device (loadObjects device layouts) (loadObjects (device.withReads []) layouts) := by
  induction layouts generalizing device with
  | nil => exact .inr ⟨device.faults.reads, [], rfl, rfl⟩
  | cons layout layouts ih =>
    rw [loadObjects, loadObjects]
    rcases readObjectData_reads device layout with
      ⟨reads, error, hrd⟩ | ⟨reads, data, hrd, hqt⟩
    · rw [hrd]
      exact .inl ⟨reads, error, rfl⟩
    rw [hrd, hqt]
    simp only
    rcases ih (device.withReads reads) with ⟨reads', error, hld⟩ | ⟨reads', objects, hld, hqt'⟩
    · rw [hld]
      exact .inl ⟨reads', error, rfl⟩
    · have hqt' : loadObjects (device.withReads []) layouts =
          (.ok objects, device.withReads []) := hqt'
      rw [hld, hqt']
      exact .inr ⟨reads', _, rfl, rfl⟩

theorem readSuperblockSlot_reads (device : Device g) (slot : Nat) :
    Reads device (readSuperblockSlot device slot)
      (readSuperblockSlot (device.withReads []) slot) := by
  unfold readSuperblockSlot
  rcases readBlocks_reads device slot 1 g.logicalBlockSize with
    ⟨reads, error, hrd⟩ | ⟨reads, bytes, hrd, hqt⟩
  · rw [hrd]
    exact .inl ⟨reads, _, rfl⟩
  rw [hrd, hqt]
  simp only
  cases decodeSuperblock g slot bytes with
  | error error => exact .inl ⟨reads, _, rfl⟩
  | ok superblock => exact .inr ⟨reads, superblock, rfl, rfl⟩

/-- A candidate that is taken has loaded its objects. -/
theorem trySlots_reads (device : Device g) (errors : SlotErrors)
    {candidates : List (Nat × Superblock)} {result : Nat × Superblock × List StoredObject}
    {device' : Device g} (h : trySlots device errors candidates = (.ok result, device')) :
    (result.1, result.2.1) ∈ candidates ∧ (∃ reads, device' = device.withReads reads) ∧
      (loadObjects (device.withReads []) result.2.1.objects).1 = .ok result.2.2 := by
  induction candidates generalizing device errors with
  | nil => cases h
  | cons candidate candidates ih =>
    obtain ⟨slot, superblock⟩ := candidate
    rw [trySlots] at h
    -- the next candidate is tried on a device that differs in its faults only
    have hnx : ∀ errors reads, trySlots (device.withReads reads) errors candidates =
        (.ok result, device') → (result.1, result.2.1) ∈ (slot, superblock) :: candidates ∧
          (∃ reads, device' = device.withReads reads) ∧
          (loadObjects (device.withReads []) result.2.1.objects).1 = .ok result.2.2 := by
      intro errors reads htry
      obtain ⟨hmem, ⟨reads', hdv⟩, hld⟩ := ih _ _ htry
      exact ⟨mem_cons_of_mem _ hmem, ⟨reads', hdv⟩, hld⟩
    rcases loadObjects_reads device superblock.objects with
      ⟨reads, error, hld⟩ | ⟨reads, objects, hld, hqt⟩
    · rw [hld] at h
      cases error with
      | corrupt | block | incompatible => exact hnx _ _ h
      | _ => cases h
    · rw [hld] at h
      cases h
      exact ⟨mem_cons_self, ⟨reads, rfl⟩, by rw [hqt]⟩

theorem mem_collectSlots {slots : List (Nat × Except SlotLoadError Superblock)}
    {state : List (Nat × Superblock) × SlotErrors} {candidate : Nat × Superblock}
    (h : candidate ∈ (slots.foldl collectSlot state).1) :
    candidate ∈ state.1 ∨ (candidate.1, .ok candidate.2) ∈ slots := by
  induction slots generalizing state with
  | nil => exact .inl h
  | cons slot slots ih =>
    rcases ih h with hmem | hmem
    · unfold collectSlot at hmem
      split at hmem
      · next superblock heq =>
        rcases mem_append.1 hmem with hmem | hmem
        · exact .inl hmem
        · rw [mem_singleton.1 hmem, ← heq]
          exact .inr mem_cons_self
      · exact .inl hmem
      · exact .inl hmem
      · exact .inl hmem
    · exact .inr (mem_cons_of_mem _ hmem)

theorem selectCommittedState_reads {device device' : Device g}
    {result : Nat × Superblock × List StoredObject}
    (h : selectCommittedState device = (.ok result, device')) :
    result.1 < 2 ∧ (∃ reads, device' = device.withReads reads) ∧
      (readSuperblockSlot (device.withReads []) result.1).1 = .ok result.2.1 ∧
      (loadObjects (device.withReads []) result.2.1.objects).1 = .ok result.2.2 := by
  unfold selectCommittedState at h
  have hfr := readSuperblockSlot_reads device 0
  generalize readSuperblockSlot device 0 = first at h hfr
  obtain ⟨slot0, device0⟩ := first
  obtain ⟨reads0, rfl⟩ : ∃ reads, device0 = device.withReads reads := hfr.device
  have hsc := readSuperblockSlot_reads (device.withReads reads0) 1
  simp only at h
  generalize readSuperblockSlot (device.withReads reads0) 1 = second at h hsc
  obtain ⟨slot1, device1⟩ := second
  obtain ⟨reads1, rfl⟩ : ∃ reads, device1 = (device.withReads reads0).withReads reads := hsc.device
  obtain ⟨hmem, hdv, hld⟩ := trySlots_reads _ _ h
  rw [mem_insertionSort] at hmem
  rcases mem_collectSlots hmem with hmem | hmem
  · cases hmem
  simp only [mem_cons, Prod.mk.injEq, not_mem_nil, or_false] at hmem
  rcases hmem with ⟨hsl, hok⟩ | ⟨hsl, hok⟩
  · refine ⟨by omega, hdv, ?_, hld⟩
    rw [hsl]
    exact hfr.value hok.symm
  · refine ⟨by omega, hdv, ?_, hld⟩
    rw [hsl]
    exact hsc.value hok.symm

/-- A store that was mounted is open, whatever reads failed. -/
theorem mount_opens {device : Device g} {store : ObjectStore g}
    (h : ObjectStore.mount device = .ok store) : ∃ superblock, Open store superblock := by
  unfold ObjectStore.mount at h
  split at h
  · cases h
  next hgm =>
  obtain ⟨-, hus⟩ := validateGeometry_ok_iff.1 hgm
  split at h
  · cases h
  next slot superblock objects device' hsl =>
  cases h
  obtain ⟨hst, ⟨reads, rfl⟩, hrd, hld⟩ := selectCommittedState_reads hsl
  have hdc : Decodes g device.visible slot superblock := by
    rw [readSuperblockSlot_eq hus rfl hst] at hrd
    split at hrd
    · cases hrd
    · next hdd =>
      cases hrd
      exact hdd
  rw [loadObjects_eq rfl ((hdc.table hst).onDevice hus hst)] at hld
  split_ifs at hld with hin
  cases hld
  exact ⟨superblock, hus, hst, hdc, hin, rfl, hdc.staged hst⟩

theorem openStore_opens {device : Device g} {store : ObjectStore g}
    (h : openStore device = .ok store) : ∃ superblock, Open store superblock := by
  unfold openStore at h
  split at h
  · next hmn =>
    cases h
    exact mount_opens hmn
  · exact ⟨_, (format_open h).1⟩
  · cases h

end CleanSlate.Store
