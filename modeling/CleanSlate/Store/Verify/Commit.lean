import CleanSlate.Store.Verify.Mount

/-!
# What a commit writes

A commit writes to the blocks of the inactive slot only, its superblock last. With all its writes
on the medium that slot holds the staged objects; with any of them, the active slot is as it was.
-/

namespace CleanSlate.Store

open Lib List ObjectStore Device

variable {g : BlockGeometry} {writes' : List (BlockWrite UInt8)} {layout : ObjectLayout}
  {image : Medium UInt8} {a b : Nat}

/-- The slot a commit goes to. -/
def ObjectStore.nextSlot (self : ObjectStore g) : Nat := (self.activeSlot + 1) % superblockSlots

/-- The superblock a commit of the layouts writes. -/
def nextSuperblock (generation : Nat) (layouts : List ObjectLayout) : Superblock :=
  ⟨generation + 1, layouts.length, layouts⟩

def superblockWrites (g : BlockGeometry) (slot : Nat) (superblock : Superblock) :
    List (BlockWrite UInt8) :=
  blockWrites g.logicalBlockSize slot (encodeSuperblock g superblock) 1

/-! ## Outcomes -/

/-- How a commit comes out: rejected before any write; failed with some of its payload writes, or
with all its writes issued; or committed. -/
inductive CommitOutcome (store : ObjectStore g) : Except StoreError Unit × ObjectStore g → Prop
  | rejected {error : StoreError} : CommitOutcome store (.error error, store)
  | failed {error : StoreError} {device : Device g} {layouts : List ObjectLayout}
      {issued : List (BlockWrite UInt8)}
      (layout : buildObjectLayout g store.nextSlot store.objects = .ok layouts)
      (generation : store.generation + 1 < 2 ^ 64)
      (issues : store.device.Issues device issued)
      (cut : issued.Sublist (dataWrites g layouts) ∨ issued = dataWrites g layouts ++
        superblockWrites g store.nextSlot (nextSuperblock store.generation layouts)) :
      CommitOutcome store (.error error, { store with device := device })
  | committed {device : Device g} {layouts : List ObjectLayout}
      (layout : buildObjectLayout g store.nextSlot store.objects = .ok layouts)
      (generation : store.generation + 1 < 2 ^ 64)
      (durable : device.durable = store.device.visible.apply g.logicalBlockSize
        (dataWrites g layouts ++
          superblockWrites g store.nextSlot (nextSuperblock store.generation layouts)))
      (pending : device.pending = [])
      (reads : device.faults.reads = store.device.faults.reads) :
      CommitOutcome store (.ok (), ⟨device, store.generation + 1, store.nextSlot, store.objects⟩)

variable {slot generation : Nat} {superblock : Superblock} {writes : List (BlockWrite UInt8)}
  {layouts : List ObjectLayout} {objects : List StoredObject}

/-- A superblock is one block: it was written or it was not. -/
theorem sublist_superblockWrites {issued : List (BlockWrite UInt8)}
    (h : issued.Sublist (superblockWrites g slot superblock)) :
    issued = [] ∨ issued = superblockWrites g slot superblock := by
  have hlen : (superblockWrites g slot superblock).length = 1 := by
    simp [superblockWrites, blockWrites]
  cases issued with
  | nil => exact .inl rfl
  | cons w issued =>
    refine .inr (h.eq_of_length_le ?_)
    rw [hlen]
    simp

theorem flush_cases (device : Device g) :
    (∃ error device', device.flush = (.error error, device') ∧ device.Issues device' []) ∨
    ∃ device', device.flush = (.ok (), device') ∧ device'.durable = device.visible ∧
      device'.pending = [] ∧ device'.faults.reads = device.faults.reads := by
  unfold flush nextFlush
  cases device.faults.flushes with
  | nil => exact .inr ⟨_, rfl, rfl, rfl, rfl⟩
  | cons fault flushes =>
    cases fault with
    | none => exact .inr ⟨_, rfl, rfl, rfl, rfl⟩
    | some error => exact .inl ⟨error, _, rfl, rfl, (append_nil _).symm, rfl⟩

theorem Device.Issues.visible {device device' : Device g} (h : device.Issues device' writes) :
    device'.visible = device.visible.apply g.logicalBlockSize writes := by
  unfold Device.visible
  rw [h.durable, h.pending, Medium.apply_append]

theorem commit_outcome (store : ObjectStore g) : CommitOutcome store store.commit := by
  unfold commit
  simp only
  rw [← nextSlot]
  split_ifs with hgn
  · exact .rejected
  have hgn := Nat.not_le.1 hgn
  split
  · exact .rejected
  next layouts hly =>
  have hdt := writeLayouts_wrote store.device layouts
  generalize writeLayouts store.device layouts = result at hdt ⊢
  cases hdt with
  | error sublist issues => exact .failed hly hgn issues (.inl sublist)
  | @ok device issues =>
    have hsp := writeBlocks_wrote device store.nextSlot 1
      (encodeSuperblock g (nextSuperblock store.generation layouts))
    rw [← superblockWrites, ← writeSuperblock] at hsp
    simp only
    rw [← nextSuperblock]
    generalize writeSuperblock device store.nextSlot _ = result at hsp ⊢
    cases hsp with
    | error sublist issues' =>
      rcases sublist_superblockWrites sublist with rfl | rfl
      · have his := issues.trans issues'
        rw [append_nil] at his
        exact .failed hly hgn his (.inl (List.Sublist.refl _))
      · exact .failed hly hgn (issues.trans issues') (.inr rfl)
    | @ok device' issues' =>
      have hall := issues.trans issues'
      simp only
      rcases flush_cases device' with ⟨error, device'', hfl, hiu⟩ | ⟨device'', hfl, hdr, hpn, hrd⟩
      · rw [hfl]
        have his := hall.trans hiu
        rw [append_nil] at his
        exact .failed hly hgn his (.inr rfl)
      · rw [hfl]
        refine .committed hly hgn ?_ hpn (hrd.trans hall.reads)
        rw [hdr, hall.visible]

/-! ## Where the writes go -/

/-- Writes of whole blocks of a slot. -/
def Confined (g : BlockGeometry) (slot : Nat) (writes : List (BlockWrite UInt8)) : Prop :=
  ∀ w ∈ writes, OfSlot g slot w.lba ∧ w.data.length ≤ g.logicalBlockSize

theorem Confined.sublist (h : Confined g slot writes) (hsub : writes'.Sublist writes) :
    Confined g slot writes' :=
  fun w hw => h w (hsub.subset hw)

theorem Confined.append (h : Confined g slot writes) (h' : Confined g slot writes') :
    Confined g slot (writes ++ writes') := by
  intro w hw
  rcases mem_append.1 hw with hw | hw
  · exact h w hw
  · exact h' w hw

theorem superblockWrites_confined (g : BlockGeometry) (slot : Nat) (superblock : Superblock) :
    Confined g slot (superblockWrites g slot superblock) := by
  intro w hw
  have hwr := mem_blockWrites hw
  exact ⟨Or.inl (by omega), hwr.2.2⟩

theorem dataWrites_confined (h : ∀ layout ∈ layouts, Placed g (slotDataArena g slot) layout) :
    Confined g slot (dataWrites g layouts) := by
  intro w hw
  obtain ⟨layout, hmem, hfr, hls, hlen⟩ := mem_dataWrites hw
  have hpl := h layout hmem
  exact ⟨Or.inr ⟨Nat.le_trans hpl.first hfr, Nat.lt_of_lt_of_le hls hpl.last⟩, hlen⟩

theorem dataWrites_lba {slot' : Nat} (hsl' : slot' < 2)
    (h : ∀ layout ∈ layouts, Placed g (slotDataArena g slot) layout) :
    ∀ w ∈ dataWrites g layouts, w.lba ≠ slot' := by
  intro w hw
  obtain ⟨layout, hmem, hfr, -⟩ := mem_dataWrites hw
  have hpl := (h layout hmem).first
  rw [slotDataArena_fst] at hpl
  omega

variable {slot' : Nat}

section Frame

theorem decodes_apply_iff (hlen : ∀ w ∈ writes, w.data.length ≤ g.logicalBlockSize)
    (hlba : ∀ w ∈ writes, w.lba ≠ slot) :
    Decodes g (image.apply g.logicalBlockSize writes) slot superblock ↔
      Decodes g image slot superblock := by
  have hpk : (image.apply g.logicalBlockSize writes).peek (slot * g.logicalBlockSize)
      g.logicalBlockSize = image.peek (slot * g.logicalBlockSize) g.logicalBlockSize := by
    refine Medium.peek_congr fun i hi hlt => Medium.apply_of_not_mem hlen fun w hw => ?_
    rcases Nat.lt_or_gt_of_ne (hlba w hw) with hlt' | hgt
    · right
      exact Nat.le_trans (Nat.mul_le_mul_right _ hlt') hi
    have hmul : (slot + 1) * g.logicalBlockSize ≤ w.lba * g.logicalBlockSize :=
      Nat.mul_le_mul_right _ hgt
    rw [Nat.succ_mul] at hmul
    omega
  unfold Decodes
  rw [hpk]

section

variable (h : Confined g slot' writes)
include h

section

variable (hslot : slot < 2) (hslot' : slot' < 2) (hne : slot ≠ slot')
include hslot hslot' hne

theorem Confined.decodes_iff : Decodes g (image.apply g.logicalBlockSize writes) slot superblock ↔
      Decodes g image slot superblock := by
  refine decodes_apply_iff (fun w hw => (h w hw).2) fun w hw heq => ?_
  exact OfSlot.disjoint hslot' hslot (Ne.symm hne) (h w hw).1 (.inl heq)

theorem Confined.payload_eq (hpl : Placed g (slotDataArena g slot) layout) :
    payload g (image.apply g.logicalBlockSize writes) layout = payload g image layout := by
  refine payload_apply_of_disjoint hpl.len (fun w hw => (h w hw).2) fun w hw => ?_
  have hap := OfSlot.disjoint hslot' hslot (Ne.symm hne) (h w hw).1
  unfold OfSlot at hap
  have hfr := hpl.first
  have hls := hpl.last
  omega

theorem Confined.intact_iff (htb : Table g slot superblock.objects) :
    Intact g (image.apply g.logicalBlockSize writes) superblock ↔ Intact g image superblock := by
  refine forall₂_congr fun layout hmem => ?_
  unfold Sound
  rw [h.payload_eq hslot hslot' hne (htb.placed layout hmem)]

theorem Confined.contents_eq (htb : Table g slot superblock.objects) :
    contents g (image.apply g.logicalBlockSize writes) superblock =
      contents g image superblock := by
  refine map_congr_left fun layout hmem => ?_
  unfold loaded
  rw [h.payload_eq hslot hslot' hne (htb.placed layout hmem)]

end

end

end Frame

/-! ## A commit on the medium -/

/-- A superblock of objects that were laid out fits its block. -/
theorem superblock_encodable (hst : Staged objects)
    (hly : buildObjectLayout g slot objects = .ok layouts)
    (hgn : generation < 2 ^ 64) :
    Superblock.Encodable ⟨generation, layouts.length, layouts⟩ := by
  obtain ⟨stop, -, hld⟩ := buildObjectLayout_ok hly
  refine ⟨hgn, rfl, ?_, hld.encodable⟩
  have hcp := hst.capacity
  rw [← hld.map_object, length_map] at hcp
  exact hcp

theorem intact_nextSuperblock_iff : Intact g image (nextSuperblock generation layouts).stripped ↔
      ∀ layout ∈ layouts, Sound g image layout :=
  forall_mem_map

theorem contents_nextSuperblock_iff (hld : LaidOut g a objects layouts b) :
    contents g image (nextSuperblock generation layouts).stripped = objects ↔
      ∀ layout ∈ layouts, payload g image layout = layout.data := by
  rw [← hld.map_object]
  unfold contents Superblock.stripped nextSuperblock
  rw [map_map, map_inj_left]
  refine forall₂_congr fun layout _ => ?_
  change ⟨layout.id, layout.name, payload g image layout⟩ = layout.object ↔ _
  simp [ObjectLayout.object]

theorem plan_confined (hly : buildObjectLayout g slot objects = .ok layouts)
    (superblock : Superblock) :
    Confined g slot (dataWrites g layouts ++ superblockWrites g slot superblock) := by
  obtain ⟨stop, hst, hld⟩ := buildObjectLayout_ok hly
  exact (dataWrites_confined (hld.placed le_rfl hst)).append
    (superblockWrites_confined g slot superblock)

/-- A superblock that was written is the one its slot decodes to. -/
theorem decodes_superblockWrites (hus : Usable g) (hen : superblock.Encodable)
    (hly : validateLayouts g slot (superblock.objects.map ObjectLayout.stripped) = .ok ())
    (image : Medium UInt8) :
    Decodes g (image.apply g.logicalBlockSize (superblockWrites g slot superblock)) slot
      superblock.stripped := by
  have hlen := length_encodeSuperblock hus hen
  unfold Decodes superblockWrites
  rw [Medium.apply_blockWrites _ _ _ (by rw [hlen, Nat.one_mul]), Medium.peek_poke_self hlen]
  exact decodeSuperblock_encodeSuperblock hus hen hly

theorem payload_superblockWrites (hslot : slot < 2)
    (hpl : Placed g (slotDataArena g slot) layout) (image : Medium UInt8) :
    payload g (image.apply g.logicalBlockSize (superblockWrites g slot superblock)) layout =
      payload g image layout := by
  refine payload_apply_of_disjoint hpl.len
    (fun w hw => (superblockWrites_confined g slot superblock w hw).2) fun w hw => .inl ?_
  have hwr := mem_blockWrites hw
  have hfr := hpl.first
  rw [slotDataArena_fst] at hfr
  omega

/-- With all its writes on the medium, the slot of a commit holds the staged objects. -/
theorem commit_written (hus : Usable g) (hslot : slot < 2) (hst : Staged objects)
    (hly : buildObjectLayout g slot objects = .ok layouts)
    (hgn : generation + 1 < 2 ^ 64) (image : Medium UInt8) :
    let image' := image.apply g.logicalBlockSize (dataWrites g layouts ++
      superblockWrites g slot (nextSuperblock generation layouts))
    Decodes g image' slot (nextSuperblock generation layouts).stripped ∧
      Intact g image' (nextSuperblock generation layouts).stripped ∧
      contents g image' (nextSuperblock generation layouts).stripped = objects := by
  intro image'
  obtain ⟨stop, hsp, hld⟩ := buildObjectLayout_ok hly
  have hpy : ∀ layout ∈ layouts, payload g image' layout = layout.data := by
    intro layout hmem
    have hpl := hld.placed le_rfl hsp layout hmem
    change payload g (image.apply g.logicalBlockSize (_ ++ _)) layout = _
    rw [Medium.apply_append, payload_superblockWrites hslot hpl]
    exact hld.payload image layout hmem
  refine ⟨?_, ?_, ?_⟩
  · change Decodes g (image.apply g.logicalBlockSize (_ ++ _)) slot _
    rw [Medium.apply_append]
    exact decodes_superblockWrites hus (superblock_encodable hst hly hgn)
      (hld.validateLayouts hst le_rfl hsp (arena_lt hslot)) _
  · refine intact_nextSuperblock_iff.2 fun layout hmem => .inr ?_
    obtain ⟨lba, object, heq, -⟩ := hld.mem hmem
    rw [hpy layout hmem, heq]
    rfl
  · exact (contents_nextSuperblock_iff hld).2 hpy

/-! ## Without faults -/

variable {store : ObjectStore g}

section Faultless
variable {device : Device g}

/-- The device with more writes in its cache. -/
def Device.issue (device : Device g) (writes : List (BlockWrite UInt8)) : Device g := { device with
  pending := device.pending ++ writes }

theorem Device.issue_issue (device : Device g) (writes writes' : List (BlockWrite UInt8)) :
    (device.issue writes).issue writes' = device.issue (writes ++ writes') := by
  simp [issue]

theorem writeBlocks_eq (hwr : device.faults.writes = []) (hwt : g.readOnly = false)
    {lba blocks : Nat} {buffer : List UInt8} (hpos : 0 < blocks)
    (hmax : blocks ≤ g.maxTransferBlocks) (hlen : buffer.length = blocks * g.logicalBlockSize)
    (hrn : lba + blocks ≤ g.blockCount) :
    device.writeBlocks lba blocks buffer =
      (.ok (), device.issue (blockWrites g.logicalBlockSize lba buffer blocks)) := by
  have hfl : device.nextWrite = (none, device) := by
    unfold nextWrite
    rw [hwr]
  rw [Nat.mul_comm] at hlen
  unfold writeBlocks BlockGeometry.validateWrite
  rw [BlockGeometry.validateTransfer_ok hpos hmax hlen hrn fun _ => hwt, hfl]
  rfl

theorem writeChunks_eq (hwr : g.readOnly = false) {object : ObjectLayout}
    {tiles : List (Nat × Nat)} (h : Tiles g.maxTransferBlocks a tiles b)
    (hrn : object.startLba + b ≤ g.blockCount) (device : Device g)
    (hwt : device.faults.writes = []) :
    writeChunks object device tiles =
      (.ok (), device.issue (tiles.flatMap (chunkWrites g object))) := by
  induction h generalizing device with
  | nil => simp [writeChunks, issue]
  | @cons a n b rest pos le tiles ih =>
    have hle := tiles.le
    rw [writeChunks, writeBlocks_eq hwt hwr pos le (length_chunkBuffer _ _ _) (by simp only; omega)]
    simp only
    rw [ih hrn (device.issue _) (by exact hwt), issue_issue, flatMap_cons, chunkWrites]

theorem writeLayouts_eq (hwr : g.readOnly = false)
    (h : ∀ layout ∈ layouts, layout.startLba + layout.blockCount ≤ g.blockCount)
    (device : Device g) (hwt : device.faults.writes = []) :
    writeLayouts device layouts = (.ok (), device.issue (dataWrites g layouts)) := by
  induction layouts generalizing device with
  | nil => simp [writeLayouts, dataWrites, issue]
  | cons layout layouts ih =>
    have hob : writeObjectData device layout = (.ok (), device.issue (objectWrites g layout)) := by
      unfold writeObjectData objectWrites
      split
      · simp [issue]
      · exact writeChunks_eq hwr (chunks_tile g.maxTransfer_pos layout.blockCount)
          (h layout mem_cons_self) device hwt
    rw [writeLayouts, hob]
    simp only
    rw [ih (fun l hl => h l (mem_cons_of_mem _ hl)) (device.issue _) (by exact hwt),
      issue_issue, dataWrites_cons]

theorem writeSuperblock_eq (hus : Usable g) (hwr : g.readOnly = false) (device : Device g)
    (hwt : device.faults.writes = []) (hslot : slot < 2) (hen : superblock.Encodable) :
    writeSuperblock device slot superblock =
      (.ok (), device.issue (superblockWrites g slot superblock)) := by
  have hlen := length_encodeSuperblock hus hen
  have har := slotDataArena_le hus hslot
  rw [slotDataArena_snd] at har
  exact writeBlocks_eq hwt hwr Nat.one_pos g.maxTransfer_pos (by rw [hlen, Nat.one_mul]) (by omega)

/-- What a commit returns once it has flushed. -/
def ObjectStore.afterFlush (self : ObjectStore g) :
    Except BlockIoError Unit × Device g → Except StoreError Unit × ObjectStore g
  | (.error error, device) => (.error (.block error), { self with device := device })
  | (.ok (), device) => (.ok (), ⟨device, self.generation + 1, self.nextSlot, self.objects⟩)

section

variable (husable : Usable g) (hwritable : g.readOnly = false)
include husable hwritable

/-- Without write faults, a commit whose objects fit issues all its writes and flushes. -/
theorem commit_eq (hwr : store.device.faults.writes = []) (hst : Staged store.objects)
    (hly : buildObjectLayout g store.nextSlot store.objects = .ok layouts)
    (hgn : store.generation + 1 < 2 ^ 64) :
    store.commit = store.afterFlush (store.device.issue (dataWrites g layouts ++
      superblockWrites g store.nextSlot (nextSuperblock store.generation layouts))).flush := by
  obtain ⟨stop, hsp, hld⟩ := buildObjectLayout_ok hly
  have hslot : store.nextSlot < 2 := Nat.mod_lt _ (by decide)
  have hdt := writeLayouts_eq hwritable (fun layout hmem => Nat.le_trans
    (hld.placed le_rfl hsp layout hmem).last (slotDataArena_le husable hslot))
    store.device hwr
  have hsr := writeSuperblock_eq husable hwritable (store.device.issue (dataWrites g layouts))
    hwr hslot (superblock_encodable hst hly hgn)
  unfold commit
  rw [← nextSlot, if_neg (Nat.not_le.2 hgn), hly]
  simp only
  rw [hdt]
  simp only
  rw [hsr, issue_issue]
  rfl

/-- A commit whose objects fit succeeds on a device without faults. -/
theorem commit_ok (hwr : store.device.faults.writes = [])
    (hfl : store.device.faults.flushes = []) (hst : Staged store.objects)
    (hly : buildObjectLayout g store.nextSlot store.objects = .ok layouts)
    (hgn : store.generation + 1 < 2 ^ 64) :
    ∃ device, store.commit =
        (.ok (), ⟨device, store.generation + 1, store.nextSlot, store.objects⟩) ∧
      device.faults = store.device.faults := by
  rw [commit_eq husable hwritable hwr hst hly hgn]
  unfold flush nextFlush issue
  simp only [hfl]
  exact ⟨_, rfl, rfl⟩

/-- With only its flush failing, a commit leaves all its writes in the cache. -/
theorem commit_flush_fails {error : BlockIoError}
    (hfl : store.device.faults = ⟨[], [], [some error]⟩) (hst : Staged store.objects)
    (hly : buildObjectLayout g store.nextSlot store.objects = .ok layouts)
    (hgn : store.generation + 1 < 2 ^ 64) :
    store.commit = (.error (.block error), { store with
      device := ⟨store.device.durable, store.device.pending ++ (dataWrites g layouts ++
        superblockWrites g store.nextSlot (nextSuperblock store.generation layouts)), .none⟩ }) := by
  rw [commit_eq husable hwritable (by rw [hfl]) hst hly hgn]
  unfold flush nextFlush issue
  simp only [hfl]
  rfl

end

end Faultless

/-! ## On a read-only device -/

section ReadOnly
variable (hreadOnly : g.readOnly = true) (device : Device g)
include hreadOnly

theorem writeBlocks_readOnly (lba blocks : Nat) (buffer : List UInt8) :
    ∃ error, device.writeBlocks lba blocks buffer = (.error error, device) := by
  have her : ∃ error, g.validateWrite lba blocks buffer.length = .error error := by
    unfold BlockGeometry.validateWrite BlockGeometry.validateTransfer
    simp only [hreadOnly, and_self, if_true]
    split_ifs
    all_goals exact ⟨_, rfl⟩
  obtain ⟨error, her⟩ := her
  unfold writeBlocks
  rw [her]
  exact ⟨error, rfl⟩

theorem writeObjectData_readOnly (object : ObjectLayout) :
    (writeObjectData device object).2 = device := by
  unfold writeObjectData
  split
  · rfl
  cases chunks g.maxTransferBlocks object.blockCount with
  | nil => rfl
  | cons chunk rest =>
    obtain ⟨error, her⟩ := writeBlocks_readOnly hreadOnly device
      (object.startLba + chunk.1) chunk.2 (chunkBuffer g object.data chunk)
    rw [writeChunks, her]

theorem writeLayouts_readOnly (layouts : List ObjectLayout) :
    (writeLayouts device layouts).2 = device := by
  induction layouts with
  | nil => rfl
  | cons layout layouts ih =>
    have hob := writeObjectData_readOnly hreadOnly device layout
    rw [writeLayouts]
    split
    · next heq =>
      rw [heq] at hob
      exact hob
    · next heq =>
      simp only [heq] at hob
      rw [hob]
      exact ih

theorem commit_readOnly (store : ObjectStore g) : store.commit.2 = store := by
  unfold commit
  simp only
  split_ifs
  · rfl
  · split
    · rfl
    next layouts _ =>
    have hly := writeLayouts_readOnly hreadOnly store.device layouts
    split
    · next heq =>
      simp only [heq] at hly
      rw [hly]
    · next heq =>
      simp only [heq] at hly
      rw [hly]
      obtain ⟨error, her⟩ := writeBlocks_readOnly hreadOnly store.device store.nextSlot 1
        (encodeSuperblock g (nextSuperblock store.generation layouts))
      unfold writeSuperblock
      rw [← nextSuperblock, ← nextSlot, her]

end ReadOnly

end CleanSlate.Store
