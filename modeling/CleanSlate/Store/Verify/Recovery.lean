import CleanSlate.Lib.Run
import CleanSlate.Store.Verify.Staging

/-!
# What survives in a store

At every moment of a run the active slot holds what was last committed. A successful commit is
what a mount finds from then on. A failed one leaves the active slot alone, but once it has written
its superblock the medium may already be mounted from it.
-/

namespace CleanSlate.Store

open Lib ObjectStore

variable {g : BlockGeometry} {issued : List (BlockWrite UInt8)} {layouts : List ObjectLayout}

/-! ## Open stores -/

/-- A store whose active slot holds, under this superblock, what was last committed. -/
structure Open (store : ObjectStore g) (superblock : Superblock) : Prop where
  usable : Usable g
  slot : store.activeSlot < 2
  decodes : Decodes g store.device.visible store.activeSlot superblock
  intact : Intact g store.device.visible superblock
  generation : store.generation = superblock.generation
  staged : Staged store.objects

theorem ObjectStore.nextSlot_lt (store : ObjectStore g) : store.nextSlot < 2 :=
  Nat.mod_lt _ (by decide)

variable {store : ObjectStore g} {device : Device g} {superblock : Superblock}

theorem ObjectStore.nextSlot_eq (h : store.activeSlot < 2) :
    store.nextSlot = 1 - store.activeSlot := by
  unfold nextSlot superblockSlots
  omega

section Open

section

variable (h : Open store superblock)
include h

theorem Open.nextSlot_ne : store.activeSlot ≠ store.nextSlot := by
  have hsl := h.slot
  rw [nextSlot_eq hsl]
  omega

theorem Open.apply (his : store.device.Issues device issued)
    (hcn : Confined g store.nextSlot issued) :
    Open { store with device := device } superblock ∧
      contents g device.visible superblock = contents g store.device.visible superblock := by
  have hnx := store.nextSlot_lt
  have hne := h.nextSlot_ne
  have htb := h.decodes.table h.slot
  refine ⟨⟨h.usable, h.slot, ?_, ?_, h.generation, h.staged⟩, ?_⟩
  · rw [his.visible]
    exact (hcn.decodes_iff h.slot hnx hne).2 h.decodes
  · rw [his.visible]
    exact (hcn.intact_iff h.slot hnx hne htb).2 h.intact
  · rw [his.visible]
    exact hcn.contents_eq h.slot hnx hne htb

theorem Open.writeObject (id : UInt64) (name : String) (data : List UInt8) :
    Open (store.writeObject id name data).2 superblock := by
  rcases writeObject_cases store h.staged id name data with ⟨error, heq⟩ | ⟨-, -, objects, hwr, heq⟩
  · rw [heq]
    exact h
  · rw [heq]
    exact ⟨h.usable, h.slot, h.decodes, h.intact, h.generation, hwr.staged h.staged⟩

/-- The other slot's superblock would be taken before the active one. -/
def Supersedes (store : ObjectStore g) (superblock : Superblock) : Prop :=
  store.generation < superblock.generation ∨
    store.generation = superblock.generation ∧ store.nextSlot ≤ store.activeSlot

theorem Open.mounts : Mounts g store.device.visible store.activeSlot superblock ∨
    ∃ superblock', Mounts g store.device.visible store.nextSlot superblock' ∧
      Supersedes store superblock' := by
  rcases mounts_cases h.slot h.decodes h.intact with hmn | ⟨superblock', hmn, hnw⟩
  · exact .inl hmn
  · rw [← nextSlot_eq h.slot] at hmn hnw
    refine .inr ⟨superblock', hmn, ?_⟩
    rw [Supersedes, h.generation]
    exact hnw

end

end Open

/-! ## Opening a store -/

theorem emptySuperblock_encodable : (⟨0, 0, []⟩ : Superblock).Encodable :=
  ⟨by decide, rfl, by decide, fun _ h => by cases h⟩

section

variable (h : ObjectStore.format device = .ok store)
include h

/-- Formatting writes an empty generation to both slots. -/
theorem format_ok : Usable g ∧ ∃ device', store = ⟨device', 0, 0, []⟩ ∧ device'.pending = [] ∧
      device'.visible = device.visible.apply g.logicalBlockSize
        (superblockWrites g 0 ⟨0, 0, []⟩ ++ superblockWrites g 1 ⟨0, 0, []⟩) ∧
      device'.faults.reads = device.faults.reads := by
  unfold format at h
  split at h
  · cases h
  next g' hgm =>
  obtain ⟨-, hus⟩ := validateGeometry_ok_iff.1 hgm
  have hfr := writeBlocks_wrote device 0 1 (encodeSuperblock g ⟨0, 0, []⟩)
  unfold writeSuperblock at h
  split at h
  · cases h
  next device' hwr =>
  rw [hwr] at hfr
  have hsc := writeBlocks_wrote device' 1 1 (encodeSuperblock g ⟨0, 0, []⟩)
  split at h
  · cases h
  next device'' hwr' =>
  rw [hwr'] at hsc
  cases hfr with
  | ok issues =>
    cases hsc with
    | ok issues' =>
      have hall := issues.trans issues'
      rcases flush_cases device'' with ⟨error, flushed, hfl, -⟩ | ⟨flushed, hfl, hdr, hpn, hrd⟩
      · rw [hfl] at h
        cases h
      · rw [hfl] at h
        cases h
        refine ⟨hus, flushed, rfl, hpn, ?_, hrd.trans hall.reads⟩
        rw [Device.visible, hpn, hdr, hall.visible]
        rfl

theorem format_decodes :
    Decodes g store.device.visible 0 ⟨0, 0, []⟩ ∧ Decodes g store.device.visible 1 ⟨0, 0, []⟩ := by
  obtain ⟨hus, device', rfl, -, hvs, -⟩ := format_ok h
  rw [hvs, Medium.apply_append]
  refine ⟨?_, decodes_superblockWrites hus emptySuperblock_encodable rfl _⟩
  rw [(superblockWrites_confined g 1 _).decodes_iff (by decide) (by decide) (by decide)]
  exact decodes_superblockWrites hus emptySuperblock_encodable rfl _

theorem format_mounts : Mounts g store.device.visible store.activeSlot ⟨0, 0, []⟩ := by
  obtain ⟨hfr, hsc⟩ := format_decodes h
  obtain ⟨hus, device', rfl, -⟩ := format_ok h
  refine ⟨Nat.two_pos, hfr, fun _ h => (by cases h), fun superblock' hdc hnw => ?_⟩
  rw [hdc.unique hsc] at hnw
  simp [Newer] at hnw

theorem format_open : Open store ⟨0, 0, []⟩ ∧ store.objects = [] ∧
      store.device.faults.reads = device.faults.reads := by
  have hmn := format_mounts h
  obtain ⟨hus, device', rfl, -, -, hrd⟩ := format_ok h
  exact ⟨⟨hus, hmn.inRange, hmn.decodes, hmn.intact, rfl, ⟨.nil, Nat.zero_le _⟩⟩, rfl, hrd⟩

end

/-- What formatting returns once it has flushed. -/
def formatAfterFlush : Except BlockIoError Unit × Device g → Except StoreError (ObjectStore g)
  | (.error error, _) => .error (.block error)
  | (.ok (), device) => .ok ⟨device, 0, 0, []⟩

/-- Without write faults, formatting writes both superblocks and flushes. -/
theorem format_eq (hus : Usable g) (hwr : g.readOnly = false) (hwt : device.faults.writes = []) :
    format device = formatAfterFlush (device.issue
      (superblockWrites g 0 ⟨0, 0, []⟩ ++ superblockWrites g 1 ⟨0, 0, []⟩)).flush := by
  have hfr := writeSuperblock_eq hus hwr device hwt Nat.two_pos emptySuperblock_encodable
  have hsc := writeSuperblock_eq hus hwr
    (device.issue (superblockWrites g 0 ⟨0, 0, []⟩)) hwt Nat.one_lt_two
    emptySuperblock_encodable
  unfold format
  rw [validateGeometry_ok_iff.2 ⟨rfl, hus⟩]
  rw [hfr]
  simp only
  rw [hsc, Device.issue_issue]
  rfl

theorem mount_open (hrd : device.faults.reads = []) (h : mount device = .ok store) :
    ∃ superblock, Open store superblock ∧
      contents g store.device.visible superblock = store.objects ∧
      store.device = device := by
  have hus : Usable g := by
    unfold mount at h
    split at h
    · cases h
    · next hgm => exact (validateGeometry_ok_iff.1 hgm).2
  obtain ⟨superblock, hmn, hst⟩ := (mount_ok_iff hus hrd).1 h
  rw [hst]
  exact ⟨superblock, ⟨hus, hmn.inRange, hmn.decodes, hmn.intact, rfl,
    hmn.decodes.staged hmn.inRange⟩, rfl, rfl⟩

/-! ## Commits -/

/-- The device after the writes, in its cache or flushed. -/
def Device.After (device : Device g) (issued : List (BlockWrite UInt8)) (device' : Device g) :
    Prop :=
  device.Issues device' issued ∨
    device'.durable = device.visible.apply g.logicalBlockSize issued ∧ device'.pending = []

/-- The writes a commit issues before it fails go to the inactive slot. -/
theorem cut_confined (hly : buildObjectLayout g store.nextSlot store.objects = .ok layouts)
    (hcut : issued.Sublist (dataWrites g layouts) ∨ issued = dataWrites g layouts ++
      superblockWrites g store.nextSlot (nextSuperblock store.generation layouts)) :
    Confined g store.nextSlot issued := by
  have hpl := plan_confined hly (nextSuperblock store.generation layouts)
  rcases hcut with hsub | rfl
  · exact hpl.sublist (hsub.trans (List.sublist_append_left _ _))
  · exact hpl

section

variable (h : Open store superblock)
include h

/-- Whatever is written to the other slot, the active one has the generation it had. -/
theorem Open.behind {writes : List (BlockWrite UInt8)}
    (hwr : Confined g store.nextSlot writes) {superblock' : Superblock}
    (hdc : Decodes g (store.device.visible.apply g.logicalBlockSize writes)
      (1 - store.nextSlot) superblock') : superblock'.generation = store.generation := by
  have hsl := h.slot
  have hbc : 1 - store.nextSlot = store.activeSlot := by
    rw [nextSlot_eq hsl]
    omega
  rw [hbc, hwr.decodes_iff hsl store.nextSlot_lt h.nextSlot_ne] at hdc
  rw [hdc.unique h.decodes, h.generation]

/-- With all the writes of a commit on the medium, the staged objects are what is mounted. -/
theorem Open.written (hly : buildObjectLayout g store.nextSlot store.objects = .ok layouts)
    (hgn : store.generation + 1 < 2 ^ 64) :
    let image := store.device.visible.apply g.logicalBlockSize (dataWrites g layouts ++
      superblockWrites g store.nextSlot (nextSuperblock store.generation layouts))
    Mounts g image store.nextSlot (nextSuperblock store.generation layouts).stripped ∧
      contents g image (nextSuperblock store.generation layouts).stripped = store.objects := by
  have hnx := store.nextSlot_lt
  obtain ⟨hdc, hin, hcn⟩ := commit_written h.usable hnx h.staged hly hgn store.device.visible
  refine ⟨⟨hnx, hdc, hin, ?_⟩, hcn⟩
  intro superblock' hot hnw
  have hbh := h.behind (plan_confined hly _) hot
  simp only [Newer, nextSuperblock, Superblock.stripped] at hnw
  omega

/-- What a commit leaves. -/
inductive Commits (store : ObjectStore g) (superblock : Superblock) :
    Except StoreError Unit × ObjectStore g → Prop
  | failed {error : StoreError} {device : Device g} {issued : List (BlockWrite UInt8)}
      (issues : store.device.Issues device issued) (confined : Confined g store.nextSlot issued)
      (kept : Open { store with device := device } superblock)
      (same : contents g device.visible superblock = contents g store.device.visible superblock) :
      Commits store superblock (.error error, { store with device := device })
  | done {device : Device g} {superblock' : Superblock} {issued : List (BlockWrite UInt8)}
      (flushed : device.durable = store.device.visible.apply g.logicalBlockSize issued)
      (pending : device.pending = []) (confined : Confined g store.nextSlot issued)
      (reads : device.faults.reads = store.device.faults.reads)
      (new : Open ⟨device, store.generation + 1, store.nextSlot, store.objects⟩ superblock')
      (mounts : Mounts g device.visible store.nextSlot superblock')
      (staged : contents g device.visible superblock' = store.objects) :
      Commits store superblock
        (.ok (), ⟨device, store.generation + 1, store.nextSlot, store.objects⟩)

theorem Open.commit : Commits store superblock store.commit := by
  have hnx := store.nextSlot_lt
  have hot := commit_outcome store
  generalize store.commit = result at hot ⊢
  cases hot with
  | rejected =>
    exact .failed (.refl store.device) (fun w hw => by cases hw) h rfl
  | failed hly _ his hcut =>
    have hcn := cut_confined hly hcut
    obtain ⟨hop, hsm⟩ := h.apply his hcn
    exact .failed his hcn hop hsm
  | @committed device layouts hly hgn hdr hpn hrd =>
    have hvs : device.visible = device.durable := by
      rw [Device.visible, hpn]
      rfl
    obtain ⟨hmn, hct⟩ := h.written hly hgn
    rw [← hdr, ← hvs] at hmn hct
    exact .done hdr hpn (plan_confined hly _) hrd
      ⟨h.usable, hnx, hmn.decodes, hmn.intact, rfl, h.staged⟩ hmn hct

theorem Open.step (op : StoreOp) : (∃ superblock', Open (storeStep store op).2 superblock') ∧
      (storeStep store op).2.device.faults.reads = store.device.faults.reads := by
  cases op with
  | writeObject id name data =>
    refine ⟨⟨superblock, h.writeObject id name data⟩, ?_⟩
    change (store.writeObject id name data).2.device.faults.reads = _
    rw [writeObject_device]
  | commit =>
    have hcm := h.commit
    change (∃ superblock', Open store.commit.2 superblock') ∧ store.commit.2.device.faults.reads = _
    generalize store.commit = result at hcm ⊢
    cases hcm with
    | failed issues _ kept _ => exact ⟨⟨_, kept⟩, issues.reads⟩
    | done _ _ _ reads new _ _ => exact ⟨⟨_, new⟩, reads⟩

end

/-- A call of `write_object`. -/
structure WriteCall where
  id : UInt64
  name : String
  data : List UInt8

def WriteCall.op (self : WriteCall) : StoreOp := .writeObject self.id self.name self.data

theorem run_writes_device (store : ObjectStore g) (writes : List WriteCall) :
    (run storeStep store (writes.map WriteCall.op)).device = store.device := by
  induction writes generalizing store with
  | nil => rfl
  | cons write writes ih =>
    exact (ih _).trans (writeObject_device store write.id write.name write.data)

/-- Every store a run reaches is open, and its device still reads. -/
theorem run_open (h : Open store superblock) (hrd : store.device.faults.reads = [])
    (ops : List StoreOp) :
    (∃ superblock', Open (run storeStep store ops) superblock') ∧
      (run storeStep store ops).device.faults.reads = [] := by
  refine run_invariant storeStep (P := fun s =>
    (∃ superblock', Open s superblock') ∧ s.device.faults.reads = []) ⟨⟨superblock, h⟩, hrd⟩ ?_
    ops
  rintro s op ⟨⟨superblock', hop⟩, hrd⟩
  obtain ⟨hnx, hsm⟩ := hop.step op
  exact ⟨hnx, hsm.trans hrd⟩

/-! ## Mounting what was committed -/

/-- **Commit and mount.** Whatever a run from `format` has staged and committed, after a successful
commit a mount finds the objects and the generation the store then had, and does so while more
objects are staged. -/
theorem mount_after_commit {device : Device g} (hreads : device.faults.reads = [])
    {store : ObjectStore g} (hformat : ObjectStore.format device = .ok store) (ops : List StoreOp)
    {committed : ObjectStore g}
    (hcommit : (run storeStep store ops).commit = (.ok (), committed)) (writes : List WriteCall) :
    ∃ mounted, ObjectStore.mount
        (run storeStep committed (writes.map WriteCall.op)).device = .ok mounted ∧
      mounted.objects = committed.objects ∧ mounted.generation = committed.generation := by
  obtain ⟨hop, -, hsm⟩ := format_open hformat
  obtain ⟨⟨superblock, hrun⟩, hreads⟩ := run_open hop (hsm.trans hreads) ops
  have hdn := hrun.commit
  rw [hcommit] at hdn
  cases hdn with
  | @done device superblock' issued flushed pending confined reads new mounts staged =>
    rw [run_writes_device]
    exact ⟨_, mounts.mount new.usable (reads.trans hreads), staged, new.generation.symm⟩

/-- Six blocks of 512 bytes, moved one at a time: two blocks in each arena. -/
def sixBlocks : BlockGeometry where
  logicalBlockSize := 512
  blockCount := 6
  maxTransferBlocks := 1
  readOnly := false
  blockSize_pos := by decide
  blockCount_pos := by decide
  maxTransfer_pos := by decide
  blockSize_lt := by decide
  maxTransfer_lt := by decide
  capacity_lt := by decide

theorem sixBlocks_usable : Usable sixBlocks := ⟨by decide, by decide⟩

/-- An empty device that is going to have these flushes. -/
def blank (flushes : List (Option BlockIoError)) : Device sixBlocks :=
  ⟨fun _ => 0, [], ⟨[], [], flushes⟩⟩

/-- The store on it, once formatted. -/
def formatted (flushes : List (Option BlockIoError)) : ObjectStore sixBlocks :=
  ⟨⟨Medium.apply 512 (fun _ => 0) (superblockWrites sixBlocks 0 ⟨0, 0, []⟩ ++
    superblockWrites sixBlocks 1 ⟨0, 0, []⟩), [], ⟨[], [], flushes⟩⟩, 0, 0, []⟩

variable {data : List UInt8}

section Formatted
variable (flushes : List (Option BlockIoError))

theorem format_blank : format (blank (none :: flushes)) = .ok (formatted flushes) := by
  rw [format_eq sixBlocks_usable rfl rfl]
  rfl

/-- The store with one object staged. -/
def withOne (data : List UInt8) : ObjectStore sixBlocks :=
  { formatted flushes with objects := [⟨1, "object", data⟩] }

theorem withOne_staged (data : List UInt8) : Staged (withOne flushes data).objects :=
  ⟨List.pairwise_singleton _ _, Nat.succ_le_succ (Nat.zero_le _)⟩

theorem run_formatted (h : data.length ≤ 1024) :
    run storeStep (formatted flushes) [.writeObject 1 "object" data] = withOne flushes data := by
  have hnm : validateObjectName "object" = .ok () := rfl
  have hlen : ¬data.length > u32Max := by
    unfold u32Max
    omega
  simp [run, storeStep, writeObject, hnm, hlen, formatted, targetIndex, withOne, maxObjects]

/-- One object of up to two blocks fits. -/
theorem buildObjectLayout_one {slot : Nat} (hsl : slot < 2) (id : UInt64) (h : data.length ≤ 1024) :
    buildObjectLayout sixBlocks slot [⟨id, "object", data⟩] =
      .ok [layoutOf sixBlocks (2 + slot * 2) ⟨id, "object", data⟩] := by
  have hnm : validateObjectName "object" = .ok () := rfl
  have hlen : ¬data.length > u32Max := by
    unfold u32Max
    omega
  have hbl : objectBlocks sixBlocks data.length ≤ 2 := by
    unfold objectBlocks sixBlocks
    simp only
    split <;> omega
  have har : slotDataArena sixBlocks slot = (2 + slot * 2, 2 + slot * 2 + 2) := rfl
  simp only [buildObjectLayout, har, layoutObjects, hnm, if_neg hlen]
  rw [if_neg (by omega)]
  simp only
  rw [if_neg (by omega), layoutOf]

theorem buildObjectLayout_withOne (h : data.length ≤ 1024) :
    buildObjectLayout sixBlocks (withOne flushes data).nextSlot (withOne flushes data).objects =
      .ok [layoutOf sixBlocks 4 ⟨1, "object", data⟩] :=
  buildObjectLayout_one (withOne flushes data).nextSlot_lt 1 h

end Formatted

/-- Two blocks of payload, in two transfers. -/
theorem mount_after_commit_two_transfers :
    ∃ store committed mounted, ObjectStore.format (blank [none]) = .ok store ∧
      (run storeStep store [.writeObject 1 "object" (List.replicate 600 7)]).commit =
        (.ok (), committed) ∧
      ObjectStore.mount committed.device = .ok mounted ∧
      mounted.objects = committed.objects ∧ mounted.generation = committed.generation := by
  have hlen : (List.replicate 600 (7 : UInt8)).length ≤ 1024 := by
    rw [List.length_replicate]
    decide
  obtain ⟨committed, hcm⟩ : ∃ committed, (run storeStep (formatted [])
      [.writeObject 1 "object" (List.replicate 600 7)]).commit = (.ok (), committed) := by
    rw [run_formatted [] hlen]
    obtain ⟨device, hcm, -⟩ := commit_ok sixBlocks_usable rfl rfl rfl (withOne_staged [] _)
      (buildObjectLayout_withOne [] hlen) (by decide)
    exact ⟨_, hcm⟩
  obtain ⟨mounted, hmn, hob, hgn⟩ := mount_after_commit rfl (format_blank []) _ hcm []
  exact ⟨_, committed, mounted, format_blank [], hcm, hmn, hob, hgn⟩

end CleanSlate.Store
