import CleanSlate.Store.Verify.Recovery

/-!
# Failed commits

A store is followed together with what was last committed on it. A commit writes to the other slot
only, wherever it fails. As long as the superblock of that slot is not a newer one, a mount finds
what was last committed; a failed commit that got as far as its superblock has made it newer.
-/

namespace CleanSlate.Store

open Lib ObjectStore

variable {g : BlockGeometry} {device : Device g}

/-! ## Sessions -/

/-- What a commit leaves to be mounted. -/
structure Commitment where
  slot : Nat
  generation : Nat
  objects : List StoredObject

def ObjectStore.commitment (self : ObjectStore g) : Commitment :=
  ⟨self.activeSlot, self.generation, self.objects⟩

/-- A store and what was last committed on it. -/
structure Session (g : BlockGeometry) where
  store : ObjectStore g
  committed : Commitment

/-- A store that was just formatted or mounted. -/
def Session.start (store : ObjectStore g) : Session g := ⟨store, store.commitment⟩

def sessionStep (session : Session g) (op : StoreOp) : Except StoreError Unit × Session g :=
  match op, storeStep session.store op with
  | .commit, (.ok (), store) => (.ok (), ⟨store, store.commitment⟩)
  | _, (result, store) => (result, ⟨store, session.committed⟩)

/-- What was last committed is in the active slot. -/
structure Session.Holds (session : Session g) : Prop where
  superblock : ∃ superblock, Open session.store superblock ∧
    contents g session.store.device.visible superblock = session.committed.objects
  slot : session.store.activeSlot = session.committed.slot
  generation : session.store.generation = session.committed.generation
  reads : session.store.device.faults.reads = []

theorem Session.Holds.start (hrd : device.faults.reads = []) {store : ObjectStore g}
    (h : format device = .ok store ∨ mount device = .ok store) :
    (Session.start store).Holds := by
  rcases h with hfr | hmn
  · obtain ⟨hop, hob, hsm⟩ := format_open hfr
    exact ⟨⟨_, hop, hob.symm⟩, rfl, rfl, hsm.trans hrd⟩
  obtain ⟨superblock, hop, hob, hsm⟩ := mount_open hrd hmn
  refine ⟨⟨superblock, hop, hob⟩, rfl, rfl, ?_⟩
  change store.device.faults.reads = []
  rw [hsm]
  exact hrd

theorem Session.Holds.next {session : Session g} (h : session.Holds) (op : StoreOp) :
    (sessionStep session op).2.Holds := by
  obtain ⟨⟨superblock, hop, hob⟩, hsl, hgn, hrd⟩ := h
  cases op with
  | writeObject id name data =>
    have hnx := hop.writeObject id name data
    obtain ⟨objects, hfr⟩ := writeObject_frame session.store id name data
    change (⟨(session.store.writeObject id name data).2, session.committed⟩ : Session g).Holds
    rw [hfr] at hnx ⊢
    exact ⟨⟨superblock, hnx, hob⟩, hsl, hgn, hrd⟩
  | commit =>
    have hcm := hop.commit
    unfold sessionStep storeStep
    generalize session.store.commit = result at hcm ⊢
    cases hcm with
    | failed issues _ kept same =>
      exact ⟨⟨superblock, kept, same.trans hob⟩, hsl, hgn, issues.reads.trans hrd⟩
    | done _ _ _ reads new _ staged => exact ⟨⟨_, new, staged⟩, rfl, rfl, reads.trans hrd⟩

/-! ## What a commit spares -/

/-- The superblock of the other slot, if it would be mounted before the active one were its payloads
in order. -/
def ObjectStore.Contends (self : ObjectStore g) (superblock : Superblock) : Prop :=
  Decodes g self.device.visible self.nextSlot superblock ∧ Supersedes self superblock

def ObjectStore.Contested (self : ObjectStore g) : Prop := ∃ superblock, self.Contends superblock

def ObjectStore.withFaults (self : ObjectStore g) (faults : Faults) : ObjectStore g :=
  { self with device := { self.device with faults := faults } }

/-- What failed commits leave of the last one that succeeded, and what a commit to come does. -/
structure Session.Spares (session : Session g) : Prop where
  /-- However the device behaves, the blocks a commit writes are not those of the last one. -/
  untouched : ∀ faults, ∃ issued, (session.store.withFaults faults).device.After issued
      (session.store.withFaults faults).commit.2.device ∧
    ∀ w ∈ issued, ¬OfSlot g session.committed.slot w.lba
  /-- A mount finds what was last committed, or else the newer superblock of the other slot. -/
  remount : ∃ mounted, ObjectStore.mount session.store.device = .ok mounted ∧
    (mounted.commitment = session.committed ∨ ∃ superblock, session.store.Contends superblock ∧
      mounted.commitment = ⟨session.store.nextSlot, superblock.generation,
        contents g session.store.device.visible superblock⟩)
  /-- A failed commit is mounted once it has issued its superblock. -/
  failed : ∀ error store, session.store.commit = (.error error, store) →
    store.generation = session.committed.generation ∧
    ∃ issued, session.store.device.Issues store.device issued ∧
      ((∃ w ∈ issued, w.lba = session.store.nextSlot) → store.Contested ∧ ∃ mounted,
        ObjectStore.mount store.device = .ok mounted ∧ mounted.commitment =
          ⟨session.store.nextSlot, session.committed.generation + 1, session.store.objects⟩) ∧
      ((∀ w ∈ issued, w.lba ≠ session.store.nextSlot) →
        (store.Contested ↔ session.store.Contested))
  committed : ∀ store, session.store.commit = (.ok (), store) →
    store.generation = session.committed.generation + 1 ∧ ¬store.Contested
  succeeds : ∀ layouts, g.readOnly = false → session.store.generation + 1 < 2 ^ 64 →
    buildObjectLayout g session.store.nextSlot session.store.objects = .ok layouts →
    session.store.device.faults.writes = [] → session.store.device.faults.flushes = [] →
    session.store.commit.1 = .ok ()

variable {store : ObjectStore g} {superblock : Superblock}

section Spares

variable (h : Open store superblock)
include h

theorem Open.withFaults (faults : Faults) : Open (store.withFaults faults) superblock :=
  ⟨h.usable, h.slot, h.decodes, h.intact, h.generation, h.staged⟩

theorem Open.untouched :
    ∃ issued, store.device.After issued store.commit.2.device ∧
      ∀ w ∈ issued, ¬OfSlot g store.activeSlot w.lba := by
  have hcm := h.commit
  have hap : ∀ {issued}, Confined g store.nextSlot issued →
      ∀ w ∈ issued, ¬OfSlot g store.activeSlot w.lba := fun hcn w hw =>
    (hcn w hw).1.disjoint store.nextSlot_lt h.slot (Ne.symm h.nextSlot_ne)
  generalize store.commit = result at hcm ⊢
  cases hcm with
  | failed issues confined _ _ => exact ⟨_, .inl issues, hap confined⟩
  | done flushed pending confined _ _ _ _ =>
    exact ⟨_, .inr ⟨flushed, pending⟩, hap confined⟩

/-- A mount finds what the active slot holds, or the other one if that is newer. -/
theorem Open.remount (hrd : store.device.faults.reads = []) :
    ∃ mounted, mount store.device = .ok mounted ∧
      (mounted.commitment = ⟨store.activeSlot, store.generation,
        contents g store.device.visible superblock⟩ ∨ ∃ superblock', store.Contends superblock' ∧
        mounted.commitment = ⟨store.nextSlot, superblock'.generation,
          contents g store.device.visible superblock'⟩) := by
  rcases h.mounts with hmn | ⟨superblock', hmn, hnw⟩
  · refine ⟨_, hmn.mount h.usable hrd, .inl ?_⟩
    rw [h.generation]
    rfl
  · exact ⟨_, hmn.mount h.usable hrd, .inr ⟨superblock', ⟨hmn.decodes, hnw⟩, rfl⟩⟩

/-- With all its writes issued, a commit is mounted whether it succeeds or not. -/
theorem Open.superblock_issued (hrd : store.device.faults.reads = []) {layouts : List ObjectLayout}
    (hly : buildObjectLayout g store.nextSlot store.objects = .ok layouts)
    (hgn : store.generation + 1 < 2 ^ 64)
    (his : store.device.Issues device (dataWrites g layouts ++
      superblockWrites g store.nextSlot (nextSuperblock store.generation layouts))) :
    ObjectStore.Contested { store with device := device } ∧ ∃ mounted,
      mount device = .ok mounted ∧
      mounted.commitment = ⟨store.nextSlot, store.generation + 1, store.objects⟩ := by
  obtain ⟨hmn, hcn⟩ := h.written hly hgn
  rw [← his.visible] at hmn hcn
  refine ⟨⟨_, hmn.decodes, .inl (Nat.lt_succ_self _)⟩, _, hmn.mount h.usable
    (his.reads.trans hrd), ?_⟩
  rw [← hcn]
  rfl

end Spares

/-- Without a write of its superblock the other slot is not newer than it was. -/
theorem Device.Issues.contested_iff {issued : List (BlockWrite UInt8)}
    (h : store.device.Issues device issued) (hcn : Confined g store.nextSlot issued)
    (hlba : ∀ w ∈ issued, w.lba ≠ store.nextSlot) :
    ObjectStore.Contested { store with device := device } ↔ store.Contested := by
  refine exists_congr fun superblock => and_congr_left fun _ => ?_
  rw [h.visible]
  exact decodes_apply_iff (fun w hw => (hcn w hw).2) hlba

theorem Open.not_contested {store committed : ObjectStore g} (h : Open store superblock)
    (hcm : store.commit = (.ok (), committed)) :
    committed.generation = store.generation + 1 ∧ ¬committed.Contested := by
  have hdn := h.commit
  rw [hcm] at hdn
  cases hdn with
  | @done device _ issued flushed pending confined _ new _ _ =>
    refine ⟨rfl, ?_⟩
    rintro ⟨superblock', hdc, hnw⟩
    have hvs : device.visible = store.device.visible.apply g.logicalBlockSize issued := by
      rw [Device.visible, pending, ← flushed]
      rfl
    rw [nextSlot_eq new.slot, hvs] at hdc
    have hbh := h.behind confined hdc
    simp only [Supersedes] at hnw
    omega

theorem Session.Holds.spares {session : Session g} (h : session.Holds) : session.Spares := by
  obtain ⟨⟨superblock, hop, hob⟩, hsl, hgn, hrd⟩ := h
  have hrm := hop.remount hrd
  rw [hob, hsl, hgn] at hrm
  refine ⟨fun faults => ?_, hrm, ?_, ?_, ?_⟩
  · rw [← hsl]
    exact (hop.withFaults faults).untouched
  · intro error store hcm
    have hot := commit_outcome session.store
    rw [hcm] at hot
    rw [← hgn]
    cases hot with
    | rejected => exact ⟨rfl, [], .refl _, fun ⟨_, hw, _⟩ => (by cases hw),
        fun _ => Iff.rfl⟩
    | @failed _ device layouts issued hly hls issues cut =>
      refine ⟨rfl, issued, issues, ?_, issues.contested_iff (cut_confined hly cut)⟩
      rintro ⟨w, hw, hlba⟩
      rcases cut with hsub | rfl
      · -- the payloads lie behind both superblocks
        obtain ⟨stop, hst, hld⟩ := buildObjectLayout_ok hly
        exact absurd hlba (dataWrites_lba session.store.nextSlot_lt (hld.placed le_rfl hst) w
          (hsub.subset hw))
      · exact hop.superblock_issued hrd hly hls issues
  · intro store hcm
    rw [← hgn]
    exact hop.not_contested hcm
  · intro layouts hwr hls hly hwt hfs
    obtain ⟨device, hcm, -⟩ := commit_ok hop.usable hwr hwt hfs hop.staged hly hls
    rw [hcm]

/-- **Failed commits.** In every state of a run, whatever writes and flushes have failed: a commit
writes none of the blocks of the last one that succeeded, wherever it fails; a mount finds that
one, or the superblock of the other slot if that is newer, as it is once a failed commit has issued
its own; and the next commit that succeeds has the generation after it. -/
theorem failed_commits_spare_committed (hreads : device.faults.reads = []) {store : ObjectStore g}
    (hstart : ObjectStore.format device = .ok store ∨ ObjectStore.mount device = .ok store)
    (ops : List StoreOp) : (run sessionStep (Session.start store) ops).Spares :=
  (run_invariant sessionStep (Session.Holds.start hreads hstart)
    (fun _ op h => h.next op) ops).spares

/-- The first flush after the format fails. -/
def failingFlush : ObjectStore sixBlocks := formatted [some (.transport .deviceFault)]

theorem failingFlush_commit : ∃ failed mounted,
    (run storeStep failingFlush [.writeObject 1 "object" [7]]).commit =
      (.error (.block (.transport .deviceFault)), failed) ∧
    failed.generation = 0 ∧ ObjectStore.mount failed.device = .ok mounted ∧
    mounted.commitment = ⟨1, 1, [⟨1, "object", [7]⟩]⟩ := by
  have hop := (format_open (format_blank [some (.transport .deviceFault)])).1.writeObject
    1 "object" [7]
  have hly := buildObjectLayout_withOne [some (.transport .deviceFault)]
    (show [7].length ≤ 1024 by decide)
  obtain ⟨-, mounted, hmt, hcm⟩ := hop.superblock_issued rfl hly (by decide)
    (show Device.Issues _ ⟨failingFlush.device.durable, failingFlush.device.pending ++ _, .none⟩ _
      from ⟨rfl, rfl, rfl⟩)
  exact ⟨_, mounted, commit_flush_fails hop.usable rfl rfl hop.staged hly (by decide), rfl, hmt, hcm⟩

/-- After a commit that failed. -/
theorem failed_commits_spare_committed_failed :
    (∃ error failed, (run storeStep failingFlush [.writeObject 1 "object" [7]]).commit =
      (.error error, failed)) ∧
    (run sessionStep (Session.start failingFlush) [.writeObject 1 "object" [7], .commit]).Spares := by
  obtain ⟨failed, -, hcm, -⟩ := failingFlush_commit
  exact ⟨⟨_, failed, hcm⟩, failed_commits_spare_committed rfl (.inl (format_blank _)) _⟩

theorem failed_commit_is_mounted :
    ∃ failed mounted, ObjectStore.format (blank [none, some (.transport .deviceFault)]) =
        .ok failingFlush ∧
      (run storeStep failingFlush [.writeObject 1 "object" [7]]).commit =
        (.error (.block (.transport .deviceFault)), failed) ∧
      failed.generation = 0 ∧ ObjectStore.mount failed.device = .ok mounted ∧
      mounted.generation = 1 ∧ mounted.objects = [⟨1, "object", [7]⟩] := by
  obtain ⟨failed, mounted, hcm, hgn, hmt, heq⟩ := failingFlush_commit
  exact ⟨failed, mounted, format_blank _, hcm, hgn, hmt, congrArg Commitment.generation heq,
    congrArg Commitment.objects heq⟩

end CleanSlate.Store
